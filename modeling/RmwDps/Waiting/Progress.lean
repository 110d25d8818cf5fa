import RmwDps.Waiting.Released

/-!
# Waiting makes progress

What has begun can go on: a call waits for an internal mutex only while a callback holds
it, and a callback waits for nobody.  And it comes to an end: with each section there is
less to be done.  So when calls and callbacks are left to themselves, all callbacks
return, and every call returns too or sleeps with nothing to report.  A call that has
something to report, or that a callback brings it to, returns.
-/

namespace RmwDps
namespace Waiting

open Transition (Machine)

/-! ## Sections that wait for nothing from outside -/

/-- A section of a call or of a callback that has begun.  Spurious wakeups and the time
that passes come from outside. -/
def WaitAction.Internal : WaitAction → Prop
  | .attach _ | .check _ | .recheck _ | .detach _ | .test _ | .finish _ => True
  | .change _ | .notify _ | .leave _ => True
  | .start _ _ _ _ | .wake _ | .expire _ | .callback _ _ | .take _ => False

/-- No callback has begun, and every call sleeps or has returned. -/
def WaitState.Quiet (s : WaitState) : Prop :=
  (∀ id, s.callbacks id = none) ∧
    ∀ t call, s.calls t = some call →
      call.phase = .blocked ∨ ∃ timeout, call.phase = .returned timeout

/-- The phase of a call is within its arrays. -/
def WaitCall.InBounds (call : WaitCall) : Prop :=
  match call.phase with
  | .attaching count => count ≤ call.entities.length
  | .filtering _ index false => index ≤ call.entities.length
  | .filtering _ index true => index < call.entities.length
  | .blocked | .woken _ | .returned _ => True

/-- The entity is of the kind that the callback is for, and has the condition variable
that the callback is to notify. -/
def CallbackPhase.FitsTo (entity : Waitable) : CallbackPhase → Prop
  | .beforeLock signal =>
      (entity.accept signal).isSome = true ∧ entity.conditionVariable.isSome = true
  | .beforeNotify => entity.conditionVariable.isSome = true
  | .beforeReturn => True

structure ProgressInv (s : WaitState) : Prop where
  inBounds : ∀ t call, s.calls t = some call → call.InBounds
  fits : ∀ id phase, s.callbacks id = some phase → phase.FitsTo (s.entities id)
  points : ∀ id, s.PointsToCall id

section Invariant

variable {s s' : WaitState} {action : WaitAction} {id : Nat} {call : WaitCall}
  {entity entity' : Waitable} {signal : Signal}

theorem Waitable.isSome_accept_attachCondition (waitSet : Nat) :
    ((entity.attachCondition waitSet).accept signal).isSome = (entity.accept signal).isSome := by
  cases signal <;> cases entity <;> rfl

theorem Waitable.isSome_accept_test :
    (entity.test.2.accept signal).isSome = (entity.accept signal).isSome := by
  cases signal <;> cases entity <;> rfl

/-- A callback leaves the kind of an entity as it is. -/
theorem Waitable.isSome_accept_accept {other : Signal}
    (hAccept : entity.accept other = some entity') :
    (entity'.accept signal).isSome = (entity.accept signal).isSome := by
  cases other <;> cases entity <;> cases hAccept <;> cases signal <;> rfl

theorem CallbackPhase.FitsTo.congr {phase : CallbackPhase} (hFits : phase.FitsTo entity)
    (hKind : ∀ signal, (entity'.accept signal).isSome = (entity.accept signal).isSome)
    (hVariable : entity.conditionVariable.isSome = true →
      entity'.conditionVariable.isSome = true) : phase.FitsTo entity' := by
  cases phase with
  | beforeLock signal => exact ⟨(hKind signal).trans hFits.1, hVariable hFits.2⟩
  | beforeNotify => exact hVariable hFits
  | beforeReturn => trivial

/-- While a callback holds the internal mutex of an entity, no step makes the entity unfit
for it. -/
theorem WaitStep.fitsTo {phase : CallbackPhase} (hStep : WaitStep s action s')
    (hCallback : s.callbacks id = some phase) (hFits : phase.FitsTo (s.entities id)) :
    phase.FitsTo (s'.entities id) := by
  have hSet : ∀ (other : Nat) (entity : Waitable),
      (id = other → phase.FitsTo entity) →
        phase.FitsTo ((s.setEntity other entity).entities id) := by
    intro other entity hOther
    by_cases hSame : id = other
    · have hEntity := hOther hSame
      simpa [WaitState.setEntity, hSame] using hEntity
    · simpa [WaitState.setEntity, hSame] using hFits
  cases hStep with
  | start | check | wake | expire | recheck | finish | callbackAttached | notifyOne | notifyNone
  | leave => exact hFits
  | attach =>
      refine hSet _ _ ?_
      rintro rfl
      refine hFits.congr (fun signal => Waitable.isSome_accept_attachCondition _) fun _ => ?_
      simp
  | test =>
      refine hSet _ _ ?_
      rintro rfl
      exact hFits.congr (fun signal => Waitable.isSome_accept_test) (by simp)
  | change _ hAccept =>
      refine hSet _ _ ?_
      rintro rfl
      refine hFits.congr (fun signal => Waitable.isSome_accept_accept hAccept) fun hVariable => ?_
      rwa [Waitable.accept_conditionVariable hAccept]
  -- The other sections on an entity need its internal mutex.
  | detach _ _ _ hFree | callbackDetached hFree | take hFree =>
      refine hSet _ _ ?_
      rintro rfl
      rw [hFree] at hCallback
      cases hCallback

theorem WaitCall.inBounds_afterCheck (hasData : Bool) :
    (call.setPhase (call.afterCheck hasData)).InBounds := by
  unfold InBounds setPhase afterCheck
  cases hasData <;> cases call.timeout <;> simp

theorem WaitCall.inBounds_afterRecheck (hasData expired : Bool) :
    (call.setPhase (afterRecheck hasData expired)).InBounds := by
  unfold InBounds setPhase afterRecheck
  cases hasData <;> cases expired <;> simp

theorem WaitStep.inBounds (hStep : WaitStep s action s')
    (hBounds : ∀ t call, s.calls t = some call → call.InBounds) :
    ∀ t call, s'.calls t = some call → call.InBounds := by
  have hMove : ∀ (t₀ : Nat) (call₀ : WaitCall), call₀.InBounds →
      ∀ t call, (s.setCall t₀ call₀).calls t = some call → call.InBounds := by
    intro t₀ call₀ hNew t call hCall
    by_cases hSame : t = t₀
    · subst hSame
      rw [WaitState.calls_setCall_self] at hCall
      obtain rfl := Option.some.inj hCall
      exact hNew
    · rw [WaitState.calls_setCall_of_ne hSame] at hCall
      exact hBounds t call hCall
  cases hStep with
  | start => exact hMove _ _ (Nat.zero_le _)
  | attach _ _ hNext => exact hMove _ _ (List.getElem?_eq_some_iff.mp hNext).1
  | check => exact hMove _ _ (WaitCall.inBounds_afterCheck _)
  | recheck => exact hMove _ _ (WaitCall.inBounds_afterRecheck _ _)
  | wake | expire | finish | notifyOne => exact hMove _ _ trivial
  | detach _ _ hNext | test _ _ hNext => exact hMove _ _ (List.getElem?_eq_some_iff.mp hNext).1
  | callbackDetached | callbackAttached | change | notifyNone | leave | take => exact hBounds

theorem WaitStep.fits (hStep : WaitStep s action s') (hInv : ProgressInv s) {phase : CallbackPhase}
    (hCallback : s'.callbacks id = some phase) : phase.FitsTo (s'.entities id) := by
  by_cases hBefore : s.callbacks id = some phase
  · exact hStep.fitsTo hBefore (hInv.fits id phase hBefore)
  -- The callback has come to a new phase.
  · have hMoved : ∀ (other : Nat) (moved : Option CallbackPhase),
        Function.update s.callbacks other moved id = some phase →
          id = other ∧ moved = some phase := by
      intro other moved hUpdate
      by_cases hSame : id = other
      · subst hSame
        exact ⟨rfl, by rwa [Function.update_self] at hUpdate⟩
      · rw [Function.update_of_ne hSame] at hUpdate
        exact absurd hUpdate hBefore
    cases hStep with
    | start | attach | check | wake | expire | recheck | detach | test | finish
    | callbackDetached | take => exact absurd hCallback hBefore
    | callbackAttached _ hMutex hAccept =>
        obtain ⟨rfl, hPhase⟩ := hMoved _ _ hCallback
        obtain rfl := Option.some.inj hPhase
        refine ⟨Option.isSome_iff_exists.mpr ⟨_, hAccept⟩, ?_⟩
        rcases hInv.points id with ⟨hNoMutex, -⟩ | ⟨t, call, -, -, -, hVariable⟩
        · rw [hNoMutex] at hMutex
          cases hMutex
        · exact Option.isSome_iff_exists.mpr ⟨_, hVariable⟩
    | change hLock hAccept =>
        obtain ⟨rfl, hPhase⟩ := hMoved _ _ hCallback
        obtain rfl := Option.some.inj hPhase
        have hVariable := (hInv.fits id _ hLock).2
        simpa [CallbackPhase.FitsTo, WaitState.setCallback, WaitState.setEntity,
          Waitable.accept_conditionVariable hAccept] using hVariable
    | notifyOne | notifyNone =>
        obtain ⟨rfl, hPhase⟩ := hMoved _ _ hCallback
        obtain rfl := Option.some.inj hPhase
        trivial
    | leave =>
        obtain ⟨-, hPhase⟩ := hMoved _ _ hCallback
        cases hPhase

theorem ProgressInv.step (hInv : ProgressInv s) (hStep : WaitStep s action s') :
    ProgressInv s' where
  inBounds := hStep.inBounds hInv.inBounds
  fits := fun _ _ hCallback => hStep.fits hInv hCallback
  points := fun id => hStep.pointsToCall (hInv.points id)

theorem progressInv_of_reachable (hReachable : waitMachine.Reachable s) : ProgressInv s := by
  refine hReachable.invariant (fun s hInit => ?_) fun s _ s' hInv hStep => hInv.step hStep
  refine ⟨fun t call hCall => ?_, fun id phase hCallback => ?_,
    fun id => pointsToCall_of_reachable (.init hInit) id⟩
  · rw [hInit.2.2 t] at hCall
    cases hCall
  · rw [hInit.2.1 id] at hCallback
    cases hCallback

/-! ## Nobody is stuck -/

/-- A callback that has begun has a section to run. -/
theorem ProgressInv.callback_step (hInv : ProgressInv s) {phase : CallbackPhase}
    (hCallback : s.callbacks id = some phase) :
    ∃ action s', action.Internal ∧ WaitStep s action s' := by
  have hFits := hInv.fits id phase hCallback
  cases phase with
  | beforeLock signal =>
      obtain ⟨entity, hAccept⟩ := Option.isSome_iff_exists.mp hFits.1
      exact ⟨.change id, _, trivial, .change hCallback hAccept⟩
  | beforeNotify =>
      obtain ⟨waitSet, hVariable⟩ := Option.isSome_iff_exists.mp hFits
      by_cases hSomebody : ∃ t call, s.calls t = some call ∧ call.waitSet = waitSet ∧
          call.phase = .blocked
      · obtain ⟨t, call, hCall, rfl, hPhase⟩ := hSomebody
        exact ⟨.notify id, _, trivial, .notifyOne hCallback hCall hVariable hPhase⟩
      · refine ⟨.notify id, _, trivial, .notifyNone hCallback hVariable fun t call hCall hSet => ?_⟩
        exact fun hPhase => hSomebody ⟨t, call, hCall, hSet, hPhase⟩
  | beforeReturn => exact ⟨.leave id, _, trivial, .leave hCallback⟩

/-- While no callback holds an internal mutex, a call has a section to run unless it
sleeps or has returned. -/
theorem ProgressInv.call_step (hInv : ProgressInv s) (hNone : ∀ id, s.callbacks id = none)
    {t : Nat} (hCall : s.calls t = some call) :
    (call.phase = .blocked ∨ ∃ timeout, call.phase = .returned timeout) ∨
      ∃ action s', action.Internal ∧ WaitStep s action s' := by
  have hBounds := hInv.inBounds t call hCall
  unfold WaitCall.InBounds at hBounds
  cases hPhase : call.phase with
  | blocked => exact .inl (.inl rfl)
  | returned timeout => exact .inl (.inr ⟨timeout, rfl⟩)
  | woken expired => exact .inr ⟨.recheck t, _, trivial, .recheck hCall hPhase⟩
  | attaching count =>
      right
      rw [hPhase] at hBounds
      obtain hLess | hAll := lt_or_eq_of_le hBounds
      · exact ⟨.attach t, _, trivial, .attach hCall hPhase (List.getElem?_eq_getElem hLess)
          (hNone _)⟩
      · exact ⟨.check t, _, trivial, .check hCall (hAll ▸ hPhase)⟩
  | filtering timeout index detached =>
      right
      rw [hPhase] at hBounds
      cases detached with
      | false =>
          obtain hLess | hAll := lt_or_eq_of_le hBounds
          · exact ⟨.detach t, _, trivial, .detach hCall hPhase (List.getElem?_eq_getElem hLess)
              (hNone _)⟩
          · exact ⟨.finish t, _, trivial, .finish hCall (hAll ▸ hPhase)⟩
      | true =>
          exact ⟨.test t, _, trivial, .test hCall hPhase (List.getElem?_eq_getElem hBounds)⟩

/-- When no section can be run, the state is quiet. -/
theorem ProgressInv.quiet_of_stuck (hInv : ProgressInv s)
    (hStuck : waitMachine.Stuck (fun _ action => action.Internal) s) : s.Quiet := by
  have hNone : ∀ id, s.callbacks id = none := by
    intro id
    cases hCallback : s.callbacks id with
    | none => rfl
    | some phase =>
        obtain ⟨action, s', hInternal, hStep⟩ := hInv.callback_step hCallback
        exact absurd hStep (hStuck action s' hInternal)
  refine ⟨hNone, fun t call hCall => ?_⟩
  obtain hQuiet | ⟨action, s', hInternal, hStep⟩ := hInv.call_step hNone hCall
  · exact hQuiet
  · exact absurd hStep (hStuck action s' hInternal)

end Invariant

/-! ## Nobody goes on for ever -/

/-- The sections that a call can still run by itself. -/
def WaitCall.work (call : WaitCall) : Nat :=
  let length := call.entities.length
  match call.phase with
  | .attaching count => length - count + (2 * length + 3)
  | .woken _ => 2 * length + 3
  | .blocked => 2 * length + 2
  | .filtering _ index false => 2 * (length - index) + 1
  | .filtering _ index true => 2 * (length - index)
  | .returned _ => 0

/-- The sections of a callback, and one for the call that it wakes. -/
def CallbackPhase.work : CallbackPhase → Nat
  | .beforeLock _ => 4
  | .beforeNotify => 3
  | .beforeReturn => 1

/-- The calls and the callbacks are among those given. -/
structure WaitState.Within (s : WaitState) (threads ids : Finset Nat) : Prop where
  calls : ∀ t, t ∉ threads → s.calls t = none
  callbacks : ∀ id, id ∉ ids → s.callbacks id = none

namespace WaitState

def callsWork (s : WaitState) (threads : Finset Nat) : Nat :=
  ∑ t ∈ threads, (s.calls t).elim 0 WaitCall.work

def callbacksWork (s : WaitState) (ids : Finset Nat) : Nat :=
  ∑ id ∈ ids, (s.callbacks id).elim 0 CallbackPhase.work

def work (s : WaitState) (threads ids : Finset Nat) : Nat :=
  s.callsWork threads + s.callbacksWork ids

end WaitState

/-- A sum after one of its terms has changed. -/
theorem sum_update {α : Type} (weight : α → Nat) (f : Nat → Option α) {ids : Finset Nat} {id : Nat}
    (hId : id ∈ ids) (a : Option α) :
    ∑ i ∈ ids, (Function.update f id a i).elim 0 weight + (f id).elim 0 weight =
      ∑ i ∈ ids, (f i).elim 0 weight + a.elim 0 weight := by
  have hRest : ∑ i ∈ ids.erase id, (Function.update f id a i).elim 0 weight =
      ∑ i ∈ ids.erase id, (f i).elim 0 weight := by
    refine Finset.sum_congr rfl fun i hI => ?_
    rw [Function.update_of_ne (Finset.ne_of_mem_erase hI)]
  rw [← Finset.add_sum_erase _ _ hId, ← Finset.add_sum_erase _ (fun i => (f i).elim 0 weight) hId,
    hRest, Function.update_self]
  omega

section Work

variable {s s' : WaitState} {action : WaitAction} {threads ids : Finset Nat} {t id : Nat}
  {call call' : WaitCall}

theorem WaitState.Within.mem_threads (hWithin : s.Within threads ids)
    (hCall : s.calls t = some call) : t ∈ threads := by
  by_contra hOut
  rw [hWithin.calls t hOut] at hCall
  cases hCall

theorem WaitState.Within.mem_ids (hWithin : s.Within threads ids) {phase : CallbackPhase}
    (hCallback : s.callbacks id = some phase) : id ∈ ids := by
  by_contra hOut
  rw [hWithin.callbacks id hOut] at hCallback
  cases hCallback

theorem WaitState.callsWork_setCall (hWithin : s.Within threads ids)
    (hCall : s.calls t = some call) (call' : WaitCall) :
    (s.setCall t call').callsWork threads + call.work = s.callsWork threads + call'.work := by
  have hSum := sum_update WaitCall.work s.calls (hWithin.mem_threads hCall) (some call')
  rw [hCall] at hSum
  exact hSum

theorem WaitState.callbacksWork_setCallback (hWithin : s.Within threads ids)
    {phase : CallbackPhase} (hCallback : s.callbacks id = some phase)
    (phase' : Option CallbackPhase) :
    (s.setCallback id phase').callbacksWork ids + phase.work =
      s.callbacksWork ids + phase'.elim 0 CallbackPhase.work := by
  have hSum := sum_update CallbackPhase.work s.callbacks (hWithin.mem_ids hCallback) phase'
  rw [hCallback] at hSum
  exact hSum

theorem WaitCall.work_afterCheck (hPhase : call.phase = .attaching call.entities.length)
    (hasData : Bool) : (call.setPhase (call.afterCheck hasData)).work < call.work := by
  unfold work setPhase afterCheck
  rw [hPhase]
  cases hasData <;> cases call.timeout <;> simp

theorem WaitCall.work_afterRecheck {expired : Bool} (hPhase : call.phase = .woken expired)
    (hasData : Bool) : (call.setPhase (afterRecheck hasData expired)).work < call.work := by
  unfold work setPhase afterRecheck
  rw [hPhase]
  cases hasData <;> cases expired <;> simp

/-- With each section there is less to be done. -/
theorem WaitStep.work_lt (hStep : WaitStep s action s') (hInternal : action.Internal)
    (hWithin : s.Within threads ids) : s'.work threads ids < s.work threads ids := by
  have hMove : ∀ {t : Nat} {call : WaitCall}, s.calls t = some call → ∀ call' : WaitCall,
      call'.work < call.work → (s.setCall t call').work threads ids < s.work threads ids := by
    intro t call hCall call' hLess
    have hCalls := WaitState.callsWork_setCall hWithin hCall call'
    have hCallbacks : (s.setCall t call').callbacksWork ids = s.callbacksWork ids := rfl
    unfold WaitState.work
    omega
  have hCallback : ∀ {id : Nat} {phase : CallbackPhase}, s.callbacks id = some phase →
      ∀ phase' : Option CallbackPhase, phase'.elim 0 CallbackPhase.work < phase.work →
        (s.setCallback id phase').work threads ids < s.work threads ids := by
    intro id phase hPhase phase' hLess
    have hCallbacks := WaitState.callbacksWork_setCallback hWithin hPhase phase'
    have hCalls : (s.setCallback id phase').callsWork threads = s.callsWork threads := rfl
    unfold WaitState.work
    omega
  cases hStep with
  | start | wake | expire | callbackDetached | callbackAttached | take => cases hInternal
  | attach hCall hPhase hNext =>
      have hBound := (List.getElem?_eq_some_iff.mp hNext).1
      refine hMove hCall _ ?_
      simp only [WaitCall.work, WaitCall.setPhase, hPhase]
      omega
  | check hCall hPhase => exact hMove hCall _ (WaitCall.work_afterCheck hPhase _)
  | recheck hCall hPhase => exact hMove hCall _ (WaitCall.work_afterRecheck hPhase _)
  | detach hCall hPhase =>
      refine hMove hCall _ ?_
      simp [WaitCall.work, WaitCall.setPhase, hPhase]
  | test hCall hPhase hNext =>
      have hBound := (List.getElem?_eq_some_iff.mp hNext).1
      refine hMove hCall _ ?_
      simp only [WaitCall.work, WaitCall.afterTest, hPhase]
      omega
  | finish hCall hPhase =>
      refine hMove hCall _ ?_
      simp [WaitCall.work, WaitCall.setPhase, hPhase]
  | change hLock => exact hCallback hLock _ (by simp [CallbackPhase.work])
  | notifyNone hNotify => exact hCallback hNotify _ (by simp [CallbackPhase.work])
  | leave hReturn => exact hCallback hReturn _ (by simp [CallbackPhase.work])
  | @notifyOne t id call hNotify hCall _ hPhase =>
      -- The callback has two sections less, and the call one more.
      have hCallbacks := WaitState.callbacksWork_setCallback hWithin hNotify (some .beforeReturn)
      have hCalls := WaitState.callsWork_setCall hWithin hCall (call.setPhase (.woken false))
      simp only [WaitCall.work, WaitCall.setPhase, hPhase, CallbackPhase.work, Option.elim_some]
        at hCalls hCallbacks
      change (s.setCall t (call.setPhase (.woken false))).callsWork threads +
        (s.setCallback id (some .beforeReturn)).callbacksWork ids < _
      simp only [WaitCall.setPhase, WaitState.work]
      omega

/-- Only `start` adds a call, and only `callback` a callback. -/
theorem WaitStep.within (hStep : WaitStep s action s') (hInternal : action.Internal)
    (hWithin : s.Within threads ids) : s'.Within threads ids where
  calls := by
    intro t hOut
    cases hCall' : s'.calls t with
    | none => rfl
    | some call' =>
        rcases (hStep.callChange t).origin hCall' with
          ⟨call, hCall, -⟩ | ⟨waitSet, entities, timeout, hStart, -⟩
        · rw [hWithin.calls t hOut] at hCall
          cases hCall
        · rw [hStart] at hInternal
          cases hInternal
  callbacks := by
    intro id hOut
    have hNone := hWithin.callbacks id hOut
    have hOther : ∀ {other : Nat} {phase : CallbackPhase} (phase' : Option CallbackPhase),
        s.callbacks other = some phase → Function.update s.callbacks other phase' id = none := by
      intro other phase phase' hCallback
      rw [Function.update_of_ne, hNone]
      rintro rfl
      rw [hNone] at hCallback
      cases hCallback
    cases hStep with
    | start | wake | expire | callbackDetached | callbackAttached | take => cases hInternal
    | attach | check | recheck | detach | test | finish => exact hNone
    | change hCallback | notifyOne hCallback | notifyNone hCallback | leave hCallback =>
        exact hOther _ hCallback

/-- Finitely many calls and callbacks have begun. -/
def WaitState.Finite (s : WaitState) : Prop := ∃ threads ids, s.Within threads ids

theorem WaitStep.finite (hStep : WaitStep s action s') (hFinite : s.Finite) : s'.Finite := by
  obtain ⟨threads, ids, hWithin⟩ := hFinite
  by_cases hInternal : action.Internal
  · exact ⟨threads, ids, hStep.within hInternal hWithin⟩
  · cases hStep with
    | attach | check | recheck | detach | test | finish | change | notifyOne | notifyNone
    | leave => exact absurd trivial hInternal
    | callbackDetached | take => exact ⟨threads, ids, hWithin.calls, hWithin.callbacks⟩
    | @start t | @wake t | @expire t =>
        refine ⟨insert t threads, ids, fun u hOut => ?_, hWithin.callbacks⟩
        obtain ⟨hOther, hOut⟩ := not_or.mp (mt Finset.mem_insert.mpr hOut)
        rw [WaitState.calls_setCall_of_ne hOther]
        exact hWithin.calls u hOut
    | @callbackAttached id =>
        refine ⟨threads, insert id ids, hWithin.calls, fun other hOut => ?_⟩
        obtain ⟨hOther, hOut⟩ := not_or.mp (mt Finset.mem_insert.mpr hOut)
        simpa [WaitState.setCallback, hOther] using hWithin.callbacks other hOut

theorem finite_of_reachable (hReachable : waitMachine.Reachable s) : s.Finite :=
  hReachable.invariant (fun _ hInit => ⟨∅, ∅, fun t _ => hInit.2.2 t, fun id _ => hInit.2.1 id⟩)
    fun _ _ _ hFinite hStep => hStep.finite hFinite

/-- The sections that calls and callbacks run by themselves come to an end. -/
theorem WaitState.Finite.terminates (hFinite : s.Finite) :
    waitMachine.Terminates (fun _ action => action.Internal) s := by
  obtain ⟨threads, ids, hWithin⟩ := hFinite
  have hLess : ∀ (s : WaitState) (action : WaitAction) (s' : WaitState), s.Within threads ids →
      action.Internal → WaitStep s action s' →
      s'.Within threads ids ∧ s'.work threads ids < s.work threads ids :=
    fun _ _ _ hWithin hInternal hStep =>
      ⟨hStep.within hInternal hWithin, hStep.work_lt hInternal hWithin⟩
  exact Machine.terminates_of_measure _ hLess hWithin

end Work

/-! ## What is there is reported -/

/-- An entity is ready, or a callback is about to make it ready. -/
def WaitState.Arriving (s : WaitState) (id : Nat) : Prop :=
  (s.entities id).ready = true ∨ ∃ signal, s.callbacks id = some (.beforeLock signal)

/-- A call that lists an entity has taken its decision, or the entity still is, or is about
to be, ready. -/
def WaitState.WillReturn (s : WaitState) (t id : Nat) : Prop :=
  ∃ call, s.calls t = some call ∧ id ∈ call.entities ∧
    (call.verdict ≠ none ∨ s.Arriving id)

section Reports

variable {s s' : WaitState} {action : WaitAction} {t id : Nat}

/-- A call goes on with the same entities, and what it has decided stays decided. -/
theorem CallChange.continues {call : WaitCall} (hChange : CallChange s s' action t)
    (hCall : s.calls t = some call) :
    ∃ call', s'.calls t = some call' ∧ call'.entities = call.entities ∧
      (call.verdict ≠ none ∨ action = .test t → call'.verdict ≠ none) := by
  rcases hChange with ⟨hAction, hSame⟩ | ⟨_, hFresh, _⟩ |
    ⟨hAction, hBefore, _, _, hVerdict, hMoved⟩ | ⟨hBefore, _, _, hVerdict, _, hDecided⟩ |
    ⟨_, hBefore, hPhase, _, _, hTested⟩
  · exact ⟨call, hSame.trans hCall, rfl, fun hEither => hEither.resolve_right hAction⟩
  · rw [hFresh] at hCall
    cases hCall
  · obtain rfl := Option.some.inj (hBefore.symm.trans hCall)
    refine ⟨_, hMoved, rfl, fun hEither => ?_⟩
    rw [hVerdict]
    exact hEither.resolve_right hAction
  · obtain rfl := Option.some.inj (hBefore.symm.trans hCall)
    exact ⟨_, hDecided, rfl, fun _ => by simp [hVerdict]⟩
  · obtain rfl := Option.some.inj (hBefore.symm.trans hCall)
    exact ⟨_, hTested, rfl, fun _ => by simp [WaitCall.verdict, WaitCall.afterTest]⟩

/-- What is there, or about to be, stays until it is taken. -/
theorem WaitState.Arriving.step (hArriving : s.Arriving id) (hStep : WaitStep s action s') :
    s'.Arriving id ∨ ((s.entities id).ready = true ∧ (s'.entities id).ready = false) := by
  rcases hArriving with hReady | ⟨signal, hLock⟩
  · cases hReady' : (s'.entities id).ready with
    | true => exact .inl (.inl hReady')
    | false => exact .inr ⟨hReady, rfl⟩
  · left
    have hOther : ∀ {other : Nat} (phase' : Option CallbackPhase), other ≠ id →
        Function.update s.callbacks other phase' id = some (.beforeLock signal) := by
      intro other phase' hNe
      rw [Function.update_of_ne hNe.symm, hLock]
    cases hStep with
    | start | attach | check | wake | expire | recheck | detach | test | finish
    | callbackDetached | take => exact .inr ⟨signal, hLock⟩
    | @change other _ entity _ hAccept =>
        by_cases hSame : other = id
        -- The change that the callback was about to make.
        · subst hSame
          left
          simpa [WaitState.setCallback, WaitState.setEntity] using Waitable.accept_ready hAccept
        · exact .inr ⟨signal, hOther _ hSame⟩
    | callbackAttached hCallback | notifyOne hCallback | notifyNone hCallback
    | leave hCallback =>
        refine .inr ⟨signal, hOther _ ?_⟩
        rintro rfl
        rw [hLock] at hCallback
        cases hCallback

theorem WaitState.WillReturn.step (hReturn : s.WillReturn t id) (hInternal : action.Internal)
    (hApart : s.Pairwise WaitCall.EntitiesApart) (hStep : WaitStep s action s') :
    s'.WillReturn t id := by
  obtain ⟨call, hCall, hId, hEither⟩ := hReturn
  obtain ⟨call', hCall', hEntities, hVerdict⟩ := (hStep.callChange t).continues hCall
  refine ⟨call', hCall', hEntities ▸ hId, ?_⟩
  by_cases hOpen : call.verdict = none
  · rcases (hEither.resolve_left (not_not.mpr hOpen)).step hStep with
      hArriving | ⟨hReady, hCleared⟩
    · exact .inr hArriving
    · obtain ⟨t', tester, hTest, hTester, hProgress, hListed⟩ :
          ∃ t call, action = .test t ∧ s.calls t = some call ∧ call.InProgress ∧
            id ∈ call.entities := by
        rcases hStep.ready_or_cleared hReady with hReady' | rfl | hTested
        · rw [hCleared] at hReady'
          cases hReady'
        · cases hInternal
        · exact hTested
      -- No other call in progress lists the entity.
      have hSame : t' = t := by
        by_contra hNe
        exact hApart t' t tester call hTester hCall hNe hProgress
          (WaitCall.inProgress_of_verdict_none hOpen) id hListed hId
      subst hSame
      exact .inl (hVerdict (.inr hTest))
  · exact .inl (hVerdict (.inl hOpen))

/-- In a quiet state such a call has returned. -/
theorem WaitState.WillReturn.returned (hReturn : s.WillReturn t id) (hInv : WaitInv s)
    (hQuiet : s.Quiet) :
    ∃ call timeout, s.calls t = some call ∧ call.phase = .returned timeout := by
  obtain ⟨call, hCall, hId, hEither⟩ := hReturn
  rcases hQuiet.2 t call hCall with hBlocked | ⟨timeout, hReturned⟩
  · exfalso
    have hOpen : call.verdict = none := by rw [WaitCall.verdict, hBlocked]
    rcases hEither.resolve_left (not_not.mpr hOpen) with hReady | ⟨signal, hLock⟩
    · obtain ⟨other, hNotify, -⟩ := hInv.blocked t call hCall hBlocked id hId hReady
      rw [hQuiet.1 other] at hNotify
      cases hNotify
    · rw [hQuiet.1 id] at hLock
      cases hLock
  · exact ⟨call, timeout, hCall, hReturned⟩

end Reports

/-! ## Main result -/

theorem WaitAction.Internal.separate {action : WaitAction} (hInternal : action.Internal)
    (s : WaitState) : Separate s action := by
  cases action with
  | start => cases hInternal
  | attach | check | wake | expire | recheck | detach | test | finish | callback | change | notify
  | leave | take => exact ⟨trivial, trivial⟩

theorem entitiesApart_of_reachable {s : WaitState}
    (hReachable : waitMachine.ReachableIf Separate s) : s.Pairwise WaitCall.EntitiesApart :=
  hReachable.invariant (fun _ hInit => .of_initial hInit)
    fun _ _ _ hApart hAllowed hStep => WaitState.entitiesApart_step hApart hAllowed.1 hStep

/-- A call for one of whose entities something is there, or on its way in a callback,
returns when it is left to itself. -/
theorem returns_of_arriving {s s' : WaitState} {t id : Nat} {call : WaitCall}
    (hReachable : waitMachine.ReachableIf Separate s)
    (hSteps : waitMachine.StepsIf (fun _ action => action.Internal) s s')
    (hStuck : waitMachine.Stuck (fun _ action => action.Internal) s')
    (hCall : s.calls t = some call) (hId : id ∈ call.entities) (hArriving : s.Arriving id) :
    ∃ call' timeout, s'.calls t = some call' ∧ call'.phase = .returned timeout := by
  have hKeeps : ∀ s action s', (waitMachine.ReachableIf Separate s ∧ s.WillReturn t id) →
      WaitAction.Internal action → WaitStep s action s' →
      waitMachine.ReachableIf Separate s' ∧ s'.WillReturn t id := by
    rintro s action s' ⟨hBefore, hReturn⟩ hInternal hStep
    exact ⟨hBefore.step (hInternal.separate s) hStep,
      hReturn.step hInternal (entitiesApart_of_reachable hBefore) hStep⟩
  obtain ⟨hReachable', hReturn⟩ :=
    hSteps.preserves hKeeps ⟨hReachable, call, hCall, hId, .inr hArriving⟩
  have hQuiet := (progressInv_of_reachable hReachable'.reachable).quiet_of_stuck hStuck
  exact hReturn.returned (waitInv_of_reachable hReachable') hQuiet

/-- Left to themselves, calls and callbacks come to an end in a quiet state, in which a
call that sleeps has nothing to report; a call for one of whose entities something is
there, or on its way in a callback, has returned. -/
theorem waits_settle {s : WaitState} (hReachable : waitMachine.ReachableIf Separate s) :
    waitMachine.Terminates (fun _ action => action.Internal) s ∧
    ∀ s', waitMachine.StepsIf (fun _ action => action.Internal) s s' →
      waitMachine.Stuck (fun _ action => action.Internal) s' →
      s'.Quiet ∧
      (∀ t call, s'.calls t = some call → call.phase = .blocked →
        ∀ id ∈ call.entities, (s'.entities id).ready = false) ∧
      ∀ t call id, s.calls t = some call → id ∈ call.entities → s.Arriving id →
        ∃ call' timeout, s'.calls t = some call' ∧ call'.phase = .returned timeout := by
  refine ⟨(finite_of_reachable hReachable.reachable).terminates, fun s' hSteps hStuck => ?_⟩
  have hReachable' := hReachable.steps (hSteps.mono fun t _ hInternal => hInternal.separate t)
  have hQuiet := (progressInv_of_reachable hReachable'.reachable).quiet_of_stuck hStuck
  refine ⟨hQuiet, fun t call hCall hBlocked id hId => ?_, fun t call id hCall hId hArriving =>
    returns_of_arriving hReachable hSteps hStuck hCall hId hArriving⟩
  by_contra hReady
  rw [Bool.not_eq_false] at hReady
  obtain ⟨other, hNotify, -⟩ :=
    (waitInv_of_reachable hReachable').blocked t call hCall hBlocked id hId hReady
  rw [hQuiet.1 other] at hNotify
  cases hNotify

/-- A guard condition is triggered while a call without a timeout sleeps on it: the call
returns. -/
theorem triggered_waits_settle : ∃ s s', waitMachine.ReachableIf Separate s ∧
    s.callbacks 0 = some (.beforeLock .trigger) ∧
    waitMachine.StepsIf (fun _ action => action.Internal) s s' ∧ s'.Quiet ∧
    ∃ call timeout, s'.calls 0 = some call ∧ call.phase = .returned timeout := by
  have hTriggered := follow firstAsleep_reachable
    (@WaitStep.callbackAttached firstAsleep 0 0 .trigger _ rfl rfl rfl) ⟨trivial, trivial⟩
  obtain ⟨hTerminates, hSettle⟩ := waits_settle hTriggered
  obtain ⟨s', hSteps, hStuck⟩ := hTerminates.exists_stuck
  obtain ⟨hQuiet, -, hReturns⟩ := hSettle s' hSteps hStuck
  exact ⟨_, s', hTriggered, rfl, hSteps, hQuiet,
    hReturns 0 _ 0 rfl List.mem_cons_self (.inr ⟨.trigger, rfl⟩)⟩

end Waiting
end RmwDps
