import RmwDps.Waiting.WaitMachine

/-!
# No lost wakeup, no lost trigger

A call that sleeps has nothing to report, unless a callback is about to notify it.
The condition variable is notified with `notify_one`, so this needs that no other
call sleeps on it, that is, that a wait set serves one call at a time.
-/

namespace RmwDps
namespace Waiting

open Messaging (Listener Data)
open Transition (Machine)

/-! ## The invariant -/

/-- The entities that a call has attached and not begun to detach. -/
def WaitCall.attached (call : WaitCall) : List Nat :=
  match call.phase with
  | .attaching count => call.entities.take count
  | .blocked | .woken _ => call.entities
  | .filtering .. | .returned _ => []

/-- Both pointers of an entity are to a wait set. -/
def Waitable.AttachedTo (entity : Waitable) (waitSet : Nat) : Prop :=
  entity.conditionMutex = some waitSet ∧ entity.conditionVariable = some waitSet

/-- A callback stands between its `clock.unlock()` and its `notify_one()` for the
condition variable of a wait set. -/
def WaitState.NotifyPending (s : WaitState) (waitSet : Nat) : Prop :=
  ∃ id, s.callbacks id = some .beforeNotify ∧
    (s.entities id).conditionVariable = some waitSet

/-- An entity of a call is ready only if the call is about to be notified. -/
def WaitState.ReadyOnlyIfPending (s : WaitState) (call : WaitCall) : Prop :=
  ∀ id ∈ call.entities, (s.entities id).ready = true → s.NotifyPending call.waitSet

structure WaitInv (s : WaitState) : Prop where
  attached : ∀ t call, s.calls t = some call → ∀ id ∈ call.attached,
    (s.entities id).AttachedTo call.waitSet
  blocked : ∀ t call, s.calls t = some call → call.phase = .blocked → s.ReadyOnlyIfPending call

/-! ## State updates -/

section Updates

variable {s : WaitState} {t id : Nat} {call call' : WaitCall} {entity : Waitable}
  {phase : Option CallbackPhase}

theorem WaitCall.attached_subset (call : WaitCall) : ∀ id ∈ call.attached, id ∈ call.entities := by
  intro id hId
  unfold attached at hId
  split at hId
  · exact List.mem_of_mem_take hId
  · exact hId
  · exact hId
  · cases hId
  · cases hId

theorem WaitCall.inProgress_of_attached (hId : id ∈ call.attached) : call.InProgress := by
  intro timeout hReturned
  simp only [attached, hReturned] at hId
  cases hId

/-- A call moves to a phase in which it has attached no more than is attached, and sleeps
only when it may. -/
theorem WaitInv.setCall (hInv : WaitInv s)
    (hAttached : ∀ id ∈ call.attached, (s.entities id).AttachedTo call.waitSet)
    (hBlocked : call.phase = .blocked → s.ReadyOnlyIfPending call) :
    WaitInv (s.setCall t call) where
  attached t₁ call₁ hCall₁ := by
    by_cases h₁ : t₁ = t
    · subst h₁
      rw [WaitState.calls_setCall_self, Option.some.injEq] at hCall₁
      subst hCall₁
      exact hAttached
    · rw [WaitState.calls_setCall_of_ne h₁] at hCall₁
      exact hInv.attached t₁ call₁ hCall₁
  blocked t₁ call₁ hCall₁ hPhase₁ := by
    by_cases h₁ : t₁ = t
    · subst h₁
      rw [WaitState.calls_setCall_self, Option.some.injEq] at hCall₁
      subst hCall₁
      exact hBlocked hPhase₁
    · rw [WaitState.calls_setCall_of_ne h₁] at hCall₁
      exact hInv.blocked t₁ call₁ hCall₁ hPhase₁

/-- An entity changes: calls that have attached it still find their wait set in it, a
callback still notifies the same condition variable, and what becomes ready is pending
for the calls that sleep on it. -/
theorem WaitInv.setEntity (hInv : WaitInv s)
    (hAttached : ∀ t call, s.calls t = some call → id ∈ call.attached →
      entity.AttachedTo call.waitSet)
    (hVariable : s.callbacks id = some .beforeNotify →
      entity.conditionVariable = (s.entities id).conditionVariable)
    (hReady : entity.ready = true → (s.entities id).ready = true ∨
      ∀ t call, s.calls t = some call → call.phase = .blocked → id ∈ call.entities →
        s.NotifyPending call.waitSet) :
    WaitInv (s.setEntity id entity) where
  attached t call hCall other hOther := by
    by_cases hSame : other = id
    · subst hSame
      simpa [WaitState.setEntity] using hAttached t call hCall hOther
    · simpa [WaitState.setEntity, hSame] using hInv.attached t call hCall other hOther
  blocked t call hCall hPhase other hOther hOtherReady := by
    -- Pending before, or made pending by the change itself.
    have hPending : s.NotifyPending call.waitSet := by
      by_cases hSame : other = id
      · subst hSame
        have hEntityReady : entity.ready = true := by
          simpa [WaitState.setEntity] using hOtherReady
        rcases hReady hEntityReady with hBefore | hPending
        · exact hInv.blocked t call hCall hPhase other hOther hBefore
        · exact hPending t call hCall hPhase hOther
      · have hBefore : (s.entities other).ready = true := by
          simpa [WaitState.setEntity, hSame] using hOtherReady
        exact hInv.blocked t call hCall hPhase other hOther hBefore
    obtain ⟨notifier, hCallback, hNotifies⟩ := hPending
    refine ⟨notifier, hCallback, ?_⟩
    by_cases hSame : notifier = id
    · subst hSame
      simpa [WaitState.setEntity, hVariable hCallback] using hNotifies
    · simpa [WaitState.setEntity, hSame] using hNotifies

/-- A callback moves on: it gives up a notification only if no call waits for it. -/
theorem WaitInv.setCallback (hInv : WaitInv s)
    (hNotified : s.callbacks id = some .beforeNotify → ∀ t call, s.calls t = some call →
      call.phase = .blocked → (s.entities id).conditionVariable ≠ some call.waitSet) :
    WaitInv (s.setCallback id phase) where
  attached := hInv.attached
  blocked t call hCall hPhase other hOther hReady := by
    obtain ⟨notifier, hCallback, hNotifies⟩ :=
      hInv.blocked t call hCall hPhase other hOther hReady
    refine ⟨notifier, ?_, hNotifies⟩
    have hElse : notifier ≠ id := by
      intro hSame
      subst hSame
      exact hNotified hCallback t call hCall hPhase hNotifies
    simpa [WaitState.setCallback, hElse] using hCallback

end Updates

/-! ## Sections -/

section Sections

variable {s s' : WaitState} {t id : Nat} {call : WaitCall} {entity : Waitable} {signal : Signal}

/-- An entity that a call in progress lists is attached by no other call. -/
theorem WaitState.eq_of_attached (hApart : s.Pairwise WaitCall.EntitiesApart)
    (hCall : s.calls t = some call) (hProgress : call.InProgress) (hId : id ∈ call.entities)
    {t' : Nat} {call' : WaitCall} (hCall' : s.calls t' = some call')
    (hAttached : id ∈ call'.attached) : call' = call := by
  by_cases hSame : t' = t
  · subst hSame
    exact Option.some.inj (hCall'.symm.trans hCall)
  · have hDisjoint := hApart t' t call' call hCall' hCall hSame
      (WaitCall.inProgress_of_attached hAttached) hProgress
    exact absurd hId (hDisjoint id (call'.attached_subset id hAttached))

/-- A call that has attached all its entities keeps them attached in the next phase. -/
theorem WaitInv.attached_setPhase (hInv : WaitInv s) (hCall : s.calls t = some call)
    (hAll : call.attached = call.entities) {phase : WaitPhase} :
    ∀ id ∈ (call.setPhase phase).attached, (s.entities id).AttachedTo call.waitSet := by
  intro id hId
  have hMem : id ∈ call.entities := (call.setPhase phase).attached_subset id hId
  exact hInv.attached t call hCall id (hAll ▸ hMem)

theorem WaitState.readyOnlyIfPending_of_check
    (hData : s.checkWaitSetForData call.entities = false) : s.ReadyOnlyIfPending call := by
  intro id hId hReady
  have hAny : s.checkWaitSetForData call.entities = true :=
    List.any_eq_true.mpr ⟨id, hId, hReady⟩
  rw [hData] at hAny
  cases hAny

theorem WaitInv.attach (hInv : WaitInv s) (hApart : s.Pairwise WaitCall.EntitiesApart)
    (hCall : s.calls t = some call) {count : Nat}
    (hPhase : call.phase = .attaching count) (hNext : call.entities[count]? = some id)
    (hFree : s.callbacks id = none) :
    WaitInv ((s.setEntity id ((s.entities id).attachCondition call.waitSet)).setCall t
      (call.setPhase (.attaching (count + 1)))) := by
  have hProgress : call.InProgress := WaitCall.inProgress_of_phase hPhase (by simp)
  have hMem : id ∈ call.entities := List.mem_of_getElem? hNext
  have hEntity : WaitInv (s.setEntity id ((s.entities id).attachCondition call.waitSet)) := by
    apply hInv.setEntity
    · intro t' call' hCall' hAttached
      -- No other call in progress has the entity, so the pointers are overwritten for nobody.
      rw [WaitState.eq_of_attached hApart hCall hProgress hMem hCall' hAttached]
      simp [Waitable.AttachedTo]
    · intro hCallback
      rw [hFree] at hCallback
      cases hCallback
    · intro hReady
      left
      simpa using hReady
  apply hEntity.setCall
  · intro other hOther
    have hTake : other ∈ call.entities.take (count + 1) := hOther
    by_cases hSame : other = id
    · subst hSame
      simp [WaitState.setEntity, Waitable.AttachedTo, WaitCall.setPhase]
    · have hBefore : other ∈ call.attached := by
        have hLater : call.entities.take (count + 1) = call.entities.take count ++ [id] := by
          rw [List.take_add_one, hNext]
          rfl
        rw [hLater, List.mem_append, List.mem_singleton, or_iff_left hSame] at hTake
        simpa [WaitCall.attached, hPhase] using hTake
      exact hEntity.attached t call hCall other hBefore
  · intro hBlocked
    cases hBlocked

/-- An entity that a call has attached and begins to detach is attached by nobody else. -/
theorem WaitInv.detach (hInv : WaitInv s) (hApart : s.Pairwise WaitCall.EntitiesApart)
    (hCall : s.calls t = some call) {timeout : Bool}
    {index : Nat} (hPhase : call.phase = .filtering timeout index false)
    (hNext : call.entities[index]? = some id) (hFree : s.callbacks id = none) :
    WaitInv ((s.setEntity id (s.entities id).detachCondition).setCall t
      (call.setPhase (.filtering timeout index true))) := by
  have hProgress : call.InProgress := WaitCall.inProgress_of_phase hPhase (by simp)
  have hMem : id ∈ call.entities := List.mem_of_getElem? hNext
  have hEntity : WaitInv (s.setEntity id (s.entities id).detachCondition) := by
    apply hInv.setEntity
    · intro t' call' hCall' hAttached
      have hSame := WaitState.eq_of_attached hApart hCall hProgress hMem hCall' hAttached
      subst hSame
      simp [WaitCall.attached, hPhase] at hAttached
    · intro hCallback
      rw [hFree] at hCallback
      cases hCallback
    · intro hReady
      left
      simpa using hReady
  apply hEntity.setCall
  · intro other hOther
    cases hOther
  · intro hBlocked
    cases hBlocked

theorem WaitInv.test {timeout : Bool} {index : Nat} (hInv : WaitInv s) :
    WaitInv ((s.setEntity id (s.entities id).test.2).setCall t
      (call.afterTest timeout index id (s.entities id))) := by
  have hEntity : WaitInv (s.setEntity id (s.entities id).test.2) := by
    apply hInv.setEntity
    · intro t' call' hCall' hAttached
      simpa [Waitable.AttachedTo] using hInv.attached t' call' hCall' id hAttached
    · intro _
      simp
    · intro hReady
      exact .inl (Waitable.ready_of_ready_test hReady)
  apply hEntity.setCall
  · intro other hOther
    cases hOther
  · intro hBlocked
    cases hBlocked

/-- What a callback changes is pending for the call that sleeps on the entity, if the
callback has the internal mutex and finds a condition attached. -/
theorem WaitInv.change (hInv : WaitInv s)
    (hCallback : s.callbacks id = some (.beforeLock signal))
    (hAccept : (s.entities id).accept signal = some entity) :
    WaitInv ((s.setEntity id entity).setCallback id (some .beforeNotify)) := by
  have hMoved : WaitInv (s.setCallback id (some .beforeNotify)) := by
    apply hInv.setCallback
    intro hNotify
    rw [hCallback] at hNotify
    cases hNotify
  have hChanged : WaitInv ((s.setCallback id (some .beforeNotify)).setEntity id entity) := by
    apply hMoved.setEntity
    · intro t call hCall hAttached
      have hBefore := hInv.attached t call hCall id hAttached
      constructor
      · rw [Waitable.accept_conditionMutex hAccept, hBefore.1]
      · rw [Waitable.accept_conditionVariable hAccept, hBefore.2]
    · intro _
      exact Waitable.accept_conditionVariable hAccept
    · intro _
      right
      intro t call hCall hPhase hMem
      have hAttached : id ∈ call.attached := by simpa [WaitCall.attached, hPhase] using hMem
      -- A call that sleeps on the entity has attached it, so this callback will notify it.
      exact ⟨id, by simp [WaitState.setCallback], (hInv.attached t call hCall id hAttached).2⟩
  exact hChanged

/-- A callback that finds no condition attached changes an entity on which no call
sleeps. -/
theorem WaitInv.callbackDetached (hInv : WaitInv s)
    (hMutex : (s.entities id).conditionMutex = none)
    (hAccept : (s.entities id).accept signal = some entity) :
    WaitInv (s.setEntity id entity) := by
  have hNobody : ∀ t call, s.calls t = some call → id ∉ call.attached := by
    intro t call hCall hAttached
    have hPointer := (hInv.attached t call hCall id hAttached).1
    rw [hMutex] at hPointer
    cases hPointer
  apply hInv.setEntity
  · intro t call hCall hAttached
    exact absurd hAttached (hNobody t call hCall)
  · intro _
    exact Waitable.accept_conditionVariable hAccept
  · intro _
    right
    intro t call hCall hPhase hMem
    have hAttached : id ∈ call.attached := by simpa [WaitCall.attached, hPhase] using hMem
    exact absurd hAttached (hNobody t call hCall)

/-- `notify_one` wakes the only call that sleeps on the condition variable. -/
theorem WaitInv.notifyOne (hInv : WaitInv s)
    (hSets : s.Pairwise fun call call' => call.waitSet ≠ call'.waitSet)
    (hCall : s.calls t = some call)
    (hVariable : (s.entities id).conditionVariable = some call.waitSet)
    (hPhase : call.phase = .blocked) :
    WaitInv ((s.setCallback id (some .beforeReturn)).setCall t (call.setPhase (.woken false))) := by
  have hProgress : call.InProgress := WaitCall.inProgress_of_phase hPhase (by simp)
  have hWoken : WaitInv (s.setCall t (call.setPhase (.woken false))) := by
    apply hInv.setCall
    · exact hInv.attached_setPhase hCall (by simp [WaitCall.attached, hPhase])
    · intro hBlocked
      cases hBlocked
  have hMoved : WaitInv ((s.setCall t (call.setPhase (.woken false))).setCallback id
      (some .beforeReturn)) := by
    apply hWoken.setCallback
    intro _ t' call' hCall' hPhase' hSame
    by_cases hNumber : t' = t
    · subst hNumber
      simp only [WaitState.setCall, Function.update_self, Option.some.injEq] at hCall'
      subst hCall'
      cases hPhase'
    · simp only [WaitState.setCall, Function.update_of_ne hNumber] at hCall'
      -- Another call that sleeps on the same condition variable would share the wait set.
      have hSeparate := hSets t' t call' call hCall' hCall hNumber
        (WaitCall.inProgress_of_phase hPhase' (by simp)) hProgress
      have hEqual : some call.waitSet = some call'.waitSet := hVariable.symm.trans hSame
      exact hSeparate (Option.some.inj hEqual).symm
  exact hMoved

/-- Every section keeps the invariant where calls in progress are separate. -/
theorem WaitInv.step {action : WaitAction} (hInv : WaitInv s)
    (hApart : s.Pairwise WaitCall.EntitiesApart)
    (hSets : s.Pairwise fun call call' => call.waitSet ≠ call'.waitSet)
    (hStep : WaitStep s action s') : WaitInv s' := by
  cases hStep with
  | start hFresh =>
      apply hInv.setCall
      · intro id hId
        simp [WaitCall.attached, WaitCall.new] at hId
      · intro hBlocked
        cases hBlocked
  | attach hCall hPhase hNext hFree => exact hInv.attach hApart hCall hPhase hNext hFree
  | @check t call hCall hPhase | @recheck t call _ hCall hPhase =>
      apply hInv.setCall
      · exact hInv.attached_setPhase hCall (by simp [WaitCall.attached, hPhase])
      · intro hBlocked
        -- It sleeps only if the evaluation has found nothing ready.
        apply WaitState.readyOnlyIfPending_of_check
        show s.checkWaitSetForData call.entities = false
        cases hData : s.checkWaitSetForData call.entities with
        | false => rfl
        | true =>
            rw [hData] at hBlocked
            cases hBlocked
  | wake hCall hPhase | expire hCall hPhase _ =>
      apply hInv.setCall
      · exact hInv.attached_setPhase hCall (by simp [WaitCall.attached, hPhase])
      · intro hBlocked
        cases hBlocked
  | detach hCall hPhase hNext hFree => exact hInv.detach hApart hCall hPhase hNext hFree
  | test hCall hPhase hNext => exact hInv.test
  | @finish t call timeout hCall hPhase =>
      apply hInv.setCall
      · intro id hId
        cases hId
      · intro hBlocked
        cases hBlocked
  | callbackDetached hFree hMutex hAccept => exact hInv.callbackDetached hMutex hAccept
  | callbackAttached hFree hMutex hAccept =>
      apply hInv.setCallback
      intro hNotify
      rw [hFree] at hNotify
      cases hNotify
  | change hCallback hAccept => exact hInv.change hCallback hAccept
  | notifyOne hCallback hCall hVariable hPhase => exact hInv.notifyOne hSets hCall hVariable hPhase
  | notifyNone hCallback hVariable hNobody =>
      apply hInv.setCallback
      intro _ t call hCall hPhase hSame
      -- Nobody sleeps on the variable, so the notification is not missed.
      have hEqual := hVariable.symm.trans hSame
      exact hNobody t call hCall (Option.some.inj hEqual).symm hPhase
  | leave hCallback =>
      apply hInv.setCallback
      intro hNotify
      rw [hCallback] at hNotify
      cases hNotify
  | @take id listener hFree hListener =>
      apply hInv.setEntity
      · intro t call hCall hAttached
        have hBefore := hInv.attached t call hCall id hAttached
        rw [hListener] at hBefore
        constructor
        · exact (take_conditionMutex listener).trans hBefore.1
        · exact (take_conditionVariable listener).trans hBefore.2
      · intro hCallback
        rw [hFree] at hCallback
        cases hCallback
      · intro hReady
        left
        rw [hListener]
        exact ready_of_ready_take hReady

theorem WaitInv.of_initial (hInit : s.Initial) : WaitInv s where
  attached t call hCall := by simp [hInit.2.2 t] at hCall
  blocked t call hCall := by simp [hInit.2.2 t] at hCall

end Sections

/-! ## Triggers -/

/-- A call has, or has returned, a non-null entry for an entity. -/
def WaitState.Reports (s : WaitState) (t id : Nat) : Prop :=
  ∃ (call : WaitCall) (index : Nat), s.calls t = some call ∧ call.entities[index]? = some id ∧
    call.entries[index]? = some true

/-- The same for an entry that the call has tested. -/
def WaitState.Reported (s : WaitState) (t id : Nat) : Prop :=
  ∃ (call : WaitCall) (index : Nat), s.calls t = some call ∧ index < call.tested ∧
    call.entities[index]? = some id ∧ call.entries[index]? = some true

section Triggers

variable {s s' : WaitState} {t id : Nat} {action : WaitAction}

theorem WaitState.Reported.reports (hReported : s.Reported t id) : s.Reports t id := by
  obtain ⟨call, index, hCall, _, hEntity, hEntry⟩ := hReported
  exact ⟨call, index, hCall, hEntity, hEntry⟩

/-- No step changes an entry once it has been tested. -/
theorem WaitState.Reported.step (hReported : s.Reported t id) (hStep : WaitStep s action s') :
    s'.Reported t id := by
  obtain ⟨call, index, hCall, hIndex, hEntity, hEntry⟩ := hReported
  rcases hStep.callChange t with ⟨_, hSame⟩ | ⟨_, hFresh, _⟩ | ⟨_, hBefore, _, hTested, _, hMoved⟩ |
    ⟨hBefore, hTested, _, _, _, hDecided⟩ | ⟨_, hBefore, _, _, _, hTest⟩
  · exact ⟨call, index, hSame.trans hCall, hIndex, hEntity, hEntry⟩
  · rw [hCall] at hFresh
    cases hFresh
  · obtain rfl := Option.some.inj (hBefore.symm.trans hCall)
    exact ⟨_, index, hMoved, hTested ▸ hIndex, hEntity, hEntry⟩
  · obtain rfl := Option.some.inj (hBefore.symm.trans hCall)
    exact ⟨_, index, hDecided, hTested ▸ hIndex, hEntity, hEntry⟩
  · rw [hCall, Option.some.injEq] at hBefore
    subst hBefore
    refine ⟨_, index, hTest, ?_, hEntity, ?_⟩
    · rw [WaitCall.tested_afterTest]
      omega
    · have hElse : call.tested ≠ index := by omega
      rw [WaitCall.entries_afterTest, List.getElem?_set_ne hElse]
      exact hEntry

/-- The test that clears a guard condition leaves the entry as it was. -/
theorem WaitStep.reported_of_cleared (hAligned : s.Aligned) (hStep : WaitStep s action s')
    {guard guard' : GuardCondition} (hGuard : s.entities id = .guardCondition guard)
    (hGuard' : s'.entities id = .guardCondition guard') (hSet : guard.hasTriggered = true)
    (hCleared : guard'.hasTriggered = false) : ∃ t, action = .test t ∧ s'.Reported t id := by
  have hReady : (s.entities id).ready = true := by rw [hGuard]; exact hSet
  have hGone : (s'.entities id).ready = false := by rw [hGuard']; exact hCleared
  rcases hStep.ready_or_cleared hReady with hStill | rfl | ⟨t, _, rfl, _⟩
  · rw [hStill] at hGone
    cases hGone
  · cases hStep with
    | take _ hListener =>
        rw [hGuard] at hListener
        cases hListener
  · refine ⟨t, rfl, ?_⟩
    cases hStep with
    | @test _ other index call timeout hCall hPhase hNext =>
        -- The step changes one entity, so it is the one that was cleared.
        have hSame : id = other := by
          by_contra hElse
          have hKept : s.entities id = .guardCondition guard' := by
            simpa [WaitState.setCall, WaitState.setEntity, hElse] using hGuard'
          rw [hGuard] at hKept
          cases hKept
          rw [hSet] at hCleared
          cases hCleared
        subst hSame
        have hInside : index < call.entries.length := by
          rw [hAligned t call hCall]
          exact (List.getElem?_eq_some_iff.mp hNext).1
        refine ⟨_, index, WaitState.calls_setCall_self, ?_, hNext, ?_⟩
        · rw [WaitCall.tested_afterTest]
          omega
        · rw [WaitCall.entries_afterTest, List.getElem?_set_self hInside, hReady]

end Triggers

/-! ## Main result -/

/-- A call that is blocked, with no callback about to notify it, waits for nothing that is
there already. -/
def WaitState.NoLostWakeup (s : WaitState) : Prop :=
  ∀ t call, s.calls t = some call → call.phase = .blocked → ¬ s.NotifyPending call.waitSet →
    ∀ id ∈ call.entities,
      (∀ listener, s.entities id = .listener listener → listener.data = []) ∧
        ∀ guard, s.entities id = .guardCondition guard → guard.hasTriggered = false

/-- A trigger is cleared by a call only, and that call reports it from then on, in
particular when it has returned. -/
def WaitState.NoLostTrigger (allowed : WaitState → WaitAction → Prop) (s : WaitState) : Prop :=
  ∀ action s' id guard guard', allowed s action → WaitStep s action s' →
    s.entities id = .guardCondition guard → s'.entities id = .guardCondition guard' →
    guard.hasTriggered = true → guard'.hasTriggered = false →
    ∃ t, action = .test t ∧ ∀ s'', waitMachine.StepsIf allowed s' s'' → s''.Reports t id

/-- Calls in progress share no entity and no wait set. -/
def Separate (s : WaitState) (action : WaitAction) : Prop :=
  SeparateEntities s action ∧ SeparateWaitSets s action

theorem waitInv_of_reachable {s : WaitState} (hReachable : waitMachine.ReachableIf Separate s) :
    WaitInv s := by
  have hAll : s.Pairwise WaitCall.EntitiesApart ∧
      (s.Pairwise fun call call' => call.waitSet ≠ call'.waitSet) ∧ WaitInv s := by
    apply hReachable.invariant
    · intro s hInit
      exact ⟨.of_initial hInit, .of_initial hInit, .of_initial hInit⟩
    · rintro s action s' ⟨hApart, hSets, hInv⟩ hAllowed hStep
      refine ⟨?_, ?_, hInv.step hApart hSets hStep⟩
      · exact WaitState.entitiesApart_step hApart hAllowed.1 hStep
      · exact WaitState.waitSetsApart_step hSets hAllowed.2 hStep
  exact hAll.2.2

theorem WaitInv.noLostWakeup {s : WaitState} (hInv : WaitInv s) : s.NoLostWakeup := by
  intro t call hCall hPhase hPending id hId
  have hNotReady : (s.entities id).ready ≠ true := by
    intro hReady
    exact hPending (hInv.blocked t call hCall hPhase id hId hReady)
  constructor
  · intro listener hListener
    rw [hListener] at hNotReady
    simpa [Waitable.ready, Listener.hasData] using hNotReady
  · intro guard hGuard
    rw [hGuard] at hNotReady
    simpa [Waitable.ready] using hNotReady

theorem WaitState.noLostTrigger {allowed : WaitState → WaitAction → Prop} {s : WaitState}
    (hReachable : waitMachine.ReachableIf allowed s) : s.NoLostTrigger allowed := by
  intro action s' id guard guard' hAllowed hStep hGuard hGuard' hSet hCleared
  have hAligned : s.Aligned := aligned_of_reachable hReachable.reachable
  obtain ⟨t, hTest, hReported⟩ := hStep.reported_of_cleared hAligned hGuard hGuard' hSet hCleared
  refine ⟨t, hTest, ?_⟩
  intro s'' hSteps
  have hLater : s''.Reported t id := by
    apply hSteps.preserves _ hReported
    intro middle _ later hMiddle _ hNext
    exact hMiddle.step hNext
  exact hLater.reports

/-- The first guard condition is attached by a call that is blocked. -/
def firstAsleep : WaitState where
  entities := Function.update WaitState.idle.entities 0
    (.guardCondition (GuardCondition.new.attachCondition 0))
  callbacks := fun _ => none
  calls := Function.update WaitState.idle.calls 0
    (some ((WaitCall.new 0 [0] .none).setPhase .blocked))

theorem firstAsleep_reachable : waitMachine.ReachableIf Separate firstAsleep := by
  have hStart := @follow Separate _ _ _ (.init WaitState.initial_idle)
    (@WaitStep.start WaitState.idle 0 0 [0] .none rfl)
    ⟨(by intro t call hCall; cases hCall), (by intro t call hCall; cases hCall)⟩
  have hAttach := follow hStart (@WaitStep.attach _ 0 0 0 _ rfl rfl rfl rfl) ⟨trivial, trivial⟩
  have hBlocked := follow hAttach (@WaitStep.check _ 0 _ rfl rfl) ⟨trivial, trivial⟩
  simp only [WaitState.setCall, WaitState.setEntity, Function.update_idem] at hBlocked
  exact hBlocked

/-- The only call that has begun has the first guard condition and the first wait set. -/
theorem firstAsleep_calls {t : Nat} {call : WaitCall} (hCall : firstAsleep.calls t = some call) :
    call.entities = [0] ∧ call.waitSet = 0 := by
  by_cases hSame : t = 0
  · subst hSame
    cases hCall
    exact ⟨rfl, rfl⟩
  · simp [firstAsleep, WaitState.idle, hSame] at hCall

theorem firstAsleep_separateEntities (waitSet : Nat) :
    SeparateEntities firstAsleep (.start 1 waitSet [1] .none) := by
  intro t call hCall _ id hId hOther
  rw [(firstAsleep_calls hCall).1, List.mem_singleton] at hOther
  rw [List.mem_singleton] at hId
  omega

/-- No lost wakeup, if calls in progress share neither an entity nor a wait set, and no
lost trigger, if they share no entity. -/
theorem nothing_lost (s : WaitState) :
    (waitMachine.ReachableIf Separate s → s.NoLostWakeup) ∧
      (waitMachine.ReachableIf SeparateEntities s → s.NoLostTrigger SeparateEntities) := by
  constructor
  · intro hReachable
    exact (waitInv_of_reachable hReachable).noLostWakeup
  · intro hReachable
    exact WaitState.noLostTrigger hReachable

/-- The first guard condition has been triggered and its call is about to test it, while
another call sleeps on the second. -/
theorem woken_nothing_lost : ∃ s call call', waitMachine.ReachableIf Separate s ∧
    s.calls 0 = some call ∧ call.phase = .filtering false 0 true ∧
    s.calls 1 = some call' ∧ call'.phase = .blocked ∧
    s.NoLostWakeup ∧ s.NoLostTrigger SeparateEntities := by
  have hStart := follow firstAsleep_reachable (@WaitStep.start _ 1 1 [1] .none rfl)
    ⟨firstAsleep_separateEntities 1, by
      intro t call hCall _
      rw [(firstAsleep_calls hCall).2]
      decide⟩
  have hAttach := follow hStart (@WaitStep.attach _ 1 1 0 _ rfl rfl rfl rfl) ⟨trivial, trivial⟩
  have hBlocked := follow hAttach (@WaitStep.check _ 1 _ rfl rfl) ⟨trivial, trivial⟩
  have hCallback := follow hBlocked (@WaitStep.callbackAttached _ 0 0 .trigger _ rfl rfl rfl)
    ⟨trivial, trivial⟩
  have hChange := follow hCallback (@WaitStep.change _ 0 .trigger _ rfl rfl) ⟨trivial, trivial⟩
  have hNotify := follow hChange (@WaitStep.notifyOne _ 0 0 _ rfl rfl rfl rfl) ⟨trivial, trivial⟩
  have hLeave := follow hNotify (@WaitStep.leave _ 0 rfl) ⟨trivial, trivial⟩
  have hRecheck := follow hLeave (@WaitStep.recheck _ 0 _ false rfl rfl) ⟨trivial, trivial⟩
  have hDetach := follow hRecheck (@WaitStep.detach _ 0 0 0 _ false rfl rfl rfl rfl)
    ⟨trivial, trivial⟩
  refine ⟨_, _, _, hDetach, rfl, rfl, rfl, rfl, (nothing_lost _).1 hDetach, (nothing_lost _).2 ?_⟩
  exact hDetach.mono fun _ _ hAllowed => hAllowed.1

/-- Two calls on one wait set: the second guard condition is triggered, and `notify_one`
wakes the call that waits for the first. -/
theorem shared_waitSet_lost : ∃ s, waitMachine.ReachableIf SeparateEntities s ∧
    ¬ s.NoLostWakeup := by
  have hStart := follow (firstAsleep_reachable.mono fun _ _ hAllowed => hAllowed.1)
    (@WaitStep.start _ 1 0 [1] .none rfl) (firstAsleep_separateEntities 0)
  have hAttach := follow hStart (@WaitStep.attach _ 1 1 0 _ rfl rfl rfl rfl) trivial
  have hBlocked := follow hAttach (@WaitStep.check _ 1 _ rfl rfl) trivial
  have hCallback :=
    follow hBlocked (@WaitStep.callbackAttached _ 1 0 .trigger _ rfl rfl rfl) trivial
  have hChange := follow hCallback (@WaitStep.change _ 1 .trigger _ rfl rfl) trivial
  have hNotify := follow hChange (@WaitStep.notifyOne _ 0 1 _ rfl rfl rfl rfl) trivial
  have hLeave := follow hNotify (@WaitStep.leave _ 1 rfl) trivial
  refine ⟨_, hLeave, ?_⟩
  intro hNoLost
  have hQuiet := hNoLost 1 _ rfl rfl (by
    rintro ⟨id, hPending, _⟩
    simp [WaitState.setCall, WaitState.setEntity, WaitState.setCallback, firstAsleep] at hPending)
  have hUntriggered := (hQuiet 1 (List.mem_singleton_self 1)).2 _ rfl
  cases hUntriggered

end Waiting
end RmwDps
