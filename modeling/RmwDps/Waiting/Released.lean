import RmwDps.Waiting.LostWakeups

/-!
# A wait set that nobody touches

A callback reaches a wait set through the two pointers of its entity only, and it holds
the internal mutex of the entity while it does.  `rmw_wait` detaches every entity before
it returns, and detaching waits for that mutex.  So the pointers of an entity are always
to the wait set of a call that has yet to detach it, or null.

No assumption on the calls is needed: calls in progress may share entities, and a call
may list an entity twice.
-/

namespace RmwDps
namespace Waiting

open Messaging (Listener Data)
open Transition (Machine)

/-! ## Where pointers lead -/

/-- Both pointers are null. -/
def Waitable.Detached (entity : Waitable) : Prop :=
  entity.conditionMutex = none ∧ entity.conditionVariable = none

/-- The entities that a call has attached and is still to detach, entry by entry. -/
def WaitCall.toDetach (call : WaitCall) : List Nat :=
  match call.phase with
  | .attaching count => call.entities.take count
  | .blocked | .woken _ => call.entities
  | .filtering _ index false => call.entities.drop index
  | .filtering _ index true => call.entities.drop (index + 1)
  | .returned _ => []

/-- The pointers of an entity are null, or to the wait set of a call that is to detach
it. -/
def WaitState.PointsToCall (s : WaitState) (id : Nat) : Prop :=
  (s.entities id).Detached ∨
    ∃ t call, s.calls t = some call ∧ id ∈ call.toDetach ∧
      (s.entities id).AttachedTo call.waitSet

/-- No call on a wait set is in progress. -/
def WaitState.NotInUse (s : WaitState) (waitSet : Nat) : Prop :=
  ∀ t call, s.calls t = some call → call.InProgress → call.waitSet ≠ waitSet

/-- A callback holds or waits for the mutex of a wait set, or is still to notify its
condition variable. -/
def WaitState.Touches (s : WaitState) (waitSet : Nat) : Prop :=
  ∃ id phase, s.callbacks id = some phase ∧ phase ≠ .beforeReturn ∧
    ((s.entities id).conditionMutex = some waitSet ∨
      (s.entities id).conditionVariable = some waitSet)

/-- No entity has a pointer to a wait set, and so no callback can find it. -/
def WaitState.Released (s : WaitState) (waitSet : Nat) : Prop :=
  ¬ s.Touches waitSet ∧ ∀ id, (s.entities id).conditionMutex ≠ some waitSet ∧
    (s.entities id).conditionVariable ≠ some waitSet

/-- A step does not begin a call on a wait set. -/
def NoNewCall (waitSet : Nat) (_ : WaitState) : WaitAction → Prop
  | .start _ waitSet' _ _ => waitSet' ≠ waitSet
  | _ => True

/-! ## Steps -/

section Step

variable {s s' : WaitState} {action : WaitAction} {t id : Nat} {call : WaitCall}

theorem WaitCall.mem_entities_of_toDetach (hId : id ∈ call.toDetach) : id ∈ call.entities := by
  unfold toDetach at hId
  split at hId
  · exact List.mem_of_mem_take hId
  · exact hId
  · exact hId
  · exact List.mem_of_mem_drop hId
  · exact List.mem_of_mem_drop hId
  · cases hId

theorem WaitCall.inProgress_of_toDetach (hId : id ∈ call.toDetach) : call.InProgress := by
  intro timeout hReturned
  simp only [toDetach, hReturned] at hId
  cases hId

/-- The frame rule: the pointers of the entity are the same, and a call that is to
detach it still is. -/
theorem WaitState.PointsToCall.frame (hPoints : s.PointsToCall id)
    (hMutex : (s'.entities id).conditionMutex = (s.entities id).conditionMutex)
    (hVariable : (s'.entities id).conditionVariable = (s.entities id).conditionVariable)
    (hCalls : ∀ t call, s.calls t = some call → id ∈ call.toDetach →
      ∃ call', s'.calls t = some call' ∧ id ∈ call'.toDetach ∧ call'.waitSet = call.waitSet) :
    s'.PointsToCall id := by
  rcases hPoints with ⟨hNoMutex, hNoVariable⟩ | ⟨t, call, hCall, hDetach, hTo, hTo'⟩
  · exact .inl ⟨hMutex.trans hNoMutex, hVariable.trans hNoVariable⟩
  · obtain ⟨call', hCall', hDetach', hSet⟩ := hCalls t call hCall hDetach
    refine .inr ⟨t, call', hCall', hDetach', ?_, ?_⟩
    · rw [hMutex, hTo, hSet]
    · rw [hVariable, hTo', hSet]

/-- The calls after one of them has moved to a phase in which it is still to detach the
entity. -/
theorem WaitState.calls_setCall_toDetach {call' : WaitCall} (hCall : s.calls t = some call)
    (hCalls : s'.calls = Function.update s.calls t (some call'))
    (hSet : call'.waitSet = call.waitSet) (hKeeps : id ∈ call.toDetach → id ∈ call'.toDetach)
    (u : Nat) (other : WaitCall) (hOther : s.calls u = some other) (hDetach : id ∈ other.toDetach) :
    ∃ other', s'.calls u = some other' ∧ id ∈ other'.toDetach ∧
      other'.waitSet = other.waitSet := by
  rw [hCalls]
  by_cases hSame : u = t
  · subst hSame
    obtain rfl := Option.some.inj (hCall.symm.trans hOther)
    exact ⟨call', Function.update_self _ _ _, hKeeps hDetach, hSet⟩
  · exact ⟨other, by rw [Function.update_of_ne hSame, hOther], hDetach, rfl⟩

/-- A call moves on, and no pointer changes. -/
theorem WaitState.PointsToCall.move {call' : WaitCall} (hPoints : s.PointsToCall id)
    (hCall : s.calls t = some call) (hSet : call'.waitSet = call.waitSet)
    (hKeeps : id ∈ call.toDetach → id ∈ call'.toDetach) :
    (s.setCall t call').PointsToCall id :=
  hPoints.frame rfl rfl (WaitState.calls_setCall_toDetach hCall rfl hSet hKeeps)

/-- An entity changes without its pointers. -/
theorem WaitState.PointsToCall.setEntity {other : Nat} {entity : Waitable}
    (hPoints : s.PointsToCall id)
    (hMutex : entity.conditionMutex = (s.entities other).conditionMutex)
    (hVariable : entity.conditionVariable = (s.entities other).conditionVariable) :
    (s.setEntity other entity).PointsToCall id := by
  refine hPoints.frame ?_ ?_ fun t call hCall hDetach => ⟨call, hCall, hDetach, rfl⟩
  · by_cases hSame : id = other
    · subst hSame
      simpa [WaitState.setEntity] using hMutex
    · simp [WaitState.setEntity, hSame]
  · by_cases hSame : id = other
    · subst hSame
      simpa [WaitState.setEntity] using hVariable
    · simp [WaitState.setEntity, hSame]

theorem WaitStep.pointsToCall (hStep : WaitStep s action s') (hPoints : s.PointsToCall id) :
    s'.PointsToCall id := by
  cases hStep with
  | @start t waitSet entities timeout hFresh =>
      refine hPoints.frame rfl rfl fun u call hCall hDetach => ⟨call, ?_, hDetach, rfl⟩
      -- A new call has attached nothing yet, and takes the place of no call.
      have hOther : u ≠ t := by
        rintro rfl
        rw [hFresh] at hCall
        cases hCall
      rw [WaitState.calls_setCall_of_ne hOther, hCall]
  | @attach t other count call hCall hPhase hNext hFree =>
      by_cases hSame : id = other
      · subst hSame
        refine .inr ⟨t, _, WaitState.calls_setCall_self, ?_, ?_⟩
        · rw [WaitCall.toDetach]
          exact List.mem_of_getElem? (List.getElem?_take_of_lt (Nat.lt_succ_self count) ▸ hNext)
        · simp [WaitState.setCall, WaitState.setEntity, Waitable.AttachedTo, WaitCall.setPhase]
      · refine hPoints.frame ?_ ?_
          (WaitState.calls_setCall_toDetach hCall rfl rfl fun hDetach => ?_)
        · simp [WaitState.setCall, WaitState.setEntity, hSame]
        · simp [WaitState.setCall, WaitState.setEntity, hSame]
        -- What the call has attached before remains to be detached.
        · have hTaken : id ∈ call.entities.take count := by
            simpa [WaitCall.toDetach, hPhase] using hDetach
          exact (List.take_subset_take_left _ (Nat.le_succ count)) hTaken
  | @check t call hCall hPhase =>
      refine hPoints.move hCall rfl fun hDetach => ?_
      have hMem := WaitCall.mem_entities_of_toDetach hDetach
      unfold WaitCall.setPhase WaitCall.afterCheck WaitCall.toDetach
      cases s.checkWaitSetForData call.entities <;> cases call.timeout <;> simpa using hMem
  | wake hCall hPhase | expire hCall hPhase _ =>
      refine hPoints.move hCall rfl fun hDetach => ?_
      have hMem := WaitCall.mem_entities_of_toDetach hDetach
      exact hMem
  | @recheck t call expired hCall hPhase =>
      refine hPoints.move hCall rfl fun hDetach => ?_
      have hMem := WaitCall.mem_entities_of_toDetach hDetach
      unfold WaitCall.setPhase WaitCall.afterRecheck WaitCall.toDetach
      cases s.checkWaitSetForData call.entities <;> cases expired <;> simpa using hMem
  | @detach t other index call timeout hCall hPhase hNext hFree =>
      by_cases hSame : id = other
      · -- The call detaches the entity, whoever has attached it.
        subst hSame
        left
        simp only [WaitState.setCall, WaitState.setEntity, Function.update_self]
        exact ⟨by cases s.entities id <;> rfl, by cases s.entities id <;> rfl⟩
      · refine hPoints.frame ?_ ?_
          (WaitState.calls_setCall_toDetach hCall rfl rfl fun hDetach => ?_)
        · simp [WaitState.setCall, WaitState.setEntity, hSame]
        · simp [WaitState.setCall, WaitState.setEntity, hSame]
        -- Only `other` is done with, so a different entity is still to be detached.
        · have hDropped : id ∈ call.entities.drop index := by
            simpa [WaitCall.toDetach, hPhase] using hDetach
          rw [List.drop_eq_getElem?_toList_append, hNext] at hDropped
          simpa [hSame, WaitCall.toDetach, WaitCall.setPhase] using hDropped
  | @test t other index call timeout hCall hPhase hNext =>
      have hEntity : (s.setEntity other (s.entities other).test.2).PointsToCall id :=
        hPoints.setEntity (by simp) (by simp)
      refine hEntity.move hCall rfl fun hDetach => ?_
      simpa [WaitCall.toDetach, hPhase, WaitCall.afterTest] using hDetach
  | @finish t call timeout hCall hPhase =>
      refine hPoints.move hCall rfl fun hDetach => ?_
      -- The call has been through its arrays, so nothing of it points anywhere.
      simp [WaitCall.toDetach, hPhase] at hDetach
  | callbackDetached _ _ hAccept =>
      exact hPoints.setEntity (Waitable.accept_conditionMutex hAccept)
        (Waitable.accept_conditionVariable hAccept)
  | callbackAttached | notifyNone | leave => exact hPoints
  | change _ hAccept =>
      exact hPoints.setEntity (Waitable.accept_conditionMutex hAccept)
        (Waitable.accept_conditionVariable hAccept)
  | notifyOne _ hCall _ hPhase =>
      refine WaitState.PointsToCall.move (s := s.setCallback _ _) hPoints hCall rfl
        fun hDetach => ?_
      have hMem := WaitCall.mem_entities_of_toDetach hDetach
      exact hMem
  | @take other listener hFree hListener =>
      refine hPoints.setEntity ?_ ?_
      · rw [hListener]
        exact take_conditionMutex listener
      · rw [hListener]
        exact take_conditionVariable listener

theorem pointsToCall_of_reachable (hReachable : waitMachine.Reachable s) (id : Nat) :
    s.PointsToCall id := by
  refine hReachable.invariant ?_ (fun _ _ _ hPoints hStep => hStep.pointsToCall hPoints)
  intro s hInit
  left
  rcases hInit.1 id with hEntity | hEntity
  · rw [hEntity]
    exact ⟨rfl, rfl⟩
  · rw [hEntity]
    exact ⟨rfl, rfl⟩

/-! ## Wait sets out of use -/

/-- A wait set stays out of use until a call on it begins. -/
theorem WaitState.NotInUse.step {waitSet : Nat} (hNotInUse : s.NotInUse waitSet)
    (hNoNew : NoNewCall waitSet s action) (hStep : WaitStep s action s') :
    s'.NotInUse waitSet := by
  intro t call' hCall' hProgress'
  rcases (hStep.callChange t).origin hCall' with
    ⟨call, hCall, -, hSet, hStill⟩ | ⟨waitSet', entities, timeout, hAction, hNew⟩
  · rw [hSet]
    exact hNotInUse t call hCall (hStill hProgress')
  · subst hAction hNew
    exact hNoNew

/-- Nothing points to a wait set out of use. -/
theorem WaitState.NotInUse.released {waitSet : Nat} (hNotInUse : s.NotInUse waitSet)
    (hPoints : ∀ id, s.PointsToCall id) : s.Released waitSet := by
  have hNowhere : ∀ id, (s.entities id).conditionMutex ≠ some waitSet ∧
      (s.entities id).conditionVariable ≠ some waitSet := by
    intro id
    rcases hPoints id with ⟨hNoMutex, hNoVariable⟩ | ⟨t, call, hCall, hDetach, hTo, hTo'⟩
    · rw [hNoMutex, hNoVariable]
      exact ⟨nofun, nofun⟩
    · have hOther := hNotInUse t call hCall (WaitCall.inProgress_of_toDetach hDetach)
      rw [hTo, hTo', Ne, Option.some.injEq]
      exact ⟨hOther, hOther⟩
  refine ⟨?_, hNowhere⟩
  rintro ⟨id, phase, -, -, hMutex | hVariable⟩
  · exact (hNowhere id).1 hMutex
  · exact (hNowhere id).2 hVariable

/-- In every reachable state both pointers of an entity are null, or both are to the
wait set of one call in progress that lists the entity.  A wait set on which no call is
in progress is released, and remains so until a call on it begins. -/
theorem waitSet_released (hReachable : waitMachine.Reachable s) :
    (∀ id, (s.entities id).Detached ∨
      ∃ t call, s.calls t = some call ∧ call.InProgress ∧ id ∈ call.entities ∧
        (s.entities id).AttachedTo call.waitSet) ∧
    ∀ waitSet, s.NotInUse waitSet →
      ∀ s', waitMachine.StepsIf (NoNewCall waitSet) s s' → s'.Released waitSet := by
  constructor
  · intro id
    rcases pointsToCall_of_reachable hReachable id with hDetached | ⟨t, call, hCall, hDetach, hTo⟩
    · exact .inl hDetached
    · exact .inr ⟨t, call, hCall, WaitCall.inProgress_of_toDetach hDetach,
        WaitCall.mem_entities_of_toDetach hDetach, hTo⟩
  · intro waitSet hNotInUse s' hSteps
    have hKeeps : ∀ s action s', (s.NotInUse waitSet ∧ ∀ id, s.PointsToCall id) →
        NoNewCall waitSet s action → WaitStep s action s' →
          s'.NotInUse waitSet ∧ ∀ id, s'.PointsToCall id := by
      rintro s action s' ⟨hOut, hPoints⟩ hNoNew hStep
      exact ⟨hOut.step hNoNew hStep, fun id => WaitStep.pointsToCall hStep (hPoints id)⟩
    have hAfter := hSteps.preserves hKeeps ⟨hNotInUse, pointsToCall_of_reachable hReachable⟩
    exact hAfter.1.released hAfter.2

/-- A call on wait set 7 that has found the second of two guard conditions triggered. -/
def leftCall : WaitCall :=
  { waitSet := 7, entities := [0, 1], timeout := .zero, entries := [false, true],
    consumed := [1], phase := .returned true }

/-- The trigger is under way while `rmw_wait` leaves: it holds the internal mutex of the second
condition when the call detaches the first one. -/
theorem leftCall_reachable : ∃ s, waitMachine.Reachable s ∧
    s.calls = Function.update (fun _ => none) 0 (some leftCall) ∧ s.callbacks 0 = none ∧
    s.entities 0 = .guardCondition .new := by
  have hIdle : waitMachine.Reachable WaitState.idle := .init WaitState.initial_idle
  have hStart := hIdle.step (@WaitStep.start WaitState.idle 0 7 [0, 1] .zero rfl)
  have hFirst := hStart.step (@WaitStep.attach _ 0 0 0 _ rfl rfl rfl rfl)
  have hSecond := hFirst.step (@WaitStep.attach _ 0 1 1 _ rfl rfl rfl rfl)
  have hCheck := hSecond.step (@WaitStep.check _ 0 _ rfl rfl)
  have hCallback := hCheck.step (@WaitStep.callbackAttached _ 1 7 .trigger _ rfl rfl rfl)
  have hDetach := hCallback.step (@WaitStep.detach _ 0 0 0 _ true rfl rfl rfl rfl)
  have hChange := hDetach.step (@WaitStep.change _ 1 .trigger _ rfl rfl)
  have hTest := hChange.step (@WaitStep.test _ 0 0 0 _ true rfl rfl rfl)
  have hNotify := hTest.step <| @WaitStep.notifyNone _ 1 7 rfl rfl <| by
    -- The only call is past its blocking wait.
    intro t call hCall _
    by_cases hSame : t = 0
    · subst hSame
      obtain rfl := Option.some.inj hCall
      exact nofun
    · simp [WaitState.setCall, WaitState.setEntity, WaitState.setCallback, WaitState.idle, hSame]
        at hCall
  have hLeave := hNotify.step (@WaitStep.leave _ 1 rfl)
  have hDetach' := hLeave.step (@WaitStep.detach _ 0 1 1 _ true rfl rfl rfl rfl)
  have hTest' := hDetach'.step (@WaitStep.test _ 0 1 1 _ true rfl rfl rfl)
  have hFinish := hTest'.step (@WaitStep.finish _ 0 _ true rfl rfl)
  refine ⟨_, hFinish, ?_, rfl, rfl⟩
  simp only [WaitState.setCall, WaitState.setEntity, WaitState.setCallback, WaitState.idle,
    Function.update_idem]
  rfl

/-- A trigger of the first condition after the return finds no wait set. -/
theorem returned_waitSet_released : ∃ s s', waitMachine.Reachable s ∧
    s.calls 0 = some leftCall ∧ waitMachine.StepsIf (NoNewCall 7) s s' ∧
    (s'.entities 0).ready = true ∧ s'.Released 7 := by
  obtain ⟨s, hReachable, hCalls, hFree, hEntity⟩ := leftCall_reachable
  have hNotInUse : s.NotInUse 7 := by
    intro t call hCall hProgress
    rw [hCalls] at hCall
    by_cases hSame : t = 0
    · subst hSame
      obtain rfl := Option.some.inj hCall
      exact absurd rfl (hProgress true)
    · rw [Function.update_of_ne hSame] at hCall
      cases hCall
  have hTrigger := @WaitStep.callbackDetached s 0 .trigger (.guardCondition GuardCondition.new.set)
    hFree (by rw [hEntity]; rfl) (by rw [hEntity]; rfl)
  have hSteps : waitMachine.StepsIf (NoNewCall 7) s _ :=
    .single ⟨.callback 0 .trigger, trivial, hTrigger⟩
  refine ⟨s, _, hReachable, by rw [hCalls]; rfl, hSteps, ?_, ?_⟩
  · simp [WaitState.setEntity]; rfl
  · exact (waitSet_released hReachable).2 7 hNotInUse _ hSteps

end Step

end Waiting
end RmwDps
