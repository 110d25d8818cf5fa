import RmwDps.Waiting.WaitMachine

/-!
# The verdict and the entries

`rmw_wait` decides its result under the condition mutex and tests the entries after
it has let the mutex go.  `RMW_RET_OK` agrees with the entries that are left in every
run in which nobody else waits on or takes from the entities of a call in progress.
`RMW_RET_TIMEOUT` agrees as long as, besides, nothing arrives after the decision at an
entity that is still to be tested.
-/

namespace RmwDps
namespace Waiting

open Transition (Machine)

/-! ## Conditions on runs -/

/-- Nothing is taken from an entity of a call in progress. -/
def NoConcurrentTake (s : WaitState) : WaitAction → Prop
  | .take id => ∀ t call, s.calls t = some call → call.InProgress → id ∉ call.entities
  | _ => True

/-- Each entity is in one call in progress at most, and nobody else takes from it. -/
def Undisturbed (s : WaitState) (action : WaitAction) : Prop :=
  SeparateEntities s action ∧ NoConcurrentTake s action

/-- A call has decided to report a timeout, and an entity is still to be tested. -/
def WaitState.AwaitsTest (s : WaitState) (id : Nat) : Prop :=
  ∃ t call index detached, s.calls t = some call ∧
    call.phase = .filtering true index detached ∧ id ∈ call.entities.drop index

/-- Nothing arrives at an entity that a timed out call is still to test. -/
def NoLateArrival (s : WaitState) (action : WaitAction) : Prop :=
  ∀ id, s.arrival action = some id → ¬ s.AwaitsTest id

theorem NoLateArrival.of_none {s : WaitState} {action : WaitAction}
    (hNone : s.arrival action = none) : NoLateArrival s action := by
  intro id hArrival
  rw [hNone] at hArrival
  cases hArrival

/-- With `RMW_RET_OK` an entry is not null. -/
def WaitState.OkAgrees (s : WaitState) : Prop :=
  ∀ t call, s.calls t = some call → call.phase = .returned false → true ∈ call.entries

/-- What the result of every call that has returned says about its entries: with
`RMW_RET_OK` one is not null, with `RMW_RET_TIMEOUT` all are null and the call has taken
no trigger. -/
def WaitState.VerdictAgrees (s : WaitState) : Prop :=
  ∀ t call timeout, s.calls t = some call → call.phase = .returned timeout →
    (timeout = false → true ∈ call.entries) ∧
      (timeout = true → (∀ entry ∈ call.entries, entry = false) ∧ call.consumed = [])

/-! ## The invariant -/

/-- What a call has found, and what it has still to find. -/
def WaitState.Supports (s : WaitState) (call : WaitCall) : Prop :=
  match call.verdict with
  | none => call.consumed = []
  | some false =>
      (∃ index < call.tested, call.entries[index]? = some true) ∨
        ∃ id ∈ call.entities.drop call.tested, (s.entities id).ready = true
  | some true =>
      (∀ index < call.tested, call.entries[index]? = some false) ∧
        (∀ id ∈ call.entities.drop call.tested, (s.entities id).ready = false) ∧
        call.consumed = []

/-- What holds along a run.  A call with `RMW_RET_TIMEOUT` is only spoken of in a run that is
`punctual`, where nothing arrives too late for it. -/
structure VerdictInv (punctual : Prop) (s : WaitState) : Prop where
  aligned : s.Aligned
  apart : s.Pairwise WaitCall.EntitiesApart
  supports : ∀ t call, s.calls t = some call → (call.verdict = some true → punctual) →
    s.Supports call

section Invariant

variable {punctual : Prop} {s s' : WaitState} {action : WaitAction} {t id : Nat}
  {call call' : WaitCall}

/-- A call with an entity still to be tested is in progress. -/
theorem WaitCall.inProgress_of_untested (hId : id ∈ call.entities.drop call.tested) :
    call.InProgress := by
  intro timeout hReturned
  simp [tested, hReturned] at hId

theorem WaitState.awaitsTest_of_untested (hCall : s.calls t = some call)
    (hVerdict : call.verdict = some true) (hId : id ∈ call.entities.drop call.tested) :
    s.AwaitsTest id := by
  cases hPhase : call.phase with
  | attaching | blocked | woken => simp [WaitCall.verdict, hPhase] at hVerdict
  | filtering timeout index detached =>
      rw [WaitCall.verdict, hPhase, Option.some.injEq] at hVerdict
      rw [WaitCall.tested, hPhase] at hId
      exact ⟨t, call, index, detached, hCall, hVerdict ▸ hPhase, hId⟩
  | returned timeout => exact absurd hPhase (WaitCall.inProgress_of_untested hId timeout)

theorem WaitState.Supports.setPhase {phase : WaitPhase} (hSupports : s.Supports call)
    (hTested : (call.setPhase phase).tested = call.tested)
    (hVerdict : (call.setPhase phase).verdict = call.verdict) :
    s.Supports (call.setPhase phase) := by
  unfold Supports
  rw [hVerdict, hTested]
  exact hSupports

/-- What a call relies on is the readiness of the entities that it has still to test. -/
theorem WaitState.Supports.frame (hSupports : s.Supports call)
    (hReady : ∀ id ∈ call.entities.drop call.tested, (s.entities id).ready = true →
      (s'.entities id).ready = true)
    (hNotReady : call.verdict = some true → ∀ id ∈ call.entities.drop call.tested,
      (s.entities id).ready = false → (s'.entities id).ready = false) : s'.Supports call := by
  unfold Supports at hSupports ⊢
  cases hVerdict : call.verdict with
  | none =>
      rw [hVerdict] at hSupports
      exact hSupports
  | some timeout =>
      rw [hVerdict] at hSupports
      cases timeout with
      | false =>
          rcases hSupports with hFound | ⟨id, hId, hIdReady⟩
          · exact .inl hFound
          · exact .inr ⟨id, hId, hReady id hId hIdReady⟩
      | true =>
          obtain ⟨hNull, hUntested, hConsumed⟩ := hSupports
          refine ⟨hNull, ?_, hConsumed⟩
          intro id hId
          exact hNotReady hVerdict id hId (hUntested id hId)

/-- No step but its own test touches what a call relies on, unless something arrives. -/
theorem VerdictInv.supports_frame (hInv : VerdictInv punctual s)
    (hAllowed : Undisturbed s action) (hNoLate : punctual → NoLateArrival s action)
    (hCall : s.calls t = some call) (hPunctual : call.verdict = some true → punctual)
    (hAction : action ≠ .test t) (hStep : WaitStep s action s') : s'.Supports call := by
  apply (hInv.supports t call hCall hPunctual).frame
  · intro id hId hReady
    have hProgress : call.InProgress := WaitCall.inProgress_of_untested hId
    have hMem : id ∈ call.entities := List.mem_of_mem_drop hId
    rcases hStep.ready_or_cleared hReady with hStill | rfl |
      ⟨t', call', rfl, hCall', hProgress', hMem'⟩
    · exact hStill
    · exact absurd hMem (hAllowed.2 t call hCall hProgress)
    · have hNe : t ≠ t' := by
        rintro rfl
        exact hAction rfl
      exact absurd hMem' (hInv.apart t t' call call' hCall hCall' hNe hProgress hProgress' id hMem)
  · intro hVerdict id hId hNotReady
    by_contra hArrived
    rw [Bool.not_eq_false] at hArrived
    have hArrival := hStep.arrival_of_ready hNotReady hArrived
    exact hNoLate (hPunctual hVerdict) id hArrival
      (WaitState.awaitsTest_of_untested hCall hVerdict hId)

/-- A decision agrees with the evaluation of the predicate that it comes from. -/
theorem WaitState.supports_of_decided {phase : WaitPhase} (hSupports : s.Supports call)
    (hNone : call.verdict = none) (hTested : (call.setPhase phase).tested = call.tested)
    (hVerdict : (call.setPhase phase).verdict = some (! s.checkWaitSetForData call.entities)) :
    s.Supports (call.setPhase phase) := by
  have hZero : (call.setPhase phase).tested = 0 := by
    rw [hTested]
    exact WaitCall.tested_of_verdict_none hNone
  have hConsumed : call.consumed = [] := by
    simpa only [Supports, hNone] using hSupports
  unfold Supports
  rw [hVerdict, hZero]
  cases hData : s.checkWaitSetForData call.entities with
  | true =>
      right
      obtain ⟨id, hId, hReady⟩ := List.any_eq_true.mp hData
      exact ⟨id, hId, hReady⟩
  | false =>
      refine ⟨?_, ?_, hConsumed⟩
      · intro index hIndex
        omega
      · intro id hId
        have hNotReady := List.any_eq_false.mp hData id hId
        simpa using hNotReady

/-- A test records an entity that is ready, and loses none that is still to be tested. -/
theorem WaitState.supports_of_tested {timeout : Bool} (hSupports : s.Supports call)
    (hLength : call.entries.length = call.entities.length)
    (hPhase : call.phase = .filtering timeout call.tested true)
    (hNext : call.entities[call.tested]? = some id)
    (hEntities : s'.entities = Function.update s.entities id (s.entities id).test.2) :
    s'.Supports (call.afterTest timeout call.tested id (s.entities id)) := by
  obtain ⟨hInside, hHere⟩ := List.getElem?_eq_some_iff.mp hNext
  have hDrop : call.entities.drop call.tested = id :: call.entities.drop (call.tested + 1) := by
    rw [List.drop_eq_getElem_cons hInside, hHere]
  have hEntry : call.tested < call.entries.length := by omega
  have hVerdict : call.verdict = some timeout := by rw [WaitCall.verdict, hPhase]
  have hVerdict' : (call.afterTest timeout call.tested id (s.entities id)).verdict =
      some timeout := rfl
  unfold Supports at hSupports ⊢
  rw [hVerdict, hDrop] at hSupports
  rw [hVerdict', WaitCall.tested_afterTest, WaitCall.entities_afterTest, WaitCall.entries_afterTest]
  cases timeout with
  | false =>
      cases hReady : (s.entities id).ready with
      | true =>
          left
          exact ⟨call.tested, by omega, List.getElem?_set_self hEntry⟩
      | false =>
          -- The entity that supports the verdict is another one, tested before or still to come.
          rcases hSupports with ⟨index, hIndex, hFound⟩ | ⟨other, hOther, hOtherReady⟩
          · left
            refine ⟨index, by omega, ?_⟩
            rw [List.getElem?_set_ne (by omega)]
            exact hFound
          · right
            have hElse : other ≠ id := by
              rintro rfl
              rw [hReady] at hOtherReady
              cases hOtherReady
            refine ⟨other, (List.mem_cons.mp hOther).resolve_left hElse, ?_⟩
            rw [hEntities, Function.update_of_ne hElse]
            exact hOtherReady
  | true =>
      obtain ⟨hNull, hUntested, hConsumed⟩ := hSupports
      have hNotReady : (s.entities id).ready = false := hUntested id List.mem_cons_self
      refine ⟨?_, ?_, ?_⟩
      · intro index hIndex
        by_cases hLast : index = call.tested
        · rw [hLast, hNotReady]
          exact List.getElem?_set_self hEntry
        · rw [List.getElem?_set_ne (Ne.symm hLast)]
          exact hNull index (by omega)
      · intro other hOther
        have hBefore := hUntested other (List.mem_cons_of_mem id hOther)
        rw [hEntities]
        by_cases hSame : other = id
        · subst hSame
          rw [Function.update_self]
          -- Testing a guard condition clears it, so it is not ready afterwards either.
          by_contra hTested
          rw [Bool.not_eq_false] at hTested
          rw [Waitable.ready_of_ready_test hTested] at hNotReady
          cases hNotReady
        · rw [Function.update_of_ne hSame]
          exact hBefore
      · simp [WaitCall.afterTest, hNotReady, hConsumed]

theorem VerdictInv.step (hInv : VerdictInv punctual s) (hAllowed : Undisturbed s action)
    (hNoLate : punctual → NoLateArrival s action) (hStep : WaitStep s action s') :
    VerdictInv punctual s' where
  aligned := hInv.aligned.step hStep
  apart := WaitState.entitiesApart_step hInv.apart hAllowed.1 hStep
  supports t call' hCall' hPunctual := by
    rcases hStep.callChange t with ⟨hAction, hSame⟩ | ⟨_, _, hNew⟩ |
      ⟨hAction, hCall, _, hTested, hVerdict, hMoved⟩ |
      ⟨hCall, hTested, hNone, hVerdict, hEntities, hDecided⟩ |
      ⟨_, hCall, hPhase, hNext, hEntities, hTest⟩
    · exact hInv.supports_frame hAllowed hNoLate (hSame ▸ hCall') hPunctual hAction hStep
    · obtain rfl := Option.some.inj (hNew.symm.trans hCall')
      rfl
    · obtain rfl := Option.some.inj (hMoved.symm.trans hCall')
      rw [hVerdict] at hPunctual
      have hFrame := hInv.supports_frame hAllowed hNoLate hCall hPunctual hAction hStep
      exact hFrame.setPhase hTested hVerdict
    · obtain rfl := Option.some.inj (hDecided.symm.trans hCall')
      have hBefore := hInv.supports t _ hCall fun hVerdict => by
        rw [hNone] at hVerdict
        cases hVerdict
      have hSupports := WaitState.supports_of_decided hBefore hNone hTested hVerdict
      apply hSupports.frame
      · intro id _ hReady
        rwa [hEntities]
      · intro _ id _ hNotReady
        rwa [hEntities]
    · obtain rfl := Option.some.inj (hTest.symm.trans hCall')
      have hBefore := hInv.supports t _ hCall fun hVerdict => hPunctual <| by
        rwa [WaitCall.verdict, hPhase] at hVerdict
      exact WaitState.supports_of_tested hBefore (hInv.aligned t _ hCall) hPhase hNext hEntities

theorem VerdictInv.of_initial (hInit : s.Initial) : VerdictInv punctual s where
  aligned t call hCall := by simp [hInit.2.2 t] at hCall
  apart := .of_initial hInit
  supports t call hCall := by simp [hInit.2.2 t] at hCall

theorem VerdictInv.okAgrees (hInv : VerdictInv punctual s) : s.OkAgrees := by
  intro t call hCall hPhase
  have hVerdict : call.verdict = some false := by rw [WaitCall.verdict, hPhase]
  have hSupports := hInv.supports t call hCall fun hTimeout => by
    rw [hVerdict] at hTimeout
    cases hTimeout
  unfold WaitState.Supports at hSupports
  rw [hVerdict] at hSupports
  -- Nothing is left to test, so an entry must support the verdict.
  rcases hSupports with ⟨index, _, hFound⟩ | ⟨id, hId, _⟩
  · exact List.mem_of_getElem? hFound
  · exact absurd hPhase (WaitCall.inProgress_of_untested hId false)

/-- A call that has returned has no entity left to test. -/
theorem VerdictInv.verdictAgrees (hInv : VerdictInv True s) : s.VerdictAgrees := by
  intro t call timeout hCall hPhase
  constructor
  · rintro rfl
    exact hInv.okAgrees t call hCall hPhase
  · rintro rfl
    have hSupports := hInv.supports t call hCall fun _ => trivial
    have hVerdict : call.verdict = some true := by rw [WaitCall.verdict, hPhase]
    have hTested : call.tested = call.entries.length := by
      rw [WaitCall.tested, hPhase, hInv.aligned t call hCall]
    unfold WaitState.Supports at hSupports
    rw [hVerdict] at hSupports
    obtain ⟨hNull, _, hConsumed⟩ := hSupports
    refine ⟨?_, hConsumed⟩
    intro entry hEntry
    obtain ⟨index, hIndex, rfl⟩ := List.mem_iff_getElem.mp hEntry
    have hAt := hNull index (by omega)
    rw [List.getElem?_eq_getElem hIndex, Option.some.injEq] at hAt
    exact hAt

end Invariant

/-! ## Main results -/

/-- `RMW_RET_OK` agrees with the entries whatever arrives, and whenever it arrives. -/
theorem ok_agrees {s : WaitState} (hReachable : waitMachine.ReachableIf Undisturbed s) :
    s.OkAgrees := by
  have hInv : VerdictInv False s := by
    apply hReachable.invariant
    · intro s hInit
      exact VerdictInv.of_initial hInit
    · intro s action s' hInv hAllowed hStep
      exact hInv.step hAllowed nofun hStep
  exact hInv.okAgrees

/-- The verdict agrees with the entries in every state that a run reaches in which nothing
arrives at an entity that a timed out call is still to test. -/
theorem verdictAgrees_of_noLateArrival {s : WaitState}
    (hReachable : waitMachine.ReachableIf
      (fun s action => Undisturbed s action ∧ NoLateArrival s action) s) : s.VerdictAgrees := by
  have hInv : VerdictInv True s := by
    apply hReachable.invariant
    · intro s hInit
      exact VerdictInv.of_initial hInit
    · intro s action s' hInv hAllowed hStep
      exact hInv.step hAllowed.1 (fun _ => hAllowed.2) hStep
  exact hInv.verdictAgrees

/-- A call times out; the trigger that comes after its test is reported by the next call. -/
theorem nextCall_verdictAgrees : ∃ (s : WaitState) (call call' : WaitCall),
    s.calls 0 = some call ∧ call.phase = .returned true ∧
    s.calls 1 = some call' ∧ call'.phase = .returned false ∧ call'.consumed = [0] ∧
    s.VerdictAgrees := by
  have hStart := @follow (fun s action => Undisturbed s action ∧ NoLateArrival s action) _ _ _
    (.init WaitState.initial_idle) (@WaitStep.start WaitState.idle 0 0 [0] .zero rfl)
    ⟨⟨(by intro t call hCall; cases hCall), trivial⟩, .of_none rfl⟩
  have hAttach := follow hStart (@WaitStep.attach _ 0 0 0 _ rfl rfl rfl rfl)
    ⟨⟨trivial, trivial⟩, .of_none rfl⟩
  have hCheck := follow hAttach (@WaitStep.check _ 0 _ rfl rfl) ⟨⟨trivial, trivial⟩, .of_none rfl⟩
  have hDetach := follow hCheck (@WaitStep.detach _ 0 0 0 _ true rfl rfl rfl rfl)
    ⟨⟨trivial, trivial⟩, .of_none rfl⟩
  have hTest := follow hDetach (@WaitStep.test _ 0 0 0 _ true rfl rfl rfl)
    ⟨⟨trivial, trivial⟩, .of_none rfl⟩
  have hFinish := follow hTest (@WaitStep.finish _ 0 _ true rfl rfl)
    ⟨⟨trivial, trivial⟩, .of_none rfl⟩
  have hTrigger := follow hFinish (@WaitStep.callbackDetached _ 0 .trigger _ rfl rfl rfl)
    ⟨⟨trivial, trivial⟩, by
      rintro id _ ⟨t, call, index, detached, hCall, hPhase, _⟩
      by_cases hSame : t = 0
      · subst hSame
        cases hCall
        cases hPhase
      · simp [WaitState.setCall, WaitState.setEntity, WaitState.idle, hSame] at hCall⟩
  have hAgain := follow hTrigger (@WaitStep.start _ 1 0 [0] .zero rfl)
    ⟨⟨by
      intro t call hCall hProgress
      by_cases hSame : t = 0
      · subst hSame
        cases hCall
        exact absurd rfl (hProgress true)
      · simp [WaitState.setCall, WaitState.setEntity, WaitState.idle, hSame] at hCall,
      trivial⟩, .of_none rfl⟩
  have hAttach₁ := follow hAgain (@WaitStep.attach _ 1 0 0 _ rfl rfl rfl rfl)
    ⟨⟨trivial, trivial⟩, .of_none rfl⟩
  have hCheck₁ := follow hAttach₁ (@WaitStep.check _ 1 _ rfl rfl) ⟨⟨trivial, trivial⟩, .of_none rfl⟩
  have hDetach₁ := follow hCheck₁ (@WaitStep.detach _ 1 0 0 _ false rfl rfl rfl rfl)
    ⟨⟨trivial, trivial⟩, .of_none rfl⟩
  have hTest₁ := follow hDetach₁ (@WaitStep.test _ 1 0 0 _ false rfl rfl rfl)
    ⟨⟨trivial, trivial⟩, .of_none rfl⟩
  have hFinish₁ := follow hTest₁ (@WaitStep.finish _ 1 _ false rfl rfl)
    ⟨⟨trivial, trivial⟩, .of_none rfl⟩
  exact ⟨_, _, _, rfl, rfl, rfl, rfl, rfl, verdictAgrees_of_noLateArrival hFinish₁⟩

/-- The guard condition is triggered between the decision and the test: the call returns
`RMW_RET_TIMEOUT` with the entry left, and has taken the trigger. -/
theorem lateTrigger_not_verdictAgrees : ∃ s, waitMachine.ReachableIf Undisturbed s ∧
    ¬ s.VerdictAgrees := by
  have hStart := @follow Undisturbed _ _ _ (.init WaitState.initial_idle)
    (@WaitStep.start WaitState.idle 0 0 [0] .zero rfl)
    ⟨(by intro t call hCall; cases hCall), trivial⟩
  have hAttach := follow hStart (@WaitStep.attach _ 0 0 0 _ rfl rfl rfl rfl) ⟨trivial, trivial⟩
  have hCheck := follow hAttach (@WaitStep.check _ 0 _ rfl rfl) ⟨trivial, trivial⟩
  have hDetach := follow hCheck (@WaitStep.detach _ 0 0 0 _ true rfl rfl rfl rfl) ⟨trivial, trivial⟩
  have hTrigger := follow hDetach (@WaitStep.callbackDetached _ 0 .trigger _ rfl rfl rfl)
    ⟨trivial, trivial⟩
  have hTest := follow hTrigger (@WaitStep.test _ 0 0 0 _ true rfl rfl rfl) ⟨trivial, trivial⟩
  have hFinish := follow hTest (@WaitStep.finish _ 0 _ true rfl rfl) ⟨trivial, trivial⟩
  refine ⟨_, hFinish, ?_⟩
  intro hAgrees
  obtain ⟨_, hTimeout⟩ := hAgrees 0 _ true rfl rfl
  have hConsumed := (hTimeout rfl).2
  cases hConsumed

end Waiting
end RmwDps
