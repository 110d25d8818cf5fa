import Mathlib

/-!
# Transition systems

Labelled transition systems, the states that runs reach when every step is one
that is allowed, and the rule that carries an invariant along such runs.
-/

namespace Transition

/-- The start states, and the states a label can lead to. -/
structure Machine (σ ε : Type) where
  init : σ → Prop
  step : σ → ε → σ → Prop

namespace Machine

variable {σ ε : Type} {machine : Machine σ ε} {allowed : σ → ε → Prop}

/-- The states at the end of a run all of whose steps are allowed where they are
taken. -/
inductive ReachableIf (machine : Machine σ ε) (allowed : σ → ε → Prop) : σ → Prop
  | init {s : σ} (hInit : machine.init s) : ReachableIf machine allowed s
  | step {s s' : σ} {e : ε} (hReachable : ReachableIf machine allowed s)
      (hAllowed : allowed s e) (hStep : machine.step s e s') : ReachableIf machine allowed s'

/-- The states at the end of any run. -/
def Reachable (machine : Machine σ ε) : σ → Prop :=
  machine.ReachableIf fun _ _ => True

/-- What holds at the start and is kept by every allowed step holds in every
state reached. -/
theorem ReachableIf.invariant {Inv : σ → Prop} {s : σ} (hReachable : machine.ReachableIf allowed s)
    (hInit : ∀ s, machine.init s → Inv s)
    (hStep : ∀ s e s', Inv s → allowed s e → machine.step s e s' → Inv s') : Inv s := by
  induction hReachable with
  | init hStart => exact hInit _ hStart
  | step _ hAllowed hTaken ih => exact hStep _ _ _ ih hAllowed hTaken

theorem Reachable.invariant {Inv : σ → Prop} {s : σ} (hReachable : machine.Reachable s)
    (hInit : ∀ s, machine.init s → Inv s)
    (hStep : ∀ s e s', Inv s → machine.step s e s' → Inv s') : Inv s :=
  ReachableIf.invariant hReachable hInit fun s e s' hInv _ => hStep s e s' hInv

/-- Fewer runs are allowed by a stronger condition. -/
theorem ReachableIf.mono {allowed' : σ → ε → Prop} {s : σ}
    (hReachable : machine.ReachableIf allowed s)
    (hAllowed : ∀ s e, allowed s e → allowed' s e) : machine.ReachableIf allowed' s := by
  induction hReachable with
  | init hStart => exact .init hStart
  | step _ hTaken hStep ih => exact .step ih (hAllowed _ _ hTaken) hStep

theorem ReachableIf.reachable {s : σ} (hReachable : machine.ReachableIf allowed s) :
    machine.Reachable s :=
  hReachable.mono fun _ _ _ => trivial

/-- The states that allowed steps lead to from a given one. -/
def StepsIf (machine : Machine σ ε) (allowed : σ → ε → Prop) : σ → σ → Prop :=
  Relation.ReflTransGen fun s s' => ∃ e, allowed s e ∧ machine.step s e s'

/-- What every allowed step keeps still holds after any number of them. -/
theorem StepsIf.preserves {Inv : σ → Prop} {s s' : σ} (hSteps : machine.StepsIf allowed s s')
    (hStep : ∀ s e s', Inv s → allowed s e → machine.step s e s' → Inv s') (hInv : Inv s) :
    Inv s' := by
  induction hSteps with
  | refl => exact hInv
  | tail _ hLast ih =>
      obtain ⟨e, hAllowed, hTaken⟩ := hLast
      exact hStep _ e _ ih hAllowed hTaken

theorem StepsIf.mono {allowed' : σ → ε → Prop} {s s' : σ} (hSteps : machine.StepsIf allowed s s')
    (hAllowed : ∀ s e, allowed s e → allowed' s e) : machine.StepsIf allowed' s s' := by
  refine Relation.ReflTransGen.mono (fun t t' hStep => ?_) _ _ hSteps
  obtain ⟨e, hTaken, hStep⟩ := hStep
  exact ⟨e, hAllowed t e hTaken, hStep⟩

/-- A run goes on from the state that it has reached. -/
theorem ReachableIf.steps {s s' : σ} (hReachable : machine.ReachableIf allowed s)
    (hSteps : machine.StepsIf allowed s s') : machine.ReachableIf allowed s' :=
  hSteps.preserves (fun _ _ _ hBefore hAllowed hStep => hBefore.step hAllowed hStep) hReachable

/-! ### Runs that end -/

/-- Every run of allowed steps from a state is finite. -/
def Terminates (machine : Machine σ ε) (allowed : σ → ε → Prop) : σ → Prop :=
  Acc fun s' s => ∃ e, allowed s e ∧ machine.step s e s'

/-- No allowed step can be taken. -/
def Stuck (machine : Machine σ ε) (allowed : σ → ε → Prop) (s : σ) : Prop :=
  ∀ e s', allowed s e → ¬ machine.step s e s'

/-- Runs end when each step leaves less to be done. -/
theorem terminates_of_measure {Inv : σ → Prop} (measure : σ → Nat)
    (hStep : ∀ s e s', Inv s → allowed s e → machine.step s e s' →
      Inv s' ∧ measure s' < measure s)
    {s : σ} (hInv : Inv s) : machine.Terminates allowed s := by
  induction hMeasure : measure s using Nat.strong_induction_on generalizing s with
  | h count ih =>
      refine Acc.intro _ fun s' hTaken => ?_
      obtain ⟨e, hAllowed, hTaken⟩ := hTaken
      obtain ⟨hInv', hLess⟩ := hStep s e s' hInv hAllowed hTaken
      exact ih _ (hMeasure ▸ hLess) hInv' rfl

/-- Runs that are finite can be gone on with until no step is left. -/
theorem Terminates.exists_stuck {s : σ} (hTerminates : machine.Terminates allowed s) :
    ∃ s', machine.StepsIf allowed s s' ∧ machine.Stuck allowed s' := by
  induction hTerminates with
  | intro s _ ih =>
      by_cases hStuck : machine.Stuck allowed s
      · exact ⟨s, .refl, hStuck⟩
      · simp only [Stuck, not_forall, not_not] at hStuck
        obtain ⟨e, s₁, hAllowed, hStep⟩ := hStuck
        obtain ⟨s', hSteps, hEnd⟩ := ih s₁ ⟨e, hAllowed, hStep⟩
        exact ⟨s', .head ⟨e, hAllowed, hStep⟩ hSteps, hEnd⟩

theorem Reachable.init {s : σ} (hInit : machine.init s) : machine.Reachable s :=
  ReachableIf.init hInit

theorem Reachable.step {s s' : σ} {e : ε} (hReachable : machine.Reachable s)
    (hStep : machine.step s e s') : machine.Reachable s' :=
  ReachableIf.step hReachable trivial hStep

end Machine

/-- The machine of a partial step function and one start state. -/
def Machine.ofFunction {σ ε : Type} (start : σ) (next : σ → ε → Option σ) : Machine σ ε where
  init s := s = start
  step s e s' := next s e = some s'

/-- The state at the end of a list of labels, which is the start state unless all
of them can be taken. -/
def after {σ ε : Type} (next : σ → ε → Option σ) (start : σ) (es : List ε) : σ :=
  (es.foldlM next start).getD start

theorem Machine.reachable_after {σ ε : Type} (start : σ) (next : σ → ε → Option σ)
    (es : List ε) : (Machine.ofFunction start next).Reachable (after next start es) := by
  have hRun : ∀ es s, (Machine.ofFunction start next).Reachable s →
      ∀ s', List.foldlM next s es = some s' →
        (Machine.ofFunction start next).Reachable s' := by
    intro es
    induction es with
    | nil =>
        intro s hReachable s' hRun
        cases hRun
        exact hReachable
    | cons e es ih =>
        intro s hReachable s' hRun
        rw [List.foldlM_cons] at hRun
        obtain ⟨middle, hStep, hRest⟩ := Option.bind_eq_some_iff.mp hRun
        exact ih middle (hReachable.step hStep) s' hRest
  unfold after
  cases hEnd : List.foldlM next start es with
  | none => exact Machine.Reachable.init rfl
  | some s' => exact hRun es start (Machine.Reachable.init rfl) s' hEnd

/-! ## Two runs -/

section TwoRuns

variable {σ ε : Type} {next : σ → ε → Option σ} {keep : ε → Bool} {Sim : σ → σ → Prop}

/-- The unwinding rule.  A relation that a kept label preserves when both sides take
it, and a dropped one when only the left side does, relates the end of a run to the
end of the run without the dropped labels, which can be taken too. -/
theorem foldlM_filter_sim
    (hKeep : ∀ s t e s', Sim s t → keep e = true → next s e = some s' →
      ∃ t', next t e = some t' ∧ Sim s' t')
    (hDrop : ∀ s t e s', Sim s t → keep e = false → next s e = some s' → Sim s' t)
    {es : List ε} {s t s' : σ} (hSim : Sim s t) (hRun : es.foldlM next s = some s') :
    ∃ t', (es.filter keep).foldlM next t = some t' ∧ Sim s' t' := by
  induction es generalizing s t with
  | nil =>
      cases hRun
      exact ⟨t, rfl, hSim⟩
  | cons e es ih =>
      rw [List.foldlM_cons] at hRun
      obtain ⟨middle, hStep, hRest⟩ := Option.bind_eq_some_iff.mp hRun
      cases hKept : keep e with
      | true =>
          obtain ⟨t₁, hStep', hSim'⟩ := hKeep s t e middle hSim hKept hStep
          obtain ⟨t', hRun', hEnd⟩ := ih hSim' hRest
          refine ⟨t', ?_, hEnd⟩
          rw [List.filter_cons_of_pos hKept, List.foldlM_cons, hStep']
          exact hRun'
      | false =>
          rw [List.filter_cons_of_neg (by simp [hKept])]
          exact ih (hDrop s t e middle hSim hKept hStep) hRest

end TwoRuns

end Transition
