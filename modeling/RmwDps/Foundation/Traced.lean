import Mathlib

/-!
# Computations with a record

A computation that writes down events while it computes, as a `Writer` of a list: its
value, its record, and what holds of all events of the record.  Sequencing asks the
second computation on the value of the first, so a property of the records of a loop is
one of its rounds, each on the state that the rounds before it have left.
-/

/-- A computation with the list of the events it has recorded. -/
abbrev Traced (ε α : Type) := Writer (List ε) α

namespace Traced

variable {ε α β : Type} {P : ε → Prop}

def value (m : Traced ε α) : α := (Id.run m.run).1

def trace (m : Traced ε α) : List ε := (Id.run m.run).2

/-- Record an event. -/
def emit (event : ε) : Traced ε Unit := tell [event]

/-- All events of the record have the property. -/
def All (P : ε → Prop) (m : Traced ε α) : Prop := ∀ event ∈ m.trace, P event

instance [DecidablePred P] (m : Traced ε α) : Decidable (All P m) :=
  inferInstanceAs (Decidable (∀ event ∈ m.trace, P event))

/-! ## Sequencing -/

@[simp] theorem value_pure (a : α) : value (pure a : Traced ε α) = a := rfl

@[simp] theorem value_bind (m : Traced ε α) (f : α → Traced ε β) :
    value (m >>= f) = value (f (value m)) := rfl

theorem trace_bind (m : Traced ε α) (f : α → Traced ε β) :
    trace (m >>= f) = trace m ++ trace (f (value m)) := rfl

@[simp] theorem all_pure (a : α) : All P (pure a : Traced ε α) ↔ True :=
  iff_true_intro fun _ hEvent => absurd hEvent List.not_mem_nil

@[simp] theorem all_emit {event : ε} : All P (emit event) ↔ P event :=
  List.forall_mem_singleton

@[simp] theorem all_bind {m : Traced ε α} {f : α → Traced ε β} :
    All P (m >>= f) ↔ All P m ∧ All P (f (value m)) := by
  rw [All, trace_bind, List.forall_mem_append]
  rfl

/-! ## Lists -/

@[simp] theorem value_mapM' (f : α → Traced ε β) (l : List α) :
    value (l.mapM' f) = l.map fun a => value (f a) := by
  induction l with
  | nil => rfl
  | cons a l ih => simp [List.mapM', ih]

/-- Every element is visited. -/
@[simp] theorem all_mapM' {f : α → Traced ε β} {l : List α} :
    All P (l.mapM' f) ↔ ∀ a ∈ l, All P (f a) := by
  induction l with
  | nil => simp [List.mapM']
  | cons a l ih => simp [List.mapM', ih]

variable {σ : Type} {f : σ → α → Traced ε σ}

@[simp] theorem value_foldlM (s : σ) (l : List α) :
    value (l.foldlM f s) = l.foldl (fun s a => value (f s a)) s := by
  induction l generalizing s with
  | nil => rfl
  | cons a l ih => simp [ih]

/-- The rounds of a loop, each on the state that the ones before it have left. -/
theorem all_foldlM {s : σ} {l : List α} :
    All P (l.foldlM f s) ↔ ∀ before a after, l = before ++ a :: after →
      All P (f (before.foldl (fun s a => value (f s a)) s) a) := by
  induction l generalizing s with
  | nil => simp
  | cons a l ih =>
      rw [List.foldlM_cons, all_bind, ih]
      constructor
      · rintro ⟨hFirst, hRest⟩ before b after hSplit
        cases before with
        | nil =>
            obtain ⟨rfl, -⟩ := List.cons.inj hSplit
            exact hFirst
        | cons c before =>
            obtain ⟨rfl, hTail⟩ := List.cons.inj hSplit
            exact hRest before b after hTail
      · intro hAll
        refine ⟨hAll [] a l rfl, fun before b after hSplit => ?_⟩
        exact hAll (a :: before) b after (by rw [hSplit, List.cons_append])

/-- Where the state does not matter, a loop is a visit of the elements. -/
theorem all_foldlM_of_forall {s : σ} {l : List α} {Q : α → Prop}
    (hRound : ∀ s, ∀ a ∈ l, (All P (f s a) ↔ Q a)) :
    All P (l.foldlM f s) ↔ ∀ a ∈ l, Q a := by
  rw [all_foldlM]
  constructor
  · intro hAll a hMem
    obtain ⟨before, after, rfl⟩ := List.append_of_mem hMem
    exact (hRound _ a hMem).mp (hAll before a after rfl)
  · rintro hAll before a after rfl
    exact (hRound _ a (by simp)).mpr (hAll a (by simp))

end Traced
