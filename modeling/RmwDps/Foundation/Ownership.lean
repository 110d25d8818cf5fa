import Mathlib

/-!
# Ownership

Programs that acquire and release blocks, and a logic for what they own.  A block is given
back the way it was got: its kind says how.  A release of a block that is not held, which
a second release of the same block is, counts as bad.

A triple is about the blocks that a program starts with and those that it ends with.  It
says nothing about the other blocks of the heap, and so holds whatever these are.
-/

namespace Ownership

/-- Something that has to be given back.  No two blocks of a run have the same address. -/
structure Block (κ : Type) where
  kind : κ
  address : Nat
  deriving DecidableEq, Repr

structure Heap (κ : Type) where
  next : Nat
  held : Multiset (Block κ)
  badReleases : Nat

abbrev Program (κ α : Type) := StateM (Heap κ) α

section Programs

variable {κ : Type} [DecidableEq κ]

def Heap.empty : Heap κ := { next := 0, held := 0, badReleases := 0 }

omit [DecidableEq κ] in
/-- The blocks held are different ones, and older than the next block. -/
structure Heap.Valid (heap : Heap κ) : Prop where
  nodup : heap.held.Nodup
  older : ∀ block ∈ heap.held, block.address < heap.next

omit [DecidableEq κ] in
theorem Heap.empty_valid : (Heap.empty : Heap κ).Valid :=
  ⟨Multiset.nodup_zero, fun _ hBlock => absurd hBlock (Multiset.notMem_zero _)⟩

def acquire (kind : κ) : Program κ (Block κ) := fun heap =>
  let block : Block κ := { kind, address := heap.next }
  (block, { heap with next := heap.next + 1, held := block ::ₘ heap.held })

/-- An acquisition that may fail. -/
def tryAcquire (succeeds : Bool) (kind : κ) : Program κ (Option (Block κ)) :=
  if succeeds then some <$> acquire kind else pure none

def release (block : Block κ) : Program κ Unit := fun heap =>
  if block ∈ heap.held then ((), { heap with held := heap.held.erase block })
  else ((), { heap with badReleases := heap.badReleases + 1 })

/-- A step through a pointer that has never been written.  What it does is not defined, and
it counts as a bad release. -/
def misuse : Program κ Unit := fun heap =>
  ((), { heap with badReleases := heap.badReleases + 1 })

def releaseAll : List (Block κ) → Program κ Unit
  | [] => pure ()
  | block :: blocks => do
      release block
      releaseAll blocks

/-- A release behind a test for null. -/
def releaseIfAny : Option (Block κ) → Program κ Unit
  | some block => release block
  | none => pure ()

end Programs

/-- The block behind a pointer that may be null. -/
def owned {κ : Type} : Option (Block κ) → Multiset (Block κ)
  | some block => {block}
  | none => 0

@[simp] theorem owned_none {κ : Type} : owned (none : Option (Block κ)) = 0 := rfl

@[simp] theorem owned_some {κ : Type} (block : Block κ) : owned (some block) = {block} := rfl

section Logic

variable {κ α β : Type} {before : Multiset (Block κ)} {program : Program κ α}
  {after : α → Multiset (Block κ) → Prop}

/-- A program that starts with some blocks ends with some, leaves all others alone, and
releases nothing that it does not own. -/
def Triple (before : Multiset (Block κ)) (program : Program κ α)
    (after : α → Multiset (Block κ) → Prop) : Prop :=
  ∀ (frame : Multiset (Block κ)) (heap : Heap κ), heap.Valid → heap.held = before + frame →
    ∃ left, after (program heap).1 left ∧ (program heap).2.held = left + frame ∧
      (program heap).2.Valid ∧ (program heap).2.badReleases = heap.badReleases

namespace Triple

theorem pure {a : α} (hAfter : after a before) : Triple before (pure a) after :=
  fun _ _ hValid hHeld => ⟨before, hAfter, hHeld, hValid, rfl⟩

theorem bind {middle : α → Multiset (Block κ) → Prop} {next : α → Program κ β}
    {after : β → Multiset (Block κ) → Prop} (hFirst : Triple before program middle)
    (hNext : ∀ a left, middle a left → Triple left (next a) after) :
    Triple before (program >>= next) after := by
  intro frame heap hValid hHeld
  obtain ⟨left, hMiddle, hLeft, hValid', hGood⟩ := hFirst frame heap hValid hHeld
  obtain ⟨left', hAfter, hLeft', hValid'', hGood'⟩ := hNext _ _ hMiddle frame _ hValid' hLeft
  exact ⟨left', hAfter, hLeft', hValid'', hGood'.trans hGood⟩

theorem mono {after' : α → Multiset (Block κ) → Prop} (hTriple : Triple before program after)
    (hAfter : ∀ a left, after a left → after' a left) : Triple before program after' := by
  intro frame heap hValid hHeld
  obtain ⟨left, hLeft, hRest⟩ := hTriple frame heap hValid hHeld
  exact ⟨left, hAfter _ _ hLeft, hRest⟩

/-- What a program owns besides what it needs, it still owns at the end. -/
theorem frame (hTriple : Triple before program after) (others : Multiset (Block κ)) :
    Triple (before + others) program fun a left => ∃ rest, after a rest ∧ left = rest + others := by
  intro frame heap hValid hHeld
  obtain ⟨left, hAfter, hLeft, hRest⟩ :=
    hTriple (others + frame) heap hValid (by rw [hHeld, add_assoc])
  exact ⟨left + others, ⟨left, hAfter, rfl⟩, by rw [hLeft, add_assoc], hRest⟩

/-- A program that needs nothing adds what it gets to what is owned. -/
theorem adds (hTriple : Triple 0 program after) (others : Multiset (Block κ)) :
    Triple others program fun a left => ∃ got, after a got ∧ left = got + others := by
  simpa using hTriple.frame others

/-- A program that looks at the heap to decide how it goes on. -/
theorem ofHeap {ζ : Type} {programs : ζ → Program κ α} (choose : Heap κ → ζ)
    (hAll : ∀ z, Triple before (programs z) after) :
    Triple before (fun heap => programs (choose heap) heap) after :=
  fun frame heap hValid hHeld => hAll (choose heap) frame heap hValid hHeld

theorem acquire (kind : κ) :
    Triple before (acquire kind) fun block left => block.kind = kind ∧ left = {block} + before := by
  intro frame heap hValid hHeld
  have hFresh : ∀ block ∈ heap.held, block.address ≠ heap.next :=
    fun block hBlock => (hValid.older block hBlock).ne
  refine ⟨_, ⟨rfl, rfl⟩, ?_, ⟨?_, ?_⟩, rfl⟩
  · simp [Ownership.acquire, hHeld, Multiset.cons_add]
  · refine Multiset.nodup_cons.mpr ⟨fun hHeld => hFresh _ hHeld rfl, hValid.nodup⟩
  · intro block hBlock
    rcases Multiset.mem_cons.mp hBlock with rfl | hOld
    · exact Nat.lt_succ_self _
    · exact (hValid.older block hOld).trans (Nat.lt_succ_self _)

theorem tryAcquire (succeeds : Bool) (kind : κ) :
    Triple before (tryAcquire succeeds kind) fun pointer left =>
      left = owned pointer + before ∧ pointer.isSome = succeeds ∧
        ∀ block ∈ owned pointer, block.kind = kind := by
  cases succeeds with
  | false => exact pure ⟨by simp [owned], rfl, by simp [owned]⟩
  | true =>
      refine bind (acquire kind) fun block left hBlock => pure ⟨?_, rfl, ?_⟩
      · rw [hBlock.2, owned]
      · simpa [owned] using hBlock.1

end Triple

/-- A program gives a part of what it owns back. -/
def GivesBack (part : Multiset (Block κ)) (program : Program κ Unit) : Prop :=
  ∀ others, Triple (part + others) program fun _ left => left = others

namespace GivesBack

variable {part part' others : Multiset (Block κ)} {first second : Program κ Unit}

theorem pure : GivesBack (0 : Multiset (Block κ)) (pure ()) :=
  fun _ => Triple.pure (zero_add _)

/-- What follows owns the rest. -/
theorem andThen {next : Program κ β} {after : β → Multiset (Block κ) → Prop}
    (hFirst : GivesBack part first) (hNext : Triple others next after) :
    Triple (part + others) (first >>= fun _ => next) after :=
  (hFirst others).bind fun _ _ hLeft => hLeft ▸ hNext

/-- What is owned besides nothing is given back. -/
theorem all {program : Program κ Unit} (hProgram : GivesBack part program) :
    Triple part program fun _ left => left = 0 := by
  simpa using hProgram 0

theorem bind (hFirst : GivesBack part first) (hSecond : GivesBack part' second) :
    GivesBack (part + part') (first >>= fun _ => second) := by
  intro others
  rw [add_assoc]
  exact hFirst.andThen (hSecond others)

variable [DecidableEq κ]

theorem release (block : Block κ) : GivesBack {block} (release block) := by
  intro others frame heap hValid hHeld
  have hMem : block ∈ heap.held := by simp [hHeld]
  refine ⟨others, rfl, ?_⟩
  rw [Ownership.release, if_pos hMem]
  refine ⟨?_, ⟨hValid.nodup.erase _, fun other hOther => ?_⟩, rfl⟩
  · rw [hHeld, add_assoc]
    exact Multiset.erase_cons_head _ _
  · exact hValid.older other (Multiset.mem_of_mem_erase hOther)

theorem releaseAll (blocks : List (Block κ)) :
    GivesBack (blocks : Multiset (Block κ)) (releaseAll blocks) := by
  induction blocks with
  | nil => exact pure
  | cons block blocks ih => exact (release block).bind ih

theorem releaseIfAny (pointer : Option (Block κ)) :
    GivesBack (owned pointer) (releaseIfAny pointer) := by
  cases pointer with
  | none => exact pure
  | some block => exact release block

end GivesBack

/-! ### Programs that go wrong -/

/-- No bad release is taken back. -/
def Counts (program : Program κ α) : Prop :=
  ∀ heap, heap.badReleases ≤ (program heap).2.badReleases

/-- A program does something wrong, whatever it starts with. -/
def Misuses (program : Program κ α) : Prop :=
  ∀ heap, heap.badReleases < (program heap).2.badReleases

namespace Counts

theorem pure (a : α) : Counts (pure a : Program κ α) := fun _ => le_rfl

theorem bind {next : α → Program κ β} (hFirst : Counts program) (hNext : ∀ a, Counts (next a)) :
    Counts (program >>= next) :=
  fun heap => (hFirst heap).trans (hNext _ _)

theorem bind_misuses {next : α → Program κ β} (hFirst : Counts program)
    (hNext : ∀ a, Misuses (next a)) : Misuses (program >>= next) :=
  fun heap => (hFirst heap).trans_lt (hNext _ _)

theorem acquire (kind : κ) : Counts (acquire kind) := fun _ => le_rfl

variable [DecidableEq κ]

theorem release (block : Block κ) : Counts (release block) := by
  intro heap
  unfold Ownership.release
  split_ifs
  · exact le_rfl
  · exact Nat.le_succ _

end Counts

namespace Misuses

theorem misuse : Misuses (misuse : Program κ Unit) := fun _ => Nat.lt_succ_self _

theorem bind {next : α → Program κ β} (hFirst : Misuses program) (hNext : ∀ a, Counts (next a)) :
    Misuses (program >>= next) :=
  fun heap => (hFirst heap).trans_le (hNext _ _)

theorem counts (hMisuses : Misuses program) : Counts program := fun heap => (hMisuses heap).le

end Misuses

theorem tryAcquire_false_bind (kind : κ) (next : Option (Block κ) → Program κ β) :
    tryAcquire false kind >>= next = next none :=
  rfl

theorem tryAcquire_true_bind (kind : κ) (next : Option (Block κ) → Program κ β) :
    tryAcquire true kind >>= next = acquire kind >>= fun block => next (some block) :=
  bind_map_left some (acquire kind) next

end Logic

end Ownership
