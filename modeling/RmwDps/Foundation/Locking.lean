import RmwDps.Foundation.Transition

/-!
# Threads and mutexes

Any number of threads run operations of a system.  An operation is a list of
instructions: to lock a mutex, to unlock it, or to act on the state that the threads
share.  An action may put further instructions in front of those to come, which is how
branches and loops are written.

A system that locks its mutexes in the order of a rank never gets into a circle of
threads each of which waits for a mutex that the next one owns.  The rank is checked on
the code of the operations: `Ordered` goes through it with the mutexes held so far.
-/

namespace Locking

open Transition (Machine)

/-! ## Systems -/

inductive Instruction (Mutex α : Type)
  | lock (m : Mutex)
  | unlock (m : Mutex)
  | act (a : α)
  deriving DecidableEq, Repr

abbrev Code (Mutex α : Type) := List (Instruction Mutex α)

/-- `effect shared a shared' front` says that action `a` can change the shared state in
this way and continue with `front`. -/
structure System (Mutex σ α Op : Type) where
  code : Op → Code Mutex α
  effect : σ → α → σ → Code Mutex α → Prop

/-- The shared state, the owners of the mutexes, and what each thread still has to do;
a thread with nothing to do is idle. -/
structure State (Thread Mutex σ α : Type) where
  shared : σ
  owner : Mutex → Option Thread
  code : Thread → Code Mutex α

section Machine

variable {Thread Mutex σ α Op : Type} [DecidableEq Thread] [DecidableEq Mutex]

/-- A step of one thread. -/
inductive Step (system : System Mutex σ α Op) (s : State Thread Mutex σ α) (t : Thread) :
    State Thread Mutex σ α → Prop
  | begin (op : Op) (hIdle : s.code t = []) :
      Step system s t { s with code := Function.update s.code t (system.code op) }
  | lock {m : Mutex} {rest : Code Mutex α} (hCode : s.code t = .lock m :: rest)
      (hFree : s.owner m = none) :
      Step system s t
        { s with
          owner := Function.update s.owner m (some t)
          code := Function.update s.code t rest }
  | unlock {m : Mutex} {rest : Code Mutex α} (hCode : s.code t = .unlock m :: rest) :
      Step system s t
        { s with
          owner := Function.update s.owner m none
          code := Function.update s.code t rest }
  | act {a : α} {shared : σ} {front rest : Code Mutex α} (hCode : s.code t = .act a :: rest)
      (hEffect : system.effect s.shared a shared front) :
      Step system s t { s with shared, code := Function.update s.code t (front ++ rest) }

/-- All threads idle and all mutexes free. -/
def System.machine (system : System Mutex σ α Op) (start : σ → Prop) :
    Machine (State Thread Mutex σ α) Thread where
  init s := start s.shared ∧ (∀ m, s.owner m = none) ∧ ∀ t, s.code t = []
  step s t s' := Step system s t s'

end Machine

/-! ## Who waits for whom -/

section WaitsFor

variable {Thread Mutex σ α : Type}

/-- A thread waits for the mutex that it is about to lock, and a mutex for the thread
that owns it. -/
inductive WaitsFor (s : State Thread Mutex σ α) : Thread ⊕ Mutex → Thread ⊕ Mutex → Prop
  | requests {t : Thread} {m : Mutex} {rest : Code Mutex α} (hCode : s.code t = .lock m :: rest) :
      WaitsFor s (.inl t) (.inr m)
  | ownedBy {t : Thread} {m : Mutex} (hOwner : s.owner m = some t) :
      WaitsFor s (.inr m) (.inl t)

/-- The thread is about to lock a mutex that somebody owns. -/
def State.Blocked (s : State Thread Mutex σ α) (t : Thread) : Prop :=
  ∃ m rest u, s.code t = .lock m :: rest ∧ s.owner m = some u

/-- Whatever a thread owns when it is about to lock a mutex ranks below that mutex. -/
def State.RespectsRank {β : Type} [Preorder β] (rank : Mutex → β)
    (s : State Thread Mutex σ α) : Prop :=
  ∀ t m rest, s.code t = .lock m :: rest → ∀ m', s.owner m' = some t → rank m' < rank m

variable {β : Type} [Preorder β] {rank : Mutex → β} {s : State Thread Mutex σ α}

/-- Along a chain that starts at a mutex the rank grows. -/
theorem State.RespectsRank.lt_of_waitsFor (hRank : s.RespectsRank rank) {m : Mutex}
    {x : Thread ⊕ Mutex} (hChain : Relation.TransGen (WaitsFor s) (.inr m) x) :
    (∀ m', x = .inr m' → rank m < rank m') ∧
      ∀ t m' rest, x = .inl t → s.code t = .lock m' :: rest → rank m < rank m' := by
  induction hChain with
  | single hEdge =>
      cases hEdge with
      | ownedBy hOwner =>
          refine ⟨nofun, ?_⟩
          rintro t m' rest ⟨⟩ hCode
          exact hRank _ m' rest hCode m hOwner
  | tail _ hEdge ih =>
      cases hEdge with
      | requests hCode =>
          refine ⟨?_, nofun⟩
          rintro m' ⟨⟩
          exact ih.2 _ _ _ rfl hCode
      | @ownedBy u m₁ hOwner =>
          refine ⟨nofun, ?_⟩
          rintro t m' rest ⟨⟩ hCode
          exact (ih.1 m₁ rfl).trans (hRank _ m' rest hCode m₁ hOwner)

/-- There is no circle. -/
theorem State.RespectsRank.acyclic (hRank : s.RespectsRank rank) (x : Thread ⊕ Mutex) :
    ¬ Relation.TransGen (WaitsFor s) x x := by
  have hMutex : ∀ m, ¬ Relation.TransGen (WaitsFor s) (.inr m) (.inr m) := fun m hCycle =>
    lt_irrefl _ ((hRank.lt_of_waitsFor hCycle).1 m rfl)
  intro hCycle
  cases x with
  | inr m => exact hMutex m hCycle
  | inl t =>
      -- The circle passes the mutex that the thread requests.
      obtain ⟨y, hFirst, hRest⟩ := Relation.TransGen.head'_iff.mp hCycle
      cases hFirst with
      | @requests _ m _ hCode =>
          exact hMutex m (Relation.TransGen.tail' hRest (.requests hCode))

end WaitsFor

/-! ## Code that follows the rank -/

section Discipline

variable {Thread Mutex σ α Op β : Type} [DecidableEq Thread] [DecidableEq Mutex] [Preorder β]

/-- Code that starts with some mutexes held, locks only above all that it holds,
unlocks only what it holds, acts only where the action is allowed, and ends with
nothing held. -/
def Ordered (rank : Mutex → β) (allowed : α → List Mutex → Prop) :
    List Mutex → Code Mutex α → Prop
  | held, [] => held = []
  | held, .lock m :: rest => (∀ m' ∈ held, rank m' < rank m) ∧ Ordered rank allowed (m :: held) rest
  | held, .unlock m :: rest => m ∈ held ∧ Ordered rank allowed (held.erase m) rest
  | held, .act a :: rest => allowed a held ∧ Ordered rank allowed held rest

/-- Every operation is ordered, and so is what an allowed action puts in front of
ordered code. -/
structure System.Disciplined (system : System Mutex σ α Op) (rank : Mutex → β)
    (allowed : α → List Mutex → Prop) : Prop where
  code : ∀ op, Ordered rank allowed [] (system.code op)
  effect : ∀ {held : List Mutex} {shared shared' : σ} {a : α} {front rest : Code Mutex α},
    allowed a held → system.effect shared a shared' front → Ordered rank allowed held rest →
      Ordered rank allowed held (front ++ rest)

/-- A thread owns the mutexes in a list, and its code is ordered with them held. -/
structure State.Follows (rank : Mutex → β) (allowed : α → List Mutex → Prop)
    (s : State Thread Mutex σ α) (t : Thread) (held : List Mutex) : Prop where
  owner : ∀ m, s.owner m = some t ↔ m ∈ held
  nodup : held.Nodup
  ordered : Ordered rank allowed held (s.code t)

variable {system : System Mutex σ α Op} {rank : Mutex → β} {allowed : α → List Mutex → Prop}
  {s s' : State Thread Mutex σ α} {t : Thread}

omit [DecidableEq Thread] in
/-- A thread that does not move follows its list as long as the mutexes of the list stay
with it and no other comes to it. -/
theorem State.Follows.frame {u : Thread} {held : List Mutex}
    (hFollows : s.Follows rank allowed u held) (hCode : s'.code u = s.code u)
    (hOwner : ∀ m, s'.owner m = some u ↔ s.owner m = some u) :
    s'.Follows rank allowed u held where
  owner m := (hOwner m).trans (hFollows.owner m)
  nodup := hFollows.nodup
  ordered := by
    rw [hCode]
    exact hFollows.ordered

theorem Step.follows (hSystem : system.Disciplined rank allowed) (hStep : Step system s t s')
    (hFollows : ∀ u, ∃ held, s.Follows rank allowed u held) (u : Thread) :
    ∃ held, s'.Follows rank allowed u held := by
  obtain ⟨heldT, hT⟩ := hFollows t
  obtain ⟨heldU, hU⟩ := hFollows u
  have hOrdered := hT.ordered
  cases hStep with
  | begin op hIdle =>
      by_cases hSelf : u = t
      · subst hSelf
        rw [hIdle] at hOrdered
        refine ⟨heldT, hT.owner, hT.nodup, ?_⟩
        -- A thread that runs out of code holds nothing, and starts anew.
        have hNone : heldT = [] := hOrdered
        simpa [hNone] using hSystem.code op
      · exact ⟨heldU, hU.frame (Function.update_of_ne hSelf _ _) fun _ => Iff.rfl⟩
  | @lock m rest hCode hFree =>
      rw [hCode] at hOrdered
      by_cases hSelf : u = t
      · subst hSelf
        -- The mutex is free, so the thread did not hold it before.
        have hFresh : m ∉ heldT := by
          rw [← hT.owner, hFree]
          exact nofun
        refine ⟨m :: heldT, fun m' => ?_, List.nodup_cons.mpr ⟨hFresh, hT.nodup⟩, ?_⟩
        · by_cases hMutex : m' = m
          · subst hMutex
            simp
          · simpa [hMutex] using hT.owner m'
        · simpa using hOrdered.2
      · refine ⟨heldU, hU.frame (Function.update_of_ne hSelf _ _) fun m' => ?_⟩
        by_cases hMutex : m' = m
        · subst hMutex
          simp [hFree, Ne.symm hSelf]
        · simp [hMutex]
  | @unlock m rest hCode =>
      rw [hCode] at hOrdered
      -- Ordered code unlocks only what the thread holds.
      have hOwned : s.owner m = some t := (hT.owner m).mpr hOrdered.1
      by_cases hSelf : u = t
      · subst hSelf
        refine ⟨heldT.erase m, fun m' => ?_, hT.nodup.erase m, ?_⟩
        · by_cases hMutex : m' = m
          · subst hMutex
            simpa using hT.nodup.not_mem_erase
          · rw [List.mem_erase_of_ne hMutex]
            simpa [hMutex] using hT.owner m'
        · simpa using hOrdered.2
      · refine ⟨heldU, hU.frame (Function.update_of_ne hSelf _ _) fun m' => ?_⟩
        by_cases hMutex : m' = m
        · subst hMutex
          simp [hOwned, Ne.symm hSelf]
        · simp [hMutex]
  | act hCode hEffect =>
      rw [hCode] at hOrdered
      by_cases hSelf : u = t
      · subst hSelf
        refine ⟨heldT, hT.owner, hT.nodup, ?_⟩
        simpa using hSystem.effect hOrdered.1 hEffect hOrdered.2
      · exact ⟨heldU, hU.frame (Function.update_of_ne hSelf _ _) fun _ => Iff.rfl⟩

theorem System.Disciplined.follows (hSystem : system.Disciplined rank allowed) {start : σ → Prop}
    (hReachable : (system.machine start).Reachable s) (t : Thread) :
    ∃ held, s.Follows rank allowed t held := by
  refine hReachable.invariant ?_
    (fun _ _ _ hFollows hStep => Step.follows hSystem hStep hFollows) t
  rintro s ⟨-, hFree, hIdle⟩ t
  refine ⟨[], fun m => by simp [hFree], List.nodup_nil, ?_⟩
  rw [hIdle]
  rfl

/-- Disciplined systems respect the rank in every reachable state. -/
theorem System.Disciplined.respectsRank (hSystem : system.Disciplined rank allowed)
    {start : σ → Prop} (hReachable : (system.machine start).Reachable s) :
    s.RespectsRank rank := by
  intro t m rest hCode m' hOwner
  obtain ⟨held, hFollows⟩ := hSystem.follows hReachable t
  have hOrdered := hFollows.ordered
  rw [hCode] at hOrdered
  exact hOrdered.1 m' ((hFollows.owner m').mp hOwner)

/-- A thread that has work left and is not blocked can move, if every action can be
taken. -/
theorem State.exists_step
    (hEnabled : ∀ shared a, ∃ shared' front, system.effect shared a shared' front)
    (hFree : ¬ s.Blocked t) (hBusy : s.code t ≠ []) : ∃ s', Step system s t s' := by
  cases hCode : s.code t with
  | nil => exact absurd hCode hBusy
  | cons instruction rest =>
      cases instruction with
      | lock m =>
          cases hOwner : s.owner m with
          | none => exact ⟨_, .lock hCode hOwner⟩
          | some u => exact absurd ⟨m, rest, u, hCode, hOwner⟩ hFree
      | unlock m => exact ⟨_, .unlock hCode⟩
      | act a =>
          obtain ⟨shared', front, hEffect⟩ := hEnabled s.shared a
          exact ⟨_, .act hCode hEffect⟩

/-- Whoever waits waits for a thread that does not, and that has work left. -/
theorem System.Disciplined.exists_running [WellFoundedGT β]
    (hSystem : system.Disciplined rank allowed) {start : σ → Prop}
    (hReachable : (system.machine start).Reachable s) (hBlocked : s.Blocked t) :
    ∃ u, Relation.TransGen (WaitsFor s) (.inl t) (.inl u) ∧ ¬ s.Blocked u ∧ s.code u ≠ [] := by
  obtain ⟨m, rest, u, hCode, hOwner⟩ := hBlocked
  -- The chain of owners can only go up in rank.
  induction hRank : rank m using WellFoundedGT.induction generalizing t m rest u with
  | ind r ih =>
      have hEdges : Relation.TransGen (WaitsFor s) (.inl t) (.inl u) :=
        .tail (.single (.requests hCode)) (.ownedBy hOwner)
      by_cases hNext : s.Blocked u
      · obtain ⟨m', rest', u', hCode', hOwner'⟩ := hNext
        have hLess : rank m < rank m' :=
          hSystem.respectsRank hReachable u m' rest' hCode' m hOwner
        obtain ⟨v, hChain, hFree, hBusy⟩ :=
          ih (rank m') (hRank ▸ hLess) m' rest' u' hCode' hOwner' rfl
        exact ⟨v, hEdges.trans hChain, hFree, hBusy⟩
      · refine ⟨u, hEdges, hNext, fun hIdle => ?_⟩
        obtain ⟨held, hFollows⟩ := hSystem.follows hReachable u
        have hOrdered := hFollows.ordered
        rw [hIdle] at hOrdered
        have hNone : held = [] := hOrdered
        -- An owner with no code left would hold nothing.
        have hHeld := (hFollows.owner m).mp hOwner
        rw [hNone] at hHeld
        cases hHeld

end Discipline

end Locking
