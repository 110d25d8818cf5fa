import Mathlib

/-!
# Replicated registers

Every writer has a register, and every reader a copy of each of them.  A write sends the
new version to all readers.  The network between a writer and a reader keeps the order of
the versions; it may repeat the latest one, and it may lose a version that another one
follows.

What a reader has is always a version that was written, it never gets an older one, and
when nothing is on its way to a reader any more it has the latest.
-/

namespace Replication

/-! ## Links -/

/-- The way from a writer to a reader: the version that the reader has, zero for none, and
the versions that are on their way, in order. -/
structure Link where
  seen : Nat
  inFlight : List Nat
  deriving DecidableEq, Repr

namespace Link

def empty : Link := { seen := 0, inFlight := [] }

def send (link : Link) (version : Nat) : Link :=
  { link with inFlight := link.inFlight ++ [version] }

/-- The reader gets the first version on the way. -/
def receive (link : Link) : Link :=
  { seen := link.inFlight.headD link.seen, inFlight := link.inFlight.tail }

/-- The version at a position on the way gets lost. -/
def lose (link : Link) (position : Nat) : Link :=
  { link with inFlight := link.inFlight.eraseIdx position }

/-- The versions of a link are in order, and the last of them is the latest. -/
structure Current (link : Link) (latest : Nat) : Prop where
  sorted : (link.seen :: link.inFlight).Pairwise (· ≤ ·)
  last : (link.seen :: link.inFlight).getLast? = some latest
  written : ∀ version ∈ link.inFlight, 0 < version

variable {link : Link} {latest : Nat}

theorem current_empty : empty.Current 0 where
  sorted := by simp [empty]
  last := rfl
  written := by simp [empty]

namespace Current

theorem le_latest (hCurrent : link.Current latest) :
    ∀ version ∈ link.seen :: link.inFlight, version ≤ latest := by
  obtain ⟨front, hAll⟩ := List.getLast?_eq_some_iff.mp hCurrent.last
  have hSorted := hCurrent.sorted
  rw [hAll, List.pairwise_append] at hSorted
  rw [hAll]
  intro version hVersion
  rcases List.mem_append.mp hVersion with hFront | hLast
  · exact hSorted.2.2 version hFront latest List.mem_cons_self
  · exact (List.mem_singleton.mp hLast).le

theorem seen_le (hCurrent : link.Current latest) : link.seen ≤ latest :=
  hCurrent.le_latest _ List.mem_cons_self

/-- A reader has the latest version when nothing is on its way. -/
theorem seen_eq (hCurrent : link.Current latest) (hSettled : link.inFlight = []) :
    link.seen = latest := by
  have hLast := hCurrent.last
  rw [hSettled] at hLast
  exact Option.some.inj hLast

/-- A version that is not older than the latest becomes the latest. -/
theorem send (hCurrent : link.Current latest) {version : Nat} (hLater : latest ≤ version)
    (hWritten : 0 < version) : (link.send version).Current version where
  sorted := by
    rw [Link.send, ← List.cons_append, List.pairwise_append]
    refine ⟨hCurrent.sorted, List.pairwise_singleton _ _, ?_⟩
    intro earlier hEarlier last hLast
    rw [List.mem_singleton.mp hLast]
    exact (hCurrent.le_latest earlier hEarlier).trans hLater
  last := by rw [Link.send, ← List.cons_append, List.getLast?_concat]
  written := by
    intro other hOther
    rcases List.mem_append.mp hOther with hBefore | hLast
    · exact hCurrent.written other hBefore
    · rwa [List.mem_singleton.mp hLast]

theorem receive (hCurrent : link.Current latest) : link.receive.Current latest := by
  obtain ⟨seen, inFlight⟩ := link
  cases inFlight with
  | nil => exact hCurrent
  | cons version rest =>
      refine ⟨hCurrent.sorted.of_cons, ?_, ?_⟩
      · have hLast := hCurrent.last
        rwa [List.getLast?_cons_cons] at hLast
      · exact fun later hLater => hCurrent.written later (List.mem_cons_of_mem _ hLater)

/-- What the reader gets is not older than what it has. -/
theorem seen_le_receive (hCurrent : link.Current latest) : link.seen ≤ link.receive.seen := by
  obtain ⟨seen, inFlight⟩ := link
  cases inFlight with
  | nil => exact le_rfl
  | cons version rest => exact (List.pairwise_cons.mp hCurrent.sorted).1 version List.mem_cons_self

/-- A version that another one follows may get lost. -/
theorem lose (hCurrent : link.Current latest) {position : Nat}
    (hFollowed : position + 1 < link.inFlight.length) : (link.lose position).Current latest where
  sorted := hCurrent.sorted.sublist ((List.eraseIdx_sublist _ _).cons_cons _)
  last := by
    have hLast := hCurrent.last
    rw [List.getLast?_cons] at hLast
    cases hEnd : link.inFlight.getLast? with
    | none =>
        rw [List.getLast?_eq_none_iff.mp hEnd] at hFollowed
        simp at hFollowed
    | some last =>
        rw [hEnd, Option.getD_some, Option.some_inj] at hLast
        obtain ⟨front, hAll⟩ := List.getLast?_eq_some_iff.mp hEnd
        -- The position is in front of the last version.
        have hFront : position < front.length := by
          rw [hAll, List.length_append, List.length_singleton] at hFollowed
          omega
        rw [Link.lose, hAll, List.eraseIdx_append_of_lt_length hFront, ← List.cons_append,
          List.getLast?_concat, hLast]
  written := fun version hVersion => hCurrent.written version (List.mem_of_mem_eraseIdx hVersion)

end Current

end Link

/-! ## Registers -/

/-- The versions of each register, in the order in which they were written, and the links
from the writers to the readers. -/
structure Registers (ι κ α : Type) where
  history : ι → List α
  links : ι → κ → Link

/-- What writers and the network do. -/
inductive Action (ι κ α : Type)
  | write (i : ι) (a : α)
  | deliver (i : ι) (k : κ)
  | resend (i : ι) (k : κ)
  | lose (i : ι) (k : κ) (position : Nat)

/-- A version of a history; versions are counted from one. -/
def versionOf {α : Type} (history : List α) : Nat → Option α
  | 0 => none
  | version + 1 => history[version]?

namespace Registers

variable {ι κ α : Type} [DecidableEq ι] [DecidableEq κ]

def empty : Registers ι κ α where
  history := fun _ => []
  links := fun _ _ => Link.empty

/-- The number of the latest version. -/
def latest (r : Registers ι κ α) (i : ι) : Nat := (r.history i).length

/-- What a reader has of a register. -/
def view (r : Registers ι κ α) (i : ι) (k : κ) : Option α :=
  versionOf (r.history i) (r.links i k).seen

/-- The version that a reader gets next. -/
def next (r : Registers ι κ α) (i : ι) (k : κ) : Option α :=
  (r.links i k).inFlight.head?.bind (versionOf (r.history i))

/-- Nothing is on its way to the reader. -/
def Settled (r : Registers ι κ α) (k : κ) : Prop := ∀ i, (r.links i k).inFlight = []

def write (r : Registers ι κ α) (i : ι) (a : α) : Registers ι κ α where
  history := Function.update r.history i (r.history i ++ [a])
  links := Function.update r.links i fun k => (r.links i k).send (r.latest i + 1)

def setLink (r : Registers ι κ α) (i : ι) (k : κ) (link : Link) : Registers ι κ α :=
  { r with links := Function.update r.links i (Function.update (r.links i) k link) }

def deliver (r : Registers ι κ α) (i : ι) (k : κ) : Registers ι κ α :=
  r.setLink i k (r.links i k).receive

def resend (r : Registers ι κ α) (i : ι) (k : κ) : Registers ι κ α :=
  r.setLink i k ((r.links i k).send (r.latest i))

def lose (r : Registers ι κ α) (i : ι) (k : κ) (position : Nat) : Registers ι κ α :=
  r.setLink i k ((r.links i k).lose position)

end Registers

section Steps

variable {ι κ α : Type} [DecidableEq ι] [DecidableEq κ]

inductive Step : Registers ι κ α → Action ι κ α → Registers ι κ α → Prop
  | write (r : Registers ι κ α) (i : ι) (a : α) : Step r (.write i a) (r.write i a)
  | deliver {r : Registers ι κ α} {i : ι} {k : κ} (hNext : (r.links i k).inFlight ≠ []) :
      Step r (.deliver i k) (r.deliver i k)
  | resend {r : Registers ι κ α} {i : ι} {k : κ} (hWritten : r.history i ≠ []) :
      Step r (.resend i k) (r.resend i k)
  | lose {r : Registers ι κ α} {i : ι} {k : κ} {position : Nat}
      (hFollowed : position + 1 < (r.links i k).inFlight.length) :
      Step r (.lose i k position) (r.lose i k position)

/-- All links are in order. -/
def Registers.Current (r : Registers ι κ α) : Prop := ∀ i k, (r.links i k).Current (r.latest i)

namespace Registers

variable {r r' : Registers ι κ α} {i : ι} {k : κ} {action : Action ι κ α}

omit [DecidableEq ι] [DecidableEq κ] in
theorem current_empty : (empty : Registers ι κ α).Current := fun _ _ => Link.current_empty

omit [DecidableEq κ] in
theorem latest_write (a : α) (j : ι) :
    (r.write i a).latest j = if j = i then r.latest i + 1 else r.latest j := by
  by_cases hSame : j = i
  · subst hSame
    simp [latest, write]
  · simp [latest, write, hSame]

omit [DecidableEq κ] in
theorem links_write (a : α) (j : ι) (l : κ) :
    (r.write i a).links j l =
      if j = i then (r.links i l).send (r.latest i + 1) else r.links j l := by
  by_cases hSame : j = i
  · subst hSame
    simp [write]
  · simp [write, hSame]

theorem links_setLink (link : Link) (j : ι) (l : κ) :
    (r.setLink i k link).links j l = if j = i ∧ l = k then link else r.links j l := by
  by_cases hWriter : j = i
  · subst hWriter
    by_cases hReader : l = k
    · subst hReader
      simp [setLink]
    · simp [setLink, hReader]
  · simp [setLink, hWriter]

theorem Current.setLink (hCurrent : r.Current) {link : Link}
    (hLink : link.Current (r.latest i)) : (r.setLink i k link).Current := by
  intro j l
  rw [links_setLink]
  split_ifs with hSame
  · rw [hSame.1]
    exact hLink
  · exact hCurrent j l

theorem Current.step (hCurrent : r.Current) (hStep : Step r action r') : r'.Current := by
  cases hStep with
  | write i a =>
      intro j l
      rw [links_write, latest_write]
      split_ifs
      · exact (hCurrent i l).send (Nat.le_succ _) (Nat.succ_pos _)
      · exact hCurrent j l
  | deliver => exact hCurrent.setLink (hCurrent _ _).receive
  | resend hWritten =>
      exact hCurrent.setLink ((hCurrent _ _).send le_rfl (List.length_pos_of_ne_nil hWritten))
  | lose hFollowed => exact hCurrent.setLink ((hCurrent _ _).lose hFollowed)

/-- No reader goes back to an older version. -/
theorem Current.seen_le_step (hCurrent : r.Current) (hStep : Step r action r') (j : ι) (l : κ) :
    (r.links j l).seen ≤ (r'.links j l).seen := by
  cases hStep with
  | write i a =>
      rw [links_write]
      split_ifs with hSame
      · rw [hSame]
        exact le_rfl
      · exact le_rfl
  | @deliver i k =>
      rw [deliver, links_setLink]
      split_ifs with hSame
      · rw [hSame.1, hSame.2]
        exact (hCurrent i k).seen_le_receive
      · exact le_rfl
  | @resend i k | @lose i k =>
      simp only [resend, lose, links_setLink]
      split_ifs with hSame
      · rw [hSame.1, hSame.2]
        exact le_rfl
      · exact le_rfl

/-- A step lets at most one more register have a version. -/
theorem writers_finite_step (hWriters : {i | r.history i ≠ []}.Finite)
    (hStep : Step r action r') : {i | r'.history i ≠ []}.Finite := by
  cases hStep with
  | write i a =>
      refine (hWriters.insert i).subset fun j hWritten => ?_
      by_cases hSame : j = i
      · exact .inl hSame
      · right
        simpa [write, hSame] using hWritten
  | deliver | resend | lose => exact hWriters

/-- The number of versions on their way along some of the links. -/
def pending (r : Registers ι κ α) (ways : Finset (ι × κ)) : Nat :=
  ∑ way ∈ ways, (r.links way.1 way.2).inFlight.length

/-- Each delivery is one version less on its way. -/
theorem pending_deliver_lt {ways : Finset (ι × κ)} (hWay : (i, k) ∈ ways)
    (hInFlight : (r.links i k).inFlight ≠ []) :
    (r.deliver i k).pending ways < r.pending ways := by
  have hTail : (r.links i k).inFlight.tail.length < (r.links i k).inFlight.length := by
    have hPos := List.length_pos_of_ne_nil hInFlight
    rw [List.length_tail]
    omega
  refine Finset.sum_lt_sum (fun way _ => ?_) ⟨(i, k), hWay, ?_⟩
  · rw [deliver, links_setLink]
    split_ifs with hSame
    · rw [hSame.1, hSame.2]
      exact hTail.le
    · exact le_rfl
  · rw [deliver, links_setLink, if_pos ⟨rfl, rfl⟩]
    exact hTail

end Registers

end Steps

/-! ## What readers have -/

section Readers

variable {ι κ α : Type} {r : Registers ι κ α} {i : ι} {k : κ}

theorem versionOf_length (history : List α) :
    versionOf history history.length = history.getLast? := by
  cases history with
  | nil => rfl
  | cons a rest => rw [List.length_cons, versionOf, List.getLast?_eq_getElem?, List.length_cons,
      Nat.add_sub_cancel]

theorem mem_of_versionOf {history : List α} {version : Nat} {a : α}
    (hVersion : versionOf history version = some a) : a ∈ history := by
  cases version with
  | zero => cases hVersion
  | succ version => exact List.mem_of_getElem? hVersion

theorem versionOf_append {history : List α} {version : Nat} (later : List α)
    (hWritten : version ≤ history.length) :
    versionOf (history ++ later) version = versionOf history version := by
  cases version with
  | zero => rfl
  | succ version => exact List.getElem?_append_left hWritten

theorem exists_versionOf {history : List α} {version : Nat} (hFirst : 0 < version)
    (hWritten : version ≤ history.length) : ∃ a, versionOf history version = some a := by
  obtain ⟨version, rfl⟩ := Nat.exists_eq_succ_of_ne_zero hFirst.ne'
  exact ⟨_, List.getElem?_eq_getElem hWritten⟩

namespace Registers

/-- What is on its way to a reader was written. -/
theorem mem_history_of_next {a : α} (hNext : r.next i k = some a) : a ∈ r.history i := by
  obtain ⟨version, -, hVersion⟩ := Option.bind_eq_some_iff.mp hNext
  exact mem_of_versionOf hVersion

theorem inFlight_ne_nil {a : α} (hNext : r.next i k = some a) :
    (r.links i k).inFlight ≠ [] := by
  intro hNone
  simp [next, hNone] at hNext

/-- Nothing is on its way from a register that has no version. -/
theorem Current.inFlight_eq_nil (hCurrent : r.Current) (hNone : r.history i = []) :
    (r.links i k).inFlight = [] := by
  refine List.eq_nil_iff_forall_not_mem.mpr fun version hVersion => ?_
  have hWritten := (hCurrent i k).written version hVersion
  have hLatest := (hCurrent i k).le_latest version (List.mem_cons_of_mem _ hVersion)
  rw [latest, hNone, List.length_nil] at hLatest
  omega

theorem Current.exists_next (hCurrent : r.Current) (hNext : (r.links i k).inFlight ≠ []) :
    ∃ a, r.next i k = some a := by
  obtain ⟨version, rest, hInFlight⟩ := List.exists_cons_of_ne_nil hNext
  have hMem : version ∈ (r.links i k).inFlight := by simp [hInFlight]
  have hWritten := (hCurrent i k).le_latest version (List.mem_cons_of_mem _ hMem)
  obtain ⟨a, hVersion⟩ := exists_versionOf ((hCurrent i k).written version hMem) hWritten
  exact ⟨a, by simpa [Registers.next, hInFlight] using hVersion⟩

/-- A settled reader has the latest version of each register. -/
theorem Current.view_of_settled (hCurrent : r.Current) (hSettled : r.Settled k) (i : ι) :
    r.view i k = (r.history i).getLast? := by
  rw [view, (hCurrent i k).seen_eq (hSettled i), latest, versionOf_length]

variable [DecidableEq ι]

/-- A write changes what nobody has. -/
theorem Current.view_write (hCurrent : r.Current) (a : α) (j : ι) (l : κ) :
    (r.write i a).view j l = r.view j l := by
  rw [view, links_write]
  by_cases hSame : j = i
  · subst hSame
    rw [if_pos rfl]
    simpa [view, write, Link.send] using versionOf_append [a] (hCurrent j l).seen_le
  · rw [if_neg hSame]
    simp [view, write, hSame]

variable [DecidableEq κ]

theorem view_deliver {a : α} (hNext : r.next i k = some a) (j : ι) (l : κ) :
    (r.deliver i k).view j l = if j = i ∧ l = k then some a else r.view j l := by
  rw [view, deliver, links_setLink]
  split_ifs with hSame
  · obtain ⟨rfl, rfl⟩ := hSame
    obtain ⟨version, hHead, hVersion⟩ := Option.bind_eq_some_iff.mp hNext
    rw [Link.receive, List.headD_eq_head?_getD, hHead]
    exact hVersion
  · rfl

theorem view_resend (j : ι) (l : κ) : (r.resend i k).view j l = r.view j l := by
  rw [view, resend, links_setLink]
  split_ifs with hSame
  · rw [hSame.1, hSame.2]
    rfl
  · rfl

theorem view_lose (position : Nat) (j : ι) (l : κ) :
    (r.lose i k position).view j l = r.view j l := by
  rw [view, lose, links_setLink]
  split_ifs with hSame
  · rw [hSame.1, hSame.2]
    rfl
  · rfl

end Registers

end Readers

end Replication
