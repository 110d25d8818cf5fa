import Mathlib

/-!
# First in, first out

A channel carries items to a queue, from which they are taken: both in order, and
neither loses, repeats or makes up an item.  So what has been taken at any time is what
was sent first, and a take comes back empty exactly when everything delivered has been
taken.
-/

namespace Fifo

/-- What happens to a channel.  `take none` is a take that finds the queue empty. -/
inductive Event (α : Type)
  | send (a : α)
  | deliver
  | take (item : Option α)

/-- The items that are on their way, and those that wait in the queue. -/
structure Channel (α : Type) where
  inFlight : List α
  queue : List α

variable {α : Type}

inductive Step : Channel α → Event α → Channel α → Prop
  | send {c : Channel α} (a : α) : Step c (.send a) { c with inFlight := c.inFlight ++ [a] }
  | deliver {c : Channel α} {a : α} {rest : List α} (hInFlight : c.inFlight = a :: rest) :
      Step c .deliver { inFlight := rest, queue := c.queue ++ [a] }
  | take {c : Channel α} {a : α} {rest : List α} (hQueue : c.queue = a :: rest) :
      Step c (.take (some a)) { c with queue := rest }
  | takeNothing {c : Channel α} (hQueue : c.queue = []) : Step c (.take none) c

/-- The events of a run, in order, from the empty channel. -/
inductive Run : List (Event α) → Channel α → Prop
  | nil : Run [] { inFlight := [], queue := [] }
  | snoc {events : List (Event α)} {c c' : Channel α} {e : Event α} (hRun : Run events c)
      (hStep : Step c e c') : Run (events ++ [e]) c'

/-! ## What a run has done -/

/-- The item that the event sends. -/
def Event.sent : Event α → List α
  | .send a => [a]
  | .deliver | .take _ => []

/-- The item that the event takes. -/
def Event.taken : Event α → List α
  | .take item => item.toList
  | .send _ | .deliver => []

def Event.isDelivery : Event α → Bool
  | .deliver => true
  | .send _ | .take _ => false

/-- The items sent, in order. -/
def sent (events : List (Event α)) : List α := events.flatMap Event.sent

/-- The items taken, in order. -/
def taken (events : List (Event α)) : List α := events.flatMap Event.taken

/-- The number of items delivered. -/
def delivered (events : List (Event α)) : Nat := events.countP Event.isDelivery

section Append

variable (events : List (Event α)) (e : Event α)

@[simp] theorem sent_snoc : sent (events ++ [e]) = sent events ++ e.sent := by
  simp [sent]

@[simp] theorem taken_snoc : taken (events ++ [e]) = taken events ++ e.taken := by
  simp [taken]

@[simp] theorem delivered_snoc :
    delivered (events ++ [e]) = delivered events + if e.isDelivery then 1 else 0 := by
  simp [delivered, List.countP_singleton]

end Append

/-- Every item sent has been taken, or waits, or is on its way, in this order; and the
queue holds what has been delivered and not taken. -/
structure Conserves (events : List (Event α)) (c : Channel α) : Prop where
  sent : Fifo.sent events = taken events ++ (c.queue ++ c.inFlight)
  delivered : Fifo.delivered events = (taken events).length + c.queue.length

theorem Conserves.snoc {events : List (Event α)} {c c' : Channel α} {e : Event α}
    (hConserves : Conserves events c) (hStep : Step c e c') : Conserves (events ++ [e]) c' := by
  obtain ⟨hSent, hDelivered⟩ := hConserves
  cases hStep with
  | send a =>
      refine ⟨?_, ?_⟩
      · simp [hSent, Event.sent, Event.taken]
      · simp [hDelivered, Event.taken, Event.isDelivery]
  | deliver hInFlight =>
      refine ⟨?_, ?_⟩
      · simp [hSent, hInFlight, Event.sent, Event.taken]
      · simp [hDelivered, Event.taken, Event.isDelivery]
        omega
  | take hQueue =>
      refine ⟨?_, ?_⟩
      · simp [hSent, hQueue, Event.sent, Event.taken]
      · simp [hDelivered, hQueue, Event.taken, Event.isDelivery]
        omega
  | takeNothing hQueue =>
      refine ⟨?_, ?_⟩
      · simp [hSent, Event.sent, Event.taken]
      · simp [hDelivered, Event.taken, Event.isDelivery]

namespace Run

variable {events : List (Event α)} {c : Channel α}

theorem conserves (hRun : Run events c) : Conserves events c := by
  induction hRun with
  | nil => exact ⟨rfl, rfl⟩
  | snoc _ hStep ih => exact ih.snoc hStep

theorem mem_sent_of_queue {a : α} (hRun : Run events c) (hQueued : a ∈ c.queue) :
    a ∈ sent events := by
  rw [hRun.conserves.sent]
  simp [hQueued]

/-- What has been taken is what was sent first. -/
theorem taken_prefix (hRun : Run events c) : taken events <+: sent events :=
  ⟨c.queue ++ c.inFlight, hRun.conserves.sent.symm⟩

theorem sent_of_taken (hRun : Run events c) {k : Nat} {a : α}
    (hTaken : (taken events)[k]? = some a) :
    (sent events)[k]? = some a := by
  obtain ⟨rest, hSent⟩ := hRun.taken_prefix
  obtain ⟨hLt, -⟩ := List.getElem?_eq_some_iff.mp hTaken
  rw [← hSent, List.getElem?_append_left hLt, hTaken]

theorem of_snoc {e : Event α} (hRun : Run (events ++ [e]) c) :
    ∃ c', Run events c' ∧ Step c' e c := by
  generalize hAll : events ++ [e] = all at hRun
  cases hRun with
  | nil => simp at hAll
  | snoc hBefore hStep =>
      obtain ⟨rfl, hLast⟩ := List.append_inj' hAll rfl
      obtain rfl := List.singleton_inj.mp hLast
      exact ⟨_, hBefore, hStep⟩

/-- The events so far are those of a run. -/
theorem of_append {later : List (Event α)} (hRun : Run (events ++ later) c) :
    ∃ c', Run events c' := by
  induction later using List.reverseRecOn generalizing c with
  | nil => exact ⟨c, by simpa using hRun⟩
  | append_singleton later e ih =>
      rw [← List.append_assoc] at hRun
      obtain ⟨c', hBefore, -⟩ := hRun.of_snoc
      exact ih hBefore

/-- A take comes back empty exactly when everything delivered has been taken. -/
theorem take_eq_none_iff {item : Option α} {later : List (Event α)}
    (hRun : Run (events ++ .take item :: later) c) :
    item = none ↔ delivered events = (taken events).length := by
  rw [List.append_cons] at hRun
  obtain ⟨after, hTake⟩ := hRun.of_append
  obtain ⟨before, hBefore, hStep⟩ := hTake.of_snoc
  have hDelivered := hBefore.conserves.delivered
  cases hStep with
  | take hQueue => simp [hDelivered, hQueue]
  | takeNothing hQueue => simp [hDelivered, hQueue]

end Run

end Fifo
