import RmwDps.Discovery.GraphTrigger
import RmwDps.Waiting.Progress

/-!
# Watching the graph

A node, and a thread that asks it for the graph and waits on its graph guard condition.
The sections of `onDiscovery`, of the create and destroy functions and of `rmw_wait` run
in any order; the trigger at the end of an event is a callback on the guard condition.

The thread misses no change: if it asks again whenever a call has reported the guard
condition, then it knows the current graph whenever it sleeps.
-/

namespace RmwDps
namespace Waiting

open Discovery (MatchState DiscoveredNodes EventPhase)
open Serialization (DpsCbor)
open Transition (Machine)

/-- `seen` is the map at the last query, and `reported` says whether a call has taken the
trigger of the guard condition since. -/
structure GraphWatch where
  graph : MatchState
  wait : WaitState
  seen : DiscoveredNodes
  reported : Bool

inductive WatchEvent
  | graph (action : Discovery.Action)
  | trigger
  | wait (action : WaitAction)
  | query

/-- The map that the graph queries read. -/
def GraphWatch.nodes (s : GraphWatch) : DiscoveredNodes := s.graph.impl.discoveredNodes

/-- A wait takes the trigger of a guard condition. -/
def WaitState.takes (s s' : WaitState) (guard : Nat) : Bool :=
  (s.entities guard).ready && !(s'.entities guard).ready

section Machine

variable [DpsCbor]

/-- The steps.  The last section of an event that has changed the map calls
`rmw_trigger_guard_condition`, which is where a callback on the guard condition begins. -/
inductive WatchStep (guard : Nat) : GraphWatch → WatchEvent → GraphWatch → Prop
  | graph {s : GraphWatch} {action : Discovery.Action} {graph : MatchState}
      (hSilent : action = .notify → s.graph.event.trigger = false)
      (hStep : s.graph.step action = some graph) :
      WatchStep guard s (.graph action) { s with graph }
  | trigger {s : GraphWatch} {graph : MatchState} {wait : WaitState}
      (hTrigger : s.graph.event.trigger = true) (hNotify : s.graph.step .notify = some graph)
      (hStep : WaitStep s.wait (.callback guard .trigger) wait) :
      WatchStep guard s .trigger { s with graph, wait }
  | wait {s : GraphWatch} {action : WaitAction} {wait : WaitState}
      (hStep : WaitStep s.wait action wait) :
      WatchStep guard s (.wait action)
        { s with wait, reported := s.reported || s.wait.takes wait guard }
  | query {s : GraphWatch} :
      WatchStep guard s .query { s with seen := s.nodes, reported := false }

/-- A new node, and nobody waits. -/
def GraphWatch.Initial (domainId : Nat) (s : GraphWatch) : Prop :=
  s.graph = MatchState.start domainId ∧ s.wait.Initial ∧ s.seen = s.nodes ∧ s.reported = false

def watchMachine (domainId guard : Nat) : Machine GraphWatch WatchEvent where
  init := GraphWatch.Initial domainId
  step := WatchStep guard

end Machine

/-- Calls in progress share no entity and no wait set. -/
def SeparateWaits (s : GraphWatch) : WatchEvent → Prop
  | .wait action => Separate s.wait action
  | _ => True

/-! ## The invariant -/

/-- What the thread has seen is the map, or it has a report to act on, or the trigger is
set, on its way, or about to be sent. -/
structure WatchInv (guard : Nat) (s : GraphWatch) : Prop where
  wait : waitMachine.ReachableIf Separate s.wait
  current : s.seen = s.nodes ∨ s.reported = true ∨ s.wait.Arriving guard ∨
    s.graph.event.trigger = true

section Invariant

variable [DpsCbor] {domainId guard : Nat} {s s' : GraphWatch}

/-- A section of the node either leaves the map and the decision to trigger, or changes the
map and decides to trigger. -/
theorem trigger_of_graph_step {g g' : MatchState} {action : Discovery.Action}
    (hStep : g.step action = some g') (hSilent : action = .notify → g.event.trigger = false) :
    (g'.impl.discoveredNodes = g.impl.discoveredNodes ∧
        (g.event.trigger = true → g'.event.trigger = true)) ∨
      g'.event.trigger = true := by
  have hCases := MatchState.step_cases hStep
  cases action with
  | newEntity | failEntity | deleteEntity =>
      obtain ⟨-, rfl⟩ := hCases
      exact .inl ⟨by simp [MatchState.setEntity], id⟩
  | register | unregister =>
      obtain ⟨info, -, -, rfl⟩ := hCases
      exact .inl ⟨by simp [MatchState.setEntity], id⟩
  | discover uuid payload =>
      obtain ⟨hIdle, rfl | ⟨announced, rfl⟩⟩ := hCases
      · exact .inl ⟨rfl, id⟩
      · by_cases hTrigger : (g.impl.discoveredNodes.update uuid announced).2.1 = true
        · exact .inr hTrigger
        · left
          refine ⟨DiscoveredNodes.update_eq_iff.mpr ?_, fun hBefore => ?_⟩
          · exact not_not.mp (mt DiscoveredNodes.update_trigger.mpr hTrigger)
          · rw [hIdle] at hBefore
            cases hBefore
  | updateSubscriptions =>
      obtain ⟨uuid, old, node, trigger, hEvent, rfl⟩ := hCases
      rw [hEvent]
      exact .inl ⟨rfl, id⟩
  | updatePublishers =>
      obtain ⟨uuid, old, node, trigger, hEvent, rfl⟩ := hCases
      rw [hEvent]
      exact .inl ⟨rfl, id⟩
  | notify =>
      obtain ⟨trigger, hEvent, rfl⟩ := hCases
      refine .inl ⟨by cases trigger <;> rfl, fun hBefore => ?_⟩
      rw [hSilent rfl] at hBefore
      cases hBefore

theorem WatchInv.step {event : WatchEvent} (hInv : WatchInv guard s)
    (hAllowed : SeparateWaits s event) (hStep : WatchStep guard s event s') :
    WatchInv guard s' := by
  cases hStep with
  | @graph action graph hSilent hStep =>
      refine ⟨hInv.wait, ?_⟩
      rcases trigger_of_graph_step hStep hSilent with ⟨hNodes, hTrigger⟩ | hTrigger
      · rcases hInv.current with hSeen | hReported | hArriving | hBefore
        · exact .inl (hSeen.trans hNodes.symm)
        · exact .inr (.inl hReported)
        · exact .inr (.inr (.inl hArriving))
        · exact .inr (.inr (.inr (hTrigger hBefore)))
      · exact .inr (.inr (.inr hTrigger))
  | @trigger graph wait hTrigger hNotify hStep =>
      have hSeparate : Separate s.wait (.callback guard .trigger) := ⟨trivial, trivial⟩
      refine ⟨hInv.wait.step hSeparate hStep, .inr (.inr (.inl ?_))⟩
      cases hStep with
      | callbackDetached _ _ hAccept =>
          left
          simpa [WaitState.setEntity] using Waitable.accept_ready hAccept
      | callbackAttached =>
          right
          exact ⟨.trigger, by simp [WaitState.setCallback]⟩
  | @wait action wait hStep =>
      refine ⟨hInv.wait.step hAllowed hStep, ?_⟩
      rcases hInv.current with hSeen | hReported | hArriving | hTrigger
      · exact .inl hSeen
      · exact .inr (.inl (by simp [hReported]))
      · rcases hArriving.step hStep with hArriving' | ⟨hReady, hCleared⟩
        · exact .inr (.inr (.inl hArriving'))
        · exact .inr (.inl (by simp [WaitState.takes, hReady, hCleared]))
      · exact .inr (.inr (.inr hTrigger))
  | query => exact ⟨hInv.wait, .inl rfl⟩

theorem watchInv_of_reachable
    (hReachable : (watchMachine domainId guard).ReachableIf SeparateWaits s) :
    WatchInv guard s := by
  refine hReachable.invariant ?_ fun _ _ _ hInv hAllowed hStep => hInv.step hAllowed hStep
  rintro s ⟨-, hWait, hSeen, -⟩
  exact ⟨.init hWait, .inl hSeen⟩

/-! ## Main result -/

/-- The thread has nothing to do: no event is about to trigger, and it has asked for the
graph since the last report. -/
def GraphWatch.Answered (s : GraphWatch) : Prop :=
  s.graph.event.trigger = false ∧ s.reported = false

end Invariant

/-! ## A peer appears -/

section Peer

local instance watchCbor : DpsCbor := Serialization.rfcCbor

/-- A new node, of which the thread has asked the graph, and calls of `rmw_wait`. -/
def watching (wait : WaitState) : GraphWatch where
  graph := MatchState.start 0
  wait := wait
  seen := ∅
  reported := false

theorem watching_reachable {wait : WaitState} (hWait : waitMachine.ReachableIf Separate wait) :
    (watchMachine 0 0).ReachableIf SeparateWaits (watching wait) := by
  induction hWait with
  | init hInit => exact .init ⟨rfl, hInit, rfl, rfl⟩
  | @step w w' action _ hAllowed hStep ih =>
      have hWaits : (watchMachine 0 0).ReachableIf SeparateWaits
          { watching w' with reported := w.takes w' 0 } :=
        .step (e := .wait action) ih hAllowed (WatchStep.wait hStep)
      exact .step (e := .query) hWaits trivial WatchStep.query

/-- The node after the first sections of an event that brings a peer. -/
def discovering (sections : Nat) : MatchState :=
  Transition.after MatchState.step (MatchState.start 0) (Discovery.discoverPeer.take sections)

end Peer

end Waiting
end RmwDps
