import RmwDps.Discovery.Convergence
import RmwDps.Discovery.LastWord

/-!
# Matching in a network

The nodes of a network, each with the publishers and subscriptions that are created and
destroyed on it, and with the sections of `onDiscovery` interleaved with those of the
create and destroy functions.  What a node does with its own entities is a run of the
matching machine, and what it does to the others is a run of the network, so the results
about both hold here.  Together they say what an entity is matched with once the network
is at rest: the running nodes that list a peer on its topic.
-/

namespace RmwDps
namespace Discovery

open Serialization
open Replication (Registers)
open Transition (Machine)

/-- A network with the phases of the local entities and of the events of each node.  The
listeners of the network have the tables of their entities. -/
structure MatchNetwork (ι : Type) where
  network : Network ι
  phase : ι → Side → Nat → Option Phase
  event : ι → EventPhase

/-- A step of the network apart from its listeners, the first section of `onDiscovery` at
`j` for a payload of `i`, or another section at `j`. -/
inductive MatchEvent (ι : Type)
  | network (event : NetworkEvent ι)
  | deliver (i j : ι)
  | act (j : ι) (action : Action)

/-- The section needs no payload. -/
def Action.IsLocal : Action → Prop
  | .discover _ _ => False
  | _ => True

/-- One of the later sections of `onDiscovery`. -/
def Action.IsUpdate : Action → Prop
  | .updateSubscriptions | .updatePublishers | .notify => True
  | _ => False

section Machine

variable {ι : Type} [DecidableEq ι]

namespace MatchNetwork

omit [DecidableEq ι] in
/-- A node with its entities. -/
def matchState (s : MatchNetwork ι) (j : ι) : MatchState where
  impl := s.network.listeners j
  phase := s.phase j
  event := s.event j

def setMatchState (s : MatchNetwork ι) (j : ι) (t : MatchState) : MatchNetwork ι where
  network := s.network.setListener j t.impl
  phase := Function.update s.phase j t.phase
  event := Function.update s.event j t.event

/-- DPS has handed over the payload. -/
def deliverDps (s : MatchNetwork ι) (i j : ι) : MatchNetwork ι :=
  { s with network := { s.network with dps := s.network.dps.deliver i j } }

end MatchNetwork

/-- The steps.  The events of one node come one after the other. -/
inductive MatchNetworkStep [DpsCbor] (parties : Participants ι) :
    MatchNetwork ι → MatchEvent ι → MatchNetwork ι → Prop
  | network {s : MatchNetwork ι} {event : NetworkEvent ι} {network' : Network ι}
      (hLeaves : event.LeavesListeners) (hStep : NetworkStep parties s.network event network') :
      MatchNetworkStep parties s (.network event) { s with network := network' }
  | deliver {s : MatchNetwork ι} {i j : ι} {payload : List UInt8} {t : MatchState}
      (hRunning : j ∈ s.network.running) (hNext : s.network.dps.next i j = some payload)
      (hSection : (s.matchState j).step (.discover (parties.uuid i) payload) = some t) :
      MatchNetworkStep parties s (.deliver i j) ((s.setMatchState j t).deliverDps i j)
  | act {s : MatchNetwork ι} {j : ι} {action : Action} {t : MatchState}
      (hLocal : action.IsLocal) (hSection : (s.matchState j).step action = some t) :
      MatchNetworkStep parties s (.act j action) (s.setMatchState j t)

/-- No node has started, and no entity has been created. -/
def MatchNetwork.Initial (parties : Participants ι) (s : MatchNetwork ι) : Prop :=
  s.network.Initial parties ∧ ∀ j, s.matchState j = MatchState.start (parties.domainId j)

def matchNetworkMachine [DpsCbor] (parties : Participants ι) :
    Machine (MatchNetwork ι) (MatchEvent ι) where
  init := MatchNetwork.Initial parties
  step := MatchNetworkStep parties

/-- Entities have plain names, and register while no node lists their topic throughout the
event in progress. -/
def MatchEvent.Allowed (s : MatchNetwork ι) : MatchEvent ι → Prop
  | .network event => event.Plain s.network
  | .deliver _ _ => True
  | .act j action => RegistersUnlisted (s.matchState j) action

/-- `onDiscovery` begins or goes on. -/
def MatchEvent.IsDiscovery : MatchEvent ι → Prop
  | .network _ => False
  | .deliver _ _ => True
  | .act _ action => action.IsUpdate

end Machine

/-! ## One section -/

section Sections

variable [DpsCbor] {s s' : MatchState} {action : Action}

/-- The first section of an event whose payload decodes. -/
theorem MatchState.step_discover {uuid : StdString} {payload : List UInt8}
    {announced : Option Node} (hDecode : decodePayload payload = .ok announced)
    (hStep : s.step (.discover uuid payload) = some s') :
    s.event = .idle ∧ s' = { s with
      impl := { s.impl with discoveredNodes := (s.impl.discoveredNodes.update uuid announced).2.2 }
      event := .beforeSubscriptions uuid (s.impl.discoveredNodes.update uuid announced).1
        (announced.getD {}) (s.impl.discoveredNodes.update uuid announced).2.1 } := by
  simp only [step, Option.ite_none_right_eq_some, hDecode, Option.some.injEq] at hStep
  exact ⟨hStep.1, hStep.2.symm⟩

omit [DpsCbor] in
theorem CustomNodeInfo.notify_fields (impl : CustomNodeInfo) (trigger : Bool) :
    (impl.notify trigger).discoveredNodes = impl.discoveredNodes ∧
      (impl.notify trigger).domainId = impl.domainId := by
  cases trigger <;> exact ⟨rfl, rfl⟩

/-- The other sections leave the map alone, and begin no event. -/
theorem MatchState.step_local (hLocal : action.IsLocal) (hStep : s.step action = some s') :
    s'.impl.discoveredNodes = s.impl.discoveredNodes ∧ s'.impl.domainId = s.impl.domainId ∧
      (s.event = .idle → s'.event = .idle) := by
  have hSetEntity : ∀ side address table phase,
      (s.setEntity side address table phase).impl.discoveredNodes = s.impl.discoveredNodes ∧
        (s.setEntity side address table phase).impl.domainId = s.impl.domainId ∧
          (s.event = .idle → (s.setEntity side address table phase).event = .idle) := by
    intro side address table phase
    cases side <;> exact ⟨rfl, rfl, id⟩
  have hCases := MatchState.step_cases hStep
  cases action with
  | newEntity | failEntity | deleteEntity =>
      obtain ⟨-, rfl⟩ := hCases
      exact hSetEntity _ _ _ _
  | register | unregister =>
      obtain ⟨info, -, -, rfl⟩ := hCases
      exact hSetEntity _ _ _ _
  | discover => exact hLocal.elim
  | updateSubscriptions | updatePublishers =>
      obtain ⟨uuid, old, node, trigger, hEvent, rfl⟩ := hCases
      exact ⟨rfl, rfl, fun hIdle => nomatch hEvent.symm.trans hIdle⟩
  | notify =>
      obtain ⟨trigger, -, rfl⟩ := hCases
      obtain ⟨hNodes, hDomain⟩ := s.impl.notify_fields trigger
      exact ⟨hNodes, hDomain, fun _ => rfl⟩

end Sections

/-! ## Runs of the network and of each node -/

section Refinement

variable [DpsCbor] {ι : Type} [DecidableEq ι] {parties : Participants ι}
  {s s' : MatchNetwork ι}

omit [DpsCbor] in
theorem MatchNetwork.matchState_setMatchState (s : MatchNetwork ι) (j k : ι) (t : MatchState) :
    (s.setMatchState j t).matchState k = if k = j then t else s.matchState k := by
  unfold matchState setMatchState Network.setListener
  split_ifs with hSame
  · subst hSame
    simp
  · simp [hSame]

/-- The network makes a run of its own, the entities of each node are as their machine
has them, and only nodes that have spoken are in an event. -/
structure MatchNetworkInv (parties : Participants ι) (s : MatchNetwork ι) : Prop where
  network : (networkMachine parties).ReachableIf NetworkEvent.Plain s.network
  entities : ∀ j, MatchInv (s.matchState j)
  spoken : ∀ j, s.event j ≠ .idle → s.network.said j ≠ []

theorem matchNetworkInv_init (hInit : s.Initial parties) : MatchNetworkInv parties s := by
  obtain ⟨hNetwork, hStart⟩ := hInit
  refine ⟨.init hNetwork, fun j => ?_, fun j hBusy => ?_⟩
  · rw [hStart j]
    exact MatchInv.start _
  · have hIdle : s.event j = .idle := congrArg MatchState.event (hStart j)
    exact absurd hIdle hBusy

variable [DpsCbor.Lawful]

theorem MatchNetworkInv.deliver (hInv : MatchNetworkInv parties s) {i j : ι}
    {payload : List UInt8} {t : MatchState} (hRunning : j ∈ s.network.running)
    (hNext : s.network.dps.next i j = some payload)
    (hSection : (s.matchState j).step (.discover (parties.uuid i) payload) = some t) :
    MatchNetworkInv parties ((s.setMatchState j t).deliverDps i j) := by
  have hNetwork := networkInv_of_reachable hInv.network
  obtain ⟨impl, hDiscovery⟩ := hNetwork.onDiscovery_returns hNext (s.network.listeners j)
  refine ⟨?_, fun k => ?_, fun k hBusy => ?_⟩
  · -- The network hands over the payload, and leaves the tables to their own sections.
    cases hDecode : decodePayload payload with
    | error fault =>
        rw [onDiscovery, hDecode] at hDiscovery
        cases hDiscovery
    | ok announced =>
        have hImpl : impl = (s.network.listeners j).announce (parties.uuid i) announced := by
          rw [onDiscovery, hDecode] at hDiscovery
          exact (Except.ok.inj hDiscovery).symm
        obtain ⟨-, hSection⟩ := MatchState.step_discover hDecode hSection
        have hPlain : (NetworkEvent.deliver i j).Plain s.network := trivial
        have hHanded := hInv.network.step hPlain (.deliver hRunning hNext hDiscovery)
        have hNodes : t.impl.discoveredNodes = impl.discoveredNodes := by
          rw [hSection, hImpl, CustomNodeInfo.discoveredNodes_announce]
          rfl
        have hDomain : t.impl.domainId = impl.domainId := by
          rw [hSection, hImpl, CustomNodeInfo.domainId_announce]
          rfl
        have hTables : NetworkStep parties
            { s.network.setListener j impl with dps := s.network.dps.deliver i j } (.register j)
            (Network.setListener
              { s.network.setListener j impl with dps := s.network.dps.deliver i j } j t.impl) :=
          .register (by simpa [Network.setListener] using hNodes)
            (by simpa [Network.setListener] using hDomain)
        have hBoth := hHanded.step (show NetworkEvent.Plain _ (.register j) from trivial) hTables
        simpa [MatchNetwork.deliverDps, MatchNetwork.setMatchState, Network.setListener] using hBoth
  · show MatchInv ((s.setMatchState j t).matchState k)
    rw [MatchNetwork.matchState_setMatchState]
    split_ifs
    · have hAllowed : RegistersUnlisted (s.matchState j) (.discover (parties.uuid i) payload) :=
        trivial
      exact (hInv.entities j).step hAllowed hSection
    · exact hInv.entities k
  · show s.network.said k ≠ []
    by_cases hSame : k = j
    · subst hSame
      obtain ⟨entities, hLast⟩ := (hNetwork.running k).mp hRunning
      intro hSilent
      rw [hSilent] at hLast
      cases hLast
    · refine hInv.spoken k fun hIdle => hBusy ?_
      simpa [MatchNetwork.deliverDps, MatchNetwork.setMatchState, hSame] using hIdle

theorem MatchNetworkInv.step {event : MatchEvent ι} (hInv : MatchNetworkInv parties s)
    (hAllowed : event.Allowed s) (hStep : MatchNetworkStep parties s event s') :
    MatchNetworkInv parties s' := by
  cases hStep with
  | @network event network' hLeaves hStep =>
      refine ⟨hInv.network.step hAllowed hStep, fun j => ?_, fun j hBusy => ?_⟩
      · have hSame : MatchNetwork.matchState { s with network := network' } j =
            s.matchState j := by
          simp only [MatchNetwork.matchState, hStep.listeners_eq hLeaves]
        rw [hSame]
        exact hInv.entities j
      · have hSaid := (networkInv_of_reachable hInv.network).notBefore_step hStep
        exact fun hSilent => hInv.spoken j hBusy (List.prefix_nil.mp (hSilent ▸ hSaid.2 j))
  | deliver hRunning hNext hSection => exact hInv.deliver hRunning hNext hSection
  | @act j action t hLocal hSection =>
      obtain ⟨hNodes, hDomain, hIdle⟩ := MatchState.step_local hLocal hSection
      refine ⟨hInv.network.step (e := .register j) trivial (.register hNodes hDomain),
        fun k => ?_, fun k hBusy => hInv.spoken k fun hBefore => hBusy ?_⟩
      · rw [MatchNetwork.matchState_setMatchState]
        split_ifs
        · exact (hInv.entities j).step hAllowed hSection
        · exact hInv.entities k
      · show ((s.setMatchState j t).matchState k).event = .idle
        rw [MatchNetwork.matchState_setMatchState]
        split_ifs with hSame
        · subst hSame
          exact hIdle hBefore
        · exact hBefore

theorem matchNetworkInv_of_reachable
    (hReachable : (matchNetworkMachine parties).ReachableIf MatchEvent.Allowed s) :
    MatchNetworkInv parties s :=
  hReachable.invariant (fun _ hInit => matchNetworkInv_init hInit)
    fun _ _ _ hInv hAllowed hStep => hInv.step hAllowed hStep

end Refinement

/-! ## Nodes at rest -/

/-- What the peers of a side advertise. -/
def Side.peerTopic : Side → Entity → Option Topic
  | .publisher => Entity.subscriberTopic
  | .subscription => Entity.publisherTopic

section Settled

variable {ι : Type} [DecidableEq ι] {parties : Participants ι} {s : MatchNetwork ι}

omit [DecidableEq ι] in
/-- The running nodes that list a peer on the topic in their last word. -/
def Network.peersOn (s : Network ι) (side : Side) (topicName : StdString) : Finset ι :=
  s.running.filter fun i => 0 < liveOn side.peerTopic topicName (s.lastSaid i)

omit [DecidableEq ι] in
theorem Node.Describes.lists_peer {node : Node} {name namespace_ : StdString}
    {live : List Entity} (hDescribes : node.Describes name namespace_ live) (side : Side)
    (topicName : StdString) :
    (∃ topic ∈ side.peers node, topic.topic = topicName) ↔
      0 < liveOn side.peerTopic topicName live := by
  have hPerm : (side.peers node).Perm (live.filterMap side.peerTopic) := by
    cases side with
    | publisher => exact hDescribes.subscribers
    | subscription => exact hDescribes.publishers
  rw [liveOn_pos]
  simp only [hPerm.mem_iff, List.mem_filterMap]
  exact ⟨fun ⟨topic, ⟨entity, hLive, hKind⟩, hName⟩ => ⟨entity, hLive, topic, hKind, hName⟩,
    fun ⟨entity, hLive, topic, hKind, hName⟩ => ⟨topic, ⟨entity, hLive, hKind⟩, hName⟩⟩

variable [DpsCbor] [DpsCbor.Lawful]

/-- The matched set of an entity of a settled node, between two events. -/
theorem MatchNetworkInv.matched_eq (hInv : MatchNetworkInv parties s) {j : ι}
    (hSettled : s.network.dps.Settled j) (hIdle : s.event j = .idle) {side : Side}
    {address : Nat} {info : EntityInfo} (hLive : s.phase j side address = some .live)
    (hInfo : ((s.network.listeners j).table side).infos address = some info) :
    info.matched = (s.network.peersOn side info.topicName).image parties.uuid ∧
      info.matchedCount = (s.network.peersOn side info.topicName).card := by
  have hNetwork := networkInv_of_reachable hInv.network
  obtain ⟨hMatched, hCount⟩ :=
    (hInv.entities j).matchedExactly hIdle side address info hLive hInfo
  have hImage : info.matched = (s.network.peersOn side info.topicName).image parties.uuid := by
    ext uuid
    rw [hMatched uuid, Finset.mem_image]
    constructor
    · rintro ⟨node, hEntry, hLists⟩
      -- Only running nodes are in the map, each as it has said last.
      have hKnown : ∃ i, uuid = parties.uuid i := by
        by_contra hStranger
        rw [not_exists] at hStranger
        have hNone := hNetwork.strangers j uuid hStranger
        exact nomatch hNone.symm.trans hEntry
      obtain ⟨i, rfl⟩ := hKnown
      have hRunning : i ∈ s.network.running := by
        by_contra hStopped
        have hNone := (hNetwork.settled_entry hSettled i).2 hStopped
        exact nomatch hNone.symm.trans hEntry
      obtain ⟨known, hKnown, hDescribes⟩ := (hNetwork.settled_entry hSettled i).1 hRunning
      obtain rfl : known = node := Option.some.inj (hKnown.symm.trans hEntry)
      exact ⟨i, Finset.mem_filter.mpr ⟨hRunning, (hDescribes.lists_peer side _).mp hLists⟩, rfl⟩
    · rintro ⟨i, hPeer, rfl⟩
      obtain ⟨hRunning, hLists⟩ := Finset.mem_filter.mp hPeer
      obtain ⟨node, hEntry, hDescribes⟩ := (hNetwork.settled_entry hSettled i).1 hRunning
      exact ⟨node, hEntry, (hDescribes.lists_peer side _).mpr hLists⟩
  refine ⟨hImage, ?_⟩
  rw [hCount, hImage, Finset.card_image_of_injective _ parties.uuid_injective]

end Settled

/-! ## Coming to rest -/

section Topics

variable {table : EntityTable} {f : EntityInfo → EntityInfo}

theorem EntityTable.topicName_foldl (hTopic : ∀ info, (f info).topicName = info.topicName)
    (topics : List StdString) (table : EntityTable) (address : Nat) :
    ((topics.foldl (EntityTable.forTopic f) table).infos address).map EntityInfo.topicName =
      (table.infos address).map EntityInfo.topicName := by
  induction topics generalizing table with
  | nil => rfl
  | cons topic topics ih =>
      rw [List.foldl_cons, ih, forTopic]
      dsimp only
      split_ifs
      · rw [Option.map_map]
        exact congrArg (Option.map · _) (funext hTopic)
      · rfl

/-- The topic of an entity stays the same. -/
theorem EntityTable.topicName_updateMatched (uuid : StdString) (oldTopics newTopics : List Topic)
    (address : Nat) :
    ((table.updateMatched uuid oldTopics newTopics).infos address).map EntityInfo.topicName =
      (table.infos address).map EntityInfo.topicName := by
  unfold updateMatched
  split_ifs
  · rfl
  · have hInsert : ∀ info, (EntityInfo.insertMatched uuid info).topicName = info.topicName :=
      fun _ => rfl
    have hErase : ∀ info, (EntityInfo.eraseMatched uuid info).topicName = info.topicName :=
      fun _ => rfl
    exact (topicName_foldl hInsert _ _ _).trans (topicName_foldl hErase _ _ _)

end Topics

/-- The sections that an event still has to run. -/
def EventPhase.left : EventPhase → Nat
  | .idle => 0
  | .beforeNotify _ => 1
  | .beforePublishers .. => 2
  | .beforeSubscriptions .. => 3

section Rest

variable [DpsCbor] {ι : Type} [DecidableEq ι] {parties : Participants ι}
  {s s' : MatchNetwork ι}

omit [DecidableEq ι] in
/-- The same entities on the same topics. -/
structure MatchState.SameEntities (t t' : MatchState) : Prop where
  phase : t'.phase = t.phase
  topicName : ∀ side address,
    ((t'.impl.table side).infos address).map EntityInfo.topicName =
      ((t.impl.table side).infos address).map EntityInfo.topicName

omit [DecidableEq ι] in
/-- A later section of an event is the next one of its event. -/
theorem MatchState.step_update {t t' : MatchState} {action : Action} (hUpdate : action.IsUpdate)
    (hStep : t.step action = some t') :
    t'.event.left + 1 = t.event.left ∧ t.SameEntities t' := by
  have hCases := MatchState.step_cases hStep
  cases action with
  | updateSubscriptions =>
      obtain ⟨uuid, old, node, trigger, hEvent, rfl⟩ := hCases
      refine ⟨by rw [hEvent]; rfl, rfl, fun side address => ?_⟩
      cases side with
      | publisher => exact EntityTable.topicName_updateMatched _ _ _ _
      | subscription => rfl
  | updatePublishers =>
      obtain ⟨uuid, old, node, trigger, hEvent, rfl⟩ := hCases
      refine ⟨by rw [hEvent]; rfl, rfl, fun side address => ?_⟩
      cases side with
      | publisher => rfl
      | subscription => exact EntityTable.topicName_updateMatched _ _ _ _
  | notify =>
      obtain ⟨trigger, hEvent, rfl⟩ := hCases
      refine ⟨by rw [hEvent]; rfl, rfl, fun side address => ?_⟩
      cases side <;> cases trigger <;> rfl
  | newEntity | failEntity | register | unregister | deleteEntity | discover => exact hUpdate.elim

omit [DecidableEq ι] in
/-- The next section of an event can always be run. -/
theorem MatchState.exists_update {t : MatchState} (hBusy : t.event ≠ .idle) :
    ∃ action t', action.IsUpdate ∧ t.step action = some t' := by
  cases hEvent : t.event with
  | idle => exact absurd hEvent hBusy
  | beforeSubscriptions => exact ⟨.updateSubscriptions, _, trivial, by rw [step, hEvent]⟩
  | beforePublishers => exact ⟨.updatePublishers, _, trivial, by rw [step, hEvent]⟩
  | beforeNotify => exact ⟨.notify, _, trivial, by rw [step, hEvent]⟩

/-- Discovery changes neither the nodes nor which entities there are. -/
structure MatchNetwork.SameEntities (s s' : MatchNetwork ι) : Prop where
  nodes : s.network.SameNodes s'.network
  entities : ∀ j, (s.matchState j).SameEntities (s'.matchState j)

omit [DpsCbor] [DecidableEq ι] in
theorem MatchNetwork.SameEntities.refl (s : MatchNetwork ι) : s.SameEntities s :=
  ⟨⟨rfl, rfl, rfl, rfl⟩, fun _ => ⟨rfl, fun _ _ => rfl⟩⟩

theorem sameEntities_of_discovery {t t' : MatchNetwork ι} {event : MatchEvent ι}
    (hSame : s.SameEntities t) (hDiscovery : event.IsDiscovery)
    (hStep : MatchNetworkStep parties t event t') : s.SameEntities t' := by
  have hOne : ∀ (j : ι) (u : MatchState), (t.matchState j).SameEntities u →
      ∀ k, (s.matchState k).SameEntities ((t.setMatchState j u).matchState k) := by
    intro j u hNode k
    have hBefore := hSame.entities k
    rw [MatchNetwork.matchState_setMatchState]
    split_ifs with hNodes
    · subst hNodes
      exact ⟨hNode.phase.trans hBefore.phase,
        fun side address => (hNode.topicName side address).trans (hBefore.topicName side address)⟩
    · exact hBefore
  cases hStep with
  | network => exact hDiscovery.elim
  | @deliver i j payload u hRunning hNext hSection =>
      have hNode : (t.matchState j).SameEntities u := by
        obtain ⟨-, rfl | ⟨announced, rfl⟩⟩ := MatchState.step_cases hSection
        · exact ⟨rfl, fun _ _ => rfl⟩
        · exact ⟨rfl, fun side _ => by cases side <;> rfl⟩
      exact ⟨hSame.nodes.trans ⟨rfl, rfl, rfl, rfl⟩, hOne j u hNode⟩
  | @act j action u hLocal hSection =>
      exact ⟨hSame.nodes.trans ⟨rfl, rfl, rfl, rfl⟩,
        hOne j u (MatchState.step_update hDiscovery hSection).2⟩

omit [DpsCbor] [DecidableEq ι] in
theorem MatchEvent.IsDiscovery.allowed {event : MatchEvent ι} (hDiscovery : event.IsDiscovery)
    (s : MatchNetwork ι) : event.Allowed s := by
  cases event with
  | network => exact hDiscovery.elim
  | deliver => trivial
  | act j action =>
      cases action with
      | updateSubscriptions | updatePublishers | notify => trivial
      | newEntity | failEntity | register | unregister | deleteEntity | discover =>
          exact hDiscovery.elim

/-- What is left to do: four sections for each payload on its way, and those of the events
that have begun. -/
def MatchNetwork.work (s : MatchNetwork ι) (writers : Finset ι) : Nat :=
  4 * s.network.dps.pending (writers ×ˢ s.network.running) + ∑ j ∈ writers, (s.event j).left

omit [DpsCbor] in
/-- A change of the event of one node changes its summand. -/
theorem MatchNetwork.sum_left_setMatchState {writers : Finset ι} {j : ι} (hMem : j ∈ writers)
    (t : MatchState) :
    ∑ k ∈ writers, ((s.setMatchState j t).event k).left + (s.event j).left =
      ∑ k ∈ writers, (s.event k).left + t.event.left := by
  have hOthers : ∑ k ∈ writers.erase j, ((s.setMatchState j t).event k).left =
      ∑ k ∈ writers.erase j, (s.event k).left := by
    refine Finset.sum_congr rfl fun k hOther => ?_
    simp [setMatchState, Finset.ne_of_mem_erase hOther]
  have hOwn : ((s.setMatchState j t).event j).left = t.event.left := by
    simp [setMatchState]
  rw [← Finset.sum_erase_add _ _ hMem, ← Finset.sum_erase_add writers _ hMem, hOthers, hOwn]
  omega

omit [DpsCbor] in
/-- One payload less is worth the three sections that are left of its event. -/
theorem MatchNetwork.work_deliver_lt {writers : Finset ι} {i j : ι} (hSender : i ∈ writers)
    (hListener : j ∈ writers) (hRunning : j ∈ s.network.running)
    (hInFlight : (s.network.dps.links i j).inFlight ≠ []) (t : MatchState) :
    ((s.setMatchState j t).deliverDps i j).work writers < s.work writers := by
  have hPending : (s.network.dps.deliver i j).pending (writers ×ˢ s.network.running) <
      s.network.dps.pending (writers ×ˢ s.network.running) :=
    Registers.pending_deliver_lt (Finset.mk_mem_product hSender hRunning) hInFlight
  have hEvent : t.event.left ≤ 3 := by
    cases t.event <;> simp [EventPhase.left]
  have hSum := sum_left_setMatchState (s := s) hListener t
  show 4 * (s.network.dps.deliver i j).pending (writers ×ˢ s.network.running) +
    ∑ k ∈ writers, ((s.setMatchState j t).event k).left < _
  unfold work
  omega

omit [DpsCbor] in
/-- So is every section. -/
theorem MatchNetwork.work_act_lt {writers : Finset ι} {j : ι} (hListener : j ∈ writers)
    {t : MatchState} (hLess : t.event.left < (s.event j).left) :
    (s.setMatchState j t).work writers < s.work writers := by
  have hSum := sum_left_setMatchState (s := s) hListener t
  show 4 * s.network.dps.pending (writers ×ˢ s.network.running) +
    ∑ k ∈ writers, ((s.setMatchState j t).event k).left < _
  unfold work
  omega

omit [DecidableEq ι] in
theorem NetworkInv.mem_writers {n : Network ι} (hInv : NetworkInv parties n)
    (hWriters : n.FewWriters) {i : ι} (hSpoken : n.said i ≠ []) : i ∈ hWriters.toFinset := by
  refine hWriters.mem_toFinset.mpr fun hSilent => hSpoken ?_
  have hLength := (hInv.tells i).length_eq
  rw [hSilent, List.length_nil] at hLength
  exact List.length_eq_zero_iff.mp hLength.symm

variable [DpsCbor.Lawful]

theorem MatchNetworkInv.discovery {t t' : MatchNetwork ι} {event : MatchEvent ι}
    (hBefore : MatchNetworkInv parties t ∧ s.SameEntities t) (hDiscovery : event.IsDiscovery)
    (hStep : MatchNetworkStep parties t event t') :
    MatchNetworkInv parties t' ∧ s.SameEntities t' :=
  ⟨hBefore.1.step (hDiscovery.allowed t) hStep,
    sameEntities_of_discovery hBefore.2 hDiscovery hStep⟩

/-- Discovery comes to an end by itself. -/
theorem MatchNetworkInv.discovery_terminates (hInv : MatchNetworkInv parties s) :
    (matchNetworkMachine parties).Terminates (fun _ event => event.IsDiscovery) s := by
  have hWriters := fewWriters_of_reachable hInv.network
  have hLess : ∀ t event t', (MatchNetworkInv parties t ∧ s.SameEntities t) →
      MatchEvent.IsDiscovery event → MatchNetworkStep parties t event t' →
      (MatchNetworkInv parties t' ∧ s.SameEntities t') ∧
        t'.work hWriters.toFinset < t.work hWriters.toFinset := by
    rintro t event t' hBefore hDiscovery hStep
    refine ⟨MatchNetworkInv.discovery hBefore hDiscovery hStep, ?_⟩
    obtain ⟨hInvT, hSame⟩ := hBefore
    have hNetwork := networkInv_of_reachable hInvT.network
    have hWriter : ∀ k, t.network.said k ≠ [] → k ∈ hWriters.toFinset := by
      intro k hSpoken
      refine (networkInv_of_reachable hInv.network).mem_writers hWriters ?_
      rwa [← hSame.nodes.said]
    cases hStep with
    | network => exact hDiscovery.elim
    | @deliver i j payload u hRunning hNext hSection =>
        have hInFlight := Registers.inFlight_ne_nil hNext
        have hSender : i ∈ hWriters.toFinset := by
          refine hWriters.mem_toFinset.mpr fun hSilent => hInFlight ?_
          refine hNetwork.current.inFlight_eq_nil ?_
          rwa [hSame.nodes.history]
        have hListener : j ∈ hWriters.toFinset := by
          obtain ⟨entities, hLast⟩ := (hNetwork.running j).mp hRunning
          refine hWriter j fun hSilent => ?_
          rw [hSilent] at hLast
          cases hLast
        exact MatchNetwork.work_deliver_lt hSender hListener hRunning hInFlight u
    | @act j action u hLocal hSection =>
        obtain ⟨hLeft, -⟩ := MatchState.step_update hDiscovery hSection
        have hEvent : (t.matchState j).event = t.event j := rfl
        rw [hEvent] at hLeft
        have hBusy : t.event j ≠ .idle := by
          intro hIdle
          rw [hIdle] at hLeft
          cases hLeft
        exact MatchNetwork.work_act_lt (hWriter j (hInvT.spoken j hBusy)) (by omega)
  exact Machine.terminates_of_measure _ hLess ⟨hInv, .refl s⟩

/-- Where it has ended, nothing is on its way to a running node, and no event has begun. -/
theorem MatchNetworkInv.at_rest (hInv : MatchNetworkInv parties s)
    (hStuck : (matchNetworkMachine parties).Stuck (fun _ event => event.IsDiscovery) s) {j : ι}
    (hRunning : j ∈ s.network.running) : s.network.dps.Settled j ∧ s.event j = .idle := by
  have hIdle : s.event j = .idle := by
    by_contra hBusy
    obtain ⟨action, t, hUpdate, hSection⟩ := MatchState.exists_update (t := s.matchState j) hBusy
    have hLocal : action.IsLocal := by
      cases action with
      | discover => exact hUpdate.elim
      | _ => trivial
    exact hStuck (.act j action) _ hUpdate (.act hLocal hSection)
  refine ⟨fun i => ?_, hIdle⟩
  have hNetwork := networkInv_of_reachable hInv.network
  by_contra hInFlight
  obtain ⟨payload, hNext⟩ := hNetwork.current.exists_next hInFlight
  obtain ⟨t, hSection⟩ : ∃ t, (s.matchState j).step (.discover (parties.uuid i) payload) =
      some t := by
    have hEvent : (s.matchState j).event = .idle := hIdle
    simp only [MatchState.step, hEvent, if_true]
    cases decodePayload payload <;> exact ⟨_, rfl⟩
  exact hStuck (.deliver i j) _ trivial (.deliver hRunning hNext hSection)

/-- **Discovery matches.**  From every state of a run in which entities register while no
node lists their topic throughout the event in progress, discovery comes to an end by
itself, whatever the order of its sections; and where it has ended, each entity of each
running node has been matched with the running nodes that list a peer on its topic, and
their number is its count. -/
theorem discovery_matches
    (hReachable : (matchNetworkMachine parties).ReachableIf MatchEvent.Allowed s) :
    (matchNetworkMachine parties).Terminates (fun _ event => event.IsDiscovery) s ∧
    ∀ s', (matchNetworkMachine parties).StepsIf (fun _ event => event.IsDiscovery) s s' →
      (matchNetworkMachine parties).Stuck (fun _ event => event.IsDiscovery) s' →
      ∀ j ∈ s.network.running, ∀ side address info, s.phase j side address = some .live →
        ((s.network.listeners j).table side).infos address = some info →
        ((s'.network.listeners j).table side).infos address = some (info.setMatched
          ((s.network.peersOn side info.topicName).image parties.uuid)) ∧
        (s'.network.listeners j).countMatched side address =
          some (s.network.peersOn side info.topicName).card := by
  have hInv := matchNetworkInv_of_reachable hReachable
  refine ⟨hInv.discovery_terminates,
    fun s' hSteps hStuck j hRunning side address info hLive hInfo => ?_⟩
  obtain ⟨hInv', hSame⟩ := hSteps.preserves
    (fun _ _ _ hBefore hDiscovery hStep => MatchNetworkInv.discovery hBefore hDiscovery hStep)
    ⟨hInv, .refl s⟩
  have hLive' : s'.phase j side address = some .live :=
    (congrFun₂ (hSame.entities j).phase side address).trans hLive
  obtain ⟨info', hInfo', -⟩ := ((hInv'.entities j).entity side address).allocated _ hLive'
  have hTopic : info'.topicName = info.topicName := by
    have hBoth := (hSame.entities j).topicName side address
    rw [hInfo', MatchNetwork.matchState, hInfo] at hBoth
    exact Option.some.inj hBoth
  obtain ⟨hSettled, hIdle⟩ := hInv'.at_rest hStuck (by rwa [hSame.nodes.running])
  obtain ⟨hMatched, hCount⟩ := hInv'.matched_eq hSettled hIdle hLive' hInfo'
  -- The nodes have said nothing new in the meantime.
  have hPeers : s'.network.peersOn side info'.topicName =
      s.network.peersOn side info.topicName := by
    unfold Network.peersOn Network.lastSaid
    rw [hSame.nodes.running, hSame.nodes.said, hTopic]
  rw [hPeers] at hMatched hCount
  have hCached : (s'.network.listeners j).countMatched side address =
      some info'.matchedCount := by
    cases side <;> exact congrArg (Option.map EntityInfo.matchedCount) hInfo'
  refine ⟨hInfo'.trans (congrArg some ?_), hCached.trans (congrArg some hCount)⟩
  obtain ⟨topicName, matched, matchedCount⟩ := info'
  obtain rfl : matched = _ := hMatched
  obtain rfl : topicName = info.topicName := hTopic
  obtain rfl : matchedCount = _ := hCount
  rw [EntityInfo.setMatched, Finset.card_image_of_injective _ parties.uuid_injective]

end Rest

/-! ## A subscription that waits for its publisher -/

section TwoNodes

/-- What a network does apart from its listeners it does with any entities. -/
theorem MatchNetwork.steps_of_network [DpsCbor] {ι : Type} [DecidableEq ι]
    {parties : Participants ι} (s : MatchNetwork ι) {network' : Network ι}
    (hSteps : (networkMachine parties).StepsIf
      (fun n event => event.Plain n ∧ event.LeavesListeners) s.network network') :
    (matchNetworkMachine parties).StepsIf MatchEvent.Allowed s { s with network := network' } := by
  induction hSteps with
  | refl => exact .refl
  | @tail n n' _ hLast ih =>
      obtain ⟨event, ⟨hPlain, hLeaves⟩, hStep⟩ := hLast
      exact ih.tail ⟨.network event, hPlain, .network hLeaves hStep⟩

local instance matchCbor : DpsCbor := rfcCbor

local instance matchCbor_lawful : DpsCbor.Lawful := rfcCbor_lawful

/-- Two nodes have started, one of them with a publisher, and the other one creates a
subscription before it has heard of it. -/
theorem one_talks_one_listens :
    ∃ s : MatchNetwork Bool, (matchNetworkMachine twoNodes).ReachableIf MatchEvent.Allowed s ∧
      s.network.running = {true, false} ∧ s.network.lastSaid false = [talker] ∧
      s.network.lastSaid true = [] ∧ s.phase true .subscription 0 = some .live ∧
      ((s.network.listeners true).subscribers.infos 0).map EntityInfo.topicName =
        some (bytesOf "/t") := by
  obtain ⟨n, hSteps, hRunning, hTalker, hFresh, hListeners⟩ := one_talks_undelivered
  let quietEntities : MatchNetwork Bool :=
    { network := quiet, phase := fun _ _ _ => none, event := fun _ => .idle }
  have hQuiet : quietEntities.Initial twoNodes := ⟨quiet_initial, fun _ => rfl⟩
  have hTalks : (matchNetworkMachine twoNodes).ReachableIf MatchEvent.Allowed
      { quietEntities with network := n } :=
    Machine.ReachableIf.steps (.init hQuiet) (quietEntities.steps_of_network
      (hSteps.mono fun _ _ hAllowed => ⟨hAllowed.1.1, hAllowed.2⟩))
  obtain ⟨-, hUpToDate⟩ := upToDate_of_reachable
    ((Machine.ReachableIf.init quiet_initial).steps (hSteps.mono fun _ _ hAllowed => hAllowed.1))
  have hLast : ∀ i, n.lastSaid i = (n.nodes i).live := by
    intro i
    rw [Network.lastSaid, (hUpToDate i (by rw [hRunning]; cases i <;> simp)).2]
  -- The subscription is allocated, and registered while the map is empty.
  let waiting : MatchState := (MatchState.start 0).setEntity .subscription 0
    ((MatchState.start 0).impl.subscribers.allocate 0 (EntityInfo.new (bytesOf "/t")))
    (some .creating)
  have hNew : MatchState.step (MatchNetwork.matchState { quietEntities with network := n } true)
      (.newEntity .subscription 0 (bytesOf "/t")) = some waiting := by
    simp only [MatchNetwork.matchState, hListeners]
    rfl
  have hAllowed : MatchEvent.Allowed { quietEntities with network := n }
      (.act true (.newEntity .subscription 0 (bytesOf "/t"))) := trivial
  have hCreating := hTalks.step hAllowed (.act trivial hNew)
  have hState : (MatchNetwork.setMatchState { quietEntities with network := n } true
      waiting).matchState true = waiting := by
    rw [MatchNetwork.matchState_setMatchState, if_pos rfl]
  have hRegister : waiting.step (.register .subscription 0) =
      some (waiting.setEntity .subscription 0
        (waiting.impl.subscribers.register (bytesOf "/t") 0) (some .live)) := rfl
  rw [← hState] at hRegister
  have hUnlisted : MatchEvent.Allowed
      (MatchNetwork.setMatchState { quietEntities with network := n } true waiting)
      (.act true (.register .subscription 0)) := by
    intro info _ uuid
    rw [hState]
    rintro ⟨-, hListed⟩
    exact List.not_mem_nil hListed
  refine ⟨_, hCreating.step hUnlisted (.act trivial hRegister), hRunning,
    (hLast false).trans hTalker, (hLast true).trans hFresh, rfl, rfl⟩

/-- When discovery has ended, the subscription has one publisher. -/
theorem one_listens_matched :
    ∃ s : MatchNetwork Bool, (s.network.listeners true).countMatchedPublishers 0 = some 1 := by
  obtain ⟨s, hReachable, hRunning, hTalker, hFresh, hLive, hTopic⟩ := one_talks_one_listens
  obtain ⟨info, hInfo, hName⟩ := Option.map_eq_some_iff.mp hTopic
  obtain ⟨hTerminates, hMatches⟩ := discovery_matches hReachable
  obtain ⟨s', hSteps, hStuck⟩ := hTerminates.exists_stuck
  obtain ⟨-, hCount⟩ := hMatches s' hSteps hStuck true (by simp [hRunning]) .subscription 0 info
    hLive hInfo
  have hPeers : s.network.peersOn .subscription info.topicName = {false} := by
    rw [hName]
    ext i
    cases i <;> simp [Network.peersOn, hRunning, hTalker, hFresh, liveOn, Side.peerTopic, talker,
      Entity.publisherTopic]
  rw [hPeers, Finset.card_singleton] at hCount
  exact ⟨s', hCount⟩

end TwoNodes

end Discovery
end RmwDps
