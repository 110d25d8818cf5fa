import RmwDps.Discovery.NodeInfo
import RmwDps.Foundation.Transition
import RmwDps.Serialization.RfcCbor

/-!
# Local entities and discovery events

The sections of `rmw_create_publisher`, `rmw_create_subscription`, their
destroy functions and `onDiscovery`, interleaved in any order.  Events are
serialized among themselves; any number of create and destroy calls can be in
progress between two sections of an event.

A create function does not look at the map of discovered nodes.  What it misses
is made up for by an event only if the event adds the topic to those of a node or
takes it away, so a matched set is right as long as no node lists the topic both
before and after the event in progress when the entity is registered.
-/

namespace RmwDps
namespace Discovery

open Serialization
open Transition (Machine)

/-- Publishers match subscribers, and subscriptions match publishers. -/
inductive Side
  | publisher
  | subscription
  deriving DecidableEq, Repr

/-- The topics of a node that the entities of a side are matched with. -/
def Side.peers : Side → Node → List Topic
  | .publisher, node => node.subscribers
  | .subscription, node => node.publishers

def CustomNodeInfo.table (impl : CustomNodeInfo) : Side → EntityTable
  | .publisher => impl.publishers
  | .subscription => impl.subscribers

def CustomNodeInfo.setTable (impl : CustomNodeInfo) (side : Side) (table : EntityTable) :
    CustomNodeInfo :=
  match side with
  | .publisher => { impl with publishers := table }
  | .subscription => { impl with subscribers := table }

/-! ## Sections -/

/-- How far the life of an info has come: allocated by a create function that has
not registered it, registered, or unregistered by a destroy function that has
not deleted it. -/
inductive Phase
  | creating
  | live
  | destroying
  deriving DecidableEq, Repr

/-- Where `onDiscovery` stands: outside, or in front of one of its last three
sections. -/
inductive EventPhase
  | idle
  | beforeSubscriptions (uuid : StdString) (old node : Node) (trigger : Bool)
  | beforePublishers (uuid : StdString) (old node : Node) (trigger : Bool)
  | beforeNotify (trigger : Bool)
  deriving DecidableEq, Repr

structure MatchState where
  impl : CustomNodeInfo
  phase : Side → Nat → Option Phase
  event : EventPhase

def MatchState.start (domainId : Nat) : MatchState where
  impl := CustomNodeInfo.new domainId
  phase := fun _ _ => none
  event := .idle

/-- The sections.  `newEntity`, `failEntity` and `register` belong to the create
functions, `unregister` and `deleteEntity` to the destroy functions, the other
four to `onDiscovery`. -/
inductive Action
  | newEntity (side : Side) (address : Nat) (topicName : StdString)
  | failEntity (side : Side) (address : Nat)
  | register (side : Side) (address : Nat)
  | unregister (side : Side) (address : Nat)
  | deleteEntity (side : Side) (address : Nat)
  | discover (uuid : StdString) (payload : List UInt8)
  | updateSubscriptions
  | updatePublishers
  | notify

def MatchState.setPhase (s : MatchState) (side : Side) (address : Nat) (phase : Option Phase) :
    Side → Nat → Option Phase :=
  Function.update s.phase side (Function.update (s.phase side) address phase)

/-- Replace the table of a side and the phase of one address. -/
def MatchState.setEntity (s : MatchState) (side : Side) (address : Nat) (table : EntityTable)
    (phase : Option Phase) : MatchState :=
  { s with impl := s.impl.setTable side table, phase := s.setPhase side address phase }

/-- The state after a section, if the section can run. -/
def MatchState.step [DpsCbor] (s : MatchState) : Action → Option MatchState
  | .newEntity side address topicName =>
      if s.phase side address = none then
        some (s.setEntity side address
          ((s.impl.table side).allocate address (EntityInfo.new topicName)) (some .creating))
      else none
  | .failEntity side address =>
      if s.phase side address = some .creating then
        some (s.setEntity side address ((s.impl.table side).delete address) none)
      else none
  | .register side address =>
      match s.phase side address, (s.impl.table side).infos address with
      | some .creating, some info =>
          some (s.setEntity side address
            ((s.impl.table side).register info.topicName address) (some .live))
      | _, _ => none
  | .unregister side address =>
      match s.phase side address, (s.impl.table side).infos address with
      | some .live, some info =>
          some (s.setEntity side address
            ((s.impl.table side).unregister info.topicName address) (some .destroying))
      | _, _ => none
  | .deleteEntity side address =>
      if s.phase side address = some .destroying then
        some (s.setEntity side address ((s.impl.table side).delete address) none)
      else none
  | .discover uuid payload =>
      if s.event = .idle then
        match decodePayload payload with
        | .ok announced =>
            let (old, trigger, nodes) := s.impl.discoveredNodes.update uuid announced
            some { s with
              impl := { s.impl with discoveredNodes := nodes }
              event := .beforeSubscriptions uuid old (announced.getD {}) trigger }
        | .error _ => some s
      else none
  | .updateSubscriptions =>
      match s.event with
      | .beforeSubscriptions uuid old node trigger =>
          some { s with
            impl := s.impl.updateSubscriptions uuid old node
            event := .beforePublishers uuid old node trigger }
      | _ => none
  | .updatePublishers =>
      match s.event with
      | .beforePublishers uuid old node trigger =>
          some { s with
            impl := s.impl.updatePublishers uuid old node
            event := .beforeNotify trigger }
      | _ => none
  | .notify =>
      match s.event with
      | .beforeNotify trigger => some { s with impl := s.impl.notify trigger, event := .idle }
      | _ => none

def matchMachine [DpsCbor] (domainId : Nat) : Machine MatchState Action :=
  Machine.ofFunction (MatchState.start domainId) MatchState.step

/-- What each section needs and does. -/
theorem MatchState.step_cases [DpsCbor] {s s' : MatchState} {action : Action}
    (hStep : s.step action = some s') :
    match action with
    | .newEntity side address topicName =>
        s.phase side address = none ∧
          s' = s.setEntity side address
            ((s.impl.table side).allocate address (EntityInfo.new topicName)) (some .creating)
    | .failEntity side address =>
        s.phase side address = some .creating ∧
          s' = s.setEntity side address ((s.impl.table side).delete address) none
    | .register side address =>
        ∃ info, s.phase side address = some .creating ∧
          (s.impl.table side).infos address = some info ∧
          s' = s.setEntity side address
            ((s.impl.table side).register info.topicName address) (some .live)
    | .unregister side address =>
        ∃ info, s.phase side address = some .live ∧
          (s.impl.table side).infos address = some info ∧
          s' = s.setEntity side address
            ((s.impl.table side).unregister info.topicName address) (some .destroying)
    | .deleteEntity side address =>
        s.phase side address = some .destroying ∧
          s' = s.setEntity side address ((s.impl.table side).delete address) none
    | .discover uuid _ =>
        s.event = .idle ∧ (s' = s ∨ ∃ announced,
          s' = { s with
            impl := { s.impl with
              discoveredNodes := (s.impl.discoveredNodes.update uuid announced).2.2 }
            event := .beforeSubscriptions uuid (s.impl.discoveredNodes.update uuid announced).1
              (announced.getD {}) (s.impl.discoveredNodes.update uuid announced).2.1 })
    | .updateSubscriptions =>
        ∃ uuid old node trigger, s.event = .beforeSubscriptions uuid old node trigger ∧
          s' = { s with
            impl := s.impl.updateSubscriptions uuid old node
            event := .beforePublishers uuid old node trigger }
    | .updatePublishers =>
        ∃ uuid old node trigger, s.event = .beforePublishers uuid old node trigger ∧
          s' = { s with
            impl := s.impl.updatePublishers uuid old node
            event := .beforeNotify trigger }
    | .notify =>
        ∃ trigger, s.event = .beforeNotify trigger ∧
          s' = { s with impl := s.impl.notify trigger, event := .idle } := by
  cases action with
  | newEntity side address topicName =>
      simp only [step, Option.ite_none_right_eq_some, Option.some.injEq] at hStep
      exact ⟨hStep.1, hStep.2.symm⟩
  | failEntity side address =>
      simp only [step, Option.ite_none_right_eq_some, Option.some.injEq] at hStep
      exact ⟨hStep.1, hStep.2.symm⟩
  | register side address =>
      simp only [step] at hStep
      split at hStep
      · next info hPhase hInfo => exact ⟨info, hPhase, hInfo, (Option.some.inj hStep).symm⟩
      · exact nomatch hStep
  | unregister side address =>
      simp only [step] at hStep
      split at hStep
      · next info hPhase hInfo => exact ⟨info, hPhase, hInfo, (Option.some.inj hStep).symm⟩
      · exact nomatch hStep
  | deleteEntity side address =>
      simp only [step, Option.ite_none_right_eq_some, Option.some.injEq] at hStep
      exact ⟨hStep.1, hStep.2.symm⟩
  | discover uuid payload =>
      simp only [step, Option.ite_none_right_eq_some] at hStep
      obtain ⟨hIdle, hStep⟩ := hStep
      split at hStep
      · next announced _ => exact ⟨hIdle, .inr ⟨announced, (Option.some.inj hStep).symm⟩⟩
      · exact ⟨hIdle, .inl (Option.some.inj hStep).symm⟩
  | updateSubscriptions =>
      simp only [step] at hStep
      split at hStep
      · next hEvent => exact ⟨_, _, _, _, hEvent, (Option.some.inj hStep).symm⟩
      · exact nomatch hStep
  | updatePublishers =>
      simp only [step] at hStep
      split at hStep
      · next hEvent => exact ⟨_, _, _, _, hEvent, (Option.some.inj hStep).symm⟩
      · exact nomatch hStep
  | notify =>
      simp only [step] at hStep
      split at hStep
      · next hEvent => exact ⟨_, hEvent, (Option.some.inj hStep).symm⟩
      · exact nomatch hStep

/-! ## What is to hold -/

/-- No create or destroy function and no event is in progress. -/
def MatchState.Quiescent (s : MatchState) : Prop :=
  s.event = .idle ∧
    ∀ side address phase, s.phase side address = some phase → phase = .live

/-- Every live entity has matched exactly the uuids whose node lists a peer on
its topic, and its cached count is their number. -/
def MatchState.MatchedExactly (s : MatchState) : Prop :=
  ∀ side address info, s.phase side address = some .live →
    (s.impl.table side).infos address = some info →
    (∀ uuid, uuid ∈ info.matched ↔ ∃ node, s.impl.discoveredNodes[uuid]? = some node ∧
      ∃ topic ∈ side.peers node, topic.topic = info.topicName) ∧
    info.matchedCount = info.matched.card

/-- The topics of a peer that the matched sets of a side stand for: those in the
map, or while an event has not updated the side, those before the event. -/
def MatchState.known (s : MatchState) (side : Side) (uuid : StdString) : Node :=
  match s.event, side with
  | .beforeSubscriptions peer old _ _, _ =>
      if uuid = peer then old else s.impl.discoveredNodes[uuid]?.getD {}
  | .beforePublishers peer old _ _, .subscription =>
      if uuid = peer then old else s.impl.discoveredNodes[uuid]?.getD {}
  | _, _ => s.impl.discoveredNodes[uuid]?.getD {}

/-- What the nodes of a map list for the entities of a side. -/
def DiscoveredNodes.topicsOf (nodes : DiscoveredNodes) (side : Side) (uuid : StdString) :
    List Topic :=
  side.peers (nodes[uuid]?.getD {})

/-- The topic is among those of the node that the matched sets of the side stand for. -/
def MatchState.KnownOn (s : MatchState) (side : Side) (uuid topicName : StdString) : Prop :=
  topicName ∈ topicNames (side.peers (s.known side uuid))

/-- The topic is among those of the node in the map. -/
def MatchState.ListedOn (s : MatchState) (side : Side) (uuid topicName : StdString) : Prop :=
  topicName ∈ topicNames (s.impl.discoveredNodes.topicsOf side uuid)

/-- No node lists the topic both before and after the event in progress, or in the map
while the side is not in the middle of one. -/
def MatchState.Unlisted (s : MatchState) (side : Side) (topicName : StdString) : Prop :=
  ∀ uuid, ¬ (s.KnownOn side uuid topicName ∧ s.ListedOn side uuid topicName)

/-- An entity is registered only when no node lists its topic throughout the event in
progress; every other section may run at any time. -/
def RegistersUnlisted (s : MatchState) : Action → Prop
  | .register side address =>
      ∀ info, (s.impl.table side).infos address = some info → s.Unlisted side info.topicName
  | _ => True

/-! ## The invariant -/

/-- What is true of one address of one side.  A topic that the event in progress adds to
those of a node, or takes away, is left to the section of the event. -/
structure EntityInv (s : MatchState) (side : Side) (address : Nat) : Prop where
  allocated : ∀ phase, s.phase side address = some phase →
    ∃ info, (s.impl.table side).infos address = some info ∧
      info.matchedCount = info.matched.card
  fresh : s.phase side address = some .creating → ∀ info,
    (s.impl.table side).infos address = some info → info.matched = ∅
  unregistered : s.phase side address ≠ some .live → (s.impl.table side).Unregistered address
  registered : s.phase side address = some .live → ∀ info,
    (s.impl.table side).infos address = some info →
    (s.impl.table side).RegisteredAt address info.topicName
  matched : s.phase side address = some .live → ∀ info,
    (s.impl.table side).infos address = some info →
    ∀ uuid, (s.KnownOn side uuid info.topicName ↔ s.ListedOn side uuid info.topicName) →
      (uuid ∈ info.matched ↔ s.KnownOn side uuid info.topicName)

/-- The node an event carries is the one in the map. -/
def EventInv (s : MatchState) : Prop :=
  match s.event with
  | .beforeSubscriptions uuid _ node _ | .beforePublishers uuid _ node _ =>
      s.impl.discoveredNodes[uuid]?.getD {} = node
  | _ => True

structure MatchInv (s : MatchState) : Prop where
  event : EventInv s
  entity : ∀ side address, EntityInv s side address

/-! ## Tables -/

@[simp] theorem CustomNodeInfo.table_setTable (impl : CustomNodeInfo) (side : Side)
    (table : EntityTable) : (impl.setTable side table).table side = table := by
  cases side <;> rfl

theorem CustomNodeInfo.table_setTable_of_ne {impl : CustomNodeInfo} {side other : Side}
    (table : EntityTable) (hOther : other ≠ side) :
    (impl.setTable side table).table other = impl.table other := by
  cases side <;> cases other <;> first | rfl | exact absurd rfl hOther

@[simp] theorem CustomNodeInfo.discoveredNodes_setTable (impl : CustomNodeInfo) (side : Side)
    (table : EntityTable) : (impl.setTable side table).discoveredNodes = impl.discoveredNodes := by
  cases side <;> rfl

/-- A table operation that leaves every other address as it was. -/
structure TouchesOnly (table table' : EntityTable) (address : Nat) : Prop where
  infos : ∀ other ≠ address, table'.infos other = table.infos other
  registered : ∀ other ≠ address, ∀ topic,
    other ∈ table'.registered topic ↔ other ∈ table.registered topic

section Touches

variable (table : EntityTable) (address : Nat) (topicName : StdString)

theorem EntityTable.allocate_touchesOnly (info : EntityInfo) :
    TouchesOnly table (table.allocate address info) address where
  infos _ hOther := Function.update_of_ne hOther _ _
  registered _ _ _ := Iff.rfl

theorem EntityTable.delete_touchesOnly : TouchesOnly table (table.delete address) address where
  infos _ hOther := Function.update_of_ne hOther _ _
  registered _ _ _ := Iff.rfl

theorem EntityTable.mem_register {other : Nat} {topic : StdString} :
    other ∈ (table.register topicName address).registered topic ↔
      (topic = topicName ∧ other = address) ∨ other ∈ table.registered topic := by
  unfold register
  by_cases hTopic : topic = topicName
  · subst hTopic
    simp
  · simp [hTopic]

theorem EntityTable.mem_unregister {other : Nat} {topic : StdString} :
    other ∈ (table.unregister topicName address).registered topic ↔
      ¬ (topic = topicName ∧ other = address) ∧ other ∈ table.registered topic := by
  unfold unregister
  by_cases hTopic : topic = topicName
  · subst hTopic
    simp
  · simp [hTopic]

theorem EntityTable.register_touchesOnly :
    TouchesOnly table (table.register topicName address) address where
  infos _ _ := rfl
  registered _ hOther _ := by simp [mem_register, hOther]

theorem EntityTable.unregister_touchesOnly :
    TouchesOnly table (table.unregister topicName address) address where
  infos _ _ := rfl
  registered _ hOther _ := by simp [mem_unregister, hOther]

end Touches

/-! ## Whole events -/

section Announce

variable (impl : CustomNodeInfo) (uuid : StdString) (announced : Option Node)

@[simp] theorem CustomNodeInfo.domainId_announce :
    (impl.announce uuid announced).domainId = impl.domainId := by
  simp only [announce, notify]
  split_ifs <;> rfl

/-- An event updates the tables of both sides, from what the map lists before it to
what the map lists after it. -/
theorem CustomNodeInfo.table_announce (side : Side) :
    (impl.announce uuid announced).table side =
      (impl.table side).updateMatched uuid (impl.discoveredNodes.topicsOf side uuid)
        ((impl.announce uuid announced).discoveredNodes.topicsOf side uuid) := by
  have hOld : impl.discoveredNodes.topicsOf side uuid =
      side.peers (impl.discoveredNodes.update uuid announced).1 := by
    rw [DiscoveredNodes.update_old]
    rfl
  have hNew : (impl.announce uuid announced).discoveredNodes.topicsOf side uuid =
      side.peers (announced.getD {}) := by
    rw [DiscoveredNodes.topicsOf, discoveredNodes_announce, DiscoveredNodes.getElem?_update,
      if_pos rfl]
  rw [hOld, hNew]
  cases side <;> simp only [announce, notify] <;> split_ifs <;> rfl

theorem CustomNodeInfo.getElem?_announce (peer : StdString) :
    (impl.announce uuid announced).discoveredNodes[peer]? =
      if peer = uuid then announced else impl.discoveredNodes[peer]? := by
  rw [discoveredNodes_announce, DiscoveredNodes.getElem?_update]

theorem CustomNodeInfo.topicsOf_announce_of_ne (side : Side) (peer : StdString)
    (hPeer : peer ≠ uuid) :
    (impl.announce uuid announced).discoveredNodes.topicsOf side peer =
      impl.discoveredNodes.topicsOf side peer := by
  rw [DiscoveredNodes.topicsOf, getElem?_announce, if_neg hPeer]
  rfl

end Announce

/-! ## Preservation -/

section Preservation

variable {s s' : MatchState} {side : Side} {address : Nat}

/-- The invariant of an address reads its phase, its info, its registrations, the
known topics of its side, and which of them an event changes. -/
theorem EntityInv.frame_of_steady (hInv : EntityInv s side address)
    (hPhase : s'.phase side address = s.phase side address)
    (hInfo : (s'.impl.table side).infos address = (s.impl.table side).infos address)
    (hRegistered : ∀ topic, address ∈ (s'.impl.table side).registered topic ↔
      address ∈ (s.impl.table side).registered topic)
    (hKnown : ∀ uuid, s'.known side uuid = s.known side uuid)
    (hSteady : ∀ uuid topicName,
      (s'.KnownOn side uuid topicName ↔ s'.ListedOn side uuid topicName) →
        (s.KnownOn side uuid topicName ↔ s.ListedOn side uuid topicName)) :
    EntityInv s' side address where
  allocated phase h := by
    rw [hInfo]
    exact hInv.allocated phase (hPhase ▸ h)
  fresh h info hInfo' := hInv.fresh (hPhase ▸ h) info (hInfo ▸ hInfo')
  unregistered h topic := by
    rw [hRegistered]
    exact hInv.unregistered (hPhase ▸ h) topic
  registered h info hInfo' topic := by
    rw [hRegistered]
    exact hInv.registered (hPhase ▸ h) info (hInfo ▸ hInfo') topic
  matched h info hInfo' uuid hSame := by
    rw [MatchState.KnownOn, hKnown]
    exact hInv.matched (hPhase ▸ h) info (hInfo ▸ hInfo') uuid (hSteady uuid _ hSame)

/-- Where the map stays as it is, so does what an event changes. -/
theorem MatchState.steady_of_map (hKnown : ∀ uuid, s'.known side uuid = s.known side uuid)
    (hMap : s'.impl.discoveredNodes = s.impl.discoveredNodes) (uuid topicName : StdString)
    (hSame : s'.KnownOn side uuid topicName ↔ s'.ListedOn side uuid topicName) :
    s.KnownOn side uuid topicName ↔ s.ListedOn side uuid topicName := by
  rwa [KnownOn, ListedOn, hKnown, hMap] at hSame

theorem EntityInv.frame (hInv : EntityInv s side address)
    (hPhase : s'.phase side address = s.phase side address)
    (hInfo : (s'.impl.table side).infos address = (s.impl.table side).infos address)
    (hRegistered : ∀ topic, address ∈ (s'.impl.table side).registered topic ↔
      address ∈ (s.impl.table side).registered topic)
    (hMap : s'.impl.discoveredNodes = s.impl.discoveredNodes)
    (hKnown : ∀ uuid, s'.known side uuid = s.known side uuid) : EntityInv s' side address :=
  hInv.frame_of_steady hPhase hInfo hRegistered hKnown (MatchState.steady_of_map hKnown hMap)

section SetEntity

variable {table : EntityTable} {phase : Option Phase}

@[simp] theorem MatchState.phase_setEntity :
    (s.setEntity side address table phase).phase side address = phase := by
  simp [setEntity, setPhase]

theorem MatchState.phase_setEntity_of_ne {other : Side} {otherAddress : Nat}
    (hOther : ¬ (other = side ∧ otherAddress = address)) :
    (s.setEntity side address table phase).phase other otherAddress =
      s.phase other otherAddress := by
  by_cases hSide : other = side
  · subst hSide
    have hAddress : otherAddress ≠ address := fun h => hOther ⟨rfl, h⟩
    simp [setEntity, setPhase, hAddress]
  · simp [setEntity, setPhase, hSide]

@[simp] theorem MatchState.table_setEntity :
    (s.setEntity side address table phase).impl.table side = table :=
  CustomNodeInfo.table_setTable s.impl side table

@[simp] theorem MatchState.known_setEntity (other : Side) (uuid : StdString) :
    (s.setEntity side address table phase).known other uuid = s.known other uuid := by
  simp [known, setEntity]

@[simp] theorem MatchState.discoveredNodes_setEntity :
    (s.setEntity side address table phase).impl.discoveredNodes = s.impl.discoveredNodes := by
  simp [setEntity]

/-- A section about one entity has to re-establish the invariant of that entity
only. -/
theorem MatchInv.setEntity (hInv : MatchInv s)
    (hTouches : TouchesOnly (s.impl.table side) table address)
    (hEntity : EntityInv (s.setEntity side address table phase) side address) :
    MatchInv (s.setEntity side address table phase) where
  event := by
    have hEvent := hInv.event
    simpa only [EventInv, MatchState.setEntity, CustomNodeInfo.discoveredNodes_setTable] using
      hEvent
  entity other otherAddress := by
    by_cases hSame : other = side ∧ otherAddress = address
    · obtain ⟨rfl, rfl⟩ := hSame
      exact hEntity
    · refine (hInv.entity other otherAddress).frame (MatchState.phase_setEntity_of_ne hSame)
        ?_ ?_ MatchState.discoveredNodes_setEntity (MatchState.known_setEntity other)
      -- For the other entities the side may be the touched one or not.
      all_goals by_cases hSide : other = side
      · subst hSide
        have hAddress : otherAddress ≠ address := fun h => hSame ⟨rfl, h⟩
        rw [MatchState.table_setEntity]
        exact hTouches.infos _ hAddress
      · simp only [MatchState.setEntity, CustomNodeInfo.table_setTable_of_ne table hSide]
      · subst hSide
        have hAddress : otherAddress ≠ address := fun h => hSame ⟨rfl, h⟩
        rw [MatchState.table_setEntity]
        exact hTouches.registered _ hAddress
      · simp only [MatchState.setEntity, CustomNodeInfo.table_setTable_of_ne table hSide,
          implies_true]

end SetEntity

/-- A section of an event that updates one side keeps the invariant of the side's
entities: what a live one matched for the old node, it matches for the new. -/
theorem EntityInv.updateMatched {uuid : StdString} {old node : Node}
    (hInv : EntityInv s side address) (hPhase : s'.phase side address = s.phase side address)
    (hTable : s'.impl.table side =
      (s.impl.table side).updateMatched uuid (side.peers old) (side.peers node))
    (hOld : s.known side uuid = old) (hNode : s'.known side uuid = node)
    (hMap : s'.impl.discoveredNodes = s.impl.discoveredNodes)
    (hEntry : s.impl.discoveredNodes[uuid]?.getD {} = node)
    (hKnown : ∀ peer ≠ uuid, s'.known side peer = s.known side peer) :
    EntityInv s' side address := by
  by_cases hLive : s.phase side address = some .live
  · obtain ⟨info, hInfo, hCount⟩ := hInv.allocated _ hLive
    have hRegistered := hInv.registered hLive info hInfo
    have hInfo' : (s'.impl.table side).infos address =
        some (info.rematch uuid (side.peers old) (side.peers node)) := by
      rw [hTable]
      exact EntityTable.infos_updateMatched uuid _ _ hInfo hRegistered
    -- A live info is registered under its topic, so the section reaches it.
    have hUnique : ∀ info', (s'.impl.table side).infos address = some info' →
        info' = info.rematch uuid (side.peers old) (side.peers node) :=
      fun info' h => Option.some.inj (h.symm.trans hInfo')
    refine ⟨fun phase _ => ⟨_, hInfo', EntityInfo.rematch_matchedCount hCount⟩, ?_, ?_, ?_, ?_⟩
    · intro hCreating
      rw [hPhase, hLive] at hCreating
      cases hCreating
    · intro hNotLive
      exact absurd (hPhase.trans hLive) hNotLive
    · intro _ info' h topic
      rw [hUnique info' h, EntityInfo.rematch_topicName, hTable,
        EntityTable.registered_updateMatched]
      exact hRegistered topic
    · intro _ info' h peer
      rw [hUnique info' h, EntityInfo.rematch_topicName]
      have hBefore := hInv.matched hLive info hInfo peer
      by_cases hPeer : peer = uuid
      · subst hPeer
        intro _
        simp only [MatchState.KnownOn, MatchState.ListedOn, DiscoveredNodes.topicsOf, hOld,
          hEntry] at hBefore
        rw [MatchState.KnownOn, hNode]
        exact EntityInfo.mem_rematch_self hBefore
      · simp only [MatchState.KnownOn, MatchState.ListedOn, hMap, hKnown peer hPeer]
        rw [EntityInfo.mem_rematch_of_ne hPeer]
        exact hBefore
  -- Any other info is not registered, and the section passes it by.
  · have hUnregistered := hInv.unregistered hLive
    have hInfo : (s'.impl.table side).infos address = (s.impl.table side).infos address := by
      rw [hTable]
      exact EntityTable.infos_updateMatched_of_unregistered uuid _ _ hUnregistered
    refine ⟨?_, ?_, ?_, ?_, ?_⟩
    · rw [hInfo, hPhase]
      exact hInv.allocated
    · rw [hInfo, hPhase]
      exact hInv.fresh
    · intro _ topic
      rw [hTable, EntityTable.registered_updateMatched]
      exact hUnregistered topic
    · intro hLive'
      exact absurd (hPhase.symm.trans hLive') hLive
    · intro hLive'
      exact absurd (hPhase.symm.trans hLive') hLive

end Preservation

/-! ## Sections of create and destroy functions -/

section Sections

variable {s : MatchState} {side : Side} {address : Nat}

theorem MatchInv.newEntity (hInv : MatchInv s) (hPhase : s.phase side address = none)
    (topicName : StdString) :
    MatchInv (s.setEntity side address
      ((s.impl.table side).allocate address (EntityInfo.new topicName)) (some .creating)) := by
  have hNotLive : s.phase side address ≠ some .live := by simp [hPhase]
  refine hInv.setEntity (EntityTable.allocate_touchesOnly _ _ _) ⟨?_, ?_, ?_, ?_, ?_⟩
  · intro phase _
    exact ⟨EntityInfo.new topicName, by simp [EntityTable.allocate], rfl⟩
  · intro _ info hInfo
    rw [MatchState.table_setEntity] at hInfo
    have hNew : EntityInfo.new topicName = info := by simpa [EntityTable.allocate] using hInfo
    exact hNew ▸ rfl
  · intro _ topic
    rw [MatchState.table_setEntity]
    exact (hInv.entity side address).unregistered hNotLive topic
  · simp
  · simp

/-- Deleting an info that is not registered: the end of a destroy function, or of
a create function that failed. -/
theorem MatchInv.delete (hInv : MatchInv s) (hNotLive : s.phase side address ≠ some .live) :
    MatchInv (s.setEntity side address ((s.impl.table side).delete address) none) := by
  refine hInv.setEntity (EntityTable.delete_touchesOnly _ _) ⟨?_, ?_, ?_, ?_, ?_⟩
  · simp
  · simp
  · intro _ topic
    rw [MatchState.table_setEntity]
    exact (hInv.entity side address).unregistered hNotLive topic
  · simp
  · simp

/-- An info that matches nothing may be registered while no node lists its topic throughout. -/
theorem MatchInv.register (hInv : MatchInv s) {info : EntityInfo}
    (hPhase : s.phase side address = some .creating)
    (hInfo : (s.impl.table side).infos address = some info)
    (hUnlisted : s.Unlisted side info.topicName) :
    MatchInv (s.setEntity side address ((s.impl.table side).register info.topicName address)
      (some .live)) := by
  have hEntity := hInv.entity side address
  have hUnique : ∀ info', ((s.impl.table side).register info.topicName address).infos address =
      some info' → info' = info := fun info' h => Option.some.inj (h.symm.trans hInfo)
  have hUnregistered := hEntity.unregistered (by simp [hPhase])
  -- The info still has the empty set that it was allocated with.
  have hEmpty := hEntity.fresh hPhase info hInfo
  refine hInv.setEntity (EntityTable.register_touchesOnly _ _ _) ⟨?_, ?_, ?_, ?_, ?_⟩
  · intro phase _
    obtain ⟨info', hInfo', hCount⟩ := hEntity.allocated _ hPhase
    rw [MatchState.table_setEntity]
    exact ⟨info', hInfo', hCount⟩
  · simp
  · simp
  · intro _ info' hInfo' topic
    rw [MatchState.table_setEntity] at hInfo' ⊢
    rw [hUnique info' hInfo', EntityTable.mem_register]
    simp [hUnregistered topic]
  · intro _ info' hInfo' uuid hSame
    rw [MatchState.table_setEntity] at hInfo'
    have hSame := MatchState.steady_of_map (MatchState.known_setEntity side)
      MatchState.discoveredNodes_setEntity uuid _ hSame
    rw [hUnique info' hInfo'] at hSame ⊢
    rw [MatchState.KnownOn, MatchState.known_setEntity, hEmpty]
    -- A topic that is known is listed as well, so it is not known.
    exact iff_of_false (Finset.notMem_empty uuid) fun hKnown =>
      hUnlisted uuid ⟨hKnown, hSame.mp hKnown⟩

theorem MatchInv.unregister (hInv : MatchInv s) {info : EntityInfo}
    (hPhase : s.phase side address = some .live)
    (hInfo : (s.impl.table side).infos address = some info) :
    MatchInv (s.setEntity side address ((s.impl.table side).unregister info.topicName address)
      (some .destroying)) := by
  have hEntity := hInv.entity side address
  have hRegistered := hEntity.registered hPhase info hInfo
  refine hInv.setEntity (EntityTable.unregister_touchesOnly _ _ _) ⟨?_, ?_, ?_, ?_, ?_⟩
  · intro phase _
    obtain ⟨info', hInfo', hCount⟩ := hEntity.allocated _ hPhase
    rw [MatchState.table_setEntity]
    exact ⟨info', hInfo', hCount⟩
  · simp
  · intro _ topic
    rw [MatchState.table_setEntity, EntityTable.mem_unregister]
    rintro ⟨hElsewhere, hMem⟩
    exact hElsewhere ⟨(hRegistered topic).mp hMem, rfl⟩
  · simp
  · simp

/-! ## Sections of events -/

/-- The section under `mutex_` changes the map, but not what the matched sets
stand for: it remembers the old node. -/
theorem MatchInv.discover (hInv : MatchInv s) (hIdle : s.event = .idle) (uuid : StdString)
    (announced : Option Node) :
    MatchInv { s with
      impl := { s.impl with discoveredNodes := (s.impl.discoveredNodes.update uuid announced).2.2 }
      event := .beforeSubscriptions uuid (s.impl.discoveredNodes.update uuid announced).1
        (announced.getD {}) (s.impl.discoveredNodes.update uuid announced).2.1 } where
  event := by
    simp only [EventInv, DiscoveredNodes.getElem?_update, if_true]
  entity side address := by
    refine (hInv.entity side address).frame_of_steady rfl (by cases side <;> rfl)
      (fun _ => by cases side <;> rfl) (fun peer => ?_) fun peer topicName _ => ?_
    · simp only [MatchState.known, hIdle, DiscoveredNodes.update_old,
        DiscoveredNodes.getElem?_update]
      split_ifs with hPeer
      · rw [hPeer]
      · rfl
    -- Before the event the matched sets stand for the map.
    · simp only [MatchState.KnownOn, MatchState.ListedOn, MatchState.known, hIdle,
        DiscoveredNodes.topicsOf]

theorem MatchInv.updateSubscriptions (hInv : MatchInv s) {uuid : StdString} {old node : Node}
    {trigger : Bool} (hEvent : s.event = .beforeSubscriptions uuid old node trigger) :
    MatchInv { s with
      impl := s.impl.updateSubscriptions uuid old node
      event := .beforePublishers uuid old node trigger } where
  event := by
    have hMap := hInv.event
    simpa only [EventInv, hEvent, CustomNodeInfo.updateSubscriptions] using hMap
  entity side address := by
    have hMap : s.impl.discoveredNodes[uuid]?.getD {} = node := by
      have hMap := hInv.event
      simpa only [EventInv, hEvent] using hMap
    cases side with
    | publisher =>
        refine (hInv.entity .publisher address).updateMatched rfl rfl ?_ ?_ rfl hMap ?_
        · simp [MatchState.known, hEvent]
        · exact hMap
        · intro peer hPeer
          simp [MatchState.known, hEvent, hPeer, CustomNodeInfo.updateSubscriptions]
    | subscription =>
        refine (hInv.entity .subscription address).frame rfl rfl (fun _ => Iff.rfl) rfl
          fun peer => ?_
        simp [MatchState.known, hEvent, CustomNodeInfo.updateSubscriptions]

theorem MatchInv.updatePublishers (hInv : MatchInv s) {uuid : StdString} {old node : Node}
    {trigger : Bool} (hEvent : s.event = .beforePublishers uuid old node trigger) :
    MatchInv { s with
      impl := s.impl.updatePublishers uuid old node
      event := .beforeNotify trigger } where
  event := trivial
  entity side address := by
    have hMap : s.impl.discoveredNodes[uuid]?.getD {} = node := by
      have hMap := hInv.event
      simpa only [EventInv, hEvent] using hMap
    cases side with
    | publisher =>
        refine (hInv.entity .publisher address).frame rfl rfl (fun _ => Iff.rfl) rfl fun peer => ?_
        simp [MatchState.known, hEvent, CustomNodeInfo.updatePublishers]
    | subscription =>
        refine (hInv.entity .subscription address).updateMatched rfl rfl ?_ ?_ rfl hMap ?_
        · simp [MatchState.known, hEvent]
        · exact hMap
        · intro peer hPeer
          simp [MatchState.known, hEvent, hPeer, CustomNodeInfo.updatePublishers]

theorem MatchInv.notify (hInv : MatchInv s) {trigger : Bool}
    (hEvent : s.event = .beforeNotify trigger) :
    MatchInv { s with impl := s.impl.notify trigger, event := .idle } where
  event := trivial
  entity side address := by
    have hImpl : ∀ other, (s.impl.notify trigger).table other = s.impl.table other := by
      intro other
      cases trigger <;> cases other <;> rfl
    have hNodes : (s.impl.notify trigger).discoveredNodes = s.impl.discoveredNodes := by
      cases trigger <;> rfl
    refine (hInv.entity side address).frame rfl (by rw [hImpl]) (fun _ => by rw [hImpl]) hNodes
      fun peer => ?_
    simp [MatchState.known, hEvent, hNodes]

end Sections

/-! ## Runs -/

section Runs

variable [DpsCbor]

omit [DpsCbor] in
theorem MatchInv.start (domainId : Nat) : MatchInv (MatchState.start domainId) where
  event := trivial
  entity side address := by
    refine ⟨?_, ?_, ?_, ?_, ?_⟩
    · intro phase hPhase
      cases hPhase
    · intro hPhase
      cases hPhase
    · intro _ topic
      cases side <;> exact Finset.notMem_empty address
    · intro hPhase
      cases hPhase
    · intro hPhase
      cases hPhase

/-- Every section keeps the invariant; only registering asks for a condition. -/
theorem MatchInv.step {s s' : MatchState} {action : Action} (hInv : MatchInv s)
    (hAllowed : RegistersUnlisted s action) (hStep : s.step action = some s') : MatchInv s' := by
  have hCases := MatchState.step_cases hStep
  cases action with
  | newEntity side address topicName =>
      obtain ⟨hPhase, rfl⟩ := hCases
      exact hInv.newEntity hPhase topicName
  | failEntity side address =>
      obtain ⟨hPhase, rfl⟩ := hCases
      exact hInv.delete (by simp [hPhase])
  | register side address =>
      obtain ⟨info, hPhase, hInfo, rfl⟩ := hCases
      exact hInv.register hPhase hInfo (hAllowed info hInfo)
  | unregister side address =>
      obtain ⟨info, hPhase, hInfo, rfl⟩ := hCases
      exact hInv.unregister hPhase hInfo
  | deleteEntity side address =>
      obtain ⟨hPhase, rfl⟩ := hCases
      exact hInv.delete (by simp [hPhase])
  | discover uuid payload =>
      obtain ⟨hIdle, rfl | ⟨announced, rfl⟩⟩ := hCases
      · exact hInv
      · exact hInv.discover hIdle uuid announced
  | updateSubscriptions =>
      obtain ⟨uuid, old, node, trigger, hEvent, rfl⟩ := hCases
      exact hInv.updateSubscriptions hEvent
  | updatePublishers =>
      obtain ⟨uuid, old, node, trigger, hEvent, rfl⟩ := hCases
      exact hInv.updatePublishers hEvent
  | notify =>
      obtain ⟨trigger, hEvent, rfl⟩ := hCases
      exact hInv.notify hEvent

theorem MatchInv.of_reachable {domainId : Nat} {s : MatchState}
    (hReachable : (matchMachine domainId).ReachableIf RegistersUnlisted s) : MatchInv s := by
  refine hReachable.invariant ?_ ?_
  · rintro _ rfl
    exact MatchInv.start domainId
  · intro s action s' hInv hAllowed hStep
    exact hInv.step hAllowed hStep

omit [DpsCbor] in
/-- Between operations the invariant is the claim of the cached counts. -/
theorem MatchInv.matchedExactly {s : MatchState} (hInv : MatchInv s) (hIdle : s.event = .idle) :
    s.MatchedExactly := by
  intro side address info hLive hInfo
  have hEntity := hInv.entity side address
  obtain ⟨info', hInfo', hCount⟩ := hEntity.allocated _ hLive
  obtain rfl : info = info' := Option.some.inj (hInfo.symm.trans hInfo')
  refine ⟨fun uuid => ?_, hCount⟩
  have hKnown : s.known side uuid = s.impl.discoveredNodes[uuid]?.getD {} := by
    simp only [MatchState.known, hIdle]
  have hSame : s.KnownOn side uuid info.topicName ↔ s.ListedOn side uuid info.topicName := by
    rw [MatchState.KnownOn, hKnown]
    rfl
  rw [hEntity.matched hLive info hInfo uuid hSame, MatchState.KnownOn, mem_topicNames, hKnown]
  cases s.impl.discoveredNodes[uuid]? with
  | none => cases side <;> simp [Side.peers]
  | some node => simp

/-- In a run that registers entities only on topics that no node lists throughout the event
in progress, all matched sets and counts are exact whenever nothing is in progress. -/
theorem matchedExactly_of_registersUnlisted {domainId : Nat} {s : MatchState}
    (hReachable : (matchMachine domainId).ReachableIf RegistersUnlisted s)
    (hQuiescent : s.Quiescent) : s.MatchedExactly :=
  (MatchInv.of_reachable hReachable).matchedExactly hQuiescent.1

end Runs

/-! ## One publisher before and one after its peer -/

/-- A payload with one subscriber on `/t`, and the node it describes. -/
def peerPayload : List UInt8 := 0x81 :: 0x78 :: 27 :: bytesOf "subscriber&topic=/t&types=T"

def peer : Node := { subscribers := [{ topic := bytesOf "/t", types := [bytesOf "T"] }] }

def createPublisher : List Action :=
  [.newEntity .publisher 0 (bytesOf "/t"), .register .publisher 0]

def discoverPeer : List Action :=
  [.discover [] peerPayload, .updateSubscriptions, .updatePublishers, .notify]

/-- The state after a run from the start, with the RFC 7049 primitives. -/
def stateAfter (actions : List Action) : MatchState :=
  Transition.after (@MatchState.step rfcCbor) (MatchState.start 0) actions

theorem quiescent_of_one_publisher {s : MatchState} (hEvent : s.event = .idle)
    (hPublisher : ∀ address, s.phase .publisher address =
      if address = 0 then some .live else none)
    (hSubscription : ∀ address, s.phase .subscription address = none) : s.Quiescent := by
  refine ⟨hEvent, fun side address phase hPhase => ?_⟩
  cases side with
  | publisher =>
      rw [hPublisher] at hPhase
      split at hPhase
      · exact (Option.some.inj hPhase).symm
      · cases hPhase
  | subscription =>
      rw [hSubscription] at hPhase
      cases hPhase

/-- The publisher is registered while no node is known. -/
theorem early_reachable : (@matchMachine rfcCbor 0).ReachableIf RegistersUnlisted
    (stateAfter (createPublisher ++ discoverPeer)) := by
  let _ := rfcCbor
  have hCreating : (matchMachine 0).ReachableIf RegistersUnlisted
      (stateAfter [.newEntity .publisher 0 (bytesOf "/t")]) :=
    .step (e := .newEntity .publisher 0 (bytesOf "/t")) (.init rfl) trivial rfl
  have hUnlisted : RegistersUnlisted (stateAfter [.newEntity .publisher 0 (bytesOf "/t")])
      (.register .publisher 0) := by
    rintro info - uuid ⟨-, hListed⟩
    exact List.not_mem_nil hListed
  have hLive : (matchMachine 0).ReachableIf RegistersUnlisted (stateAfter createPublisher) :=
    .step hCreating hUnlisted rfl
  have hMapped : (matchMachine 0).ReachableIf RegistersUnlisted
      (stateAfter (createPublisher ++ discoverPeer.take 1)) :=
    .step (e := .discover [] peerPayload) hLive trivial rfl
  have hSubscriptions : (matchMachine 0).ReachableIf RegistersUnlisted
      (stateAfter (createPublisher ++ discoverPeer.take 2)) :=
    .step (e := .updateSubscriptions) hMapped trivial rfl
  have hPublishers : (matchMachine 0).ReachableIf RegistersUnlisted
      (stateAfter (createPublisher ++ discoverPeer.take 3)) :=
    .step (e := .updatePublishers) hSubscriptions trivial rfl
  exact .step (e := .notify) hPublishers trivial rfl

/-- The peer takes its leave, and the publisher is registered before the event that says so
has come to the matched sets. -/
def createDuringLeave : List Action :=
  discoverPeer ++ [.newEntity .publisher 0 (bytesOf "/t"), .discover [] [], .register .publisher 0]

theorem duringLeave_reachable : (@matchMachine rfcCbor 0).ReachableIf RegistersUnlisted
    (stateAfter (createDuringLeave ++ [.updateSubscriptions, .updatePublishers, .notify])) := by
  let _ := rfcCbor
  have hPeer : (matchMachine 0).ReachableIf RegistersUnlisted (stateAfter discoverPeer) := by
    have hMapped : (matchMachine 0).ReachableIf RegistersUnlisted
        (stateAfter (discoverPeer.take 1)) :=
      .step (e := .discover [] peerPayload) (.init rfl) trivial rfl
    have hSubscriptions : (matchMachine 0).ReachableIf RegistersUnlisted
        (stateAfter (discoverPeer.take 2)) :=
      .step (e := .updateSubscriptions) hMapped trivial rfl
    have hPublishers : (matchMachine 0).ReachableIf RegistersUnlisted
        (stateAfter (discoverPeer.take 3)) :=
      .step (e := .updatePublishers) hSubscriptions trivial rfl
    exact .step (e := .notify) hPublishers trivial rfl
  have hCreating : (matchMachine 0).ReachableIf RegistersUnlisted
      (stateAfter (createDuringLeave.take 5)) :=
    .step (e := .newEntity .publisher 0 (bytesOf "/t")) hPeer trivial rfl
  have hLeaving : (matchMachine 0).ReachableIf RegistersUnlisted
      (stateAfter (createDuringLeave.take 6)) :=
    .step (e := .discover [] []) hCreating trivial rfl
  -- The set still stands for the peer, but the map has lost it.
  have hUnlisted : RegistersUnlisted (stateAfter (createDuringLeave.take 6))
      (.register .publisher 0) := by
    rintro info - uuid ⟨-, hListed⟩
    have hMap : (stateAfter (createDuringLeave.take 6)).impl.discoveredNodes =
        ((∅ : DiscoveredNodes).insert [] peer).erase [] := rfl
    have hGone : (stateAfter (createDuringLeave.take 6)).impl.discoveredNodes[uuid]? = none := by
      rw [hMap, Std.ExtTreeMap.getElem?_erase, Std.ExtTreeMap.getElem?_insert]
      split_ifs <;> simp
    rw [MatchState.ListedOn, DiscoveredNodes.topicsOf, hGone] at hListed
    exact List.not_mem_nil hListed
  have hLive : (matchMachine 0).ReachableIf RegistersUnlisted (stateAfter createDuringLeave) :=
    .step hLeaving hUnlisted rfl
  have hSubscriptions : (matchMachine 0).ReachableIf RegistersUnlisted
      (stateAfter (createDuringLeave ++ [.updateSubscriptions])) :=
    .step (e := .updateSubscriptions) hLive trivial rfl
  have hPublishers : (matchMachine 0).ReachableIf RegistersUnlisted
      (stateAfter (createDuringLeave ++ [.updateSubscriptions, .updatePublishers])) :=
    .step (e := .updatePublishers) hSubscriptions trivial rfl
  exact .step (e := .notify) hPublishers trivial rfl

theorem one_publisher_phases (address : Nat) :
    (stateAfter createPublisher).phase .publisher address =
      if address = 0 then some .live else none := by
  by_cases h : address = 0
  · subst h
    rfl
  · rw [if_neg h]
    exact (Function.update_of_ne h _ _).trans (Function.update_of_ne h _ _)

theorem early_matchedExactly :
    (stateAfter (createPublisher ++ discoverPeer)).MatchedExactly ∧
      (stateAfter (createDuringLeave ++
        [.updateSubscriptions, .updatePublishers, .notify])).MatchedExactly := by
  let _ := rfcCbor
  constructor
  · exact matchedExactly_of_registersUnlisted early_reachable
      (quiescent_of_one_publisher rfl one_publisher_phases fun _ => rfl)
  · exact matchedExactly_of_registersUnlisted duringLeave_reachable
      (quiescent_of_one_publisher rfl one_publisher_phases fun _ => rfl)

/-- The publisher is registered after its peer is known, and never matches it. -/
theorem late_not_matchedExactly :
    ∃ s, (@matchMachine rfcCbor 0).Reachable s ∧ s.Quiescent ∧ ¬ s.MatchedExactly := by
  let _ := rfcCbor
  refine ⟨stateAfter (discoverPeer ++ createPublisher), Machine.reachable_after _ _ _,
    quiescent_of_one_publisher rfl one_publisher_phases fun _ => rfl, fun hExact => ?_⟩
  have hMatched := (hExact .publisher 0 (EntityInfo.new (bytesOf "/t")) rfl rfl).1 []
  have hListed : [] ∈ (EntityInfo.new (bytesOf "/t")).matched :=
    hMatched.mpr ⟨peer, rfl, { topic := bytesOf "/t", types := [bytesOf "T"] },
      List.mem_cons_self, rfl⟩
  exact absurd hListed (Finset.notMem_empty _)

end Discovery
end RmwDps
