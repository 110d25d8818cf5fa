import RmwDps.Discovery.GraphQueries
import RmwDps.Discovery.Matching

/-!
# Nodes of other domains

What a node exposes about the graph after a run, and after the same run without the
discovery publications of other domains.  Data topics carry the domain id in their
DPS names.  Discovery does not: all nodes use one discovery service, the strings they
publish name no domain, and the listener looks at none.  So the two runs agree exactly
when all nodes of other domains have left.
-/

namespace RmwDps
namespace Discovery

open Serialization

/-! ## Runs -/

/-- The service id that `create_node` gives `DPS_CreateDiscoveryService`, for a node of
a domain. -/
def discoveryServiceId (_domainId : Nat) : StdString := bytesOf "ROS"

/-- What happens at a node: entities are created and destroyed, and a node with some
uuid makes a discovery publication. -/
inductive NodeOp
  | createEntity (side : Side) (address : Nat) (topicName : StdString)
  | destroyEntity (side : Side) (address : Nat)
  | publication (uuid : StdString) (payload : List UInt8)

/-- A node handles an operation.  A publication is delivered to the nodes whose
discovery service has the service id of the sender; the operation fails when
`onDiscovery` throws. -/
def CustomNodeInfo.perform [DpsCbor] (domainOf : StdString → Nat) (impl : CustomNodeInfo) :
    NodeOp → Option CustomNodeInfo
  | .createEntity side address topicName =>
      if (impl.table side).infos address = none then
        some (impl.setTable side
          (((impl.table side).allocate address (EntityInfo.new topicName)).register
            topicName address))
      else none
  | .destroyEntity side address =>
      match (impl.table side).infos address with
      | some info =>
          some (impl.setTable side
            (((impl.table side).unregister info.topicName address).delete address))
      | none => none
  | .publication uuid payload =>
      if discoveryServiceId (domainOf uuid) = discoveryServiceId impl.domainId then
        (onDiscovery impl uuid payload).toOption
      else some impl

/-- The node of a domain after a list of operations. -/
def CustomNodeInfo.afterOps [DpsCbor] (domainOf : StdString → Nat) (domainId : Nat)
    (ops : List NodeOp) : Option CustomNodeInfo :=
  ops.foldlM (CustomNodeInfo.perform domainOf) (CustomNodeInfo.new domainId)

/-- Not a publication of another domain. -/
def NodeOp.staysIn (domainOf : StdString → Nat) (domainId : Nat) : NodeOp → Bool
  | .publication uuid _ => domainOf uuid = domainId
  | _ => true

/-- Whether the last publication of a uuid had a payload, after one more operation. -/
def NodeOp.announces (uuid : StdString) (announced : Bool) : NodeOp → Bool
  | .publication peer payload => if peer = uuid then !payload.isEmpty else announced
  | _ => announced

/-- The last publication of a uuid has a payload: its node has announced itself, and
has not left since. -/
def stillAnnounced (uuid : StdString) (ops : List NodeOp) : Bool :=
  ops.foldl (NodeOp.announces uuid) false

/-! ## What a node exposes -/

/-- All that a caller can ask a node about the graph. -/
structure Exposed where
  nodeNames : List (StdString × StdString)
  publisherCount : StdString → Nat
  subscriberCount : StdString → Nat
  subscribersByNode : (StdString → StdString) → StdString → StdString → RmwNamesAndTypes
  publishersByNode : (StdString → StdString) → StdString → StdString → RmwNamesAndTypes
  servicesByNode : (StdString → StdString) → StdString → StdString → RmwNamesAndTypes
  clientsByNode : (StdString → StdString) → StdString → StdString → RmwNamesAndTypes
  topics : (StdString → StdString) → RmwNamesAndTypes
  services : (StdString → StdString) → RmwNamesAndTypes
  serviceAvailable : StdString → Option Bool
  matchedSubscriptions : Nat → Option Nat
  matchedPublishers : Nat → Option Nat

def CustomNodeInfo.exposed (impl : CustomNodeInfo) : Exposed where
  nodeNames := impl.rmwGetNodeNames
  publisherCount := impl.rmwCountPublishers
  subscriberCount := impl.rmwCountSubscribers
  subscribersByNode := impl.rmwGetSubscriberNamesAndTypesByNode
  publishersByNode := impl.rmwGetPublisherNamesAndTypesByNode
  servicesByNode := impl.rmwGetServiceNamesAndTypesByNode
  clientsByNode := impl.rmwGetClientNamesAndTypesByNode
  topics := impl.rmwGetTopicNamesAndTypes
  services := impl.rmwGetServiceNamesAndTypes
  serviceAvailable := impl.rmwServiceServerIsAvailable
  matchedSubscriptions := impl.countMatchedSubscriptions
  matchedPublishers := impl.countMatchedPublishers

/-- A node exposes what it would expose without the publications of other domains. -/
def DomainIsolated [DpsCbor] (domainOf : StdString → Nat) (domainId : Nat)
    (ops : List NodeOp) : Prop :=
  (CustomNodeInfo.afterOps domainOf domainId ops).map CustomNodeInfo.exposed =
    (CustomNodeInfo.afterOps domainOf domainId
      (ops.filter (NodeOp.staysIn domainOf domainId))).map CustomNodeInfo.exposed

/-! ## The relation between the two runs -/

section Relation

variable {home : StdString → Prop} {listed listed' : StdString → List Topic}

/-- An info in the full run and in the run without other domains.  In the full run,
what is matched is listed, which is why nothing stays behind when a node leaves. -/
structure InfoSim (home : StdString → Prop) (listed : StdString → List Topic)
    (info ownInfo : EntityInfo) : Prop where
  topicName : ownInfo.topicName = info.topicName
  matched : ∀ uuid, uuid ∈ ownInfo.matched ↔ uuid ∈ info.matched ∧ home uuid
  count : info.matchedCount = info.matched.card
  ownCount : ownInfo.matchedCount = ownInfo.matched.card
  listed : ∀ uuid ∈ info.matched, info.topicName ∈ topicNames (listed uuid)

/-- One address in the tables of the two runs. -/
def AddressSim (home : StdString → Prop) (listed : StdString → List Topic)
    (full own : EntityTable) (address : Nat) : Prop :=
  (full.infos address = none ∧ own.infos address = none ∧ full.Unregistered address) ∨
    ∃ info ownInfo, full.infos address = some info ∧ own.infos address = some ownInfo ∧
      full.RegisteredAt address info.topicName ∧ InfoSim home listed info ownInfo

structure TableSim (home : StdString → Prop) (listed : StdString → List Topic)
    (full own : EntityTable) : Prop where
  registered : own.registered = full.registered
  address : ∀ address, AddressSim home listed full own address

structure NodeSim (home : StdString → Prop) (full own : CustomNodeInfo) : Prop where
  domainId : own.domainId = full.domainId
  inside : ∀ uuid, home uuid → own.discoveredNodes[uuid]? = full.discoveredNodes[uuid]?
  outside : ∀ uuid, ¬ home uuid → own.discoveredNodes[uuid]? = none
  table : ∀ side, TableSim home (full.discoveredNodes.topicsOf side) (full.table side)
    (own.table side)

/-! ## Matched sets -/

theorem EntityInfo.listed_of_mem_rematch {info : EntityInfo} {uuid : StdString}
    {oldTopics newTopics : List Topic}
    (hOld : uuid ∈ info.matched → info.topicName ∈ topicNames oldTopics)
    (hMem : uuid ∈ (info.rematch uuid oldTopics newTopics).matched) :
    info.topicName ∈ topicNames newTopics := by
  unfold rematch at hMem
  split_ifs at hMem with hNew hListed hListed
  · exact hNew
  · exact hNew
  · simp [eraseMatched] at hMem
  · exact absurd (hOld hMem) hListed

theorem EntityInfo.mem_rematch_congr {info ownInfo : EntityInfo} {uuid : StdString}
    {oldTopics newTopics : List Topic} (hTopic : ownInfo.topicName = info.topicName)
    (hMatched : uuid ∈ ownInfo.matched ↔ uuid ∈ info.matched) :
    uuid ∈ (ownInfo.rematch uuid oldTopics newTopics).matched ↔
      uuid ∈ (info.rematch uuid oldTopics newTopics).matched := by
  unfold rematch
  rw [hTopic]
  split_ifs <;> simp [insertMatched, eraseMatched, hMatched]

section Rematch

variable {info ownInfo : EntityInfo} {uuid : StdString}

/-- What the infos list after an event is what they listed before, but for the uuid
of the event. -/
theorem InfoSim.listed_rematch (hSim : InfoSim home listed info ownInfo)
    (hListed : ∀ peer ≠ uuid, listed' peer = listed peer) :
    ∀ peer ∈ (info.rematch uuid (listed uuid) (listed' uuid)).matched,
      info.topicName ∈ topicNames (listed' peer) := by
  intro peer hPeer
  by_cases hSame : peer = uuid
  · subst hSame
    exact EntityInfo.listed_of_mem_rematch (hSim.listed peer) hPeer
  · rw [hListed peer hSame]
    exact hSim.listed peer ((EntityInfo.mem_rematch_of_ne hSame).mp hPeer)

/-- An event of the own domain, which both runs handle. -/
theorem InfoSim.rematch_both (hSim : InfoSim home listed info ownInfo) (hHome : home uuid)
    (hListed : ∀ peer ≠ uuid, listed' peer = listed peer) :
    InfoSim home listed' (info.rematch uuid (listed uuid) (listed' uuid))
      (ownInfo.rematch uuid (listed uuid) (listed' uuid)) where
  topicName := by simp [hSim.topicName]
  matched peer := by
    by_cases hSame : peer = uuid
    · subst hSame
      have hBefore : peer ∈ ownInfo.matched ↔ peer ∈ info.matched := by
        simp [hSim.matched peer, hHome]
      rw [EntityInfo.mem_rematch_congr hSim.topicName hBefore]
      simp [hHome]
    · rw [EntityInfo.mem_rematch_of_ne hSame, EntityInfo.mem_rematch_of_ne hSame]
      exact hSim.matched peer
  count := EntityInfo.rematch_matchedCount hSim.count
  ownCount := EntityInfo.rematch_matchedCount hSim.ownCount
  listed := by
    rw [EntityInfo.rematch_topicName]
    exact hSim.listed_rematch hListed

/-- An event of another domain, which only the full run handles. -/
theorem InfoSim.rematch_full (hSim : InfoSim home listed info ownInfo) (hForeign : ¬ home uuid)
    (hListed : ∀ peer ≠ uuid, listed' peer = listed peer) :
    InfoSim home listed' (info.rematch uuid (listed uuid) (listed' uuid)) ownInfo where
  topicName := by simp [hSim.topicName]
  matched peer := by
    by_cases hSame : peer = uuid
    · subst hSame
      simp [hSim.matched peer, hForeign]
    · rw [EntityInfo.mem_rematch_of_ne hSame]
      exact hSim.matched peer
  count := EntityInfo.rematch_matchedCount hSim.count
  ownCount := hSim.ownCount
  listed := by
    rw [EntityInfo.rematch_topicName]
    exact hSim.listed_rematch hListed

end Rematch

section Tables

variable {full own : EntityTable} {uuid : StdString}

theorem TableSim.updateMatched_both (hSim : TableSim home listed full own) (hHome : home uuid)
    (hListed : ∀ peer ≠ uuid, listed' peer = listed peer) :
    TableSim home listed' (full.updateMatched uuid (listed uuid) (listed' uuid))
      (own.updateMatched uuid (listed uuid) (listed' uuid)) where
  registered := by simp [hSim.registered]
  address address := by
    have hOwnAt : ∀ topicName, full.RegisteredAt address topicName →
        own.RegisteredAt address topicName := by
      intro topicName hRegistered topic
      rw [hSim.registered]
      exact hRegistered topic
    rcases hSim.address address with ⟨hNone, hOwnNone, hFree⟩ | ⟨info, ownInfo, hInfo, hOwnInfo,
      hRegistered, hInfoSim⟩
    -- An address that is free on one side is free on the other, and no update reaches it.
    · have hOwnFree : own.Unregistered address := by
        intro topic
        rw [hSim.registered]
        exact hFree topic
      left
      refine ⟨?_, ?_, ?_⟩
      · rw [EntityTable.infos_updateMatched_of_unregistered uuid _ _ hFree, hNone]
      · rw [EntityTable.infos_updateMatched_of_unregistered uuid _ _ hOwnFree, hOwnNone]
      · intro topic
        rw [EntityTable.registered_updateMatched]
        exact hFree topic
    · have hOwnRegistered : own.RegisteredAt address ownInfo.topicName := by
        rw [hInfoSim.topicName]
        exact hOwnAt _ hRegistered
      right
      refine ⟨_, _, EntityTable.infos_updateMatched uuid _ _ hInfo hRegistered,
        EntityTable.infos_updateMatched uuid _ _ hOwnInfo hOwnRegistered, ?_,
        hInfoSim.rematch_both hHome hListed⟩
      intro topic
      rw [EntityTable.registered_updateMatched, EntityInfo.rematch_topicName]
      exact hRegistered topic

theorem TableSim.updateMatched_full (hSim : TableSim home listed full own)
    (hForeign : ¬ home uuid) (hListed : ∀ peer ≠ uuid, listed' peer = listed peer) :
    TableSim home listed' (full.updateMatched uuid (listed uuid) (listed' uuid)) own where
  registered := by simp [hSim.registered]
  address address := by
    rcases hSim.address address with ⟨hNone, hOwnNone, hFree⟩ | ⟨info, ownInfo, hInfo, hOwnInfo,
      hRegistered, hInfoSim⟩
    · left
      refine ⟨?_, hOwnNone, ?_⟩
      · rw [EntityTable.infos_updateMatched_of_unregistered uuid _ _ hFree, hNone]
      · intro topic
        rw [EntityTable.registered_updateMatched]
        exact hFree topic
    · right
      refine ⟨_, ownInfo, EntityTable.infos_updateMatched uuid _ _ hInfo hRegistered, hOwnInfo,
        ?_, hInfoSim.rematch_full hForeign hListed⟩
      intro topic
      rw [EntityTable.registered_updateMatched, EntityInfo.rematch_topicName]
      exact hRegistered topic

end Tables

end Relation

/-! ## One operation -/

section Operations

variable {home : StdString → Prop} {full own : CustomNodeInfo}

theorem NodeSim.announce_both (hSim : NodeSim home full own) {uuid : StdString}
    (hHome : home uuid) (announced : Option Node) :
    NodeSim home (full.announce uuid announced) (own.announce uuid announced) where
  domainId := by simp [hSim.domainId]
  inside peer hPeer := by
    rw [CustomNodeInfo.getElem?_announce, CustomNodeInfo.getElem?_announce,
      hSim.inside peer hPeer]
  outside peer hPeer := by
    have hOther : peer ≠ uuid := fun h => hPeer (h ▸ hHome)
    rw [CustomNodeInfo.getElem?_announce, if_neg hOther]
    exact hSim.outside peer hPeer
  table side := by
    have hBefore : own.discoveredNodes.topicsOf side uuid =
        full.discoveredNodes.topicsOf side uuid := by
      rw [DiscoveredNodes.topicsOf, hSim.inside uuid hHome]
      rfl
    have hAfter : (own.announce uuid announced).discoveredNodes.topicsOf side uuid =
        (full.announce uuid announced).discoveredNodes.topicsOf side uuid := by
      simp only [DiscoveredNodes.topicsOf, CustomNodeInfo.getElem?_announce, if_pos]
    rw [CustomNodeInfo.table_announce, CustomNodeInfo.table_announce, hBefore, hAfter]
    exact (hSim.table side).updateMatched_both hHome
      (CustomNodeInfo.topicsOf_announce_of_ne full uuid announced side)

theorem NodeSim.announce_full (hSim : NodeSim home full own) {uuid : StdString}
    (hForeign : ¬ home uuid) (announced : Option Node) :
    NodeSim home (full.announce uuid announced) own where
  domainId := by simp [hSim.domainId]
  inside peer hPeer := by
    have hOther : peer ≠ uuid := fun h => hForeign (h ▸ hPeer)
    rw [CustomNodeInfo.getElem?_announce, if_neg hOther]
    exact hSim.inside peer hPeer
  outside := hSim.outside
  table side := by
    rw [CustomNodeInfo.table_announce]
    exact (hSim.table side).updateMatched_full hForeign
      (CustomNodeInfo.topicsOf_announce_of_ne full uuid announced side)

/-- Replacing the tables of one side in both runs. -/
theorem NodeSim.setTable (hSim : NodeSim home full own) {side : Side}
    {table ownTable : EntityTable}
    (hTable : TableSim home (full.discoveredNodes.topicsOf side) table ownTable) :
    NodeSim home (full.setTable side table) (own.setTable side ownTable) where
  domainId := by
    have hDomain : ∀ (impl : CustomNodeInfo) (table : EntityTable),
        (impl.setTable side table).domainId = impl.domainId := by
      intro impl table
      cases side <;> rfl
    rw [hDomain, hDomain]
    exact hSim.domainId
  inside uuid hHome := by simpa using hSim.inside uuid hHome
  outside uuid hForeign := by simpa using hSim.outside uuid hForeign
  table other := by
    rw [CustomNodeInfo.discoveredNodes_setTable]
    by_cases hSide : other = side
    · subst hSide
      simpa using hTable
    · rw [CustomNodeInfo.table_setTable_of_ne _ hSide, CustomNodeInfo.table_setTable_of_ne _ hSide]
      exact hSim.table other

section Tables

variable {listed : StdString → List Topic} {table ownTable : EntityTable} {address : Nat}

/-- A change of one address in both tables. -/
theorem TableSim.touch (hSim : TableSim home listed table ownTable)
    {table' ownTable' : EntityTable} (hTouches : TouchesOnly table table' address)
    (hOwnTouches : TouchesOnly ownTable ownTable' address)
    (hRegistered : ownTable'.registered = table'.registered)
    (hAddress : AddressSim home listed table' ownTable' address) :
    TableSim home listed table' ownTable' where
  registered := hRegistered
  address other := by
    -- Only the touched address is new; at every other one both tables are as they were.
    by_cases hSame : other = address
    · subst hSame
      exact hAddress
    · have hSame' := hTouches.registered other hSame
      rcases hSim.address other with ⟨hNone, hOwnNone, hFree⟩ | ⟨info, ownInfo, hInfo, hOwnInfo,
        hAt, hInfoSim⟩
      · left
        refine ⟨?_, ?_, ?_⟩
        · rw [hTouches.infos other hSame, hNone]
        · rw [hOwnTouches.infos other hSame, hOwnNone]
        · intro topic
          rw [hSame' topic]
          exact hFree topic
      · right
        refine ⟨info, ownInfo, ?_, ?_, ?_, hInfoSim⟩
        · rw [hTouches.infos other hSame, hInfo]
        · rw [hOwnTouches.infos other hSame, hOwnInfo]
        · intro topic
          rw [hSame' topic]
          exact hAt topic

theorem TouchesOnly.trans {table table' table'' : EntityTable}
    (hFirst : TouchesOnly table table' address) (hSecond : TouchesOnly table' table'' address) :
    TouchesOnly table table'' address where
  infos other hOther := by rw [hSecond.infos other hOther, hFirst.infos other hOther]
  registered other hOther topic := by
    rw [hSecond.registered other hOther, hFirst.registered other hOther]

theorem TableSim.create (hSim : TableSim home listed table ownTable)
    (hFree : table.infos address = none) (topicName : StdString) :
    ownTable.infos address = none ∧
      TableSim home listed
        ((table.allocate address (EntityInfo.new topicName)).register topicName address)
        ((ownTable.allocate address (EntityInfo.new topicName)).register topicName address) := by
  rcases hSim.address address with ⟨-, hOwnNone, hUnregistered⟩ | ⟨info, _, hInfo, _⟩
  · refine ⟨hOwnNone, hSim.touch
      ((EntityTable.allocate_touchesOnly _ _ _).trans (EntityTable.register_touchesOnly _ _ _))
      ((EntityTable.allocate_touchesOnly _ _ _).trans (EntityTable.register_touchesOnly _ _ _))
      ?_ ?_⟩
    · simp [EntityTable.register, EntityTable.allocate, hSim.registered]
    -- The new info matches nothing in either table, so the two are alike.
    · right
      refine ⟨EntityInfo.new topicName, EntityInfo.new topicName, ?_, ?_, ?_, ?_⟩
      · simp [EntityTable.register, EntityTable.allocate]
      · simp [EntityTable.register, EntityTable.allocate]
      · intro topic
        have hElsewhere : address ∉ (table.allocate address
            (EntityInfo.new topicName)).registered topic := hUnregistered topic
        rw [EntityTable.mem_register]
        constructor
        · rintro (⟨hTopic, -⟩ | hMem)
          · exact hTopic
          · exact absurd hMem hElsewhere
        · intro hTopic
          exact .inl ⟨hTopic, rfl⟩
      · constructor <;> simp [EntityInfo.new]
  · rw [hFree] at hInfo
    cases hInfo

theorem TableSim.destroy (hSim : TableSim home listed table ownTable) {info : EntityInfo}
    (hInfo : table.infos address = some info) :
    ∃ ownInfo, ownTable.infos address = some ownInfo ∧
      TableSim home listed ((table.unregister info.topicName address).delete address)
        ((ownTable.unregister ownInfo.topicName address).delete address) := by
  rcases hSim.address address with ⟨hNone, -⟩ | ⟨info', ownInfo, hInfo', hOwnInfo, hRegistered,
    hInfoSim⟩
  · rw [hNone] at hInfo
    cases hInfo
  · obtain rfl : info = info' := Option.some.inj (hInfo.symm.trans hInfo')
    refine ⟨ownInfo, hOwnInfo, hSim.touch
      ((EntityTable.unregister_touchesOnly _ _ _).trans (EntityTable.delete_touchesOnly _ _))
      ((EntityTable.unregister_touchesOnly _ _ _).trans (EntityTable.delete_touchesOnly _ _))
      ?_ ?_⟩
    · simp [EntityTable.unregister, EntityTable.delete, hSim.registered, hInfoSim.topicName]
    · left
      refine ⟨?_, ?_, ?_⟩
      · simp [EntityTable.delete]
      · simp [EntityTable.delete]
      · intro topic
        have hMem : address ∈ ((table.unregister info.topicName address).delete
            address).registered topic ↔
            address ∈ (table.unregister info.topicName address).registered topic := Iff.rfl
        rw [hMem, EntityTable.mem_unregister]
        rintro ⟨hElsewhere, hListed⟩
        exact hElsewhere ⟨(hRegistered topic).mp hListed, rfl⟩

end Tables

end Operations

/-! ## Runs -/

section Runs

variable [DpsCbor] {domainOf : StdString → Nat} {domainId : Nat} {full own full' : CustomNodeInfo}

/-- The nodes of the domain of a node. -/
def Home (domainOf : StdString → Nat) (domainId : Nat) (uuid : StdString) : Prop :=
  domainOf uuid = domainId

omit [DpsCbor] in
theorem NodeSim.new (home : StdString → Prop) (domainId : Nat) :
    NodeSim home (CustomNodeInfo.new domainId) (CustomNodeInfo.new domainId) where
  domainId := rfl
  inside _ _ := rfl
  outside _ _ := Std.ExtTreeMap.getElem?_empty
  table side := by
    refine ⟨rfl, fun address => .inl ?_⟩
    cases side <;> exact ⟨rfl, rfl, fun _ => Finset.notMem_empty address⟩

/-- All publications are delivered, so one that is handled has decoded. -/
theorem perform_publication {uuid : StdString} {payload : List UInt8}
    (hPerform : full.perform domainOf (.publication uuid payload) = some full') :
    ∃ announced, decodePayload payload = .ok announced ∧ full' = full.announce uuid announced := by
  have hPerform' : (onDiscovery full uuid payload).toOption = some full' := hPerform
  unfold onDiscovery at hPerform'
  cases hDecode : decodePayload payload with
  | error fault => simp [hDecode, bind, Except.bind, Except.toOption] at hPerform'
  | ok announced =>
      simp only [hDecode, bind, Except.bind, pure, Except.pure, Except.toOption,
        Option.some.injEq] at hPerform'
      exact ⟨announced, rfl, hPerform'.symm⟩

theorem perform_publication_of_decode {uuid : StdString} {payload : List UInt8}
    {announced : Option Node} (hDecode : decodePayload payload = .ok announced) :
    own.perform domainOf (.publication uuid payload) = some (own.announce uuid announced) := by
  show (onDiscovery own uuid payload).toOption = _
  rw [onDiscovery, hDecode]
  rfl

/-- An operation that stays in the domain is performed in both runs. -/
theorem NodeSim.perform_both {op : NodeOp} (hSim : NodeSim (Home domainOf domainId) full own)
    (hStays : op.staysIn domainOf domainId = true)
    (hPerform : full.perform domainOf op = some full') :
    ∃ own', own.perform domainOf op = some own' ∧
      NodeSim (Home domainOf domainId) full' own' := by
  cases op with
  | createEntity side address topicName =>
      simp only [CustomNodeInfo.perform, Option.ite_none_right_eq_some,
        Option.some.injEq] at hPerform
      obtain ⟨hFree, rfl⟩ := hPerform
      obtain ⟨hOwnFree, hTable⟩ := (hSim.table side).create hFree topicName
      refine ⟨_, ?_, hSim.setTable hTable⟩
      rw [CustomNodeInfo.perform, if_pos hOwnFree]
  | destroyEntity side address =>
      simp only [CustomNodeInfo.perform] at hPerform
      split at hPerform
      · next info hInfo =>
          cases hPerform
          obtain ⟨ownInfo, hOwnInfo, hTable⟩ := (hSim.table side).destroy hInfo
          refine ⟨_, ?_, hSim.setTable hTable⟩
          simp only [CustomNodeInfo.perform, hOwnInfo]
      · cases hPerform
  | publication uuid payload =>
      have hHome : Home domainOf domainId uuid := by
        simpa [NodeOp.staysIn, Home] using hStays
      obtain ⟨announced, hDecode, rfl⟩ := perform_publication hPerform
      exact ⟨_, perform_publication_of_decode hDecode, hSim.announce_both hHome announced⟩

/-- A publication of another domain is handled in the full run only. -/
theorem NodeSim.perform_full {op : NodeOp} (hSim : NodeSim (Home domainOf domainId) full own)
    (hLeaves : op.staysIn domainOf domainId = false)
    (hPerform : full.perform domainOf op = some full') :
    NodeSim (Home domainOf domainId) full' own := by
  cases op with
  | createEntity side address topicName => cases hLeaves
  | destroyEntity side address => cases hLeaves
  | publication uuid payload =>
      have hForeign : ¬ Home domainOf domainId uuid := by
        simpa [NodeOp.staysIn, Home] using hLeaves
      obtain ⟨announced, -, rfl⟩ := perform_publication hPerform
      exact hSim.announce_full hForeign announced

theorem afterOps_filter_sim {ops : List NodeOp}
    (hRun : CustomNodeInfo.afterOps domainOf domainId ops = some full) :
    ∃ own, CustomNodeInfo.afterOps domainOf domainId
        (ops.filter (NodeOp.staysIn domainOf domainId)) = some own ∧
      NodeSim (Home domainOf domainId) full own :=
  Transition.foldlM_filter_sim
    (fun _ _ _ _ hSim hStays hPerform => hSim.perform_both hStays hPerform)
    (fun _ _ _ _ hSim hLeaves hPerform => hSim.perform_full hLeaves hPerform)
    (NodeSim.new _ domainId) hRun

theorem isSome_of_decodePayload {payload : List UInt8} {announced : Option Node}
    (hDecode : decodePayload payload = .ok announced) :
    announced.isSome = !payload.isEmpty := by
  unfold decodePayload at hDecode
  cases hEmpty : payload.isEmpty with
  | true =>
      rw [hEmpty, if_pos rfl] at hDecode
      cases hDecode
      rfl
  | false =>
      rw [hEmpty, if_neg Bool.false_ne_true] at hDecode
      cases hTopics : decodeTopics payload with
      | error fault =>
          rw [hTopics] at hDecode
          cases hDecode
      | ok topics =>
          rw [hTopics] at hDecode
          cases hDecode
          rfl

theorem isSome_getElem?_perform {op : NodeOp} (hPerform : full.perform domainOf op = some full')
    (uuid : StdString) :
    full'.discoveredNodes[uuid]?.isSome =
      op.announces uuid full.discoveredNodes[uuid]?.isSome := by
  cases op with
  | createEntity side address topicName =>
      simp only [CustomNodeInfo.perform, Option.ite_none_right_eq_some,
        Option.some.injEq] at hPerform
      obtain ⟨-, rfl⟩ := hPerform
      simp [NodeOp.announces]
  | destroyEntity side address =>
      simp only [CustomNodeInfo.perform] at hPerform
      split at hPerform
      · cases hPerform
        simp [NodeOp.announces]
      · cases hPerform
  | publication peer payload =>
      obtain ⟨announced, hDecode, rfl⟩ := perform_publication hPerform
      rw [CustomNodeInfo.getElem?_announce, NodeOp.announces]
      by_cases hPeer : peer = uuid
      · rw [if_pos hPeer.symm, if_pos hPeer, isSome_of_decodePayload hDecode]
      · rw [if_neg (Ne.symm hPeer), if_neg hPeer]

/-- A uuid is in the map if and only if its last publication has a payload. -/
theorem isSome_getElem?_afterOps {ops : List NodeOp}
    (hRun : CustomNodeInfo.afterOps domainOf domainId ops = some full) (uuid : StdString) :
    full.discoveredNodes[uuid]?.isSome = stillAnnounced uuid ops := by
  have hFold : ∀ ops (impl : CustomNodeInfo),
      List.foldlM (CustomNodeInfo.perform domainOf) impl ops = some full →
      full.discoveredNodes[uuid]?.isSome =
        ops.foldl (NodeOp.announces uuid) impl.discoveredNodes[uuid]?.isSome := by
    intro ops
    induction ops with
    | nil =>
        intro impl hRun
        cases hRun
        rfl
    | cons op ops ih =>
        intro impl hRun
        rw [List.foldlM_cons] at hRun
        obtain ⟨middle, hStep, hRest⟩ := Option.bind_eq_some_iff.mp hRun
        rw [List.foldl_cons, ← isSome_getElem?_perform hStep uuid]
        exact ih middle hRest
  have hEmpty : (CustomNodeInfo.new domainId).discoveredNodes[uuid]?.isSome = false :=
    congrArg Option.isSome Std.ExtTreeMap.getElem?_empty
  rw [hFold ops _ hRun, hEmpty]
  rfl

end Runs

/-! ## What the relation says about queries -/

section Queries

variable {home : StdString → Prop} {full own : CustomNodeInfo}

/-- Without foreign nodes in its map, the full run has the state of the other one, as
far as queries can tell. -/
theorem NodeSim.exposed_eq (hSim : NodeSim home full own)
    (hLeft : ∀ uuid, ¬ home uuid → full.discoveredNodes[uuid]? = none) :
    full.exposed = own.exposed := by
  -- With no foreign node left the two maps are one.
  have hNodes : own.discoveredNodes = full.discoveredNodes := by
    apply Std.ExtTreeMap.ext_getElem?
    intro uuid
    by_cases hHome : home uuid
    · exact hSim.inside uuid hHome
    · rw [hSim.outside uuid hHome, hLeft uuid hHome]
  have hCount : ∀ side address, ((full.table side).infos address).map EntityInfo.matchedCount =
      ((own.table side).infos address).map EntityInfo.matchedCount := by
    intro side address
    rcases (hSim.table side).address address with ⟨hNone, hOwnNone, -⟩ | ⟨info, ownInfo, hInfo,
      hOwnInfo, -, hInfoSim⟩
    · rw [hNone, hOwnNone]
    -- A foreign uuid in the set would be listed by a node that is not in the map.
    · have hMatched : ownInfo.matched = info.matched := by
        ext uuid
        rw [hInfoSim.matched uuid, and_iff_left_iff_imp]
        intro hMem
        by_contra hForeign
        have hListed := hInfoSim.listed uuid hMem
        rw [DiscoveredNodes.topicsOf, hLeft uuid hForeign] at hListed
        cases side <;> simp [Side.peers, topicNames] at hListed
      rw [hInfo, hOwnInfo, Option.map_some, Option.map_some, hInfoSim.count, hInfoSim.ownCount,
        hMatched]
  have hSubscriptions : full.countMatchedSubscriptions = own.countMatchedSubscriptions :=
    funext fun address => hCount .publisher address
  have hPublishers : full.countMatchedPublishers = own.countMatchedPublishers :=
    funext fun address => hCount .subscription address
  have hAvailable : full.rmwServiceServerIsAvailable = own.rmwServiceServerIsAvailable := by
    funext serviceName
    simp only [CustomNodeInfo.rmwServiceServerIsAvailable, hNodes, hSim.domainId]
  -- All other queries read the map only.
  have hRest : own.exposed = { full.exposed with
      serviceAvailable := own.rmwServiceServerIsAvailable
      matchedSubscriptions := own.countMatchedSubscriptions
      matchedPublishers := own.countMatchedPublishers } := by
    unfold CustomNodeInfo.exposed CustomNodeInfo.rmwGetNodeNames
      CustomNodeInfo.rmwCountPublishers CustomNodeInfo.rmwCountSubscribers
      CustomNodeInfo.rmwGetSubscriberNamesAndTypesByNode
      CustomNodeInfo.rmwGetPublisherNamesAndTypesByNode
      CustomNodeInfo.rmwGetServiceNamesAndTypesByNode
      CustomNodeInfo.rmwGetClientNamesAndTypesByNode CustomNodeInfo.rmwGetTopicNamesAndTypes
      CustomNodeInfo.rmwGetServiceNamesAndTypes
    rw [hNodes]
  rw [hRest, ← hSubscriptions, ← hPublishers, ← hAvailable]
  rfl

/-- A foreign node in the map makes the list of node names longer. -/
theorem NodeSim.length_nodeNames_lt (hSim : NodeSim home full own) {uuid : StdString} {node : Node}
    (hForeign : ¬ home uuid) (hNode : full.discoveredNodes[uuid]? = some node) :
    own.rmwGetNodeNames.length < full.rmwGetNodeNames.length := by
  have hMem : ∀ {table : DiscoveredNodes} {peer : StdString} {other : Node},
      (peer, other) ∈ table.toList ↔ table[peer]? = some other :=
    Std.ExtTreeMap.mem_toList_iff_getElem?_eq_some
  have hFresh : (uuid, node) ∉ own.discoveredNodes.toList := by
    rw [hMem, hSim.outside uuid hForeign]
    simp
  -- The names of the own run, and one more, are among those of the full run.
  have hSubset : (uuid, node) :: own.discoveredNodes.toList ⊆ full.discoveredNodes.toList := by
    rw [List.cons_subset]
    constructor
    · exact hMem.mpr hNode
    · rintro ⟨peer, other⟩ hOther
      rw [hMem] at hOther ⊢
      by_cases hPeer : home peer
      · rw [← hSim.inside peer hPeer, hOther]
      · rw [hSim.outside peer hPeer] at hOther
        cases hOther
  have hNodup : ((uuid, node) :: own.discoveredNodes.toList).Nodup :=
    List.nodup_cons.mpr ⟨hFresh, DiscoveredNodes.nodup_toList _⟩
  have hLength := (List.subperm_of_subset hNodup hSubset).length_le
  simp only [CustomNodeInfo.rmwGetNodeNames, DiscoveredNodes.getDiscoveredNodes, List.length_map]
  rw [List.length_cons] at hLength
  omega

/-- A node exposes what it would expose without the publications of other domains if
and only if every node of another domain that has announced itself has left. -/
theorem domainIsolated_iff [DpsCbor] {domainOf : StdString → Nat} {domainId : Nat}
    {ops : List NodeOp} (hRuns : (CustomNodeInfo.afterOps domainOf domainId ops).isSome) :
    DomainIsolated domainOf domainId ops ↔
      ∀ uuid, domainOf uuid ≠ domainId → stillAnnounced uuid ops = false := by
  obtain ⟨full, hRun⟩ := Option.isSome_iff_exists.mp hRuns
  obtain ⟨own, hOwnRun, hSim⟩ := afterOps_filter_sim hRun
  unfold DomainIsolated
  rw [hRun, hOwnRun, Option.map_some, Option.map_some, Option.some.injEq]
  constructor
  · intro hExposed uuid hForeign
    rw [← isSome_getElem?_afterOps hRun uuid, Option.isSome_eq_false_iff, Option.isNone_iff_eq_none]
    cases hNode : full.discoveredNodes[uuid]? with
    | none => rfl
    | some node =>
        -- One query is enough to tell the runs apart: the list of node names.
        have hLonger := hSim.length_nodeNames_lt hForeign hNode
        have hNames : full.rmwGetNodeNames = own.rmwGetNodeNames :=
          congrArg Exposed.nodeNames hExposed
        rw [hNames] at hLonger
        exact absurd hLonger (lt_irrefl _)
  · intro hLeft
    apply hSim.exposed_eq
    intro uuid hForeign
    have hGone := hLeft uuid hForeign
    rwa [← isSome_getElem?_afterOps hRun uuid, Option.isSome_eq_false_iff,
      Option.isNone_iff_eq_none] at hGone

end Queries

/-- A node of domain 0 with a publisher discovers a node of domain 1 that lists a
subscriber on the topic. -/
def neighbor : List NodeOp :=
  [.createEntity .publisher 0 (bytesOf "/t"), .publication [] peerPayload]

/-- After the neighbor has left, nothing of it remains. -/
theorem left_domainIsolated :
    @DomainIsolated rfcCbor (fun _ => 1) 0 (neighbor ++ [.publication [] []]) := by
  let _ := rfcCbor
  have hIff : DomainIsolated (fun _ => 1) 0 (neighbor ++ [.publication [] []]) ↔ _ :=
    domainIsolated_iff rfl
  refine hIff.mpr ?_
  intro uuid _
  by_cases hUuid : uuid = []
  · rw [hUuid]
    rfl
  · simp [stillAnnounced, NodeOp.announces, neighbor, Ne.symm hUuid]

/-- While it is there, the node counts its subscriber and matches it. -/
theorem neighbor_not_domainIsolated : ¬ @DomainIsolated rfcCbor (fun _ => 1) 0 neighbor := by
  let _ := rfcCbor
  intro hIsolated
  have hCounts := congrArg (Option.map fun exposed => exposed.subscriberCount (bytesOf "/t"))
    hIsolated
  have hFull : ((CustomNodeInfo.afterOps (fun _ => 1) 0 neighbor).map
      CustomNodeInfo.exposed).map (fun exposed => exposed.subscriberCount (bytesOf "/t")) =
        some 1 := rfl
  have hOwn : ((CustomNodeInfo.afterOps (fun _ => 1) 0
      (neighbor.filter (NodeOp.staysIn (fun _ => 1) 0))).map CustomNodeInfo.exposed).map
        (fun exposed => exposed.subscriberCount (bytesOf "/t")) = some 0 := rfl
  rw [hFull, hOwn] at hCounts
  cases hCounts

end Discovery
end RmwDps
