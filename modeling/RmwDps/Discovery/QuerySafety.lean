import RmwDps.Discovery.Slicing
import RmwDps.Discovery.TypeReports

/-!
# Graph queries on what peers announce

A run of a node alternates between discovery payloads, whose strings are cut into topics
and types, and queries for names and types, which cut the types again.  What a query cuts
was stored by an earlier payload, so a string that the parser takes without harm can
still do harm later: `&types=` with nothing behind it is stored as an empty type, and the
query looks at the last character of it.
-/

namespace RmwDps
namespace Discovery
namespace Recorded

open Serialization
open Traced (value All)

/-! ## Payloads -/

section Payload

variable [DpsCbor] {impl : CustomNodeInfo} {uuid : StdString} {payload : List UInt8}

/-- `NodeListener::onDiscovery`.  A payload that does not decode changes nothing. -/
def onDiscovery (impl : CustomNodeInfo) (uuid : StdString) (payload : List UInt8) :
    Traced Access CustomNodeInfo :=
  if payload.isEmpty then return impl.announce uuid none
  else
    match decodeTopics payload with
    | .ok topics => do
        let node ← topics.foldlM processTopic {}
        return impl.announce uuid (some node)
    | .error _ => return impl

theorem value_onDiscovery
    (hSized : ∀ topics, decodeTopics payload = .ok topics → ∀ s ∈ topics, s.length < 2 ^ 64) :
    value (onDiscovery impl uuid payload) =
      (Discovery.onDiscovery impl uuid payload).toOption.getD impl := by
  unfold onDiscovery Discovery.onDiscovery decodePayload
  by_cases hEmpty : payload.isEmpty
  · rw [if_pos hEmpty, if_pos hEmpty]
    rfl
  · rw [if_neg hEmpty, if_neg hEmpty]
    cases hTopics : decodeTopics payload with
    | error fault => rfl
    | ok topics =>
        have hNode : value (topics.foldlM processTopic {}) = Node.ofTopics topics := by
          rw [Traced.value_foldlM]
          exact List.foldl_ext _ _ _ fun node s hMem =>
            value_processTopic (hSized _ hTopics s hMem) node
        show impl.announce uuid (some (value (topics.foldlM processTopic {}))) = _
        rw [hNode]
        rfl

theorem all_onDiscovery :
    All Access.InRange (onDiscovery impl uuid payload) ↔
      (payload ≠ [] → ∀ topics, decodeTopics payload = .ok topics → ∀ s ∈ topics, Sliceable s) := by
  unfold onDiscovery
  by_cases hEmpty : payload.isEmpty
  · rw [if_pos hEmpty]
    simp [List.isEmpty_iff.mp hEmpty]
  · rw [if_neg hEmpty]
    rw [List.isEmpty_iff] at hEmpty
    cases hTopics : decodeTopics payload with
    | error fault => simp
    | ok topics =>
        have hRounds := @Traced.all_foldlM_of_forall _ _ Access.InRange _ processTopic {} topics
          Sliceable fun node s _ => all_processTopic node
        simp [hEmpty, hRounds]

end Payload

/-! ## Queries -/

section Queries

variable [Rcpputils]

/-- `_copy_data_to_results`. -/
def copyDataToResults (topics : NamesAndTypes)
    (demangleType : StdString → Traced Access StdString) : Traced Access RmwNamesAndTypes :=
  topics.toList.mapM' fun topic => do
    let types ← topic.2.toList.mapM' fun type => do
      let demangled ← demangleType type
      return cStr demangled
    return (cStr topic.1, types)

/-- The map that a query copies. -/
def queried (nodes : DiscoveredNodes) : Query → NamesAndTypes
  | .subscribersByNode name namespace_ => nodes.getSubscriberNamesAndTypesByNode name namespace_
  | .publishersByNode name namespace_ => nodes.getPublisherNamesAndTypesByNode name namespace_
  | .servicesByNode name namespace_ => nodes.getServiceNamesAndTypesByNode name namespace_
  | .clientsByNode name namespace_ => nodes.getClientNamesAndTypesByNode name namespace_
  | .topics => nodes.getTopicNamesAndTypes
  | .services => nodes.getServiceNamesAndTypes

/-- The function that a query demangles with; only the queries for topics have the
argument `no_demangle`. -/
def demangleType (kind : Kind) (noDemangle : Bool) : StdString → Traced Access StdString :=
  match kind with
  | .message => if noDemangle then fun type => return type else demangleIfRosType
  | .service => demangleServiceTypeOnly

/-- A query for names and types. -/
def runQuery (impl : CustomNodeInfo) (query : Query) (noDemangle : Bool) :
    Traced Access RmwNamesAndTypes :=
  copyDataToResults (queried impl.discoveredNodes query) (demangleType query.kind noDemangle)

omit [Rcpputils] in
theorem queried_eq (nodes : DiscoveredNodes) (query : Query) :
    queried nodes query = NamesAndTypes.addTopics ∅ (query.covered nodes) := by
  cases query with
  | subscribersByNode name namespace_ => exact DiscoveredNodes.namesAndTypesByNode_eq _ _ _ _
  | publishersByNode name namespace_ => exact DiscoveredNodes.namesAndTypesByNode_eq _ _ _ _
  | servicesByNode name namespace_ => exact DiscoveredNodes.namesAndTypesByNode_eq _ _ _ _
  | clientsByNode name namespace_ => exact DiscoveredNodes.namesAndTypesByNode_eq _ _ _ _
  | topics => exact DiscoveredNodes.getTopicNamesAndTypes_eq _
  | services => exact DiscoveredNodes.getServiceNamesAndTypes_eq _

theorem value_demangleType {type : StdString} (hSized : type.length < 2 ^ 64) (kind : Kind) :
    value (demangleType kind false type) = kind.demangle type := by
  cases kind with
  | message => exact value_demangleIfRosType hSized
  | service => exact value_demangleServiceTypeOnly hSized

omit [Rcpputils] in
theorem value_copyDataToResults {topics : NamesAndTypes}
    {demangleType : StdString → Traced Access StdString} {demangle : StdString → StdString}
    (hValue : ∀ name type, topics.Lists name type →
      value (demangleType type) = demangle type) :
    value (copyDataToResults topics demangleType) =
      Discovery.copyDataToResults topics demangle := by
  rw [copyDataToResults, Traced.value_mapM', Discovery.copyDataToResults]
  refine List.map_congr_left fun topic hTopic => ?_
  have hFound := Std.ExtTreeMap.mem_toList_iff_getElem?_eq_some.mp hTopic
  have hTypes : topic.2.toList.map (fun type => cStr (value (demangleType type))) =
      topic.2.toList.map fun type => cStr (demangle type) := by
    refine List.map_congr_left fun type hType => ?_
    rw [hValue topic.1 type ⟨topic.2, hFound, Std.ExtTreeSet.mem_toList.mp hType⟩]
  rw [← hTypes]
  simp

/-- A query with demangling returns what it returns without the record. -/
theorem value_runQuery {impl : CustomNodeInfo} {query : Query}
    (hSized : ∀ topic ∈ query.covered impl.discoveredNodes, ∀ type ∈ topic.types,
      type.length < 2 ^ 64) :
    value (runQuery impl query false) = query.run impl := by
  rw [Query.run_eq, ← queried_eq]
  refine value_copyDataToResults fun name type hLists => value_demangleType ?_ _
  rw [queried_eq, NamesAndTypes.lists_addTopics] at hLists
  rcases hLists with hEmpty | ⟨topic, hTopic, -, hType⟩
  · exact absurd hEmpty NamesAndTypes.not_lists_empty
  · exact hSized topic hTopic type hType

omit [Rcpputils] in
/-- A copy demangles each type under each name. -/
theorem all_copyDataToResults {topics : NamesAndTypes}
    {demangleType : StdString → Traced Access StdString} :
    All Access.InRange (copyDataToResults topics demangleType) ↔
      ∀ name type, topics.Lists name type → All Access.InRange (demangleType type) := by
  simp only [copyDataToResults, Traced.all_mapM', Traced.all_bind, Traced.all_pure, and_true,
    Prod.forall, Std.ExtTreeMap.mem_toList_iff_getElem?_eq_some, Std.ExtTreeSet.mem_toList]
  constructor
  · rintro hAll name type ⟨types, hTypes, hType⟩
    exact hAll name types hTypes type hType
  · intro hAll name types hTypes type hType
    exact hAll name type ⟨types, hTypes, hType⟩

/-- What a query for entities of a kind needs of a type. -/
def TypeSliceable (kind : Kind) (noDemangle : Bool) (type : StdString) : Prop :=
  match kind with
  | .message => noDemangle = true ∨ type ≠ []
  | .service => ServiceSliceable type

theorem all_demangleType {kind : Kind} {noDemangle : Bool} {type : StdString} :
    All Access.InRange (demangleType kind noDemangle type) ↔
      TypeSliceable kind noDemangle type := by
  cases kind with
  | service => exact all_demangleServiceTypeOnly
  | message =>
      cases noDemangle with
      | true => simp [demangleType, TypeSliceable]
      | false => simpa [demangleType, TypeSliceable] using all_demangleIfRosType

theorem all_runQuery {impl : CustomNodeInfo} {query : Query} {noDemangle : Bool} :
    All Access.InRange (runQuery impl query noDemangle) ↔
      ∀ topic ∈ query.covered impl.discoveredNodes, ∀ type ∈ topic.types,
        TypeSliceable query.kind noDemangle type := by
  rw [runQuery, all_copyDataToResults]
  simp only [queried_eq, NamesAndTypes.lists_addTopics, all_demangleType]
  constructor
  · intro hAll topic hTopic type hType
    exact hAll topic.topic type (.inr ⟨topic, hTopic, rfl, hType⟩)
  · rintro hAll name type (hEmpty | ⟨topic, hTopic, -, hType⟩)
    · exact absurd hEmpty NamesAndTypes.not_lists_empty
    · exact hAll topic hTopic type hType

end Queries

/-! ## Runs -/

/-- A payload of a peer, or a query.  The queries for services ignore `noDemangle`. -/
inductive Event
  | discovery (uuid : StdString) (payload : List UInt8)
  | query (query : Query) (noDemangle : Bool)
  deriving DecidableEq, Repr

section Runs

variable [DpsCbor] [Rcpputils]

def step (impl : CustomNodeInfo) : Event → Traced Access CustomNodeInfo
  | .discovery uuid payload => onDiscovery impl uuid payload
  | .query query noDemangle => do
      let _ ← runQuery impl query noDemangle
      return impl

def run (impl : CustomNodeInfo) (events : List Event) : Traced Access CustomNodeInfo :=
  events.foldlM step impl

/-- The strings of a payload can be cut, and so can the types that a query demangles. -/
def Event.Sliceable (impl : CustomNodeInfo) : Event → Prop
  | .discovery _ payload =>
      payload ≠ [] → ∀ topics, decodeTopics payload = .ok topics →
        ∀ s ∈ topics, Recorded.Sliceable s
  | .query graphQuery noDemangle =>
      ∀ topic ∈ graphQuery.covered impl.discoveredNodes, ∀ type ∈ topic.types,
        TypeSliceable graphQuery.kind noDemangle type

theorem all_step (impl : CustomNodeInfo) (event : Event) :
    All Access.InRange (step impl event) ↔ event.Sliceable impl := by
  cases event with
  | discovery uuid payload => exact all_onDiscovery
  | query query noDemangle =>
      rw [step, Traced.all_bind, all_runQuery]
      simp [Event.Sliceable]

/-- In a run every position is in range exactly if every event can be cut in the state
in which it comes. -/
theorem run_inRange_iff (impl : CustomNodeInfo) (events : List Event) :
    All Access.InRange (run impl events) ↔
      ∀ before event after, events = before ++ event :: after →
        event.Sliceable (value (run impl before)) := by
  simp only [run, Traced.all_foldlM, Traced.value_foldlM, all_step]

end Runs

/-! ## Three strings -/

/-- The payload of a node with one entity. -/
def entityPayload (topic : StdString) : List UInt8 :=
  arrayItem Rfc7049.text [bytesOf "namespace=/", bytesOf "name=n", topic]

/-- The empty type of a topic, which is harmless until a query demangles it; `&types=` in
front of the keyword; and `_Request_` in front of `dps_::`. -/
theorem emptyType_not_inRange :
    @decodeTopics rfcCbor (entityPayload (bytesOf "publisher&topic=/t&types=")) =
      .ok [bytesOf "namespace=/", bytesOf "name=n", bytesOf "publisher&topic=/t&types="] ∧
    All Access.InRange (@run rfcCbor replacingRcpputils (CustomNodeInfo.new 0)
      [.discovery (bytesOf "uuid") (entityPayload (bytesOf "publisher&topic=/t&types=")),
        .query .topics true]) ∧
    ¬ All Access.InRange (@run rfcCbor replacingRcpputils (CustomNodeInfo.new 0)
      [.discovery (bytesOf "uuid") (entityPayload (bytesOf "publisher&topic=/t&types=")),
        .query .topics false]) ∧
    ¬ All Access.InRange (@run rfcCbor replacingRcpputils (CustomNodeInfo.new 0)
      [.discovery (bytesOf "uuid") (entityPayload (bytesOf "&types=publisher&topic=/t"))]) ∧
    ¬ All Access.InRange (@run rfcCbor replacingRcpputils (CustomNodeInfo.new 0)
      [.discovery (bytesOf "uuid")
          (entityPayload (bytesOf "service&topic=/s&types=_Request_dps_::")),
        .query .services false]) := by
  decide +kernel

end Recorded
end Discovery
end RmwDps
