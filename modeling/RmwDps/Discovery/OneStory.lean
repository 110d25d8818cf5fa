import RmwDps.Discovery.NamesAndTypes
import RmwDps.Discovery.PeerView

/-!
# The graph queries tell one story

A tool puts the graph together from the pairs of `get_discovered_nodes` and the queries
by node, from the queries over all nodes, or by counting.  The pairs go back into the
queries by node as C strings, so a name with a zero byte in it, which a peer can
announce, no longer finds its node.  Where no name has one and no two nodes share a name
and a namespace, the three ways lead to one graph.
-/

namespace RmwDps
namespace Discovery

open Serialization

/-! ## Unions of maps -/

/-- A map is the key-wise union of others: it has their keys, and under a key the types
that they have there. -/
structure NamesAndTypes.IsUnion (whole : NamesAndTypes) (parts : List NamesAndTypes) : Prop where
  keys : ∀ name, name ∈ whole ↔ ∃ part ∈ parts, name ∈ part
  types : ∀ name type, whole.Lists name type ↔ ∃ part ∈ parts, part.Lists name type

/-- There is one union. -/
theorem NamesAndTypes.IsUnion.unique {whole other : NamesAndTypes} {parts : List NamesAndTypes}
    (hWhole : whole.IsUnion parts) (hOther : other.IsUnion parts) : whole = other := by
  have hKeys : ∀ name, name ∈ whole ↔ name ∈ other := fun name =>
    (hWhole.keys name).trans (hOther.keys name).symm
  have hTypes : ∀ name type, whole.Lists name type ↔ other.Lists name type := fun name type =>
    (hWhole.types name type).trans (hOther.types name type).symm
  refine Std.ExtTreeMap.ext_getElem? fun name => ?_
  cases hFound : whole[name]? with
  | none =>
      have hKey : name ∉ other := by
        rw [← hKeys, Std.ExtTreeMap.mem_iff_isSome_getElem?, hFound]
        exact Bool.false_ne_true
      exact (Std.ExtTreeMap.getElem?_eq_none hKey).symm
  | some types =>
      have hKey : name ∈ other := by
        rw [← hKeys, Std.ExtTreeMap.mem_iff_isSome_getElem?, hFound]
        rfl
      obtain ⟨otherTypes, hOtherFound⟩ := Option.isSome_iff_exists.mp
        (Std.ExtTreeMap.mem_iff_isSome_getElem?.mp hKey)
      rw [hOtherFound, Option.some_inj]
      refine Std.ExtTreeSet.ext_mem fun type => ?_
      simpa [Lists, hFound, hOtherFound] using hTypes name type

/-- The topics of many lists together are the union of those of each list. -/
theorem NamesAndTypes.isUnion_addTopics (lists : List (List Topic)) :
    (addTopics ∅ lists.flatten).IsUnion (lists.map (addTopics ∅)) := by
  have hFlatten : ∀ P : Topic → Prop, (∃ topic ∈ lists.flatten, P topic) ↔
      ∃ topics ∈ lists, ∃ topic ∈ topics, P topic := by
    intro P
    constructor
    · rintro ⟨topic, hTopic, hP⟩
      obtain ⟨topics, hTopics, hMem⟩ := List.mem_flatten.mp hTopic
      exact ⟨topics, hTopics, topic, hMem, hP⟩
    · rintro ⟨topics, hTopics, topic, hMem, hP⟩
      exact ⟨topic, List.mem_flatten.mpr ⟨topics, hTopics, hMem⟩, hP⟩
  constructor
  · intro name
    simp only [mem_addTopics, Std.ExtTreeMap.not_mem_empty, false_or, List.mem_map,
      exists_exists_and_eq_and, hFlatten]
  · intro name type
    simp only [lists_addTopics, not_lists_empty, false_or, List.mem_map,
      exists_exists_and_eq_and, hFlatten]

/-! ## The pairs of the discovered nodes -/

namespace DiscoveredNodes

/-- The name and the namespace of each discovered node. -/
def namePairs (nodes : DiscoveredNodes) : List (StdString × StdString) :=
  nodes.getDiscoveredNodes.map fun node => (node.name, node.namespace_)

/-- No two entries share name and namespace. -/
def NamesApart (nodes : DiscoveredNodes) : Prop := nodes.namePairs.Nodup

/-- No name and no namespace has a zero byte in it. -/
def NamesPlain (nodes : DiscoveredNodes) : Prop :=
  ∀ node ∈ nodes.getDiscoveredNodes, (0 : UInt8) ∉ node.name ∧ (0 : UInt8) ∉ node.namespace_

instance (nodes : DiscoveredNodes) : Decidable nodes.NamesApart :=
  inferInstanceAs (Decidable nodes.namePairs.Nodup)

instance (nodes : DiscoveredNodes) : Decidable nodes.NamesPlain :=
  inferInstanceAs (Decidable (∀ node ∈ nodes.getDiscoveredNodes, _ ∧ _))

/-- The pairs of `get_discovered_nodes` as a caller passes them on: `c_str()` of the name
and of the namespace. -/
def reportedPairs (nodes : DiscoveredNodes) : List (StdString × StdString) :=
  nodes.getDiscoveredNodes.map fun node => (cStr node.name, cStr node.namespace_)

theorem rmwGetNodeNames_eq (impl : CustomNodeInfo) :
    impl.rmwGetNodeNames = impl.discoveredNodes.reportedPairs := rfl

/-- What the graph queries return fits together. -/
structure OneStory (nodes : DiscoveredNodes) : Prop where
  topics : nodes.getTopicNamesAndTypes.IsUnion (nodes.reportedPairs.flatMap fun pair =>
    [nodes.getSubscriberNamesAndTypesByNode pair.1 pair.2,
      nodes.getPublisherNamesAndTypesByNode pair.1 pair.2])
  services : nodes.getServiceNamesAndTypes.IsUnion (nodes.reportedPairs.map fun pair =>
    nodes.getServiceNamesAndTypesByNode pair.1 pair.2)
  countTopics : ∀ name, (0 : UInt8) ∉ name →
    (name ∈ nodes.getTopicNamesAndTypes ↔
      0 < nodes.countPublishers name + nodes.countSubscribers name)
  countServices : ∀ name, (0 : UInt8) ∉ name →
    (name ∈ nodes.getServiceNamesAndTypes ↔ 0 < nodes.countServices name)

variable {nodes : DiscoveredNodes}

/-- The search by name and namespace finds the node. -/
theorem nodeNamed_self (hApart : nodes.NamesApart) {node : Node}
    (hNode : node ∈ nodes.getDiscoveredNodes) :
    nodes.nodeNamed node.name node.namespace_ = some node := by
  rw [nodeNamed]
  cases hFind : nodes.getDiscoveredNodes.find? fun known =>
      known.name = node.name ∧ known.namespace_ = node.namespace_ with
  | none =>
      have hNone := List.find?_eq_none.mp hFind node hNode
      simp at hNone
  | some known =>
      have hSame : known.name = node.name ∧ known.namespace_ = node.namespace_ := by
        simpa using List.find?_some hFind
      have hKnown := List.mem_of_find?_eq_some hFind
      rw [List.inj_on_of_nodup_map hApart hKnown hNode (Prod.ext hSame.1 hSame.2)]

/-- The query by the name and the namespace of a node is about its own topics. -/
theorem namesAndTypesByNode_self (hApart : nodes.NamesApart) (select : Node → List Topic)
    {node : Node} (hNode : node ∈ nodes.getDiscoveredNodes) :
    nodes.namesAndTypesByNode select node.name node.namespace_ =
      NamesAndTypes.addTopics ∅ (select node) := by
  rw [namesAndTypesByNode_eq, nodeNamed_self hApart hNode, Option.toList_some,
    List.flatMap_singleton]

theorem isUnion_topics (hApart : nodes.NamesApart) :
    nodes.getTopicNamesAndTypes.IsUnion (nodes.namePairs.flatMap fun pair =>
      [nodes.getSubscriberNamesAndTypesByNode pair.1 pair.2,
        nodes.getPublisherNamesAndTypesByNode pair.1 pair.2]) := by
  have hWhole : (nodes.getDiscoveredNodes.flatMap fun node =>
      node.subscribers ++ node.publishers) =
        (nodes.getDiscoveredNodes.flatMap fun node =>
          [node.subscribers, node.publishers]).flatten := by
    induction nodes.getDiscoveredNodes with
    | nil => rfl
    | cons node found ih => simp [ih]
  have hParts : (nodes.namePairs.flatMap fun pair =>
      [nodes.getSubscriberNamesAndTypesByNode pair.1 pair.2,
        nodes.getPublisherNamesAndTypesByNode pair.1 pair.2]) =
      (nodes.getDiscoveredNodes.flatMap fun node => [node.subscribers, node.publishers]).map
        (NamesAndTypes.addTopics ∅) := by
    rw [namePairs, List.flatMap_map, List.map_flatMap]
    refine List.flatMap_congr fun node hNode => ?_
    simp only [getSubscriberNamesAndTypesByNode, getPublisherNamesAndTypesByNode,
      namesAndTypesByNode_self hApart _ hNode, List.map_cons, List.map_nil]
  rw [getTopicNamesAndTypes_eq, hWhole, hParts]
  exact NamesAndTypes.isUnion_addTopics _

theorem isUnion_services (hApart : nodes.NamesApart) :
    nodes.getServiceNamesAndTypes.IsUnion (nodes.namePairs.map fun pair =>
      nodes.getServiceNamesAndTypesByNode pair.1 pair.2) := by
  have hParts : (nodes.namePairs.map fun pair =>
      nodes.getServiceNamesAndTypesByNode pair.1 pair.2) =
        (nodes.getDiscoveredNodes.map Node.services).map (NamesAndTypes.addTopics ∅) := by
    rw [namePairs, List.map_map, List.map_map]
    exact List.map_congr_left fun node hNode =>
      namesAndTypesByNode_self hApart Node.services hNode
  rw [getServiceNamesAndTypes_eq, List.flatMap_def, hParts]
  exact NamesAndTypes.isUnion_addTopics _

/-- Names without a zero byte go through the C interface as they are. -/
theorem reportedPairs_eq (hPlain : nodes.NamesPlain) : nodes.reportedPairs = nodes.namePairs := by
  refine List.map_congr_left fun node hNode => ?_
  obtain ⟨hName, hNamespace⟩ := hPlain node hNode
  rw [cStr_eq_self hName, cStr_eq_self hNamespace]

/-- A name is a key where the counter of the listed topics finds it. -/
theorem mem_addTopics_flatMap {select : Node → List Topic} {name : StdString} :
    name ∈ NamesAndTypes.addTopics ∅ (nodes.getDiscoveredNodes.flatMap select) ↔
      0 < nodes.count select name := by
  rw [NamesAndTypes.mem_addTopics, count_pos, or_iff_right Std.ExtTreeMap.not_mem_empty]
  constructor
  · rintro ⟨topic, hTopic, hName⟩
    obtain ⟨node, hNode, hMem⟩ := List.mem_flatMap.mp hTopic
    exact ⟨node, hNode, topic, hMem, hName⟩
  · rintro ⟨node, hNode, topic, hMem, hName⟩
    exact ⟨topic, List.mem_flatMap.mpr ⟨node, hNode, hMem⟩, hName⟩

theorem count_append (select other : Node → List Topic) (name : StdString) :
    nodes.count (fun node => select node ++ other node) name =
      nodes.count select name + nodes.count other name := by
  simp only [count, countTopic, List.countP_append]
  exact List.sum_map_add

theorem mem_getTopicNamesAndTypes {name : StdString} :
    name ∈ nodes.getTopicNamesAndTypes ↔
      0 < nodes.countPublishers name + nodes.countSubscribers name := by
  rw [getTopicNamesAndTypes_eq, mem_addTopics_flatMap, count_append]
  show 0 < nodes.countSubscribers name + nodes.countPublishers name ↔ _
  omega

theorem mem_getServiceNamesAndTypes {name : StdString} :
    name ∈ nodes.getServiceNamesAndTypes ↔ 0 < nodes.countServices name := by
  rw [getServiceNamesAndTypes_eq]
  exact mem_addTopics_flatMap

/-- The graph queries tell one story. -/
theorem oneStory (hApart : nodes.NamesApart) (hPlain : nodes.NamesPlain) : nodes.OneStory := by
  constructor
  · rw [reportedPairs_eq hPlain]
    exact isUnion_topics hApart
  · rw [reportedPairs_eq hPlain]
    exact isUnion_services hApart
  · exact fun _ _ => mem_getTopicNamesAndTypes
  · exact fun _ _ => mem_getServiceNamesAndTypes

/-- Two nodes in different namespaces that share a topic, and a service. -/
def talkerListener : DiscoveredNodes :=
  ((∅ : DiscoveredNodes).insert (bytesOf "a") {
    name := bytesOf "n", namespace_ := bytesOf "/"
    publishers := [{ topic := bytesOf "/t", types := [bytesOf "T"] }] }).insert (bytesOf "b") {
      name := bytesOf "n", namespace_ := bytesOf "/b"
      subscribers := [{ topic := bytesOf "/t", types := [bytesOf "T", bytesOf "U"] }]
      services := [{ topic := bytesOf "/s", types := [bytesOf "A"] }] }

theorem talkerListener_oneStory : talkerListener.OneStory :=
  oneStory (by decide +kernel) (by decide +kernel)

/-! ## A name with a zero byte -/

/-- The node of a peer that has put a zero byte into its name. -/
def zeroNode : Node where
  name := bytesOf "n" ++ 0 :: bytesOf "m"
  namespace_ := bytesOf "/"
  publishers := [{ topic := bytesOf "/t", types := [bytesOf "T"] }]

/-- The payload of the peer. -/
def zeroPayload : List UInt8 :=
  arrayItem Rfc7049.text [bytesOf "namespace=/", bytesOf "name=n" ++ 0 :: bytesOf "m",
    bytesOf "publisher&topic=/t&types=T"]

theorem zeroPayload_decodes : @decodePayload rfcCbor zeroPayload = .ok (some zeroNode) := by
  decide +kernel

/-- Its topic is known, but not from any of the pairs. -/
theorem zeroNode_not_oneStory :
    ∃ impl, @onDiscovery rfcCbor (CustomNodeInfo.new 0) (bytesOf "uuid") zeroPayload = .ok impl ∧
      impl.discoveredNodes.NamesApart ∧ ¬ impl.discoveredNodes.OneStory := by
  refine ⟨(CustomNodeInfo.new 0).announce (bytesOf "uuid") (some zeroNode), ?_, ?_⟩
  · unfold onDiscovery
    rw [zeroPayload_decodes]
    rfl
  · rw [CustomNodeInfo.discoveredNodes_announce]
    refine ⟨by decide +kernel, fun hStory => ?_⟩
    have hKey := (hStory.topics.keys (bytesOf "/t")).mp (by decide +kernel)
    revert hKey
    decide +kernel

end DiscoveredNodes

end Discovery
end RmwDps
