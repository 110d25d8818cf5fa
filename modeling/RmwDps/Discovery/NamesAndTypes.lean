import RmwDps.Discovery.GraphQueries

/-!
# Names with their types

The queries for names and types insert the topics of their nodes one by one into a map
of sets and copy the map to arrays.  What is in the map is exactly what is in the
topics, in whichever order they come, and the arrays have it once for each key.
-/

namespace RmwDps
namespace Discovery

open Serialization

/-! ## The map of a list of topics -/

/-- The map has the type under the name. -/
def NamesAndTypes.Lists (namesAndTypes : NamesAndTypes) (name type : StdString) : Prop :=
  ∃ types, namesAndTypes[name]? = some types ∧ type ∈ types

section AddTopics

variable {namesAndTypes : NamesAndTypes} {name type : StdString}

theorem mem_foldl_insert {types : Std.ExtTreeSet StdString compare} {added : List StdString} :
    type ∈ added.foldl (fun types type => types.insert type) types ↔
      type ∈ types ∨ type ∈ added := by
  induction added generalizing types with
  | nil => simp
  | cons first added ih =>
      rw [List.foldl_cons, ih, Std.ExtTreeSet.mem_insert, Std.LawfulEqCmp.compare_eq_iff_eq,
        List.mem_cons, eq_comm, or_assoc]
      tauto

theorem NamesAndTypes.getElem?_addTopic (topic : Topic) :
    (namesAndTypes.addTopic topic)[name]? =
      if topic.topic = name then
        some (topic.types.foldl (fun types type => types.insert type)
          (namesAndTypes[topic.topic]?.getD ∅))
      else namesAndTypes[name]? := by
  simp only [addTopic, Std.ExtTreeMap.getElem?_insert, Std.LawfulEqCmp.compare_eq_iff_eq]

theorem NamesAndTypes.mem_addTopic {topic : Topic} :
    name ∈ namesAndTypes.addTopic topic ↔ topic.topic = name ∨ name ∈ namesAndTypes := by
  rw [addTopic, Std.ExtTreeMap.mem_insert, Std.LawfulEqCmp.compare_eq_iff_eq]

theorem NamesAndTypes.lists_addTopic {topic : Topic} :
    (namesAndTypes.addTopic topic).Lists name type ↔
      namesAndTypes.Lists name type ∨ (topic.topic = name ∧ type ∈ topic.types) := by
  unfold Lists
  rw [getElem?_addTopic]
  by_cases hName : topic.topic = name
  · subst hName
    simp only [if_true, Option.some.injEq, exists_eq_left', true_and, mem_foldl_insert]
    cases hKnown : namesAndTypes[topic.topic]? with
    | none => simp
    | some types => simp
  · simp [hName]

/-- The keys are the names of the topics. -/
theorem NamesAndTypes.mem_addTopics {topics : List Topic} :
    name ∈ namesAndTypes.addTopics topics ↔
      name ∈ namesAndTypes ∨ ∃ topic ∈ topics, topic.topic = name := by
  induction topics generalizing namesAndTypes with
  | nil => simp [addTopics]
  | cons topic topics ih =>
      rw [addTopics, List.foldl_cons, ← addTopics, ih, mem_addTopic, List.exists_mem_cons_iff]
      tauto

/-- Under a name are the types of the topics with that name. -/
theorem NamesAndTypes.lists_addTopics {topics : List Topic} :
    (namesAndTypes.addTopics topics).Lists name type ↔
      namesAndTypes.Lists name type ∨
        ∃ topic ∈ topics, topic.topic = name ∧ type ∈ topic.types := by
  induction topics generalizing namesAndTypes with
  | nil => simp [addTopics]
  | cons topic topics ih =>
      rw [addTopics, List.foldl_cons, ← addTopics, ih, lists_addTopic, List.exists_mem_cons_iff]
      tauto

theorem NamesAndTypes.not_lists_empty : ¬ Lists ∅ name type := by
  rintro ⟨types, hTypes, -⟩
  simp at hTypes

end AddTopics

/-! ## The copy of a map -/

/-- The result has the type under the name. -/
def RmwNamesAndTypes.Reports (results : RmwNamesAndTypes) (name type : StdString) : Prop :=
  ∃ types, (name, types) ∈ results ∧ type ∈ types

theorem cStr_eq_self {s : StdString} (hZero : (0 : UInt8) ∉ s) : cStr s = s := by
  rw [cStr, List.takeWhile_eq_self_iff]
  intro b hByte
  simpa using fun h : b = 0 => hZero (h ▸ hByte)

theorem zero_notMem_cStr (s : StdString) : (0 : UInt8) ∉ cStr s := by
  intro hMem
  simpa using List.mem_takeWhile_imp hMem

section Copy

variable {namesAndTypes : NamesAndTypes} {demangleType : StdString → StdString}

theorem mem_copyDataToResults {entry : StdString × List StdString} :
    entry ∈ copyDataToResults namesAndTypes demangleType ↔
      ∃ name types, namesAndTypes[name]? = some types ∧
        entry = (cStr name, types.toList.map fun type => cStr (demangleType type)) := by
  simp only [copyDataToResults, List.mem_map, Prod.exists,
    Std.ExtTreeMap.mem_toList_iff_getElem?_eq_some, @eq_comm _ entry]

/-- The names stay apart when none is cut at a zero. -/
theorem nodup_names_copyDataToResults (hZero : ∀ name ∈ namesAndTypes, (0 : UInt8) ∉ name) :
    ((copyDataToResults namesAndTypes demangleType).map Prod.fst).Nodup := by
  have hKeys : (namesAndTypes.toList.map Prod.fst).Nodup := by
    rw [List.nodup_iff_pairwise_ne, List.pairwise_map]
    have hDistinct := Std.ExtTreeMap.distinct_keys_toList (t := namesAndTypes)
    exact hDistinct.imp fun hApart => by simpa using hApart
  have hNames : (copyDataToResults namesAndTypes demangleType).map Prod.fst =
      (namesAndTypes.toList.map Prod.fst).map cStr := by
    simp only [copyDataToResults, List.map_map, Function.comp_def]
  have hMem : ∀ name ∈ namesAndTypes.toList.map Prod.fst, name ∈ namesAndTypes := by
    intro name hName
    rw [Std.ExtTreeMap.map_fst_toList_eq_keys] at hName
    exact Std.ExtTreeMap.mem_keys.mp hName
  rw [hNames]
  refine hKeys.map_on ?_
  intro name hName other hOther hSame
  rwa [cStr_eq_self (hZero name (hMem name hName)),
    cStr_eq_self (hZero other (hMem other hOther))] at hSame

/-- The types of a set stay apart when the demangling function keeps them apart. -/
theorem nodup_map_toList {types : Std.ExtTreeSet StdString compare} {f : StdString → StdString}
    (hInjective : ∀ type ∈ types, ∀ other ∈ types, f type = f other → type = other) :
    (types.toList.map f).Nodup := by
  have hTypes : types.toList.Nodup := by
    have hDistinct := Std.ExtTreeSet.distinct_toList (t := types)
    exact hDistinct.imp fun hApart => by simpa using hApart
  refine hTypes.map_on ?_
  intro type hType other hOther
  rw [Std.ExtTreeSet.mem_toList] at hType hOther
  exact hInjective type hType other hOther

/-- Two types of a set that are demangled to one are there twice. -/
theorem not_nodup_map_toList {types : Std.ExtTreeSet StdString compare}
    {f : StdString → StdString} {type other : StdString} (hType : type ∈ types)
    (hOther : other ∈ types) (hApart : type ≠ other) (hSame : f type = f other) :
    ¬ (types.toList.map f).Nodup := by
  intro hNodup
  rw [← Std.ExtTreeSet.mem_toList] at hType hOther
  exact hApart (List.inj_on_of_nodup_map hNodup hType hOther hSame)

theorem reports_copyDataToResults {name reported : StdString}
    (hZero : ∀ name ∈ namesAndTypes, (0 : UInt8) ∉ name) :
    (copyDataToResults namesAndTypes demangleType).Reports name reported ↔
      ∃ type, namesAndTypes.Lists name type ∧ cStr (demangleType type) = reported := by
  have hKey : ∀ {name types}, namesAndTypes[name]? = some types → cStr name = name := by
    intro name types hTypes
    apply cStr_eq_self (hZero name _)
    rw [Std.ExtTreeMap.mem_iff_isSome_getElem?, hTypes]
    rfl
  constructor
  · rintro ⟨reportedTypes, hEntry, hReported⟩
    obtain ⟨key, types, hTypes, hSame⟩ := mem_copyDataToResults.mp hEntry
    obtain ⟨hName, rfl⟩ := Prod.mk.inj hSame
    rw [hKey hTypes] at hName
    subst hName
    obtain ⟨type, hType, hDemangled⟩ := List.mem_map.mp hReported
    exact ⟨type, ⟨types, hTypes, Std.ExtTreeSet.mem_toList.mp hType⟩, hDemangled⟩
  · rintro ⟨type, ⟨types, hTypes, hType⟩, hDemangled⟩
    refine ⟨types.toList.map fun type => cStr (demangleType type), ?_, ?_⟩
    · exact mem_copyDataToResults.mpr ⟨name, types, hTypes, by rw [hKey hTypes]⟩
    · exact List.mem_map.mpr ⟨type, Std.ExtTreeSet.mem_toList.mpr hType, hDemangled⟩

end Copy

/-! ## The queries as maps of lists of topics -/

/-- A loop over the nodes is one over all their topics. -/
theorem foldl_addTopics (select : Node → List Topic) (found : List Node)
    (namesAndTypes : NamesAndTypes) :
    found.foldl (fun namesAndTypes node => namesAndTypes.addTopics (select node)) namesAndTypes =
      namesAndTypes.addTopics (found.flatMap select) := by
  rw [NamesAndTypes.addTopics, List.foldl_flatMap]
  rfl

namespace DiscoveredNodes

variable (nodes : DiscoveredNodes)

/-- The first node, in the order of the uuids, with the name and the namespace. -/
def nodeNamed (name namespace_ : StdString) : Option Node :=
  nodes.getDiscoveredNodes.find? fun node => node.name = name ∧ node.namespace_ = namespace_

theorem namesAndTypesByNode_eq (select : Node → List Topic) (name namespace_ : StdString) :
    nodes.namesAndTypesByNode select name namespace_ =
      NamesAndTypes.addTopics ∅ ((nodes.nodeNamed name namespace_).toList.flatMap select) := by
  rw [namesAndTypesByNode, nodeNamed]
  cases nodes.getDiscoveredNodes.find? _ with
  | none => rfl
  | some node => simp

theorem getTopicNamesAndTypes_eq :
    nodes.getTopicNamesAndTypes =
      NamesAndTypes.addTopics ∅
        (nodes.getDiscoveredNodes.flatMap fun node => node.subscribers ++ node.publishers) := by
  rw [getTopicNamesAndTypes, ← foldl_addTopics]
  congr 1
  funext namesAndTypes node
  rw [NamesAndTypes.addTopics, NamesAndTypes.addTopics, NamesAndTypes.addTopics,
    List.foldl_append]

theorem getServiceNamesAndTypes_eq :
    nodes.getServiceNamesAndTypes =
      NamesAndTypes.addTopics ∅ (nodes.getDiscoveredNodes.flatMap Node.services) :=
  foldl_addTopics Node.services nodes.getDiscoveredNodes ∅

/-- A name is counted when a discovered node lists it. -/
theorem count_pos {nodes : DiscoveredNodes} {select : Node → List Topic}
    {topicName : StdString} :
    0 < nodes.count select topicName ↔
      ∃ node ∈ nodes.getDiscoveredNodes, ∃ topic ∈ select node, topic.topic = topicName := by
  simp only [count, List.sum_pos_iff_exists_pos_nat, List.mem_map, exists_exists_and_eq_and,
    countTopic, List.countP_pos_iff, decide_eq_true_iff]

end DiscoveredNodes

end Discovery
end RmwDps
