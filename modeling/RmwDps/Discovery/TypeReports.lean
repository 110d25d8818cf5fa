import RmwDps.Discovery.NamesAndTypes
import RmwDps.Discovery.TypedGraph

/-!
# The types that the queries report

The maps behind the queries keep type names apart, and a query demangles them one by one
into an array that has the size of the set.  For topics this is one ROS type for each type
name.  A service has two type names, for its requests and its responses, that are
demangled to the same ROS type.
-/

namespace RmwDps
namespace Discovery

open Serialization

/-! ## The six queries -/

/-- The queries for names and types, with demangling. -/
inductive Query
  | subscribersByNode (nodeName nodeNamespace : StdString)
  | publishersByNode (nodeName nodeNamespace : StdString)
  | servicesByNode (nodeName nodeNamespace : StdString)
  | clientsByNode (nodeName nodeNamespace : StdString)
  | topics
  | services
  deriving DecidableEq, Repr

def Query.kind : Query → Kind
  | .subscribersByNode .. | .publishersByNode .. | .topics => .message
  | .servicesByNode .. | .clientsByNode .. | .services => .service

/-- The entries of the discovered entities that a query is about. -/
def Query.covered (nodes : DiscoveredNodes) : Query → List Topic
  | .subscribersByNode name namespace_ =>
      (nodes.nodeNamed name namespace_).toList.flatMap Node.subscribers
  | .publishersByNode name namespace_ =>
      (nodes.nodeNamed name namespace_).toList.flatMap Node.publishers
  | .servicesByNode name namespace_ =>
      (nodes.nodeNamed name namespace_).toList.flatMap Node.services
  | .clientsByNode name namespace_ =>
      (nodes.nodeNamed name namespace_).toList.flatMap Node.clients
  | .topics => nodes.getDiscoveredNodes.flatMap fun node => node.subscribers ++ node.publishers
  | .services => nodes.getDiscoveredNodes.flatMap Node.services

section Run

variable [Rcpputils]

/-- The demangling function for the types of entities of a kind. -/
def Kind.demangle : Kind → StdString → StdString
  | .message => demangleIfRosType
  | .service => demangleServiceTypeOnly

def Query.run (impl : CustomNodeInfo) : Query → RmwNamesAndTypes
  | .subscribersByNode nodeName nodeNamespace =>
      impl.rmwGetSubscriberNamesAndTypesByNode demangleIfRosType nodeName nodeNamespace
  | .publishersByNode nodeName nodeNamespace =>
      impl.rmwGetPublisherNamesAndTypesByNode demangleIfRosType nodeName nodeNamespace
  | .servicesByNode nodeName nodeNamespace =>
      impl.rmwGetServiceNamesAndTypesByNode demangleServiceTypeOnly nodeName nodeNamespace
  | .clientsByNode nodeName nodeNamespace =>
      impl.rmwGetClientNamesAndTypesByNode demangleServiceTypeOnly nodeName nodeNamespace
  | .topics => impl.rmwGetTopicNamesAndTypes demangleIfRosType
  | .services => impl.rmwGetServiceNamesAndTypes demangleServiceTypeOnly

/-- A query copies the map of the topics that it covers. -/
theorem Query.run_eq (impl : CustomNodeInfo) (query : Query) :
    query.run impl =
      copyDataToResults (NamesAndTypes.addTopics ∅ (query.covered impl.discoveredNodes))
        query.kind.demangle := by
  cases query with
  | subscribersByNode name namespace_ =>
      exact congrArg (copyDataToResults · _) (DiscoveredNodes.namesAndTypesByNode_eq _ _ _ _)
  | publishersByNode name namespace_ =>
      exact congrArg (copyDataToResults · _) (DiscoveredNodes.namesAndTypesByNode_eq _ _ _ _)
  | servicesByNode name namespace_ =>
      exact congrArg (copyDataToResults · _) (DiscoveredNodes.namesAndTypesByNode_eq _ _ _ _)
  | clientsByNode name namespace_ =>
      exact congrArg (copyDataToResults · _) (DiscoveredNodes.namesAndTypesByNode_eq _ _ _ _)
  | topics => exact congrArg (copyDataToResults · _) (DiscoveredNodes.getTopicNamesAndTypes_eq _)
  | services =>
      exact congrArg (copyDataToResults · _) (DiscoveredNodes.getServiceNamesAndTypes_eq _)

end Run

/-- What a query covers in a discovered graph are entities of its kind with types. -/
theorem Query.covered_typed [DpsCbor] [DpsCbor.Lawful] {nodes : DiscoveredNodes}
    (hGraph : DiscoveredGraph nodes) (query : Query) :
    ∀ topic ∈ query.covered nodes, ∃ type, topic.OfType query.kind type := by
  have hTyped := hGraph.typed
  have hNamed : ∀ {name namespace_ : StdString},
      ∀ node ∈ (nodes.nodeNamed name namespace_).toList, node.Typed := by
    intro name namespace_ node hNode
    rw [Option.mem_toList] at hNode
    exact hTyped node (List.mem_of_find?_eq_some hNode)
  intro topic hTopic
  cases query with
  | subscribersByNode name namespace_ =>
      obtain ⟨node, hNode, hMem⟩ := List.mem_flatMap.mp hTopic
      exact (hNamed node hNode).messages topic (List.mem_append_left _ hMem)
  | publishersByNode name namespace_ =>
      obtain ⟨node, hNode, hMem⟩ := List.mem_flatMap.mp hTopic
      exact (hNamed node hNode).messages topic (List.mem_append_right _ hMem)
  | servicesByNode name namespace_ =>
      obtain ⟨node, hNode, hMem⟩ := List.mem_flatMap.mp hTopic
      exact (hNamed node hNode).services topic (List.mem_append_left _ hMem)
  | clientsByNode name namespace_ =>
      obtain ⟨node, hNode, hMem⟩ := List.mem_flatMap.mp hTopic
      exact (hNamed node hNode).services topic (List.mem_append_right _ hMem)
  | topics =>
      obtain ⟨node, hNode, hMem⟩ := List.mem_flatMap.mp hTopic
      exact (hTyped node hNode).messages topic hMem
  | services =>
      obtain ⟨node, hNode, hMem⟩ := List.mem_flatMap.mp hTopic
      exact (hTyped node hNode).services topic (List.mem_append_left _ hMem)

/-! ## The type names of one type -/

def TypeName.rosType (type : TypeName) : StdString := rosTypeOf type.parts type.name

namespace TypeName

variable {type type' : TypeName} {kind : Kind} {typeName : StdString}

theorem rosType_injective (hSame : type.rosType = type'.rosType) : type = type' :=
  rosTypeOf_injective hSame

theorem rosType_ne_nil (type : TypeName) : type.rosType ≠ [] := by
  rw [rosType, rosTypeOf]
  exact List.append_ne_nil_of_left_ne_nil (List.append_ne_nil_of_right_ne_nil _ (by decide)) _

theorem zero_notMem_rosType (type : TypeName) : (0 : UInt8) ∉ type.rosType := by
  rw [rosType, rosTypeOf_eq]
  apply notMem_append _ type.zero
  rw [List.mem_flatMap]
  rintro ⟨part, hPart, hZero⟩
  exact absurd hZero (notMem_append (type.part part hPart).zero (by decide))

theorem exists_mem_typeNames (type : TypeName) (kind : Kind) :
    ∃ typeName, typeName ∈ type.typeNames kind := by
  cases kind with
  | message => exact ⟨_, List.mem_cons_self⟩
  | service => exact ⟨_, List.mem_cons_self⟩

/-- A type name is that of one type of a kind. -/
theorem eq_of_mem_typeNames (hType : typeName ∈ type.typeNames kind)
    (hType' : typeName ∈ type'.typeNames kind) : type = type' := by
  cases kind with
  | message =>
      obtain rfl := List.mem_singleton.mp hType
      exact createTypeName_injective (List.mem_singleton.mp hType')
  | service =>
      simp only [typeNames, List.mem_cons, List.not_mem_nil, or_false] at hType hType'
      obtain rfl | rfl := hType <;> obtain hSame | hSame := hType'
      · exact request_injective (createTypeName_injective hSame)
      · exact absurd (createTypeName_injective hSame) (request_ne_response _ _)
      · exact absurd (createTypeName_injective hSame).symm (request_ne_response _ _)
      · exact response_injective (createTypeName_injective hSame)

/-- The type names of a type have its ROS type in common. -/
theorem demangle_typeNames [Rcpputils] [Rcpputils.Lawful] (hType : typeName ∈ type.typeNames kind)
    (hSized : typeName.length < 2 ^ 64) : kind.demangle typeName = type.rosType := by
  cases kind with
  | message =>
      obtain rfl := List.mem_singleton.mp hType
      exact type.demangleIfRosType_members hSized
  | service =>
      simp only [typeNames, List.mem_cons, List.not_mem_nil, or_false] at hType
      obtain rfl | rfl := hType
      · exact type.demangleServiceTypeOnly_request hSized
      · exact type.demangleServiceTypeOnly_response hSized

end TypeName

/-! ## What is reported -/

/-- The names are pairwise different, and so are the types of each, which are the ROS
types of the entities under the name. -/
structure ReportsSets (covered : List Topic) (HasRosType : Topic → StdString → Prop)
    (results : RmwNamesAndTypes) : Prop where
  names : (results.map Prod.fst).Nodup
  types : ∀ entry ∈ results, entry.2.Nodup
  nonempty : ∀ entry ∈ results, entry.2 ≠ [] ∧ [] ∉ entry.2
  reported : ∀ name rosType, results.Reports name rosType ↔
    ∃ topic ∈ covered, topic.topic = name ∧ HasRosType topic rosType

theorem ReportsSets.congr {covered : List Topic} {HasRosType HasRosType' : Topic → StdString → Prop}
    {results : RmwNamesAndTypes} (hSets : ReportsSets covered HasRosType results)
    (hSame : ∀ topic ∈ covered, ∀ rosType, HasRosType topic rosType ↔ HasRosType' topic rosType) :
    ReportsSets covered HasRosType' results where
  names := hSets.names
  types := hSets.types
  nonempty := hSets.nonempty
  reported name rosType := by
    rw [hSets.reported]
    exact exists_congr fun topic => and_congr_right fun hTopic =>
      and_congr_right fun _ => hSame topic hTopic rosType

/-- The ROS type of an entity by the namespace and the name of its description. -/
def Topic.HasDescribedType (kind : Kind) (topic : Topic) (rosType : StdString) : Prop :=
  ∃ type, topic.OfType kind type ∧ type.rosType = rosType

def TypesAreSets (covered : List Topic) (kind : Kind) (results : RmwNamesAndTypes) : Prop :=
  ReportsSets covered (Topic.HasDescribedType kind) results

section Reports

variable [Rcpputils] [Rcpputils.Lawful] {covered : List Topic} {kind : Kind}

omit [Rcpputils] [Rcpputils.Lawful] in
theorem zero_notMem_names (hTyped : ∀ topic ∈ covered, ∃ type, topic.OfType kind type) :
    ∀ name ∈ NamesAndTypes.addTopics ∅ covered, (0 : UInt8) ∉ name := by
  intro name hName
  obtain hNone | ⟨topic, hTopic, rfl⟩ := NamesAndTypes.mem_addTopics.mp hName
  · exact absurd hNone Std.ExtTreeMap.not_mem_empty
  · obtain ⟨type, hType⟩ := hTyped topic hTopic
    exact hType.zero

omit [Rcpputils] [Rcpputils.Lawful] in
/-- What the map has under a name, as type names of types. -/
theorem lists_covered {name typeName : StdString}
    (hTyped : ∀ topic ∈ covered, ∃ type, topic.OfType kind type) :
    (NamesAndTypes.addTopics ∅ covered).Lists name typeName ↔
      ∃ topic ∈ covered, topic.topic = name ∧ ∃ type, topic.OfType kind type ∧
        typeName ∈ type.typeNames kind := by
  rw [NamesAndTypes.lists_addTopics, or_iff_right NamesAndTypes.not_lists_empty]
  constructor
  · rintro ⟨topic, hTopic, hName, hMem⟩
    obtain ⟨type, hType⟩ := hTyped topic hTopic
    exact ⟨topic, hTopic, hName, type, hType, hType.types ▸ hMem⟩
  · rintro ⟨topic, hTopic, hName, type, hType, hMem⟩
    exact ⟨topic, hTopic, hName, hType.types ▸ hMem⟩

/-- The text that is copied for a type name. -/
theorem cStr_demangle {topic : Topic} {type : TypeName} {typeName : StdString}
    (hType : topic.OfType kind type) (hMem : typeName ∈ type.typeNames kind) :
    cStr (kind.demangle typeName) = type.rosType := by
  have hSized : typeName.length < 2 ^ 64 := hType.sized typeName (hType.types ▸ hMem)
  rw [TypeName.demangle_typeNames hMem hSized, cStr_eq_self type.zero_notMem_rosType]

/-- Each ROS type of a covered entity is reported under its name, and no other. -/
theorem reports_covered (hTyped : ∀ topic ∈ covered, ∃ type, topic.OfType kind type)
    (name rosType : StdString) :
    (copyDataToResults (NamesAndTypes.addTopics ∅ covered) kind.demangle).Reports name rosType ↔
      ∃ topic ∈ covered, topic.topic = name ∧ ∃ type, topic.OfType kind type ∧
        type.rosType = rosType := by
  rw [reports_copyDataToResults (zero_notMem_names hTyped)]
  constructor
  · rintro ⟨typeName, hLists, rfl⟩
    obtain ⟨topic, hTopic, hName, type, hType, hMem⟩ := (lists_covered hTyped).mp hLists
    exact ⟨topic, hTopic, hName, type, hType, (cStr_demangle hType hMem).symm⟩
  · rintro ⟨topic, hTopic, hName, type, hType, rfl⟩
    obtain ⟨typeName, hMem⟩ := type.exists_mem_typeNames kind
    refine ⟨typeName, (lists_covered hTyped).mpr ?_, cStr_demangle hType hMem⟩
    exact ⟨topic, hTopic, hName, type, hType, hMem⟩

/-- Under each name there is a type, and none is empty. -/
theorem nonempty_covered (hTyped : ∀ topic ∈ covered, ∃ type, topic.OfType kind type)
    {entry : StdString × List StdString}
    (hEntry : entry ∈ copyDataToResults (NamesAndTypes.addTopics ∅ covered) kind.demangle) :
    entry.2 ≠ [] ∧ [] ∉ entry.2 := by
  constructor
  · obtain ⟨name, types, hTypes, rfl⟩ := mem_copyDataToResults.mp hEntry
    have hName : name ∈ NamesAndTypes.addTopics ∅ covered := by
      rw [Std.ExtTreeMap.mem_iff_isSome_getElem?, hTypes]
      rfl
    obtain hNone | ⟨topic, hTopic, hSame⟩ := NamesAndTypes.mem_addTopics.mp hName
    · exact absurd hNone Std.ExtTreeMap.not_mem_empty
    · obtain ⟨type, hType⟩ := hTyped topic hTopic
      obtain ⟨typeName, hMem⟩ := type.exists_mem_typeNames kind
      obtain ⟨types', hTypes', hListed⟩ :=
        (lists_covered hTyped).mpr ⟨topic, hTopic, hSame, type, hType, hMem⟩
      rw [hTypes, Option.some_inj] at hTypes'
      rw [← hTypes', ← Std.ExtTreeSet.mem_toList] at hListed
      exact List.ne_nil_of_mem (List.mem_map_of_mem hListed)
  · intro hEmpty
    have hReports := (reports_covered hTyped entry.1 []).mp ⟨entry.2, hEntry, hEmpty⟩
    obtain ⟨topic, -, -, type, -, hNil⟩ := hReports
    exact type.rosType_ne_nil hNil

/-- Different type names of message types are demangled to different ROS types. -/
theorem nodup_covered_message (hTyped : ∀ topic ∈ covered, ∃ type, topic.OfType .message type)
    {entry : StdString × List StdString}
    (hEntry : entry ∈
      copyDataToResults (NamesAndTypes.addTopics ∅ covered) Kind.message.demangle) :
    entry.2.Nodup := by
  obtain ⟨name, types, hTypes, rfl⟩ := mem_copyDataToResults.mp hEntry
  apply nodup_map_toList
  intro typeName hMem other hOther hSame
  have hLists := (lists_covered hTyped).mp ⟨types, hTypes, hMem⟩
  have hLists' := (lists_covered hTyped).mp ⟨types, hTypes, hOther⟩
  obtain ⟨topic, -, -, type, hType, hMem⟩ := hLists
  obtain ⟨topic', -, -, type', hType', hMem'⟩ := hLists'
  rw [cStr_demangle hType hMem, cStr_demangle hType' hMem'] at hSame
  obtain rfl := TypeName.rosType_injective hSame
  rw [List.mem_singleton.mp hMem, List.mem_singleton.mp hMem']

/-- The two type names of a service are demangled to the same ROS type. -/
theorem not_nodup_covered_service (hTyped : ∀ topic ∈ covered, ∃ type, topic.OfType .service type)
    (hCovered : covered ≠ []) :
    ∃ entry ∈ copyDataToResults (NamesAndTypes.addTopics ∅ covered) Kind.service.demangle,
      ¬ entry.2.Nodup := by
  obtain ⟨topic, hTopic⟩ := List.exists_mem_of_ne_nil _ hCovered
  obtain ⟨type, hType⟩ := hTyped topic hTopic
  have hRequest : createTypeName type.request.members ∈ type.typeNames .service := by
    simp [TypeName.typeNames]
  have hResponse : createTypeName type.response.members ∈ type.typeNames .service := by
    simp [TypeName.typeNames]
  obtain ⟨types, hTypes, hMem⟩ :=
    (lists_covered hTyped).mpr ⟨topic, hTopic, rfl, type, hType, hRequest⟩
  obtain ⟨types', hTypes', hMem'⟩ :=
    (lists_covered hTyped).mpr ⟨topic, hTopic, rfl, type, hType, hResponse⟩
  rw [hTypes, Option.some_inj] at hTypes'
  subst hTypes'
  refine ⟨_, mem_copyDataToResults.mpr ⟨_, types, hTypes, rfl⟩, ?_⟩
  apply not_nodup_map_toList hMem hMem'
  · intro hSame
    exact TypeName.request_ne_response _ _ (TypeName.createTypeName_injective hSame)
  · rw [cStr_demangle hType hRequest, cStr_demangle hType hResponse]

theorem typesAreSets_covered_iff (hTyped : ∀ topic ∈ covered, ∃ type, topic.OfType kind type) :
    TypesAreSets covered kind
        (copyDataToResults (NamesAndTypes.addTopics ∅ covered) kind.demangle) ↔
      kind = .message ∨ covered = [] := by
  constructor
  · intro hSets
    cases kind with
    | message => exact .inl rfl
    | service =>
        by_contra hCovered
        rw [not_or] at hCovered
        obtain ⟨entry, hEntry, hTwice⟩ := not_nodup_covered_service hTyped hCovered.2
        exact hTwice (hSets.types entry hEntry)
  · intro hKind
    refine ⟨nodup_names_copyDataToResults (zero_notMem_names hTyped), ?_,
      fun _ hEntry => nonempty_covered hTyped hEntry, reports_covered hTyped⟩
    intro entry hEntry
    obtain rfl | rfl := hKind
    · exact nodup_covered_message hTyped hEntry
    · obtain ⟨name, types, hTypes, -⟩ := mem_copyDataToResults.mp hEntry
      simp [NamesAndTypes.addTopics] at hTypes

/-- A ROS type is reported under a name exactly if an entity has the type's names. -/
theorem reports_rosType_iff (hTyped : ∀ topic ∈ covered, ∃ type, topic.OfType kind type)
    (name : StdString) (type : TypeName) :
    (copyDataToResults (NamesAndTypes.addTopics ∅ covered) kind.demangle).Reports name
        type.rosType ↔
      ∃ topic ∈ covered, topic.topic = name ∧ topic.types = type.typeNames kind := by
  rw [reports_covered hTyped]
  constructor
  · rintro ⟨topic, hTopic, hName, type', hType, hSame⟩
    obtain rfl := TypeName.rosType_injective hSame
    exact ⟨topic, hTopic, hName, hType.types⟩
  · rintro ⟨topic, hTopic, hName, hTypes⟩
    obtain ⟨type', hType⟩ := hTyped topic hTopic
    obtain ⟨typeName, hMem⟩ := type.exists_mem_typeNames kind
    have hMem' : typeName ∈ type'.typeNames kind := by rwa [← hType.types, hTypes]
    obtain rfl := TypeName.eq_of_mem_typeNames hMem hMem'
    exact ⟨topic, hTopic, hName, _, hType, rfl⟩

end Reports

/-! ## The two introspection packages -/

/-- An interface `package/subfolder/Name`. -/
structure PackageInterface where
  package : StdString
  subfolder : StdString
  name : StdString
  identifier : ∀ s ∈ [package, subfolder, name], Identifier s

namespace PackageInterface

variable (interface : PackageInterface)

/-- The members that the introspection packages generate for the interface, or for one of
the two messages of a service. -/
def members (membersType : MembersType) (suffix : StdString) : MembersName where
  messageNamespace :=
    match membersType with
    | .cpp => interface.package ++ scopeSeparator ++ interface.subfolder
    | .c => interface.package ++ bytesOf "__" ++ interface.subfolder
  messageName := interface.name ++ suffix

/-- The type names that an entity for the interface advertises. -/
def typeNames (membersType : MembersType) : Kind → List StdString
  | .message => [createTypeName (interface.members membersType [])]
  | .service =>
      [createTypeName (interface.members membersType (bytesOf "_Request")),
        createTypeName (interface.members membersType (bytesOf "_Response"))]

def rosType : StdString :=
  interface.package ++ typeSeparator ++ interface.subfolder ++ typeSeparator ++ interface.name

theorem part_of_mem {s : StdString}
    (hMem : s ∈ [interface.package, interface.subfolder, interface.name]) : Part s :=
  (interface.identifier s hMem).part

/-- The namespace of a C description is one word. -/
theorem part_c : Part (interface.package ++ bytesOf "__" ++ interface.subfolder) := by
  have hPackage : Part interface.package := interface.part_of_mem (by simp)
  have hSubfolder : Part interface.subfolder := interface.part_of_mem (by simp)
  constructor
  · exact List.append_ne_nil_of_right_ne_nil _ hSubfolder.nonempty
  · exact TypeName.notMem_append (TypeName.notMem_append hPackage.zero (by decide)) hSubfolder.zero
  · exact TypeName.notMem_append (TypeName.notMem_append hPackage.colon (by decide))
      hSubfolder.colon
  · exact TypeName.notMem_append (TypeName.notMem_append hPackage.slash (by decide))
      hSubfolder.slash
  · rw [List.getLast?_append_of_ne_nil _ hSubfolder.nonempty]
    exact hSubfolder.last

/-- The type of the description. -/
def type : MembersType → TypeName
  | .cpp =>
      { parts := [interface.package, interface.subfolder]
        name := interface.name
        nonempty := by simp
        part := fun _ hPart => interface.part_of_mem (List.mem_append_left [interface.name] hPart)
        zero := (interface.part_of_mem (by simp)).zero
        slash := (interface.part_of_mem (by simp)).slash }
  | .c =>
      { parts := [interface.package ++ bytesOf "__" ++ interface.subfolder]
        name := interface.name
        nonempty := by simp
        part := by simpa using interface.part_c
        zero := (interface.part_of_mem (by simp)).zero
        slash := (interface.part_of_mem (by simp)).slash }

theorem namespaceOf_type (membersType : MembersType) (suffix : StdString) :
    namespaceOf (interface.type membersType).parts =
      (interface.members membersType suffix).messageNamespace := by
  cases membersType with
  | cpp => simp [type, members, namespaceOf, List.intercalate_cons_cons]
  | c => simp [type, members, namespaceOf]

/-- The type is the one that the members name. -/
theorem typeNames_type (membersType : MembersType) (kind : Kind) :
    (interface.type membersType).typeNames kind = interface.typeNames membersType kind := by
  have hName : (interface.type membersType).name = interface.name := by
    cases membersType <;> rfl
  have hNamespace := interface.namespaceOf_type membersType
  cases kind with
  | message =>
      simp only [TypeName.typeNames, typeNames, TypeName.members, hNamespace [], hName, members,
        List.append_nil]
  | service =>
      simp only [TypeName.typeNames, typeNames, TypeName.members, TypeName.request,
        TypeName.response, hNamespace [], hName, members]

theorem rosType_cpp : (interface.type .cpp).rosType = interface.rosType := by
  rw [TypeName.rosType, TypeName.rosTypeOf_eq]
  simp [type, rosType]

/-- A C description is demangled to a type of a package that is called after the
namespace. -/
theorem rosType_c : (interface.type .c).rosType =
    interface.package ++ bytesOf "__" ++ interface.subfolder ++ typeSeparator ++
      interface.name := by
  rw [TypeName.rosType, TypeName.rosTypeOf_eq]
  simp [type]

theorem type_c_ne_cpp (other : PackageInterface) : interface.type .c ≠ other.type .cpp := by
  intro hSame
  have hLength := congrArg (fun type => type.parts.length) hSame
  simp [type] at hLength

/-- No type name of a C description is one of a C++ description. -/
theorem typeNames_c_disjoint (kind : Kind) :
    ∀ typeName ∈ interface.typeNames .c kind, typeName ∉ interface.typeNames .cpp kind := by
  intro typeName hC hCpp
  rw [← typeNames_type] at hC hCpp
  exact interface.type_c_ne_cpp interface (TypeName.eq_of_mem_typeNames hC hCpp)

/-- Entities for the interface are advertised and reported with the same type, whichever
package describes it. -/
structure SameRosType [DpsCbor] [Rcpputils] : Prop where
  advertised : ∀ kind, interface.typeNames .c kind = interface.typeNames .cpp kind
  reported : ∀ impl : CustomNodeInfo, DiscoveredGraph impl.discoveredNodes →
    ∀ query : Query, query = .topics ∨ query = .services →
    ∀ (membersType : MembersType), ∀ topic ∈ query.covered impl.discoveredNodes,
      topic.types = interface.typeNames membersType query.kind →
        (query.run impl).Reports topic.topic interface.rosType

section Reports

variable [DpsCbor] [DpsCbor.Lawful] [Rcpputils] [Rcpputils.Lawful]

/-- For no interface is it the same type: the type names have nothing in common, and in
every discovered graph `package/subfolder/Name` is reported exactly for the entities with a
C++ description, and the type of a package `package__subfolder` for those with a C
description. -/
theorem not_sameRosType :
    ¬ interface.SameRosType ∧
    (∀ kind, ∀ typeName ∈ interface.typeNames .c kind,
      typeName ∉ interface.typeNames .cpp kind) ∧
    ∀ impl : CustomNodeInfo, DiscoveredGraph impl.discoveredNodes →
      ∀ (query : Query) (name : StdString),
        ((query.run impl).Reports name interface.rosType ↔
          ∃ topic ∈ query.covered impl.discoveredNodes, topic.topic = name ∧
            topic.types = interface.typeNames .cpp query.kind) ∧
        ((query.run impl).Reports name
            (interface.package ++ bytesOf "__" ++ interface.subfolder ++ typeSeparator ++
              interface.name) ↔
          ∃ topic ∈ query.covered impl.discoveredNodes, topic.topic = name ∧
            topic.types = interface.typeNames .c query.kind) := by
  refine ⟨?_, interface.typeNames_c_disjoint, ?_⟩
  · intro hSame
    have hMem : createTypeName (interface.members .c []) ∈ interface.typeNames .c .message :=
      List.mem_cons_self
    exact interface.typeNames_c_disjoint .message _ hMem (hSame.advertised .message ▸ hMem)
  · intro impl hGraph query name
    have hTyped := query.covered_typed hGraph
    rw [Query.run_eq, ← interface.rosType_cpp, ← interface.rosType_c, ← typeNames_type,
      ← typeNames_type]
    exact ⟨reports_rosType_iff hTyped name _, reports_rosType_iff hTyped name _⟩

end Reports

end PackageInterface

/-! ## Which queries report sets -/

/-- The ROS type of an entity by the interface, whichever package describes it. -/
def Topic.HasInterfaceType (kind : Kind) (topic : Topic) (rosType : StdString) : Prop :=
  ∃ (interface : PackageInterface) (membersType : MembersType),
    topic.types = interface.typeNames membersType kind ∧ interface.rosType = rosType

def InterfacesAreSets (covered : List Topic) (kind : Kind) (results : RmwNamesAndTypes) : Prop :=
  ReportsSets covered (Topic.HasInterfaceType kind) results

/-- The entity has a C++ description of an interface. -/
def Topic.DescribedInCpp (kind : Kind) (topic : Topic) : Prop :=
  ∃ interface : PackageInterface, topic.types = interface.typeNames .cpp kind

namespace Topic

variable {kind : Kind} {topic : Topic} {type : TypeName} {rosType : StdString}

/-- A type that the interface of an entity has by its description is described in C++. -/
theorem describedInCpp_of_rosType (hType : topic.OfType kind type) {interface : PackageInterface}
    (hSame : interface.rosType = type.rosType) : topic.DescribedInCpp kind := by
  refine ⟨interface, ?_⟩
  rw [← interface.rosType_cpp] at hSame
  rw [hType.types, ← TypeName.rosType_injective hSame, interface.typeNames_type]

/-- With a C++ description both readings of the ROS type are the same. -/
theorem hasDescribedType_iff (hType : topic.OfType kind type) (hCpp : topic.DescribedInCpp kind) :
    topic.HasDescribedType kind rosType ↔ topic.HasInterfaceType kind rosType := by
  obtain ⟨interface, hTypes⟩ := hCpp
  have hMembers : topic.types = (interface.type .cpp).typeNames kind := by
    rw [hTypes, interface.typeNames_type]
  have hOnly : ∀ other : TypeName, topic.types = other.typeNames kind →
      other = interface.type .cpp := by
    intro other hOther
    obtain ⟨typeName, hMem⟩ := other.exists_mem_typeNames kind
    have hMem' : typeName ∈ (interface.type .cpp).typeNames kind := by rwa [← hMembers, hOther]
    exact TypeName.eq_of_mem_typeNames hMem hMem'
  constructor
  · rintro ⟨other, hOther, rfl⟩
    rw [hOnly other hOther.types, interface.rosType_cpp]
    exact ⟨interface, .cpp, hTypes, rfl⟩
  · rintro ⟨other, membersType, hOther, rfl⟩
    rw [← other.typeNames_type] at hOther
    have hSame := hOnly _ hOther
    cases membersType with
    | cpp =>
        rw [← other.rosType_cpp, hSame]
        exact ⟨_, ⟨hType.zero, hMembers, hType.sized⟩, rfl⟩
    | c => exact absurd hSame (other.type_c_ne_cpp interface)

end Topic

section Queries

variable [Rcpputils] [Rcpputils.Lawful] {covered : List Topic} {kind : Kind}

theorem interfacesAreSets_covered_iff
    (hTyped : ∀ topic ∈ covered, ∃ type, topic.OfType kind type) :
    InterfacesAreSets covered kind
        (copyDataToResults (NamesAndTypes.addTopics ∅ covered) kind.demangle) ↔
      (kind = .message ∧ ∀ topic ∈ covered, topic.DescribedInCpp kind) ∨ covered = [] := by
  have hCongr : (∀ topic ∈ covered, topic.DescribedInCpp kind) → ∀ topic ∈ covered, ∀ rosType,
      topic.HasDescribedType kind rosType ↔ topic.HasInterfaceType kind rosType := by
    intro hCpp topic hTopic rosType
    obtain ⟨type, hType⟩ := hTyped topic hTopic
    exact Topic.hasDescribedType_iff hType (hCpp topic hTopic)
  constructor
  · intro hSets
    -- The described type of an entity is reported, so it must be the type of an interface.
    have hCpp : ∀ topic ∈ covered, topic.DescribedInCpp kind := by
      intro topic hTopic
      obtain ⟨type, hType⟩ := hTyped topic hTopic
      have hReports := (reports_covered hTyped topic.topic type.rosType).mpr
        ⟨topic, hTopic, rfl, type, hType, rfl⟩
      obtain ⟨other, hOther, -, interface, membersType, -, hSame⟩ :=
        (hSets.reported _ _).mp hReports
      exact Topic.describedInCpp_of_rosType hType hSame
    have hDescribed : TypesAreSets covered kind _ := hSets.congr fun topic hTopic rosType =>
      (hCongr hCpp topic hTopic rosType).symm
    exact ((typesAreSets_covered_iff hTyped).mp hDescribed).imp_left fun hKind => ⟨hKind, hCpp⟩
  · intro hHolds
    have hCpp : ∀ topic ∈ covered, topic.DescribedInCpp kind := by
      rcases hHolds with ⟨-, hCpp⟩ | rfl
      · exact hCpp
      · exact nofun
    exact ((typesAreSets_covered_iff hTyped).mpr (hHolds.imp_left And.left)).congr (hCongr hCpp)

variable [DpsCbor] [DpsCbor.Lawful] {impl : CustomNodeInfo}

/-- In every discovered graph the types that a query reports are sets if it is one of
the queries for topics, or if there is nothing to report.  They are the ROS types of the
interfaces if, besides, every entity that the query covers has a C++ description. -/
theorem typesAreSets_iff (hGraph : DiscoveredGraph impl.discoveredNodes) (query : Query) :
    (TypesAreSets (query.covered impl.discoveredNodes) query.kind (query.run impl) ↔
      query.kind = .message ∨ query.covered impl.discoveredNodes = []) ∧
    (InterfacesAreSets (query.covered impl.discoveredNodes) query.kind (query.run impl) ↔
      (query.kind = .message ∧
        ∀ topic ∈ query.covered impl.discoveredNodes, topic.DescribedInCpp query.kind) ∨
      query.covered impl.discoveredNodes = []) := by
  rw [Query.run_eq]
  have hTyped := query.covered_typed hGraph
  exact ⟨typesAreSets_covered_iff hTyped, interfacesAreSets_covered_iff hTyped⟩

end Queries

/-! ## A node with a publisher and a service -/

/-- `test_msgs/msg/Empty` and `test_msgs/srv/Empty`. -/
def emptyMessage : PackageInterface where
  package := bytesOf "test_msgs"
  subfolder := bytesOf "msg"
  name := bytesOf "Empty"
  identifier := by decide +kernel

def emptyService : PackageInterface where
  package := bytesOf "test_msgs"
  subfolder := bytesOf "srv"
  name := bytesOf "Empty"
  identifier := by decide +kernel

/-- Arguments that a create function has nothing to complain about. -/
def testArguments (name : StdString) : Creation.CreateArguments where
  node := true
  implementationIdentifier := intelDpsIdentifier
  name := some name
  qosPolicies := true
  impl := true
  implNode := true
  typeSupport := true

/-- `rmw_create_publisher` for `test_msgs/msg/Empty` on `/test`. -/
def emptyPublisherCall (membersType : MembersType) : Creation.CreateCall :=
  .publisher (testArguments (bytesOf "/test"))
    (createTypeName (emptyMessage.members membersType []))
    { createPublication := true, initPublication := .ok, publisherAllocate := true
      allocate := true }

/-- `rmw_create_service` for `test_msgs/srv/Empty` on `/test_service`. -/
def emptyServiceCall (membersType : MembersType) : Creation.CreateCall :=
  .service (testArguments (bytesOf "/test_service"))
    (createTypeName (emptyService.members membersType (bytesOf "_Request")))
    (createTypeName (emptyService.members membersType (bytesOf "_Response")))
    { createSubscription := true, setSubscriptionData := .ok, subscribe := .ok
      handleAllocate := true, allocate := true }

theorem emptyPublisherCall_ofType (membersType : MembersType) :
    (emptyPublisherCall membersType).entity.OfType (emptyMessage.type membersType) := by
  constructor
  · simp only [emptyPublisherCall, Creation.CreateCall.entity, Entity.Plain, Plain, Sized]
    cases membersType <;> decide +kernel
  · show (0 : UInt8) ∉ bytesOf "/test"
    decide
  · exact (emptyMessage.typeNames_type membersType .message).symm

theorem emptyServiceCall_ofType (membersType : MembersType) :
    (emptyServiceCall membersType).entity.OfType (emptyService.type membersType) := by
  constructor
  · simp only [emptyServiceCall, Creation.CreateCall.entity, Entity.Plain, Plain, Sized]
    cases membersType <;> decide +kernel
  · show (0 : UInt8) ∉ bytesOf "/test_service"
    decide
  · exact (emptyService.typeNames_type membersType .service).symm

/-- The node after some calls that DPS publishes. -/
def emptyRun (calls : List Creation.CreateCall) : Creation.NodeRun :=
  Transition.after (@Creation.NodeRun.next rfcCbor) Creation.freshRun
    (calls.map fun call => .create call .ok)

/-- The payload that a peer gets from the node with both entities. -/
def emptyPayload (membersType : MembersType) : List UInt8 :=
  arrayItem Rfc7049.text
    (emptyRun [emptyPublisherCall membersType, emptyServiceCall membersType]).impl.discoveryPayload

theorem emptyRun_reachable (membersType : MembersType) :
    (@Creation.nodeMachine rfcCbor (bytesOf "n") (bytesOf "/")).ReachableIf
      Creation.NodeEvent.Typed
      (emptyRun [emptyPublisherCall membersType, emptyServiceCall membersType]) := by
  have hPublisher : @Creation.NodeRun.next rfcCbor Creation.freshRun
      (.create (emptyPublisherCall membersType) .ok) =
        some (emptyRun [emptyPublisherCall membersType]) := by
    cases membersType <;> decide +kernel
  have hService : @Creation.NodeRun.next rfcCbor (emptyRun [emptyPublisherCall membersType])
      (.create (emptyServiceCall membersType) .ok) =
        some (emptyRun [emptyPublisherCall membersType, emptyServiceCall membersType]) := by
    cases membersType <;> decide +kernel
  have hTyped : Creation.NodeEvent.Typed Creation.freshRun
      (.create (emptyPublisherCall membersType) .ok) :=
    Or.inr ⟨⟨_, emptyPublisherCall_ofType membersType⟩, by decide⟩
  have hTyped' : Creation.NodeEvent.Typed (emptyRun [emptyPublisherCall membersType])
      (.create (emptyServiceCall membersType) .ok) :=
    Or.inr ⟨⟨_, emptyServiceCall_ofType membersType⟩, by cases membersType <;> decide +kernel⟩
  have hOne := @Transition.Machine.ReachableIf.step _ _ _ Creation.NodeEvent.Typed _ _ _
    (.init Creation.freshRun_init) hTyped hPublisher
  exact hOne.step hTyped' hService

/-- What the peer reads in it. -/
def emptyNode (membersType : MembersType) : Node where
  name := bytesOf "n"
  namespace_ := bytesOf "/"
  publishers := [(emptyPublisherCall membersType).entity.topic]
  services := [(emptyServiceCall membersType).entity.topic]

/-- A peer that has discovered the node. -/
def emptyPeer (membersType : MembersType) : CustomNodeInfo :=
  (CustomNodeInfo.new 0).announce (bytesOf "u") (some (emptyNode membersType))

theorem emptyPeer_discovered (membersType : MembersType) :
    @DiscoveredGraph rfcCbor (emptyPeer membersType).discoveredNodes := by
  have hPublished :
      (emptyRun [emptyPublisherCall membersType, emptyServiceCall membersType]).impl.published =
        some (emptyPayload membersType) := by
    cases membersType <;> decide +kernel
  have hDecode : @decodePayload rfcCbor (emptyPayload membersType) =
      .ok (some (emptyNode membersType)) := by
    cases membersType <;> decide +kernel
  have hStep : @onDiscovery rfcCbor (CustomNodeInfo.new 0) (bytesOf "u")
      (emptyPayload membersType) = .ok (emptyPeer membersType) := by
    unfold onDiscovery
    rw [hDecode]
    rfl
  exact @DiscoveredGraph.announced rfcCbor (CustomNodeInfo.new 0) _ _ _ _ _ _
    (@DiscoveredGraph.empty rfcCbor) (by unfold Sized; decide) (by unfold Sized; decide)
    (emptyRun_reachable membersType) hPublished hStep

theorem emptyPeer_covered (membersType : MembersType) :
    Query.topics.covered (emptyPeer membersType).discoveredNodes =
        [(emptyPublisherCall membersType).entity.topic] ∧
      Query.services.covered (emptyPeer membersType).discoveredNodes =
        [(emptyServiceCall membersType).entity.topic] :=
  ⟨rfl, rfl⟩

/-- A publisher has its type once, and by both readings if its description is in C++. -/
theorem emptyPeer_topics_typesAreSets :
    @Query.run replacingRcpputils (emptyPeer .cpp) .topics =
        [(bytesOf "/test", [bytesOf "test_msgs/msg/Empty"])] ∧
      TypesAreSets (Query.topics.covered (emptyPeer .cpp).discoveredNodes) .message
        (@Query.run replacingRcpputils (emptyPeer .cpp) .topics) ∧
      InterfacesAreSets (Query.topics.covered (emptyPeer .cpp).discoveredNodes) .message
        (@Query.run replacingRcpputils (emptyPeer .cpp) .topics) ∧
      TypesAreSets (Query.topics.covered (emptyPeer .c).discoveredNodes) .message
        (@Query.run replacingRcpputils (emptyPeer .c) .topics) := by
  have hSets := fun membersType => @typesAreSets_iff replacingRcpputils
    replacingRcpputils_lawful rfcCbor rfcCbor_lawful _ (emptyPeer_discovered membersType) .topics
  have hCpp : ∀ topic ∈ Query.topics.covered (emptyPeer .cpp).discoveredNodes,
      topic.DescribedInCpp .message := by
    rw [(emptyPeer_covered .cpp).1]
    intro topic hTopic
    obtain rfl := List.mem_singleton.mp hTopic
    exact ⟨emptyMessage, rfl⟩
  exact ⟨by decide +kernel, (hSets .cpp).1.mpr (.inl rfl), (hSets .cpp).2.mpr (.inl ⟨rfl, hCpp⟩),
    (hSets .c).1.mpr (.inl rfl)⟩

/-- The service has its type twice. -/
theorem emptyPeer_services_not_typesAreSets :
    @Query.run replacingRcpputils (emptyPeer .cpp) .services =
        [(bytesOf "/test_service",
          [bytesOf "test_msgs/srv/Empty", bytesOf "test_msgs/srv/Empty"])] ∧
      ¬ TypesAreSets (Query.services.covered (emptyPeer .cpp).discoveredNodes) .service
        (@Query.run replacingRcpputils (emptyPeer .cpp) .services) := by
  have hResults : @Query.run replacingRcpputils (emptyPeer .cpp) .services =
      [(bytesOf "/test_service",
        [bytesOf "test_msgs/srv/Empty", bytesOf "test_msgs/srv/Empty"])] := by decide +kernel
  refine ⟨hResults, fun hSets => ?_⟩
  have hNodup := hSets.types _ (hResults ▸ List.mem_cons_self)
  exact absurd hNodup (by decide)

theorem emptyService_c_reported :
    @RmwNamesAndTypes.Reports (@Query.run replacingRcpputils (emptyPeer .c) .services)
        (bytesOf "/test_service") (bytesOf "test_msgs__srv/Empty") ∧
      ¬ @RmwNamesAndTypes.Reports (@Query.run replacingRcpputils (emptyPeer .c) .services)
        (bytesOf "/test_service") (bytesOf "test_msgs/srv/Empty") := by
  have hReports := (@PackageInterface.not_sameRosType emptyService rfcCbor rfcCbor_lawful
    replacingRcpputils replacingRcpputils_lawful).2.2 _ (emptyPeer_discovered .c) .services
    (bytesOf "/test_service")
  rw [(emptyPeer_covered .c).2] at hReports
  constructor
  · exact hReports.2.mpr ⟨_, List.mem_cons_self, rfl, rfl⟩
  · intro hReported
    obtain ⟨topic, hTopic, -, hTypes⟩ := hReports.1.mp hReported
    rw [List.mem_singleton.mp hTopic] at hTypes
    exact absurd hTypes (by decide +kernel)

/-- The names of the C description, advertised and demangled. -/
theorem emptyService_not_sameRosType :
    createTypeName (emptyService.members .c (bytesOf "_Request")) =
        bytesOf "test_msgs__srv::dps_::Empty_Request_" ∧
      @demangleServiceTypeOnly replacingRcpputils
        (bytesOf "test_msgs__srv::dps_::Empty_Request_") = bytesOf "test_msgs__srv/Empty" ∧
      ¬ @PackageInterface.SameRosType emptyService rfcCbor replacingRcpputils := by
  refine ⟨by decide +kernel, by decide +kernel, fun hSame => ?_⟩
  have hNames := @PackageInterface.SameRosType.advertised emptyService rfcCbor
    replacingRcpputils hSame .service
  exact absurd hNames (by decide +kernel)

end Discovery
end RmwDps
