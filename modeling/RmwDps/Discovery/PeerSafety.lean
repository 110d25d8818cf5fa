import RmwDps.Discovery.QuerySafety

/-!
# Peers that do no harm

The strings that make a query cut outside of a string are not among those that nodes of
this implementation publish for entities with types: the keyword of an entity's string
is its start, the types are behind the name, no type name is empty, and the type names of
services are service types.  So a run on payloads of such nodes is in range throughout.
-/

namespace RmwDps
namespace Discovery
namespace Recorded

open Serialization
open Traced (value All)

/-! ## What is published -/

/-- The type names of a type can be cut. -/
theorem typeSliceable_typeNames {type : TypeName} {kind : Kind} {typeName : StdString}
    (hType : typeName ∈ type.typeNames kind) (noDemangle : Bool) :
    TypeSliceable kind noDemangle typeName := by
  have hDps : ∀ front name suffix : StdString,
      dpsSubstring <:+: front ++ (dpsSubstring ++ name ++ suffix) := by
    intro front name suffix
    exact ⟨front, name ++ suffix, by simp only [List.append_assoc]⟩
  have hSuffix : ∀ front name suffix : StdString,
      suffix <:+ front ++ (dpsSubstring ++ name ++ suffix) := by
    intro front name suffix
    exact ⟨front ++ (dpsSubstring ++ name), by simp only [List.append_assoc]⟩
  cases kind with
  | message =>
      obtain rfl := List.mem_singleton.mp hType
      exact .inr (by simp [createTypeName, bytesOf])
  | service =>
      simp only [TypeName.typeNames, List.mem_cons, List.not_mem_nil, or_false] at hType
      rcases hType with rfl | rfl
      · rw [TypeName.createTypeName_request]
        exact .inl ⟨hDps _ _ _, .inr (hSuffix _ _ _)⟩
      · rw [TypeName.createTypeName_response]
        exact .inl ⟨hDps _ _ _, .inl (hSuffix _ _ _)⟩

/-- A string that is decided by the namespace or the name has no types. -/
theorem sliceable_of_not_isTopic {s : StdString} {keyword : Keyword}
    (hDeciding : Keyword.deciding? s = some keyword) (hTopic : ¬ keyword.IsTopic) :
    Sliceable s := by
  intro other hOther hOtherTopic
  rw [hDeciding] at hOther
  cases hOther
  exact absurd hOtherTopic hTopic

theorem sliceable_namespace (namespace_ : StdString) :
    Sliceable (dpsNamespacePrefix ++ namespace_) := by
  refine @sliceable_of_not_isTopic _ .namespace_ ?_ (by decide)
  rw [Keyword.deciding?_eq, List.find?_cons, Keyword.text, ByteString.find_self_append]
  rfl

theorem sliceable_name (name : StdString) : Sliceable (dpsNamePrefix ++ name) := by
  have hName := ByteString.find_self_append dpsNamePrefix name
  have hDeciding := Keyword.deciding?_eq (dpsNamePrefix ++ name)
  simp only [List.find?_cons, Keyword.text, hName] at hDeciding
  -- The namespace is tried first, and may be found inside the name.
  cases hNamespace : ByteString.find dpsNamespacePrefix (dpsNamePrefix ++ name) with
  | some found =>
      rw [hNamespace] at hDeciding
      exact sliceable_of_not_isTopic hDeciding (by decide)
  | none =>
      rw [hNamespace] at hDeciding
      exact sliceable_of_not_isTopic hDeciding (by decide)

theorem keyword_text_eq (keyword : Keyword) :
    ∃ word ∈ keywords, keyword.text = word ++ [0x3D] := by
  cases keyword with
  | namespace_ => exact ⟨bytesOf "namespace", by decide, by decide⟩
  | name => exact ⟨bytesOf "name", by decide, by decide⟩
  | subscriber => exact ⟨bytesOf "subscriber&topic", by decide, by decide⟩
  | publisher => exact ⟨bytesOf "publisher&topic", by decide, by decide⟩
  | service => exact ⟨bytesOf "service&topic", by decide, by decide⟩
  | client => exact ⟨bytesOf "client&topic", by decide, by decide⟩

/-- In the string of an entity only its own keyword is found, at the start. -/
theorem sliceable_discoveryName {entity : Entity} (hPlain : entity.Plain) :
    Sliceable entity.discoveryName := by
  obtain ⟨hName, hTypes⟩ := hPlain.separator_notMem
  rw [entity.discoveryName_eq]
  intro keyword hDeciding _ found hFound endPos hEnd
  obtain ⟨word, hWord, hText⟩ := keyword_text_eq keyword
  rw [hText] at hFound ⊢
  rw [find_typesKeyword entity.word_mem hName, Option.mem_some_iff] at hEnd
  by_cases hOwn : word = entity.word
  · subst hOwn
    have hStart : ByteString.find (entity.word ++ [0x3D])
        (topicString entity.word entity.name entity.typesText) = some 0 := by
      rw [topicString, List.append_assoc, List.append_assoc]
      exact ByteString.find_self_append _ _
    rw [hStart, Option.mem_some_iff] at hFound
    rw [List.length_append, List.length_singleton]
    omega
  · rw [← entity.discoveryName_eq, hPlain.find_of_ne hWord hOwn] at hFound
    cases hFound

/-! ## Runs on such payloads -/

section Runs

variable [DpsCbor] [DpsCbor.Lawful] [Rcpputils] {impl : CustomNodeInfo}

/-- A payload that a node with typed entities has published, or the one that DPS reports
when a publication ends; or any query. -/
def Event.FromPeer : Event → Prop
  | .discovery _ payload => payload = [] ∨ ∃ name namespace_ s,
      Sized (dpsNamePrefix ++ name) ∧ Sized (dpsNamespacePrefix ++ namespace_) ∧
      (Creation.nodeMachine name namespace_).ReachableIf Creation.NodeEvent.Typed s ∧
      s.impl.published = some payload
  | .query _ _ => True

omit [Rcpputils] in
/-- The strings of a typed payload have a size and can be cut. -/
theorem TypedPayload.strings {name namespace_ : StdString} {payload : List UInt8}
    (hName : Sized (dpsNamePrefix ++ name)) (hNamespace : Sized (dpsNamespacePrefix ++ namespace_))
    (hPayload : TypedPayload name namespace_ payload) :
    payload ≠ [] ∧ ∃ topics, decodeTopics payload = .ok topics ∧
      ∀ s ∈ topics, Sized s ∧ Sliceable s := by
  obtain ⟨entities, ser, hRoom, hEntities, hWrite, rfl⟩ := hPayload
  have hStrings : ∀ s ∈ (dpsNamespacePrefix ++ namespace_) :: (dpsNamePrefix ++ name) ::
      entities.map Entity.discoveryName, Sized s ∧ Sliceable s := by
    intro s hMem
    rw [List.mem_cons, List.mem_cons] at hMem
    rcases hMem with rfl | rfl | hMem
    · exact ⟨hNamespace, sliceable_namespace _⟩
    · exact ⟨hName, sliceable_name _⟩
    · obtain ⟨entity, hEntity, rfl⟩ := List.mem_map.mp hMem
      obtain ⟨type, hType⟩ := hEntities entity hEntity
      exact ⟨hType.plain.sized, sliceable_discoveryName hType.plain⟩
  obtain ⟨hNonempty, hDecode⟩ := decodeTopics_published
    (by rwa [List.length_cons, List.length_cons, List.length_map])
    (fun s hMem => (hStrings s hMem).1) hWrite
  exact ⟨hNonempty, _, hDecode, hStrings⟩

omit [Rcpputils] in
theorem onDiscovery_fromPeer {uuid payload name namespace_ : StdString} {s : Creation.NodeRun}
    (hGraph : DiscoveredGraph impl.discoveredNodes)
    (hName : Sized (dpsNamePrefix ++ name)) (hNamespace : Sized (dpsNamespacePrefix ++ namespace_))
    (hNode : (Creation.nodeMachine name namespace_).ReachableIf Creation.NodeEvent.Typed s)
    (hPublished : s.impl.published = some payload) :
    All Access.InRange (onDiscovery impl uuid payload) ∧
      DiscoveredGraph (value (onDiscovery impl uuid payload)).discoveredNodes := by
  have hPayload := (Creation.NodeRun.typed_of_reachable hNode).published _ hPublished
  obtain ⟨hNonempty, topics, hDecode, hStrings⟩ := TypedPayload.strings hName hNamespace hPayload
  have hTopics : ∀ other, decodeTopics payload = .ok other →
      ∀ s ∈ other, Sized s ∧ Sliceable s := by
    intro other hOther
    rw [hDecode] at hOther
    rwa [← Except.ok.inj hOther]
  have hStep : Discovery.onDiscovery impl uuid payload =
      .ok (impl.announce uuid (some (Node.ofTopics topics))) := by
    unfold Discovery.onDiscovery decodePayload
    rw [List.isEmpty_eq_false_iff.mpr hNonempty, hDecode]
    rfl
  refine ⟨all_onDiscovery.mpr fun _ other hOther s hMem => (hTopics other hOther s hMem).2, ?_⟩
  rw [value_onDiscovery fun other hOther s hMem => (hTopics other hOther s hMem).1, hStep]
  exact .announced hGraph hName hNamespace hNode hPublished hStep

theorem step_fromPeer (hGraph : DiscoveredGraph impl.discoveredNodes) {event : Event}
    (hPeer : event.FromPeer) :
    All Access.InRange (step impl event) ∧
      DiscoveredGraph (value (step impl event)).discoveredNodes := by
  cases event with
  | discovery uuid payload =>
      rcases hPeer with rfl | ⟨name, namespace_, s, hName, hNamespace, hNode, hPublished⟩
      · exact ⟨all_onDiscovery.mpr fun hNonempty => absurd rfl hNonempty, .left hGraph rfl⟩
      · exact onDiscovery_fromPeer hGraph hName hNamespace hNode hPublished
  | query query noDemangle =>
      refine ⟨(all_step impl _).mpr fun topic hTopic typeName hType => ?_, hGraph⟩
      obtain ⟨type, hOfType⟩ := Query.covered_typed hGraph query topic hTopic
      exact typeSliceable_typeNames (hOfType.types ▸ hType) noDemangle

/-- In a run on payloads of this implementation every position is in range. -/
theorem run_fromPeer (hGraph : DiscoveredGraph impl.discoveredNodes) {events : List Event}
    (hPeers : ∀ event ∈ events, event.FromPeer) :
    All Access.InRange (run impl events) ∧
      DiscoveredGraph (value (run impl events)).discoveredNodes := by
  induction events generalizing impl with
  | nil => exact ⟨by simp [run], hGraph⟩
  | cons event events ih =>
      obtain ⟨hPeer, hRest⟩ := List.forall_mem_cons.mp hPeers
      obtain ⟨hAll, hNext⟩ := step_fromPeer hGraph hPeer
      obtain ⟨hAllRest, hEnd⟩ := ih hNext hRest
      rw [run, List.foldlM_cons, Traced.all_bind, Traced.value_bind]
      exact ⟨⟨hAll, hAllRest⟩, hEnd⟩

end Runs

end Recorded
end Discovery
end RmwDps
