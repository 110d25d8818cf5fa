import RmwDps.Discovery.Creation
import RmwDps.Discovery.Mangling

/-!
# Discovered graphs

What a peer discovers when every node around it creates its entities for types.  Any
call of a node may fail: a create function that fails at its publish leaves its name in
the payload, and after a publish that DPS refuses the peers have an older payload.  In
all cases what the peer lists are entities for types.
-/

namespace RmwDps
namespace Discovery

open Serialization

/-! ## Entities with types -/

/-- What an entity is for. -/
inductive Kind
  | message
  | service
  deriving DecidableEq, Repr

/-- The type names that are advertised for a type. -/
def TypeName.typeNames (type : TypeName) : Kind → List StdString
  | .message => [createTypeName type.members]
  | .service => [createTypeName type.request.members, createTypeName type.response.members]

def Entity.kind : Entity → Kind
  | .publisher .. | .subscription .. => .message
  | .service .. | .client .. => .service

/-- The entity is created for the type, under a name that is a plain C string. -/
structure Entity.OfType (entity : Entity) (type : TypeName) : Prop where
  plain : entity.Plain
  zero : (0 : UInt8) ∉ entity.name
  types : entity.types = type.typeNames entity.kind

/-- The entry of an entity that is created for the type. -/
structure Topic.OfType (topic : Topic) (kind : Kind) (type : TypeName) : Prop where
  zero : (0 : UInt8) ∉ topic.topic
  types : topic.types = type.typeNames kind
  sized : ∀ typeName ∈ topic.types, typeName.length < 2 ^ 64

/-- All entries of the node are those of entities with types. -/
structure Node.Typed (node : Node) : Prop where
  messages : ∀ topic ∈ node.subscribers ++ node.publishers, ∃ type, topic.OfType .message type
  services : ∀ topic ∈ node.services ++ node.clients, ∃ type, topic.OfType .service type

/-! ## What a node publishes -/

/-- The payload of a node whose entities all have types. -/
def TypedPayload [DpsCbor] (name namespace_ : StdString) (payload : List UInt8) : Prop :=
  ∃ (entities : List Entity) (ser : TxStream), entities.length + 2 < 2 ^ 64 ∧
    (∀ entity ∈ entities, ∃ type, entity.OfType type) ∧
    writeWithRetry (stringOps.putVector ((dpsNamespacePrefix ++ namespace_) ::
      (dpsNamePrefix ++ name) :: entities.map Entity.discoveryName)) TxStream.new = .ok ser ∧
    payload = ser.data

namespace Creation

/-- A create function that gets as far as its publish has a type for its entity, and the
payload has room for one more name. -/
def NodeEvent.Typed (s : NodeRun) : NodeEvent → Prop
  | .create call _ =>
      call.FailsEarly ∨
        ((∃ type, call.entity.OfType type) ∧ s.impl.discoveryPayload.length + 1 < 2 ^ 64)
  | .destroy _ _ => True

section Publish

variable [DpsCbor] {name namespace_ : StdString} {s s' : NodeRun} {impl impl' : Advertisement}

/-- What is published is what it was before, or it is the payload. -/
def Publishes (before : Option (List UInt8)) (impl' : Advertisement) : Prop :=
  impl'.published = before ∨
    ∃ ser, writeWithRetry (stringOps.putVector impl'.discoveryPayload) TxStream.new = .ok ser ∧
      impl'.published = some ser.data

theorem publishDiscoveryPayload_publishes {status : DpsStatus} {ret : RmwRet}
    (hPublish : publishDiscoveryPayload status impl = .ok (ret, impl')) :
    Publishes impl.published impl' := by
  by_cases hStatus : status = .ok
  · subst hStatus
    obtain ⟨hPayload, ser, hWrite, hPublished⟩ := publishDiscoveryPayload_ok hPublish
    exact .inr ⟨ser, by rwa [hPayload], hPublished⟩
  · unfold publishDiscoveryPayload at hPublish
    cases hWrite : writeWithRetry (stringOps.putVector impl.discoveryPayload) TxStream.new with
    | error fault => simp [hWrite, bind, Except.bind] at hPublish
    | ok ser =>
        simp only [hWrite, bind, Except.bind, if_neg hStatus, pure, Except.pure, Except.ok.injEq,
          Prod.mk.injEq] at hPublish
        exact .inl (by rw [← hPublish.2])

theorem CreateCall.run_publishes {call : CreateCall} {status : DpsStatus} {ret : RmwRet}
    (hRun : call.run status impl = .ok (ret, impl')) : Publishes impl.published impl' := by
  unfold CreateCall.run at hRun
  split at hRun
  · simp only [pure, Except.pure, Except.ok.injEq, Prod.mk.injEq] at hRun
    exact .inl (by rw [← hRun.2])
  · have hPublishes := publishDiscoveryPayload_publishes hRun
    exact hPublishes

theorem destroy_publishes {entity : Entity} {status : DpsStatus} {ret : RmwRet}
    (hDestroy : entity.destroy status impl = .ok (ret, impl')) :
    Publishes impl.published impl' := by
  unfold Entity.destroy removeDiscoveryTopic at hDestroy
  split_ifs at hDestroy with hListed
  · cases hResult : publishDiscoveryPayload status
        { impl with discoveryPayload := impl.discoveryPayload.erase entity.discoveryName } with
    | error fault => simp [hResult, bind, Except.bind] at hDestroy
    | ok result =>
        simp only [hResult, bind, Except.bind, pure, Except.pure, Except.ok.injEq,
          Prod.mk.injEq] at hDestroy
        have hPublishes := publishDiscoveryPayload_publishes hResult
        rwa [hDestroy.2] at hPublishes
  · simp only [bind, Except.bind, pure, Except.pure, Except.ok.injEq, Prod.mk.injEq] at hDestroy
    exact .inl (by rw [← hDestroy.2])

theorem NodeRun.next_publishes {event : NodeEvent} (hNext : s.next event = some s') :
    Publishes s.impl.published s'.impl := by
  cases event with
  | create call status =>
      simp only [next] at hNext
      split at hNext
      · next hRun =>
          obtain rfl := Option.some.inj hNext
          exact CreateCall.run_publishes hRun
      · next hRun =>
          obtain rfl := Option.some.inj hNext
          exact CreateCall.run_publishes hRun
      · cases hNext
  | destroy entity status =>
      simp only [next] at hNext
      split_ifs at hNext
      split at hNext
      · next hDestroy =>
          obtain rfl := Option.some.inj hNext
          exact destroy_publishes hDestroy
      · cases hNext

/-- The entities of the node, live or left over. -/
def NodeRun.entities (s : NodeRun) : List Entity := s.live ++ s.leftover

/-- A create function adds its entity, to the live ones or to the leftovers, or
nothing. -/
theorem NodeRun.entities_create {call : CreateCall} {status : DpsStatus}
    (hNext : s.next (.create call status) = some s') :
    s'.entities = s.entities ∨
      (¬ call.FailsEarly ∧ s'.entities.Perm (call.entity :: s.entities)) := by
  obtain ⟨-, rfl⟩ | ⟨hLate, -, ⟨-, hLive, hLeftover⟩ | ⟨-, hLive, hLeftover⟩⟩ :=
    next_create hNext
  · exact .inl rfl
  · refine .inr ⟨hLate, ?_⟩
    rw [entities, hLive, hLeftover]
    exact List.Perm.refl _
  · refine .inr ⟨hLate, ?_⟩
    rw [entities, hLive, hLeftover]
    exact List.perm_middle

/-- A destroy function adds none. -/
theorem NodeRun.entities_destroy {entity : Entity} {status : DpsStatus}
    (hNext : s.next (.destroy entity status) = some s') :
    s'.entities.Sublist s.entities := by
  simp only [next] at hNext
  split_ifs at hNext
  split at hNext
  · obtain rfl := Option.some.inj hNext
    exact List.erase_sublist.append_right _
  · cases hNext

/-- All entities of the node have types, the payload lists them, and what is published
is a payload that such a node had. -/
structure NodeRun.Typed (s : NodeRun) (name namespace_ : StdString) : Prop where
  entities : ∀ entity ∈ s.entities, ∃ type, entity.OfType type
  listed : s.Listed name namespace_
  room : s.entities.length + 2 < 2 ^ 64
  published : ∀ payload, s.impl.published = some payload → TypedPayload name namespace_ payload

omit [DpsCbor] in
theorem NodeRun.Listed.length_eq (hListed : s.Listed name namespace_) :
    s.impl.discoveryPayload.length = s.entities.length + 2 := by
  obtain ⟨topics, hPayload, hPerm⟩ := hListed
  rw [hPayload, List.length_cons, List.length_cons, hPerm.length_eq, List.length_map]
  rfl

/-- What a node with typed entities publishes names these entities. -/
theorem NodeRun.Listed.typedPayload {before : Option (List UInt8)}
    (hListed : s.Listed name namespace_)
    (hEntities : ∀ entity ∈ s.entities, ∃ type, entity.OfType type)
    (hRoom : s.entities.length + 2 < 2 ^ 64)
    (hPublishes : Publishes before s.impl)
    (hBefore : ∀ payload, before = some payload → TypedPayload name namespace_ payload)
    (payload : List UInt8) (hPublished : s.impl.published = some payload) :
    TypedPayload name namespace_ payload := by
  obtain hSame | ⟨ser, hWrite, hData⟩ := hPublishes
  · rw [hSame] at hPublished
    exact hBefore payload hPublished
  · obtain ⟨topics, hPayload, hPerm⟩ := hListed
    obtain ⟨entities, hLive, rfl⟩ := exists_perm_of_map_perm hPerm
    rw [hPublished, Option.some_inj] at hData
    rw [hPayload] at hWrite
    refine ⟨entities, ser, ?_, ?_, hWrite, hData⟩
    · rwa [hLive.length_eq]
    · intro entity hEntity
      exact hEntities entity (hLive.mem_iff.mp hEntity)

theorem NodeRun.typed_init (hInit : (nodeMachine name namespace_).init s) :
    s.Typed name namespace_ := by
  have hListed := listed_init hInit
  obtain ⟨hCreate, hLive, hLeftover⟩ := hInit
  have hNone : s.entities = [] := by rw [entities, hLive, hLeftover, List.append_nil]
  have hEntities : ∀ entity ∈ s.entities, ∃ type, entity.OfType type := by
    simp [hNone]
  have hRoom : s.entities.length + 2 < 2 ^ 64 := by
    rw [hNone, List.length_nil]
    norm_num
  refine ⟨hEntities, hListed, hRoom, hListed.typedPayload hEntities hRoom
    (publishDiscoveryPayload_publishes hCreate) ?_⟩
  exact fun payload hNothing => nomatch hNothing

theorem NodeRun.typed_next {event : NodeEvent} (hTyped : s.Typed name namespace_)
    (hAllowed : event.Typed s) (hNext : s.next event = some s') : s'.Typed name namespace_ := by
  have hListed := listed_next hTyped.listed hNext
  have hGrown : (∀ entity ∈ s'.entities, ∃ type, entity.OfType type) ∧
      s'.entities.length + 2 < 2 ^ 64 := by
    have hOld := hTyped.entities
    have hRoom := hTyped.room
    cases event with
    | create call status =>
        obtain hSame | ⟨hLate, hAdded⟩ := entities_create hNext
        · rw [hSame]
          exact ⟨hOld, hRoom⟩
        · obtain ⟨hType, hSpace⟩ := hAllowed.resolve_left hLate
          rw [hTyped.listed.length_eq] at hSpace
          constructor
          · intro entity hEntity
            obtain rfl | hMem := List.mem_cons.mp (hAdded.mem_iff.mp hEntity)
            · exact hType
            · exact hOld entity hMem
          · rw [hAdded.length_eq, List.length_cons]
            omega
    | destroy entity status =>
        have hFewer := entities_destroy hNext
        constructor
        · exact fun other hOther => hOld other (hFewer.subset hOther)
        · have hLength := hFewer.length_le
          omega
  obtain ⟨hEntities, hRoom⟩ := hGrown
  exact ⟨hEntities, hListed, hRoom, hListed.typedPayload hEntities hRoom (next_publishes hNext)
    hTyped.published⟩

theorem NodeRun.typed_of_reachable
    (hReachable : (nodeMachine name namespace_).ReachableIf NodeEvent.Typed s) :
    s.Typed name namespace_ :=
  hReachable.invariant (fun _ hInit => typed_init hInit)
    fun _ _ _ hTyped hAllowed hStep => typed_next hTyped hAllowed hStep

end Publish

end Creation

/-! ## What a peer discovers -/

open Creation

/-- The maps of discovered nodes that payloads of such nodes lead to, under any uuids
and in any order.  An empty payload takes a node out again. -/
inductive DiscoveredGraph [DpsCbor] : DiscoveredNodes → Prop
  | empty : DiscoveredGraph ∅
  | announced {impl impl' : CustomNodeInfo} {name namespace_ uuid : StdString} {s : NodeRun}
      {payload : List UInt8} (hGraph : DiscoveredGraph impl.discoveredNodes)
      (hName : Sized (dpsNamePrefix ++ name))
      (hNamespace : Sized (dpsNamespacePrefix ++ namespace_))
      (hNode : (nodeMachine name namespace_).ReachableIf NodeEvent.Typed s)
      (hPublished : s.impl.published = some payload)
      (hStep : onDiscovery impl uuid payload = .ok impl') : DiscoveredGraph impl'.discoveredNodes
  | left {impl impl' : CustomNodeInfo} {uuid : StdString}
      (hGraph : DiscoveredGraph impl.discoveredNodes)
      (hStep : onDiscovery impl uuid [] = .ok impl') : DiscoveredGraph impl'.discoveredNodes

/-! ## What the peer lists -/

section Peer

/-- The string for the name changes no list, whatever the name is. -/
theorem Node.lists_processTopic_name (node : Node) (name : StdString) :
    (node.processTopic (dpsNamePrefix ++ name)).subscribers = node.subscribers ∧
      (node.processTopic (dpsNamePrefix ++ name)).publishers = node.publishers ∧
      (node.processTopic (dpsNamePrefix ++ name)).services = node.services ∧
      (node.processTopic (dpsNamePrefix ++ name)).clients = node.clients := by
  have hName := ByteString.find_self_append dpsNamePrefix name
  unfold processTopic
  cases ByteString.find dpsNamespacePrefix (dpsNamePrefix ++ name) with
  | none =>
      rw [hName]
      exact ⟨rfl, rfl, rfl, rfl⟩
  | some pos => exact ⟨rfl, rfl, rfl, rfl⟩

theorem Entity.OfType.sized {entity : Entity} {type : TypeName} (hType : entity.OfType type) :
    ∀ typeName ∈ entity.types, typeName.length < 2 ^ 64 := by
  have hSized := hType.plain.sized
  rw [Sized, Entity.discoveryName_eq] at hSized
  cases entity <;>
    simp only [Entity.types, Entity.typesText, topicString, List.length_append, List.mem_cons,
      List.not_mem_nil, or_false, forall_eq, forall_eq_or_imp] at hSized ⊢ <;>
    omega

/-- The entry of the entity at a peer. -/
def Entity.topic (entity : Entity) : Topic := { topic := entity.name, types := entity.types }

theorem Entity.OfType.topic {entity : Entity} {type : TypeName} (hType : entity.OfType type) :
    entity.topic.OfType entity.kind type where
  zero := hType.zero
  types := hType.types
  sized := hType.sized

theorem Entity.topic_of_message {entity : Entity} {topic : Topic}
    (hTopic : entity.subscriberTopic = some topic ∨ entity.publisherTopic = some topic) :
    entity.kind = .message ∧ entity.topic = topic := by
  cases entity <;> simp_all [subscriberTopic, publisherTopic, kind, Entity.topic, name, types]

theorem Entity.topic_of_service {entity : Entity} {topic : Topic}
    (hTopic : entity.serviceTopic = some topic ∨ entity.clientTopic = some topic) :
    entity.kind = .service ∧ entity.topic = topic := by
  cases entity <;> simp_all [serviceTopic, clientTopic, kind, Entity.topic, name, types]

/-- The strings of a node with typed entities are read as a typed node. -/
theorem Node.typed_ofTopics (name namespace_ : StdString) {entities : List Entity}
    (hEntities : ∀ entity ∈ entities, ∃ type, entity.OfType type) :
    (Node.ofTopics ((dpsNamespacePrefix ++ namespace_) :: (dpsNamePrefix ++ name) ::
      entities.map Entity.discoveryName)).Typed := by
  have hPlain : ∀ entity ∈ entities, entity.Plain := by
    intro entity hEntity
    obtain ⟨type, hType⟩ := hEntities entity hEntity
    exact hType.plain
  have hNone := Node.lists_processTopic_name { namespace_ := namespace_ } name
  obtain ⟨hSubscribers, hPublishers, hServices, hClients⟩ := hNone
  rw [ofTopics, List.foldl_cons, List.foldl_cons, processTopic_namespace,
    ofTopics_discoveryNames _ hPlain]
  constructor
  · intro topic hTopic
    simp only [hSubscribers, hPublishers, List.nil_append, List.mem_append,
      List.mem_filterMap, ← exists_or, ← and_or_left] at hTopic
    obtain ⟨entity, hEntity, hListed⟩ := hTopic
    obtain ⟨type, hType⟩ := hEntities entity hEntity
    obtain ⟨hKind, rfl⟩ := Entity.topic_of_message hListed
    exact ⟨type, hKind ▸ hType.topic⟩
  · intro topic hTopic
    simp only [hServices, hClients, List.nil_append, List.mem_append,
      List.mem_filterMap, ← exists_or, ← and_or_left] at hTopic
    obtain ⟨entity, hEntity, hListed⟩ := hTopic
    obtain ⟨type, hType⟩ := hEntities entity hEntity
    obtain ⟨hKind, rfl⟩ := Entity.topic_of_service hListed
    exact ⟨type, hKind ▸ hType.topic⟩

variable [DpsCbor] [DpsCbor.Lawful]

theorem TypedPayload.decode {name namespace_ : StdString} {payload : List UInt8}
    (hName : Sized (dpsNamePrefix ++ name)) (hNamespace : Sized (dpsNamespacePrefix ++ namespace_))
    (hPayload : TypedPayload name namespace_ payload) :
    ∃ node, decodePayload payload = .ok (some node) ∧ node.Typed := by
  obtain ⟨entities, ser, hRoom, hEntities, hWrite, rfl⟩ := hPayload
  refine ⟨_, decodePayload_published ?_ ?_ hWrite, Node.typed_ofTopics _ _ hEntities⟩
  · rwa [List.length_cons, List.length_cons, List.length_map]
  · intro topic hTopic
    rw [List.mem_cons, List.mem_cons] at hTopic
    obtain rfl | rfl | hTopic := hTopic
    · exact hNamespace
    · exact hName
    · obtain ⟨entity, hEntity, rfl⟩ := List.mem_map.mp hTopic
      obtain ⟨type, hType⟩ := hEntities entity hEntity
      exact hType.plain.sized

omit [DpsCbor.Lawful] in
theorem onDiscovery_discoveredNodes {impl impl' : CustomNodeInfo} {uuid : StdString}
    {payload : List UInt8} {announced : Option Node}
    (hDecode : decodePayload payload = .ok announced)
    (hStep : onDiscovery impl uuid payload = .ok impl') :
    impl'.discoveredNodes = (impl.discoveredNodes.update uuid announced).2.2 := by
  rw [onDiscovery, hDecode] at hStep
  obtain rfl := Except.ok.inj hStep
  exact CustomNodeInfo.discoveredNodes_announce impl uuid announced

/-- All nodes of a discovered graph are typed. -/
theorem DiscoveredGraph.typed {nodes : DiscoveredNodes} (hGraph : DiscoveredGraph nodes) :
    ∀ node ∈ nodes.getDiscoveredNodes, node.Typed := by
  induction hGraph with
  | empty => simp [DiscoveredNodes.mem_getDiscoveredNodes]
  | announced _ hName hNamespace hNode hPublished hStep ih =>
      have hPayload := (NodeRun.typed_of_reachable hNode).published _ hPublished
      obtain ⟨known, hDecode, hKnown⟩ := hPayload.decode hName hNamespace
      intro node hNode
      obtain ⟨peer, hPeer⟩ := DiscoveredNodes.mem_getDiscoveredNodes.mp hNode
      rw [onDiscovery_discoveredNodes hDecode hStep, DiscoveredNodes.getElem?_update] at hPeer
      split_ifs at hPeer
      · rwa [← Option.some.inj hPeer]
      · exact ih node (DiscoveredNodes.mem_getDiscoveredNodes.mpr ⟨peer, hPeer⟩)
  | left _ hStep ih =>
      intro node hNode
      obtain ⟨peer, hPeer⟩ := DiscoveredNodes.mem_getDiscoveredNodes.mp hNode
      rw [onDiscovery_discoveredNodes rfl hStep, DiscoveredNodes.getElem?_update] at hPeer
      split_ifs at hPeer
      exact ih node (DiscoveredNodes.mem_getDiscoveredNodes.mpr ⟨peer, hPeer⟩)

end Peer

end Discovery
end RmwDps
