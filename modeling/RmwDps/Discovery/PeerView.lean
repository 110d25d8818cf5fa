import RmwDps.Discovery.Advertisement

/-!
# What a peer sees of a node

A peer that gets the last payload of a node knows the node under its name, and
exactly its live entities.  The strings of entities are classified by six
keywords that are tried in turn, so most of the work is to show that a string is
found by the keyword of its own kind and by no other.
-/

namespace RmwDps
namespace Discovery

open Serialization

/-! ## What a peer reads in one string -/

/-- The keywords of discovery strings, without the `=` they end in. -/
def keywords : List StdString :=
  [bytesOf "namespace", bytesOf "name", bytesOf "subscriber&topic", bytesOf "publisher&topic",
    bytesOf "service&topic", bytesOf "client&topic"]

theorem separator_notMem_keyword : ∀ keyword ∈ keywords, (0x3D : UInt8) ∉ keyword := by
  decide

/-- No keyword is the end of another one.  In particular no topic keyword ends in
`name` or `namespace`. -/
theorem keyword_suffix_keyword :
    ∀ keyword ∈ keywords, ∀ word ∈ keywords, keyword <:+ word → keyword = word := by
  decide

theorem typesKeyword_eq : typesKeyword = bytesOf "&types" ++ [0x3D] := by decide

theorem not_suffix_concat {word text : StdString} {c : UInt8} (hWord : word ≠ [])
    (hLast : word.getLast? ≠ some c) : ¬ word <:+ text ++ [c] := by
  rintro ⟨front, hAppend⟩
  apply hLast
  have hEnds : (front ++ word).getLast? = some c := by
    rw [hAppend]
    simp
  rwa [List.getLast?_append_of_ne_nil _ hWord] at hEnds

/-- A keyword does not end where `&types` ends: the last letters differ. -/
theorem not_keyword_suffix_types {keyword : StdString} (hKeyword : keyword ∈ keywords)
    (name : StdString) : ¬ keyword <:+ name ++ bytesOf "&types" := by
  have hLetter : bytesOf "&types" = bytesOf "&type" ++ [0x73] := by decide
  have hNonempty : ∀ keyword ∈ keywords, keyword ≠ [] := by decide
  have hLast : ∀ keyword ∈ keywords, keyword.getLast? ≠ some 0x73 := by decide
  rw [hLetter, ← List.append_assoc]
  exact not_suffix_concat (hNonempty keyword hKeyword) (hLast keyword hKeyword)

section TopicString

variable {word name types : StdString}

/-- What the four kinds of entities announce. -/
def topicString (word name types : StdString) : StdString :=
  word ++ [0x3D] ++ name ++ typesKeyword ++ types

/-- The same string with its two separators in sight. -/
theorem topicString_eq (word name types : StdString) :
    topicString word name types =
      word ++ 0x3D :: ((name ++ bytesOf "&types") ++ 0x3D :: types) := by
  simp [topicString, typesKeyword_eq]

theorem separator_notMem_middle (hName : (0x3D : UInt8) ∉ name) :
    (0x3D : UInt8) ∉ name ++ bytesOf "&types" := by
  rw [List.mem_append, not_or]
  exact ⟨hName, by decide⟩

/-- A search for the keyword of another kind fails: a keyword could only be the
end of the string's own keyword, of its `&types`, or lie in its types. -/
theorem find_keyword_of_ne {keyword : StdString} (hKeyword : keyword ∈ keywords)
    (hWord : word ∈ keywords) (hOther : keyword ≠ word) (hName : (0x3D : UInt8) ∉ name)
    (hTypes : (0x3D : UInt8) ∉ types) :
    ByteString.find (keyword ++ [0x3D]) (topicString word name types) = none := by
  have hKeywordSep := separator_notMem_keyword keyword hKeyword
  apply ByteString.find_eq_none_of_not_infix
  rw [topicString_eq, ByteString.infix_cons_sep_iff hKeywordSep
      (separator_notMem_keyword word hWord),
    ByteString.infix_cons_sep_iff hKeywordSep (separator_notMem_middle hName)]
  rintro (hFront | hMiddle | hBack)
  · exact hOther (keyword_suffix_keyword keyword hKeyword word hWord hFront)
  · exact not_keyword_suffix_types hKeyword name hMiddle
  · exact ByteString.not_infix_of_notMem hTypes hBack

/-- `&types=` is found behind the name. -/
theorem find_typesKeyword (hWord : word ∈ keywords) (hName : (0x3D : UInt8) ∉ name) :
    ByteString.find typesKeyword (topicString word name types) =
      some (word.length + 1 + name.length) := by
  have hWordEnd : ∀ word ∈ keywords, ¬ bytesOf "&types" <:+ word := by decide
  have hFirst : ¬ bytesOf "&types" ++ [0x3D] <:+: word ++ [0x3D] ++ name ++ bytesOf "&types" := by
    have hFront : word ++ [0x3D] ++ name ++ bytesOf "&types" =
        word ++ 0x3D :: (name ++ bytesOf "&types") := by simp
    rw [hFront, ByteString.infix_cons_sep_iff (by decide) (separator_notMem_keyword word hWord),
      not_or]
    constructor
    · exact hWordEnd word hWord
    · exact ByteString.not_infix_of_notMem (separator_notMem_middle hName)
  have hLength : (word ++ [0x3D] ++ name).length = word.length + 1 + name.length := by
    simp only [List.length_append, List.length_singleton]
  rw [topicString, typesKeyword_eq, ByteString.find_append hFirst types, hLength]

/-- A search for the string's own keyword adds the topic, with the types between
the commas. -/
theorem processTopicInfo_self (hWord : word ∈ keywords) (hName : (0x3D : UInt8) ∉ name)
    (hSize : name.length < 2 ^ 64) (topics : List Topic) :
    processTopicInfo (topicString word name types) (word ++ [0x3D]) topics =
      some (topics ++ [{ topic := name, types := types.splitOn typesSeparator }]) := by
  have hFront : topicString word name types =
      (word ++ [0x3D]) ++ (name ++ (typesKeyword ++ types)) := by
    simp only [topicString, List.append_assoc]
  have hOwn : ByteString.find (word ++ [0x3D]) (topicString word name types) = some 0 := by
    rw [hFront]
    exact ByteString.find_self_append _ _
  -- The name stands between the keyword and the separator of the types.
  have hTopic : ByteString.substr (topicString word name types) (0 + (word ++ [0x3D]).length)
      (sizeDifference (word.length + 1 + name.length) (0 + (word ++ [0x3D]).length)) = name := by
    have hCount : sizeDifference (word.length + 1 + name.length)
        (0 + (word ++ [0x3D]).length) = name.length := by
      simp only [sizeDifference, List.length_append, List.length_singleton]
      omega
    rw [ByteString.substr, hCount, hFront, Nat.zero_add, List.drop_left, List.take_left]
  have hTypes : (topicString word name types).drop
      (word.length + 1 + name.length + typesKeyword.length) = types := by
    have hLength : word.length + 1 + name.length + typesKeyword.length =
        (word ++ [0x3D] ++ name ++ typesKeyword).length := by
      simp only [List.length_append, List.length_singleton]
    rw [hLength, topicString, List.drop_left]
  unfold processTopicInfo
  rw [hOwn]
  dsimp only
  rw [find_typesKeyword hWord hName]
  dsimp only
  rw [hTopic, hTypes]

end TopicString

/-! ## What a peer reads of an entity -/

/-- The keyword of a kind. -/
def Entity.word : Entity → StdString
  | .publisher .. => bytesOf "publisher&topic"
  | .subscription .. => bytesOf "subscriber&topic"
  | .service .. => bytesOf "service&topic"
  | .client .. => bytesOf "client&topic"

/-- The type names: one for a topic, two for a service. -/
def Entity.types : Entity → List StdString
  | .publisher _ typeName | .subscription _ typeName => [typeName]
  | .service _ requestTypeName responseTypeName | .client _ requestTypeName responseTypeName =>
      [requestTypeName, responseTypeName]

/-- The type names as one string. -/
def Entity.typesText : Entity → StdString
  | .publisher _ typeName | .subscription _ typeName => typeName
  | .service _ requestTypeName responseTypeName | .client _ requestTypeName responseTypeName =>
      requestTypeName ++ [typesSeparator] ++ responseTypeName

theorem Entity.word_mem (entity : Entity) : entity.word ∈ keywords := by
  cases entity <;> dsimp only [word] <;> decide

theorem Entity.discoveryName_eq (entity : Entity) :
    entity.discoveryName = topicString entity.word entity.name entity.typesText := by
  cases entity <;> rfl

/-- The strings of a plain entity have no `=`. -/
theorem Entity.Plain.separator_notMem {entity : Entity} (hPlain : entity.Plain) :
    (0x3D : UInt8) ∉ entity.name ∧ (0x3D : UInt8) ∉ entity.typesText := by
  cases entity with
  | publisher topicName typeName => exact ⟨hPlain.1.2.1, hPlain.2.1.2.1⟩
  | subscription topicName typeName => exact ⟨hPlain.1.2.1, hPlain.2.1.2.1⟩
  | service serviceName requestTypeName responseTypeName =>
      obtain ⟨hName, hRequest, hResponse, -⟩ := hPlain
      refine ⟨hName.2.1, ?_⟩
      simp only [typesText, List.mem_append, List.mem_singleton, not_or]
      exact ⟨⟨hRequest.2.1, by decide⟩, hResponse.2.1⟩
  | client serviceName requestTypeName responseTypeName =>
      obtain ⟨hName, hRequest, hResponse, -⟩ := hPlain
      refine ⟨hName.2.1, ?_⟩
      simp only [typesText, List.mem_append, List.mem_singleton, not_or]
      exact ⟨⟨hRequest.2.1, by decide⟩, hResponse.2.1⟩

theorem Entity.Plain.sized {entity : Entity} (hPlain : entity.Plain) :
    Sized entity.discoveryName := by
  cases entity with
  | publisher topicName typeName => exact hPlain.2.2
  | subscription topicName typeName => exact hPlain.2.2
  | service serviceName requestTypeName responseTypeName => exact hPlain.2.2.2
  | client serviceName requestTypeName responseTypeName => exact hPlain.2.2.2

theorem Entity.Plain.name_length_lt {entity : Entity} (hPlain : entity.Plain) :
    entity.name.length < 2 ^ 64 := by
  have hSized := hPlain.sized
  rw [Sized, Entity.discoveryName_eq] at hSized
  simp only [topicString, List.length_append] at hSized
  omega

theorem splitOn_pair {front back : StdString} (hFront : typesSeparator ∉ front)
    (hBack : typesSeparator ∉ back) :
    (front ++ [typesSeparator] ++ back).splitOn typesSeparator = [front, back] := by
  rw [List.append_assoc, List.singleton_append, List.splitOn_append_cons_self,
    List.splitOn_eq_singleton hFront, List.splitOn_eq_singleton hBack]
  rfl

/-- The types come apart at the commas. -/
theorem Entity.Plain.splitOn_typesText {entity : Entity} (hPlain : entity.Plain) :
    entity.typesText.splitOn typesSeparator = entity.types := by
  cases entity with
  | publisher topicName typeName => exact List.splitOn_eq_singleton hPlain.2.1.2.2
  | subscription topicName typeName => exact List.splitOn_eq_singleton hPlain.2.1.2.2
  | service serviceName requestTypeName responseTypeName =>
      exact splitOn_pair hPlain.2.1.2.2 hPlain.2.2.1.2.2
  | client serviceName requestTypeName responseTypeName =>
      exact splitOn_pair hPlain.2.1.2.2 hPlain.2.2.1.2.2

/-- The node with an entity at the end of the list of its kind. -/
def Node.withEntity (node : Node) (entity : Entity) : Node :=
  { node with
    subscribers := node.subscribers ++ entity.subscriberTopic.toList
    publishers := node.publishers ++ entity.publisherTopic.toList
    services := node.services ++ entity.serviceTopic.toList
    clients := node.clients ++ entity.clientTopic.toList }

section Plain

variable {entity : Entity} {keyword : StdString}

/-- In the string of an entity no keyword is found but its own. -/
theorem Entity.Plain.find_of_ne (hPlain : entity.Plain) (hKeyword : keyword ∈ keywords)
    (hOther : keyword ≠ entity.word) :
    ByteString.find (keyword ++ [0x3D]) entity.discoveryName = none := by
  obtain ⟨hName, hTypes⟩ := hPlain.separator_notMem
  rw [Entity.discoveryName_eq]
  exact find_keyword_of_ne hKeyword entity.word_mem hOther hName hTypes

theorem Entity.Plain.processTopicInfo_of_ne (hPlain : entity.Plain)
    (hKeyword : keyword ∈ keywords) (hOther : keyword ≠ entity.word) (topics : List Topic) :
    processTopicInfo entity.discoveryName (keyword ++ [0x3D]) topics = none := by
  unfold processTopicInfo
  rw [hPlain.find_of_ne hKeyword hOther]

theorem Entity.Plain.processTopicInfo_word (hPlain : entity.Plain) (topics : List Topic) :
    processTopicInfo entity.discoveryName (entity.word ++ [0x3D]) topics =
      some (topics ++ [{ topic := entity.name, types := entity.types }]) := by
  obtain ⟨hName, -⟩ := hPlain.separator_notMem
  rw [Entity.discoveryName_eq, processTopicInfo_self entity.word_mem hName hPlain.name_length_lt,
    hPlain.splitOn_typesText]

end Plain

/-- A peer reads the string of an entity as that entity: the tests in front of the
one for its kind fail. -/
theorem Node.processTopic_discoveryName (node : Node) {entity : Entity} (hPlain : entity.Plain) :
    node.processTopic entity.discoveryName = node.withEntity entity := by
  have hNamespace : ByteString.find dpsNamespacePrefix entity.discoveryName = none :=
    @Entity.Plain.find_of_ne _ (bytesOf "namespace") hPlain (by decide)
      (by cases entity <;> dsimp only [Entity.word] <;> decide)
  have hNodeName : ByteString.find dpsNamePrefix entity.discoveryName = none :=
    @Entity.Plain.find_of_ne _ (bytesOf "name") hPlain (by decide)
      (by cases entity <;> dsimp only [Entity.word] <;> decide)
  have hNoSubscriber : bytesOf "subscriber&topic" ≠ entity.word → ∀ topics,
      processTopicInfo entity.discoveryName dpsSubscriberPrefix topics = none :=
    @Entity.Plain.processTopicInfo_of_ne _ (bytesOf "subscriber&topic") hPlain (by decide)
  have hNoPublisher : bytesOf "publisher&topic" ≠ entity.word → ∀ topics,
      processTopicInfo entity.discoveryName dpsPublisherPrefix topics = none :=
    @Entity.Plain.processTopicInfo_of_ne _ (bytesOf "publisher&topic") hPlain (by decide)
  have hNoService : bytesOf "service&topic" ≠ entity.word → ∀ topics,
      processTopicInfo entity.discoveryName dpsServicePrefix topics = none :=
    @Entity.Plain.processTopicInfo_of_ne _ (bytesOf "service&topic") hPlain (by decide)
  unfold Node.processTopic
  rw [hNamespace, hNodeName]
  dsimp only
  -- The prefixes are tried in a fixed order: those in front pass, the entity's own takes.
  cases entity with
  | subscription topicName typeName =>
      have hSubscriber : processTopicInfo _ dpsSubscriberPrefix _ = _ :=
        hPlain.processTopicInfo_word node.subscribers
      rw [hSubscriber]
      simp [withEntity, Entity.subscriberTopic, Entity.publisherTopic, Entity.serviceTopic,
        Entity.clientTopic, Entity.name, Entity.types]
  | publisher topicName typeName =>
      have hPublisher : processTopicInfo _ dpsPublisherPrefix _ = _ :=
        hPlain.processTopicInfo_word node.publishers
      rw [hNoSubscriber (by dsimp only [Entity.word]; decide), hPublisher]
      simp [withEntity, Entity.subscriberTopic, Entity.publisherTopic, Entity.serviceTopic,
        Entity.clientTopic, Entity.name, Entity.types]
  | service serviceName requestTypeName responseTypeName =>
      have hService : processTopicInfo _ dpsServicePrefix _ = _ :=
        hPlain.processTopicInfo_word node.services
      rw [hNoSubscriber (by dsimp only [Entity.word]; decide),
        hNoPublisher (by dsimp only [Entity.word]; decide), hService]
      simp [withEntity, Entity.subscriberTopic, Entity.publisherTopic, Entity.serviceTopic,
        Entity.clientTopic, Entity.name, Entity.types]
  | client serviceName requestTypeName responseTypeName =>
      have hClient : processTopicInfo _ dpsClientPrefix _ = _ :=
        hPlain.processTopicInfo_word node.clients
      rw [hNoSubscriber (by dsimp only [Entity.word]; decide),
        hNoPublisher (by dsimp only [Entity.word]; decide),
        hNoService (by dsimp only [Entity.word]; decide), hClient]
      simp [withEntity, Entity.subscriberTopic, Entity.publisherTopic, Entity.serviceTopic,
        Entity.clientTopic, Entity.name, Entity.types]

theorem Node.ofTopics_discoveryNames (node : Node) {entities : List Entity}
    (hPlain : ∀ entity ∈ entities, entity.Plain) :
    (entities.map Entity.discoveryName).foldl Node.processTopic node =
      { node with
        subscribers := node.subscribers ++ entities.filterMap Entity.subscriberTopic
        publishers := node.publishers ++ entities.filterMap Entity.publisherTopic
        services := node.services ++ entities.filterMap Entity.serviceTopic
        clients := node.clients ++ entities.filterMap Entity.clientTopic } := by
  induction entities generalizing node with
  | nil => simp
  | cons entity entities ih =>
      obtain ⟨hHead, hTail⟩ := List.forall_mem_cons.mp hPlain
      rw [List.map_cons, List.foldl_cons, node.processTopic_discoveryName hHead, ih _ hTail]
      cases entity <;> simp [withEntity, List.filterMap_cons, Entity.subscriberTopic,
        Entity.publisherTopic, Entity.serviceTopic, Entity.clientTopic]

/-! ## The payload along a run -/

section Run

variable [DpsCbor] {name namespace_ : StdString} {impl impl' : Advertisement}
  {live : List Entity}

/-- What is in the payload of a node with live entities, and that it is what was
published last.  The strings of the entities are in any order: a destroy function
removes the first string equal to its own, which may have been added for another
entity. -/
structure Advertised (name namespace_ : StdString) (impl : Advertisement) (live : List Entity) :
    Prop where
  plain : ∀ entity ∈ live, entity.Plain
  payload : ∃ topics, impl.discoveryPayload =
      (dpsNamespacePrefix ++ namespace_) :: (dpsNamePrefix ++ name) :: topics ∧
    topics.Perm (live.map Entity.discoveryName)
  published : ∃ ser, writeWithRetry (stringOps.putVector impl.discoveryPayload) TxStream.new =
      .ok ser ∧ impl.published = some ser.data

/-- A publish that DPS takes publishes the payload, which it does not change. -/
theorem publishDiscoveryPayload_ok {ret : RmwRet}
    (hPublish : publishDiscoveryPayload .ok impl = .ok (ret, impl')) :
    impl'.discoveryPayload = impl.discoveryPayload ∧
      ∃ ser, writeWithRetry (stringOps.putVector impl.discoveryPayload) TxStream.new = .ok ser ∧
        impl'.published = some ser.data := by
  unfold publishDiscoveryPayload at hPublish
  cases hWrite : writeWithRetry (stringOps.putVector impl.discoveryPayload) TxStream.new with
  | error fault => simp [hWrite, bind, Except.bind] at hPublish
  | ok ser =>
      simp only [hWrite, bind, Except.bind, if_pos, pure, Except.pure, Except.ok.injEq,
        Prod.mk.injEq] at hPublish
      rw [← hPublish.2]
      exact ⟨rfl, ser, rfl, rfl⟩

theorem createNode_advertised (hCreate : createNode .ok name namespace_ = .ok (.ok, impl)) :
    Advertised name namespace_ impl [] := by
  obtain ⟨hPayload, hPublished⟩ := publishDiscoveryPayload_ok hCreate
  constructor
  · simp
  · exact ⟨[], by simpa using hPayload, by simp⟩
  · rwa [hPayload]

/-- The create function of an entity, once its name is not empty. -/
theorem Entity.create_ok {entity : Entity} (hCreate : entity.create .ok impl = .ok (.ok, impl')) :
    addDiscoveryTopic .ok impl entity.discoveryName = .ok (.ok, impl') := by
  have hShared : ∃ emptyName, createEntity emptyName entity .ok impl = .ok (.ok, impl') := by
    cases entity <;> exact ⟨_, hCreate⟩
  obtain ⟨emptyName, hEntity⟩ := hShared
  unfold createEntity at hEntity
  split_ifs at hEntity with hEmpty
  · simp [pure, Except.pure] at hEntity
  · exact hEntity

theorem create_advertised {entity : Entity} (hAdvertised : Advertised name namespace_ impl live)
    (hPlain : entity.Plain) (hCreate : entity.create .ok impl = .ok (.ok, impl')) :
    Advertised name namespace_ impl' (entity :: live) := by
  obtain ⟨hPayload, hPublished⟩ := publishDiscoveryPayload_ok (Entity.create_ok hCreate)
  obtain ⟨topics, hTopics, hPerm⟩ := hAdvertised.payload
  constructor
  · exact List.forall_mem_cons.mpr ⟨hPlain, hAdvertised.plain⟩
  · refine ⟨topics ++ [entity.discoveryName], ?_, ?_⟩
    · rw [hPayload, hTopics]
      rfl
    · rw [List.map_cons]
      exact (List.perm_append_singleton _ _).trans (hPerm.cons _)
  · rwa [hPayload]

omit [DpsCbor] in
/-- The strings for the name and the namespace are not the string of an entity: the
first letters differ. -/
theorem Entity.discoveryName_ne_node (entity : Entity) (s : StdString) :
    dpsNamespacePrefix ++ s ≠ entity.discoveryName ∧ dpsNamePrefix ++ s ≠ entity.discoveryName := by
  have hHead : entity.discoveryName.head? = entity.word.head? := by
    cases entity <;> rfl
  have hLetter : entity.word.head? ≠ some 0x6E := by
    cases entity <;> dsimp only [word] <;> decide
  constructor
  · intro hEqual
    rw [← hHead, ← hEqual] at hLetter
    exact hLetter rfl
  · intro hEqual
    rw [← hHead, ← hEqual] at hLetter
    exact hLetter rfl

omit [DpsCbor] in
/-- Taking out the string of an entity leaves the strings for the name and the
namespace in front. -/
theorem Entity.erase_discoveryName (entity : Entity) (name namespace_ : StdString)
    (topics : List StdString) :
    ((dpsNamespacePrefix ++ namespace_) :: (dpsNamePrefix ++ name) :: topics).erase
        entity.discoveryName =
      (dpsNamespacePrefix ++ namespace_) :: (dpsNamePrefix ++ name) ::
        topics.erase entity.discoveryName := by
  rw [List.erase_cons_tail (by simpa using (entity.discoveryName_ne_node _).1),
    List.erase_cons_tail (by simpa using (entity.discoveryName_ne_node _).2)]

omit [DpsCbor] in
/-- The string that goes need not be the one that was added for the entity, but it is
equal to it. -/
theorem Entity.perm_erase_discoveryName {entity : Entity} {entities : List Entity}
    {topics : List StdString} (hMem : entity ∈ entities)
    (hPerm : topics.Perm (entities.map Entity.discoveryName)) :
    (topics.erase entity.discoveryName).Perm
      ((entities.erase entity).map Entity.discoveryName) := by
  have hCons : (entities.map Entity.discoveryName).Perm
      (entity.discoveryName :: (entities.erase entity).map Entity.discoveryName) := by
    simpa using (List.perm_cons_erase hMem).map Entity.discoveryName
  have hTail := (hPerm.trans hCons).erase entity.discoveryName
  rwa [List.erase_cons_head] at hTail

theorem destroy_advertised {entity : Entity} (hAdvertised : Advertised name namespace_ impl live)
    (hLive : entity ∈ live) (hDestroy : entity.destroy .ok impl = .ok (.ok, impl')) :
    Advertised name namespace_ impl' (live.erase entity) := by
  obtain ⟨topics, hTopics, hPerm⟩ := hAdvertised.payload
  have hListed : entity.discoveryName ∈ topics :=
    hPerm.mem_iff.mpr (List.mem_map_of_mem hLive)
  have hMem : entity.discoveryName ∈ impl.discoveryPayload := by
    rw [hTopics]
    exact List.mem_cons_of_mem _ (List.mem_cons_of_mem _ hListed)
  -- The two entries in front name the node, so the erased one is behind them.
  have hErase : impl.discoveryPayload.erase entity.discoveryName =
      (dpsNamespacePrefix ++ namespace_) :: (dpsNamePrefix ++ name) ::
        topics.erase entity.discoveryName := by
    rw [hTopics, entity.erase_discoveryName]
  have hPublish : ∃ ret, publishDiscoveryPayload .ok
      { impl with discoveryPayload := impl.discoveryPayload.erase entity.discoveryName } =
        .ok (ret, impl') := by
    unfold Entity.destroy removeDiscoveryTopic at hDestroy
    rw [if_pos hMem] at hDestroy
    cases hResult : publishDiscoveryPayload .ok
        { impl with discoveryPayload := impl.discoveryPayload.erase entity.discoveryName } with
    | error fault => simp [hResult, bind, Except.bind] at hDestroy
    | ok result =>
        simp only [hResult, bind, Except.bind, pure, Except.pure, Except.ok.injEq, Prod.mk.injEq,
          true_and] at hDestroy
        exact ⟨result.1, by rw [← hDestroy]⟩
  obtain ⟨ret, hPublish⟩ := hPublish
  obtain ⟨hPayload, hPublished⟩ := publishDiscoveryPayload_ok hPublish
  constructor
  · intro other hOther
    exact hAdvertised.plain other (List.mem_of_mem_erase hOther)
  · exact ⟨topics.erase entity.discoveryName, hPayload.trans hErase,
      Entity.perm_erase_discoveryName hLive hPerm⟩
  · rwa [hPayload]

theorem Advertises.advertised (hRun : Advertises name namespace_ impl live) :
    Advertised name namespace_ impl live := by
  induction hRun with
  | start hCreate => exact createNode_advertised hCreate
  | create _ hPlain hCreate ih => exact create_advertised ih hPlain hCreate
  | destroy _ hLive hDestroy ih => exact destroy_advertised ih hLive hDestroy

end Run

/-! ## The last payload at a peer -/

/-- A node that has the name and the namespace, and lists the entities, each as
often as it occurs. -/
structure Node.Describes (node : Node) (name namespace_ : StdString) (live : List Entity) :
    Prop where
  name : node.name = name
  namespace_ : node.namespace_ = namespace_
  subscribers : node.subscribers.Perm (live.filterMap Entity.subscriberTopic)
  publishers : node.publishers.Perm (live.filterMap Entity.publisherTopic)
  services : node.services.Perm (live.filterMap Entity.serviceTopic)
  clients : node.clients.Perm (live.filterMap Entity.clientTopic)

/-- Strings that are some order of the strings of the live entities are the strings
of the live entities in some order. -/
theorem exists_perm_of_map_perm {live : List Entity} {topics : List StdString}
    (hPerm : topics.Perm (live.map Entity.discoveryName)) :
    ∃ entities : List Entity, entities.Perm live ∧ topics = entities.map Entity.discoveryName := by
  have hNames : List.Forall₂ (fun topic entity => topic = Entity.discoveryName entity)
      (live.map Entity.discoveryName) live := by
    rw [List.forall₂_map_left_iff]
    exact List.forall₂_same.mpr fun _ _ => rfl
  obtain ⟨entities, hTopics, hEntities⟩ := List.perm_comp_forall₂ hPerm hNames
  refine ⟨entities, hEntities, ?_⟩
  rw [← List.forall₂_eq_eq_eq, List.forall₂_map_right_iff]
  exact hTopics

theorem Node.processTopic_namespace (node : Node) (namespace_ : StdString) :
    node.processTopic (dpsNamespacePrefix ++ namespace_) =
      { node with namespace_ := namespace_ } := by
  unfold processTopic
  rw [ByteString.find_self_append]
  dsimp only
  rw [Nat.zero_add, List.drop_left]

theorem Node.processTopic_name (node : Node) {name : StdString} (hName : (0x3D : UInt8) ∉ name) :
    node.processTopic (dpsNamePrefix ++ name) = { node with name := name } := by
  have hNamespace : ByteString.find dpsNamespacePrefix (dpsNamePrefix ++ name) = none := by
    have hPrefix : dpsNamespacePrefix = bytesOf "namespace" ++ [0x3D] := by decide
    have hString : dpsNamePrefix ++ name = bytesOf "name" ++ 0x3D :: name := rfl
    apply ByteString.find_eq_none_of_not_infix
    rw [hPrefix, hString, ByteString.infix_cons_sep_iff (by decide) (by decide), not_or]
    constructor
    · decide
    · exact ByteString.not_infix_of_notMem hName
  unfold processTopic
  rw [hNamespace, ByteString.find_self_append]
  dsimp only
  rw [Nat.zero_add, List.drop_left]

/-- The strings of a payload, read in their order, describe the live entities. -/
theorem Node.ofTopics_describes {name namespace_ : StdString} {live : List Entity}
    {topics : List StdString} (hName : (0x3D : UInt8) ∉ name)
    (hPlain : ∀ entity ∈ live, entity.Plain)
    (hPerm : topics.Perm (live.map Entity.discoveryName)) :
    (Node.ofTopics ((dpsNamespacePrefix ++ namespace_) :: (dpsNamePrefix ++ name) ::
      topics)).Describes name namespace_ live := by
  obtain ⟨entities, hEntities, rfl⟩ := exists_perm_of_map_perm hPerm
  have hPlain' : ∀ entity ∈ entities, entity.Plain :=
    fun entity hEntity => hPlain entity (hEntities.mem_iff.mp hEntity)
  rw [ofTopics, List.foldl_cons, List.foldl_cons, processTopic_namespace,
    processTopic_name _ hName, ofTopics_discoveryNames _ hPlain']
  constructor
  · rfl
  · rfl
  · exact hEntities.filterMap _
  · exact hEntities.filterMap _
  · exact hEntities.filterMap _
  · exact hEntities.filterMap _

section Peer

variable [DpsCbor] [DpsCbor.Lawful]

/-- A published list of strings is read back. -/
theorem decodeTopics_published {topics : List StdString} {ser : TxStream}
    (hLength : topics.length < 2 ^ 64) (hSized : ∀ topic ∈ topics, Sized topic)
    (hWrite : writeWithRetry (stringOps.putVector topics) TxStream.new = .ok ser) :
    ser.data ≠ [] ∧ decodeTopics ser.data = .ok topics := by
  have hWrites := stringOps_encodesAs.putVector topics hLength hSized
  obtain ⟨ser', hWrite', -, hData⟩ := writeWithRetry_of_writes hWrites 1024
  obtain rfl : ser = ser' := Except.ok.inj (hWrite.symm.trans hWrite')
  have hReads := (stringOps_decodesAs.getVector topics hLength hSized).reads fun _ _ => trivial
  obtain ⟨deser, hRun, -⟩ :=
    hReads (RxStream.ofBytes ser.data) [] (by simp [hData, RxStream.ofBytes])
  refine ⟨?_, by rw [decodeTopics, hRun]⟩
  rw [hData, arrayItem]
  exact List.append_ne_nil_of_left_ne_nil (Rfc7049.head_ne_nil _ _) _

theorem decodePayload_published {topics : List StdString} {ser : TxStream}
    (hLength : topics.length < 2 ^ 64) (hSized : ∀ topic ∈ topics, Sized topic)
    (hWrite : writeWithRetry (stringOps.putVector topics) TxStream.new = .ok ser) :
    decodePayload ser.data = .ok (some (Node.ofTopics topics)) := by
  obtain ⟨hNonempty, hDecode⟩ := decodeTopics_published hLength hSized hWrite
  rw [decodePayload, List.isEmpty_eq_false_iff.mpr hNonempty, hDecode]
  rfl

/-- The number of live entities of a kind on a topic. -/
def liveOn (kind : Entity → Option Topic) (topicName : StdString) (live : List Entity) : Nat :=
  live.countP fun entity => (kind entity).any fun topic => topic.topic = topicName

omit [DpsCbor] [DpsCbor.Lawful] in
theorem countTopic_of_perm {kind : Entity → Option Topic} {topics : List Topic}
    {live : List Entity} (hPerm : topics.Perm (live.filterMap kind)) (topicName : StdString) :
    countTopic topicName topics = liveOn kind topicName live := by
  rw [countTopic, hPerm.countP_eq, List.countP_filterMap, liveOn]
  congr 1
  funext entity
  cases kind entity <;> rfl

/-- Whatever a node has created and destroyed, and whatever a peer knew before, after
the last payload the peer's entry for the node describes its live entities, and the
node's part of the three counters is the number of its live entities. -/
theorem peer_sees_live {name namespace_ : StdString} {sender : Advertisement}
    {live : List Entity} (hRun : Advertises name namespace_ sender live)
    (hName : (0x3D : UInt8) ∉ name) (hNameSize : Sized (dpsNamePrefix ++ name))
    (hNamespaceSize : Sized (dpsNamespacePrefix ++ namespace_)) (hLive : live.length + 2 < 2 ^ 64)
    (peer : CustomNodeInfo) (uuid : StdString) :
    ∃ payload peer' node, sender.published = some payload ∧
      onDiscovery peer uuid payload = .ok peer' ∧
      peer'.discoveredNodes[uuid]? = some node ∧ node.Describes name namespace_ live ∧
      ∀ topicName,
        peer'.discoveredNodes.countPublishers topicName =
          liveOn Entity.publisherTopic topicName live +
            DiscoveredNodes.countPublishers (peer.discoveredNodes.erase uuid) topicName ∧
        peer'.discoveredNodes.countSubscribers topicName =
          liveOn Entity.subscriberTopic topicName live +
            DiscoveredNodes.countSubscribers (peer.discoveredNodes.erase uuid) topicName ∧
        peer'.discoveredNodes.countServices topicName =
          liveOn Entity.serviceTopic topicName live +
            DiscoveredNodes.countServices (peer.discoveredNodes.erase uuid) topicName := by
  obtain ⟨hPlain, ⟨topics, hPayload, hPerm⟩, ser, hWrite, hPublished⟩ := hRun.advertised
  have hLength : sender.discoveryPayload.length < 2 ^ 64 := by
    simp only [hPayload, List.length_cons, hPerm.length_eq, List.length_map]
    exact hLive
  have hSized : ∀ topic ∈ sender.discoveryPayload, Sized topic := by
    intro topic hTopic
    rw [hPayload, List.mem_cons, List.mem_cons] at hTopic
    rcases hTopic with rfl | rfl | hTopic
    · exact hNamespaceSize
    · exact hNameSize
    · obtain ⟨entity, hEntity, rfl⟩ := List.mem_map.mp (hPerm.mem_iff.mp hTopic)
      exact (hPlain entity hEntity).sized
  -- The peer decodes the payload to the very strings that the node put in.
  have hDecode := decodePayload_published hLength hSized hWrite
  have hDescribes : (Node.ofTopics sender.discoveryPayload).Describes name namespace_ live := by
    rw [hPayload]
    exact Node.ofTopics_describes hName hPlain hPerm
  have hAnnounce : onDiscovery peer uuid ser.data =
      .ok (peer.announce uuid (some (Node.ofTopics sender.discoveryPayload))) := by
    rw [onDiscovery, hDecode]
    rfl
  have hNodes := peer.discoveredNodes_announce uuid (some (Node.ofTopics sender.discoveryPayload))
  refine ⟨ser.data, _, Node.ofTopics sender.discoveryPayload, hPublished, hAnnounce, ?_,
    hDescribes, ?_⟩
  · rw [hNodes, DiscoveredNodes.getElem?_update, if_pos rfl]
  · intro topicName
    rw [hNodes]
    refine ⟨?_, ?_, ?_⟩
    · rw [← countTopic_of_perm hDescribes.publishers]
      exact DiscoveredNodes.count_update _ _ _
    · rw [← countTopic_of_perm hDescribes.subscribers]
      exact DiscoveredNodes.count_update _ _ _
    · rw [← countTopic_of_perm hDescribes.services]
      exact DiscoveredNodes.count_update _ _ _

end Peer

/-- A publisher, and what a node has advertised that created it twice and destroyed it
once. -/
def talker : Entity := .publisher (bytesOf "/t") (bytesOf "T")

def talkerImpl : Advertisement where
  discoveryPayload :=
    [bytesOf "namespace=/", bytesOf "name=n", bytesOf "publisher&topic=/t&types=T"]
  published := some (arrayItem Rfc7049.text
    [bytesOf "namespace=/", bytesOf "name=n", bytesOf "publisher&topic=/t&types=T"])

theorem talker_plain : talker.Plain := by
  unfold talker Entity.Plain Plain Sized
  decide

theorem talker_advertises :
    @Advertises rfcCbor (bytesOf "n") (bytesOf "/") talkerImpl [talker] := by
  have hStart : @Advertises rfcCbor (bytesOf "n") (bytesOf "/") _ [] :=
    @Advertises.start rfcCbor _ _ _ rfl
  have hOne := @Advertises.create rfcCbor _ _ _ _ _ talker hStart talker_plain rfl
  have hTwo := @Advertises.create rfcCbor _ _ _ _ _ talker hOne talker_plain rfl
  exact @Advertises.destroy rfcCbor _ _ _ _ _ talker hTwo List.mem_cons_self rfl

theorem talker_seen :
    ∃ payload peer' node, talkerImpl.published = some payload ∧
      @onDiscovery rfcCbor (CustomNodeInfo.new 0) [] payload = .ok peer' ∧
      peer'.discoveredNodes[([] : StdString)]? = some node ∧
      node.Describes (bytesOf "n") (bytesOf "/") [talker] ∧
      peer'.discoveredNodes.countPublishers (bytesOf "/t") = 1 := by
  have hSeen := @peer_sees_live rfcCbor rfcCbor_lawful (bytesOf "n") (bytesOf "/") talkerImpl
    [talker] talker_advertises (by decide) (by unfold Sized; decide) (by unfold Sized; decide)
    (by decide) (CustomNodeInfo.new 0) []
  obtain ⟨payload, peer', node, hPublished, hAnnounce, hNode, hDescribes, hCounts⟩ := hSeen
  refine ⟨payload, peer', node, hPublished, hAnnounce, hNode, hDescribes, ?_⟩
  rw [(hCounts (bytesOf "/t")).1]
  have hEmpty : (CustomNodeInfo.new 0).discoveredNodes.erase ([] : StdString) = ∅ := rfl
  rw [hEmpty]
  rfl

end Discovery
end RmwDps
