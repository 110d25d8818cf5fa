import RmwDps.Discovery.NodeListener

/-!
# Matched entities

`CustomNodeInfo` as discovery sees it: the map of discovered nodes, and for the
local publishers and subscriptions the registries by topic and the sets of
peers they match.  The two sides are mirror images, so a side is one
`EntityTable`, and the sections of `onDiscovery` that update the cached counts
are one function of a table and of two lists of topics.
-/

namespace RmwDps
namespace Discovery

open Serialization

/-! ## Entities of one side -/

/-- `CustomPublisherInfo` or `CustomSubscriberInfo`, with the topic name of its
handle: `subscriptions_` and `subscriptions_matched_count_`, or `publishers_`
and `publishers_matched_count_`. -/
structure EntityInfo where
  topicName : StdString
  matched : Finset StdString
  matchedCount : Nat
  deriving DecidableEq

/-- `new CustomPublisherInfo()`. -/
def EntityInfo.new (topicName : StdString) : EntityInfo :=
  { topicName, matched := ∅, matchedCount := 0 }

def EntityInfo.setMatched (info : EntityInfo) (matched : Finset StdString) : EntityInfo :=
  { info with matched, matchedCount := matched.card }

def EntityInfo.eraseMatched (uuid : StdString) (info : EntityInfo) : EntityInfo :=
  info.setMatched (info.matched.erase uuid)

def EntityInfo.insertMatched (uuid : StdString) (info : EntityInfo) : EntityInfo :=
  info.setMatched (insert uuid info.matched)

/-- The infos of one side in memory, by address, and the registry `publishers_`
or `subscribers_` from topic names to the addresses of infos. -/
structure EntityTable where
  registered : StdString → Finset Nat
  infos : Nat → Option EntityInfo

def EntityTable.empty : EntityTable :=
  { registered := fun _ => ∅, infos := fun _ => none }

/-- Put an info into memory. -/
def EntityTable.allocate (table : EntityTable) (address : Nat) (info : EntityInfo) : EntityTable :=
  { table with infos := Function.update table.infos address (some info) }

/-- `delete info`. -/
def EntityTable.delete (table : EntityTable) (address : Nat) : EntityTable :=
  { table with infos := Function.update table.infos address none }

/-- `publishers_[topic_name].insert(info)`. -/
def EntityTable.register (table : EntityTable) (topicName : StdString) (address : Nat) :
    EntityTable :=
  { table with
    registered := Function.update table.registered topicName
      (insert address (table.registered topicName)) }

/-- `publishers_[topic_name].erase(info)`. -/
def EntityTable.unregister (table : EntityTable) (topicName : StdString) (address : Nat) :
    EntityTable :=
  { table with
    registered := Function.update table.registered topicName
      ((table.registered topicName).erase address) }

/-- `for (auto pub : impl->publishers_[topic])` around an update of the info. -/
def EntityTable.forTopic (f : EntityInfo → EntityInfo) (table : EntityTable) (topic : StdString) :
    EntityTable :=
  { table with
    infos := fun address =>
      if address ∈ table.registered topic then (table.infos address).map f
      else table.infos address }

/-- The names in a list of topics, as a set. -/
def topicNames (topics : List Topic) : List StdString := (topics.map Topic.topic).dedup

/-- `topic_difference`: the added and the removed names. -/
def topicDifference (oldTopics newTopics : List Topic) : List StdString × List StdString :=
  ((topicNames newTopics).filter (· ∉ topicNames oldTopics),
    (topicNames oldTopics).filter (· ∉ topicNames newTopics))

/-- One of the two sections of `onDiscovery` that update the cached counts of
peers, for the topics that a node listed before and lists now. -/
def EntityTable.updateMatched (table : EntityTable) (uuid : StdString)
    (oldTopics newTopics : List Topic) : EntityTable :=
  if oldTopics = newTopics then table
  else
    let (added, removed) := topicDifference oldTopics newTopics
    let table := removed.foldl (EntityTable.forTopic (EntityInfo.eraseMatched uuid)) table
    added.foldl (EntityTable.forTopic (EntityInfo.insertMatched uuid)) table

/-! ## The node -/

/-- `CustomNodeInfo`, the part that discovery reads and writes.  `graphTriggers`
counts the calls that trigger the graph guard condition. -/
structure CustomNodeInfo where
  domainId : Nat
  discoveredNodes : DiscoveredNodes
  publishers : EntityTable
  subscribers : EntityTable
  graphTriggers : Nat

def CustomNodeInfo.new (domainId : Nat) : CustomNodeInfo where
  domainId := domainId
  discoveredNodes := ∅
  publishers := EntityTable.empty
  subscribers := EntityTable.empty
  graphTriggers := 0

/-- The section of `onDiscovery` under `publishers_mutex_`: the cached counts of
subscribers. -/
def CustomNodeInfo.updateSubscriptions (impl : CustomNodeInfo) (uuid : StdString)
    (old node : Node) : CustomNodeInfo :=
  { impl with
    publishers := impl.publishers.updateMatched uuid old.subscribers node.subscribers }

/-- The section of `onDiscovery` under `subscribers_mutex_`: the cached counts of
publishers. -/
def CustomNodeInfo.updatePublishers (impl : CustomNodeInfo) (uuid : StdString)
    (old node : Node) : CustomNodeInfo :=
  { impl with
    subscribers := impl.subscribers.updateMatched uuid old.publishers node.publishers }

/-- `if (trigger)` around the call of `rmw_trigger_guard_condition`. -/
def CustomNodeInfo.notify (impl : CustomNodeInfo) (trigger : Bool) : CustomNodeInfo :=
  if trigger then { impl with graphTriggers := impl.graphTriggers + 1 } else impl

/-- `onDiscovery` from its first lock on. -/
def CustomNodeInfo.announce (impl : CustomNodeInfo) (uuid : StdString) (announced : Option Node) :
    CustomNodeInfo :=
  let node := announced.getD {}
  let (old, trigger, nodes) := impl.discoveredNodes.update uuid announced
  let impl := { impl with discoveredNodes := nodes }
  let impl := impl.updateSubscriptions uuid old node
  let impl := impl.updatePublishers uuid old node
  impl.notify trigger

/-- `NodeListener::onDiscovery`.  An exception of the decoder leaves the function
before it has changed anything. -/
def onDiscovery [DpsCbor] (impl : CustomNodeInfo) (uuid : StdString) (payload : List UInt8) :
    Except Fault CustomNodeInfo := do
  let announced ← decodePayload payload
  return impl.announce uuid announced

/-- `rmw_publisher_count_matched_subscriptions` on the info at an address. -/
def CustomNodeInfo.countMatchedSubscriptions (impl : CustomNodeInfo) (publisher : Nat) :
    Option Nat :=
  (impl.publishers.infos publisher).map EntityInfo.matchedCount

/-- `rmw_subscription_count_matched_publishers` on the info at an address. -/
def CustomNodeInfo.countMatchedPublishers (impl : CustomNodeInfo) (subscription : Nat) :
    Option Nat :=
  (impl.subscribers.infos subscription).map EntityInfo.matchedCount

/-! ## What an update does to one info -/

@[simp] theorem EntityInfo.setMatched_topicName (info : EntityInfo) (matched : Finset StdString) :
    (info.setMatched matched).topicName = info.topicName := rfl

@[simp] theorem EntityInfo.setMatched_matched (info : EntityInfo) (matched : Finset StdString) :
    (info.setMatched matched).matched = matched := rfl

@[simp] theorem EntityInfo.setMatched_matchedCount (info : EntityInfo)
    (matched : Finset StdString) :
    (info.setMatched matched).matchedCount = matched.card := rfl

theorem mem_topicNames {topics : List Topic} {name : StdString} :
    name ∈ topicNames topics ↔ ∃ topic ∈ topics, topic.topic = name := by
  simp [topicNames]

theorem nodup_topicNames (topics : List Topic) : (topicNames topics).Nodup :=
  List.nodup_dedup _

/-- An info is registered under one topic and no other. -/
def EntityTable.RegisteredAt (table : EntityTable) (address : Nat) (topicName : StdString) :
    Prop :=
  ∀ topic, address ∈ table.registered topic ↔ topic = topicName

/-- An info that is not registered. -/
def EntityTable.Unregistered (table : EntityTable) (address : Nat) : Prop :=
  ∀ topic, address ∉ table.registered topic

section Updates

variable {table : EntityTable} {address : Nat} {topicName : StdString}

@[simp] theorem EntityTable.registered_foldl (f : EntityInfo → EntityInfo)
    (topics : List StdString) (table : EntityTable) :
    (topics.foldl (EntityTable.forTopic f) table).registered = table.registered := by
  induction topics generalizing table with
  | nil => rfl
  | cons topic topics ih => exact ih (table.forTopic f topic)

/-- A loop over distinct topics reaches an info once, if its topic is among
them. -/
theorem EntityTable.infos_foldl (f : EntityInfo → EntityInfo) {topics : List StdString}
    (hDistinct : topics.Nodup) (hRegistered : table.RegisteredAt address topicName) :
    (topics.foldl (EntityTable.forTopic f) table).infos address =
      if topicName ∈ topics then (table.infos address).map f else table.infos address := by
  induction topics generalizing table with
  | nil => rfl
  | cons topic topics ih =>
      obtain ⟨hFresh, hTopics⟩ := List.nodup_cons.mp hDistinct
      have hStep : (table.forTopic f topic).infos address =
          if topicName = topic then (table.infos address).map f else table.infos address := by
        simp only [forTopic, hRegistered topic, eq_comm]
      have hRegistered' : (table.forTopic f topic).RegisteredAt address topicName := hRegistered
      rw [List.foldl_cons, ih hTopics hRegistered', hStep]
      by_cases hTopic : topicName = topic
      · have hElsewhere : topicName ∉ topics := hTopic ▸ hFresh
        simp [hTopic, hTopic ▸ hElsewhere]
      · simp [hTopic]

theorem EntityTable.infos_foldl_of_unregistered (f : EntityInfo → EntityInfo)
    (topics : List StdString) (hUnregistered : table.Unregistered address) :
    (topics.foldl (EntityTable.forTopic f) table).infos address = table.infos address := by
  induction topics generalizing table with
  | nil => rfl
  | cons topic topics ih =>
      have hStep : (table.forTopic f topic).infos address = table.infos address :=
        if_neg (hUnregistered topic)
      have hUnregistered' : (table.forTopic f topic).Unregistered address := hUnregistered
      rw [List.foldl_cons, ih hUnregistered', hStep]

@[simp] theorem EntityTable.registered_updateMatched (table : EntityTable) (uuid : StdString)
    (oldTopics newTopics : List Topic) :
    (table.updateMatched uuid oldTopics newTopics).registered = table.registered := by
  unfold updateMatched
  split <;> simp

/-- The info after a node's list of topics has changed: one rule for the four
ways in which the info's own topic can be or not be in the two lists. -/
def EntityInfo.rematch (info : EntityInfo) (uuid : StdString) (oldTopics newTopics : List Topic) :
    EntityInfo :=
  if info.topicName ∈ topicNames newTopics then
    if info.topicName ∈ topicNames oldTopics then info else info.insertMatched uuid
  else
    if info.topicName ∈ topicNames oldTopics then info.eraseMatched uuid else info

theorem EntityTable.infos_updateMatched {info : EntityInfo} (uuid : StdString)
    (oldTopics newTopics : List Topic) (hInfo : table.infos address = some info)
    (hRegistered : table.RegisteredAt address info.topicName) :
    (table.updateMatched uuid oldTopics newTopics).infos address =
      some (info.rematch uuid oldTopics newTopics) := by
  unfold updateMatched EntityInfo.rematch
  by_cases hSame : oldTopics = newTopics
  · subst hSame
    rw [if_pos rfl, hInfo]
    split_ifs <;> rfl
  · rw [if_neg hSame]
    simp only [topicDifference]
    have hAdded : ((topicNames newTopics).filter (· ∉ topicNames oldTopics)).Nodup :=
      (nodup_topicNames newTopics).filter _
    have hRemoved : ((topicNames oldTopics).filter (· ∉ topicNames newTopics)).Nodup :=
      (nodup_topicNames oldTopics).filter _
    rw [EntityTable.infos_foldl _ hAdded (by simpa [RegisteredAt] using hRegistered),
      EntityTable.infos_foldl _ hRemoved hRegistered, hInfo]
    simp only [List.mem_filter, decide_eq_true_eq]
    by_cases hNew : info.topicName ∈ topicNames newTopics <;>
      by_cases hOld : info.topicName ∈ topicNames oldTopics <;> simp [hNew, hOld]

theorem EntityTable.infos_updateMatched_of_unregistered (uuid : StdString)
    (oldTopics newTopics : List Topic) (hUnregistered : table.Unregistered address) :
    (table.updateMatched uuid oldTopics newTopics).infos address = table.infos address := by
  unfold updateMatched
  split
  · rfl
  · simp only [topicDifference]
    rw [EntityTable.infos_foldl_of_unregistered _ _ (by simpa [Unregistered] using hUnregistered),
      EntityTable.infos_foldl_of_unregistered _ _ hUnregistered]

end Updates

@[simp] theorem EntityInfo.rematch_topicName (info : EntityInfo) (uuid : StdString)
    (oldTopics newTopics : List Topic) :
    (info.rematch uuid oldTopics newTopics).topicName = info.topicName := by
  unfold rematch
  split_ifs <;> rfl

/-- Only the uuid of the event enters or leaves a matched set. -/
theorem EntityInfo.mem_rematch_of_ne {info : EntityInfo} {uuid peer : StdString}
    {oldTopics newTopics : List Topic} (hPeer : peer ≠ uuid) :
    peer ∈ (info.rematch uuid oldTopics newTopics).matched ↔ peer ∈ info.matched := by
  unfold rematch
  split_ifs <;> simp [insertMatched, eraseMatched, hPeer]

/-- Afterwards the info matches the uuid exactly when its topic is listed.  What it did
before matters only if the topic is in both lists or in none. -/
theorem EntityInfo.mem_rematch_self {info : EntityInfo} {uuid : StdString}
    {oldTopics newTopics : List Topic}
    (hMatched : (info.topicName ∈ topicNames oldTopics ↔ info.topicName ∈ topicNames newTopics) →
      (uuid ∈ info.matched ↔ info.topicName ∈ topicNames oldTopics)) :
    uuid ∈ (info.rematch uuid oldTopics newTopics).matched ↔
      info.topicName ∈ topicNames newTopics := by
  unfold rematch
  split_ifs with hNew hOld hOld
  · simp [hNew, hMatched (iff_of_true hOld hNew), hOld]
  · simp [insertMatched, hNew]
  · simp [eraseMatched, hNew]
  · simp [hNew, hMatched (iff_of_false hOld hNew), hOld]

theorem EntityInfo.rematch_matchedCount {info : EntityInfo} {uuid : StdString}
    {oldTopics newTopics : List Topic} (hCount : info.matchedCount = info.matched.card) :
    (info.rematch uuid oldTopics newTopics).matchedCount =
      (info.rematch uuid oldTopics newTopics).matched.card := by
  unfold rematch
  split_ifs <;> first | exact hCount | rfl

/-! ## What an update does to the map -/

section Map

variable {nodes : DiscoveredNodes} {uuid : StdString} {announced : Option Node}

theorem DiscoveredNodes.update_old :
    (nodes.update uuid announced).1 = nodes[uuid]?.getD {} := by
  unfold update
  split
  · split
    · rfl
    · split <;> rfl
  · rfl

theorem DiscoveredNodes.getElem?_update (peer : StdString) :
    (nodes.update uuid announced).2.2[peer]? = if peer = uuid then announced else nodes[peer]? := by
  have hCompare : compare uuid peer = .eq ↔ peer = uuid := by
    rw [Std.LawfulEqOrd.compare_eq_iff_eq, eq_comm]
  unfold update
  cases announced with
  | none => simp only [Std.ExtTreeMap.getElem?_erase, hCompare]
  | some node =>
      by_cases hPeer : peer = uuid
      · subst hPeer
        cases hKnown : nodes[peer]? with
        | none => simp
        | some known =>
            by_cases hSame : known = node
            · simp [hSame, hKnown]
            · simp [hSame]
      · cases hKnown : nodes[uuid]? with
        | none => simp [Std.ExtTreeMap.getElem?_insert, hCompare, hPeer]
        | some known =>
            by_cases hSame : known = node
            · simp [hSame, hPeer]
            · simp [hSame, Std.ExtTreeMap.getElem?_insert, hCompare, hPeer]

/-- The queries look at the nodes under all uuids. -/
theorem DiscoveredNodes.mem_getDiscoveredNodes {node : Node} :
    node ∈ nodes.getDiscoveredNodes ↔ ∃ uuid : StdString, nodes[uuid]? = some node := by
  simp [getDiscoveredNodes]

theorem DiscoveredNodes.nodup_toList (nodes : DiscoveredNodes) : nodes.toList.Nodup := by
  have hKeys := Std.ExtTreeMap.distinct_keys_toList (t := nodes)
  refine hKeys.imp ?_
  intro entry other hDistinct hEqual
  rw [hEqual, Std.ReflOrd.compare_self] at hDistinct
  exact hDistinct rfl

/-- The entries after an announcement: the announced one, and those of the other
uuids. -/
theorem DiscoveredNodes.toList_update_perm (node : Node) :
    (nodes.update uuid (some node)).2.2.toList.Perm
      ((uuid, node) :: (nodes.erase uuid).toList) := by
  have hMem : ∀ {table : DiscoveredNodes} {peer : StdString} {other : Node},
      (peer, other) ∈ table.toList ↔ table[peer]? = some other :=
    Std.ExtTreeMap.mem_toList_iff_getElem?_eq_some
  have hErased : ∀ peer : StdString,
      (nodes.erase uuid)[peer]? = if peer = uuid then none else nodes[peer]? := by
    intro peer
    simp only [Std.ExtTreeMap.getElem?_erase, Std.LawfulEqOrd.compare_eq_iff_eq, @eq_comm _ peer]
  have hFresh : (uuid, node) ∉ (nodes.erase uuid).toList := by
    rw [hMem, hErased]
    simp
  rw [List.perm_ext_iff_of_nodup (nodup_toList _)
    (List.nodup_cons.mpr ⟨hFresh, nodup_toList _⟩)]
  rintro ⟨peer, other⟩
  rw [List.mem_cons, hMem, hMem, getElem?_update, hErased]
  by_cases hPeer : peer = uuid
  · simp [hPeer, eq_comm]
  · simp [hPeer]

/-- What the announced node adds to a counter. -/
theorem DiscoveredNodes.count_update (node : Node) (select : Node → List Topic)
    (topicName : StdString) :
    (nodes.update uuid (some node)).2.2.count select topicName =
      countTopic topicName (select node) +
        DiscoveredNodes.count (nodes.erase uuid) select topicName := by
  have hPerm := @toList_update_perm nodes uuid node
  unfold count getDiscoveredNodes
  rw [((hPerm.map Prod.snd).map _).sum_eq]
  simp

end Map

/-- The other sections of an event leave the map alone. -/
theorem CustomNodeInfo.discoveredNodes_announce (impl : CustomNodeInfo) (uuid : StdString)
    (announced : Option Node) :
    (impl.announce uuid announced).discoveredNodes =
      (impl.discoveredNodes.update uuid announced).2.2 := by
  simp only [announce, notify]
  split_ifs <;> rfl

end Discovery
end RmwDps
