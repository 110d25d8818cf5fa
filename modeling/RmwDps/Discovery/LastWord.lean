import RmwDps.Discovery.GraphQueries
import RmwDps.Discovery.Matching

/-!
# The last word of each peer

Events at a listener whose entities are registered before the first of them.  After
any number of events the map holds what each uuid has said last, and every matched
set can be read off the map, so nothing else of the history is left.

A matched set is a set of uuids.  The counters of the graph add up list entries, so
they agree with the cached counts only while no node lists a topic twice.
-/

namespace RmwDps
namespace Discovery

open Serialization

/-! ## Sequences of events -/

/-- A call of `onDiscovery`. -/
structure DiscoveryEvent where
  uuid : StdString
  payload : List UInt8
  deriving DecidableEq, Repr

/-- The listener after a sequence of events. -/
def CustomNodeInfo.afterEvents [DpsCbor] (impl : CustomNodeInfo) (events : List DiscoveryEvent) :
    Except Fault CustomNodeInfo :=
  events.foldlM (fun impl event => onDiscovery impl event.uuid event.payload) impl

/-- The payload is empty, or an array of strings. -/
def Decodes [DpsCbor] (payload : List UInt8) : Prop :=
  payload = [] ∨ ∃ topics, decodeTopics payload = .ok topics

/-- The payload of the last event of a uuid. -/
def lastPayload (uuid : StdString) (events : List DiscoveryEvent) : Option (List UInt8) :=
  events.foldl (fun last event => if event.uuid = uuid then some event.payload else last) none

/-- The node that a uuid has announced last, unless it has left since. -/
def lastWord [DpsCbor] (uuid : StdString) (events : List DiscoveryEvent) : Option Node :=
  (lastPayload uuid events).bind fun payload => (decodePayload payload).toOption.join

/-- No node is known, and every entity is registered under its topic and matches
nothing. -/
structure CustomNodeInfo.Undiscovered (impl : CustomNodeInfo) : Prop where
  nodes : impl.discoveredNodes = ∅
  entities : ∀ side address,
    ((impl.table side).infos address = none ∧ (impl.table side).Unregistered address) ∨
      ∃ topicName, (impl.table side).infos address = some (EntityInfo.new topicName) ∧
        (impl.table side).RegisteredAt address topicName

/-- Two runs end with the same map, the same registries and the same matched sets and
counts. -/
def SameDiscovery (run run' : Except Fault CustomNodeInfo) : Prop :=
  ∃ impl impl', run = .ok impl ∧ run' = .ok impl' ∧
    impl.discoveredNodes = impl'.discoveredNodes ∧ ∀ side, impl.table side = impl'.table side

/-- Neither the map nor a matched set has the uuid. -/
def CustomNodeInfo.Forgets (impl : CustomNodeInfo) (uuid : StdString) : Prop :=
  impl.discoveredNodes[uuid]? = none ∧
    ∀ side address info, (impl.table side).infos address = some info → uuid ∉ info.matched

/-! ## What the matched sets say -/

/-- The matched set of an info is the set of uuids that list its topic. -/
structure InfoCurrent (side : Side) (nodes : DiscoveredNodes) (info : EntityInfo) : Prop where
  matched : ∀ uuid, uuid ∈ info.matched ↔ info.topicName ∈ topicNames (nodes.topicsOf side uuid)
  count : info.matchedCount = info.matched.card

/-- The entities are those of the start, and their matched sets are read off the map. -/
structure CustomNodeInfo.Current (start impl : CustomNodeInfo) : Prop where
  registered : ∀ side, (impl.table side).registered = (start.table side).registered
  missing : ∀ side address, (start.table side).infos address = none →
    (impl.table side).infos address = none
  present : ∀ side address topicName,
    (start.table side).infos address = some (EntityInfo.new topicName) →
      ∃ info, (impl.table side).infos address = some info ∧ info.topicName = topicName ∧
        InfoCurrent side impl.discoveredNodes info

section Step

variable {start impl : CustomNodeInfo} {uuid : StdString}

theorem CustomNodeInfo.Undiscovered.current (hStart : start.Undiscovered) :
    start.Current start where
  registered _ := rfl
  missing _ _ hNone := hNone
  present side address topicName hInfo := by
    refine ⟨EntityInfo.new topicName, hInfo, rfl, ?_, rfl⟩
    intro uuid
    have hNobody : start.discoveredNodes.topicsOf side uuid = [] := by
      rw [DiscoveredNodes.topicsOf, hStart.nodes, Std.ExtTreeMap.getElem?_empty]
      cases side <;> rfl
    rw [hNobody]
    simp [EntityInfo.new, topicNames]

/-- An event changes the lists of its own uuid only, and `topic_difference` tells the
infos which way. -/
theorem InfoCurrent.announce {side : Side} {info : EntityInfo}
    (hInfo : InfoCurrent side impl.discoveredNodes info) (announced : Option Node) :
    InfoCurrent side (impl.announce uuid announced).discoveredNodes
      (info.rematch uuid (impl.discoveredNodes.topicsOf side uuid)
        ((impl.announce uuid announced).discoveredNodes.topicsOf side uuid)) where
  matched peer := by
    rw [EntityInfo.rematch_topicName]
    by_cases hPeer : peer = uuid
    · subst hPeer
      exact EntityInfo.mem_rematch_self fun _ => hInfo.matched peer
    · rw [EntityInfo.mem_rematch_of_ne hPeer,
        CustomNodeInfo.topicsOf_announce_of_ne impl uuid announced side peer hPeer]
      exact hInfo.matched peer
  count := EntityInfo.rematch_matchedCount hInfo.count

theorem CustomNodeInfo.Current.announce (hStart : start.Undiscovered)
    (hCurrent : start.Current impl) (announced : Option Node) :
    start.Current (impl.announce uuid announced) where
  registered side := by
    rw [table_announce, EntityTable.registered_updateMatched, hCurrent.registered]
  missing side address hNone := by
    rcases hStart.entities side address with ⟨-, hFree⟩ | ⟨topicName, hInfo, -⟩
    · have hStillFree : (impl.table side).Unregistered address := by
        intro topic
        rw [hCurrent.registered]
        exact hFree topic
      rw [table_announce, EntityTable.infos_updateMatched_of_unregistered uuid _ _ hStillFree]
      exact hCurrent.missing side address hNone
    · rw [hNone] at hInfo
      cases hInfo
  present side address topicName hInfo := by
    obtain ⟨info, hNow, hTopic, hInfoCurrent⟩ := hCurrent.present side address topicName hInfo
    -- The registries never change, so the start says where the address is registered.
    have hRegistered : (impl.table side).RegisteredAt address info.topicName := by
      rcases hStart.entities side address with ⟨hNone, -⟩ | ⟨other, hOther, hAt⟩
      · rw [hNone] at hInfo
        cases hInfo
      · have hSame : other = topicName := by
          have hEqual := Option.some.inj (hOther.symm.trans hInfo)
          exact congrArg EntityInfo.topicName hEqual
        intro topic
        rw [hCurrent.registered, hTopic, ← hSame]
        exact hAt topic
    refine ⟨info.rematch uuid (impl.discoveredNodes.topicsOf side uuid)
      ((impl.announce uuid announced).discoveredNodes.topicsOf side uuid), ?_, ?_, ?_⟩
    · rw [table_announce]
      exact EntityTable.infos_updateMatched uuid _ _ hNow hRegistered
    · rw [EntityInfo.rematch_topicName, hTopic]
    · exact hInfoCurrent.announce announced

/-- A matched set that is read off the map is determined by the map. -/
theorem InfoCurrent.eq {side : Side} {nodes : DiscoveredNodes} {info info' : EntityInfo}
    (hInfo : InfoCurrent side nodes info) (hInfo' : InfoCurrent side nodes info')
    (hTopic : info.topicName = info'.topicName) : info = info' := by
  have hMatched : info.matched = info'.matched := by
    ext uuid
    rw [hInfo.matched, hInfo'.matched, hTopic]
  have hCount : info.matchedCount = info'.matchedCount := by
    rw [hInfo.count, hInfo'.count, hMatched]
  obtain ⟨topicName, matched, matchedCount⟩ := info
  obtain ⟨topicName', matched', matchedCount'⟩ := info'
  dsimp only at hTopic hMatched hCount
  rw [hTopic, hMatched, hCount]

theorem CustomNodeInfo.Current.table_eq {impl' : CustomNodeInfo} (hStart : start.Undiscovered)
    (hCurrent : start.Current impl) (hCurrent' : start.Current impl')
    (hNodes : impl.discoveredNodes = impl'.discoveredNodes) (side : Side) :
    impl.table side = impl'.table side := by
  have hRegistered : (impl.table side).registered = (impl'.table side).registered :=
    (hCurrent.registered side).trans (hCurrent'.registered side).symm
  have hInfos : (impl.table side).infos = (impl'.table side).infos := by
    funext address
    rcases hStart.entities side address with ⟨hNone, -⟩ | ⟨topicName, hInfo, -⟩
    · rw [hCurrent.missing side address hNone, hCurrent'.missing side address hNone]
    · obtain ⟨info, hNow, hTopic, hInfoCurrent⟩ := hCurrent.present side address topicName hInfo
      obtain ⟨info', hNow', hTopic', hInfoCurrent'⟩ :=
        hCurrent'.present side address topicName hInfo
      rw [← hNodes] at hInfoCurrent'
      rw [hNow, hNow', hInfoCurrent.eq hInfoCurrent' (hTopic.trans hTopic'.symm)]
  revert hRegistered hInfos
  cases impl.table side
  cases impl'.table side
  rintro rfl rfl
  rfl

end Step

/-! ## Runs -/

section Runs

variable [DpsCbor] {start : CustomNodeInfo} {events events' : List DiscoveryEvent}

omit [DpsCbor] in
theorem lastPayload_concat (uuid : StdString) (event : DiscoveryEvent) :
    lastPayload uuid (events ++ [event]) =
      if event.uuid = uuid then some event.payload else lastPayload uuid events := by
  rw [lastPayload, List.foldl_append]
  rfl

theorem CustomNodeInfo.afterEvents_concat (event : DiscoveryEvent) :
    start.afterEvents (events ++ [event]) =
      start.afterEvents events >>= fun impl => onDiscovery impl event.uuid event.payload := by
  rw [afterEvents, List.foldlM_append]
  simp [afterEvents]

theorem Decodes.decodePayload {payload : List UInt8} (hDecodes : Decodes payload) :
    ∃ announced, Discovery.decodePayload payload = .ok announced := by
  rcases hDecodes with rfl | ⟨topics, hTopics⟩
  · exact ⟨none, rfl⟩
  · unfold Discovery.decodePayload
    split
    · exact ⟨none, rfl⟩
    · exact ⟨some (Node.ofTopics topics), by rw [hTopics]; rfl⟩

/-- The state after a sequence of events: the map holds the last words, and the matched
sets are read off it. -/
theorem afterEvents_current (hStart : start.Undiscovered)
    (hDecodes : ∀ event ∈ events, Decodes event.payload) :
    ∃ impl, start.afterEvents events = .ok impl ∧ start.Current impl ∧
      ∀ uuid, impl.discoveredNodes[uuid]? = lastWord uuid events := by
  -- The last event of a list is the last one to act, so the list grows at its end.
  induction events using List.reverseRecOn with
  | nil =>
      refine ⟨start, rfl, hStart.current, fun uuid => ?_⟩
      rw [hStart.nodes, Std.ExtTreeMap.getElem?_empty]
      rfl
  | append_singleton events event ih =>
      obtain ⟨impl, hRun, hCurrent, hNodes⟩ := ih fun earlier hEarlier =>
        hDecodes earlier (List.mem_append_left _ hEarlier)
      obtain ⟨announced, hPayload⟩ :=
        (hDecodes event (List.mem_append_right _ List.mem_cons_self)).decodePayload
      refine ⟨impl.announce event.uuid announced, ?_, hCurrent.announce hStart announced, ?_⟩
      · rw [CustomNodeInfo.afterEvents_concat, hRun]
        simp only [onDiscovery, hPayload, bind, Except.bind, pure, Except.pure]
      · intro uuid
        rw [CustomNodeInfo.getElem?_announce, lastWord, lastPayload_concat]
        -- The event speaks for its own uuid and for no other.
        by_cases hUuid : uuid = event.uuid
        · subst hUuid
          simp [hPayload, Except.toOption]
        · rw [if_neg hUuid, if_neg (Ne.symm hUuid)]
          exact hNodes uuid

/-- Sequences that end with the same event for each uuid end in the same state. -/
theorem sameDiscovery_of_lastPayload (hStart : start.Undiscovered)
    (hDecodes : ∀ event ∈ events, Decodes event.payload)
    (hDecodes' : ∀ event ∈ events', Decodes event.payload)
    (hLast : ∀ uuid, lastPayload uuid events = lastPayload uuid events') :
    SameDiscovery (start.afterEvents events) (start.afterEvents events') := by
  obtain ⟨impl, hRun, hCurrent, hNodes⟩ := afterEvents_current hStart hDecodes
  obtain ⟨impl', hRun', hCurrent', hNodes'⟩ := afterEvents_current hStart hDecodes'
  have hSame : impl.discoveredNodes = impl'.discoveredNodes := by
    apply Std.ExtTreeMap.ext_getElem?
    intro uuid
    rw [hNodes, hNodes', lastWord, lastWord, hLast]
  exact ⟨impl, impl', hRun, hRun', hSame, hCurrent.table_eq hStart hCurrent' hSame⟩

/-- An empty payload removes every trace of its uuid. -/
theorem forgets_of_empty (hStart : start.Undiscovered)
    (hDecodes : ∀ event ∈ events, Decodes event.payload) (uuid : StdString) :
    ∃ impl, start.afterEvents (events ++ [⟨uuid, []⟩]) = .ok impl ∧ impl.Forgets uuid := by
  have hDecodesAll : ∀ event ∈ events ++ [⟨uuid, []⟩], Decodes event.payload := by
    intro event hEvent
    rcases List.mem_append.mp hEvent with hEarlier | hLast
    · exact hDecodes event hEarlier
    · rw [List.mem_singleton.mp hLast]
      exact .inl rfl
  obtain ⟨impl, hRun, hCurrent, hNodes⟩ := afterEvents_current hStart hDecodesAll
  have hGone : impl.discoveredNodes[uuid]? = none := by
    rw [hNodes, lastWord, lastPayload_concat, if_pos rfl]
    rfl
  refine ⟨impl, hRun, hGone, fun side address info hInfo hMem => ?_⟩
  rcases hStart.entities side address with ⟨hNone, -⟩ | ⟨topicName, hBefore, -⟩
  · rw [hCurrent.missing side address hNone] at hInfo
    cases hInfo
  · obtain ⟨info', hNow, -, hInfoCurrent⟩ := hCurrent.present side address topicName hBefore
    obtain rfl := Option.some.inj (hInfo.symm.trans hNow)
    -- A uuid in a matched set would be listed by a node that has just been removed.
    have hListed := (hInfoCurrent.matched uuid).mp hMem
    rw [DiscoveredNodes.topicsOf, hGone] at hListed
    cases side <;> simp [Side.peers, topicNames] at hListed

/-- Discovery depends on the last word of each peer only: events of different uuids
commute, an announcement may be repeated, and an empty payload leaves no trace. -/
theorem discovery_lastWord (hStart : start.Undiscovered) :
    (∀ events events', (∀ event ∈ events, Decodes event.payload) →
      (∀ event ∈ events', Decodes event.payload) →
      (∀ uuid, lastPayload uuid events = lastPayload uuid events') →
      SameDiscovery (start.afterEvents events) (start.afterEvents events')) ∧
    (∀ events event event', (∀ e ∈ events ++ [event, event'], Decodes e.payload) →
      event.uuid ≠ event'.uuid →
      SameDiscovery (start.afterEvents (events ++ [event, event']))
        (start.afterEvents (events ++ [event', event]))) ∧
    (∀ events event, (∀ e ∈ events ++ [event], Decodes e.payload) →
      SameDiscovery (start.afterEvents (events ++ [event, event]))
        (start.afterEvents (events ++ [event]))) ∧
    (∀ events uuid, (∀ event ∈ events, Decodes event.payload) →
      ∃ impl, start.afterEvents (events ++ [⟨uuid, []⟩]) = .ok impl ∧ impl.Forgets uuid) := by
  have hTwo : ∀ (uuid : StdString) (events : List DiscoveryEvent) (event event' : DiscoveryEvent),
      lastPayload uuid (events ++ [event, event']) =
        if event'.uuid = uuid then some event'.payload
        else if event.uuid = uuid then some event.payload else lastPayload uuid events := by
    intro uuid events event event'
    have hSplit : events ++ [event, event'] = (events ++ [event]) ++ [event'] := by simp
    rw [hSplit, lastPayload_concat, lastPayload_concat]
  -- Each of the other parts is about two sequences with the same last words.
  refine ⟨fun events events' hDecodes hDecodes' hLast =>
    sameDiscovery_of_lastPayload hStart hDecodes hDecodes' hLast, ?_, ?_,
    fun events uuid hDecodes => forgets_of_empty hStart hDecodes uuid⟩
  · intro events event event' hDecodes hOther
    apply sameDiscovery_of_lastPayload hStart hDecodes
    · intro e hEvent
      refine hDecodes e ?_
      simp only [List.mem_append, List.mem_cons, List.not_mem_nil, or_false] at hEvent ⊢
      tauto
    · intro uuid
      rw [hTwo, hTwo]
      by_cases hFirst : event.uuid = uuid
      · have hSecond : event'.uuid ≠ uuid := fun h => hOther (hFirst.trans h.symm)
        rw [if_neg hSecond, if_pos hFirst, if_pos hFirst]
      · rw [if_neg hFirst, if_neg hFirst]
  · intro events event hDecodes
    apply sameDiscovery_of_lastPayload hStart _ hDecodes
    · intro uuid
      rw [hTwo, lastPayload_concat]
      split_ifs <;> rfl
    · intro e hEvent
      refine hDecodes e ?_
      simp only [List.mem_append, List.mem_cons, List.not_mem_nil, or_false] at hEvent ⊢
      tauto

end Runs

/-! ## The two counters -/

/-- `rmw_publisher_count_matched_subscriptions` or its counterpart. -/
def CustomNodeInfo.countMatched (impl : CustomNodeInfo) : Side → Nat → Option Nat
  | .publisher, publisher => impl.countMatchedSubscriptions publisher
  | .subscription, subscription => impl.countMatchedPublishers subscription

/-- `rmw_count_subscribers` for a publisher, and `rmw_count_publishers` for a
subscription. -/
def CustomNodeInfo.countPeers (impl : CustomNodeInfo) : Side → StdString → Nat
  | .publisher, topicName => impl.rmwCountSubscribers topicName
  | .subscription, topicName => impl.rmwCountPublishers topicName

/-- The cached count of an entity is what the graph counts on its topic. -/
def CustomNodeInfo.CountersAgree (impl : CustomNodeInfo) (side : Side) (address : Nat)
    (topicName : StdString) : Prop :=
  impl.countMatched side address = some (impl.countPeers side topicName)

theorem sum_eq_countP_iff {α : Type} (f : α → Nat) (xs : List α) :
    (xs.map f).sum = xs.countP (fun x => 0 < f x) ↔ ∀ x ∈ xs, f x ≤ 1 := by
  -- The sum is never below the count, so they can only agree element by element.
  have hLower : ∀ ys : List α, ys.countP (fun x => 0 < f x) ≤ (ys.map f).sum := by
    intro ys
    induction ys with
    | nil => simp
    | cons y ys ih =>
        rw [List.countP_cons, List.map_cons, List.sum_cons]
        split_ifs with hPositive
        · have hOne : 0 < f y := by simpa using hPositive
          omega
        · omega
  induction xs with
  | nil => simp
  | cons x xs ih =>
      have hRest := hLower xs
      rw [List.countP_cons, List.map_cons, List.sum_cons, List.forall_mem_cons]
      constructor
      · intro hSum
        split_ifs at hSum with hPositive
        · have hHead : 0 < f x := by simpa using hPositive
          exact ⟨by omega, ih.mp (by omega)⟩
        · have hHead : f x = 0 := by simpa using hPositive
          exact ⟨by omega, ih.mp (by omega)⟩
      · rintro ⟨hHead, hTail⟩
        have hSum := ih.mpr hTail
        split_ifs with hPositive
        · have hOne : 0 < f x := by simpa using hPositive
          omega
        · have hZero : f x = 0 := by simpa using hPositive
          omega

/-- A matched set has one element for each node that lists the topic. -/
theorem InfoCurrent.card_matched {side : Side} {nodes : DiscoveredNodes} {info : EntityInfo}
    (hInfo : InfoCurrent side nodes info) :
    info.matched.card =
      nodes.toList.countP fun entry => 0 < countTopic info.topicName (side.peers entry.2) := by
  have hListed : ∀ topics : List Topic,
      info.topicName ∈ topicNames topics ↔ 0 < countTopic info.topicName topics := by
    intro topics
    rw [mem_topicNames, countTopic, List.countP_pos_iff]
    simp
  have hKeys : (nodes.toList.map Prod.fst).Nodup := by
    rw [List.nodup_iff_pairwise_ne, List.pairwise_map]
    refine (Std.ExtTreeMap.distinct_keys_toList (t := nodes)).imp ?_
    intro entry other hDistinct hEqual
    rw [hEqual, Std.ReflOrd.compare_self] at hDistinct
    exact hDistinct rfl
  -- The set is the set of keys whose node lists the topic; keys are distinct.
  have hMatched : info.matched = ((nodes.toList.filter fun entry =>
      0 < countTopic info.topicName (side.peers entry.2)).map Prod.fst).toFinset := by
    ext uuid
    rw [hInfo.matched, hListed, List.mem_toFinset, List.mem_map, DiscoveredNodes.topicsOf]
    constructor
    · intro hPositive
      cases hNode : nodes[uuid]? with
      | none =>
          rw [hNode] at hPositive
          cases side <;> simp [Side.peers, countTopic] at hPositive
      | some node =>
          rw [hNode] at hPositive
          refine ⟨(uuid, node), ?_, rfl⟩
          rw [List.mem_filter, Std.ExtTreeMap.mem_toList_iff_getElem?_eq_some]
          exact ⟨hNode, by simpa using hPositive⟩
    · rintro ⟨⟨peer, node⟩, hEntry, rfl⟩
      rw [List.mem_filter, Std.ExtTreeMap.mem_toList_iff_getElem?_eq_some] at hEntry
      rw [hEntry.1]
      simpa using hEntry.2
  have hNodup : ((nodes.toList.filter fun entry =>
      0 < countTopic info.topicName (side.peers entry.2)).map Prod.fst).Nodup :=
    hKeys.sublist (List.filter_sublist.map Prod.fst)
  rw [hMatched, List.toFinset_card_of_nodup hNodup, List.length_map, List.countP_eq_length_filter]

/-- After any events, the counters of an entity agree exactly when no peer's last
announcement lists the topic twice. -/
theorem countersAgree_iff [DpsCbor] {start impl : CustomNodeInfo} {events : List DiscoveryEvent}
    {side : Side} {address : Nat} {topicName : StdString} (hStart : start.Undiscovered)
    (hEntity : (start.table side).infos address = some (EntityInfo.new topicName))
    (hDecodes : ∀ event ∈ events, Decodes event.payload)
    (hRun : start.afterEvents events = .ok impl) :
    impl.CountersAgree side address topicName ↔
      ∀ uuid, countTopic topicName (side.peers ((lastWord uuid events).getD {})) ≤ 1 := by
  obtain ⟨impl', hRun', hCurrent, hNodes⟩ := afterEvents_current hStart hDecodes
  obtain rfl : impl = impl' := Except.ok.inj (hRun.symm.trans hRun')
  obtain ⟨info, hInfo, rfl, hInfoCurrent⟩ := hCurrent.present side address topicName hEntity
  have hCached : impl.countMatched side address = some info.matched.card := by
    rw [← hInfoCurrent.count]
    cases side <;> exact congrArg (Option.map EntityInfo.matchedCount) hInfo
  have hGraph : impl.countPeers side info.topicName = (impl.discoveredNodes.toList.map fun entry =>
      countTopic info.topicName (side.peers entry.2)).sum := by
    have hMap := List.map_map (g := fun node => countTopic info.topicName (side.peers node))
      (f := Prod.snd) (l := impl.discoveredNodes.toList)
    cases side <;> exact congrArg List.sum hMap
  -- The cache counts the nodes that list the topic, the graph adds up their entries.
  rw [CustomNodeInfo.CountersAgree, hCached, hGraph, Option.some.injEq, eq_comm,
    hInfoCurrent.card_matched, sum_eq_countP_iff]
  constructor
  · intro hEntries uuid
    cases hWord : lastWord uuid events with
    | none => cases side <;> simp [Side.peers, countTopic]
    | some node =>
        refine hEntries (uuid, node) ?_
        rw [Std.ExtTreeMap.mem_toList_iff_getElem?_eq_some, hNodes, hWord]
  · rintro hWords ⟨uuid, node⟩ hEntry
    rw [Std.ExtTreeMap.mem_toList_iff_getElem?_eq_some, hNodes] at hEntry
    have hWord := hWords uuid
    rwa [hEntry] at hWord

/-! ## A publisher that watches its topic -/

/-- A node with one publisher, registered on `/t`. -/
def watcher : CustomNodeInfo :=
  { CustomNodeInfo.new 0 with
    publishers := (EntityTable.empty.allocate 0 (EntityInfo.new (bytesOf "/t"))).register
      (bytesOf "/t") 0 }

theorem watcher_undiscovered : watcher.Undiscovered where
  nodes := rfl
  entities side address := by
    have hNobody : ∀ topic : StdString, address ∉ EntityTable.empty.registered topic :=
      fun _ => Finset.notMem_empty address
    cases side with
    | publisher =>
        by_cases hAddress : address = 0
        · subst hAddress
          refine .inr ⟨bytesOf "/t", rfl, fun topic => ?_⟩
          rw [watcher, CustomNodeInfo.table, EntityTable.mem_register]
          simp [EntityTable.allocate, EntityTable.empty]
        · refine .inl ⟨Function.update_of_ne hAddress _ _, fun topic => ?_⟩
          rw [watcher, CustomNodeInfo.table, EntityTable.mem_register]
          simp [EntityTable.allocate, EntityTable.empty, hAddress]
    | subscription => exact .inl ⟨rfl, hNobody⟩

/-- A payload with two subscribers on `/t`. -/
def twinPayload : List UInt8 :=
  0x82 :: 0x78 :: 27 :: bytesOf "subscriber&topic=/t&types=T" ++
    0x78 :: 27 :: bytesOf "subscriber&topic=/t&types=T"

theorem peerPayload_decodes : @Decodes rfcCbor peerPayload :=
  .inr ⟨[bytesOf "subscriber&topic=/t&types=T"], rfl⟩

/-- A peer that announces itself and leaves is forgotten, whatever it has said. -/
theorem watcher_discovery_lastWord :
    ∃ impl, @CustomNodeInfo.afterEvents rfcCbor watcher ([⟨[], peerPayload⟩] ++ [⟨[], []⟩]) =
      .ok impl ∧ impl.Forgets [] := by
  let _ := rfcCbor
  refine (discovery_lastWord watcher_undiscovered).2.2.2 _ _ fun event hEvent => ?_
  rw [List.mem_singleton.mp hEvent]
  exact peerPayload_decodes

/-- One subscriber is counted as one by both. -/
theorem watcher_countersAgree :
    ∃ impl, @CustomNodeInfo.afterEvents rfcCbor watcher [⟨[], peerPayload⟩] = .ok impl ∧
      impl.CountersAgree .publisher 0 (bytesOf "/t") := by
  let _ := rfcCbor
  have hDecodes : ∀ event ∈ [(⟨[], peerPayload⟩ : DiscoveryEvent)], Decodes event.payload := by
    intro event hEvent
    rw [List.mem_singleton.mp hEvent]
    exact peerPayload_decodes
  have hRun : watcher.afterEvents [⟨[], peerPayload⟩] = .ok (watcher.announce [] (some peer)) := rfl
  refine ⟨_, hRun, (countersAgree_iff watcher_undiscovered rfl hDecodes hRun).mpr ?_⟩
  intro uuid
  by_cases hUuid : [] = uuid
  · subst hUuid
    exact le_refl 1
  · have hSilent : lastWord uuid [⟨[], peerPayload⟩] = none := by
      simp [lastWord, lastPayload, hUuid]
    rw [hSilent]
    exact Nat.zero_le 1

/-- Two subscribers of one node are one uuid to the publisher, and two entries to the
graph. -/
theorem twin_not_countersAgree :
    watcher.Undiscovered ∧ @Decodes rfcCbor twinPayload ∧
      ∃ impl, @CustomNodeInfo.afterEvents rfcCbor watcher [⟨[], twinPayload⟩] = .ok impl ∧
        ¬ impl.CountersAgree .publisher 0 (bytesOf "/t") := by
  let _ := rfcCbor
  let line := bytesOf "subscriber&topic=/t&types=T"
  refine ⟨watcher_undiscovered, .inr ⟨[line, line], rfl⟩,
    watcher.announce [] (some (Node.ofTopics [line, line])), rfl, ?_⟩
  intro hAgree
  have hCached : (watcher.announce [] (some (Node.ofTopics [line, line]))).countMatched
      .publisher 0 = some 1 := rfl
  have hGraph : (watcher.announce [] (some (Node.ofTopics [line, line]))).countPeers
      .publisher (bytesOf "/t") = 2 := rfl
  rw [CustomNodeInfo.CountersAgree, hCached, hGraph] at hAgree
  cases hAgree

end Discovery
end RmwDps
