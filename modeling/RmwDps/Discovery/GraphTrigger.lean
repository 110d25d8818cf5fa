import RmwDps.Discovery.Matching

/-!
# The trigger of the graph guard condition

`onDiscovery` from its first lock on, one write at a time: the map, the matched
sets and counts of both sides, and the trigger.  Whether to trigger is decided
with the map, and the caches are updated later from a comparison of their own;
both come down to whether the announced node is the one in the map.
-/

namespace RmwDps
namespace Discovery

open Serialization

/-! ## Writes -/

/-- A write to an info of one side. -/
inductive MatchWrite where
  | erase (uuid : StdString)
  | insert (uuid : StdString)
  | storeCount
  deriving DecidableEq, Repr

def MatchWrite.apply (write : MatchWrite) (info : EntityInfo) : EntityInfo :=
  match write with
  | erase uuid => { info with matched := info.matched.erase uuid }
  | insert uuid => { info with matched := Insert.insert uuid info.matched }
  | storeCount => { info with matchedCount := info.matched.card }

/-- The write to the info at an address. -/
def EntityTable.write (table : EntityTable) (target : Nat × MatchWrite) : EntityTable :=
  { table with
    infos := Function.update table.infos target.1 ((table.infos target.1).map target.2.apply) }

/-- A write of `onDiscovery`. -/
inductive Write where
  | insertNode (uuid : StdString) (node : Node)
  | eraseNode (uuid : StdString)
  | matched (side : Side) (target : Nat × MatchWrite)
  | trigger
  deriving DecidableEq, Repr

def CustomNodeInfo.write (impl : CustomNodeInfo) : Write → CustomNodeInfo
  | .insertNode uuid node =>
      { impl with discoveredNodes := impl.discoveredNodes.insert uuid node }
  | .eraseNode uuid => { impl with discoveredNodes := impl.discoveredNodes.erase uuid }
  | .matched side target => impl.setTable side ((impl.table side).write target)
  | .trigger => { impl with graphTriggers := impl.graphTriggers + 1 }

def CustomNodeInfo.writeAll (impl : CustomNodeInfo) (writes : List Write) : CustomNodeInfo :=
  writes.foldl CustomNodeInfo.write impl

/-! ## The writes of an event -/

/-- The writes under `mutex_`: an insertion, an assignment or an erasure, none
when the node in the map is the announced one. -/
def DiscoveredNodes.writes (nodes : DiscoveredNodes) (uuid : StdString)
    (announced : Option Node) : List Write :=
  match announced with
  | some node =>
      match nodes[uuid]? with
      | none => [.insertNode uuid node]
      | some known => if known = node then [] else [.insertNode uuid node]
  | none => [.eraseNode uuid]

/-- `for (auto pub : impl->publishers_[topic])`, in the order of the addresses. -/
def EntityTable.topicWrites (table : EntityTable) (write : MatchWrite) (topic : StdString) :
    List (Nat × MatchWrite) :=
  (table.registered topic).sort.flatMap fun address => [(address, write), (address, .storeCount)]

/-- The writes of one of the two sections that update the cached counts. -/
def EntityTable.matchWrites (table : EntityTable) (uuid : StdString)
    (oldTopics newTopics : List Topic) : List (Nat × MatchWrite) :=
  if oldTopics = newTopics then []
  else
    let (added, removed) := topicDifference oldTopics newTopics
    removed.flatMap (table.topicWrites (.erase uuid)) ++
      added.flatMap (table.topicWrites (.insert uuid))

/-- The writes of `onDiscovery`, in the order of the program. -/
def CustomNodeInfo.announceWrites (impl : CustomNodeInfo) (uuid : StdString)
    (announced : Option Node) : List Write :=
  let node := announced.getD {}
  let (old, trigger, _) := impl.discoveredNodes.update uuid announced
  impl.discoveredNodes.writes uuid announced ++
    (impl.publishers.matchWrites uuid old.subscribers node.subscribers).map
      (Write.matched .publisher) ++
    (impl.subscribers.matchWrites uuid old.publishers node.publishers).map
      (Write.matched .subscription) ++
    if trigger then [.trigger] else []

/-- The writes of `NodeListener::onDiscovery`; an exception of the decoder leaves
the function before the first. -/
def onDiscoveryWrites [DpsCbor] (impl : CustomNodeInfo) (uuid : StdString)
    (payload : List UInt8) : Except Fault (List Write) :=
  (decodePayload payload).map (impl.announceWrites uuid)

/-! ## What is to hold -/

/-- The guard condition fires exactly on change, and after everything else. -/
structure FiresOnChange (impl : CustomNodeInfo) (writes : List Write) : Prop where
  trigger_iff : Write.trigger ∈ writes ↔
    (impl.writeAll writes).discoveredNodes ≠ impl.discoveredNodes
  of_matched : ∀ side address info info', (impl.table side).infos address = some info →
    ((impl.writeAll writes).table side).infos address = some info' →
    info.matched ≠ info'.matched → Write.trigger ∈ writes
  /-- At the trigger the map and all infos are what they will be after the event. -/
  current : ∀ before after, writes = before ++ Write.trigger :: after →
    (impl.writeAll before).discoveredNodes = (impl.writeAll writes).discoveredNodes ∧
    ∀ side, (impl.writeAll before).table side = (impl.writeAll writes).table side

/-! ## The writes are those of the sections -/

theorem CustomNodeInfo.writeAll_append (impl : CustomNodeInfo) (first second : List Write) :
    impl.writeAll (first ++ second) = (impl.writeAll first).writeAll second :=
  List.foldl_append

@[simp] theorem EntityTable.registered_write (table : EntityTable) (target : Nat × MatchWrite) :
    (table.write target).registered = table.registered := rfl

/-- The two writes to an info are one update of it. -/
theorem EntityTable.infos_foldl_write (write : MatchWrite) {addresses : List Nat}
    (hDistinct : addresses.Nodup) (table : EntityTable) :
    ((addresses.flatMap fun address => [(address, write), (address, MatchWrite.storeCount)]).foldl
        EntityTable.write table) =
      { table with
        infos := fun address =>
          if address ∈ addresses then
            (table.infos address).map fun info => MatchWrite.storeCount.apply (write.apply info)
          else table.infos address } := by
  induction addresses generalizing table with
  | nil => simp
  | cons first addresses ih =>
      obtain ⟨hFresh, hRest⟩ := List.nodup_cons.mp hDistinct
      rw [List.flatMap_cons, List.foldl_append, ih hRest]
      simp only [List.foldl_cons, List.foldl_nil, registered_write, EntityTable.mk.injEq, true_and]
      funext address
      by_cases hFirst : address = first
      · subst hFirst
        simp [hFresh, EntityTable.write, Function.comp_def]
      · simp [hFirst, EntityTable.write]

theorem EntityTable.foldl_topicWrites {write : MatchWrite} {f : EntityInfo → EntityInfo}
    (hWrite : ∀ info, MatchWrite.storeCount.apply (write.apply info) = f info)
    (table : EntityTable) (topic : StdString) :
    (table.topicWrites write topic).foldl EntityTable.write table = table.forTopic f topic := by
  have hNodup : (table.registered topic).sort.Nodup := (table.registered topic).sort_nodup _
  unfold topicWrites forTopic
  rw [infos_foldl_write write hNodup]
  simp only [Finset.mem_sort, EntityTable.mk.injEq, true_and]
  funext address
  split_ifs
  · exact congrArg (fun g => (table.infos address).map g) (funext hWrite)
  · rfl

/-- The registry does not change under the writes, so a loop over topics may find
it as it was. -/
theorem EntityTable.foldl_topicsWrites {write : MatchWrite} {f : EntityInfo → EntityInfo}
    (hWrite : ∀ info, MatchWrite.storeCount.apply (write.apply info) = f info)
    (topics : List StdString) {table table' : EntityTable}
    (hRegistered : table'.registered = table.registered) :
    (topics.flatMap (table.topicWrites write)).foldl EntityTable.write table' =
      topics.foldl (EntityTable.forTopic f) table' := by
  induction topics generalizing table' with
  | nil => rfl
  | cons topic topics ih =>
      have hTopic : table.topicWrites write topic = table'.topicWrites write topic := by
        unfold topicWrites
        rw [hRegistered]
      rw [List.flatMap_cons, List.foldl_append, hTopic, foldl_topicWrites hWrite, List.foldl_cons]
      exact ih hRegistered

theorem EntityTable.foldl_matchWrites (table : EntityTable) (uuid : StdString)
    (oldTopics newTopics : List Topic) :
    (table.matchWrites uuid oldTopics newTopics).foldl EntityTable.write table =
      table.updateMatched uuid oldTopics newTopics := by
  unfold matchWrites updateMatched
  split_ifs
  · rfl
  · have hErase : ∀ info, MatchWrite.storeCount.apply ((MatchWrite.erase uuid).apply info) =
        info.eraseMatched uuid := fun _ => rfl
    have hInsert : ∀ info, MatchWrite.storeCount.apply ((MatchWrite.insert uuid).apply info) =
        info.insertMatched uuid := fun _ => rfl
    simp only [topicDifference]
    rw [List.foldl_append, foldl_topicsWrites hErase _ rfl, foldl_topicsWrites hInsert]
    exact registered_foldl _ _ _

theorem CustomNodeInfo.writeAll_matched (side : Side) (targets : List (Nat × MatchWrite))
    (impl : CustomNodeInfo) :
    impl.writeAll (targets.map (Write.matched side)) =
      impl.setTable side (targets.foldl EntityTable.write (impl.table side)) := by
  induction targets generalizing impl with
  | nil => cases side <;> rfl
  | cons target targets ih =>
      rw [List.map_cons, List.foldl_cons]
      show (impl.write (.matched side target)).writeAll _ = _
      rw [ih]
      cases side <;> rfl

theorem CustomNodeInfo.writeAll_nodes (impl : CustomNodeInfo) (uuid : StdString)
    (announced : Option Node) :
    impl.writeAll (impl.discoveredNodes.writes uuid announced) =
      { impl with discoveredNodes := (impl.discoveredNodes.update uuid announced).2.2 } := by
  unfold DiscoveredNodes.writes DiscoveredNodes.update
  cases announced with
  | none => rfl
  | some node =>
      cases hKnown : impl.discoveredNodes[uuid]? with
      | none => rfl
      | some known =>
          by_cases hSame : known = node
          · simp [hSame, writeAll]
          · simp [hSame, writeAll, write]

/-- The writes of an event, one after the other, are `onDiscovery`. -/
theorem CustomNodeInfo.writeAll_announceWrites (impl : CustomNodeInfo) (uuid : StdString)
    (announced : Option Node) :
    impl.writeAll (impl.announceWrites uuid announced) = impl.announce uuid announced := by
  unfold announceWrites announce
  simp only [writeAll_append, writeAll_nodes, writeAll_matched, table, setTable,
    EntityTable.foldl_matchWrites, updateSubscriptions, updatePublishers, notify]
  split_ifs <;> rfl

/-! ## When the event triggers -/

section Trigger

variable {nodes : DiscoveredNodes} {uuid : StdString} {announced : Option Node}

/-- The decision under `mutex_`: the announced node is not the one in the map. -/
theorem DiscoveredNodes.update_trigger :
    (nodes.update uuid announced).2.1 = true ↔ nodes[uuid]? ≠ announced := by
  unfold update
  cases announced with
  | none =>
      cases hKnown : nodes[uuid]? with
      | none => simpa using hKnown
      | some known =>
          have hMem : uuid ∈ nodes := by
            rw [Std.ExtTreeMap.mem_iff_isSome_getElem?, hKnown]
            rfl
          simpa using hMem
  | some node =>
      cases hKnown : nodes[uuid]? with
      | none => simp
      | some known => by_cases hSame : known = node <;> simp [hSame]

theorem DiscoveredNodes.update_eq_iff :
    (nodes.update uuid announced).2.2 = nodes ↔ nodes[uuid]? = announced := by
  constructor
  · intro hSame
    have hUuid := @getElem?_update nodes uuid announced uuid
    rw [if_pos rfl, hSame] at hUuid
    exact hUuid
  · intro hKnown
    apply Std.ExtTreeMap.ext_getElem?
    intro peer
    rw [getElem?_update]
    split_ifs with hPeer
    · rw [hPeer, hKnown]
    · rfl

/-- Without a trigger the sections of the caches find nothing to do. -/
theorem DiscoveredNodes.update_old_of_not_trigger
    (hTrigger : (nodes.update uuid announced).2.1 = false) :
    (nodes.update uuid announced).1 = announced.getD {} := by
  have hKnown : nodes[uuid]? = announced := by
    by_contra hNot
    rw [update_trigger.mpr hNot] at hTrigger
    exact nomatch hTrigger
  rw [update_old, hKnown]

end Trigger

/-! ## The event -/

section Event

variable (impl : CustomNodeInfo) (uuid : StdString) (announced : Option Node)

theorem DiscoveredNodes.trigger_notMem_writes (nodes : DiscoveredNodes) :
    Write.trigger ∉ nodes.writes uuid announced := by
  unfold writes
  cases announced with
  | none => simp
  | some node =>
      cases nodes[uuid]? with
      | none => simp
      | some known => by_cases hSame : known = node <;> simp [hSame]

/-- The trigger is the last write, and happens if and only if the announced node
is not the one in the map. -/
theorem CustomNodeInfo.announceWrites_eq : ∃ writes, Write.trigger ∉ writes ∧
    impl.announceWrites uuid announced =
      writes ++ if impl.discoveredNodes[uuid]? ≠ announced then [.trigger] else [] := by
  have hTrigger := @DiscoveredNodes.update_trigger impl.discoveredNodes uuid announced
  refine ⟨_, ?_, congrArg₂ (· ++ ·) rfl ?_⟩
  · simp [DiscoveredNodes.trigger_notMem_writes]
  · show (if (impl.discoveredNodes.update uuid announced).2.1 = true then [Write.trigger]
      else []) = _
    rw [if_congr hTrigger rfl rfl]

theorem CustomNodeInfo.table_announce_of_known (hKnown : impl.discoveredNodes[uuid]? = announced)
    (side : Side) : (impl.announce uuid announced).table side = impl.table side := by
  have hTopics : (impl.announce uuid announced).discoveredNodes.topicsOf side uuid =
      impl.discoveredNodes.topicsOf side uuid := by
    unfold DiscoveredNodes.topicsOf
    rw [getElem?_announce, if_pos rfl, hKnown]
  rw [table_announce, hTopics, EntityTable.updateMatched, if_pos rfl]

theorem CustomNodeInfo.announce_firesOnChange :
    FiresOnChange impl (impl.announceWrites uuid announced) := by
  obtain ⟨writes, hNotMem, hWrites⟩ := impl.announceWrites_eq uuid announced
  have hMem : Write.trigger ∈ impl.announceWrites uuid announced ↔
      impl.discoveredNodes[uuid]? ≠ announced := by
    rw [hWrites]
    by_cases hKnown : impl.discoveredNodes[uuid]? = announced <;> simp [hKnown, hNotMem]
  constructor
  · rw [hMem, writeAll_announceWrites, discoveredNodes_announce, ne_eq, ne_eq,
      DiscoveredNodes.update_eq_iff]
  · intro side address info info' hInfo hInfo' hChanged
    rw [hMem]
    intro hKnown
    rw [writeAll_announceWrites, table_announce_of_known impl uuid announced hKnown, hInfo,
      Option.some_inj] at hInfo'
    exact hChanged (congrArg EntityInfo.matched hInfo')
  · intro before after hSplit
    have hTriggers : Write.trigger ∈ impl.announceWrites uuid announced := by
      rw [hSplit]
      simp
    have hLast : before ++ Write.trigger :: after = writes ++ Write.trigger :: [] := by
      rw [← hSplit, hWrites, if_pos (hMem.mp hTriggers)]
    obtain ⟨rfl, rfl⟩ : before = writes ∧ after = [] := by
      rcases List.append_eq_append_iff.mp hLast with ⟨rest, hRest, hTail⟩ | ⟨rest, hRest, hTail⟩
      · cases rest with
        | nil => exact ⟨by simpa using hRest.symm, by simpa using hTail⟩
        | cons write rest =>
            rw [List.cons_append, List.cons.injEq] at hTail
            exact absurd (by simp [hRest, ← hTail.1]) hNotMem
      · cases rest with
        | nil => exact ⟨by simpa using hRest, by simpa using hTail.symm⟩
        | cons write rest => simp at hTail
    rw [hSplit, writeAll_append]
    exact ⟨rfl, fun side => by cases side <;> rfl⟩

end Event

/-- Of every event whose payload is empty or decodes, in every state: the writes
are those of `onDiscovery`, and the guard condition fires on change, after them. -/
theorem onDiscovery_firesOnChange [DpsCbor] (impl : CustomNodeInfo) (uuid : StdString)
    {payload : List UInt8} {announced : Option Node}
    (hPayload : decodePayload payload = .ok announced) :
    ∃ writes, onDiscoveryWrites impl uuid payload = .ok writes ∧
      onDiscovery impl uuid payload = .ok (impl.writeAll writes) ∧ FiresOnChange impl writes := by
  refine ⟨impl.announceWrites uuid announced, ?_, ?_, impl.announce_firesOnChange uuid announced⟩
  · rw [onDiscoveryWrites, hPayload]
    rfl
  · rw [onDiscovery, hPayload, CustomNodeInfo.writeAll_announceWrites]
    rfl

/-- A subscriber appears on the topic of a live publisher. -/
theorem peer_firesOnChange :
    ∃ writes, @onDiscoveryWrites rfcCbor (stateAfter createPublisher).impl [] peerPayload =
        .ok writes ∧
      @onDiscovery rfcCbor (stateAfter createPublisher).impl [] peerPayload =
        .ok ((stateAfter createPublisher).impl.writeAll writes) ∧
      FiresOnChange (stateAfter createPublisher).impl writes :=
  let _ := rfcCbor
  onDiscovery_firesOnChange (stateAfter createPublisher).impl []
    (show decodePayload peerPayload = .ok (some peer) from rfl)

/-! ## Events among creations and destructions -/

/-- The decision that an event in progress has made. -/
def EventPhase.trigger : EventPhase → Bool
  | .idle => false
  | .beforeSubscriptions _ _ _ trigger => trigger
  | .beforePublishers _ _ _ trigger => trigger
  | .beforeNotify trigger => trigger

/-- An event that will not trigger carries the same node twice. -/
def EventPhase.Quiet : EventPhase → Prop
  | .beforeSubscriptions _ old node trigger => trigger = false → old = node
  | .beforePublishers _ old node trigger => trigger = false → old = node
  | _ => True

section Machine

variable [DpsCbor] {s s' : MatchState}

theorem MatchState.event_step_quiet {action : Action} (hQuiet : s.event.Quiet)
    (hStep : s.step action = some s') : s'.event.Quiet := by
  have hCases := step_cases hStep
  cases action with
  | newEntity side address topicName =>
      obtain ⟨-, rfl⟩ := hCases
      exact hQuiet
  | failEntity side address =>
      obtain ⟨-, rfl⟩ := hCases
      exact hQuiet
  | register side address =>
      obtain ⟨info, -, -, rfl⟩ := hCases
      exact hQuiet
  | unregister side address =>
      obtain ⟨info, -, -, rfl⟩ := hCases
      exact hQuiet
  | deleteEntity side address =>
      obtain ⟨-, rfl⟩ := hCases
      exact hQuiet
  | discover uuid payload =>
      obtain ⟨-, rfl | ⟨announced, rfl⟩⟩ := hCases
      · exact hQuiet
      · exact DiscoveredNodes.update_old_of_not_trigger
  | updateSubscriptions =>
      obtain ⟨uuid, old, node, trigger, hEvent, rfl⟩ := hCases
      rw [hEvent] at hQuiet
      exact hQuiet
  | updatePublishers =>
      obtain ⟨uuid, old, node, trigger, -, rfl⟩ := hCases
      trivial
  | notify =>
      obtain ⟨trigger, -, rfl⟩ := hCases
      trivial

theorem MatchState.event_quiet {domainId : Nat} (hReachable : (matchMachine domainId).Reachable s) :
    s.event.Quiet := by
  refine @Transition.Machine.Reachable.invariant _ _ _ (fun s => s.event.Quiet) s hReachable ?_ ?_
  · rintro _ rfl
    trivial
  · intro s action s' hQuiet hStep
    exact event_step_quiet hQuiet hStep

/-- Whatever creations and destructions run between the sections of an event: a
section that changes an info belongs to an event that will trigger. -/
theorem MatchState.trigger_of_section {domainId : Nat} {action : Action} {side : Side}
    (hReachable : (matchMachine domainId).Reachable s) (hStep : s.step action = some s')
    (hSection : action = .updateSubscriptions ∨ action = .updatePublishers)
    (hChanged : s'.impl.table side ≠ s.impl.table side) : s'.event.trigger = true := by
  have hQuiet := event_quiet hReachable
  by_contra hTrigger
  rw [Bool.not_eq_true] at hTrigger
  apply hChanged
  have hCases := step_cases hStep
  obtain rfl | rfl := hSection
  · obtain ⟨uuid, old, node, trigger, hEvent, rfl⟩ := hCases
    rw [hEvent] at hQuiet
    obtain rfl : old = node := hQuiet hTrigger
    cases side <;> simp [CustomNodeInfo.table, CustomNodeInfo.updateSubscriptions,
      EntityTable.updateMatched]
  · obtain ⟨uuid, old, node, trigger, hEvent, rfl⟩ := hCases
    rw [hEvent] at hQuiet
    obtain rfl : old = node := hQuiet hTrigger
    cases side <;> simp [CustomNodeInfo.table, CustomNodeInfo.updatePublishers,
      EntityTable.updateMatched]

end Machine

end Discovery
end RmwDps
