import RmwDps.Discovery.DomainPrefix
import RmwDps.Discovery.Network

/-!
# Convergence of the graph

In every state of a network a listener has, of each node, what the node has said at some
time, and it never goes back to something older.  When nothing is on its way to a listener
any more, it has what every node has said last.  So two such listeners have the same map,
and answer every question about the graph alike; and while DPS takes every payload, the
map lists the live entities of the running nodes, each of them once.
-/

namespace RmwDps
namespace Discovery

open Serialization
open Creation (NodeRun NodeEvent)
open Replication (Registers versionOf)
open Transition (Machine)

section Convergence

variable [DpsCbor] {ι : Type} [DecidableEq ι] {parties : Participants ι} {s s' : Network ι}

/-! ## What listeners have -/

/-- The entry that a payload leads to. -/
def entryOf (payload : List UInt8) : Option Node := (decodePayload payload).toOption.join

/-- The entry of a node at a listener. -/
def Network.entry (s : Network ι) (parties : Participants ι) (i j : ι) : Option Node :=
  (s.listeners j).discoveredNodes[parties.uuid i]?

/-- The words and the payloads of a network tell the same, and each listener has exactly
the entries that its versions of the payloads lead to. -/
structure NetworkInv (parties : Participants ι) (s : Network ι) : Prop where
  current : s.dps.Current
  plain : ∀ i ∈ s.running, (s.nodes i).PlainRun (parties.name i) (parties.namespace_ i)
  tells : ∀ i, List.Forall₂ (Tells (parties.name i) (parties.namespace_ i)) (s.dps.history i)
    (s.said i)
  running : ∀ i, i ∈ s.running ↔ ∃ entities, (s.said i).getLast? = some (.entities entities)
  knows : ∀ i j, s.entry parties i j = (s.dps.view i j).bind entryOf
  strangers : ∀ j uuid, (∀ i, uuid ≠ parties.uuid i) →
    (s.listeners j).discoveredNodes[uuid]? = none

omit [DecidableEq ι] in
theorem networkInv_init (hInit : s.Initial parties) : NetworkInv parties s := by
  obtain ⟨hRunning, hDps, hSaid, hListeners⟩ := hInit
  have hNobody : ∀ j (uuid : StdString), (s.listeners j).discoveredNodes[uuid]? = none := by
    intro j uuid
    rw [hListeners j]
    exact Std.ExtTreeMap.getElem?_empty
  constructor
  · rw [hDps]
    exact Registers.current_empty
  · simp [hRunning]
  · intro i
    rw [hDps, hSaid i]
    exact .nil
  · simp [hRunning, hSaid]
  · intro i j
    rw [Network.entry, hNobody, hDps]
    rfl
  · exact fun j uuid _ => hNobody j uuid

/-- A node says something, and may begin to run, change or leave with it. -/
theorem NetworkInv.publish (hInv : NetworkInv parties s) {i : ι} {payload : List UInt8}
    {word : Word} {running : Finset ι} {nodes : ι → NodeRun}
    (hTells : Tells (parties.name i) (parties.namespace_ i) payload word)
    (hOthers : ∀ j, j ≠ i → (j ∈ running ↔ j ∈ s.running) ∧ nodes j = s.nodes j)
    (hPlain : i ∈ running → (nodes i).PlainRun (parties.name i) (parties.namespace_ i))
    (hRunning : i ∈ running ↔ ∃ entities, word = .entities entities) :
    NetworkInv parties { s.publish i payload word with running, nodes } := by
  constructor
  · exact hInv.current.step (.write s.dps i payload)
  · intro j hMem
    by_cases hSame : j = i
    · subst hSame
      exact hPlain hMem
    · obtain ⟨hOther, hNode⟩ := hOthers j hSame
      have hBefore := hInv.plain j (hOther.mp hMem)
      rwa [← hNode] at hBefore
  · intro j
    by_cases hSame : j = i
    · subst hSame
      simpa [Network.publish, Registers.write] using
        List.rel_append (hInv.tells j) (.cons hTells .nil)
    · simpa [Network.publish, Registers.write, hSame] using hInv.tells j
  · intro j
    by_cases hSame : j = i
    · subst hSame
      simpa [Network.publish] using hRunning
    · simpa [Network.publish, hSame, (hOthers j hSame).1] using hInv.running j
  · intro j l
    have hView := hInv.current.view_write (i := i) payload j l
    rw [Network.publish, hView]
    exact hInv.knows j l
  · exact hInv.strangers

omit [DecidableEq ι] in
/-- The network moves versions about, and no listener notices. -/
theorem NetworkInv.setDps (hInv : NetworkInv parties s) {dps : Registers ι ι (List UInt8)}
    (hCurrent : dps.Current) (hHistory : dps.history = s.dps.history)
    (hView : ∀ i j, dps.view i j = s.dps.view i j) : NetworkInv parties { s with dps } := by
  refine ⟨hCurrent, hInv.plain, ?_, hInv.running, ?_, hInv.strangers⟩
  · rw [hHistory]
    exact hInv.tells
  · intro i j
    rw [hView]
    exact hInv.knows i j

/-- A listener gets a payload. -/
theorem NetworkInv.deliver (hInv : NetworkInv parties s) {i j : ι} {payload : List UInt8}
    {impl : CustomNodeInfo} (hNext : s.dps.next i j = some payload)
    (hDiscovery : onDiscovery (s.listeners j) (parties.uuid i) payload = .ok impl) :
    NetworkInv parties { s.setListener j impl with dps := s.dps.deliver i j } := by
  -- The map of the listener changes under the uuid of the sender only.
  have hEntries : ∀ uuid : StdString, impl.discoveredNodes[uuid]? =
      if uuid = parties.uuid i then entryOf payload
      else (s.listeners j).discoveredNodes[uuid]? := by
    intro uuid
    unfold entryOf
    cases hDecode : decodePayload payload with
    | error fault =>
        rw [onDiscovery, hDecode] at hDiscovery
        cases hDiscovery
    | ok announced =>
        rw [onDiscovery_discoveredNodes hDecode hDiscovery, DiscoveredNodes.getElem?_update]
        rfl
  constructor
  · exact hInv.current.step (.deliver (Registers.inFlight_ne_nil hNext))
  · exact hInv.plain
  · exact hInv.tells
  · exact hInv.running
  · intro i' j'
    rw [Registers.view_deliver hNext]
    by_cases hListener : j' = j
    · subst hListener
      simp only [Network.entry, Network.setListener, Function.update_self, hEntries,
        parties.uuid_injective.eq_iff, and_true]
      split_ifs
      · rfl
      · exact hInv.knows i' j'
    · simpa [Network.entry, Network.setListener, hListener] using hInv.knows i' j'
  · intro j' uuid hStranger
    by_cases hListener : j' = j
    · subst hListener
      simp only [Network.setListener, Function.update_self, hEntries, if_neg (hStranger i)]
      exact hInv.strangers j' uuid hStranger
    · simpa [Network.setListener, hListener] using hInv.strangers j' uuid hStranger

variable [DpsCbor.Lawful]

theorem NetworkInv.step {event : NetworkEvent ι} (hInv : NetworkInv parties s)
    (hPlain : event.Plain s) (hStep : NetworkStep parties s event s') :
    NetworkInv parties s' := by
  cases hStep with
  | @start i impl payload hFresh hStopped hCreate hPayload =>
      have hRun := NodeRun.plainRun_init hCreate
      obtain ⟨hList, ser, hWrite, hPublished⟩ := publishDiscoveryPayload_ok hCreate
      rw [← hList] at hWrite
      obtain rfl := Option.some.inj (hPublished.symm.trans hPayload)
      refine hInv.publish (hRun.tells (parties.name_plain i) (parties.name_sized i)
        (parties.namespace_sized i) hWrite) ?_ ?_ ?_
      · intro j hOther
        simp [Network.publish, Network.setNode, hOther]
      · intro _
        simpa [Network.publish, Network.setNode] using hRun
      · simp
  | @callTaken i event run payload hRunning hNext hTaken hPayload =>
      have hRun := NodeRun.plainRun_next (hInv.plain i hRunning)
        (fun call status hCreate => by subst hCreate; exact hPlain) hNext
      obtain ⟨ser, hWrite, hPublished⟩ := NodeRun.next_taken hTaken hNext
      obtain rfl := Option.some.inj (hPublished.symm.trans hPayload)
      refine hInv.publish (hRun.tells (parties.name_plain i) (parties.name_sized i)
        (parties.namespace_sized i) hWrite) ?_ ?_ ?_
      · intro j hOther
        simp [Network.setNode, hOther]
      · intro _
        simpa [Network.publish, Network.setNode] using hRun
      · simpa [Network.publish, Network.setNode] using hRunning
  | @callSilent i event run hRunning hNext hSilent =>
      have hRun := NodeRun.plainRun_next (hInv.plain i hRunning)
        (fun call status hCreate => by subst hCreate; exact hPlain) hNext
      refine ⟨hInv.current, ?_, hInv.tells, hInv.running, hInv.knows, hInv.strangers⟩
      intro j hMem
      by_cases hSame : j = i
      · subst hSame
        simpa [Network.setNode] using hRun
      · simpa [Network.setNode, hSame] using hInv.plain j hMem
  | @leave i hRunning =>
      refine hInv.publish ⟨none, rfl, rfl⟩ ?_ ?_ ?_
      · intro j hOther
        simp [Network.publish, hOther]
      · simp
      · simp
  | @register i impl hNodes hDomain =>
      refine ⟨hInv.current, hInv.plain, hInv.tells, hInv.running, ?_, ?_⟩
      · intro i' j
        by_cases hSame : j = i
        · subst hSame
          simpa [Network.entry, Network.setListener, hNodes] using hInv.knows i' j
        · simpa [Network.entry, Network.setListener, hSame] using hInv.knows i' j
      · intro j uuid hStranger
        by_cases hSame : j = i
        · subst hSame
          simpa [Network.setListener, hNodes] using hInv.strangers j uuid hStranger
        · simpa [Network.setListener, hSame] using hInv.strangers j uuid hStranger
  | deliver _ hNext hDiscovery => exact hInv.deliver hNext hDiscovery
  | resend hWritten =>
      exact hInv.setDps (hInv.current.step (.resend hWritten)) rfl fun _ _ =>
        Registers.view_resend _ _
  | lose hFollowed =>
      exact hInv.setDps (hInv.current.step (.lose hFollowed)) rfl fun _ _ =>
        Registers.view_lose _ _ _

theorem networkInv_of_reachable
    (hReachable : (networkMachine parties).ReachableIf NetworkEvent.Plain s) :
    NetworkInv parties s :=
  hReachable.invariant (fun _ hInit => networkInv_init hInit)
    fun _ _ _ hInv hPlain hStep => hInv.step hPlain hStep

/-! ## Whatever is on its way -/

/-- A listener has of a node what the node said with the version that has reached it. -/
def Network.Hears (s : Network ι) (parties : Participants ι) (i j : ι) : Prop :=
  match versionOf (s.said i) (s.dps.links i j).seen with
  | some word => Entry.Shows (parties.name i) (parties.namespace_ i) (s.entry parties i j) word
  | none => s.entry parties i j = none

omit [DecidableEq ι] [DpsCbor.Lawful] in
/-- The words of the versions are told by the payloads of the versions. -/
theorem NetworkInv.hears (hInv : NetworkInv parties s) (i j : ι) : s.Hears parties i j := by
  have hKnows := hInv.knows i j
  rw [Registers.view] at hKnows
  unfold Network.Hears
  cases hSeen : (s.dps.links i j).seen with
  | zero =>
      rw [hSeen] at hKnows
      exact hKnows
  | succ version =>
      have hLength := (hInv.tells i).length_eq
      have hWritten : version < (s.dps.history i).length := by
        have hLatest := (hInv.current i j).seen_le
        rw [hSeen] at hLatest
        exact hLatest
      obtain ⟨entry, hDecode, hShows⟩ := (hInv.tells i).get hWritten (hLength ▸ hWritten)
      rw [hSeen, versionOf, List.getElem?_eq_getElem hWritten, Option.bind_some] at hKnows
      rw [versionOf, List.getElem?_eq_getElem (hLength ▸ hWritten)]
      dsimp only
      rw [hKnows, entryOf]
      rw [List.get_eq_getElem] at hDecode
      rw [hDecode]
      exact hShows

omit [DecidableEq ι] [DpsCbor.Lawful] in
/-- Every payload on its way decodes. -/
theorem NetworkInv.onDiscovery_returns (hInv : NetworkInv parties s) {i j : ι}
    {payload : List UInt8} (hNext : s.dps.next i j = some payload) (impl : CustomNodeInfo) :
    ∃ impl', onDiscovery impl (parties.uuid i) payload = .ok impl' := by
  have hMem := Registers.mem_history_of_next hNext
  have hAll : ∀ payload ∈ s.dps.history i, ∃ entry, decodePayload payload = .ok entry := by
    have hTells := hInv.tells i
    generalize s.dps.history i = history at hTells
    generalize s.said i = said at hTells
    induction hTells with
    | nil => simp
    | cons hHead _ ih =>
        obtain ⟨entry, hDecode, -⟩ := hHead
        exact List.forall_mem_cons.mpr ⟨⟨entry, hDecode⟩, ih⟩
  obtain ⟨entry, hDecode⟩ := hAll payload hMem
  exact ⟨impl.announce (parties.uuid i) entry, by rw [onDiscovery, hDecode]; rfl⟩

/-- The versions that listeners have, and what nodes have said, only grow. -/
def Network.NotBefore (s s' : Network ι) : Prop :=
  (∀ i j, (s.dps.links i j).seen ≤ (s'.dps.links i j).seen) ∧ ∀ i, s.said i <+: s'.said i

omit [DpsCbor.Lawful] in
/-- What a step of the network does to DPS is a step of its registers. -/
theorem dps_step {event : NetworkEvent ι} (hStep : NetworkStep parties s event s') :
    s'.dps = s.dps ∨ ∃ action, Replication.Step s.dps action s'.dps := by
  cases hStep with
  | start | callTaken | leave => exact .inr ⟨_, .write _ _ _⟩
  | callSilent | register => exact .inl rfl
  | deliver _ hNext => exact .inr ⟨_, .deliver (Registers.inFlight_ne_nil hNext)⟩
  | resend hWritten => exact .inr ⟨_, .resend hWritten⟩
  | lose hFollowed => exact .inr ⟨_, .lose hFollowed⟩

omit [DpsCbor.Lawful] in
theorem NetworkInv.notBefore_step {event : NetworkEvent ι} (hInv : NetworkInv parties s)
    (hStep : NetworkStep parties s event s') : s.NotBefore s' := by
  constructor
  · intro i j
    obtain hSame | ⟨action, hAction⟩ := dps_step hStep
    · rw [hSame]
    · exact hInv.current.seen_le_step hAction i j
  · intro j
    have hSaid : ∀ (i : ι) (word : Word),
        s.said j <+: Function.update s.said i (s.said i ++ [word]) j := by
      intro i word
      by_cases hSame : j = i
      · subst hSame
        simp
      · simp [hSame]
    cases hStep with
    | start | callTaken | leave => exact hSaid _ _
    | callSilent | register | deliver | resend | lose => exact List.prefix_rfl

/-- In every state a listener has of each node a word that the node has said, and of
nobody else anything; no payload that DPS brings is refused; and later it never has an
older word. -/
theorem listeners_hear (hReachable : (networkMachine parties).ReachableIf NetworkEvent.Plain s) :
    (∀ i j, s.Hears parties i j) ∧
    (∀ j uuid, (∀ i, uuid ≠ parties.uuid i) → (s.listeners j).discoveredNodes[uuid]? = none) ∧
    (∀ i j payload, s.dps.next i j = some payload →
      ∃ impl, onDiscovery (s.listeners j) (parties.uuid i) payload = .ok impl) ∧
    ∀ s', (networkMachine parties).StepsIf NetworkEvent.Plain s s' → s.NotBefore s' := by
  have hInv := networkInv_of_reachable hReachable
  refine ⟨hInv.hears, hInv.strangers, fun i j payload hNext => hInv.onDiscovery_returns hNext _,
    fun s' hSteps => ?_⟩
  have hKeeps : ∀ t event t', (NetworkInv parties t ∧ s.NotBefore t) → event.Plain t →
      NetworkStep parties t event t' → NetworkInv parties t' ∧ s.NotBefore t' := by
    rintro t event t' ⟨hInvT, hSeen, hSaid⟩ hPlain hStep
    obtain ⟨hSeen', hSaid'⟩ := hInvT.notBefore_step hStep
    exact ⟨hInvT.step hPlain hStep, fun i j => (hSeen i j).trans (hSeen' i j),
      fun i => (hSaid i).trans (hSaid' i)⟩
  exact (hSteps.preserves hKeeps ⟨hInv, fun _ _ => le_rfl, fun _ => List.prefix_rfl⟩).2

/-! ## Deliveries -/

/-- The event brings a payload to the listener of a running node. -/
def NetworkEvent.IsDelivery : NetworkEvent ι → Prop
  | .deliver _ _ => True
  | _ => False

omit [DpsCbor] [DecidableEq ι] in
theorem NetworkEvent.IsDelivery.smooth {event : NetworkEvent ι} (hDelivery : event.IsDelivery)
    (s : Network ι) : event.Smooth s := by
  cases event with
  | deliver => exact ⟨trivial, trivial⟩
  | start | call | leave | register | resend | lose => cases hDelivery

/-- Deliveries change neither the nodes nor what they have said. -/
structure Network.SameNodes (s s' : Network ι) : Prop where
  running : s'.running = s.running
  nodes : s'.nodes = s.nodes
  said : s'.said = s.said
  history : s'.dps.history = s.dps.history

omit [DpsCbor] [DecidableEq ι] [DpsCbor.Lawful] in
theorem Network.SameNodes.trans {s₁ s₂ s₃ : Network ι} (hSame : s₁.SameNodes s₂)
    (hSame' : s₂.SameNodes s₃) : s₁.SameNodes s₃ where
  running := hSame'.running.trans hSame.running
  nodes := hSame'.nodes.trans hSame.nodes
  said := hSame'.said.trans hSame.said
  history := hSame'.history.trans hSame.history

omit [DpsCbor.Lawful] in
/-- A delivery takes a payload off its way and leaves the nodes as they are. -/
theorem sameNodes_of_delivery {event : NetworkEvent ι} (hDelivery : event.IsDelivery)
    (hStep : NetworkStep parties s event s') :
    s.SameNodes s' ∧ ∃ i, ∃ j ∈ s.running, (s.dps.links i j).inFlight ≠ [] ∧
      s'.dps = s.dps.deliver i j := by
  cases hStep with
  | @deliver i j _ _ hRunning hNext =>
      exact ⟨⟨rfl, rfl, rfl, rfl⟩, i, j, hRunning, Registers.inFlight_ne_nil hNext, rfl⟩
  | start | callTaken | callSilent | leave | register | resend | lose => cases hDelivery

/-- Only finitely many nodes have said something. -/
def Network.FewWriters (s : Network ι) : Prop := {i | s.dps.history i ≠ []}.Finite

omit [DpsCbor.Lawful] in
theorem fewWriters_of_reachable
    (hReachable : (networkMachine parties).ReachableIf NetworkEvent.Plain s) : s.FewWriters := by
  refine hReachable.invariant (fun s hInit => ?_) fun s event s' hWriters _ hStep => ?_
  · obtain ⟨-, hDps, -, -⟩ := hInit
    simp [Network.FewWriters, hDps, Registers.empty]
  · obtain hSame | ⟨action, hAction⟩ := dps_step hStep
    · rwa [Network.FewWriters, hSame]
    · exact Registers.writers_finite_step hWriters hAction

theorem NetworkInv.delivery {t t' : Network ι} {event : NetworkEvent ι}
    (hBefore : NetworkInv parties t ∧ s.SameNodes t) (hDelivery : event.IsDelivery)
    (hStep : NetworkStep parties t event t') : NetworkInv parties t' ∧ s.SameNodes t' :=
  ⟨hBefore.1.step (hDelivery.smooth t).1 hStep,
    hBefore.2.trans (sameNodes_of_delivery hDelivery hStep).1⟩

/-- Deliveries come to an end: with each of them, less is on its way. -/
theorem NetworkInv.deliveries_terminate (hInv : NetworkInv parties s) (hWriters : s.FewWriters) :
    (networkMachine parties).Terminates (fun _ event => event.IsDelivery) s := by
  have hLess : ∀ t event t', (NetworkInv parties t ∧ s.SameNodes t) →
      NetworkEvent.IsDelivery event → NetworkStep parties t event t' →
      (NetworkInv parties t' ∧ s.SameNodes t') ∧
        t'.dps.pending (hWriters.toFinset ×ˢ s.running) <
          t.dps.pending (hWriters.toFinset ×ˢ s.running) := by
    intro t event t' hBefore hDelivery hStep
    obtain ⟨-, i, j, hRunning, hInFlight, hDps⟩ := sameNodes_of_delivery hDelivery hStep
    have hWriter : i ∈ hWriters.toFinset := by
      refine hWriters.mem_toFinset.mpr fun hSilent =>
        hInFlight (hBefore.1.current.inFlight_eq_nil ?_)
      rwa [hBefore.2.history]
    have hReader : j ∈ s.running := hBefore.2.running ▸ hRunning
    rw [hDps]
    exact ⟨NetworkInv.delivery hBefore hDelivery hStep,
      Registers.pending_deliver_lt (Finset.mk_mem_product hWriter hReader) hInFlight⟩
  exact Machine.terminates_of_measure _ hLess ⟨hInv, rfl, rfl, rfl, rfl⟩

omit [DpsCbor.Lawful] in
/-- When no payload can be delivered any more, nothing is on its way to a running node. -/
theorem NetworkInv.settled_of_stuck (hInv : NetworkInv parties s)
    (hStuck : (networkMachine parties).Stuck (fun _ event => event.IsDelivery) s) {j : ι}
    (hRunning : j ∈ s.running) : s.dps.Settled j := by
  intro i
  by_contra hInFlight
  obtain ⟨payload, hNext⟩ := hInv.current.exists_next hInFlight
  obtain ⟨impl, hDiscovery⟩ := hInv.onDiscovery_returns hNext (s.listeners j)
  exact hStuck (.deliver i j) _ trivial (.deliver hRunning hNext hDiscovery)

theorem NetworkInv.deliveries (hInv : NetworkInv parties s)
    (hSteps : (networkMachine parties).StepsIf (fun _ event => event.IsDelivery) s s') :
    NetworkInv parties s' ∧ s.SameNodes s' :=
  hSteps.preserves (fun _ _ _ hBefore hDelivery hStep =>
    NetworkInv.delivery hBefore hDelivery hStep) ⟨hInv, rfl, rfl, rfl, rfl⟩

/-! ## When nothing is on its way -/

omit [DecidableEq ι] [DpsCbor.Lawful] in
/-- Two listeners that nothing is on its way to have the same map. -/
theorem NetworkInv.settled_eq (hInv : NetworkInv parties s) {j k : ι}
    (hSettled : s.dps.Settled j) (hSettled' : s.dps.Settled k) :
    (s.listeners j).discoveredNodes = (s.listeners k).discoveredNodes := by
  apply Std.ExtTreeMap.ext_getElem?
  intro uuid
  by_cases hKnown : ∃ i, uuid = parties.uuid i
  · obtain ⟨i, rfl⟩ := hKnown
    have hEntry := hInv.knows i j
    have hEntry' := hInv.knows i k
    rw [hInv.current.view_of_settled hSettled] at hEntry
    rw [hInv.current.view_of_settled hSettled'] at hEntry'
    exact hEntry.trans hEntry'.symm
  · rw [not_exists] at hKnown
    rw [hInv.strangers j uuid hKnown, hInv.strangers k uuid hKnown]

/-- Whatever the order of the deliveries, they come to an end, they change nothing about
the nodes, and when none is left the listeners of all running nodes have the same map. -/
theorem listeners_converge
    (hReachable : (networkMachine parties).ReachableIf NetworkEvent.Plain s) :
    (networkMachine parties).Terminates (fun _ event => event.IsDelivery) s ∧
    ∀ s', (networkMachine parties).StepsIf (fun _ event => event.IsDelivery) s s' →
      s.SameNodes s' ∧
      ((networkMachine parties).Stuck (fun _ event => event.IsDelivery) s' →
        ∀ j ∈ s.running, s'.dps.Settled j ∧ ∀ k ∈ s.running,
          (s'.listeners j).discoveredNodes = (s'.listeners k).discoveredNodes) := by
  have hInv := networkInv_of_reachable hReachable
  refine ⟨hInv.deliveries_terminate (fewWriters_of_reachable hReachable), fun s' hSteps => ?_⟩
  obtain ⟨hInv', hSame⟩ := hInv.deliveries hSteps
  refine ⟨hSame, fun hStuck j hJ => ?_⟩
  have hSettled : ∀ k ∈ s.running, s'.dps.Settled k := fun k hK =>
    hInv'.settled_of_stuck hStuck (hSame.running ▸ hK)
  exact ⟨hSettled j hJ, fun k hK => hInv'.settled_eq (hSettled j hJ) (hSettled k hK)⟩

/-- The entities in the last word of a node. -/
def Network.lastSaid (s : Network ι) (i : ι) : List Entity :=
  match (s.said i).getLast? with
  | some (.entities entities) => entities
  | _ => []

omit [DecidableEq ι] [DpsCbor.Lawful] in
/-- A settled listener knows the running nodes by their last words, and nobody else. -/
theorem NetworkInv.settled_entry (hInv : NetworkInv parties s) {j : ι}
    (hSettled : s.dps.Settled j) (i : ι) :
    (i ∈ s.running → ∃ node, s.entry parties i j = some node ∧
      node.Describes (parties.name i) (parties.namespace_ i) (s.lastSaid i)) ∧
    (i ∉ s.running → s.entry parties i j = none) := by
  have hHears := hInv.hears i j
  have hLatest : (s.dps.links i j).seen = (s.said i).length :=
    ((hInv.current i j).seen_eq (hSettled i)).trans (hInv.tells i).length_eq
  rw [Network.Hears, hLatest, Replication.versionOf_length] at hHears
  constructor
  · intro hRunning
    obtain ⟨entities, hLast⟩ := (hInv.running i).mp hRunning
    rw [hLast] at hHears
    rw [Network.lastSaid, hLast]
    exact hHears
  · intro hStopped
    cases hLast : (s.said i).getLast? with
    | none =>
        rw [hLast] at hHears
        exact hHears
    | some word =>
        rw [hLast] at hHears
        cases word with
        | gone => exact hHears
        | entities entities => exact absurd ((hInv.running i).mpr ⟨entities, hLast⟩) hStopped

omit [DecidableEq ι] [DpsCbor.Lawful] in
/-- The map of a settled listener has one entry for each running node. -/
theorem NetworkInv.settled_toList (hInv : NetworkInv parties s) {j : ι}
    (hSettled : s.dps.Settled j) :
    (s.listeners j).discoveredNodes.toList.Perm
      (s.running.toList.map fun i => (parties.uuid i, (s.entry parties i j).getD {})) := by
  have hNodup : (s.running.toList.map fun i =>
      (parties.uuid i, (s.entry parties i j).getD {})).Nodup := by
    refine s.running.nodup_toList.map fun i k hSame => ?_
    exact parties.uuid_injective (Prod.mk.inj hSame).1
  rw [List.perm_ext_iff_of_nodup (DiscoveredNodes.nodup_toList _) hNodup]
  rintro ⟨uuid, node⟩
  rw [Std.ExtTreeMap.mem_toList_iff_getElem?_eq_some, List.mem_map]
  constructor
  · intro hEntry
    by_cases hKnown : ∃ i, uuid = parties.uuid i
    · obtain ⟨i, rfl⟩ := hKnown
      have hRunning : i ∈ s.running := by
        by_contra hStopped
        have hNone := (hInv.settled_entry hSettled i).2 hStopped
        rw [Network.entry, hEntry] at hNone
        cases hNone
      refine ⟨i, Finset.mem_toList.mpr hRunning, ?_⟩
      rw [Network.entry, hEntry]
      rfl
    · rw [not_exists] at hKnown
      rw [hInv.strangers j uuid hKnown] at hEntry
      cases hEntry
  · rintro ⟨i, hMem, hSame⟩
    obtain ⟨rfl, rfl⟩ := Prod.mk.inj hSame
    obtain ⟨known, hEntry, -⟩ := (hInv.settled_entry hSettled i).1 (Finset.mem_toList.mp hMem)
    rw [hEntry]
    exact hEntry

omit [DecidableEq ι] [DpsCbor.Lawful] in
/-- A settled listener counts what the running nodes have said last. -/
theorem NetworkInv.settled_count (hInv : NetworkInv parties s) {j : ι}
    (hSettled : s.dps.Settled j) {select : Node → List Topic} {kind : Entity → Option Topic}
    (hSelect : ∀ (node : Node) name namespace_ live, node.Describes name namespace_ live →
      (select node).Perm (live.filterMap kind)) (topicName : StdString) :
    (s.listeners j).discoveredNodes.count select topicName =
      ∑ i ∈ s.running, liveOn kind topicName (s.lastSaid i) := by
  rw [DiscoveredNodes.count, DiscoveredNodes.getDiscoveredNodes, List.map_map,
    ((hInv.settled_toList hSettled).map _).sum_eq, List.map_map, Finset.sum_map_toList]
  refine Finset.sum_congr rfl fun i hRunning => ?_
  obtain ⟨node, hEntry, hDescribes⟩ := (hInv.settled_entry hSettled i).1 hRunning
  simp only [Function.comp_apply, hEntry, Option.getD_some]
  exact countTopic_of_perm (hSelect _ _ _ _ hDescribes) topicName

/-- A settled listener describes each running node by its last word, knows no other node,
and its counters add up the last words. -/
theorem settled_graph (hReachable : (networkMachine parties).ReachableIf NetworkEvent.Plain s)
    {j : ι} (hSettled : s.dps.Settled j) :
    (∀ i, (i ∈ s.running → ∃ node, s.entry parties i j = some node ∧
        node.Describes (parties.name i) (parties.namespace_ i) (s.lastSaid i)) ∧
      (i ∉ s.running → s.entry parties i j = none)) ∧
    ∀ topicName,
      (s.listeners j).rmwCountPublishers topicName =
        ∑ i ∈ s.running, liveOn Entity.publisherTopic topicName (s.lastSaid i) ∧
      (s.listeners j).rmwCountSubscribers topicName =
        ∑ i ∈ s.running, liveOn Entity.subscriberTopic topicName (s.lastSaid i) ∧
      (s.listeners j).discoveredNodes.countServices topicName =
        ∑ i ∈ s.running, liveOn Entity.serviceTopic topicName (s.lastSaid i) := by
  have hInv := networkInv_of_reachable hReachable
  refine ⟨hInv.settled_entry hSettled, fun topicName => ⟨?_, ?_, ?_⟩⟩
  · exact hInv.settled_count hSettled (fun _ _ _ _ hDescribes => hDescribes.publishers) topicName
  · exact hInv.settled_count hSettled (fun _ _ _ _ hDescribes => hDescribes.subscribers) topicName
  · exact hInv.settled_count hSettled (fun _ _ _ _ hDescribes => hDescribes.services) topicName

/-! ## When DPS takes every payload -/

/-- Nothing is left over, and the last word of a running node is its live entities. -/
def Network.UpToDate (s : Network ι) : Prop :=
  ∀ i ∈ s.running, (s.nodes i).leftover = [] ∧
    (s.said i).getLast? = some (.entities (s.nodes i).live)

omit [DpsCbor.Lawful] in
/-- A call whose payload DPS does not refuse publishes, or changes nothing. -/
theorem Creation.NodeRun.next_accepted {run run' : NodeRun} {event : NodeEvent}
    {name namespace_ : StdString} (hListed : run.Listed name namespace_)
    (hAccepted : ∀ call status, event = .create call status → call.FailsEarly ∨ status = .ok)
    (hAccepted' : ∀ entity status, event = .destroy entity status → status = .ok)
    (hNext : run.next event = some run') (hLeftover : run.leftover = []) :
    run'.leftover = [] ∧ (event.Taken run ∨ run' = run) := by
  cases event with
  | create call status =>
      rcases next_create hNext with ⟨-, rfl⟩ | ⟨hLate, -, ⟨hStatus, -, hLeft⟩ | ⟨hStatus, -, -⟩⟩
      · exact ⟨hLeftover, .inr rfl⟩
      · exact ⟨hLeft.trans hLeftover, .inl ⟨hLate, hStatus⟩⟩
      · exact absurd ((hAccepted call status rfl).resolve_left hLate) hStatus
  | destroy entity status =>
      have hLive : entity ∈ run.live := by
        by_contra hGone
        simp [next, hGone] at hNext
      obtain ⟨topics, hPayload, hPerm⟩ := hListed
      have hMem : entity.discoveryName ∈ run.impl.discoveryPayload := by
        rw [hPayload]
        refine List.mem_cons_of_mem _ (List.mem_cons_of_mem _ (hPerm.mem_iff.mpr ?_))
        exact List.mem_map_of_mem (List.mem_append_left _ hLive)
      obtain ⟨-, -, -, hLeft⟩ := next_destroy hMem hNext
      exact ⟨hLeft.trans hLeftover, .inl ⟨hMem, hAccepted' entity status rfl⟩⟩

omit [DpsCbor.Lawful] in
theorem Network.UpToDate.step {event : NetworkEvent ι} (hUpToDate : s.UpToDate)
    (hInv : NetworkInv parties s) (hAccepted : event.Accepted)
    (hStep : NetworkStep parties s event s') : s'.UpToDate := by
  intro j hRunning
  cases hStep with
  | @start i impl payload =>
      by_cases hSame : j = i
      · subst hSame
        simp [Network.start, Network.publish, Network.setNode]
      · have hBefore : j ∈ s.running := by
          simpa [Network.start, hSame] using hRunning
        simpa [Network.start, Network.publish, Network.setNode, hSame] using hUpToDate j hBefore
  | @callTaken i event run payload hMem hNext hTaken =>
      by_cases hSame : j = i
      · subst hSame
        obtain ⟨hLeftover, -⟩ := NodeRun.next_accepted (hInv.plain j hMem).listed
          (fun call status h => by subst h; exact hAccepted)
          (fun entity status h => by subst h; exact hAccepted) hNext (hUpToDate j hMem).1
        simp [Network.publish, Network.setNode, NodeRun.entities, hLeftover]
      · simpa [Network.publish, Network.setNode, hSame] using hUpToDate j hRunning
  | @callSilent i event run hMem hNext hSilent =>
      obtain ⟨-, hTaken | rfl⟩ := NodeRun.next_accepted (hInv.plain i hMem).listed
        (fun call status h => by subst h; exact hAccepted)
        (fun entity status h => by subst h; exact hAccepted) hNext (hUpToDate i hMem).1
      · exact absurd hTaken hSilent
      · simpa [Network.setNode] using hUpToDate j hRunning
  | @leave i hMem =>
      obtain ⟨hOther, hBefore⟩ := Finset.mem_erase.mp hRunning
      simpa [Network.leave, Network.publish, hOther] using hUpToDate j hBefore
  | register | deliver | resend | lose => exact hUpToDate j hRunning

theorem upToDate_of_reachable
    (hReachable : (networkMachine parties).ReachableIf NetworkEvent.Smooth s) :
    NetworkInv parties s ∧ s.UpToDate := by
  have hInit : ∀ s, s.Initial parties → NetworkInv parties s ∧ s.UpToDate := by
    intro s hInitial
    refine ⟨networkInv_init hInitial, fun i hRunning => ?_⟩
    rw [hInitial.1] at hRunning
    simp at hRunning
  refine hReachable.invariant hInit ?_
  rintro s event s' ⟨hInv, hUpToDate⟩ ⟨hPlain, hAccepted⟩ hStep
  exact ⟨hInv.step hPlain hStep, hUpToDate.step hInv hAccepted hStep⟩

omit [DpsCbor] [DpsCbor.Lawful] in
theorem liveOn_pos {kind : Entity → Option Topic} {topicName : StdString} {live : List Entity} :
    0 < liveOn kind topicName live ↔
      ∃ entity ∈ live, ∃ topic, kind entity = some topic ∧ topic.topic = topicName := by
  simp [liveOn, List.countP_pos_iff, Option.any_eq_true]

/-- While DPS takes every payload, a settled listener describes the running nodes as they
are, its counters count their live entities, and a service is available exactly if a
running node has it. -/
theorem settled_live
    (hReachable : (networkMachine parties).ReachableIf NetworkEvent.Smooth s) {j : ι}
    (hSettled : s.dps.Settled j) :
    (∀ i ∈ s.running, ∃ node, s.entry parties i j = some node ∧
      node.Describes (parties.name i) (parties.namespace_ i) (s.nodes i).live) ∧
    (∀ topicName,
      (s.listeners j).rmwCountPublishers topicName =
        ∑ i ∈ s.running, liveOn Entity.publisherTopic topicName (s.nodes i).live ∧
      (s.listeners j).rmwCountSubscribers topicName =
        ∑ i ∈ s.running, liveOn Entity.subscriberTopic topicName (s.nodes i).live) ∧
    ∀ serviceName, StartsWithSeparator serviceName → (0 : UInt8) ∉ serviceName →
      ((s.listeners j).rmwServiceServerIsAvailable serviceName = some true ↔
        ∃ i ∈ s.running, ∃ requestTypeName responseTypeName,
          Entity.service serviceName requestTypeName responseTypeName ∈ (s.nodes i).live) := by
  obtain ⟨hInv, hUpToDate⟩ := upToDate_of_reachable hReachable
  have hLast : ∀ i ∈ s.running, s.lastSaid i = (s.nodes i).live := by
    intro i hRunning
    rw [Network.lastSaid, (hUpToDate i hRunning).2]
  obtain ⟨hEntries, hCounts⟩ :=
    settled_graph (hReachable.mono fun _ _ hSmooth => hSmooth.1) hSettled
  have hSum : ∀ kind topicName, ∑ i ∈ s.running, liveOn kind topicName (s.lastSaid i) =
      ∑ i ∈ s.running, liveOn kind topicName (s.nodes i).live := by
    intro kind topicName
    exact Finset.sum_congr rfl fun i hRunning => by rw [hLast i hRunning]
  refine ⟨fun i hRunning => ?_, fun topicName => ?_, fun serviceName hName hZero => ?_⟩
  · rw [← hLast i hRunning]
    exact (hEntries i).1 hRunning
  · obtain ⟨hPublishers, hSubscribers, -⟩ := hCounts topicName
    exact ⟨hPublishers.trans (hSum _ _), hSubscribers.trans (hSum _ _)⟩
  · rw [rmwServiceServerIsAvailable_eq hName hZero, (hCounts serviceName).2.2, hSum,
      Option.some_inj, decide_eq_true_iff, Finset.sum_pos_iff]
    refine exists_congr fun i => and_congr_right fun hRunning => ?_
    rw [liveOn_pos]
    constructor
    · rintro ⟨entity, hLive, topic, hKind, rfl⟩
      cases entity with
      | service name requestTypeName responseTypeName =>
          obtain rfl := Option.some.inj hKind
          exact ⟨requestTypeName, responseTypeName, hLive⟩
      | publisher | subscription | client => cases hKind
    · rintro ⟨requestTypeName, responseTypeName, hLive⟩
      exact ⟨_, hLive, _, rfl, rfl⟩

end Convergence

/-! ## Two nodes -/

section TwoNodes

local instance networkCbor : DpsCbor := rfcCbor

local instance networkCbor_lawful : DpsCbor.Lawful := rfcCbor_lawful

/-- Two nodes of one name. -/
def twoNodes : Participants Bool where
  name := fun _ => bytesOf "n"
  namespace_ := fun _ => bytesOf "/"
  domainId := fun _ => 0
  uuid := fun i => [if i then 1 else 0]
  uuid_injective := by decide
  name_plain := by decide
  name_sized := fun _ => by
    unfold Sized
    decide
  namespace_sized := fun _ => by
    unfold Sized
    decide

/-- No node has started. -/
def quiet : Network Bool where
  running := ∅
  nodes := fun _ => Creation.freshRun
  listeners := fun _ => CustomNodeInfo.new 0
  dps := Registers.empty
  said := fun _ => []

theorem quiet_initial : quiet.Initial twoNodes := ⟨rfl, rfl, fun _ => rfl, fun _ => rfl⟩

/-- One node creates a publisher, and the other one starts later. -/
theorem one_talks_undelivered :
    ∃ s, (networkMachine twoNodes).StepsIf
        (fun s event => event.Smooth s ∧ event.LeavesListeners) quiet s ∧
      s.running = {true, false} ∧ (s.nodes false).live = [talker] ∧ (s.nodes true).live = [] ∧
      s.listeners = quiet.listeners := by
  have hStart : createNode .ok (bytesOf "n") (bytesOf "/") = .ok (.ok, Creation.freshRun.impl) :=
    Creation.freshRun_init.1
  obtain ⟨-, ser, -, hPublished⟩ := publishDiscoveryPayload_ok hStart
  have hTaken : (NodeEvent.create Creation.talkerCall .ok).Taken Creation.freshRun := by decide
  have hNext : ∃ run, Creation.freshRun.next (.create Creation.talkerCall .ok) = some run ∧
      run.live = [talker] := ⟨_, rfl, rfl⟩
  obtain ⟨run, hNext, hLive⟩ := hNext
  obtain ⟨ser', -, hPublished'⟩ := NodeRun.next_taken hTaken hNext
  -- The node that talks starts, and creates its publisher.
  let started := quiet.start false Creation.freshRun.impl ser.data
  let talks := (started.setNode false run).publish false ser'.data (.entities run.entities)
  have hFalse : NetworkStep twoNodes quiet (.start false) started :=
    .start rfl (by decide) hStart hPublished
  have hTalks : NetworkStep twoNodes started (.call false (.create Creation.talkerCall .ok))
      talks :=
    .callTaken (by simp [started, Network.start]) hNext hTaken hPublished'
  have hPlain : NetworkEvent.Smooth started (.call false (.create Creation.talkerCall .ok)) :=
    ⟨.inr ⟨talker_plain, by simp [started, Network.start, Network.publish, Network.setNode,
      Creation.freshRun]⟩, .inr rfl⟩
  -- The other node starts.
  have hTrue : NetworkStep twoNodes talks (.start true)
      (talks.start true Creation.freshRun.impl ser.data) :=
    .start rfl (by simp [talks, started, Network.start, Network.publish, Network.setNode, quiet])
      hStart hPublished
  let allowed : Network Bool → NetworkEvent Bool → Prop :=
    fun s event => event.Smooth s ∧ event.LeavesListeners
  have hFirst : (networkMachine twoNodes).StepsIf allowed quiet started :=
    .single ⟨.start false, ⟨⟨trivial, trivial⟩, trivial⟩, hFalse⟩
  have hSecond : (networkMachine twoNodes).StepsIf allowed quiet talks :=
    .tail hFirst ⟨_, ⟨hPlain, trivial⟩, hTalks⟩
  exact ⟨talks.start true Creation.freshRun.impl ser.data,
    .tail hSecond ⟨.start true, ⟨⟨trivial, trivial⟩, trivial⟩, hTrue⟩, rfl, hLive, rfl, rfl⟩

/-- All that is on its way is delivered. -/
theorem one_talks :
    ∃ s, (networkMachine twoNodes).ReachableIf NetworkEvent.Smooth s ∧
      s.running = {true, false} ∧ (s.nodes false).live = [talker] ∧ (s.nodes true).live = [] ∧
      ∀ j, s.dps.Settled j := by
  obtain ⟨n, hTalk, hRunning, hTalker, hFresh, -⟩ := one_talks_undelivered
  have hReachable := (Machine.ReachableIf.init quiet_initial).steps
    (hTalk.mono fun _ _ hAllowed => hAllowed.1)
  have hPlain := hReachable.mono fun _ _ hSmooth => hSmooth.1
  have hInv := networkInv_of_reachable hPlain
  obtain ⟨s, hSteps, hStuck⟩ :=
    (hInv.deliveries_terminate (fewWriters_of_reachable hPlain)).exists_stuck
  obtain ⟨hInv', hSame⟩ := hInv.deliveries hSteps
  refine ⟨s, hReachable.steps (hSteps.mono fun t _ hDelivery => hDelivery.smooth t),
    hSame.running.trans hRunning, ?_, ?_, fun j => hInv'.settled_of_stuck hStuck ?_⟩
  · rw [hSame.nodes, hTalker]
  · rw [hSame.nodes, hFresh]
  · rw [hSame.running, hRunning]
    cases j <;> simp

/-- While a payload for the node that started later is on its way, each of the two listeners
has what has reached it, and the payload will be taken. -/
theorem one_talks_heard :
    ∃ s : Network Bool, s.running = {true, false} ∧ (∀ i j, s.Hears twoNodes i j) ∧
      ∃ i payload impl, s.dps.next i true = some payload ∧
        onDiscovery (s.listeners true) (twoNodes.uuid i) payload = .ok impl := by
  obtain ⟨s, hTalk, hRunning, -, -, hListeners⟩ := one_talks_undelivered
  have hReachable := (Machine.ReachableIf.init quiet_initial).steps
    (hTalk.mono fun _ _ hAllowed => hAllowed.1.1)
  obtain ⟨hHears, -, hReturns, -⟩ := listeners_hear hReachable
  have hInv := networkInv_of_reachable hReachable
  refine ⟨s, hRunning, hHears, ?_⟩
  -- If nothing were on its way, the listener would know of the first node.
  have hOnWay : ∃ i, (s.dps.links i true).inFlight ≠ [] := by
    by_contra hNone
    have hSettled : s.dps.Settled true := fun i => not_not.mp fun hSome => hNone ⟨i, hSome⟩
    obtain ⟨node, hEntry, -⟩ := (hInv.settled_entry hSettled false).1 (by simp [hRunning])
    rw [Network.entry, hListeners] at hEntry
    cases hEntry
  obtain ⟨i, hInFlight⟩ := hOnWay
  obtain ⟨payload, hNext⟩ := hInv.current.exists_next hInFlight
  obtain ⟨impl, hImpl⟩ := hReturns i true payload hNext
  exact ⟨i, payload, impl, hNext, hImpl⟩

/-- The two listeners know nothing, and come to know the same. -/
theorem one_talks_converges :
    ∃ s s' : Network Bool, s.running = {true, false} ∧ s.listeners = quiet.listeners ∧
      (networkMachine twoNodes).StepsIf (fun _ event => event.IsDelivery) s s' ∧
      (s'.listeners true).discoveredNodes = (s'.listeners false).discoveredNodes ∧
      ∃ node, s'.entry twoNodes false true = some node := by
  obtain ⟨s, hTalk, hRunning, -, -, hListeners⟩ := one_talks_undelivered
  have hReachable := (Machine.ReachableIf.init quiet_initial).steps
    (hTalk.mono fun _ _ hAllowed => hAllowed.1.1)
  obtain ⟨hTerminates, hAgree⟩ := listeners_converge hReachable
  obtain ⟨s', hSteps, hStuck⟩ := hTerminates.exists_stuck
  obtain ⟨hSame, hAll⟩ := hAgree s' hSteps
  obtain ⟨hSettled, hMaps⟩ := hAll hStuck true (by simp [hRunning])
  have hInv' := ((networkInv_of_reachable hReachable).deliveries hSteps).1
  obtain ⟨node, hEntry, -⟩ := (hInv'.settled_entry hSettled false).1
    (by simp [hSame.running, hRunning])
  exact ⟨s, s', hRunning, hListeners, hSteps, hMaps false (by simp [hRunning]), node, hEntry⟩

/-- The node that started later knows of one publisher. -/
theorem one_talks_counted :
    ∃ s : Network Bool, s.running = {true, false} ∧
      (s.listeners true).rmwCountPublishers (bytesOf "/t") = 1 ∧
      (s.listeners true).rmwServiceServerIsAvailable (bytesOf "/s") ≠ some true := by
  obtain ⟨s, hReachable, hRunning, hTalker, hFresh, hSettled⟩ := one_talks
  obtain ⟨-, hCounts, hServices⟩ := settled_live hReachable (hSettled true)
  refine ⟨s, hRunning, ?_, ?_⟩
  · rw [(hCounts (bytesOf "/t")).1, hRunning, Finset.sum_pair (by decide), hTalker, hFresh]
    decide
  · intro hAvailable
    obtain ⟨i, -, requestTypeName, responseTypeName, hLive⟩ :=
      (hServices (bytesOf "/s") (by decide) (by decide)).mp hAvailable
    cases i with
    | false =>
        rw [hTalker, List.mem_singleton] at hLive
        cases hLive
    | true =>
        rw [hFresh] at hLive
        cases hLive

/-- The node that started later describes both nodes as they spoke last. -/
theorem one_talks_described :
    ∃ s : Network Bool, s.running = {true, false} ∧
      ∃ node, s.entry twoNodes false true = some node ∧
        node.Describes (bytesOf "n") (bytesOf "/") (s.lastSaid false) := by
  obtain ⟨s, hReachable, hRunning, -, -, hSettled⟩ := one_talks
  have hGraph := settled_graph (hReachable.mono fun _ _ hSmooth => hSmooth.1) (hSettled true)
  exact ⟨s, hRunning, (hGraph.1 false).1 (by simp [hRunning])⟩

end TwoNodes

end Discovery
end RmwDps
