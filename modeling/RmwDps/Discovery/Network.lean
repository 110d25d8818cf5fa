import RmwDps.Discovery.TypedGraph
import RmwDps.Foundation.Replication

/-!
# A network of nodes

Any number of nodes that come and go, create and destroy entities, and hear of each
other through DPS.  DPS carries the payload that a node has published last to every
listener, that of the node itself included; it keeps the payloads of a node in their
order, may bring the last one again, and may drop one that another one follows.  When a
node leaves, the empty payload is the last of it.

What a node has said is a word: the entities it published, or that it is gone.  The words
are what the registers of the network are about; the payloads are how they are written
down.
-/

namespace RmwDps
namespace Discovery

open Serialization
open Creation (NodeRun NodeEvent CreateCall)
open Replication (Registers)
open Transition (Machine)

/-- The nodes of all times, each with what it was created with and the uuid of its
discovery publication. -/
structure Participants (ι : Type) where
  name : ι → StdString
  namespace_ : ι → StdString
  domainId : ι → Nat
  uuid : ι → StdString
  uuid_injective : Function.Injective uuid
  name_plain : ∀ i, (0x3D : UInt8) ∉ name i
  name_sized : ∀ i, Sized (dpsNamePrefix ++ name i)
  namespace_sized : ∀ i, Sized (dpsNamespacePrefix ++ namespace_ i)

/-- What a node says with a payload: which entities it has, or that it leaves. -/
inductive Word
  | entities (entities : List Entity)
  | gone

/-- A network.  `nodes` are the nodes in `running`, `listeners` is what their listeners know.
`said` is a record of the run: the word of each payload. -/
structure Network (ι : Type) where
  running : Finset ι
  nodes : ι → NodeRun
  listeners : ι → CustomNodeInfo
  dps : Registers ι ι (List UInt8)
  said : ι → List Word

inductive NetworkEvent (ι : Type)
  | start (i : ι)
  | call (i : ι) (event : NodeEvent)
  | leave (i : ι)
  /-- Some create or destroy function changes the registries of the node. -/
  | register (i : ι)
  | deliver (i j : ι)
  | resend (i j : ι)
  | lose (i j : ι) (position : Nat)

/-- DPS takes the payload that the call publishes. -/
def Creation.NodeEvent.Taken (s : NodeRun) : NodeEvent → Prop
  | .create call status => ¬ call.FailsEarly ∧ status = .ok
  | .destroy entity status => entity.discoveryName ∈ s.impl.discoveryPayload ∧ status = .ok

instance (s : NodeRun) (event : NodeEvent) : Decidable (event.Taken s) :=
  match event with
  | .create call status => inferInstanceAs (Decidable (¬ call.FailsEarly ∧ status = .ok))
  | .destroy entity status =>
      inferInstanceAs (Decidable (entity.discoveryName ∈ s.impl.discoveryPayload ∧ status = .ok))

section Machine

variable [DpsCbor] {ι : Type} [DecidableEq ι]

namespace Network

def setNode (s : Network ι) (i : ι) (run : NodeRun) : Network ι :=
  { s with nodes := Function.update s.nodes i run }

def setListener (s : Network ι) (i : ι) (impl : CustomNodeInfo) : Network ι :=
  { s with listeners := Function.update s.listeners i impl }

/-- `DPS_DiscoveryPublish`, or the end of the discovery publication. -/
def publish (s : Network ι) (i : ι) (payload : List UInt8) (word : Word) : Network ι :=
  { s with
    dps := s.dps.write i payload
    said := Function.update s.said i (s.said i ++ [word]) }

def start (s : Network ι) (i : ι) (impl : Advertisement) (payload : List UInt8) : Network ι :=
  { (s.setNode i { impl, live := [], leftover := [] }).publish i payload (.entities []) with
    running := insert i s.running }

def leave (s : Network ι) (i : ι) : Network ι :=
  { s.publish i [] .gone with running := s.running.erase i }

end Network

/-- The steps.  A node starts once, under a uuid that is its own.  A call that publishes
nothing, or whose payload DPS refuses, sends nothing. -/
inductive NetworkStep (parties : Participants ι) :
    Network ι → NetworkEvent ι → Network ι → Prop
  | start {s : Network ι} {i : ι} {impl : Advertisement} {payload : List UInt8}
      (hFresh : s.dps.history i = []) (hStopped : i ∉ s.running)
      (hCreate : createNode .ok (parties.name i) (parties.namespace_ i) = .ok (.ok, impl))
      (hPayload : impl.published = some payload) :
      NetworkStep parties s (.start i) (s.start i impl payload)
  | callTaken {s : Network ι} {i : ι} {event : NodeEvent} {run : NodeRun} {payload : List UInt8}
      (hRunning : i ∈ s.running) (hNext : (s.nodes i).next event = some run)
      (hTaken : event.Taken (s.nodes i)) (hPayload : run.impl.published = some payload) :
      NetworkStep parties s (.call i event)
        ((s.setNode i run).publish i payload (.entities run.entities))
  | callSilent {s : Network ι} {i : ι} {event : NodeEvent} {run : NodeRun}
      (hRunning : i ∈ s.running) (hNext : (s.nodes i).next event = some run)
      (hSilent : ¬ event.Taken (s.nodes i)) :
      NetworkStep parties s (.call i event) (s.setNode i run)
  | leave {s : Network ι} {i : ι} (hRunning : i ∈ s.running) :
      NetworkStep parties s (.leave i) (s.leave i)
  | register {s : Network ι} {i : ι} {impl : CustomNodeInfo}
      (hNodes : impl.discoveredNodes = (s.listeners i).discoveredNodes)
      (hDomain : impl.domainId = (s.listeners i).domainId) :
      NetworkStep parties s (.register i) (s.setListener i impl)
  | deliver {s : Network ι} {i j : ι} {payload : List UInt8} {impl : CustomNodeInfo}
      (hRunning : j ∈ s.running) (hNext : s.dps.next i j = some payload)
      (hDiscovery : onDiscovery (s.listeners j) (parties.uuid i) payload = .ok impl) :
      NetworkStep parties s (.deliver i j)
        { s.setListener j impl with dps := s.dps.deliver i j }
  | resend {s : Network ι} {i j : ι} (hWritten : s.dps.history i ≠ []) :
      NetworkStep parties s (.resend i j) { s with dps := s.dps.resend i j }
  | lose {s : Network ι} {i j : ι} {position : Nat}
      (hFollowed : position + 1 < (s.dps.links i j).inFlight.length) :
      NetworkStep parties s (.lose i j position) { s with dps := s.dps.lose i j position }

/-- No node has started. -/
def Network.Initial (parties : Participants ι) (s : Network ι) : Prop :=
  s.running = ∅ ∧ s.dps = Registers.empty ∧ (∀ i, s.said i = []) ∧
    ∀ j, s.listeners j = CustomNodeInfo.new (parties.domainId j)

def networkMachine (parties : Participants ι) : Machine (Network ι) (NetworkEvent ι) where
  init := Network.Initial parties
  step := NetworkStep parties

/-- A create function that gets as far as its publish has plain names for its entity, and
the payload has room for one more string. -/
def NetworkEvent.Plain (s : Network ι) : NetworkEvent ι → Prop
  | .call i (.create creation _) =>
      creation.FailsEarly ∨
        (creation.entity.Plain ∧ (s.nodes i).impl.discoveryPayload.length + 1 < 2 ^ 64)
  | _ => True

/-- The step leaves the listeners alone. -/
def NetworkEvent.LeavesListeners : NetworkEvent ι → Prop
  | .register _ | .deliver _ _ => False
  | .start _ | .call _ _ | .leave _ | .resend _ _ | .lose _ _ _ => True

theorem NetworkStep.listeners_eq {parties : Participants ι} {s s' : Network ι}
    {event : NetworkEvent ι} (hStep : NetworkStep parties s event s')
    (hLeaves : event.LeavesListeners) : s'.listeners = s.listeners := by
  cases hStep with
  | register | deliver => exact hLeaves.elim
  | start | callTaken | callSilent | leave | resend | lose => rfl

/-- DPS takes every payload. -/
def NetworkEvent.Accepted : NetworkEvent ι → Prop
  | .call _ (.create creation status) => creation.FailsEarly ∨ status = .ok
  | .call _ (.destroy _ status) => status = .ok
  | _ => True

/-- The runs in which entities have plain names and DPS takes every payload. -/
def NetworkEvent.Smooth (s : Network ι) (event : NetworkEvent ι) : Prop :=
  event.Plain s ∧ event.Accepted

end Machine

/-! ## What is said -/

/-- What an entry of `discovered_nodes_` has of a word. -/
def Entry.Shows (name namespace_ : StdString) (entry : Option Node) : Word → Prop
  | .entities entities => ∃ node, entry = some node ∧ node.Describes name namespace_ entities
  | .gone => entry = none

/-- The payload decodes to what the word tells. -/
def Tells [DpsCbor] (name namespace_ : StdString) (payload : List UInt8) (word : Word) : Prop :=
  ∃ entry, decodePayload payload = .ok entry ∧ Entry.Shows name namespace_ entry word

/-- The entities of a node are plain, its payload lists them, and the payload has a size. -/
structure Creation.NodeRun.PlainRun (s : NodeRun) (name namespace_ : StdString) : Prop where
  plain : ∀ entity ∈ s.entities, entity.Plain
  listed : s.Listed name namespace_
  room : s.entities.length + 2 < 2 ^ 64

section Node

variable [DpsCbor] {name namespace_ : StdString} {s s' : NodeRun} {impl : Advertisement}

theorem Creation.NodeRun.plainRun_init
    (hCreate : createNode .ok name namespace_ = .ok (.ok, impl)) :
    NodeRun.PlainRun { impl, live := [], leftover := [] } name namespace_ where
  plain := by simp [entities]
  listed := listed_init ⟨hCreate, rfl, rfl⟩
  room := by simp [entities]

/-- One call keeps the entities plain and listed, as long as what it creates is plain. -/
theorem Creation.NodeRun.plainRun_next {event : NodeEvent} (hRun : s.PlainRun name namespace_)
    (hPlain : ∀ call status, event = .create call status → call.FailsEarly ∨
      (call.entity.Plain ∧ s.impl.discoveryPayload.length + 1 < 2 ^ 64))
    (hNext : s.next event = some s') : s'.PlainRun name namespace_ := by
  have hListed := listed_next hRun.listed hNext
  have hOld := hRun.plain
  have hRoom := hRun.room
  cases event with
  | create call status =>
      obtain hSame | ⟨hLate, hAdded⟩ := entities_create hNext
      · exact ⟨by rwa [hSame], hListed, by rwa [hSame]⟩
      · obtain ⟨hEntity, hSpace⟩ := (hPlain call status rfl).resolve_left hLate
        rw [hRun.listed.length_eq] at hSpace
        refine ⟨?_, hListed, ?_⟩
        · intro entity hMem
          obtain rfl | hBefore := List.mem_cons.mp (hAdded.mem_iff.mp hMem)
          · exact hEntity
          · exact hOld entity hBefore
        · rw [hAdded.length_eq, List.length_cons]
          omega
  | destroy entity status =>
      have hFewer := entities_destroy hNext
      refine ⟨fun other hOther => hOld other (hFewer.subset hOther), hListed, ?_⟩
      have hLength := hFewer.length_le
      omega

/-- A payload that DPS takes is the written list of the strings of the node. -/
theorem Creation.NodeRun.next_taken {event : NodeEvent} (hTaken : event.Taken s)
    (hNext : s.next event = some s') :
    ∃ ser, writeWithRetry (stringOps.putVector s'.impl.discoveryPayload) TxStream.new = .ok ser ∧
      s'.impl.published = some ser.data := by
  cases event with
  | create call status =>
      obtain ⟨hLate, rfl⟩ := hTaken
      have hPass : firstFailure call.points = none := by
        rw [CreateCall.failsEarly_iff] at hLate
        exact Option.eq_none_iff_forall_ne_some.mpr fun message hSome => hLate ⟨message, hSome⟩
      have hRun : ∀ ret impl', call.run .ok s.impl = .ok (ret, impl') →
          ∃ ser, writeWithRetry (stringOps.putVector impl'.discoveryPayload) TxStream.new =
            .ok ser ∧ impl'.published = some ser.data := by
        intro ret impl' hCall
        rw [CreateCall.run, hPass] at hCall
        obtain ⟨hPayload, hPublished⟩ := publishDiscoveryPayload_ok hCall
        rwa [hPayload]
      simp only [next] at hNext
      split at hNext
      · next hCall =>
          obtain rfl := Option.some.inj hNext
          exact hRun _ _ hCall
      · next hCall =>
          obtain rfl := Option.some.inj hNext
          exact hRun _ _ hCall
      · cases hNext
  | destroy entity status =>
      obtain ⟨hListed, rfl⟩ := hTaken
      simp only [next] at hNext
      split_ifs at hNext
      split at hNext
      · next impl' hDestroy =>
          obtain rfl := Option.some.inj hNext
          rw [Entity.destroy, removeDiscoveryTopic, if_pos hListed] at hDestroy
          cases hResult : publishDiscoveryPayload .ok
              { s.impl with
                discoveryPayload := s.impl.discoveryPayload.erase entity.discoveryName } with
          | error fault => simp [hResult, bind, Except.bind] at hDestroy
          | ok result =>
              simp only [hResult, bind, Except.bind, pure, Except.pure, Except.ok.injEq,
                Prod.mk.injEq] at hDestroy
              obtain ⟨hPayload, hPublished⟩ := publishDiscoveryPayload_ok hResult
              rw [← hDestroy.2, hPayload]
              exact hPublished
      · cases hNext

variable [DpsCbor.Lawful]

/-- A written list of the strings of a node says what its entities are. -/
theorem Creation.NodeRun.PlainRun.tells (hRun : s.PlainRun name namespace_)
    (hName : (0x3D : UInt8) ∉ name) (hNameSize : Sized (dpsNamePrefix ++ name))
    (hNamespaceSize : Sized (dpsNamespacePrefix ++ namespace_)) {ser : TxStream}
    (hWrite : writeWithRetry (stringOps.putVector s.impl.discoveryPayload) TxStream.new =
      .ok ser) : Tells name namespace_ ser.data (.entities s.entities) := by
  have hLength : s.impl.discoveryPayload.length < 2 ^ 64 := by
    rw [hRun.listed.length_eq]
    exact hRun.room
  obtain ⟨topics, hPayload, hPerm⟩ := hRun.listed
  have hSized : ∀ topic ∈ s.impl.discoveryPayload, Sized topic := by
    intro topic hTopic
    rw [hPayload, List.mem_cons, List.mem_cons] at hTopic
    rcases hTopic with rfl | rfl | hTopic
    · exact hNamespaceSize
    · exact hNameSize
    · obtain ⟨entity, hEntity, rfl⟩ := List.mem_map.mp (hPerm.mem_iff.mp hTopic)
      exact (hRun.plain entity hEntity).sized
  refine ⟨_, decodePayload_published hLength hSized hWrite, _, rfl, ?_⟩
  rw [hPayload]
  exact Node.ofTopics_describes hName hRun.plain hPerm

end Node

end Discovery
end RmwDps
