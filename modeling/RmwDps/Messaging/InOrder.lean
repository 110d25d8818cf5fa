import RmwDps.Messaging.Interchange

/-!
# Messages arrive in order

Every run of the publishers and the subscription is a run of the channel between them,
whatever the messages are; what the publish functions put in and what the take functions
make of it is settled by the codec alone.  Where every value travels, the two together
give each take the message that is next.
-/

namespace RmwDps
namespace Messaging

open Serialization
open Transition (Machine)

/-! ## Events and the channel -/

section Events

variable {ι β : Type}

/-- The payloads between the publish functions and the take functions. -/
def Exchange.channel (s : Exchange ι β) : Fifo.Channel Data where
  inFlight := s.wire.map fun publication => Listener.received publication.1 publication.2
  queue := s.listener.data

theorem sent_transportOf (events : List (ExchangeEvent ι)) :
    Fifo.sent (transportOf events) = (sentIn events).map Sent.data := by
  induction events with
  | nil => rfl
  | cons event events ih =>
      have hTail : Fifo.sent (transportOf events) = (sentIn events).map Sent.data := ih
      cases event <;>
        simpa [transportOf, sentIn, Fifo.sent, ExchangeEvent.transport, ExchangeEvent.sent,
          Fifo.Event.sent] using hTail

theorem sentIn_snoc (events : List (ExchangeEvent ι)) (event : ExchangeEvent ι) :
    sentIn (events ++ [event]) = sentIn events ++ event.sent := by
  simp [sentIn]

theorem mem_sentIn {events : List (ExchangeEvent ι)} {sent : Sent ι} :
    sent ∈ sentIn events ↔ .published sent.p sent.value sent.data ∈ events := by
  unfold sentIn
  rw [List.mem_flatMap]
  constructor
  · rintro ⟨event, hEvent, hSent⟩
    cases event with
    | published p value data =>
        obtain rfl := List.mem_singleton.mp hSent
        exact hEvent
    | _ => cases hSent
  · intro hEvent
    exact ⟨_, hEvent, List.mem_singleton_self _⟩

theorem mem_receiptsIn {events : List (ExchangeEvent ι)} {receipt : Receipt} :
    receipt ∈ receiptsIn events ↔
      .take (some receipt.data) receipt.withInfo (.took receipt.message receipt.gid) ∈ events := by
  unfold receiptsIn
  rw [List.mem_flatMap]
  constructor
  · rintro ⟨event, hEvent, hReceipt⟩
    cases event with
    | take item withInfo report =>
        rcases item with _ | data
        · cases hReceipt
        · rcases report with ⟨message, gid⟩ | _ | _
          · obtain rfl := List.mem_singleton.mp hReceipt
            exact hEvent
          · cases hReceipt
          · cases hReceipt
    | _ => cases hReceipt
  · intro hEvent
    exact ⟨_, hEvent, List.mem_singleton_self _⟩

end Events

/-! ## Runs keep to the channel -/

section Refinement

variable [DpsCbor] [Platform] {ι β : Type} {resize : Resize} {peers : Peers ι}
  {s s' : Exchange ι β}

/-- A publication carries what its message serializes to, and a take reports what its
data comes to. -/
def ExchangeEvent.Faithful (peers : Peers ι) : ExchangeEvent ι → Prop
  | .published p value data => ∃ pub ser, data = Listener.received pub ser.data ∧
      pub.uuid = peers.uuid p ∧
      serializeRosMessage (peers.sentMessage p value) TxStream.new
        (.of (peers.publisher p).package peers.members) = .ok (true, ser)
  | .unpublished | .delivered => True
  | .take item withInfo report => report = .expected peers withInfo item

/-- The events of the run are those of a channel, whose content is the wire and the
queue. -/
structure Exchange.Refines (peers : Peers ι) (s : Exchange ι β) : Prop where
  buffers : ∀ buffer, (s.buffers buffer).WellFormed
  channel : Fifo.Run (transportOf s.events) s.channel
  events : ∀ event ∈ s.events, event.Faithful peers

theorem Exchange.Refines.received (hRefines : s.Refines peers) : Received s.listener.data := by
  intro data hQueued
  have hSent := hRefines.channel.mem_sent_of_queue hQueued
  rw [sent_transportOf] at hSent
  obtain ⟨sent, hMem, rfl⟩ := List.mem_map.mp hSent
  obtain ⟨pub, ser, hData, -⟩ := hRefines.events _ (mem_sentIn.mp hMem)
  exact ⟨pub, ser.data, hData⟩

/-- A step that adds one event, which the channel can follow. -/
theorem Exchange.Refines.snoc (hRefines : s.Refines peers) {event : ExchangeEvent ι}
    (hEvents : s'.events = s.events ++ [event])
    (hBuffers : ∀ buffer, (s'.buffers buffer).WellFormed) (hFaithful : event.Faithful peers)
    (hChannel : Fifo.Run (transportOf s.events ++ event.transport) s'.channel) :
    s'.Refines peers where
  buffers := hBuffers
  channel := by simpa [hEvents, transportOf] using hChannel
  events := by
    rw [hEvents, List.forall_mem_append]
    exact ⟨hRefines.events, by simpa using hFaithful⟩

theorem Exchange.Refines.deliver (hRefines : s.Refines peers) (hWire : s.wire ≠ []) :
    s.deliver.Refines peers := by
  obtain ⟨⟨pub, payload⟩, rest, hWire⟩ := List.exists_cons_of_ne_nil hWire
  simp only [Exchange.deliver, hWire]
  refine hRefines.snoc rfl hRefines.buffers trivial ?_
  have hInFlight : s.channel.inFlight = Listener.received pub payload ::
      rest.map fun publication => Listener.received publication.1 publication.2 := by
    rw [Exchange.channel, hWire]
    rfl
  have hDeliver := hRefines.channel.snoc (Fifo.Step.deliver hInFlight)
  simpa [Exchange.channel, ExchangeEvent.transport, Listener.push] using hDeliver

variable [DecidableEq β]

theorem Exchange.Refines.publish (hResizes : Resizes resize) (hRefines : s.Refines peers) {p : ι}
    {path : Path β} {value : Message .cpp} {status : DpsStatus} {pub : DpsPublication}
    (hUuid : pub.uuid = peers.uuid p) :
    (s.publish resize peers p path value status pub).Refines peers := by
  obtain ⟨hBuffers, hPayload⟩ :=
    @publishOn_spec _ _ ι β _ resize peers p status value _ hResizes hRefines.buffers path
  unfold Exchange.publish
  generalize publishOn resize peers p status value s.buffers path = result at hBuffers hPayload ⊢
  obtain ⟨payload, buffers⟩ := result
  cases payload with
  | none =>
      refine hRefines.snoc rfl hBuffers trivial ?_
      show Fifo.Run (transportOf s.events ++ []) s.channel
      rw [List.append_nil]
      exact hRefines.channel
  | some payload =>
      obtain ⟨ser, hSerialize, hData⟩ := hPayload payload rfl
      have hFaithful : (ExchangeEvent.published p value (Listener.received pub payload)).Faithful
          peers := ⟨pub, ser, by rw [hData], hUuid, hSerialize⟩
      refine hRefines.snoc rfl hBuffers hFaithful ?_
      have hSend := hRefines.channel.snoc (Fifo.Step.send (Listener.received pub payload))
      simpa [Exchange.channel, ExchangeEvent.transport] using hSend

theorem Exchange.Refines.take (hResizes : Resizes resize) (hRefines : s.Refines peers)
    {path : Path β} {withInfo : Bool} : (s.take resize peers path withInfo).Refines peers := by
  -- Both paths meet one specification, so the path does not matter from here on.
  have hSpec : TakeSpec peers withInfo s.listener
      (takeOn resize peers withInfo s.listener s.buffers path) := by
    cases path with
    | typed => exact takeOn_typed hRefines.buffers
    | serialized buffer =>
        exact takeOn_serialized hResizes hRefines.buffers hRefines.received buffer
  unfold Exchange.take
  generalize takeOn resize peers withInfo s.listener s.buffers path = result at hSpec ⊢
  obtain ⟨report, listener, buffers⟩ := result
  obtain ⟨hReport, hListener, hBuffers⟩ := hSpec
  obtain rfl : listener = _ := hListener
  have hFaithful : ExchangeEvent.Faithful peers
      (.take s.listener.data.head? withInfo report : ExchangeEvent ι) := hReport
  refine hRefines.snoc rfl hBuffers hFaithful ?_
  cases hData : s.listener.data with
  | nil =>
      have hNothing := hRefines.channel.snoc (Fifo.Step.takeNothing hData)
      simpa [Exchange.channel, ExchangeEvent.transport, hData] using hNothing
  | cons data rest =>
      have hPop := hRefines.channel.snoc (Fifo.Step.take hData)
      simpa [Exchange.channel, ExchangeEvent.transport, hData] using hPop

theorem Exchange.Refines.step (hResizes : Resizes resize) (hRefines : s.Refines peers)
    {label : ExchangeLabel ι β} (hStep : ExchangeStep resize peers s label s') :
    s'.Refines peers := by
  cases hStep with
  | prepare hWellFormed =>
      exact ⟨wellFormed_update hRefines.buffers hWellFormed, hRefines.channel, hRefines.events⟩
  | publish hUuid => exact hRefines.publish hResizes hUuid
  | deliver hWire => exact hRefines.deliver hWire
  | attach => exact ⟨hRefines.buffers, hRefines.channel, hRefines.events⟩
  | detach => exact ⟨hRefines.buffers, hRefines.channel, hRefines.events⟩
  | take => exact hRefines.take hResizes

/-- In every run the publish and take functions are the two ends of a channel. -/
theorem exchange_refines (hResizes : Resizes resize)
    (hReachable : (exchangeMachine resize peers).Reachable s) : s.Refines peers := by
  refine hReachable.invariant ?_ fun s label s' hInv hStep => hInv.step hResizes hStep
  rintro s ⟨hBuffers, hWire, hListener, hEvents⟩
  refine ⟨hBuffers, ?_, ?_⟩
  · rw [hEvents, Exchange.channel, hWire, hListener]
    exact Fifo.Run.nil
  · rw [hEvents]
    exact fun event hNever => nomatch hNever

end Refinement

/-! ## Where every value travels -/

/-- A take that reports what the channel did. -/
def ExchangeEvent.Settled {ι : Type} : ExchangeEvent ι → Prop
  | .take none _ .nothing | .take (some _) _ (.took _ _) => True
  | .take _ _ _ => False
  | .published _ _ _ | .unpublished | .delivered => True

theorem taken_transportOf {ι : Type} {events : List (ExchangeEvent ι)}
    (hSettled : ∀ event ∈ events, event.Settled) :
    Fifo.taken (transportOf events) = (receiptsIn events).map Receipt.data := by
  induction events with
  | nil => rfl
  | cons event events ih =>
      obtain ⟨hEvent, hEvents⟩ := List.forall_mem_cons.mp hSettled
      have hTail : Fifo.taken (transportOf events) = (receiptsIn events).map Receipt.data :=
        ih hEvents
      cases event with
      | take item withInfo report =>
          cases item <;> cases report <;> first
            | exact hEvent.elim
            | simpa [transportOf, receiptsIn, Fifo.taken, ExchangeEvent.transport,
                ExchangeEvent.receipt, Fifo.Event.taken] using hTail
      | _ =>
          simpa [transportOf, receiptsIn, Fifo.taken, ExchangeEvent.transport,
            ExchangeEvent.receipt, Fifo.Event.taken] using hTail

section Travels

variable [DpsCbor] [Platform] {ι β : Type} {resize : Resize} {peers : Peers ι} {s : Exchange ι β}

/-- Every value that has been published travels. -/
def AllTravel (peers : Peers ι) (events : List (ExchangeEvent ι)) : Prop :=
  ∀ sent ∈ sentIn events, peers.Travels sent.p sent.value

omit [DpsCbor] [Platform] in
theorem gid_of_uuid {pub : DpsPublication} {p : ι} (hUuid : pub.uuid = peers.uuid p) :
    (rmwGetGidForPublisher (some (peers.publisherOf p))).2 =
      some (assignMessageInfo (some pub)) := by
  simp [rmwGetGidForPublisher, Peers.publisherOf, assignMessageInfo, hUuid]

variable [DpsCbor.Lawful]

/-- The data of a message that travels comes to the message and the gid of its
publisher. -/
theorem expected_of_sent {sent : Sent ι} (hTravels : peers.Travels sent.p sent.value)
    (hFaithful : (ExchangeEvent.published sent.p sent.value sent.data).Faithful peers)
    (withInfo : Bool) :
    Report.expected peers withInfo (some sent.data) =
      .took (some (peers.receivedMessage sent.value))
        (if withInfo then (rmwGetGidForPublisher (some (peers.publisherOf sent.p))).2
          else none) := by
  obtain ⟨pub, ser, hData, hUuid, hSerialize⟩ := hFaithful
  rw [hData, Listener.received, hTravels.data_eq hSerialize, gid_of_uuid hUuid]
  simp only [Report.expected, hTravels.deserialize_eq]

theorem Exchange.Refines.report (hRefines : s.Refines peers) (hTravel : AllTravel peers s.events)
    {data : Data} {withInfo : Bool} {report : Report}
    (hTake : .take (some data) withInfo report ∈ s.events) :
    ∃ sent ∈ sentIn s.events, sent.data = data ∧
      report = .took (some (peers.receivedMessage sent.value))
        (if withInfo then (rmwGetGidForPublisher (some (peers.publisherOf sent.p))).2
          else none) := by
  -- What is taken from the channel has been sent into it.
  have hSent : data ∈ Fifo.sent (transportOf s.events) := by
    refine hRefines.channel.taken_prefix.subset ?_
    unfold transportOf Fifo.taken
    simp only [List.mem_flatMap]
    exact ⟨.take (some data), ⟨_, hTake, List.mem_singleton_self _⟩, List.mem_singleton_self _⟩
  rw [sent_transportOf] at hSent
  obtain ⟨sent, hMem, rfl⟩ := List.mem_map.mp hSent
  refine ⟨sent, hMem, rfl, ?_⟩
  have hExpected : report = .expected peers withInfo (some sent.data) := hRefines.events _ hTake
  rw [hExpected]
  exact expected_of_sent (hTravel sent hMem) (hRefines.events _ (mem_sentIn.mp hMem)) withInfo

theorem Exchange.Refines.settled (hRefines : s.Refines peers) (hTravel : AllTravel peers s.events) :
    ∀ event ∈ s.events, event.Settled := by
  intro event hEvent
  cases event with
  | take item withInfo report =>
      cases item with
      | none =>
          obtain rfl : report = .nothing := hRefines.events _ hEvent
          trivial
      | some data =>
          obtain ⟨sent, -, -, rfl⟩ := hRefines.report hTravel hEvent
          trivial
  | _ => trivial

/-- The takes go through the messages in order. -/
theorem Exchange.Refines.kth (hRefines : s.Refines peers) (hTravel : AllTravel peers s.events)
    {k : Nat} {receipt : Receipt} (hReceipt : (receiptsIn s.events)[k]? = some receipt) :
    ∃ sent, (sentIn s.events)[k]? = some sent ∧ receipt.Yields peers sent := by
  -- The receipts are the takes of the channel, since none of them fails.
  have hTaken : (Fifo.taken (transportOf s.events))[k]? = some receipt.data := by
    rw [taken_transportOf (hRefines.settled hTravel), List.getElem?_map, hReceipt]
    rfl
  have hSent := hRefines.channel.sent_of_taken hTaken
  rw [sent_transportOf, List.getElem?_map, Option.map_eq_some_iff] at hSent
  obtain ⟨sent, hSent, hData⟩ := hSent
  refine ⟨sent, hSent, ?_⟩
  have hMem : sent ∈ sentIn s.events := List.mem_of_getElem? hSent
  have hTake := mem_receiptsIn.mp (List.mem_of_getElem? hReceipt)
  have hReport : Report.took receipt.message receipt.gid =
      .expected peers receipt.withInfo (some receipt.data) := hRefines.events _ hTake
  rw [← hData, expected_of_sent (hTravel sent hMem) (hRefines.events _ (mem_sentIn.mp hMem))]
    at hReport
  obtain ⟨hMessage, hGid⟩ := Report.took.inj hReport
  exact ⟨hData.symm, hMessage, hGid⟩

/-- A take finds the queue empty exactly when everything delivered has been taken. -/
theorem Exchange.Refines.nothing (hRefines : s.Refines peers) (hTravel : AllTravel peers s.events)
    {earlier later : List (ExchangeEvent ι)} {item : Option Data} {withInfo : Bool}
    {report : Report} (hEvents : s.events = earlier ++ .take item withInfo report :: later) :
    report = .nothing ↔ deliveriesIn earlier = (receiptsIn earlier).length := by
  have hSettled := hRefines.settled hTravel
  rw [hEvents] at hSettled
  have hTake : (ExchangeEvent.take item withInfo report : ExchangeEvent ι).Settled :=
    hSettled _ (by simp)
  have hEarlier : ∀ event ∈ earlier, event.Settled :=
    fun event hMem => hSettled _ (List.mem_append_left _ hMem)
  have hRun := hRefines.channel
  rw [hEvents, transportOf, List.flatMap_append, List.flatMap_cons] at hRun
  -- Cut the run in front of the take, and count in the channel.
  have hEmpty := hRun.take_eq_none_iff
  have hTaken : (Fifo.taken (transportOf earlier)).length = (receiptsIn earlier).length := by
    rw [taken_transportOf hEarlier, List.length_map]
  rw [← hTaken]
  refine Iff.trans ?_ hEmpty
  rcases item with _ | data <;> rcases report with ⟨message, gid⟩ | _ | _
  all_goals first
    | exact hTake.elim
    | simp

/-- Messages that travel arrive in order. -/
theorem Exchange.Refines.interchangeable (hRefines : s.Refines peers)
    (hTravel : AllTravel peers s.events) : Interchangeable peers s.events where
  payload := by
    intro sent hMem
    obtain ⟨pub, ser, hData, -, hSerialize⟩ := hRefines.events _ (mem_sentIn.mp hMem)
    exact ⟨pub, ser.data, hData, rmwPublish_of_serialized hSerialize⟩
  kth _ _ hReceipt := hRefines.kth hTravel hReceipt
  nothing _ _ _ _ _ hEvents := hRefines.nothing hTravel hEvents
  succeeds item withInfo hTake := by
    have hSettled := hRefines.settled hTravel _ hTake
    cases item <;> exact hSettled

end Travels

/-! ## Every run -/

section Runs

variable [DpsCbor] [Platform] {ι β : Type} [DecidableEq β] {resize : Resize} {peers : Peers ι}
  {s s' : Exchange ι β}

omit [DpsCbor] in
theorem AllTravel.snoc {events : List (ExchangeEvent ι)} {event : ExchangeEvent ι}
    (hTravel : AllTravel peers events)
    (hEvent : ∀ sent ∈ event.sent, peers.Travels sent.p sent.value) :
    AllTravel peers (events ++ [event]) := by
  intro sent hMem
  rw [sentIn_snoc, List.mem_append] at hMem
  exact hMem.elim (hTravel sent) (hEvent sent)

/-- Only a publication adds a message, and it adds its own. -/
theorem AllTravel.step (hTravel : AllTravel peers s.events) {label : ExchangeLabel ι β}
    (hAllowed : label.Travels peers) (hStep : ExchangeStep resize peers s label s') :
    AllTravel peers s'.events := by
  cases hStep with
  | prepare hWellFormed => exact hTravel
  | @publish p path value status pub hUuid =>
      unfold Exchange.publish
      rcases publishOn resize peers p status value s.buffers path with ⟨_ | payload, buffers⟩
      · exact hTravel.snoc fun sent hNever => nomatch hNever
      · refine hTravel.snoc fun sent hMem => ?_
        obtain rfl := List.mem_singleton.mp hMem
        exact hAllowed
  | deliver hWire =>
      obtain ⟨⟨pub, payload⟩, rest, hWire⟩ := List.exists_cons_of_ne_nil hWire
      simp only [Exchange.deliver, hWire]
      exact hTravel.snoc fun sent hNever => nomatch hNever
  | attach => exact hTravel
  | detach => exact hTravel
  | take => exact hTravel.snoc fun sent hNever => nomatch hNever

variable [DpsCbor.Lawful]

/-- **Both paths, in order.**  In every run in which all that is published travels, each
publication has the payload of `rmw_publish`, and the takes on either path yield the
messages one after the other. -/
theorem exchange_interchangeable (hResizes : Resizes resize)
    (hReachable : (exchangeMachine resize peers).ReachableIf
      (fun _ label => label.Travels peers) s) : Interchangeable peers s.events := by
  have hTravel : AllTravel peers s.events := by
    refine hReachable.invariant ?_
      fun s label s' hTravel hAllowed hStep => AllTravel.step hTravel hAllowed hStep
    rintro s ⟨-, -, -, hEvents⟩ sent hMem
    rw [hEvents] at hMem
    cases hMem
  exact (exchange_refines hResizes hReachable.reachable).interchangeable hTravel

end Runs

/-! ## A run that keeps the order, and one that does not -/

/-- Grow to the size that is asked for, and keep what was there. -/
def reallocate : Resize := fun serializedMessage size =>
  (.ok, {
    buffer := (serializedMessage.buffer ++ List.replicate size 0).take size
    bufferLength := min serializedMessage.bufferLength size
    bufferCapacity := size })

theorem reallocate_resizes : Resizes reallocate where
  ret _ _ _ := rfl
  capacity _ _ _ := le_rfl
  wellFormed _ _ _ _ := by simp [reallocate, RmwSerializedMessage.WellFormed]

def endpointOf (package : MembersType) (members : MessageMembers) : Endpoint members where
  package
  typeSupport := {
    handle := fun identifier => if identifier = identifierOf package then some members else none }
  find_typeSupport := by cases package <;> rfl

/-- A publisher of each package, and a subscription of the C++ package. -/
def tonePeers : Peers MembersType where
  members := toneMembers
  memberCount_lt := by decide
  publisher package := endpointOf package toneMembers
  uuid package := Vector.replicate 16 (if package = .c then 1 else 2)
  subscriber := endpointOf .cpp toneMembers

def tonePublication (package : MembersType) : DpsPublication :=
  { uuid := tonePeers.uuid package, sequenceNum := 1, ackSequenceNum := 0 }

/-- One buffer, which is empty. -/
def toneStart : Exchange MembersType Unit where
  buffers _ := { buffer := [], bufferLength := 0, bufferCapacity := 0 }
  wire := []
  listener := .new
  events := []

section Tones

local instance toneCbor : DpsCbor := rfcCbor

local instance toneCbor_lawful : DpsCbor.Lawful := rfcCbor_lawful

/-- A tone with 2 in place of 1. -/
def otherTone : Message .cpp := [.prim .char (.one ⟨2⟩), .prim .char (.many [⟨0⟩, ⟨0x7F⟩])]

theorem tone_travels (platform : Platform) (package : MembersType) {value : Message .cpp}
    (hValue : value = tone ∨ value = otherTone) :
    @Peers.Travels platform _ tonePeers package value := by
  refine ⟨?_, ?_, trivial, .inr ?_⟩
  · obtain rfl | rfl := hValue
    · exact tones_conform.1.fits
    · simp [tonePeers, toneMembers, otherTone, MessageMembers.Fits, Value.Fits, FieldMem.Fits,
        RosType.kind, MessageMember.isFixedArray]
  · obtain rfl | rfl := hValue <;> cases package <;>
      simp [tonePeers, endpointOf, toneMembers, tone, otherTone, MessageMembers.HeldBy,
        MessageMembers.ZeroFree, Value.ZeroFree]
  · obtain rfl | rfl := hValue <;>
      simp [tonePeers, toneMembers, tone, otherTone, MessageMembers.LowChars, Value.LowChars,
        FieldMem.items, PrimType.Low, CChar.Low]

/-- The states that are reached while all that is published travels. -/
def ReachedTravelling [Platform] (s : Exchange MembersType Unit) : Prop :=
  (exchangeMachine reallocate tonePeers).ReachableIf (fun _ label => label.Travels tonePeers) s

/-- A C message is published through a serialized message and a C++ message as it is, where
plain `char` is unsigned.  The first one is taken into the same serialized message, and the
second one as it is. -/
theorem tone_interchangeable :
    let _ := unsignedChar
    let first := toneStart.publish reallocate tonePeers .c (.serialized ()) tone .ok
      (tonePublication .c)
    let second := first.publish reallocate tonePeers .cpp .typed otherTone .ok
      (tonePublication .cpp)
    let s := (second.deliver.deliver.take reallocate tonePeers (.serialized ()) true).take
      reallocate tonePeers .typed false
    (receiptsIn s.events).length = 2 ∧ Interchangeable tonePeers s.events := by
  let _ := unsignedChar
  have hStart : ReachedTravelling toneStart := .init ⟨fun _ => le_rfl, rfl, rfl, rfl⟩
  have hFirst : ReachedTravelling _ :=
    .step hStart (e := .publish .c (.serialized ()) tone .ok (tonePublication .c))
      (tone_travels _ .c (.inl rfl)) (.publish rfl)
  have hSecond : ReachedTravelling _ :=
    .step hFirst (e := .publish .cpp .typed otherTone .ok (tonePublication .cpp))
      (tone_travels _ .cpp (.inr rfl)) (.publish rfl)
  have hArrived : ReachedTravelling _ :=
    .step hSecond (e := .deliver) trivial (.deliver (by decide))
  have hBoth : ReachedTravelling _ :=
    .step hArrived (e := .deliver) trivial (.deliver (by decide))
  have hTaken : ReachedTravelling _ :=
    .step hBoth (e := .take (.serialized ()) true) trivial .take
  have hDone : ReachedTravelling _ := .step hTaken (e := .take .typed false) trivial .take
  exact ⟨rfl, exchange_interchangeable reallocate_resizes hDone⟩

/-- There a message with -1 and one without it are published and delivered, and the
subscription takes twice. -/
def lowToneRun : Exchange MembersType Unit :=
  let _ := unsignedChar
  let first := toneStart.publish reallocate tonePeers .cpp .typed lowTone .ok (tonePublication .cpp)
  let second := first.publish reallocate tonePeers .c .typed tone .ok (tonePublication .c)
  (second.deliver.deliver.take reallocate tonePeers .typed true).take reallocate tonePeers
    .typed true

theorem lowToneRun_reachable :
    (@exchangeMachine _ unsignedChar MembersType Unit _ reallocate tonePeers).Reachable
      lowToneRun := by
  let _ := unsignedChar
  have hStart : (exchangeMachine reallocate tonePeers).Reachable toneStart :=
    .init ⟨fun _ => le_rfl, rfl, rfl, rfl⟩
  have hFirst : (exchangeMachine reallocate tonePeers).Reachable _ := hStart.step
    (e := .publish .cpp .typed lowTone .ok (tonePublication .cpp)) (.publish rfl)
  have hSecond : (exchangeMachine reallocate tonePeers).Reachable _ := hFirst.step
    (e := .publish .c .typed tone .ok (tonePublication .c)) (.publish rfl)
  have hArrived : (exchangeMachine reallocate tonePeers).Reachable _ := hSecond.step
    (e := .deliver) (.deliver (by decide))
  have hBoth : (exchangeMachine reallocate tonePeers).Reachable _ := hArrived.step
    (e := .deliver) (.deliver (by decide))
  have hFailed : (exchangeMachine reallocate tonePeers).Reachable _ := hBoth.step
    (e := .take .typed true) .take
  exact hFailed.step (e := .take .typed true) .take

/-- The first message is popped and cannot be read, so the first take that succeeds
yields the second. -/
theorem lowTone_not_interchangeable :
    let _ := unsignedChar
    ∃ s : Exchange MembersType Unit, (exchangeMachine reallocate tonePeers).Reachable s ∧
      (sentIn s.events).map Sent.value = [lowTone, tone] ∧
      ¬ Interchangeable tonePeers s.events := by
  let _ := unsignedChar
  refine ⟨lowToneRun, lowToneRun_reachable, rfl, fun hInterchangeable => ?_⟩
  have hReceipt : ((receiptsIn lowToneRun.events).map Receipt.data)[0]? =
      some (Listener.received (tonePublication .c) [130, 1, 130, 0, 24, 127]) := by decide
  have hSent : ((sentIn lowToneRun.events).map Sent.data)[0]? =
      some (Listener.received (tonePublication .cpp) [130, 24, 255, 130, 0, 24, 127]) := by decide
  rw [List.getElem?_map, Option.map_eq_some_iff] at hReceipt hSent
  obtain ⟨receipt, hReceipt, hTook⟩ := hReceipt
  obtain ⟨sent, hSent, hGot⟩ := hSent
  obtain ⟨first, hFirst, hYields⟩ := hInterchangeable.kth 0 receipt hReceipt
  obtain rfl := Option.some.inj (hFirst.symm.trans hSent)
  rw [← hYields.data, hTook] at hGot
  exact absurd hGot (by decide)

end Tones

end Messaging
end RmwDps
