import RmwDps.Messaging.SerializedMessages
import RmwDps.Foundation.Fifo
import RmwDps.Foundation.Transition

/-!
# The typed and the serialized paths

Any number of publishers of one message type, one subscription, and DPS between them,
which delivers in order.  Each message is published on one of the two paths, and each
take goes one of the two ways, through buffers that are used again and again.

Between the publish functions and the take functions there is a `Fifo.Channel` of
payloads, whichever paths are used.  So a take on either path gets the payload that the
publisher made on either path, and what is left is that both ends agree on the codec.
-/

namespace RmwDps
namespace Messaging

open Serialization
open Transition (Machine)

/-! ## The parties -/

/-- The type support that an application uses for the messages of one type, in the
package that the create function finds there. -/
structure Endpoint (members : MessageMembers) where
  package : MembersType
  typeSupport : RosidlMessageTypeSupport
  find_typeSupport : typeSupport.find = some (.of package members)

/-- The publishers of a message type, given by `ι`, and a subscription. -/
structure Peers (ι : Type) where
  members : MessageMembers
  memberCount_lt : members.memberCount < 2 ^ 32
  publisher : ι → Endpoint members
  uuid : ι → DpsUuid
  subscriber : Endpoint members

section Peers

variable {ι : Type} (peers : Peers ι) (p : ι)

/-- The handle of a publisher. -/
def Peers.publisherOf : RmwPublisher where
  implementationIdentifier := intelDpsIdentifier
  data := some {
    publication := peers.uuid p
    typeSupport := .of (peers.publisher p).package peers.members }

/-- The handle of the subscription. -/
def Peers.subscription : RmwSubscription := subscriptionOf peers.subscriber.package peers.members

/-- The value as the application of a publisher holds it. -/
def Peers.sentMessage (value : Message .cpp) : RosMessage :=
  .of (peers.publisher p).package (peers.members.represent value (peers.publisher p).package)

/-- The value as the application of the subscription is to get it. -/
def Peers.receivedMessage (value : Message .cpp) : RosMessage :=
  .of peers.subscriber.package (peers.members.represent value peers.subscriber.package)

end Peers

/-! ## Runs -/

/-- The two ways to publish or to take; `serialized` names the buffer. -/
inductive Path (β : Type)
  | typed
  | serialized (buffer : β)

/-- What a take comes to for the caller: a message, with the gid on request, the report
that nothing was taken, or a failure. -/
inductive Report
  | took (message : Option RosMessage) (gid : Option RmwGid)
  | nothing
  | failed

inductive ExchangeEvent (ι : Type)
  | published (p : ι) (value : Message .cpp) (data : Data)
  | unpublished
  | delivered
  | take (item : Option Data) (withInfo : Bool) (report : Report)

/-- Buffers, given by `β`, publications on their way, and the listener of the
subscription.  `events` is a record of the run; a take is recorded with the data that
was at the front of the queue. -/
structure Exchange (ι β : Type) where
  buffers : β → RmwSerializedMessage
  wire : List (DpsPublication × List UInt8)
  listener : Listener
  events : List (ExchangeEvent ι)

/-- The steps of the application and of DPS. -/
inductive ExchangeLabel (ι β : Type)
  | prepare (buffer : β) (serializedMessage : RmwSerializedMessage)
  | publish (p : ι) (path : Path β) (value : Message .cpp) (status : DpsStatus)
      (pub : DpsPublication)
  | deliver
  | attach (waitSet : Nat)
  | detach
  | take (path : Path β) (withInfo : Bool)

section Step

variable [DpsCbor] [Platform] {ι β : Type} [DecidableEq β]

/-- `rmw_serialize` and, if it succeeds, `rmw_publish_serialized_message`. -/
def publishSerialized (resize : Resize) (publisher : RmwPublisher)
    (typeSupport : RosidlMessageTypeSupport) (status : DpsStatus) (rosMessage : RosMessage)
    (serializedMessage : RmwSerializedMessage) :
    Except Fault (Option (List UInt8) × RmwSerializedMessage) := do
  let (ret, serializedMessage) ← rmwSerialize resize rosMessage typeSupport serializedMessage
  if ret = .ok then
    let (_, payload) ← rmwPublishSerializedMessage (some publisher) status serializedMessage
    return (payload, serializedMessage)
  else
    return (none, serializedMessage)

/-- Publish on a path: the payload that DPS took, if any, and the buffers. -/
def publishOn (resize : Resize) (peers : Peers ι) (p : ι) (status : DpsStatus)
    (value : Message .cpp) (buffers : β → RmwSerializedMessage) :
    Path β → Option (List UInt8) × (β → RmwSerializedMessage)
  | .typed =>
      match rmwPublish (some (peers.publisherOf p)) status (peers.sentMessage p value) with
      | .ok (_, payload) => (payload, buffers)
      | .error _ => (none, buffers)
  | .serialized buffer =>
      match publishSerialized resize (peers.publisherOf p) (peers.publisher p).typeSupport status
          (peers.sentMessage p value) (buffers buffer) with
      | .ok (payload, written) => (payload, Function.update buffers buffer written)
      | .error _ => (none, buffers)

/-- What the result of `rmw_take` or `rmw_take_with_info` comes to. -/
def Report.ofTake : Except Fault (TakeResult RmwGid) → Report
  | .ok result => if result.taken then .took result.message result.info else .nothing
  | .error _ => .failed

/-- The same for the serialized functions, with `rmw_deserialize` after a take. -/
def Report.ofSerializedTake (typeSupport : RosidlMessageTypeSupport)
    (serializedMessage : RmwSerializedMessage) : Except Fault SerializedTakeResult → Report
  | .ok result =>
      if result.taken then
        match rmwDeserialize serializedMessage.bytes typeSupport with
        | .ok (.ok, message) => .took message result.info
        | _ => .failed
      else .nothing
  | .error _ => .failed

/-- Take on a path: the report, the listener and the buffers. -/
def takeOn (resize : Resize) (peers : Peers ι) (withInfo : Bool) (listener : Listener)
    (buffers : β → RmwSerializedMessage) :
    Path β → Report × Listener × (β → RmwSerializedMessage)
  | .typed =>
      let (result, listener) := Api.exec
        (if withInfo then rmwTakeWithInfo (some peers.subscription)
          else rmwTake (some peers.subscription)) listener
      (.ofTake result, listener, buffers)
  | .serialized buffer =>
      let (result, state) := Api.exec
        (if withInfo then rmwTakeSerializedMessageWithInfo resize (some peers.subscription)
          else rmwTakeSerializedMessage resize (some peers.subscription))
        { listener, serializedMessage := buffers buffer }
      (.ofSerializedTake peers.subscriber.typeSupport state.serializedMessage result,
        state.listener, Function.update buffers buffer state.serializedMessage)

/-- Hand the publication to DPS, if there is one. -/
def Exchange.publish (resize : Resize) (peers : Peers ι) (s : Exchange ι β) (p : ι)
    (path : Path β) (value : Message .cpp) (status : DpsStatus) (pub : DpsPublication) :
    Exchange ι β :=
  let (payload, buffers) := publishOn resize peers p status value s.buffers path
  match payload with
  | some payload => { s with
      buffers
      wire := s.wire ++ [(pub, payload)]
      events := s.events ++ [.published p value (Listener.received pub payload)] }
  | none => { s with buffers, events := s.events ++ [.unpublished] }

/-- The publication at the front of the wire arrives. -/
def Exchange.deliver (s : Exchange ι β) : Exchange ι β :=
  match s.wire with
  | [] => s
  | (pub, payload) :: rest => { s with
      wire := rest
      listener := (s.listener.onPublication pub payload).1
      events := s.events ++ [.delivered] }

def Exchange.take (resize : Resize) (peers : Peers ι) (s : Exchange ι β) (path : Path β)
    (withInfo : Bool) : Exchange ι β :=
  let (report, listener, buffers) := takeOn resize peers withInfo s.listener s.buffers path
  { s with
    buffers
    listener
    events := s.events ++ [.take s.listener.data.head? withInfo report] }

/-- The steps.  The application may put another message into a buffer at any time; a wait
set may be attached and detached at any time. -/
inductive ExchangeStep (resize : Resize) (peers : Peers ι) :
    Exchange ι β → ExchangeLabel ι β → Exchange ι β → Prop
  | prepare {s : Exchange ι β} {buffer : β} {serializedMessage : RmwSerializedMessage}
      (hWellFormed : serializedMessage.WellFormed) :
      ExchangeStep resize peers s (.prepare buffer serializedMessage)
        { s with buffers := Function.update s.buffers buffer serializedMessage }
  | publish {s : Exchange ι β} {p : ι} {path : Path β} {value : Message .cpp}
      {status : DpsStatus} {pub : DpsPublication} (hUuid : pub.uuid = peers.uuid p) :
      ExchangeStep resize peers s (.publish p path value status pub)
        (s.publish resize peers p path value status pub)
  | deliver {s : Exchange ι β} (hWire : s.wire ≠ []) :
      ExchangeStep resize peers s .deliver s.deliver
  | attach {s : Exchange ι β} {waitSet : Nat} :
      ExchangeStep resize peers s (.attach waitSet)
        { s with listener := s.listener.attachCondition waitSet }
  | detach {s : Exchange ι β} :
      ExchangeStep resize peers s .detach { s with listener := s.listener.detachCondition }
  | take {s : Exchange ι β} {path : Path β} {withInfo : Bool} :
      ExchangeStep resize peers s (.take path withInfo) (s.take resize peers path withInfo)

/-- Runs from any buffers and a new listener. -/
def exchangeMachine (resize : Resize) (peers : Peers ι) :
    Machine (Exchange ι β) (ExchangeLabel ι β) where
  init s := (∀ buffer, (s.buffers buffer).WellFormed) ∧ s.wire = [] ∧
    s.listener = Listener.new ∧ s.events = []
  step := ExchangeStep resize peers

end Step

/-! ## What is to hold -/

/-- A message that has been published: by whom, its value, and what DPS got. -/
structure Sent (ι : Type) where
  p : ι
  value : Message .cpp
  data : Data

/-- A message that has been taken: the data it was in, and what the caller got. -/
structure Receipt where
  data : Data
  withInfo : Bool
  message : Option RosMessage
  gid : Option RmwGid

section Events

variable {ι : Type}

def ExchangeEvent.sent : ExchangeEvent ι → List (Sent ι)
  | .published p value data => [{ p, value, data }]
  | .unpublished | .delivered | .take _ _ _ => []

def ExchangeEvent.receipt : ExchangeEvent ι → List Receipt
  | .take (some data) withInfo (.took message gid) => [{ data, withInfo, message, gid }]
  | _ => []

/-- The messages published, in order. -/
def sentIn (events : List (ExchangeEvent ι)) : List (Sent ι) := events.flatMap ExchangeEvent.sent

/-- The successful takes, in order. -/
def receiptsIn (events : List (ExchangeEvent ι)) : List Receipt :=
  events.flatMap ExchangeEvent.receipt

/-- What happens to the channel of payloads. -/
def ExchangeEvent.transport : ExchangeEvent ι → List (Fifo.Event Data)
  | .published _ _ data => [.send data]
  | .unpublished => []
  | .delivered => [.deliver]
  | .take item _ _ => [.take item]

def transportOf (events : List (ExchangeEvent ι)) : List (Fifo.Event Data) :=
  events.flatMap ExchangeEvent.transport

/-- The number of messages delivered. -/
def deliveriesIn (events : List (ExchangeEvent ι)) : Nat := Fifo.delivered (transportOf events)

end Events

section Statement

variable [DpsCbor] [Platform] {ι : Type} (peers : Peers ι)

/-- The receipt holds the value of the message, and the gid of its publisher. -/
structure Receipt.Yields (receipt : Receipt) (sent : Sent ι) : Prop where
  data : receipt.data = sent.data
  message : receipt.message = some (peers.receivedMessage sent.value)
  gid : receipt.gid =
    if receipt.withInfo then (rmwGetGidForPublisher (some (peers.publisherOf sent.p))).2 else none

/-- The payload of every message is that of `rmw_publish`, the successful takes yield the
messages one after the other, a take reports that it took nothing exactly when every
message delivered has been taken, and none fails. -/
structure Interchangeable (events : List (ExchangeEvent ι)) : Prop where
  payload : ∀ sent ∈ sentIn events, ∃ pub payload, sent.data = Listener.received pub payload ∧
    rmwPublish (some (peers.publisherOf sent.p)) .ok (peers.sentMessage sent.p sent.value) =
      .ok (.ok, some payload)
  kth : ∀ (k : Nat) (receipt : Receipt), (receiptsIn events)[k]? = some receipt →
    ∃ sent, (sentIn events)[k]? = some sent ∧ receipt.Yields peers sent
  nothing : ∀ earlier item withInfo report later,
    events = earlier ++ .take item withInfo report :: later →
      (report = .nothing ↔ deliveriesIn earlier = (receiptsIn earlier).length)
  succeeds : ∀ item withInfo, .take item withInfo .failed ∉ events

/-- A value that both ends can hold, and that the codec carries on this platform. -/
structure Peers.Travels (p : ι) (value : Message .cpp) : Prop where
  fits : peers.members.Fits value
  sender : peers.members.HeldBy value (peers.publisher p).package
  receiver : peers.members.HeldBy value peers.subscriber.package
  chars : Platform.charIsSigned = true ∨ peers.members.LowChars value

/-- Every message that is published travels. -/
def ExchangeLabel.Travels {β : Type} : ExchangeLabel ι β → Prop
  | .publish p _ value _ _ => peers.Travels p value
  | .prepare _ _ | .deliver | .attach _ | .detach | .take _ _ => True

end Statement

/-! ## The codec -/

section Codec

variable [DpsCbor] [Platform] {ι : Type} {peers : Peers ι} {p : ι} {value : Message .cpp}

variable [DpsCbor.Lawful]

/-- What is written of a value that travels is its payload. -/
theorem Peers.Travels.data_eq (hTravels : peers.Travels p value) {ser : TxStream}
    (hSerialize : serializeRosMessage (peers.sentMessage p value) TxStream.new
      (.of (peers.publisher p).package peers.members) = .ok (true, ser)) :
    ser.data = peers.members.payload value := by
  have hFits := MessageMembers.fits_represent hTravels.fits hTravels.sender
  have hPass := serializePass_writes_of_fits peers.memberCount_lt hFits
  rw [Peers.sentMessage, serializeRosMessage_of] at hSerialize
  rw [TypeSupport.data_of_returns hPass hSerialize, MessageMembers.payload_represent]

/-- What is read of its payload is the value. -/
theorem Peers.Travels.deserialize_eq (hTravels : peers.Travels p value) :
    deserializeRosMessage (RxStream.ofBytes (peers.members.payload value))
      (.of peers.subscriber.package peers.members) =
        .ok (some (peers.receivedMessage value)) := by
  rename_i platform _
  have hFits := MessageMembers.fits_represent hTravels.fits hTravels.receiver
  have hReads := @TypeSupport.deserializeROSmessage_reads _ _ signedChar _ rfl _ _
    peers.memberCount_lt hFits
  rw [TypeSupport.deserializeROSmessage_platform signedChar platform,
    @MessageMembers.payload_represent signedChar,
    ← MessageMembers.payload_signed platform hTravels.chars] at hReads
  obtain ⟨deser, hRun, -⟩ :=
    hReads (RxStream.ofBytes (peers.members.payload value)) [] (List.append_nil _).symm
  rw [deserializeRosMessage_of, hRun]
  rfl

end Codec

/-! ## Both publish paths -/

section Handover

variable {ι : Type} {peers : Peers ι} {p : ι} {status : DpsStatus}

theorem published_of_snd {payload bytes : List UInt8}
    (hTaken : (published status payload).2 = some bytes) :
    status = .ok ∧ payload = bytes := by
  unfold published at hTaken
  split_ifs at hTaken with hStatus
  exact ⟨hStatus, Option.some.inj hTaken⟩

theorem rmwPublishSerializedMessage_eq {serializedMessage : RmwSerializedMessage}
    (hLength : serializedMessage.bufferLength ≤ serializedMessage.buffer.length) :
    rmwPublishSerializedMessage (some (peers.publisherOf p)) status serializedMessage =
      .ok (published status serializedMessage.bytes) := by
  unfold rmwPublishSerializedMessage Peers.publisherOf
  simp only [ne_eq, not_true_eq_false, if_false, if_pos hLength]
  rfl

end Handover

section Publish

variable [DpsCbor] [Platform] {ι β : Type} [DecidableEq β] {resize : Resize} {peers : Peers ι}
  {p : ι} {status : DpsStatus} {value : Message .cpp} {buffers : β → RmwSerializedMessage}

theorem rmwPublish_publisherOf (rosMessage : RosMessage) :
    rmwPublish (some (peers.publisherOf p)) status rosMessage =
      (serializeRosMessage rosMessage TxStream.new
        (.of (peers.publisher p).package peers.members)).map fun written =>
          if written.1 then published status written.2.data
          else (.error "cannot serialize data", none) := by
  unfold rmwPublish Peers.publisherOf
  simp only [ne_eq, not_true_eq_false, if_false]
  cases serializeRosMessage rosMessage TxStream.new
      (.of (peers.publisher p).package peers.members) with
  | error fault => rfl
  | ok written =>
      obtain ⟨ok, ser⟩ := written
      cases ok <;> rfl

/-- `rmw_publish` hands over the payload of a serialization that succeeds. -/
theorem rmwPublish_of_serialized {rosMessage : RosMessage} {ser : TxStream}
    (hSerialize : serializeRosMessage rosMessage TxStream.new
      (.of (peers.publisher p).package peers.members) = .ok (true, ser)) :
    rmwPublish (some (peers.publisherOf p)) .ok rosMessage = .ok (.ok, some ser.data) := by
  rw [rmwPublish_publisherOf, hSerialize]
  rfl

/-- DPS gets a payload only from a serialization that succeeds. -/
theorem serialized_of_rmwPublish {rosMessage : RosMessage} {result : RmwRet × Option (List UInt8)}
    {bytes : List UInt8}
    (hPublish : rmwPublish (some (peers.publisherOf p)) status rosMessage = .ok result)
    (hTaken : result.2 = some bytes) :
    ∃ ser, serializeRosMessage rosMessage TxStream.new
      (.of (peers.publisher p).package peers.members) = .ok (true, ser) ∧ ser.data = bytes := by
  rw [rmwPublish_publisherOf] at hPublish
  cases hSerialize : serializeRosMessage rosMessage TxStream.new
      (.of (peers.publisher p).package peers.members) with
  | error fault =>
      rw [hSerialize] at hPublish
      cases hPublish
  | ok written =>
      obtain ⟨ok, ser⟩ := written
      rw [hSerialize] at hPublish
      obtain rfl := Except.ok.inj hPublish
      cases ok with
      | false => cases hTaken
      | true => exact ⟨ser, rfl, (published_of_snd hTaken).2⟩

/-- So does the serialized path, and it leaves the buffer well formed. -/
theorem publishSerialized_spec (hResizes : Resizes resize)
    {serializedMessage written : RmwSerializedMessage} (hWellFormed : serializedMessage.WellFormed)
    {rosMessage : RosMessage} {payload : Option (List UInt8)}
    (hPublish : publishSerialized resize (peers.publisherOf p) (peers.publisher p).typeSupport
      status rosMessage serializedMessage = .ok (payload, written)) :
    written.WellFormed ∧ ∀ bytes, payload = some bytes →
      ∃ ser, serializeRosMessage rosMessage TxStream.new
        (.of (peers.publisher p).package peers.members) = .ok (true, ser) ∧ ser.data = bytes := by
  have hFind := (peers.publisher p).find_typeSupport
  cases hSerialize : serializeRosMessage rosMessage TxStream.new
      (.of (peers.publisher p).package peers.members) with
  | error fault =>
      unfold publishSerialized rmwSerialize at hPublish
      rw [hFind] at hPublish
      simp [hSerialize, bind, Except.bind] at hPublish
  | ok result =>
      obtain ⟨ok, ser⟩ := result
      -- Whatever the buffer held, it holds the payload when the second call reads it.
      obtain ⟨filled, hRun, hFilled, hLength, hBytes⟩ :=
        rmwSerialize_eq hResizes hWellFormed hFind hSerialize
      unfold publishSerialized at hPublish
      rw [hRun] at hPublish
      cases ok with
      | false =>
          obtain ⟨rfl, rfl⟩ := Prod.mk.inj (Except.ok.inj hPublish)
          exact ⟨hFilled, fun bytes hNone => nomatch hNone⟩
      | true =>
          simp only [if_true, bind, Except.bind, rmwPublishSerializedMessage_eq hLength] at hPublish
          obtain ⟨rfl, rfl⟩ := Prod.mk.inj (Except.ok.inj hPublish)
          refine ⟨hFilled, fun bytes hTaken => ⟨ser, rfl, ?_⟩⟩
          rw [← hBytes]
          exact (published_of_snd hTaken).2

omit [DpsCbor] [Platform] in
theorem wellFormed_update {buffer : β} {written : RmwSerializedMessage}
    (hBuffers : ∀ buffer, (buffers buffer).WellFormed) (hWritten : written.WellFormed) :
    ∀ other, (Function.update buffers buffer written other).WellFormed := by
  intro other
  by_cases hSame : other = buffer
  · subst hSame
    rwa [Function.update_self]
  · rw [Function.update_of_ne hSame]
    exact hBuffers other

/-- Whatever the path, DPS gets the payload that the message serializes to. -/
theorem publishOn_spec (hResizes : Resizes resize)
    (hBuffers : ∀ buffer, (buffers buffer).WellFormed) (path : Path β) :
    (∀ buffer, ((publishOn resize peers p status value buffers path).2 buffer).WellFormed) ∧
      ∀ bytes, (publishOn resize peers p status value buffers path).1 = some bytes →
        ∃ ser, serializeRosMessage (peers.sentMessage p value) TxStream.new
          (.of (peers.publisher p).package peers.members) = .ok (true, ser) ∧ ser.data = bytes := by
  cases path with
  | typed =>
      -- A call that throws or fails hands nothing over and leaves the buffers alone.
      cases hPublish : rmwPublish (some (peers.publisherOf p)) status
          (peers.sentMessage p value) with
      | error fault =>
          simp only [publishOn, hPublish]
          exact ⟨hBuffers, fun bytes hNone => nomatch hNone⟩
      | ok result =>
          simp only [publishOn, hPublish]
          exact ⟨hBuffers, fun bytes hTaken => serialized_of_rmwPublish hPublish hTaken⟩
  | serialized buffer =>
      cases hPublish : publishSerialized resize (peers.publisherOf p)
          (peers.publisher p).typeSupport status (peers.sentMessage p value) (buffers buffer) with
      | error fault =>
          simp only [publishOn, hPublish]
          exact ⟨hBuffers, fun bytes hNone => nomatch hNone⟩
      | ok result =>
          obtain ⟨hWritten, hPayload⟩ := publishSerialized_spec hResizes (hBuffers buffer) hPublish
          simp only [publishOn, hPublish]
          exact ⟨wellFormed_update hBuffers hWritten, hPayload⟩

end Publish

/-! ## Both take paths -/

/-- What a take is to report, given the data at the front of the queue. -/
def Report.expected [DpsCbor] [Platform] {ι : Type} (peers : Peers ι) (withInfo : Bool) :
    Option Data → Report
  | none => .nothing
  | some (pub, buffer) =>
      match deserializeRosMessage buffer (.of peers.subscriber.package peers.members) with
      | .ok message => .took message (if withInfo then some (assignMessageInfo pub) else none)
      | .error _ => .failed

section Take

variable [DpsCbor] [Platform] {ι β : Type} [DecidableEq β] {resize : Resize} {peers : Peers ι}
  {withInfo : Bool} {listener : Listener} {buffers : β → RmwSerializedMessage}

/-- Every payload in the queue came from `onPublication`. -/
def Received (queue : List Data) : Prop :=
  ∀ data ∈ queue, ∃ pub payload, data = Listener.received pub payload

/-- A take pops the front of the queue and reports what is expected, and the buffers
stay well formed. -/
structure TakeSpec (peers : Peers ι) (withInfo : Bool) (listener : Listener)
    (result : Report × Listener × (β → RmwSerializedMessage)) : Prop where
  report : result.1 = .expected peers withInfo listener.data.head?
  listener : result.2.1 = { listener with data := listener.data.tail }
  buffers : ∀ buffer, (result.2.2 buffer).WellFormed

theorem exec_take_nil (hData : listener.data = []) :
    Api.exec (take peers.subscription withInfo) listener = (.ok .nothing, listener) := by
  unfold take Peers.subscription subscriptionOf
  simp only [ne_eq, not_true_eq_false, if_false]
  rw [Api.exec_bind, Listener.exec_takeNextData_nil hData]
  rfl

theorem takeOn_typed (hBuffers : ∀ buffer, (buffers buffer).WellFormed) :
    TakeSpec peers withInfo listener
      (takeOn resize peers withInfo listener buffers (.typed : Path β)) := by
  have hTake : (if withInfo then rmwTakeWithInfo (some peers.subscription)
      else rmwTake (some peers.subscription)) = take peers.subscription withInfo := by
    cases withInfo <;> rfl
  simp only [takeOn, hTake]
  cases hData : listener.data with
  | nil =>
      rw [exec_take_nil hData]
      refine ⟨by rw [hData]; rfl, ?_, hBuffers⟩
      rw [hData, List.tail_nil, ← hData]
  | cons data rest =>
      obtain ⟨pub, buffer⟩ := data
      rw [@exec_take _ _ _ _ _ peers.subscription _ rfl rfl withInfo _ hData]
      refine ⟨?_, by rw [hData]; rfl, hBuffers⟩
      rw [hData, List.head?_cons, Report.expected]
      show Report.ofTake ((deserializeRosMessage buffer
        (.of peers.subscriber.package peers.members)).map _) = _
      cases deserializeRosMessage buffer (.of peers.subscriber.package peers.members) <;> rfl

theorem rmwDeserialize_eq (bytes : List UInt8) :
    rmwDeserialize bytes peers.subscriber.typeSupport =
      (deserializeRosMessage (RxStream.ofBytes bytes)
        (.of peers.subscriber.package peers.members)).map fun message => (.ok, message) := by
  unfold rmwDeserialize
  rw [peers.subscriber.find_typeSupport]
  dsimp only
  rw [deserializeRosMessage_of]
  cases (Rx.exec (TypeSupport.deserializeROSmessage peers.members)
      (RxStream.ofBytes bytes)).1 <;> rfl

/-- The caller of `rmw_deserialize` gets what `rmw_take` would have given. -/
theorem takeOn_serialized (hResizes : Resizes resize)
    (hBuffers : ∀ buffer, (buffers buffer).WellFormed) (hQueue : Received listener.data)
    (buffer : β) :
    TakeSpec peers withInfo listener
      (takeOn resize peers withInfo listener buffers (.serialized buffer)) := by
  have hTake : (if withInfo then
        rmwTakeSerializedMessageWithInfo resize (some peers.subscription)
      else rmwTakeSerializedMessage resize (some peers.subscription)) =
        takeSerializedMessage resize peers.subscription withInfo := by
    cases withInfo <;> rfl
  simp only [takeOn, hTake]
  cases hData : listener.data with
  | nil =>
      rw [@exec_takeSerializedMessage_nil resize peers.subscription _ _ rfl rfl withInfo hData]
      refine ⟨by rw [hData]; rfl, ?_, wellFormed_update hBuffers (hBuffers buffer)⟩
      rw [hData, List.tail_nil, ← hData]
  | cons data rest =>
      -- The copy is the payload only because the stream in the queue has not been read from.
      obtain ⟨pub, payload, rfl⟩ := hQueue data (hData ▸ List.mem_cons_self)
      obtain ⟨written, hRun, hWritten, hBytes⟩ :=
        @exec_takeSerializedMessage_cons resize peers.subscription _
          { listener, serializedMessage := buffers buffer } _ _ _ hResizes rfl rfl withInfo
          (hBuffers buffer) hData
      rw [hRun]
      refine ⟨?_, by rw [hData]; rfl, wellFormed_update hBuffers hWritten⟩
      rw [hData, List.head?_cons, Listener.received, Report.expected]
      have hPayload : written.bytes = payload := hBytes
      simp only [Report.ofSerializedTake, rmwDeserialize_eq, hPayload, if_true]
      cases deserializeRosMessage (RxStream.ofBytes payload)
        (.of peers.subscriber.package peers.members) <;> rfl

end Take

end Messaging
end RmwDps
