import RmwDps.Messaging.Take
import RmwDps.Serialization.CharSign

/-!
# Serialized messages

The functions that publish a message and those that take one, with the two ways around
them through a serialized message: `rmw_serialize` before `rmw_publish_serialized_message`,
and `rmw_deserialize` after `rmw_take_serialized_message`.

`rmw_serialized_message_resize` is not part of the package.  It is a parameter, and
`Resizes` says that it gives at least the capacity that it is asked for.
-/

namespace RmwDps
namespace Messaging

open Serialization

/-! ## The buffer -/

/-- `rmw_serialized_message_t`.  `buffer` is the memory that the pointer leads to. -/
structure RmwSerializedMessage where
  buffer : List UInt8
  bufferLength : Nat
  bufferCapacity : Nat
  deriving DecidableEq, Repr

namespace RmwSerializedMessage

/-- The memory has the capacity that is noted.  It may have more, since `rmw_serialize`
lowers the capacity to the length. -/
def WellFormed (serializedMessage : RmwSerializedMessage) : Prop :=
  serializedMessage.bufferCapacity ≤ serializedMessage.buffer.length

instance (serializedMessage : RmwSerializedMessage) : Decidable serializedMessage.WellFormed :=
  inferInstanceAs (Decidable (_ ≤ _))

/-- The content: `buffer_length` bytes from `buffer` on. -/
def bytes (serializedMessage : RmwSerializedMessage) : List UInt8 :=
  serializedMessage.buffer.take serializedMessage.bufferLength

/-- `memcpy(serialized_message->buffer, data, size)`. -/
def memcpy (serializedMessage : RmwSerializedMessage) (data : List UInt8) :
    Except Fault RmwSerializedMessage :=
  if data.length ≤ serializedMessage.buffer.length then
    return { serializedMessage with
      buffer := data ++ serializedMessage.buffer.drop data.length }
  else
    throw .undefinedBehavior

end RmwSerializedMessage

/-- `rmw_serialized_message_resize`: its return value, and the message it leaves. -/
abbrev Resize := RmwSerializedMessage → Nat → RmwRet × RmwSerializedMessage

/-- A larger capacity than the present one is always granted. -/
structure Resizes (resize : Resize) : Prop where
  ret : ∀ serializedMessage size, serializedMessage.bufferCapacity < size →
    (resize serializedMessage size).1 = .ok
  capacity : ∀ serializedMessage size, serializedMessage.bufferCapacity < size →
    size ≤ (resize serializedMessage size).2.bufferCapacity
  wellFormed : ∀ serializedMessage size, serializedMessage.WellFormed →
    serializedMessage.bufferCapacity < size → (resize serializedMessage size).2.WellFormed

/-- The test in front of both calls of `rmw_serialized_message_resize`. -/
def RmwSerializedMessage.reserve (resize : Resize) (serializedMessage : RmwSerializedMessage)
    (size : Nat) : RmwRet × RmwSerializedMessage :=
  if serializedMessage.bufferCapacity < size then resize serializedMessage size
  else (.ok, serializedMessage)

section Serialize

variable [DpsCbor] [Platform]

/-- `rmw_serialize`.  It leaves no message of its own where it returns what
`_serialize_ros_message` returned. -/
def rmwSerialize (resize : Resize) (rosMessage : RosMessage)
    (typeSupport : RosidlMessageTypeSupport) (serializedMessage : RmwSerializedMessage) :
    Except Fault (RmwRet × RmwSerializedMessage) :=
  match typeSupport.find with
  | none => return (.error "type support not from this implementation", serializedMessage)
  | some tss => do
      let (ret, ser) ← serializeRosMessage rosMessage TxStream.new tss
      let dataLength := ser.data.length
      match serializedMessage.reserve resize dataLength with
      | (.ok, serializedMessage) =>
          let serializedMessage ← serializedMessage.memcpy ser.data
          let serializedMessage := { serializedMessage with
            bufferLength := dataLength
            bufferCapacity := dataLength }
          return (if ret then .ok else .error "", serializedMessage)
      | (_, serializedMessage) =>
          return (.error "unable to dynamically resize serialized message", serializedMessage)

/-! ## Publishing -/

/-- `CustomPublisherInfo`, the part that the functions below read. -/
structure CustomPublisherInfo where
  publication : DpsUuid
  typeSupport : MessageTypeSupport

/-- `rmw_publisher_t`. -/
structure RmwPublisher where
  implementationIdentifier : String
  data : Option CustomPublisherInfo

/-- The end of both publish functions: the return value, and the payload if DPS took
it.  `status` is what `publish` returns. -/
def published (status : DpsStatus) (payload : List UInt8) : RmwRet × Option (List UInt8) :=
  if status = .ok then (.ok, some payload)
  else (.error "cannot publish data - %s", none)

/-- `rmw_publish`. -/
def rmwPublish (publisher : Option RmwPublisher) (status : DpsStatus) (rosMessage : RosMessage) :
    Except Fault (RmwRet × Option (List UInt8)) :=
  match publisher with
  | none => return (.error "publisher pointer is null", none)
  | some publisher =>
      if publisher.implementationIdentifier ≠ intelDpsIdentifier then
        return (.error "publisher handle not from this implementation", none)
      else
        match publisher.data with
        | none => throw .undefinedBehavior
        | some info => do
            let (ok, ser) ← serializeRosMessage rosMessage TxStream.new info.typeSupport
            if ok then return published status ser.data
            else return (.error "cannot serialize data", none)

/-- `rmw_publish_serialized_message`. -/
def rmwPublishSerializedMessage (publisher : Option RmwPublisher) (status : DpsStatus)
    (serializedMessage : RmwSerializedMessage) : Except Fault (RmwRet × Option (List UInt8)) :=
  match publisher with
  | none => return (.error "publisher pointer is null", none)
  | some publisher =>
      if publisher.implementationIdentifier ≠ intelDpsIdentifier then
        return (.error "publisher handle not from this implementation", none)
      else
        match publisher.data with
        | none => return (.error "publisher info pointer is null", none)
        | some _ =>
            if serializedMessage.bufferLength ≤ serializedMessage.buffer.length then
              return published status serializedMessage.bytes
            else throw .undefinedBehavior

/-- `rmw_get_gid_for_publisher`. -/
def rmwGetGidForPublisher (publisher : Option RmwPublisher) : RmwRet × Option RmwGid :=
  match publisher with
  | none => (.error "publisher is null", none)
  | some publisher =>
      if publisher.implementationIdentifier ≠ intelDpsIdentifier then
        (.error "publisher handle not from this implementation", none)
      else
        match publisher.data with
        | none => (.error "publisher info handle is null", none)
        | some info =>
            (.ok, some {
              implementationIdentifier := intelDpsIdentifier
              data := info.publication.toList ++ List.replicate (rmwGidStorageSize - 16) 0 })

end Serialize

/-! ## Taking -/

/-- What `rmw_take_serialized_message` works on: the listener of the subscription, and
the caller's buffer. -/
structure SerializedTake where
  listener : Listener
  serializedMessage : RmwSerializedMessage

/-- A function on the listener. -/
def SerializedTake.onListener {α : Type} (function : Api Listener α) : Api SerializedTake α :=
  ExceptT.mk fun state =>
    let (result, listener) := Api.exec function state.listener
    (result, { state with listener })

/-- The resize and the copy of `_take_serialized_message`, in its order.  The return
value is that of the resize. -/
def SerializedTake.fill (resize : Resize) (buffer : RxStream) : Api SerializedTake RmwRet := do
  let bufferSize := buffer.getBufferSize
  let (ret, serializedMessage) := (← get).serializedMessage.reserve resize bufferSize
  modify fun state => { state with serializedMessage }
  if ret ≠ .ok then
    return ret
  let serializedMessage ← Api.lift
    ({ serializedMessage with bufferLength := bufferSize }.memcpy buffer.getBuffer)
  modify fun state => { state with serializedMessage }
  return .ok

/-- The results of `rmw_take_serialized_message`. -/
structure SerializedTakeResult where
  ret : RmwRet
  taken : Bool
  info : Option RmwGid

def SerializedTakeResult.failed (ret : RmwRet) : SerializedTakeResult :=
  { ret, taken := false, info := none }

/-- `_take_serialized_message`. -/
def takeSerializedMessage (resize : Resize) (subscription : RmwSubscription) (withInfo : Bool) :
    Api SerializedTake SerializedTakeResult :=
  if subscription.implementationIdentifier ≠ intelDpsIdentifier then
    return .failed (.error "publisher handle not from this implementation")
  else
    match subscription.data with
    | none => return .failed (.error "custom subscriber info is null")
    | some _ => do
        match ← SerializedTake.onListener Listener.takeNextData with
        | none => return .failed .ok
        | some (pub, buffer) =>
            let ret ← SerializedTake.fill resize buffer
            if ret ≠ .ok then
              return .failed ret
            return {
              ret := .ok
              taken := true
              info := if withInfo then some (assignMessageInfo pub) else none }

/-- `rmw_take_serialized_message`. -/
def rmwTakeSerializedMessage (resize : Resize) (subscription : Option RmwSubscription) :
    Api SerializedTake SerializedTakeResult :=
  match subscription with
  | none => return .failed (.error "subscription pointer is null")
  | some subscription => takeSerializedMessage resize subscription false

/-- `rmw_take_serialized_message_with_info`. -/
def rmwTakeSerializedMessageWithInfo (resize : Resize) (subscription : Option RmwSubscription) :
    Api SerializedTake SerializedTakeResult :=
  match subscription with
  | none => return .failed (.error "subscription pointer is null")
  | some subscription => takeSerializedMessage resize subscription true

/-! ## What the functions do with the buffer -/

section Buffer

variable {resize : Resize} {serializedMessage : RmwSerializedMessage}

theorem RmwSerializedMessage.exists_reserve (hResizes : Resizes resize)
    (hWellFormed : serializedMessage.WellFormed) (size : Nat) :
    ∃ reserved, serializedMessage.reserve resize size = (.ok, reserved) ∧ reserved.WellFormed ∧
      size ≤ reserved.bufferCapacity := by
  unfold reserve
  by_cases hSmall : serializedMessage.bufferCapacity < size
  · rw [if_pos hSmall]
    exact ⟨_, Prod.ext (hResizes.ret _ _ hSmall) rfl, hResizes.wellFormed _ _ hWellFormed hSmall,
      hResizes.capacity _ _ hSmall⟩
  · rw [if_neg hSmall]
    exact ⟨_, rfl, hWellFormed, not_lt.mp hSmall⟩

theorem RmwSerializedMessage.memcpy_eq {data : List UInt8}
    (hRoom : data.length ≤ serializedMessage.buffer.length) :
    serializedMessage.memcpy data = .ok { serializedMessage with
      buffer := data ++ serializedMessage.buffer.drop data.length } := by
  unfold memcpy
  rw [if_pos hRoom]
  rfl

variable [DpsCbor] [Platform] {rosMessage : RosMessage} {typeSupport : RosidlMessageTypeSupport}
  {tss : MessageTypeSupport}

/-- Whatever the buffer held, it holds the payload afterwards. -/
theorem rmwSerialize_eq (hResizes : Resizes resize) (hWellFormed : serializedMessage.WellFormed)
    (hFind : typeSupport.find = some tss) {ok : Bool} {ser : TxStream}
    (hSerialize : serializeRosMessage rosMessage TxStream.new tss = .ok (ok, ser)) :
    ∃ written, rmwSerialize resize rosMessage typeSupport serializedMessage =
        .ok (if ok then .ok else .error "", written) ∧
      written.WellFormed ∧ written.bufferLength ≤ written.buffer.length ∧
      written.bytes = ser.data := by
  obtain ⟨reserved, hReserve, hReserved, hCapacity⟩ :=
    RmwSerializedMessage.exists_reserve hResizes hWellFormed ser.data.length
  have hRoom : ser.data.length ≤ reserved.buffer.length := hCapacity.trans hReserved
  refine ⟨{ buffer := ser.data ++ reserved.buffer.drop ser.data.length
            bufferLength := ser.data.length
            bufferCapacity := ser.data.length }, ?_, ?_, ?_, ?_⟩
  · unfold rmwSerialize
    rw [hFind]
    simp only [hSerialize, bind, Except.bind, hReserve, RmwSerializedMessage.memcpy_eq hRoom]
    rfl
  · simp [RmwSerializedMessage.WellFormed]
  · simp
  · simp [RmwSerializedMessage.bytes]

end Buffer

section TakeSpecs

variable {resize : Resize} {subscription : RmwSubscription} {info : CustomSubscriberInfo}
  {state : SerializedTake} {pub : Publication} {buffer : RxStream} {rest : List Data}

theorem SerializedTake.exec_onListener {α : Type} (function : Api Listener α) :
    Api.exec (SerializedTake.onListener function) state =
      ((Api.exec function state.listener).1,
        { state with listener := (Api.exec function state.listener).2 }) := rfl

/-- The copy succeeds, and the buffer holds the data afterwards. -/
theorem SerializedTake.exec_fill (hResizes : Resizes resize)
    (hWellFormed : state.serializedMessage.WellFormed) (buffer : RxStream) :
    ∃ written, Api.exec (SerializedTake.fill resize buffer) state =
        (.ok .ok, { state with serializedMessage := written }) ∧
      written.WellFormed ∧ written.bytes = buffer.getBuffer := by
  obtain ⟨reserved, hReserve, hReserved, hCapacity⟩ :=
    RmwSerializedMessage.exists_reserve hResizes hWellFormed buffer.getBufferSize
  have hRoom : buffer.getBuffer.length ≤ reserved.buffer.length := hCapacity.trans hReserved
  refine ⟨{ reserved with
      buffer := buffer.getBuffer ++ reserved.buffer.drop buffer.getBuffer.length
      bufferLength := buffer.getBufferSize }, ?_, ?_, ?_⟩
  · have hCopy : RmwSerializedMessage.memcpy
        { reserved with bufferLength := buffer.getBufferSize } buffer.getBuffer = .ok _ :=
      RmwSerializedMessage.memcpy_eq hRoom
    unfold fill
    rw [Api.exec_bind, Api.exec_get]
    dsimp only
    simp only [hReserve, Api.exec_bind, Api.exec_modify, ne_eq, not_true_eq_false, if_false,
      hCopy, Api.exec_lift, Api.exec_pure]
  · have hSum : buffer.getBuffer.length + (reserved.buffer.length - buffer.getBuffer.length) =
        reserved.buffer.length := by
      omega
    simpa [RmwSerializedMessage.WellFormed, hSum] using hReserved
  · show (buffer.getBuffer ++ _).take buffer.getBuffer.length = buffer.getBuffer
    exact List.take_left

theorem exec_takeSerializedMessage_nil
    (hIdentifier : subscription.implementationIdentifier = intelDpsIdentifier)
    (hInfo : subscription.data = some info) (withInfo : Bool)
    (hData : state.listener.data = []) :
    Api.exec (takeSerializedMessage resize subscription withInfo) state =
      (.ok (.failed .ok), state) := by
  have hPop : Api.exec (SerializedTake.onListener Listener.takeNextData) state =
      (.ok none, state) := by
    rw [SerializedTake.exec_onListener, Listener.exec_takeNextData_nil hData]
  unfold takeSerializedMessage
  rw [if_neg (not_not.mpr hIdentifier), hInfo]
  dsimp only
  rw [Api.exec_bind, hPop]
  rfl

theorem exec_takeSerializedMessage_cons (hResizes : Resizes resize)
    (hIdentifier : subscription.implementationIdentifier = intelDpsIdentifier)
    (hInfo : subscription.data = some info) (withInfo : Bool)
    (hWellFormed : state.serializedMessage.WellFormed)
    (hData : state.listener.data = (pub, buffer) :: rest) :
    ∃ written, Api.exec (takeSerializedMessage resize subscription withInfo) state =
        (.ok {
            ret := .ok
            taken := true
            info := if withInfo then some (assignMessageInfo pub) else none },
          { listener := { state.listener with data := rest }, serializedMessage := written }) ∧
      written.WellFormed ∧ written.bytes = buffer.getBuffer := by
  -- The data leaves the queue first, as in `_take`.
  have hPop : Api.exec (SerializedTake.onListener Listener.takeNextData) state =
      (.ok (some (pub, buffer)),
        { state with listener := { state.listener with data := rest } }) := by
    rw [SerializedTake.exec_onListener, Listener.exec_takeNextData_cons hData]
  obtain ⟨written, hFill, hWritten, hBytes⟩ := @SerializedTake.exec_fill resize
    { state with listener := { state.listener with data := rest } } hResizes hWellFormed
    buffer
  refine ⟨written, ?_, hWritten, hBytes⟩
  unfold takeSerializedMessage
  rw [if_neg (not_not.mpr hIdentifier), hInfo]
  dsimp only
  rw [Api.exec_bind, hPop]
  dsimp only
  rw [Api.exec_bind, hFill]
  rfl

end TakeSpecs

end Messaging
end RmwDps
