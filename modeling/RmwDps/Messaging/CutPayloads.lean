import RmwDps.Discovery.PeerView
import RmwDps.Messaging.HostilePayloads
import RmwDps.Serialization.Truncation

/-!
# Payloads that are cut short

What the six functions that decode bytes from the network do with a part of a payload that
a peer has sent.  Each of them throws, whatever the place of the cut, with one exception:
of an advertisement nothing at all may be left, and this is how DPS says that a node has
gone.  The data that a take function has taken out of its queue does not come back.
-/

namespace RmwDps
namespace Messaging

open Serialization
open Discovery (CustomNodeInfo decodePayload decodeTopics onDiscovery)

section

variable [DpsCbor] [Platform]

/-- A peer has sent the payload to an entry point: a message of the type that the entry
point decodes, or the strings that it advertises. -/
def EntryPoint.Sent (payload : List UInt8) : EntryPoint → Prop
  | .rmwTake μ members | .rmwTakeWithInfo μ members | .rmwTakeRequest μ members _
  | .rmwTakeResponse μ members _ | .rmwDeserialize μ members =>
      members.memberCount < 2 ^ 32 ∧ ∃ (msg : Message μ) (hint : Nat) (ser : TxStream),
        members.Fits msg ∧ ser.data = payload ∧
          TypeSupport.serializeROSmessage members msg (TxStream.new hint) = .ok (true, ser)
  | .onDiscovery .. => ∃ (topics : List StdString) (ser : TxStream),
      topics.length < 2 ^ 64 ∧ (∀ topic ∈ topics, Sized topic) ∧ ser.data = payload ∧
        writeWithRetry (stringOps.putVector topics) TxStream.new = .ok ser

/-- The function throws on the payload.  What is taken from a queue is taken. -/
def EntryPoint.Throws (payload : List UInt8) (fault : Fault) : EntryPoint → Prop
  | .rmwTake μ members =>
      ∀ listener pub rest, listener.data = Listener.received pub payload :: rest →
        Api.exec (Messaging.rmwTake (some (subscriptionOf μ members))) listener =
          (.error fault, { listener with data := rest })
  | .rmwTakeWithInfo μ members =>
      ∀ listener pub rest, listener.data = Listener.received pub payload :: rest →
        Api.exec (Messaging.rmwTakeWithInfo (some (subscriptionOf μ members))) listener =
          (.error fault, { listener with data := rest })
  | .rmwTakeRequest μ members responseMembers =>
      ∀ state pub rest, state.listener.data = Listener.received pub payload :: rest →
        Api.exec (Messaging.rmwTakeRequest (serviceOf μ members responseMembers)) state =
          (.error fault, { state with listener := { state.listener with data := rest } })
  | .rmwTakeResponse μ members requestMembers =>
      ∀ listener pub rest, listener.data = Listener.received pub payload :: rest →
        Api.exec (Messaging.rmwTakeResponse (clientOf μ requestMembers members)) listener =
          (.error fault, { listener with data := rest })
  | .rmwDeserialize μ members =>
      ∀ typeSupport : RosidlMessageTypeSupport, typeSupport.find = some (.of μ members) →
        Messaging.rmwDeserialize payload typeSupport = .error fault
  | .onDiscovery impl uuid => Discovery.onDiscovery impl uuid payload = .error fault

/-- The entry point hears of every payload that can be told from silence. -/
def EntryPoint.Hears (payload : List UInt8) : EntryPoint → Prop
  | .onDiscovery .. => payload ≠ []
  | _ => True

/-! ## Messages -/

theorem deserializeRosMessage_of_error {μ : MembersType} {members : MessageMembers}
    {payload : List UInt8} {fault : Fault}
    (hError : (Rx.exec (TypeSupport.deserializeROSmessage members : Rx (Message μ))
      (RxStream.ofBytes payload)).1 = .error fault) :
    deserializeRosMessage (RxStream.ofBytes payload) (.of μ members) = .error fault := by
  cases μ with
  | c =>
      simp only [deserializeRosMessage, MessageTypeSupport.of, identifierOf, hError, Except.map]
  | cpp =>
      simp only [deserializeRosMessage, MessageTypeSupport.of, identifierOf, hError, Except.map]

/-- Where the decoder throws, so does each of the functions that decode a message. -/
theorem throws_of_deserialize {μ : MembersType} {members : MessageMembers}
    {payload : List UInt8} {fault : Fault}
    (hError : deserializeRosMessage (RxStream.ofBytes payload) (.of μ members) = .error fault) :
    (EntryPoint.rmwTake μ members).Throws payload fault ∧
      (EntryPoint.rmwTakeWithInfo μ members).Throws payload fault ∧
      (∀ responseMembers,
        (EntryPoint.rmwTakeRequest μ members responseMembers).Throws payload fault) ∧
      (∀ requestMembers,
        (EntryPoint.rmwTakeResponse μ members requestMembers).Throws payload fault) ∧
      (EntryPoint.rmwDeserialize μ members).Throws payload fault := by
  refine ⟨?_, ?_, ?_, ?_, ?_⟩
  · intro listener pub rest hData
    have hRun : Api.exec (take (subscriptionOf μ members) false) listener = _ :=
      exec_take rfl rfl false hData
    show Api.exec (take (subscriptionOf μ members) false) listener = _
    rw [hRun]
    exact congrArg (·, _) (congrArg (Except.map _) hError)
  · intro listener pub rest hData
    have hRun : Api.exec (take (subscriptionOf μ members) true) listener = _ :=
      exec_take rfl rfl true hData
    show Api.exec (take (subscriptionOf μ members) true) listener = _
    rw [hRun]
    exact congrArg (·, _) (congrArg (Except.map _) hError)
  · intro responseMembers state pub rest hData
    rw [exec_rmwTakeRequest rfl hData]
    dsimp only [serviceOf, Listener.received]
    rw [hError]
  · intro requestMembers listener pub rest hData
    rw [exec_rmwTakeResponse rfl hData]
    exact congrArg (·, _) (congrArg (Except.map _) hError)
  · intro typeSupport hFind
    unfold Messaging.rmwDeserialize
    rw [hFind]
    simp only [hError, bind, Except.bind]

/-! ## Advertisements -/

omit [Platform] in
theorem decodeTopics_cut [DpsCbor.Lawful] [DpsCbor.Local] {topics : List StdString}
    {ser : TxStream} (hLength : topics.length < 2 ^ 64) (hSized : ∀ topic ∈ topics, Sized topic)
    (hWrite : writeWithRetry (stringOps.putVector topics) TxStream.new = .ok ser)
    {cut rest : List UInt8} (hSplit : ser.data = cut ++ rest) (hRest : rest ≠ []) :
    ∃ what, decodeTopics cut = .error (.runtimeError what) := by
  have hWrites := stringOps_encodesAs.putVector topics hLength hSized
  obtain ⟨ser', hWrite', -, hData⟩ := writeWithRetry_of_writes hWrites 1024
  obtain rfl : ser = ser' := Except.ok.inj (hWrite.symm.trans hWrite')
  have hReads := stringOps_decodesAs.getVector topics hLength hSized
  exact stringOps_local.getVector.cut hReads (hData ▸ hSplit) hRest

omit [Platform] in
theorem onDiscovery_of_error {payload : List UInt8} {fault : Fault} (impl : CustomNodeInfo)
    (uuid : StdString) (hPayload : payload ≠ []) (hError : decodeTopics payload = .error fault) :
    onDiscovery impl uuid payload = .error fault := by
  unfold onDiscovery decodePayload
  rw [if_neg (by simpa using hPayload), hError]
  rfl

/-! ## Every entry point -/

end

end Messaging
end RmwDps
