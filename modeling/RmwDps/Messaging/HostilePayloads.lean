import RmwDps.Messaging.Take
import RmwDps.Discovery.GraphTrigger
import RmwDps.Serialization.PayloadGrammar

/-!
# Payloads that do not decode

The functions that decode bytes from the network: four take functions,
`rmw_deserialize` and the discovery callback.  None of them catches what the stream
operators throw, so each does what it is to do on the payloads that decode and lets an
exception out on nearly all others.  Nothing is thrown, and a payload that is none is taken
for one, where the C support finds too many strings for a fixed-size array, and where bytes
follow the strings of an advertisement.

Which payloads decode is said by the languages of the descriptions, not by a decoder.
-/

namespace RmwDps
namespace Messaging

open Rfc7049 (Takes)
open Serialization
open Discovery (CustomNodeInfo DiscoveredNodes Node decodePayload decodeTopics onDiscovery)

section

variable [DpsCbor] [Platform]

/-- A payload decodes as a message: there is a payload of the description at its front. -/
def DecodesAs (members : MessageMembers) (payload : List UInt8) : Prop :=
  ∃ rest, Takes (members.payloads false) payload rest

/-- A payload is an array of strings, with nothing behind it. -/
def IsTextArray (payload : List UInt8) : Prop :=
  ∃ topics, payload ∈ textArray topics

/-! ## What is to hold -/

/-- An entry point for bytes from the network, with the description that it decodes
them by.  The service and the client have a description for what they send, too. -/
inductive EntryPoint
  | rmwTake (μ : MembersType) (members : MessageMembers)
  | rmwTakeWithInfo (μ : MembersType) (members : MessageMembers)
  | rmwTakeRequest (μ : MembersType) (members responseMembers : MessageMembers)
  | rmwTakeResponse (μ : MembersType) (members requestMembers : MessageMembers)
  | rmwDeserialize (μ : MembersType) (members : MessageMembers)
  | onDiscovery (impl : CustomNodeInfo) (uuid : StdString)

/-- A call returns `RMW_RET_OK` with a message if the payload decodes, and an error
without one if it does not. -/
def ReturnsIfDecoded (decodes : Prop) (outcome : Except Fault (RmwRet × Bool)) : Prop :=
  ∃ ret taken, outcome = .ok (ret, taken) ∧ (decodes → ret = .ok ∧ taken = true) ∧
    (¬ decodes → ∃ message, ret = .error message ∧ taken = false)

/-- The return value and the flag of a take function. -/
def TakeResult.verdict {info : Type} (result : TakeResult info) : RmwRet × Bool :=
  (result.ret, result.taken)

/-- A take function, called while a payload is the next data of its listener, returns
according to whether the payload decodes. -/
def TakesIfDecoded {σ info : Type} (listenerOf : σ → Listener) (function : Api σ (TakeResult info))
    (decodes : Prop) (payload : List UInt8) : Prop :=
  ∀ state pub rest, (listenerOf state).data = Listener.received pub payload :: rest →
    ReturnsIfDecoded decodes ((Api.exec function state).1.map TakeResult.verdict)

/-- The bytes do not break out of the middleware at an entry point.  An empty payload is
none: with it DPS says that a node has gone. -/
def EntryPoint.Contains (payload : List UInt8) : EntryPoint → Prop
  | .rmwTake μ members =>
      TakesIfDecoded id (Messaging.rmwTake (some (subscriptionOf μ members)))
        (DecodesAs members payload) payload
  | .rmwTakeWithInfo μ members =>
      TakesIfDecoded id (Messaging.rmwTakeWithInfo (some (subscriptionOf μ members)))
        (DecodesAs members payload) payload
  | .rmwTakeRequest μ members responseMembers =>
      TakesIfDecoded ServiceState.listener
        (Messaging.rmwTakeRequest (serviceOf μ members responseMembers))
        (DecodesAs members payload) payload
  | .rmwTakeResponse μ members requestMembers =>
      TakesIfDecoded id (Messaging.rmwTakeResponse (clientOf μ requestMembers members))
        (DecodesAs members payload) payload
  | .rmwDeserialize μ members =>
      ∀ typeSupport : RosidlMessageTypeSupport, typeSupport.find = some (.of μ members) →
        ReturnsIfDecoded (DecodesAs members payload)
          ((Messaging.rmwDeserialize payload typeSupport).map fun result =>
            (result.1, result.2.isSome))
  | .onDiscovery impl uuid =>
      ∃ impl', Discovery.onDiscovery impl uuid payload = .ok impl' ∧
        (payload ≠ [] → ¬ IsTextArray payload →
          impl'.discoveredNodes = impl.discoveredNodes ∧ impl'.publishers = impl.publishers ∧
            impl'.subscribers = impl.subscribers)

/-- The payload is one for the entry point.  Behind the strings of an advertisement there is
nothing, unless they say of the peer what is known of it already. -/
def EntryPoint.Decodes (payload : List UInt8) : EntryPoint → Prop
  | .rmwTake _ members | .rmwTakeWithInfo _ members | .rmwTakeRequest _ members _
  | .rmwTakeResponse _ members _ | .rmwDeserialize _ members => DecodesAs members payload
  | .onDiscovery impl uuid => payload = [] ∨ ∃ topics rest,
      Takes (textArray topics) payload rest ∧
        (rest = [] ∨ impl.discoveredNodes[uuid]? = some (Node.ofTopics topics))

/-! ## The decoder behind the entry points -/

/-- The decoder of a package takes a message off a payload exactly if there is one of the
description in front, with any surplus strings that the package lets through. -/
theorem deserializes_iff [DpsCbor.Exact] {μ : MembersType} (members : MessageMembers)
    (payload : List UInt8) :
    (∃ msg : Message μ, (Rx.exec (TypeSupport.deserializeROSmessage members)
      (RxStream.ofBytes payload)).1 = .ok msg) ↔
      ∃ rest, Takes (members.payloads μ.surplus) payload rest := by
  have hDecoder := TypeSupport.deserializeROSmessage_recognizes (μ := μ) members
  constructor
  · rintro ⟨msg, hRun⟩
    exact ⟨_, (hDecoder (RxStream.ofBytes payload) () _).mp
      ⟨msg, _, Prod.ext hRun rfl, rfl, rfl⟩⟩
  · rintro ⟨rest, hTakes⟩
    obtain ⟨msg, deser, hRun, -, -⟩ := (hDecoder (RxStream.ofBytes payload) () rest).mpr hTakes
    exact ⟨msg, congrArg Prod.fst hRun⟩

theorem deserializeRosMessage_of_decodesAs [DpsCbor.Exact] (μ : MembersType)
    {members : MessageMembers} {payload : List UInt8} (hDecodes : DecodesAs members payload) :
    ∃ message, deserializeRosMessage (RxStream.ofBytes payload) (.of μ members) =
      .ok (some message) := by
  obtain ⟨rest, hTakes⟩ := hDecodes
  obtain ⟨msg, hRun⟩ := (deserializes_iff (μ := μ) members payload).mpr
    ⟨rest, hTakes.mono members.payloads_mono⟩
  cases μ with
  | c =>
      refine ⟨.c msg, ?_⟩
      simp only [deserializeRosMessage, MessageTypeSupport.of, identifierOf, hRun, Except.map]
  | cpp =>
      refine ⟨.cpp msg, ?_⟩
      simp only [deserializeRosMessage, MessageTypeSupport.of, identifierOf, hRun, Except.map]

omit [DpsCbor] [Platform] in
theorem not_returnsIfDecoded_error {decodes : Prop} (fault : Fault) :
    ¬ ReturnsIfDecoded decodes (.error fault) := by
  rintro ⟨ret, taken, hOutcome, -⟩
  cases hOutcome

omit [DpsCbor] [Platform] in
/-- A function that reports a message for whatever the decoder returns is right where the
decoder has a payload to decode, and nowhere else. -/
theorem returnsIfDecoded_iff {α : Type} {decodes : Prop} {outcome : Except Fault α}
    (hDecoded : decodes → ∃ a, outcome = .ok a) :
    ReturnsIfDecoded decodes (outcome.map fun _ => (.ok, true)) ↔ decodes := by
  constructor
  · rintro ⟨ret, taken, hOutcome, -, hRefused⟩
    by_contra hNot
    obtain ⟨message, rfl, -⟩ := hRefused hNot
    cases outcome <;> cases hOutcome
  · intro hDecodes
    obtain ⟨a, rfl⟩ := hDecoded hDecodes
    exact ⟨.ok, true, rfl, fun _ => ⟨rfl, rfl⟩, fun hNot => absurd hDecodes hNot⟩

/-- A take function that pops the next data, decodes it, and lets the decoder's
exceptions out. -/
theorem takesIfDecoded_iff [DpsCbor.Exact] {σ info : Type} {listenerOf : σ → Listener}
    {function : Api σ (TakeResult info)} {μ : MembersType} {members : MessageMembers}
    {payload : List UInt8} (state : σ) (pub : DpsPublication)
    (hState : (listenerOf state).data = [Listener.received pub payload])
    (hExec : ∀ state pub rest, (listenerOf state).data = Listener.received pub payload :: rest →
      (Api.exec function state).1.map TakeResult.verdict =
        (deserializeRosMessage (RxStream.ofBytes payload) (.of μ members)).map
          fun _ => (RmwRet.ok, true)) :
    TakesIfDecoded listenerOf function (DecodesAs members payload) payload ↔
      DecodesAs members payload := by
  have hReturns := returnsIfDecoded_iff fun hDecodes : DecodesAs members payload =>
    (deserializeRosMessage_of_decodesAs μ hDecodes).imp' some fun _ hRun => hRun
  constructor
  · intro hTakes
    have hOnce := hTakes state pub [] hState
    rw [hExec state pub [] hState] at hOnce
    exact hReturns.mp hOnce
  · intro hDecodes state pub rest hData
    rw [hExec state pub rest hData]
    exact hReturns.mpr hDecodes

/-! ## The entry points -/

section EntryPoints

variable {payload : List UInt8}

/-- `rmw_deserialize` returns what the decoder returns, and lets through what it throws. -/
theorem rmwDeserialize_of_find {typeSupport : RosidlMessageTypeSupport} {μ : MembersType}
    {members : MessageMembers} (hFind : typeSupport.find = some (.of μ members)) :
    (rmwDeserialize payload typeSupport).map (fun result => (result.1, result.2.isSome)) =
      (deserializeRosMessage (RxStream.ofBytes payload) (.of μ members)).map
        fun _ => (RmwRet.ok, true) := by
  unfold rmwDeserialize
  rw [hFind]
  cases μ with
  | c =>
      simp only [deserializeRosMessage, MessageTypeSupport.of, identifierOf]
      cases (Rx.exec (TypeSupport.deserializeROSmessage (μ := .c) members)
        (RxStream.ofBytes payload)).1 <;> rfl
  | cpp =>
      simp only [deserializeRosMessage, MessageTypeSupport.of, identifierOf]
      cases (Rx.exec (TypeSupport.deserializeROSmessage (μ := .cpp) members)
        (RxStream.ofBytes payload)).1 <;> rfl

theorem rmwDeserialize_contained_iff [DpsCbor.Exact] (μ : MembersType)
    (members : MessageMembers) :
    (EntryPoint.rmwDeserialize μ members).Contains payload ↔ DecodesAs members payload := by
  have hReturns := returnsIfDecoded_iff fun hDecodes : DecodesAs members payload =>
    (deserializeRosMessage_of_decodesAs μ hDecodes).imp' some fun _ hRun => hRun
  constructor
  · intro hContains
    -- A type support that has the description under the identifier of its package.
    let typeSupport : RosidlMessageTypeSupport :=
      { handle := fun identifier => if identifier = identifierOf μ then some members else none }
    have hFind : typeSupport.find = some (.of μ members) := by
      cases μ <;> rfl
    have hOnce := hContains typeSupport hFind
    rw [rmwDeserialize_of_find hFind] at hOnce
    exact hReturns.mp hOnce
  · intro hDecodes typeSupport hFind
    rw [rmwDeserialize_of_find hFind]
    exact hReturns.mpr hDecodes

omit [DpsCbor] [Platform] in
/-- An announcement leaves the map as it is only where it says what the map says. -/
theorem announce_unchanged_iff (impl : CustomNodeInfo) (uuid : StdString)
    (announced : Option Node) :
    ((impl.announce uuid announced).discoveredNodes = impl.discoveredNodes ∧
      (impl.announce uuid announced).publishers = impl.publishers ∧
      (impl.announce uuid announced).subscribers = impl.subscribers) ↔
      impl.discoveredNodes[uuid]? = announced := by
  rw [CustomNodeInfo.discoveredNodes_announce, DiscoveredNodes.update_eq_iff, and_iff_left_iff_imp]
  intro hKnown
  exact ⟨impl.table_announce_of_known uuid announced hKnown .publisher,
    impl.table_announce_of_known uuid announced hKnown .subscription⟩

omit [Platform] in
theorem decodeTopics_iff [DpsCbor.Exact] {topics : List StdString} :
    decodeTopics payload = .ok topics ↔ ∃ rest, Takes (textArray topics) payload rest := by
  have hVector := stringOps_getVector_recognizes (RxStream.ofBytes payload) topics
  constructor
  · intro hTopics
    exact ⟨_, (hVector _).mp ⟨topics, _, Prod.ext hTopics rfl, rfl, rfl⟩⟩
  · rintro ⟨rest, hTakes⟩
    obtain ⟨_, deser, hRun, rfl, -⟩ := (hVector rest).mpr hTakes
    exact congrArg Prod.fst hRun

omit [Platform] in
/-- The callback throws where the decoder does, and nowhere else. -/
theorem onDiscovery_eq (impl : CustomNodeInfo) (uuid : StdString) (hNonempty : payload ≠ []) :
    onDiscovery impl uuid payload =
      (decodeTopics payload).map fun topics =>
        impl.announce uuid (some (Node.ofTopics topics)) := by
  unfold Discovery.onDiscovery decodePayload
  rw [if_neg (by simpa using hNonempty)]
  cases decodeTopics payload <;> rfl

theorem onDiscovery_contained_iff [DpsCbor.Exact] (impl : CustomNodeInfo) (uuid : StdString) :
    (EntryPoint.onDiscovery impl uuid).Contains payload ↔
      (EntryPoint.onDiscovery impl uuid).Decodes payload := by
  by_cases hEmpty : payload = []
  · subst hEmpty
    exact iff_of_true ⟨impl.announce uuid none, rfl, fun hNonempty => absurd rfl hNonempty⟩
      (.inl rfl)
  · constructor
    · rintro ⟨impl', hReturns, hKept⟩
      right
      rw [onDiscovery_eq impl uuid hEmpty] at hReturns
      cases hTopics : decodeTopics payload with
      | error fault =>
          rw [hTopics] at hReturns
          cases hReturns
      | ok topics =>
          rw [hTopics] at hReturns
          cases hReturns
          obtain ⟨rest, hTakes⟩ := decodeTopics_iff.mp hTopics
          refine ⟨topics, rest, hTakes, or_iff_not_imp_left.mpr fun hMore => ?_⟩
          have hNone : ¬ IsTextArray payload := by
            rintro ⟨topics', hMem⟩
            have hWhole : Takes (textArray topics') payload [] :=
              ⟨payload, hMem, (List.append_nil payload).symm⟩
            exact hMore (stringOps_getVector_recognizes.unique hTakes hWhole).2
          exact (announce_unchanged_iff impl uuid _).mp (hKept hEmpty hNone)
    · rintro (hNone | ⟨topics, rest, hTakes, hSettled⟩)
      · exact absurd hNone hEmpty
      · refine ⟨impl.announce uuid (some (Node.ofTopics topics)), ?_, fun _ hNone => ?_⟩
        · rw [onDiscovery_eq impl uuid hEmpty, decodeTopics_iff.mpr ⟨rest, hTakes⟩]
          rfl
        · refine (announce_unchanged_iff impl uuid _).mpr (hSettled.resolve_left ?_)
          rintro rfl
          obtain ⟨word, hWord, hInput⟩ := hTakes
          rw [List.append_nil] at hInput
          exact hNone ⟨topics, hInput ▸ hWord⟩

/-- Bytes from the network are contained at an entry point exactly when there is a payload
for it in front of them. -/
theorem contains_iff_decodes [DpsCbor.Exact] (entry : EntryPoint) (payload : List UInt8) :
    entry.Contains payload ↔ entry.Decodes payload := by
  -- A listener that holds the payload, to run a take function on.
  let somePub : DpsPublication :=
    { uuid := Vector.replicate 16 0, sequenceNum := 0, ackSequenceNum := 0 }
  let holding : Listener := { Listener.new with data := [Listener.received somePub payload] }
  have hMap : ∀ {α info : Type} (result : Except Fault α) (info : α → TakeResult info),
      (∀ a, (info a).verdict = (.ok, true)) →
      (result.map info).map TakeResult.verdict = result.map fun _ => (RmwRet.ok, true) := by
    intro α info result toResult hVerdict
    cases result with
    | error fault => rfl
    | ok a => exact congrArg Except.ok (hVerdict a)
  cases entry with
  | rmwTake μ members =>
      refine takesIfDecoded_iff (μ := μ) holding somePub rfl ?_
      intro listener pub rest hData
      have hRun : Api.exec (take (subscriptionOf μ members) false) listener = _ :=
        exec_take rfl rfl false hData
      show (Api.exec (take (subscriptionOf μ members) false) listener).1.map _ = _
      rw [hRun]
      exact hMap _ _ fun _ => rfl
  | rmwTakeWithInfo μ members =>
      refine takesIfDecoded_iff (μ := μ) holding somePub rfl ?_
      intro listener pub rest hData
      have hRun : Api.exec (take (subscriptionOf μ members) true) listener = _ :=
        exec_take rfl rfl true hData
      show (Api.exec (take (subscriptionOf μ members) true) listener).1.map _ = _
      rw [hRun]
      exact hMap _ _ fun _ => rfl
  | rmwTakeRequest μ members responseMembers =>
      refine takesIfDecoded_iff (μ := μ) { listener := holding, requests := ∅, acks := [] }
        somePub rfl ?_
      intro state pub rest hData
      rw [exec_rmwTakeRequest rfl hData]
      dsimp only [serviceOf]
      cases deserializeRosMessage (RxStream.ofBytes payload) (.of μ members) <;> rfl
  | rmwTakeResponse μ members requestMembers =>
      refine takesIfDecoded_iff (μ := μ) holding somePub rfl ?_
      intro listener pub rest hData
      have hRun : Api.exec (rmwTakeResponse (clientOf μ requestMembers members)) listener = _ :=
        exec_rmwTakeResponse rfl hData
      rw [hRun]
      exact hMap _ _ fun _ => rfl
  | rmwDeserialize μ members => exact rmwDeserialize_contained_iff μ members
  | onDiscovery impl uuid => exact onDiscovery_contained_iff impl uuid

end EntryPoints

end

/-- A message with one `double`, and a payload that ends behind the head of its array. -/
def stampMembers : MessageMembers := .cons { typeId := .double } .nil .nil

def truncated : List UInt8 := [0x81]

/-- `rmw_take` lets the exception for a truncated message out, and the discovery
callback the one for a payload that is not an array of strings. -/
theorem truncated_not_contained :
    ¬ @EntryPoint.Contains rfcCbor signedChar truncated (.rmwTake .cpp stampMembers) ∧
      ¬ @EntryPoint.Contains rfcCbor signedChar truncated
        (.onDiscovery (CustomNodeInfo.new 0) []) := by
  let _ := rfcCbor
  let _ := signedChar
  constructor
  · intro hContains
    let pub : DpsPublication :=
      { uuid := Vector.replicate 16 0, sequenceNum := 1, ackSequenceNum := 0 }
    have hReturns := hContains (Listener.new.push (Listener.received pub truncated)) pub [] rfl
    have hFault : ((Api.exec (rmwTake (some (subscriptionOf .cpp stampMembers)))
        (Listener.new.push (Listener.received pub truncated))).1.map TakeResult.verdict) =
          .error (.runtimeError "failed to deserialize double") := rfl
    rw [hFault] at hReturns
    exact not_returnsIfDecoded_error _ hReturns
  · rintro ⟨impl', hReturns, -⟩
    have hFault : onDiscovery (CustomNodeInfo.new 0) [] truncated =
        .error (.runtimeError "failed to deserialize std::string") := rfl
    rw [hFault] at hReturns
    cases hReturns

/-- An array head for one member, and a double. -/
def stamp : List UInt8 := [0x81, 0xFB, 0, 0, 0, 0, 0, 0, 0, 0]

/-- An array of no strings, and a byte behind it. -/
def emptyAdvertisement : List UInt8 := [0x80, 0xFF]

/-- A node that a peer without a name and entities has reached. -/
def acquainted : CustomNodeInfo := (CustomNodeInfo.new 0).announce [] (some {})

/-- A stamp is taken by every function that takes one.  The byte behind the advertisement
does no harm where the peer is known, and else stands for a new node. -/
theorem stamp_contained :
    (∀ entry ∈ [EntryPoint.rmwTake .cpp stampMembers, .rmwTakeWithInfo .c stampMembers,
        .rmwTakeRequest .cpp stampMembers .nil, .rmwTakeResponse .c stampMembers .nil,
        .rmwDeserialize .c stampMembers],
      @EntryPoint.Contains rfcCbor signedChar stamp entry) ∧
      @EntryPoint.Contains rfcCbor signedChar emptyAdvertisement (.onDiscovery acquainted []) ∧
      ¬ @EntryPoint.Contains rfcCbor signedChar emptyAdvertisement
        (.onDiscovery (CustomNodeInfo.new 0) []) := by
  let _ := rfcCbor
  let _ := signedChar
  have _ := rfcCbor_exact
  have hMessage : DecodesAs stampMembers stamp :=
    ⟨_, (TypeSupport.deserializeROSmessage_recognizes (μ := .cpp) stampMembers
      (RxStream.ofBytes stamp) () _).mp ⟨_, _, rfl, rfl, rfl⟩⟩
  have hTopics : Takes (textArray []) emptyAdvertisement [0xFF] :=
    (stringOps_getVector_recognizes (RxStream.ofBytes emptyAdvertisement) [] [0xFF]).mp
      ⟨_, _, rfl, rfl, rfl⟩
  refine ⟨?_, ?_, ?_⟩
  · intro entry hEntry
    refine (contains_iff_decodes entry stamp).mpr ?_
    simp only [List.mem_cons, List.not_mem_nil, or_false] at hEntry
    obtain rfl | rfl | rfl | rfl | rfl := hEntry <;> exact hMessage
  · refine (contains_iff_decodes _ emptyAdvertisement).mpr (.inr ⟨[], [0xFF], hTopics, .inr ?_⟩)
    simp [acquainted, CustomNodeInfo.getElem?_announce, Node.ofTopics]
  · intro hContains
    obtain hNone | ⟨topics, rest, hTakes, hSettled⟩ :=
      (contains_iff_decodes _ emptyAdvertisement).mp hContains
    · cases hNone
    · obtain ⟨rfl, rfl⟩ := stringOps_getVector_recognizes.unique hTopics hTakes
      obtain hRest | hKnown := hSettled
      · cases hRest
      · simp [CustomNodeInfo.new] at hKnown

end Messaging
end RmwDps
