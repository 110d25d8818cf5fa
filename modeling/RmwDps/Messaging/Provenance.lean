import RmwDps.Messaging.ServiceCalls
import RmwDps.Serialization.CharSign

/-!
# Where requests and responses come from

Everything that waits in a listener queue or in `requests_` goes back to the calls
that sent it.  The header is made in three places, of the uuid and one of the
numbers of a publication, and `memcmp` tells any two headers apart.
-/

namespace RmwDps
namespace Messaging

open Serialization
open Transition (Machine)

/-! ## Headers -/

theorem RmwRequestId.bytes_injective {header header' : RmwRequestId}
    (hBytes : header.bytes = header'.bytes) : header = header' := by
  unfold bytes at hBytes
  obtain ⟨hGuid, hNumber⟩ := List.append_inj hBytes (by simp)
  have hNat : header.sequenceNumber.toUInt64.toNat = header'.sequenceNumber.toUInt64.toNat := by
    have hLt : ∀ number : UInt64, number.toNat < 256 ^ 8 := fun number => number.toNat_lt
    rw [← Rfc7049.beNat_beBytes_of_lt (hLt header.sequenceNumber.toUInt64),
      ← Rfc7049.beNat_beBytes_of_lt (hLt header'.sequenceNumber.toUInt64),
      List.reverse_injective hNumber]
  have hSequence : header.sequenceNumber = header'.sequenceNumber :=
    congrArg UInt64.toInt64 (UInt64.toNat_inj.mp hNat)
  have hWriter : header.writerGuid = header'.writerGuid := Vector.toList_inj.mp hGuid
  cases header
  cases header'
  simp_all

/-- What DPS tells publications apart by: the uuid, and the number of the request. -/
abbrev RequestKey := DpsUuid × UInt32

def DpsPublication.key (pub : DpsPublication) : RequestKey := (pub.uuid, pub.sequenceNum)

/-- The header of a request. -/
def headerOf (key : RequestKey) : RmwRequestId where
  writerGuid := key.1
  sequenceNumber := key.2.toNat.toInt64

theorem headerOf_injective {key key' : RequestKey} (hHeader : headerOf key = headerOf key') :
    key = key' := by
  have hGuid : key.1 = key'.1 := congrArg RmwRequestId.writerGuid hHeader
  have hNumber := congrArg (Int64.toInt ∘ RmwRequestId.sequenceNumber) hHeader
  have hLt := key.2.toNat_lt
  have hLt' := key'.2.toNat_lt
  have hInt : key.2.toNat.toInt64.toInt = key.2.toNat := Int64.toInt_ofNat_of_lt (by omega)
  have hInt' : key'.2.toNat.toInt64.toInt = key'.2.toNat := Int64.toInt_ofNat_of_lt (by omega)
  have hNat : (key.2.toNat : Int) = key'.2.toNat := by
    rw [← hInt, ← hInt']
    exact hNumber
  exact Prod.ext hGuid (UInt32.toNat_inj.mp (by omega))

/-- The three ways in which the functions read a header off a publication agree. -/
theorem requestHeader_eq (pub : DpsPublication) : requestHeader (some pub) = headerOf pub.key := rfl

theorem responseHeader_eq (pub : DpsPublication) :
    responseHeader (some pub) = headerOf (pub.uuid, pub.ackSequenceNum) := rfl

theorem rmwSendRequestPublished_ok {status : DpsStatus} {pub : DpsPublication}
    {sequenceId : Option Int64}
    (hReturned : rmwSendRequestPublished status (some pub) = (.ok, sequenceId)) :
    sequenceId = some (headerOf pub.key).sequenceNumber := by
  unfold rmwSendRequestPublished at hReturned
  split at hReturned
  · exact (congrArg Prod.snd hReturned).symm
  · cases hReturned

/-! ## What is to hold -/

section Statement

variable [DpsCbor] [Platform] {ι κ : Type}

/-- What one side serializes a message to, the other side deserializes as the result.  Where
both sides have one description, in any package, a value that both of them can hold gets
through, in the representation of each side. -/
def Transmits (message : RosMessage) (sender receiver : MessageTypeSupport)
    (result : Option RosMessage) : Prop :=
  (∃ ser, serializeRosMessage message TxStream.new sender = .ok (true, ser) ∧
    deserializeRosMessage (RxStream.ofBytes ser.data) receiver = .ok result) ∧
    ∀ (members : MessageMembers) (value : Message .cpp) (μ ν : MembersType),
      sender = .of μ members → receiver = .of ν members → members.memberCount < 2 ^ 32 →
      members.Fits value → members.HeldBy value μ → members.HeldBy value ν →
      message = .of μ (members.represent value μ) →
        result = some (.of ν (members.represent value ν))

/-- A response that a client takes, given what happened before: the client published the
request, a service took it, and the same service answered it with that response. -/
def ResponsePaired (parties : Parties ι κ) (history : List (Event ι κ)) (c : ι)
    (header : RmwRequestId) (rosResponse : Option RosMessage) : Prop :=
  ∃ sequenceNum v sentRequest takenRequest sentResponse,
    header = headerOf (parties.uuid c, sequenceNum) ∧
      .published c sequenceNum sentRequest ∈ history ∧
      Transmits sentRequest (parties.client c).data.requestTypeSupport
        (parties.service v).data.requestTypeSupport takenRequest ∧
      .requestTaken v header takenRequest ∈ history ∧
      .responded v header sentResponse .ok ∈ history ∧
      Transmits sentResponse (parties.service v).data.responseTypeSupport
        (parties.client c).data.responseTypeSupport rosResponse

end Statement

/-! ## The codec -/

section Codec

variable [DpsCbor] [DpsCbor.Lawful] [DpsCbor.Exact] [Platform]

/-- What is read of the payload of a value is the value: characters that do not make the
trip make the reading fail. -/
theorem TypeSupport.read_of_payload {members : MessageMembers} {value : Message .cpp}
    {ν : MembersType} (hCount : members.memberCount < 2 ^ 32) (hFits : members.Fits value)
    (hHeld : members.HeldBy value ν) {msg : Message ν}
    (hRead : (Rx.exec (TypeSupport.deserializeROSmessage members)
      (RxStream.ofBytes (members.payload value))).1 = .ok msg) :
    msg = members.represent value ν := by
  have hReads := TypeSupport.deserializeROSmessage_readsWhen readsChars hCount
    (MessageMembers.fits_represent hFits hHeld)
  rw [MessageMembers.payload_represent] at hReads
  have hInput : (RxStream.ofBytes (members.payload value)).unread = members.payload value ++ [] :=
    (List.append_nil _).symm
  by_cases hChars : Platform.charIsSigned = true ∨ members.LowChars (members.represent value ν)
  · obtain ⟨deser, hRun, -⟩ := hReads.reads hChars _ [] hInput
    rw [hRun] at hRead
    exact (Except.ok.inj hRead).symm
  · obtain ⟨fault, hFault⟩ := hReads.throws hChars _ [] hInput
    rw [hFault] at hRead
    cases hRead

theorem transmits_of_serialized {message : RosMessage} {sender receiver : MessageTypeSupport}
    {ser : TxStream} {result : Option RosMessage}
    (hSerialize : serializeRosMessage message TxStream.new sender = .ok (true, ser))
    (hDeserialize : deserializeRosMessage (RxStream.ofBytes ser.data) receiver = .ok result) :
    Transmits message sender receiver result := by
  refine ⟨⟨ser, hSerialize, hDeserialize⟩, ?_⟩
  rintro members value μ ν rfl rfl hCount hFits hHeld hHeld' rfl
  -- Any package writes the payload of the value, and any package reads it back.
  rw [serializeRosMessage_of] at hSerialize
  have hData := TypeSupport.data_of_returns
    (serializePass_writes_of_fits hCount (MessageMembers.fits_represent hFits hHeld)) hSerialize
  rw [hData, MessageMembers.payload_represent, deserializeRosMessage_of] at hDeserialize
  cases hRead : (Rx.exec (TypeSupport.deserializeROSmessage (μ := ν) members)
      (RxStream.ofBytes (members.payload value))).1 with
  | error fault =>
      rw [hRead] at hDeserialize
      cases hDeserialize
  | ok msg =>
      rw [hRead] at hDeserialize
      rw [← TypeSupport.read_of_payload hCount hFits hHeld' hRead]
      exact (Except.ok.inj hDeserialize).symm

omit [DpsCbor.Lawful] [DpsCbor.Exact] in
/-- What `rmw_send_request` publishes is what the serialization wrote. -/
theorem serialized_of_publishes {client : RmwClient} {rosRequest : RosMessage}
    {payload : List UInt8}
    (hRequest : rmwSendRequest client rosRequest = .ok (.publishes payload)) :
    ∃ ser, serializeRosMessage rosRequest TxStream.new client.data.requestTypeSupport =
      .ok (true, ser) ∧ ser.data = payload := by
  unfold rmwSendRequest at hRequest
  by_cases hIdentifier : client.implementationIdentifier = intelDpsIdentifier
  · rw [if_neg (not_not.mpr hIdentifier)] at hRequest
    cases hSerialize : serializeRosMessage rosRequest TxStream.new
        client.data.requestTypeSupport with
    | error fault =>
        rw [hSerialize] at hRequest
        cases hRequest
    | ok written =>
        obtain ⟨ok, ser⟩ := written
        rw [hSerialize] at hRequest
        cases ok with
        | false => cases hRequest
        | true =>
            cases hRequest
            exact ⟨ser, rfl, rfl⟩
  · rw [if_pos hIdentifier] at hRequest
    cases hRequest

end Codec

/-! ## Where messages come from -/

section Provenance

variable [DpsCbor] [Platform] {ι κ : Type} {parties : Parties ι κ}
  {history later : List (Event ι κ)}
  {s : CallState ι κ} {v : κ} {c : ι} {key : RequestKey} {payload : List UInt8}

/-- A client with the uuid published the payload under the number. -/
def PublishedAs (parties : Parties ι κ) (history : List (Event ι κ)) (key : RequestKey)
    (payload : List UInt8) : Prop :=
  ∃ c rosRequest, parties.uuid c = key.1 ∧ .published c key.2 rosRequest ∈ history ∧
    rmwSendRequest (parties.client c) rosRequest = .ok (.publishes payload)

/-- A service took the request. -/
def TakenBy (parties : Parties ι κ) (history : List (Event ι κ)) (v : κ) (key : RequestKey) :
    Prop :=
  ∃ payload taken, PublishedAs parties history key payload ∧
    deserializeRosMessage (RxStream.ofBytes payload) (parties.service v).data.requestTypeSupport =
      .ok taken ∧
    .requestTaken v (headerOf key) taken ∈ history

/-- A service took the request, and answered it with the payload. -/
def AnsweredWith (parties : Parties ι κ) (history : List (Event ι κ)) (v : κ) (key : RequestKey)
    (payload : List UInt8) : Prop :=
  TakenBy parties history v key ∧
    ∃ sentResponse ser, .responded v (headerOf key) sentResponse .ok ∈ history ∧
      serializeRosMessage sentResponse TxStream.new (parties.service v).data.responseTypeSupport =
        .ok (true, ser) ∧
      ser.data = payload

theorem PublishedAs.mono (hSubset : history ⊆ later)
    (hPublished : PublishedAs parties history key payload) :
    PublishedAs parties later key payload := by
  obtain ⟨c, rosRequest, hUuid, hEvent, hRequest⟩ := hPublished
  exact ⟨c, rosRequest, hUuid, hSubset hEvent, hRequest⟩

theorem TakenBy.mono (hSubset : history ⊆ later) (hTaken : TakenBy parties history v key) :
    TakenBy parties later v key := by
  obtain ⟨payload, taken, hPublished, hDecode, hEvent⟩ := hTaken
  exact ⟨payload, taken, hPublished.mono hSubset, hDecode, hSubset hEvent⟩

theorem AnsweredWith.mono (hSubset : history ⊆ later)
    (hAnswered : AnsweredWith parties history v key payload) :
    AnsweredWith parties later v key payload := by
  obtain ⟨hTaken, sentResponse, ser, hEvent, hSerialize⟩ := hAnswered
  exact ⟨hTaken.mono hSubset, sentResponse, ser, hSubset hEvent, hSerialize⟩

/-- The requests in the queue of a service and in its map, and its acknowledgements. -/
structure ServiceOk (parties : Parties ι κ) (history : List (Event ι κ)) (v : κ)
    (service : ServiceState) : Prop where
  queued : ∀ data ∈ service.listener.data, ∃ pub payload,
    data = Listener.received pub payload ∧ PublishedAs parties history pub.key payload
  kept : ∀ header pub, service.requests[header.bytes]? = some (some pub) →
    header = headerOf pub.key ∧ TakenBy parties history v pub.key
  answered : ∀ call ∈ service.acks, ∀ pub, call.pub = some pub → call.status = .ok →
    AnsweredWith parties history v pub.key call.payload

/-- The responses in the queue of a client. -/
def ClientOk (parties : Parties ι κ) (history : List (Event ι κ)) (c : ι) (client : ClientState) :
    Prop :=
  ∀ data ∈ client.listener.data, ∃ pub v payload, data = Listener.received pub payload ∧
    pub.uuid = parties.uuid c ∧
    AnsweredWith parties history v (parties.uuid c, pub.ackSequenceNum) payload

/-- Every response that has been taken was paired. -/
def AllPaired (parties : Parties ι κ) : List (Event ι κ) → Prop
  | [] => True
  | .responseTaken c header rosResponse :: earlier =>
      ResponsePaired parties earlier c header rosResponse ∧ AllPaired parties earlier
  | _ :: earlier => AllPaired parties earlier

structure Provenance (parties : Parties ι κ) (s : CallState ι κ) : Prop where
  services : ∀ v, ServiceOk parties s.history v (s.services v)
  clients : ∀ c, ClientOk parties s.history c (s.clients c)
  requests : ∀ request ∈ s.requests, PublishedAs parties s.history
    (parties.uuid request.client, request.sequenceNum) request.payload
  paired : AllPaired parties s.history

theorem ServiceOk.mono {service : ServiceState} (hSubset : history ⊆ later)
    (hService : ServiceOk parties history v service) : ServiceOk parties later v service where
  queued data hData := by
    obtain ⟨pub, payload, hReceived, hPublished⟩ := hService.queued data hData
    exact ⟨pub, payload, hReceived, hPublished.mono hSubset⟩
  kept header pub hKept := by
    obtain ⟨hHeader, hTaken⟩ := hService.kept header pub hKept
    exact ⟨hHeader, hTaken.mono hSubset⟩
  answered call hCall pub hPub hStatus :=
    (hService.answered call hCall pub hPub hStatus).mono hSubset

theorem ClientOk.mono {client : ClientState} (hSubset : history ⊆ later)
    (hClient : ClientOk parties history c client) : ClientOk parties later c client := by
  intro data hData
  obtain ⟨pub, v, payload, hReceived, hUuid, hAnswered⟩ := hClient data hData
  exact ⟨pub, v, payload, hReceived, hUuid, hAnswered.mono hSubset⟩

theorem responsePaired_of_answered [DpsCbor.Lawful] [DpsCbor.Exact] {sequenceNum : UInt32}
    {rosResponse : Option RosMessage}
    (hAnswered : AnsweredWith parties history v (parties.uuid c, sequenceNum) payload)
    (hDecode : deserializeRosMessage (RxStream.ofBytes payload)
      (parties.client c).data.responseTypeSupport = .ok rosResponse) :
    ResponsePaired parties history c (headerOf (parties.uuid c, sequenceNum)) rosResponse := by
  obtain ⟨⟨request, taken, hPublished, hTake, hTaken⟩, sentResponse, ser, hResponded, hSerialize,
    rfl⟩ := hAnswered
  obtain ⟨client, sentRequest, hUuid, hSent, hRequest⟩ := hPublished
  obtain rfl := parties.uuid_injective hUuid
  obtain ⟨requestSer, hRequestSerialize, rfl⟩ := serialized_of_publishes hRequest
  exact ⟨sequenceNum, v, sentRequest, taken, sentResponse, rfl, hSent,
    transmits_of_serialized hRequestSerialize hTake, hTaken, hResponded,
    transmits_of_serialized hSerialize hDecode⟩

/-- A service with a shorter queue. -/
theorem ServiceOk.pop {service : ServiceState} {data : Data}
    {rest : List Data} (hService : ServiceOk parties history v service)
    (hData : service.listener.data = data :: rest) :
    ServiceOk parties history v
      { service with listener := { service.listener with data := rest } } where
  queued other hOther := hService.queued other (hData ▸ List.mem_cons_of_mem data hOther)
  kept := hService.kept
  answered := hService.answered

theorem Provenance.record (hInv : Provenance parties s) {events : List (Event ι κ)}
    (hPaired : AllPaired parties (events ++ s.history)) : Provenance parties (s.record events) where
  services v := (hInv.services v).mono (List.subset_append_right events s.history)
  clients c := (hInv.clients c).mono (List.subset_append_right events s.history)
  requests request hRequest :=
    (hInv.requests request hRequest).mono (List.subset_append_right events s.history)
  paired := hPaired

theorem Provenance.setService [DecidableEq κ] (hInv : Provenance parties s) {service : ServiceState}
    (hService : ServiceOk parties s.history v service) :
    Provenance parties (s.setService v service) where
  services other := by
    by_cases hSame : other = v
    · subst hSame
      rw [CallState.services_setService_self]
      exact hService
    · rw [CallState.services_setService_of_ne hSame]
      exact hInv.services other
  clients := hInv.clients
  requests := hInv.requests
  paired := hInv.paired

theorem Provenance.setClient [DecidableEq ι] (hInv : Provenance parties s) {client : ClientState}
    (hClient : ClientOk parties s.history c client) :
    Provenance parties (s.setClient c client) where
  services := hInv.services
  clients other := by
    by_cases hSame : other = c
    · subst hSame
      rw [CallState.clients_setClient_self]
      exact hClient
    · rw [CallState.clients_setClient_of_ne hSame]
      exact hInv.clients other
  requests := hInv.requests
  paired := hInv.paired

end Provenance

/-! ## Every step keeps the provenance -/

section Steps

variable [DpsCbor] [Platform] {ι κ : Type} {parties : Parties ι κ} {s s' : CallState ι κ} {v : κ}
  {c : ι}

theorem Provenance.publish [DecidableEq ι] (hInv : Provenance parties s) {rosRequest : RosMessage}
    {payload : List UInt8} {carried : Bool}
    (hRequest : rmwSendRequest (parties.client c) rosRequest = .ok (.publishes payload)) :
    Provenance parties (s.publish c rosRequest payload carried) := by
  have hClient : Provenance parties (s.setClient c { s.clients c with
      sequenceNum := (s.clients c).sequenceNum + 1
      sending := some ((s.clients c).sequenceNum + 1) }) :=
    hInv.setClient (hInv.clients c)
  have hRecorded : Provenance parties ((s.setClient c _).record
      [.published c ((s.clients c).sequenceNum + 1) rosRequest]) := hClient.record hInv.paired
  refine ⟨hRecorded.services, hRecorded.clients, ?_, hRecorded.paired⟩
  intro request hMem
  cases carried with
  | false => exact hRecorded.requests request hMem
  | true =>
      rcases List.mem_cons.mp hMem with rfl | hBefore
      · exact ⟨c, rosRequest, rfl, List.mem_cons_self, hRequest⟩
      · exact hRecorded.requests request hBefore

theorem Provenance.deliverRequest [DecidableEq κ] (hInv : Provenance parties s)
    {request : Request ι}
    {pub : DpsPublication} (hRequest : request ∈ s.requests)
    (hUuid : pub.uuid = parties.uuid request.client)
    (hNumber : pub.sequenceNum = request.sequenceNum) :
    Provenance parties (s.deliverRequest v request pub) := by
  have hKey : pub.key = (parties.uuid request.client, request.sequenceNum) := Prod.ext hUuid hNumber
  have hService : Provenance parties (s.setService v { s.services v with
      listener := (s.services v).listener.push (Listener.received pub request.payload) }) := by
    apply hInv.setService
    refine ⟨?_, (hInv.services v).kept, (hInv.services v).answered⟩
    intro data hData
    rcases List.mem_append.mp hData with hBefore | hNew
    · exact (hInv.services v).queued data hBefore
    · rw [List.mem_singleton] at hNew
      exact ⟨pub, request.payload, hNew, hKey ▸ hInv.requests request hRequest⟩
  exact ⟨hService.services, hService.clients, hService.requests, hService.paired⟩

theorem Provenance.deliverAck [DecidableEq ι] (hInv : Provenance parties s) {call : AckCall}
    {acked pub : DpsPublication} (hCall : call ∈ (s.services v).acks) (hStatus : call.status = .ok)
    (hAcked : call.pub = some acked) (hClient : parties.uuid c = acked.uuid)
    (hUuid : pub.uuid = acked.uuid) (hNumber : pub.ackSequenceNum = acked.sequenceNum) :
    Provenance parties (s.deliverAck c pub call.payload) := by
  have hKey : acked.key = (parties.uuid c, pub.ackSequenceNum) := Prod.ext hClient.symm hNumber.symm
  apply hInv.setClient
  intro data hData
  rcases List.mem_append.mp hData with hBefore | hNew
  · exact hInv.clients c data hBefore
  · rw [List.mem_singleton] at hNew
    have hAnswered := (hInv.services v).answered call hCall acked hAcked hStatus
    exact ⟨pub, v, call.payload, hNew, hUuid.trans hClient.symm, hKey ▸ hAnswered⟩

theorem Provenance.takeRequest [DecidableEq κ] (hInv : Provenance parties s) :
    Provenance parties (s.takeRequest parties v) := by
  have hOutcome := rmwTakeRequest_outcome (parties.service v) (s.services v)
  have hService := hInv.services v
  unfold CallState.takeRequest
  generalize Api.exec (rmwTakeRequest (parties.service v)) (s.services v) = outcome at hOutcome ⊢
  cases hOutcome with
  | nothing hTaken =>
      dsimp only
      rw [Event.ofTaken_of_not_taken _ hTaken]
      exact (hInv.setService hService).record hInv.paired
  | dropped hData => exact (hInv.setService (hService.pop hData)).record hInv.paired
  | @taken pub buffer rest message hData hDecode =>
      obtain ⟨pub, payload, hReceived, hPublished⟩ :=
        hService.queued _ (hData ▸ List.mem_cons_self)
      cases hReceived
      -- The event is recorded first: the new entry of `requests_` refers to it.
      have hRecorded : Provenance parties (s.record [.requestTaken v (headerOf pub.key) message]) :=
        hInv.record hInv.paired
      have hPopped := (hRecorded.services v).pop hData
      apply hRecorded.setService
      refine ⟨hPopped.queued, ?_, hPopped.answered⟩
      intro header kept hKept
      rcases Requests.getElem?_insertIfNew hKept with hBefore | ⟨hKey, hPub⟩
      · exact hPopped.kept header kept hBefore
      · cases hPub
        refine ⟨(RmwRequestId.bytes_injective hKey).symm, payload, message, ?_, hDecode, ?_⟩
        · exact hPublished.mono (List.subset_append_right _ _)
        · exact List.mem_cons_self

theorem Provenance.takeResponse [DpsCbor.Lawful] [DpsCbor.Exact] [DecidableEq ι]
    (hInv : Provenance parties s) : Provenance parties (s.takeResponse parties c) := by
  have hOutcome := rmwTakeResponse_outcome (parties.client c) (s.clients c).listener
  have hClient := hInv.clients c
  unfold CallState.takeResponse
  generalize Api.exec (rmwTakeResponse (parties.client c)) (s.clients c).listener = outcome
    at hOutcome ⊢
  cases hOutcome with
  | nothing hTaken =>
      dsimp only
      rw [Event.ofTaken_of_not_taken _ hTaken]
      exact (hInv.setClient hClient).record hInv.paired
  | dropped hData =>
      apply Provenance.record
      · apply hInv.setClient
        intro data hMem
        exact hClient data (hData ▸ List.mem_cons_of_mem _ hMem)
      · exact hInv.paired
  | @taken pub buffer rest message hData hDecode =>
      obtain ⟨pub, v, payload, hReceived, hUuid, hAnswered⟩ :=
        hClient _ (hData ▸ List.mem_cons_self)
      cases hReceived
      -- The header is made from the acknowledged publication, so it names this client.
      have hHeader : responseHeader (some pub) = headerOf (parties.uuid c, pub.ackSequenceNum) := by
        rw [responseHeader_eq, hUuid]
      dsimp only
      rw [hHeader]
      apply Provenance.record
      · apply hInv.setClient
        intro data hMem
        exact hClient data (hData ▸ List.mem_cons_of_mem _ hMem)
      · exact ⟨responsePaired_of_answered hAnswered hDecode, hInv.paired⟩

theorem Provenance.sendResponse [DecidableEq κ] (hInv : Provenance parties s) {status : DpsStatus}
    {header : RmwRequestId} {rosResponse : RosMessage} :
    Provenance parties (s.sendResponse parties v status header rosResponse) := by
  have hOutcome :=
    rmwSendResponse_outcome (parties.service v) status header rosResponse (s.services v)
  have hService := hInv.services v
  unfold CallState.sendResponse
  generalize Api.exec (rmwSendResponse (parties.service v) status header rosResponse)
    (s.services v) = outcome at hOutcome ⊢
  cases hOutcome with
  | refused hRet => exact (hInv.setService hService).record hInv.paired
  | thrown hFound =>
      apply Provenance.record
      · apply hInv.setService
        -- The exception leaves a null entry behind, which is no publication.
        refine ⟨hService.queued, ?_, hService.answered⟩
        intro other kept hKept
        rcases Requests.getElem?_insert hKept with hBefore | ⟨_, hNull⟩
        · exact hService.kept other kept hBefore
        · cases hNull
      · exact hInv.paired
  | failed hFound hRet =>
      apply Provenance.record
      · apply hInv.setService
        refine ⟨hService.queued, ?_, hService.answered⟩
        intro other kept hKept
        exact hService.kept other kept (Requests.getElem?_erase hKept).1
      · exact hInv.paired
  | @acknowledged pub ser hFound hSerialize =>
      -- The acknowledgement refers to this response, so it is recorded first.
      have hRecorded : Provenance parties (s.record [.responded v header rosResponse
          (if status = .ok then .ok else .error "cannot send response")]) :=
        hInv.record hInv.paired
      apply hRecorded.setService
      have hRecordedService := hRecorded.services v
      refine ⟨hRecordedService.queued, ?_, ?_⟩
      · intro other kept hKept
        exact hRecordedService.kept other kept (Requests.getElem?_erase hKept).1
      · intro call hCall acked hAcked hStatus
        rcases List.mem_cons.mp hCall with rfl | hBefore
        · cases hAcked
          obtain ⟨rfl, hTaken⟩ := hRecordedService.kept header acked hFound
          refine ⟨hTaken, rosResponse, ser, ?_, hSerialize, rfl⟩
          rw [if_pos hStatus]
          exact List.mem_cons_self
        · exact hRecordedService.answered call hBefore acked hAcked hStatus

theorem Provenance.step [DpsCbor.Lawful] [DpsCbor.Exact] [DecidableEq ι] [DecidableEq κ]
    (hInv : Provenance parties s)
    (hStep : CallStep parties s s') : Provenance parties s' := by
  cases hStep with
  | publish _ hRequest _ => exact hInv.publish hRequest
  | returnSent _ =>
      apply Provenance.record
      · apply hInv.setClient
        exact hInv.clients _
      · exact hInv.paired
  | deliverRequest hRequest _ hUuid hNumber => exact hInv.deliverRequest hRequest hUuid hNumber
  | takeRequest => exact hInv.takeRequest
  | sendResponse => exact hInv.sendResponse
  | deliverAck hCall hStatus hAcked hClient hUuid hNumber =>
      exact hInv.deliverAck hCall hStatus hAcked hClient hUuid hNumber
  | takeResponse => exact hInv.takeResponse

end Steps

end Messaging
end RmwDps
