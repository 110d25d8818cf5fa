import RmwDps.Messaging.Listener
import RmwDps.Foundation.Rfc7049

/-!
# Taking messages, requests and responses

`rmw_take` and its relatives, and the two send functions of a service call.
The handles are those of the caller; pointers to results are not null.
-/

namespace RmwDps
namespace Messaging

open Serialization

/-! ## Subscriptions -/

/-- `CustomSubscriberInfo` without its listener, which is the state that the take
functions change. -/
structure CustomSubscriberInfo where
  typeSupport : MessageTypeSupport

/-- `rmw_subscription_t`. -/
structure RmwSubscription where
  implementationIdentifier : String
  data : Option CustomSubscriberInfo

/-- `publisher_gid` in `rmw_message_info_t`. -/
structure RmwGid where
  implementationIdentifier : String
  data : List UInt8
  deriving DecidableEq, Repr

/-- `RMW_GID_STORAGE_SIZE`. -/
def rmwGidStorageSize : Nat := 24

/-- `_assign_message_info`. -/
def assignMessageInfo (pub : Publication) : RmwGid where
  implementationIdentifier := intelDpsIdentifier
  data :=
    match pub with
    | some pub => pub.uuid.toList ++ List.replicate (rmwGidStorageSize - 16) 0
    | none => List.replicate rmwGidStorageSize 0

/-- The results of a take function: its return value, `*taken`, the message, and the
header or the message info. -/
structure TakeResult (info : Type) where
  ret : RmwRet
  taken : Bool
  message : Option RosMessage
  info : Option info

/-- An early return, with `*taken` as it was set first. -/
def TakeResult.failed {info : Type} (message : String) : TakeResult info :=
  { ret := .error message, taken := false, message := none, info := none }

/-- The return when there was no data. -/
def TakeResult.nothing {info : Type} : TakeResult info :=
  { ret := .ok, taken := false, message := none, info := none }

section Take

variable [DpsCbor] [Platform]

/-- `_take`. -/
def take (subscription : RmwSubscription) (withInfo : Bool) : Api Listener (TakeResult RmwGid) :=
  if subscription.implementationIdentifier ≠ intelDpsIdentifier then
    return .failed "publisher handle not from this implementation"
  else
    match subscription.data with
    | none => return .failed "custom subscriber info is null"
    | some info => do
        match ← Listener.takeNextData with
        | none => return .nothing
        | some (pub, buffer) =>
            -- The value that `_deserialize_ros_message` returns is not looked at.
            let message ← Api.lift (deserializeRosMessage buffer info.typeSupport)
            return {
              ret := .ok
              taken := true
              message
              info := if withInfo then some (assignMessageInfo pub) else none }

/-- `rmw_take`. -/
def rmwTake (subscription : Option RmwSubscription) : Api Listener (TakeResult RmwGid) :=
  match subscription with
  | none => return .failed "subscription pointer is null"
  | some subscription => take subscription false

/-- `rmw_take_with_info`. -/
def rmwTakeWithInfo (subscription : Option RmwSubscription) : Api Listener (TakeResult RmwGid) :=
  match subscription with
  | none => return .failed "subscription pointer is null"
  | some subscription => take subscription true

end Take

/-! ## Requests -/

/-- `rmw_request_id_t`. -/
structure RmwRequestId where
  writerGuid : DpsUuid
  sequenceNumber : Int64
  deriving DecidableEq, Repr

/-- The memory of a header, little end first. -/
def RmwRequestId.bytes (header : RmwRequestId) : List UInt8 :=
  header.writerGuid.toList ++
    (Rfc7049.beBytes 8 header.sequenceNumber.toUInt64.toNat).reverse

/-- `requests_`, a map ordered by `memcmp` on the memory of the headers. -/
abbrev Requests := Std.ExtTreeMap (List UInt8) Publication compare

section Requests

variable {requests : Requests} {key other : List UInt8} {pub entry : Publication}

/-- `emplace` adds its entry or nothing. -/
theorem Requests.getElem?_insertIfNew
    (hEntry : (requests.insertIfNew key pub)[other]? = some entry) :
    requests[other]? = some entry ∨ key = other ∧ entry = pub := by
  rw [Std.ExtTreeMap.getElem?_insertIfNew] at hEntry
  split at hEntry
  · rename_i hNew
    exact .inr ⟨Std.LawfulEqCmp.eq_of_compare hNew.1, (Option.some.inj hEntry).symm⟩
  · exact .inl hEntry

theorem Requests.getElem?_insert (hEntry : (requests.insert key pub)[other]? = some entry) :
    requests[other]? = some entry ∨ key = other ∧ entry = pub := by
  rw [Std.ExtTreeMap.getElem?_insert] at hEntry
  split at hEntry
  · rename_i hSame
    exact .inr ⟨Std.LawfulEqCmp.eq_of_compare hSame, (Option.some.inj hEntry).symm⟩
  · exact .inl hEntry

theorem Requests.getElem?_erase (hEntry : (requests.erase key)[other]? = some entry) :
    requests[other]? = some entry ∧ key ≠ other := by
  rw [Std.ExtTreeMap.getElem?_erase] at hEntry
  split at hEntry
  · cases hEntry
  · rename_i hNe
    refine ⟨hEntry, ?_⟩
    rintro rfl
    exact hNe Std.ReflCmp.compare_self

end Requests

/-- What `std::move` leaves in the entry is erased with it. -/
theorem Requests.erase_insert (requests : Requests) (key : List UInt8) (pub : Publication) :
    (requests.insert key pub).erase key = requests.erase key := by
  apply Std.ExtTreeMap.ext_getElem?
  intro other
  rw [Std.ExtTreeMap.getElem?_erase, Std.ExtTreeMap.getElem?_erase]
  split
  · rfl
  · rename_i hNe
    rw [Std.ExtTreeMap.getElem?_insert, if_neg hNe]

/-- `writer_guid` of a header: the uuid of the publication, or zeros. -/
def writerGuid (pub : Publication) : DpsUuid :=
  match pub with
  | some pub => pub.uuid
  | none => Vector.replicate 16 0

/-- `DPS_PublicationGetSequenceNum`, which is 0 for null. -/
def publicationGetSequenceNum (pub : Publication) : UInt32 :=
  (pub.map DpsPublication.sequenceNum).getD 0

/-- `DPS_AckGetSequenceNum`, which is 0 for null. -/
def ackGetSequenceNum (pub : Publication) : UInt32 :=
  (pub.map DpsPublication.ackSequenceNum).getD 0

/-- The header that a request gets from its publication. -/
def requestHeader (pub : Publication) : RmwRequestId where
  writerGuid := writerGuid pub
  sequenceNumber := (publicationGetSequenceNum pub).toNat.toInt64

/-- The header that a response gets from its publication. -/
def responseHeader (pub : Publication) : RmwRequestId where
  writerGuid := writerGuid pub
  sequenceNumber := (ackGetSequenceNum pub).toNat.toInt64

/-- `CustomServiceInfo` without its mutable part. -/
structure CustomServiceInfo where
  requestTypeSupport : MessageTypeSupport
  responseTypeSupport : MessageTypeSupport

/-- A call of `DPS_AckPublication` and the status it returned. -/
structure AckCall where
  pub : Publication
  payload : List UInt8
  status : DpsStatus
  deriving DecidableEq, Repr

/-- The mutable part of `CustomServiceInfo`.  `acks` is a record of the run: the
acknowledgements that the service has handed to DPS, the last first. -/
structure ServiceState where
  listener : Listener
  requests : Requests
  acks : List AckCall

/-- `rmw_service_t`. -/
structure RmwService where
  implementationIdentifier : String
  data : CustomServiceInfo

/-- `CustomClientInfo` without its listener and publication. -/
structure CustomClientInfo where
  requestTypeSupport : MessageTypeSupport
  responseTypeSupport : MessageTypeSupport

/-- `rmw_client_t`. -/
structure RmwClient where
  implementationIdentifier : String
  data : CustomClientInfo

/-- A function on the listener of a service. -/
def ServiceState.onListener {α : Type} (function : Api Listener α) : Api ServiceState α :=
  ExceptT.mk fun state =>
    let (result, listener) := Api.exec function state.listener
    (result, { state with listener })

theorem ServiceState.exec_onListener {α : Type} (function : Api Listener α)
    (state : ServiceState) :
    Api.exec (ServiceState.onListener function) state =
      ((Api.exec function state.listener).1,
        { state with listener := (Api.exec function state.listener).2 }) := rfl

/-- `requests_.emplace(header, pub)`, which keeps the entry of a header that is there. -/
def ServiceState.emplace (header : RmwRequestId) (pub : Publication) : Api ServiceState Unit :=
  modify fun state => { state with requests := state.requests.insertIfNew header.bytes pub }

/-! The handles of entities of a package. -/

def subscriptionOf (μ : MembersType) (members : MessageMembers) : RmwSubscription where
  implementationIdentifier := intelDpsIdentifier
  data := some { typeSupport := .of μ members }

def serviceOf (μ : MembersType) (requestMembers responseMembers : MessageMembers) :
    RmwService where
  implementationIdentifier := intelDpsIdentifier
  data := {
    requestTypeSupport := .of μ requestMembers
    responseTypeSupport := .of μ responseMembers }

def clientOf (μ : MembersType) (requestMembers responseMembers : MessageMembers) : RmwClient where
  implementationIdentifier := intelDpsIdentifier
  data := {
    requestTypeSupport := .of μ requestMembers
    responseTypeSupport := .of μ responseMembers }

section Service

variable [DpsCbor] [Platform]

/-- `rmw_take_request`. -/
def rmwTakeRequest (service : RmwService) : Api ServiceState (TakeResult RmwRequestId) :=
  if service.implementationIdentifier ≠ intelDpsIdentifier then
    return .failed "publisher handle not from this implementation"
  else do
    match ← ServiceState.onListener Listener.takeNextData with
    | none => return .nothing
    | some (pub, buffer) =>
        let message ← Api.lift (deserializeRosMessage buffer service.data.requestTypeSupport)
        ServiceState.emplace (requestHeader pub) pub
        return { ret := .ok, taken := true, message, info := some (requestHeader pub) }

/-- `rmw_take_response`. -/
def rmwTakeResponse (client : RmwClient) : Api Listener (TakeResult RmwRequestId) :=
  if client.implementationIdentifier ≠ intelDpsIdentifier then
    return .failed "publisher handle not from this implementation"
  else do
    match ← Listener.takeNextData with
    | none => return .nothing
    | some (pub, buffer) =>
        let message ← Api.lift (deserializeRosMessage buffer client.data.responseTypeSupport)
        return { ret := .ok, taken := true, message, info := some (responseHeader pub) }

/-! ## Sending -/

/-- What `rmw_send_request` comes to before `publish` returns. -/
inductive SendRequest
  | returns (ret : RmwRet)
  | publishes (payload : List UInt8)
  deriving DecidableEq, Repr

/-- `rmw_send_request` up to `publish`, which blocks until DPS has published. -/
def rmwSendRequest (client : RmwClient) (rosRequest : RosMessage) : Except Fault SendRequest :=
  if client.implementationIdentifier ≠ intelDpsIdentifier then
    return .returns (.error "node handle not from this implementation")
  else do
    let (ok, ser) ← serializeRosMessage rosRequest TxStream.new client.data.requestTypeSupport
    if ok then return .publishes ser.data
    else return .returns (.error "cannot serialize data")

/-- `rmw_send_request` from where `publish` returns: its return value and `*sequence_id`,
which is read from the publication then. -/
def rmwSendRequestPublished (status : DpsStatus) (requestPublication : Publication) :
    RmwRet × Option Int64 :=
  if status = .ok then
    (.ok, some (publicationGetSequenceNum requestPublication).toNat.toInt64)
  else (.error "cannot publish data - %s", none)

/-- `DPS_AckPublication`, with the status that it returns. -/
def ServiceState.ackPublication (status : DpsStatus) (pub : Publication) (payload : List UInt8) :
    Api ServiceState Unit :=
  modify fun state => { state with acks := { pub, payload, status } :: state.acks }

def ServiceState.setRequest (header : RmwRequestId) (pub : Publication) : Api ServiceState Unit :=
  modify fun state => { state with requests := state.requests.insert header.bytes pub }

def ServiceState.eraseRequest (header : RmwRequestId) : Api ServiceState Unit :=
  modify fun state => { state with requests := state.requests.erase header.bytes }

/-- `rmw_send_response`; `status` is what `DPS_AckPublication` returns. -/
def rmwSendResponse (service : RmwService) (status : DpsStatus) (requestHeader : RmwRequestId)
    (rosResponse : RosMessage) : Api ServiceState RmwRet :=
  if service.implementationIdentifier ≠ intelDpsIdentifier then
    return .error "service handle not from this implementation"
  else do
    match (← get).requests[requestHeader.bytes]? with
    | none => return .error "cannot find request"
    | some pub =>
        -- `std::move` leaves a null pointer in the entry.
        ServiceState.setRequest requestHeader none
        let (ok, ser) ← Api.lift
          (serializeRosMessage rosResponse TxStream.new service.data.responseTypeSupport)
        if ok then
          ServiceState.ackPublication status pub ser.data
          ServiceState.eraseRequest requestHeader
          return if status = .ok then .ok else .error "cannot send response"
        else
          ServiceState.eraseRequest requestHeader
          return .error "cannot serialize data"

end Service

/-! ## What the functions do with the state -/

section Specs

variable [DpsCbor] [Platform] {pub : Publication} {buffer : RxStream} {rest : List Data}

theorem exec_take {subscription : RmwSubscription} {info : CustomSubscriberInfo}
    (hIdentifier : subscription.implementationIdentifier = intelDpsIdentifier)
    (hInfo : subscription.data = some info) (withInfo : Bool) {listener : Listener}
    (hData : listener.data = (pub, buffer) :: rest) :
    Api.exec (take subscription withInfo) listener =
      ((deserializeRosMessage buffer info.typeSupport).map fun message => {
          ret := .ok
          taken := true
          message
          info := if withInfo then some (assignMessageInfo pub) else none },
        { listener with data := rest }) := by
  unfold take
  rw [if_neg (not_not.mpr hIdentifier), hInfo]
  dsimp only
  rw [Api.exec_bind, Listener.exec_takeNextData_cons hData]
  dsimp only
  rw [Api.exec_bind, Api.exec_lift]
  cases deserializeRosMessage buffer info.typeSupport <;> rfl

theorem exec_rmwTakeResponse {client : RmwClient}
    (hIdentifier : client.implementationIdentifier = intelDpsIdentifier) {listener : Listener}
    (hData : listener.data = (pub, buffer) :: rest) :
    Api.exec (rmwTakeResponse client) listener =
      ((deserializeRosMessage buffer client.data.responseTypeSupport).map fun message => {
          ret := .ok
          taken := true
          message
          info := some (responseHeader pub) },
        { listener with data := rest }) := by
  unfold rmwTakeResponse
  rw [if_neg (not_not.mpr hIdentifier), Api.exec_bind, Listener.exec_takeNextData_cons hData]
  dsimp only
  rw [Api.exec_bind, Api.exec_lift]
  cases deserializeRosMessage buffer client.data.responseTypeSupport <;> rfl

theorem exec_rmwTakeRequest {service : RmwService}
    (hIdentifier : service.implementationIdentifier = intelDpsIdentifier) {state : ServiceState}
    (hData : state.listener.data = (pub, buffer) :: rest) :
    Api.exec (rmwTakeRequest service) state =
      match deserializeRosMessage buffer service.data.requestTypeSupport with
      | .ok message =>
          (.ok { ret := .ok, taken := true, message, info := some (requestHeader pub) },
            { state with
              listener := { state.listener with data := rest }
              requests := state.requests.insertIfNew (requestHeader pub).bytes pub })
      | .error fault =>
          (.error fault, { state with listener := { state.listener with data := rest } }) := by
  have hPop : Api.exec (ServiceState.onListener Listener.takeNextData) state =
      (.ok (some (pub, buffer)),
        { state with listener := { state.listener with data := rest } }) := by
    rw [ServiceState.exec_onListener, Listener.exec_takeNextData_cons hData]
  unfold rmwTakeRequest
  rw [if_neg (not_not.mpr hIdentifier), Api.exec_bind, hPop]
  dsimp only
  rw [Api.exec_bind, Api.exec_lift]
  cases deserializeRosMessage buffer service.data.requestTypeSupport <;> rfl

/-- The call finds its request, for a handle of this implementation. -/
def FindsRequest (service : RmwService) (header : RmwRequestId) (state : ServiceState)
    (entry : Publication) : Prop :=
  service.implementationIdentifier = intelDpsIdentifier ∧
    state.requests[header.bytes]? = some entry

theorem exec_rmwSendResponse {service : RmwService} {header : RmwRequestId} {state : ServiceState}
    (hFinds : FindsRequest service header state pub) (status : DpsStatus)
    (rosResponse : RosMessage) :
    Api.exec (rmwSendResponse service status header rosResponse) state =
      match serializeRosMessage rosResponse TxStream.new service.data.responseTypeSupport with
      | .ok (true, ser) =>
          (.ok (if status = .ok then .ok else .error "cannot send response"),
            { state with
              requests := state.requests.erase header.bytes
              acks := { pub, payload := ser.data, status } :: state.acks })
      | .ok (false, _) =>
          (.ok (.error "cannot serialize data"),
            { state with requests := state.requests.erase header.bytes })
      | .error fault =>
          (.error fault, { state with requests := state.requests.insert header.bytes none }) := by
  unfold rmwSendResponse
  rw [if_neg (not_not.mpr hFinds.1), Api.exec_bind, Api.exec_get]
  dsimp only
  rw [hFinds.2]
  -- The publication is moved out of the map at once, and the entry erased at the end.
  dsimp only [ServiceState.setRequest]
  rw [Api.exec_bind, Api.exec_modify]
  dsimp only
  rw [Api.exec_bind, Api.exec_lift, ← Requests.erase_insert state.requests header.bytes none]
  rcases serializeRosMessage rosResponse TxStream.new service.data.responseTypeSupport with
    fault | ⟨ok, ser⟩
  · rfl
  · cases ok <;> rfl

theorem exec_rmwSendResponse_of_not_finds {service : RmwService} {header : RmwRequestId}
    {state : ServiceState} (hFinds : ∀ entry, ¬ FindsRequest service header state entry)
    (status : DpsStatus) (rosResponse : RosMessage) :
    ∃ message, Api.exec (rmwSendResponse service status header rosResponse) state =
      (.ok (.error message), state) := by
  unfold rmwSendResponse
  by_cases hIdentifier : service.implementationIdentifier = intelDpsIdentifier
  · rw [if_neg (not_not.mpr hIdentifier), Api.exec_bind, Api.exec_get]
    dsimp only
    cases hFound : state.requests[header.bytes]? with
    | none => exact ⟨_, rfl⟩
    | some entry => exact absurd ⟨hIdentifier, hFound⟩ (hFinds entry)
  · rw [if_pos hIdentifier]
    exact ⟨_, rfl⟩

end Specs

end Messaging
end RmwDps
