import RmwDps.Messaging.Take
import RmwDps.Foundation.Transition

/-!
# Service calls

Clients, services, and DPS between them.  A request is a publication; DPS numbers
it, and carries it to any of the services at most once.  A response is the
acknowledgement of a publication, which DPS carries to the publication with the
acknowledged number.

`rmw_send_request` is two steps, since it blocks inside `publish`; every other
function is one.
-/

namespace RmwDps
namespace Messaging

open Serialization
open Transition (Machine)

/-! ## Outcomes of the functions -/

section Outcomes

variable [DpsCbor] [Platform]

/-- What `rmw_take_request` can come to: nothing is taken, the payload is dropped by an
exception, or the request is taken and kept. -/
inductive TakeRequestOutcome (service : RmwService) (state : ServiceState) :
    Except Fault (TakeResult RmwRequestId) × ServiceState → Prop
  | nothing {result : TakeResult RmwRequestId} (hTaken : result.taken = false) :
      TakeRequestOutcome service state (.ok result, state)
  | dropped {data : Data} {rest : List Data} {fault : Fault}
      (hData : state.listener.data = data :: rest) :
      TakeRequestOutcome service state
        (.error fault, { state with listener := { state.listener with data := rest } })
  | taken {pub : Publication} {buffer : RxStream} {rest : List Data} {message : Option RosMessage}
      (hData : state.listener.data = (pub, buffer) :: rest)
      (hDecode : deserializeRosMessage buffer service.data.requestTypeSupport = .ok message) :
      TakeRequestOutcome service state
        (.ok { ret := .ok, taken := true, message, info := some (requestHeader pub) },
          { state with
            listener := { state.listener with data := rest }
            requests := state.requests.insertIfNew (requestHeader pub).bytes pub })

theorem rmwTakeRequest_outcome (service : RmwService) (state : ServiceState) :
    TakeRequestOutcome service state (Api.exec (rmwTakeRequest service) state) := by
  by_cases hIdentifier : service.implementationIdentifier = intelDpsIdentifier
  · cases hData : state.listener.data with
    | nil =>
        have hPop : Api.exec (ServiceState.onListener Listener.takeNextData) state =
            (.ok none, state) := by
          rw [ServiceState.exec_onListener, Listener.exec_takeNextData_nil hData]
        have hRun : Api.exec (rmwTakeRequest service) state = (.ok .nothing, state) := by
          unfold rmwTakeRequest
          rw [if_neg (not_not.mpr hIdentifier), Api.exec_bind, hPop]
          rfl
        rw [hRun]
        exact .nothing rfl
    | cons data rest =>
        -- The data is popped before it is decoded, so a payload that throws is lost.
        rw [exec_rmwTakeRequest hIdentifier hData]
        cases hDecode : deserializeRosMessage data.2 service.data.requestTypeSupport with
        | error fault => exact .dropped hData
        | ok message => exact .taken hData hDecode
  · have hRun : Api.exec (rmwTakeRequest service) state =
        (.ok (.failed "publisher handle not from this implementation"), state) := by
      unfold rmwTakeRequest
      rw [if_pos hIdentifier, Api.exec_pure]
    rw [hRun]
    exact .nothing rfl

/-- The same for `rmw_take_response`, on the listener of the client. -/
inductive TakeResponseOutcome (client : RmwClient) (listener : Listener) :
    Except Fault (TakeResult RmwRequestId) × Listener → Prop
  | nothing {result : TakeResult RmwRequestId} (hTaken : result.taken = false) :
      TakeResponseOutcome client listener (.ok result, listener)
  | dropped {data : Data} {rest : List Data} {fault : Fault}
      (hData : listener.data = data :: rest) :
      TakeResponseOutcome client listener (.error fault, { listener with data := rest })
  | taken {pub : Publication} {buffer : RxStream} {rest : List Data} {message : Option RosMessage}
      (hData : listener.data = (pub, buffer) :: rest)
      (hDecode : deserializeRosMessage buffer client.data.responseTypeSupport = .ok message) :
      TakeResponseOutcome client listener
        (.ok { ret := .ok, taken := true, message, info := some (responseHeader pub) },
          { listener with data := rest })

theorem rmwTakeResponse_outcome (client : RmwClient) (listener : Listener) :
    TakeResponseOutcome client listener (Api.exec (rmwTakeResponse client) listener) := by
  by_cases hIdentifier : client.implementationIdentifier = intelDpsIdentifier
  · cases hData : listener.data with
    | nil =>
        have hRun : Api.exec (rmwTakeResponse client) listener = (.ok .nothing, listener) := by
          unfold rmwTakeResponse
          rw [if_neg (not_not.mpr hIdentifier), Api.exec_bind,
            Listener.exec_takeNextData_nil hData]
          rfl
        rw [hRun]
        exact .nothing rfl
    | cons data rest =>
        rw [exec_rmwTakeResponse hIdentifier hData]
        cases hDecode : deserializeRosMessage data.2 client.data.responseTypeSupport with
        | error fault => exact .dropped hData
        | ok message => exact .taken hData hDecode
  · have hRun : Api.exec (rmwTakeResponse client) listener =
        (.ok (.failed "publisher handle not from this implementation"), listener) := by
      unfold rmwTakeResponse
      rw [if_pos hIdentifier, Api.exec_pure]
    rw [hRun]
    exact .nothing rfl

/-- What `rmw_send_response` can come to: it does not find the request, the serialization
throws and leaves a null pointer in the entry, it fails, or the request is acknowledged.  The
last two take the entry out. -/
inductive SendResponseOutcome (service : RmwService) (status : DpsStatus) (header : RmwRequestId)
    (rosResponse : RosMessage) (state : ServiceState) : Except Fault RmwRet × ServiceState → Prop
  | refused {ret : RmwRet} (hRet : ret ≠ .ok) :
      SendResponseOutcome service status header rosResponse state (.ok ret, state)
  | thrown {pub : Publication} {fault : Fault}
      (hFound : state.requests[header.bytes]? = some pub) :
      SendResponseOutcome service status header rosResponse state
        (.error fault, { state with requests := state.requests.insert header.bytes none })
  | failed {pub : Publication} {ret : RmwRet} (hFound : state.requests[header.bytes]? = some pub)
      (hRet : ret ≠ .ok) :
      SendResponseOutcome service status header rosResponse state
        (.ok ret, { state with requests := state.requests.erase header.bytes })
  | acknowledged {pub : Publication} {ser : TxStream}
      (hFound : state.requests[header.bytes]? = some pub)
      (hSerialize : serializeRosMessage rosResponse TxStream.new
        service.data.responseTypeSupport = .ok (true, ser)) :
      SendResponseOutcome service status header rosResponse state
        (.ok (if status = .ok then .ok else .error "cannot send response"),
          { state with
            requests := state.requests.erase header.bytes
            acks := { pub, payload := ser.data, status } :: state.acks })

theorem rmwSendResponse_outcome (service : RmwService) (status : DpsStatus)
    (header : RmwRequestId) (rosResponse : RosMessage) (state : ServiceState) :
    SendResponseOutcome service status header rosResponse state
      (Api.exec (rmwSendResponse service status header rosResponse) state) := by
  by_cases hFinds : ∃ pub, FindsRequest service header state pub
  · obtain ⟨pub, hPub⟩ := hFinds
    rw [exec_rmwSendResponse hPub]
    cases hSerialize : serializeRosMessage rosResponse TxStream.new
        service.data.responseTypeSupport with
    | error fault => exact .thrown hPub.2
    | ok written =>
        obtain ⟨ok, ser⟩ := written
        cases ok with
        | false => exact .failed hPub.2 (by simp)
        | true => exact .acknowledged hPub.2 hSerialize
  · obtain ⟨message, hRun⟩ :=
      exec_rmwSendResponse_of_not_finds (not_exists.mp hFinds) status rosResponse
    rw [hRun]
    exact .refused (by simp)

end Outcomes

/-! ## The machine -/

/-- The clients with the uuids of their publications, and the services. -/
structure Parties (ι κ : Type) where
  client : ι → RmwClient
  uuid : ι → DpsUuid
  uuid_injective : Function.Injective uuid
  service : κ → RmwService

/-- A client: the sequence number of `request_publication_`, the listener, and the number
of the request that an `rmw_send_request` which has not returned has published. -/
structure ClientState where
  sequenceNum : UInt32
  listener : Listener
  sending : Option UInt32

/-- A request that DPS carries. -/
structure Request (ι : Type) where
  client : ι
  sequenceNum : UInt32
  payload : List UInt8

/-- What the calls did, in the order in which they did it. -/
inductive Event (ι κ : Type)
  /-- Inside `rmw_send_request`, the request was published under a number. -/
  | published (c : ι) (sequenceNum : UInt32) (rosRequest : RosMessage)
  /-- The `rmw_send_request` that published under the number returned. -/
  | sent (c : ι) (sequenceNum : UInt32) (ret : RmwRet) (sequenceId : Option Int64)
  | requestTaken (v : κ) (header : RmwRequestId) (rosRequest : Option RosMessage)
  | responded (v : κ) (header : RmwRequestId) (rosResponse : RosMessage) (ret : RmwRet)
  | responseTaken (c : ι) (header : RmwRequestId) (rosResponse : Option RosMessage)

/-- The event of a take function, if it has taken something. -/
def Event.ofTaken {ι κ : Type} (event : RmwRequestId → Option RosMessage → Event ι κ) :
    Except Fault (TakeResult RmwRequestId) → List (Event ι κ)
  | .ok { taken := true, info := some header, message, .. } => [event header message]
  | _ => []

theorem Event.ofTaken_of_not_taken {ι κ : Type}
    (event : RmwRequestId → Option RosMessage → Event ι κ) {result : TakeResult RmwRequestId}
    (hTaken : result.taken = false) : Event.ofTaken event (.ok result) = [] := by
  obtain ⟨ret, taken, message, info⟩ := result
  subst hTaken
  rfl

/-- The event of `rmw_send_response`, if it has returned. -/
def Event.ofResponded {ι κ : Type} (v : κ) (header : RmwRequestId) (rosResponse : RosMessage) :
    Except Fault RmwRet → List (Event ι κ)
  | .ok ret => [.responded v header rosResponse ret]
  | .error _ => []

/-- `requests` are those that DPS carries, and `delivered` says which it has brought to
which service.  `history` is a record of the run, the last event first. -/
structure CallState (ι κ : Type) where
  clients : ι → ClientState
  services : κ → ServiceState
  requests : List (Request ι)
  delivered : List (κ × ι × UInt32)
  history : List (Event ι κ)

section Machine

variable [DpsCbor] [Platform] {ι κ : Type} [DecidableEq ι] [DecidableEq κ]

namespace CallState

def setClient (s : CallState ι κ) (c : ι) (client : ClientState) : CallState ι κ :=
  { s with clients := Function.update s.clients c client }

def setService (s : CallState ι κ) (v : κ) (service : ServiceState) : CallState ι κ :=
  { s with services := Function.update s.services v service }

def record (s : CallState ι κ) (events : List (Event ι κ)) : CallState ι κ :=
  { s with history := events ++ s.history }

/-- `publish` inside `rmw_send_request`: DPS numbers the request, and carries it or not. -/
def publish (s : CallState ι κ) (c : ι) (rosRequest : RosMessage) (payload : List UInt8)
    (carried : Bool) : CallState ι κ :=
  let sequenceNum := (s.clients c).sequenceNum + 1
  { (s.setClient c { s.clients c with sequenceNum, sending := some sequenceNum }).record
      [.published c sequenceNum rosRequest] with
    requests :=
      if carried then { client := c, sequenceNum, payload } :: s.requests else s.requests }

/-- `rmw_send_request` returns. -/
def returnSent (s : CallState ι κ) (parties : Parties ι κ) (c : ι) (sequenceNum : UInt32)
    (status : DpsStatus) : CallState ι κ :=
  let pub : DpsPublication :=
    { uuid := parties.uuid c, sequenceNum := (s.clients c).sequenceNum, ackSequenceNum := 0 }
  let (ret, sequenceId) := rmwSendRequestPublished status (some pub)
  (s.setClient c { s.clients c with sending := none }).record [.sent c sequenceNum ret sequenceId]

/-- `onPublication` for a request. -/
def deliverRequest (s : CallState ι κ) (v : κ) (request : Request ι) (pub : DpsPublication) :
    CallState ι κ :=
  { s.setService v { s.services v with
      listener := (s.services v).listener.push (Listener.received pub request.payload) } with
    delivered := (v, request.client, request.sequenceNum) :: s.delivered }

def takeRequest (s : CallState ι κ) (parties : Parties ι κ) (v : κ) : CallState ι κ :=
  let (result, service) := Api.exec (rmwTakeRequest (parties.service v)) (s.services v)
  (s.setService v service).record (Event.ofTaken (.requestTaken v) result)

def sendResponse (s : CallState ι κ) (parties : Parties ι κ) (v : κ) (status : DpsStatus)
    (header : RmwRequestId) (rosResponse : RosMessage) : CallState ι κ :=
  let (result, service) :=
    Api.exec (rmwSendResponse (parties.service v) status header rosResponse) (s.services v)
  (s.setService v service).record (Event.ofResponded v header rosResponse result)

/-- `onAcknowledgement` for a response. -/
def deliverAck (s : CallState ι κ) (c : ι) (pub : DpsPublication) (payload : List UInt8) :
    CallState ι κ :=
  s.setClient c { s.clients c with
    listener := (s.clients c).listener.push (Listener.received pub payload) }

def takeResponse (s : CallState ι κ) (parties : Parties ι κ) (c : ι) : CallState ι κ :=
  let (result, listener) :=
    Api.exec (rmwTakeResponse (parties.client c)) (s.clients c).listener
  (s.setClient c { s.clients c with listener }).record (Event.ofTaken (.responseTaken c) result)

end CallState

section Updates

omit [DpsCbor] [Platform]

variable {s : CallState ι κ} {c other : ι} {client : ClientState} {v w : κ} {service : ServiceState}

omit [DecidableEq κ] in
@[simp] theorem CallState.clients_setClient_self : (s.setClient c client).clients c = client :=
  Function.update_self ..

omit [DecidableEq κ] in
theorem CallState.clients_setClient_of_ne (hNe : other ≠ c) :
    (s.setClient c client).clients other = s.clients other :=
  Function.update_of_ne hNe _ _

omit [DecidableEq ι] in
@[simp] theorem CallState.services_setService_self :
    (s.setService v service).services v = service :=
  Function.update_self ..

omit [DecidableEq ι] in
theorem CallState.services_setService_of_ne (hNe : w ≠ v) :
    (s.setService v service).services w = s.services w :=
  Function.update_of_ne hNe _ _

end Updates

/-- The steps.  What is assumed of DPS is in `publish` (a number per publication, which does
not wrap), `deliverRequest` (at most once for each service, with the publication of the
request) and `deliverAck` (to the acknowledged publication, with the acknowledged number).
DPS may lose messages and change their order. -/
inductive CallStep (parties : Parties ι κ) : CallState ι κ → CallState ι κ → Prop
  | publish {s : CallState ι κ} {c : ι} {rosRequest : RosMessage} {payload : List UInt8}
      {carried : Bool} (hIdle : (s.clients c).sending = none)
      (hRequest : rmwSendRequest (parties.client c) rosRequest = .ok (.publishes payload))
      (hNoWrap : (s.clients c).sequenceNum.toNat + 1 < 2 ^ 32) :
      CallStep parties s (s.publish c rosRequest payload carried)
  | returnSent {s : CallState ι κ} {c : ι} {sequenceNum : UInt32} {status : DpsStatus}
      (hSending : (s.clients c).sending = some sequenceNum) :
      CallStep parties s (s.returnSent parties c sequenceNum status)
  | deliverRequest {s : CallState ι κ} {v : κ} {request : Request ι} {pub : DpsPublication}
      (hRequest : request ∈ s.requests)
      (hOnce : (v, request.client, request.sequenceNum) ∉ s.delivered)
      (hUuid : pub.uuid = parties.uuid request.client)
      (hNumber : pub.sequenceNum = request.sequenceNum) :
      CallStep parties s (s.deliverRequest v request pub)
  | takeRequest {s : CallState ι κ} {v : κ} : CallStep parties s (s.takeRequest parties v)
  | sendResponse {s : CallState ι κ} {v : κ} {status : DpsStatus} {header : RmwRequestId}
      {rosResponse : RosMessage} :
      CallStep parties s (s.sendResponse parties v status header rosResponse)
  | deliverAck {s : CallState ι κ} {v : κ} {c : ι} {call : AckCall} {acked pub : DpsPublication}
      (hCall : call ∈ (s.services v).acks) (hStatus : call.status = .ok)
      (hAcked : call.pub = some acked) (hClient : parties.uuid c = acked.uuid)
      (hUuid : pub.uuid = acked.uuid) (hNumber : pub.ackSequenceNum = acked.sequenceNum) :
      CallStep parties s (s.deliverAck c pub call.payload)
  | takeResponse {s : CallState ι κ} {c : ι} : CallStep parties s (s.takeResponse parties c)

/-- No call has begun. -/
def CallState.initial : CallState ι κ where
  clients := fun _ => { sequenceNum := 0, listener := Listener.new, sending := none }
  services := fun _ => { listener := Listener.new, requests := ∅, acks := [] }
  requests := []
  delivered := []
  history := []

/-- Service calls of some parties. -/
def callMachine (parties : Parties ι κ) : Machine (CallState ι κ) Unit where
  init s := s = CallState.initial
  step s _ s' := CallStep parties s s'

end Machine

end Messaging
end RmwDps
