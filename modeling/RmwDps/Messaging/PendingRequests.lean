import RmwDps.Messaging.Provenance
import RmwDps.Serialization.RfcCbor

/-!
# Pending requests

One service, and any calls of `rmw_take_request` and `rmw_send_response` on it.  A request
that has been taken waits in `requests_` with its publication, which `rmw_send_response`
moves out of the entry before it serializes the response.  The entry is erased behind
that, which an exception of the serializer skips: the null pointer that is left there is
what the next response with that header hands to DPS.
-/

namespace RmwDps
namespace Messaging

open Serialization
open Transition (Machine)

/-! ## The machine -/

/-- A service between two calls.  `taken` is a record of the run: the publications of the
requests that `rmw_take_request` has taken. -/
structure PendingState where
  service : ServiceState
  taken : List DpsPublication

/-- What happens at a service.  `copy` is what `DPS_CopyPublication` returns in the
callback, and `status` what `DPS_AckPublication` returns. -/
inductive PendingCall
  | deliver (copy : Publication) (payload : List UInt8)
  | takeRequest
  | sendResponse (status : DpsStatus) (header : RmwRequestId) (rosResponse : RosMessage)

/-- The publication that a take function has taken off a queue. -/
def takenPublication (queue : List Data) :
    Except Fault (TakeResult RmwRequestId) → List DpsPublication
  | .ok { taken := true, .. } => (queue.head?.bind Prod.fst).toList
  | _ => []

theorem takenPublication_of_not_taken {queue : List Data} {result : TakeResult RmwRequestId}
    (hTaken : result.taken = false) : takenPublication queue (.ok result) = [] := by
  obtain ⟨ret, taken, message, info⟩ := result
  subst hTaken
  rfl

namespace PendingState

def initial : PendingState :=
  { service := { listener := Listener.new, requests := ∅, acks := [] }, taken := [] }

/-- `onPublication`. -/
def deliver (s : PendingState) (copy : Publication) (payload : List UInt8) : PendingState :=
  { s with service := { s.service with
      listener := s.service.listener.push (copy, RxStream.ofBytes payload) } }

section Steps

variable [DpsCbor] [Platform]

def takeRequest (service : RmwService) (s : PendingState) : PendingState :=
  let (result, state) := Api.exec (rmwTakeRequest service) s.service
  { service := state, taken := takenPublication s.service.listener.data result ++ s.taken }

def sendResponse (service : RmwService) (s : PendingState) (status : DpsStatus)
    (header : RmwRequestId) (rosResponse : RosMessage) : PendingState :=
  { s with service := (Api.exec (rmwSendResponse service status header rosResponse) s.service).2 }

def next (service : RmwService) (s : PendingState) : PendingCall → PendingState
  | .deliver copy payload => s.deliver copy payload
  | .takeRequest => s.takeRequest service
  | .sendResponse status header rosResponse => s.sendResponse service status header rosResponse

end Steps

end PendingState

/-- The calls on a service. -/
def pendingMachine [DpsCbor] [Platform] (service : RmwService) :
    Machine PendingState PendingCall :=
  Machine.ofFunction PendingState.initial fun s call => some (s.next service call)

/-! ## What is to hold -/

namespace PendingState

/-- Every entry of `requests_` holds the publication of a taken request with its header, and
nothing else has been handed to DPS. -/
structure Owned (s : PendingState) : Prop where
  entries : ∀ key entry, s.service.requests[key]? = some entry →
    ∃ pub ∈ s.taken, entry = some pub ∧ key = (requestHeader (some pub)).bytes
  acks : ∀ call ∈ s.service.acks, ∃ pub ∈ s.taken, call.pub = some pub

variable [DpsCbor] [Platform]

/-- An `rmw_send_response` that finds its header passes the publication of the request to
`DPS_AckPublication`, or leaves everything as it was. -/
def Passes (service : RmwService) (s : PendingState) (status : DpsStatus) (header : RmwRequestId)
    (rosResponse : RosMessage) : Prop :=
  ∀ entry, FindsRequest service header s.service entry →
    (∃ pub ∈ s.taken, ∃ payload, requestHeader (some pub) = header ∧
      (s.sendResponse service status header rosResponse).service.acks =
        { pub := some pub, payload, status } :: s.service.acks) ∨
    s.sendResponse service status header rosResponse = s

/-- The response can be written, if the call gets so far. -/
def Serializes (service : RmwService) (s : PendingState) (header : RmwRequestId)
    (rosResponse : RosMessage) : Prop :=
  ∀ entry, FindsRequest service header s.service entry →
    ∃ ser, serializeRosMessage rosResponse TxStream.new service.data.responseTypeSupport =
      .ok (true, ser)

/-- The serializer does not throw, if the call gets so far. -/
def SerializesOrFails (service : RmwService) (s : PendingState) (header : RmwRequestId)
    (rosResponse : RosMessage) : Prop :=
  ∀ entry, FindsRequest service header s.service entry →
    ∃ result, serializeRosMessage rosResponse TxStream.new service.data.responseTypeSupport =
      .ok result

end PendingState

/-- DPS copies the publication of what it delivers, and no response makes the serializer
throw. -/
def PendingCall.NeverThrows [DpsCbor] [Platform] (service : RmwService) (s : PendingState) :
    PendingCall → Prop
  | .deliver copy _ => copy ≠ none
  | .takeRequest => True
  | .sendResponse _ header rosResponse => s.SerializesOrFails service header rosResponse

/-! ## Every call keeps the publications -/

section Invariant

variable [DpsCbor] [Platform] {service : RmwService} {s : PendingState} {header : RmwRequestId}
  {status : DpsStatus} {rosResponse : RosMessage} {entry : Publication}

/-- The queue holds copies of publications, and `requests_` owns its own. -/
structure PendingInv (s : PendingState) : Prop where
  queued : ∀ data ∈ s.service.listener.data, data.1 ≠ none
  owned : s.Owned

omit [DpsCbor] [Platform] in
/-- The entry that a call finds in an owned map. -/
theorem PendingState.Owned.found (hOwned : s.Owned)
    (hFinds : FindsRequest service header s.service entry) :
    ∃ pub ∈ s.taken, entry = some pub ∧ requestHeader (some pub) = header := by
  obtain ⟨pub, hTaken, hEntry, hKey⟩ := hOwned.entries header.bytes entry hFinds.2
  exact ⟨pub, hTaken, hEntry, (RmwRequestId.bytes_injective hKey).symm⟩

omit [DpsCbor] [Platform] in
theorem PendingInv.initial : PendingInv PendingState.initial where
  queued data hData := by cases hData
  owned := {
    entries := by
      intro key entry hEntry
      simp [PendingState.initial] at hEntry
    acks := by
      intro call hCall
      cases hCall }

omit [DpsCbor] [Platform] in
theorem PendingInv.deliver (hInv : PendingInv s) {copy : Publication} (hCopy : copy ≠ none)
    (payload : List UInt8) : PendingInv (s.deliver copy payload) where
  queued data hData := by
    rcases List.mem_append.mp hData with hBefore | hNew
    · exact hInv.queued data hBefore
    · rw [List.mem_singleton.mp hNew]
      exact hCopy
  owned := ⟨hInv.owned.entries, hInv.owned.acks⟩

theorem PendingInv.takeRequest (hInv : PendingInv s) : PendingInv (s.takeRequest service) := by
  have hOutcome := rmwTakeRequest_outcome service s.service
  unfold PendingState.takeRequest
  generalize Api.exec (rmwTakeRequest service) s.service = outcome at hOutcome ⊢
  cases hOutcome with
  | nothing hTaken =>
      dsimp only
      rw [takenPublication_of_not_taken hTaken]
      exact hInv
  | dropped hData =>
      refine ⟨?_, ⟨hInv.owned.entries, hInv.owned.acks⟩⟩
      intro data hMem
      exact hInv.queued data (hData ▸ List.mem_cons_of_mem _ hMem)
  | @taken pub buffer rest message hData hDecode =>
      obtain ⟨pub, rfl⟩ := Option.ne_none_iff_exists'.mp
        (hInv.queued (pub, buffer) (hData ▸ List.mem_cons_self))
      have hFront : takenPublication s.service.listener.data (.ok {
          ret := .ok, taken := true, message, info := some (requestHeader (some pub)) }) =
            [pub] := by
        rw [hData]
        rfl
      dsimp only
      rw [hFront]
      refine ⟨?_, ⟨?_, ?_⟩⟩
      · intro data hMem
        exact hInv.queued data (hData ▸ List.mem_cons_of_mem _ hMem)
      · intro key entry hEntry
        -- A request whose header is there already keeps the publication of the first one.
        rcases Requests.getElem?_insertIfNew hEntry with hBefore | ⟨hKey, hPub⟩
        · obtain ⟨other, hOther, hRest⟩ := hInv.owned.entries key entry hBefore
          exact ⟨other, List.mem_append_right _ hOther, hRest⟩
        · exact ⟨pub, List.mem_cons_self, hPub, hKey.symm⟩
      · intro call hCall
        obtain ⟨other, hOther, hPub⟩ := hInv.owned.acks call hCall
        exact ⟨other, List.mem_append_right _ hOther, hPub⟩

theorem PendingInv.sendResponse (hInv : PendingInv s)
    (hFine : s.SerializesOrFails service header rosResponse) :
    PendingInv (s.sendResponse service status header rosResponse) := by
  unfold PendingState.sendResponse
  by_cases hFinds : ∃ entry, FindsRequest service header s.service entry
  · obtain ⟨entry, hEntry⟩ := hFinds
    obtain ⟨⟨ok, ser⟩, hSerialize⟩ := hFine entry hEntry
    rw [exec_rmwSendResponse hEntry, hSerialize]
    have hErased : ∀ key kept, (s.service.requests.erase header.bytes)[key]? = some kept →
        ∃ pub ∈ s.taken, kept = some pub ∧ key = (requestHeader (some pub)).bytes :=
      fun key kept hKept => hInv.owned.entries key kept (Requests.getElem?_erase hKept).1
    cases ok with
    | false => exact ⟨hInv.queued, ⟨hErased, hInv.owned.acks⟩⟩
    | true =>
        refine ⟨hInv.queued, ⟨hErased, ?_⟩⟩
        intro call hCall
        rcases List.mem_cons.mp hCall with rfl | hBefore
        · obtain ⟨pub, hTaken, hPub, -⟩ := hInv.owned.found hEntry
          exact ⟨pub, hTaken, hPub⟩
        · exact hInv.owned.acks call hBefore
  · obtain ⟨message, hRun⟩ :=
      exec_rmwSendResponse_of_not_finds (not_exists.mp hFinds) status rosResponse
    rw [hRun]
    exact hInv

theorem PendingInv.next (hInv : PendingInv s) {call : PendingCall}
    (hCall : call.NeverThrows service s) : PendingInv (s.next service call) := by
  cases call with
  | deliver copy payload => exact hInv.deliver hCall payload
  | takeRequest => exact hInv.takeRequest
  | sendResponse status header rosResponse => exact hInv.sendResponse hCall

theorem pendingInv_of_reachable
    (hReachable : (pendingMachine service).ReachableIf
      (fun s call => call.NeverThrows service s) s) : PendingInv s := by
  apply hReachable.invariant
  · rintro s rfl
    exact PendingInv.initial
  · intro s call s' hInv hCall hStep
    cases hStep
    exact hInv.next hCall

end Invariant

/-! ## Where the serializer throws -/

section Exact

variable [DpsCbor] [Platform] {service : RmwService} {s : PendingState} {header : RmwRequestId}
  {status : DpsStatus} {rosResponse : RosMessage}

/-- A response that makes the serializer throw leaves a null pointer in the entry of its
request, and no other response does. -/
theorem PendingInv.owned_sendResponse_iff (hInv : PendingInv s) :
    (s.sendResponse service status header rosResponse).Owned ↔
      s.SerializesOrFails service header rosResponse := by
  constructor
  · intro hOwned entry hFinds
    cases hSerialize : serializeRosMessage rosResponse TxStream.new
        service.data.responseTypeSupport with
    | ok result => exact ⟨result, rfl⟩
    | error fault =>
        unfold PendingState.sendResponse at hOwned
        rw [exec_rmwSendResponse hFinds, hSerialize] at hOwned
        obtain ⟨pub, -, hNull, -⟩ :=
          hOwned.entries header.bytes none Std.ExtTreeMap.getElem?_insert_self
        cases hNull
  · exact fun hFine => (hInv.sendResponse hFine).owned

/-- A response is passed on exactly if it can be written. -/
theorem PendingState.Owned.passes_iff (hOwned : s.Owned) :
    s.Passes service status header rosResponse ↔ s.Serializes service header rosResponse := by
  constructor
  · intro hPasses entry hFinds
    have hOutcome := hPasses entry hFinds
    obtain ⟨pub, -, rfl, -⟩ := hOwned.found hFinds
    -- Otherwise nothing is handed to DPS, and the publication is not in its entry any more.
    have hNot : ∀ requests : Requests, requests[header.bytes]? ≠ some (some pub) →
        ¬ ((∃ pub ∈ s.taken, ∃ payload, requestHeader (some pub) = header ∧
            s.service.acks = { pub := some pub, payload, status } :: s.service.acks) ∨
          { s with service := { s.service with requests } } = s) := by
      rintro requests hMoved (⟨_, -, _, -, hAcks⟩ | hSame)
      · exact absurd hAcks.symm (List.cons_ne_self _ _)
      · have hRequests := congrArg (fun s => s.service.requests[header.bytes]?) hSame
        exact hMoved (hRequests.trans hFinds.2)
    unfold PendingState.sendResponse at hOutcome
    rw [exec_rmwSendResponse hFinds] at hOutcome
    rcases hSerialize : serializeRosMessage rosResponse TxStream.new
      service.data.responseTypeSupport with fault | ⟨ok, ser⟩
    · rw [hSerialize] at hOutcome
      exact absurd hOutcome (hNot _ (by simp))
    · cases ok with
      | true => exact ⟨ser, rfl⟩
      | false =>
          rw [hSerialize] at hOutcome
          exact absurd hOutcome (hNot _ (by simp))
  · intro hSerializes entry hFinds
    obtain ⟨ser, hSerialize⟩ := hSerializes entry hFinds
    obtain ⟨pub, hTaken, rfl, hHeader⟩ := hOwned.found hFinds
    refine .inl ⟨pub, hTaken, ser.data, hHeader, ?_⟩
    unfold PendingState.sendResponse
    rw [exec_rmwSendResponse hFinds, hSerialize]

/-- In every run in which DPS copies its publications and no response makes the serializer
throw, the pending requests own their publications, and nothing else is handed to DPS; a
response that finds its request is passed on if and only if it can be written.  The
serializer throws nowhere without breaking that. -/
theorem requests_owned
    (hReachable : (pendingMachine service).ReachableIf
      (fun s call => call.NeverThrows service s) s) :
    s.Owned ∧ ∀ status header rosResponse,
      ((s.sendResponse service status header rosResponse).Owned ↔
        s.SerializesOrFails service header rosResponse) ∧
      (s.Passes service status header rosResponse ↔ s.Serializes service header rosResponse) := by
  have hInv := pendingInv_of_reachable hReachable
  exact ⟨hInv.owned, fun _ _ _ => ⟨hInv.owned_sendResponse_iff, hInv.owned.passes_iff⟩⟩

end Exact

/-! ## A response that throws -/

section Badge

local instance badgeCbor : DpsCbor := rfcCbor
local instance badgePlatform : Platform := signedChar

/-- A service whose requests are empty, and whose responses are a string of one unit. -/
def badgeService : RmwService :=
  serviceOf .c .nil (.cons { typeId := .string, stringUpperBound := 1 } .nil .nil)

/-- A response with a string of the given length. -/
def badge (length : Nat) : RosMessage :=
  .c [.string (.one ⟨some (List.replicate length 0x61)⟩)]

/-- The request of a client. -/
def badgePub : DpsPublication :=
  { uuid := Vector.replicate 16 7, sequenceNum := 1, ackSequenceNum := 0 }

/-- The request has come in and been taken. -/
def badgeTaken : PendingState :=
  (PendingState.initial.deliver (some badgePub) [0]).takeRequest badgeService

/-- The request has been answered by a string of the given length. -/
def badgeAnswered (s : PendingState) (length : Nat) : PendingState :=
  s.sendResponse badgeService .ok (requestHeader (some badgePub)) (badge length)

theorem badgeTaken_finds :
    FindsRequest badgeService (requestHeader (some badgePub)) badgeTaken.service
      (some badgePub) := by
  refine ⟨rfl, ?_⟩
  have hRequests : badgeTaken.service.requests =
      (∅ : Requests).insertIfNew (requestHeader (some badgePub)).bytes (some badgePub) := rfl
  rw [hRequests, Std.ExtTreeMap.getElem?_insertIfNew]
  simp

theorem badgeTaken_reachable :
    (pendingMachine badgeService).ReachableIf
      (fun s call => call.NeverThrows badgeService s) badgeTaken := by
  have hCopied : PendingCall.NeverThrows badgeService PendingState.initial
      (.deliver (some badgePub) [0]) := Option.some_ne_none badgePub
  have hStart : (pendingMachine badgeService).ReachableIf
      (fun s call => call.NeverThrows badgeService s) PendingState.initial := .init rfl
  have hDelivered := hStart.step hCopied rfl
  exact hDelivered.step (e := .takeRequest) trivial rfl

/-- A string that can be written. -/
theorem badge_owned : (badgeAnswered badgeTaken 1).Owned ∧
    (badgeAnswered badgeTaken 1).service.acks =
      [{ pub := some badgePub, payload := [0x81, 0x61, 0x61], status := .ok }] := by
  refine ⟨?_, rfl⟩
  refine (requests_owned (badgeTaken_reachable.step (e := .sendResponse .ok
    (requestHeader (some badgePub)) (badge 1)) ?_ rfl)).1
  intro entry hFinds
  exact ⟨_, rfl⟩

/-- A string that is too long leaves a null pointer in the entry, and the next response passes
it to DPS. -/
theorem badge_not_owned :
    (∃ s, (pendingMachine badgeService).Reachable s ∧ ¬ s.Owned) ∧
      (badgeAnswered (badgeAnswered badgeTaken 3) 1).service.acks =
        [{ pub := none, payload := [0x81, 0x61, 0x61], status := .ok }] := by
  refine ⟨⟨badgeAnswered badgeTaken 3, ?_, ?_⟩, rfl⟩
  · exact badgeTaken_reachable.reachable.step (e := .sendResponse .ok
      (requestHeader (some badgePub)) (badge 3)) rfl
  · intro hOwned
    have hInv := pendingInv_of_reachable badgeTaken_reachable
    obtain ⟨result, hSerialize⟩ := hInv.owned_sendResponse_iff.mp hOwned _ badgeTaken_finds
    have hFault : serializeRosMessage (badge 3) TxStream.new badgeService.data.responseTypeSupport =
        .error (.runtimeError "string overcomes the maximum length") := rfl
    rw [hFault] at hSerialize
    cases hSerialize

end Badge

end Messaging
end RmwDps
