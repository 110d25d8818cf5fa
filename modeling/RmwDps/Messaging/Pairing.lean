import RmwDps.Messaging.Provenance

/-!
# Requests and responses are paired

A response that a client takes has the header of a request which the client itself
published, and is what a service that took this request answered it with.  The
number in the header is the one that `rmw_send_request` returns, and no service
acknowledges a request twice.
-/

namespace RmwDps
namespace Messaging

open Serialization
open Transition (Machine)

/-! ## What is to hold -/

section Statement

variable [DpsCbor] [Platform] {ι κ : Type}

/-- The number under which a request was published. -/
def Event.publishedNumber : Event ι κ → Option (ι × UInt32)
  | .published c sequenceNum _ => some (c, sequenceNum)
  | _ => none

/-- The requests that a service has acknowledged. -/
def ServiceState.ackedKeys (service : ServiceState) : List RequestKey :=
  service.acks.filterMap fun call => call.pub.map DpsPublication.key

/-- Requests and responses are paired: every response that has been taken is, every number
names one request of a client and is what `rmw_send_request` returns for it, and no service
acknowledges a request twice. -/
structure CallState.Paired (parties : Parties ι κ) (s : CallState ι κ) : Prop where
  responses : ∀ later earlier c header rosResponse,
    s.history = later ++ .responseTaken c header rosResponse :: earlier →
      ResponsePaired parties earlier c header rosResponse
  numbers : (s.history.filterMap Event.publishedNumber).Nodup
  sequenceIds : ∀ c sequenceNum sequenceId, .sent c sequenceNum .ok sequenceId ∈ s.history →
    sequenceId = some (headerOf (parties.uuid c, sequenceNum)).sequenceNumber
  ownResponses : ∀ c header rosResponse, .responseTaken c header rosResponse ∈ s.history →
    ∀ c' sequenceNum, header = headerOf (parties.uuid c', sequenceNum) → c' = c
  acknowledgedOnce : ∀ v, (s.services v).ackedKeys.Nodup

end Statement

/-! ## Numbers -/

section Numbers

variable {ι κ : Type} {parties : Parties ι κ} {s s' : CallState ι κ} {c : ι}

/-- Neither half of `rmw_send_request`. -/
def Event.Quiet : Event ι κ → Prop
  | .published .. | .sent .. => False
  | _ => True

/-- The numbers of a client grow, and the number that `rmw_send_request` reads when it
returns is the one under which it published. -/
structure Numbers (parties : Parties ι κ) (s : CallState ι κ) : Prop where
  bounded : ∀ c sequenceNum rosRequest, .published c sequenceNum rosRequest ∈ s.history →
    sequenceNum.toNat ≤ (s.clients c).sequenceNum.toNat
  distinct : (s.history.filterMap Event.publishedNumber).Nodup
  sending : ∀ c sequenceNum, (s.clients c).sending = some sequenceNum →
    (s.clients c).sequenceNum = sequenceNum
  sequenceIds : ∀ c sequenceNum sequenceId, .sent c sequenceNum .ok sequenceId ∈ s.history →
    sequenceId = some (headerOf (parties.uuid c, sequenceNum)).sequenceNumber

/-- Only the two halves of `rmw_send_request` have to do with the numbers. -/
theorem Numbers.of_quiet (hInv : Numbers parties s) {events : List (Event ι κ)}
    (hHistory : s'.history = events ++ s.history) (hQuiet : ∀ event ∈ events, event.Quiet)
    (hClients : ∀ c, (s'.clients c).sequenceNum = (s.clients c).sequenceNum ∧
      (s'.clients c).sending = (s.clients c).sending) : Numbers parties s' where
  bounded c sequenceNum rosRequest hEvent := by
    rw [(hClients c).1]
    rw [hHistory] at hEvent
    rcases List.mem_append.mp hEvent with hNew | hBefore
    · exact (hQuiet _ hNew).elim
    · exact hInv.bounded c sequenceNum rosRequest hBefore
  distinct := by
    -- Quiet events publish nothing, so the numbers are those of before.
    have hNone : events.filterMap Event.publishedNumber = [] := by
      apply List.filterMap_eq_nil_iff.mpr
      intro event hEvent
      have hEventQuiet := hQuiet event hEvent
      cases event with
      | published => exact hEventQuiet.elim
      | sent | requestTaken | responded | responseTaken => rfl
    rw [hHistory, List.filterMap_append, hNone]
    exact hInv.distinct
  sending c sequenceNum hSending := by
    rw [(hClients c).1]
    exact hInv.sending c sequenceNum ((hClients c).2 ▸ hSending)
  sequenceIds c sequenceNum sequenceId hEvent := by
    rw [hHistory] at hEvent
    rcases List.mem_append.mp hEvent with hNew | hBefore
    · exact (hQuiet _ hNew).elim
    · exact hInv.sequenceIds c sequenceNum sequenceId hBefore

theorem Event.quiet_ofTaken {event : RmwRequestId → Option RosMessage → Event ι κ}
    (hEvent : ∀ header message, (event header message).Quiet)
    (result : Except Fault (TakeResult RmwRequestId)) :
    ∀ e ∈ Event.ofTaken event result, e.Quiet := by
  intro e hMem
  unfold Event.ofTaken at hMem
  split at hMem
  · rw [List.mem_singleton] at hMem
    rw [hMem]
    exact hEvent _ _
  · cases hMem

theorem Event.quiet_ofResponded {v : κ} {header : RmwRequestId} {rosResponse : RosMessage}
    (result : Except Fault RmwRet) :
    ∀ e ∈ Event.ofResponded (ι := ι) v header rosResponse result, e.Quiet := by
  intro e hMem
  cases result with
  | ok ret =>
      rw [List.mem_singleton.mp hMem]
      trivial
  | error fault => cases hMem

theorem Numbers.publish [DecidableEq ι] (hInv : Numbers parties s) {rosRequest : RosMessage}
    {payload : List UInt8} {carried : Bool}
    (hNoWrap : (s.clients c).sequenceNum.toNat + 1 < 2 ^ 32) :
    Numbers parties (s.publish c rosRequest payload carried) := by
  -- The number does not wrap, so it is larger than all that the client has used.
  have hNext : ((s.clients c).sequenceNum + 1).toNat = (s.clients c).sequenceNum.toNat + 1 := by
    rw [UInt32.toNat_add]
    exact Nat.mod_eq_of_lt hNoWrap
  have hElse : ∀ other, other ≠ c →
      (s.publish c rosRequest payload carried).clients other = s.clients other := by
    intro other hNe
    exact CallState.clients_setClient_of_ne hNe
  have hSelf : (s.publish c rosRequest payload carried).clients c = { s.clients c with
      sequenceNum := (s.clients c).sequenceNum + 1
      sending := some ((s.clients c).sequenceNum + 1) } :=
    CallState.clients_setClient_self
  have hHistory : (s.publish c rosRequest payload carried).history =
      .published c ((s.clients c).sequenceNum + 1) rosRequest :: s.history := rfl
  refine ⟨?_, ?_, ?_, ?_⟩
  · intro other sequenceNum otherRequest hEvent
    rw [hHistory] at hEvent
    by_cases hSame : other = c
    · subst hSame
      rw [hSelf]
      dsimp only
      rw [hNext]
      rcases List.mem_cons.mp hEvent with hNew | hBefore
      · cases hNew
        omega
      · have hBound := hInv.bounded other sequenceNum otherRequest hBefore
        omega
    · rw [hElse other hSame]
      rcases List.mem_cons.mp hEvent with hNew | hBefore
      · cases hNew
        exact absurd rfl hSame
      · exact hInv.bounded other sequenceNum otherRequest hBefore
  · rw [hHistory]
    apply List.nodup_cons.mpr
    refine ⟨?_, hInv.distinct⟩
    intro hMem
    obtain ⟨event, hEvent, hNumber⟩ := List.mem_filterMap.mp hMem
    cases event with
    | published other sequenceNum otherRequest =>
        cases hNumber
        -- An earlier event with this number would be above the bound.
        have hBound := hInv.bounded c _ otherRequest hEvent
        omega
    | sent | requestTaken | responded | responseTaken => cases hNumber
  · intro other sequenceNum hSending
    by_cases hSame : other = c
    · subst hSame
      rw [hSelf] at hSending ⊢
      exact Option.some.inj hSending
    · rw [hElse other hSame] at hSending ⊢
      exact hInv.sending other sequenceNum hSending
  · intro other sequenceNum sequenceId hEvent
    rw [hHistory] at hEvent
    rcases List.mem_cons.mp hEvent with hNew | hBefore
    · cases hNew
    · exact hInv.sequenceIds other sequenceNum sequenceId hBefore

theorem Numbers.returnSent [DecidableEq ι] (hInv : Numbers parties s) {sequenceNum : UInt32}
    {status : DpsStatus} (hSending : (s.clients c).sending = some sequenceNum) :
    Numbers parties (s.returnSent parties c sequenceNum status) := by
  have hNumber := hInv.sending c sequenceNum hSending
  let pub : DpsPublication :=
    { uuid := parties.uuid c, sequenceNum := (s.clients c).sequenceNum, ackSequenceNum := 0 }
  have hHistory : (s.returnSent parties c sequenceNum status).history =
      .sent c sequenceNum (rmwSendRequestPublished status (some pub)).1
        (rmwSendRequestPublished status (some pub)).2 :: s.history := rfl
  have hElse : ∀ other, other ≠ c →
      (s.returnSent parties c sequenceNum status).clients other = s.clients other := by
    intro other hNe
    exact CallState.clients_setClient_of_ne hNe
  have hSelf : (s.returnSent parties c sequenceNum status).clients c =
      { s.clients c with sending := none } :=
    CallState.clients_setClient_self
  refine ⟨?_, hInv.distinct, ?_, ?_⟩
  · intro other otherNum rosRequest hEvent
    have hBefore : .published other otherNum rosRequest ∈ s.history := by
      rcases List.mem_cons.mp hEvent with hNew | hBefore
      · cases hNew
      · exact hBefore
    have hBound := hInv.bounded other otherNum rosRequest hBefore
    by_cases hSame : other = c
    · subst hSame
      rw [hSelf]
      exact hBound
    · rw [hElse other hSame]
      exact hBound
  · intro other otherNum hOther
    by_cases hSame : other = c
    · subst hSame
      rw [hSelf] at hOther
      cases hOther
    · rw [hElse other hSame] at hOther ⊢
      exact hInv.sending other otherNum hOther
  · intro other otherNum sequenceId hEvent
    rw [hHistory] at hEvent
    rcases List.mem_cons.mp hEvent with hNew | hBefore
    · injection hNew with hClient hNum hRet hId
      subst hClient hNum
      -- The number is read again from the publication, and is still that of the request.
      have hReturned : rmwSendRequestPublished status (some pub) = (.ok, sequenceId) :=
        Prod.ext hRet.symm hId.symm
      have hKey : pub.key = (parties.uuid other, otherNum) := Prod.ext rfl hNumber
      rw [rmwSendRequestPublished_ok hReturned, hKey]
    · exact hInv.sequenceIds other otherNum sequenceId hBefore

/-- What a listener gets or loses has nothing to do with the numbers. -/
theorem Numbers.of_listener [DecidableEq ι] (hInv : Numbers parties s) {listener : Listener}
    {events : List (Event ι κ)} (hQuiet : ∀ event ∈ events, event.Quiet) :
    Numbers parties ((s.setClient c { s.clients c with listener }).record events) := by
  apply hInv.of_quiet rfl hQuiet
  intro other
  by_cases hSame : other = c
  · subst hSame
    simp [CallState.record]
  · simp [CallState.record, CallState.clients_setClient_of_ne hSame]

theorem Numbers.step [DpsCbor] [Platform] [DecidableEq ι] [DecidableEq κ]
    (hInv : Numbers parties s) (hStep : CallStep parties s s') : Numbers parties s' := by
  cases hStep with
  | publish _ _ hNoWrap => exact hInv.publish hNoWrap
  | returnSent hSending => exact hInv.returnSent hSending
  | @deliverRequest v request pub =>
      -- Only the two halves of `rmw_send_request` touch the numbers.
      have hHistory : (s.deliverRequest v request pub).history = [] ++ s.history := rfl
      apply hInv.of_quiet hHistory
      · intro event hEvent
        cases hEvent
      · intro other
        exact ⟨rfl, rfl⟩
  | @takeRequest v =>
      have hHistory : (s.takeRequest parties v).history =
        Event.ofTaken (.requestTaken v) _ ++ s.history := rfl
      apply hInv.of_quiet hHistory
      · exact @Event.quiet_ofTaken ι κ (.requestTaken v) (fun _ _ => trivial) _
      · intro other
        exact ⟨rfl, rfl⟩
  | @sendResponse v status header rosResponse =>
      have hHistory : (s.sendResponse parties v status header rosResponse).history =
        Event.ofResponded v header rosResponse _ ++ s.history := rfl
      apply hInv.of_quiet hHistory
      · exact Event.quiet_ofResponded _
      · intro other
        exact ⟨rfl, rfl⟩
  | @deliverAck v c =>
      apply @Numbers.of_listener ι κ parties s c _ hInv _ []
      intro event hEvent
      cases hEvent
  | @takeResponse c =>
      apply @Numbers.of_listener ι κ parties s c _ hInv
      exact @Event.quiet_ofTaken ι κ (.responseTaken c) (fun _ _ => trivial) _

end Numbers

/-! ## At most one acknowledgement -/

section Tokens

variable {ι κ : Type} {parties : Parties ι κ} {s s' : CallState ι κ} {v : κ} {key : RequestKey}
  {service : ServiceState}

/-- The requests in the queue of a service. -/
def ServiceState.queuedKeys (service : ServiceState) : List RequestKey :=
  service.listener.data.filterMap fun data => data.1.map DpsPublication.key

/-- How often `requests_` has a publication for a request, which is once at most. -/
def keptCount (requests : Requests) (key : RequestKey) : Nat :=
  match requests[(headerOf key).bytes]? with
  | some (some _) => 1
  | _ => 0

/-- How often a service has a request, in its queue, in its map or acknowledged. -/
def ServiceState.tokens (service : ServiceState) (key : RequestKey) : Nat :=
  service.queuedKeys.count key + keptCount service.requests key + service.ackedKeys.count key

/-- The requests that DPS has brought to a service. -/
def CallState.deliveredKeys [DecidableEq κ] (parties : Parties ι κ) (s : CallState ι κ) (v : κ) :
    List RequestKey :=
  (s.delivered.filter fun delivery => delivery.1 = v).map fun delivery =>
    (parties.uuid delivery.2.1, delivery.2.2)

/-- A service has no request more often than DPS has brought it, which is once. -/
structure AtMostOnce [DecidableEq κ] (parties : Parties ι κ) (s : CallState ι κ) : Prop where
  delivered : s.delivered.Nodup
  tokens : ∀ v key, (s.services v).tokens key ≤ (s.deliveredKeys parties v).count key

theorem keptCount_le {requests requests' : Requests}
    (hKept : ∀ pub, requests'[(headerOf key).bytes]? = some (some pub) →
      ∃ pub', requests[(headerOf key).bytes]? = some (some pub')) :
    keptCount requests' key ≤ keptCount requests key := by
  unfold keptCount
  split
  · rename_i pub hPub
    obtain ⟨pub', hPub'⟩ := hKept pub hPub
    rw [hPub']
  · omega

theorem keptCount_le_one (requests : Requests) (key : RequestKey) : keptCount requests key ≤ 1 := by
  unfold keptCount
  split <;> omega

/-- `emplace` adds the request of its publication only. -/
theorem keptCount_insertIfNew (requests : Requests) (pub : DpsPublication) (key : RequestKey) :
    keptCount (requests.insertIfNew (headerOf pub.key).bytes (some pub)) key ≤
      keptCount requests key + [pub.key].count key := by
  by_cases hSame : pub.key = key
  · have hOne := keptCount_le_one (requests.insertIfNew (headerOf pub.key).bytes (some pub)) key
    simp only [hSame, List.count_singleton_self]
    rw [hSame] at hOne
    omega
  · have hLe : keptCount (requests.insertIfNew (headerOf pub.key).bytes (some pub)) key ≤
        keptCount requests key := by
      apply keptCount_le
      intro kept hKept
      rcases Requests.getElem?_insertIfNew hKept with hBefore | ⟨hKey, _⟩
      · exact ⟨kept, hBefore⟩
      · exact absurd (headerOf_injective (RmwRequestId.bytes_injective hKey)) hSame
    omega

/-- Erasing an entry gives back the request that it was for. -/
theorem keptCount_erase (requests : Requests) {pub : DpsPublication} (key : RequestKey)
    (hFound : requests[(headerOf pub.key).bytes]? = some (some pub)) :
    keptCount (requests.erase (headerOf pub.key).bytes) key + [pub.key].count key ≤
      keptCount requests key := by
  by_cases hSame : pub.key = key
  · subst hSame
    have hGone : keptCount (requests.erase (headerOf pub.key).bytes) pub.key = 0 := by
      unfold keptCount
      rw [Std.ExtTreeMap.getElem?_erase_self]
    have hOne : keptCount requests pub.key = 1 := by
      unfold keptCount
      rw [hFound]
    rw [hGone, hOne, List.count_singleton_self]
  · have hLe : keptCount (requests.erase (headerOf pub.key).bytes) key ≤
        keptCount requests key := by
      apply keptCount_le
      intro kept hKept
      exact ⟨kept, (Requests.getElem?_erase hKept).1⟩
    have hNone : [pub.key].count key = 0 := List.count_eq_zero.mpr (by simp [Ne.symm hSame])
    omega

theorem AtMostOnce.setService_record [DecidableEq κ] (hInv : AtMostOnce parties s)
    {events : List (Event ι κ)}
    (hTokens : ∀ key, service.tokens key ≤ (s.services v).tokens key) :
    AtMostOnce parties ((s.setService v service).record events) where
  delivered := hInv.delivered
  tokens other key := by
    have hBefore := hInv.tokens other key
    by_cases hSame : other = v
    · subst hSame
      have hSelf : ((s.setService other service).record events).services other = service :=
        CallState.services_setService_self
      rw [hSelf]
      exact (hTokens key).trans hBefore
    · have hElse : ((s.setService v service).record events).services other = s.services other :=
        CallState.services_setService_of_ne hSame
      rw [hElse]
      exact hBefore

theorem ServiceState.queuedKeys_of_cons {data : Data} {rest : List Data}
    (hData : service.listener.data = data :: rest) :
    service.queuedKeys = (data.1.map DpsPublication.key).toList ++
      rest.filterMap fun data => data.1.map DpsPublication.key := by
  unfold queuedKeys
  rw [hData, List.filterMap_cons]
  cases data.1.map DpsPublication.key <;> rfl

theorem AtMostOnce.deliverRequest [DecidableEq κ] (hInv : AtMostOnce parties s)
    {request : Request ι} {pub : DpsPublication}
    (hOnce : (v, request.client, request.sequenceNum) ∉ s.delivered)
    (hUuid : pub.uuid = parties.uuid request.client)
    (hNumber : pub.sequenceNum = request.sequenceNum) :
    AtMostOnce parties (s.deliverRequest v request pub) where
  delivered := List.nodup_cons.mpr ⟨hOnce, hInv.delivered⟩
  tokens other key := by
    have hBefore := hInv.tokens other key
    have hKey : pub.key = (parties.uuid request.client, request.sequenceNum) :=
      Prod.ext hUuid hNumber
    by_cases hSame : other = v
    · subst hSame
      -- One more delivered, and one more in the queue.
      have hSelf : (s.deliverRequest other request pub).services other = { s.services other with
          listener := (s.services other).listener.push (Listener.received pub request.payload) } :=
        CallState.services_setService_self
      have hQueued : ((s.deliverRequest other request pub).services other).queuedKeys =
          (s.services other).queuedKeys ++ [pub.key] := by
        rw [hSelf]
        exact List.filterMap_append
      have hDelivered : (s.deliverRequest other request pub).deliveredKeys parties other =
          pub.key :: s.deliveredKeys parties other := by
        simp [CallState.deliverRequest, CallState.deliveredKeys, hKey]
      unfold ServiceState.tokens at hBefore ⊢
      rw [hQueued, hDelivered, hSelf, List.count_append]
      simp only [ServiceState.ackedKeys, List.count_cons, List.count_nil] at hBefore ⊢
      omega
    · have hElse : (s.deliverRequest v request pub).services other = s.services other :=
        CallState.services_setService_of_ne hSame
      have hDelivered : (s.deliverRequest v request pub).deliveredKeys parties other =
          s.deliveredKeys parties other := by
        simp [CallState.deliverRequest, CallState.deliveredKeys, CallState.setService,
          Ne.symm hSame]
      rw [hElse, hDelivered]
      exact hBefore

theorem AtMostOnce.takeRequest [DpsCbor] [Platform] [DecidableEq κ] (hInv : AtMostOnce parties s)
    (hProvenance : Provenance parties s) : AtMostOnce parties (s.takeRequest parties v) := by
  have hOutcome := rmwTakeRequest_outcome (parties.service v) (s.services v)
  unfold CallState.takeRequest
  generalize Api.exec (rmwTakeRequest (parties.service v)) (s.services v) = outcome at hOutcome ⊢
  cases hOutcome with
  | nothing hTaken => exact hInv.setService_record fun key => le_refl _
  | dropped hData =>
      apply hInv.setService_record
      intro key
      have hQueued := ServiceState.queuedKeys_of_cons hData
      unfold ServiceState.tokens
      rw [hQueued, List.count_append]
      simp only [ServiceState.queuedKeys, ServiceState.ackedKeys]
      omega
  | @taken pub buffer rest message hData hDecode =>
      obtain ⟨pub, payload, hReceived, _⟩ :=
        (hProvenance.services v).queued _ (hData ▸ List.mem_cons_self)
      cases hReceived
      apply hInv.setService_record
      intro key
      have hQueued := ServiceState.queuedKeys_of_cons hData
      -- What leaves the queue goes to `requests_`, unless the key is there already.
      have hKept := keptCount_insertIfNew (s.services v).requests pub key
      unfold ServiceState.tokens
      rw [hQueued, List.count_append]
      simp only [ServiceState.queuedKeys, ServiceState.ackedKeys, requestHeader_eq, Option.map_some,
        Option.toList_some]
      omega

theorem AtMostOnce.sendResponse [DpsCbor] [Platform] [DecidableEq κ] (hInv : AtMostOnce parties s)
    (hProvenance : Provenance parties s) {status : DpsStatus} {header : RmwRequestId}
    {rosResponse : RosMessage} :
    AtMostOnce parties (s.sendResponse parties v status header rosResponse) := by
  have hOutcome :=
    rmwSendResponse_outcome (parties.service v) status header rosResponse (s.services v)
  unfold CallState.sendResponse
  generalize Api.exec (rmwSendResponse (parties.service v) status header rosResponse)
    (s.services v) = outcome at hOutcome ⊢
  -- Erasing an entry cannot raise the count.
  have hErased : ∀ key, keptCount ((s.services v).requests.erase header.bytes) key ≤
      keptCount (s.services v).requests key := by
    intro key
    apply keptCount_le
    intro kept hKept
    exact ⟨kept, (Requests.getElem?_erase hKept).1⟩
  cases hOutcome with
  | refused hRet => exact hInv.setService_record fun key => le_refl _
  | thrown hFound =>
      apply hInv.setService_record
      intro key
      have hKept : keptCount ((s.services v).requests.insert header.bytes none) key ≤
          keptCount (s.services v).requests key := by
        apply keptCount_le
        intro kept hKept
        rcases Requests.getElem?_insert hKept with hBefore | ⟨_, hNull⟩
        · exact ⟨kept, hBefore⟩
        · cases hNull
      simp only [ServiceState.tokens, ServiceState.queuedKeys, ServiceState.ackedKeys]
      omega
  | failed hFound hRet =>
      apply hInv.setService_record
      intro key
      have hKept := hErased key
      simp only [ServiceState.tokens, ServiceState.queuedKeys, ServiceState.ackedKeys]
      omega
  | @acknowledged pub ser hFound hSerialize =>
      apply hInv.setService_record
      intro key
      cases pub with
      | none =>
          have hKept := hErased key
          simp only [ServiceState.tokens, ServiceState.queuedKeys, ServiceState.ackedKeys,
            List.filterMap_cons, Option.map_none]
          omega
      | some pub =>
          -- The entry was that of the request, and its publication moves to the record.
          obtain ⟨rfl, _⟩ := (hProvenance.services v).kept header pub hFound
          have hKept := keptCount_erase (s.services v).requests key hFound
          rw [List.count_singleton] at hKept
          simp only [ServiceState.tokens, ServiceState.queuedKeys, ServiceState.ackedKeys,
            List.filterMap_cons, Option.map_some, List.count_cons]
          omega

theorem AtMostOnce.step [DpsCbor] [Platform] [DecidableEq ι] [DecidableEq κ]
    (hInv : AtMostOnce parties s) (hProvenance : Provenance parties s)
    (hStep : CallStep parties s s') : AtMostOnce parties s' := by
  cases hStep with
  | publish | returnSent | deliverAck | takeResponse => exact ⟨hInv.delivered, hInv.tokens⟩
  | deliverRequest _ hOnce hUuid hNumber => exact hInv.deliverRequest hOnce hUuid hNumber
  | takeRequest => exact hInv.takeRequest hProvenance
  | sendResponse => exact hInv.sendResponse hProvenance

/-- DPS brings a request once, so the acknowledgements of a service are for different
requests. -/
theorem AtMostOnce.nodup_ackedKeys [DecidableEq κ] (hInv : AtMostOnce parties s) (v : κ) :
    (s.services v).ackedKeys.Nodup := by
  have hDelivered : (s.deliveredKeys parties v).Nodup := by
    apply List.Nodup.map_on _ (hInv.delivered.filter _)
    intro delivery hMem delivery' hMem' hKeys
    have hService : delivery.1 = v := by simpa using (List.mem_filter.mp hMem).2
    have hService' : delivery'.1 = v := by simpa using (List.mem_filter.mp hMem').2
    have hClient := parties.uuid_injective (congrArg Prod.fst hKeys)
    have hNumber := congrArg Prod.snd hKeys
    exact Prod.ext (hService.trans hService'.symm) (Prod.ext hClient hNumber)
  apply List.nodup_iff_count_le_one.mpr
  intro key
  have hTokens := hInv.tokens v key
  have hOnce := List.nodup_iff_count_le_one.mp hDelivered key
  unfold ServiceState.tokens at hTokens
  omega

end Tokens

/-! ## Main result -/

section Main

variable [DpsCbor] [DpsCbor.Lawful] [DpsCbor.Exact] [Platform] {ι κ : Type} [DecidableEq ι]
  [DecidableEq κ]
  {parties : Parties ι κ} {s : CallState ι κ}

omit [DpsCbor.Lawful] [DpsCbor.Exact] [DecidableEq ι] [DecidableEq κ] in
theorem AllPaired.split {history later earlier : List (Event ι κ)} {c : ι} {header : RmwRequestId}
    {rosResponse : Option RosMessage} (hPaired : AllPaired parties history)
    (hSplit : history = later ++ .responseTaken c header rosResponse :: earlier) :
    ResponsePaired parties earlier c header rosResponse := by
  induction later generalizing history with
  | nil =>
      subst hSplit
      exact hPaired.1
  | cons event later ih =>
      subst hSplit
      apply ih _ rfl
      cases event with
      | published | sent | requestTaken | responded => exact hPaired
      | responseTaken => exact hPaired.2

structure CallInv (parties : Parties ι κ) (s : CallState ι κ) : Prop where
  provenance : Provenance parties s
  numbers : Numbers parties s
  atMostOnce : AtMostOnce parties s

omit [DpsCbor.Lawful] [DpsCbor.Exact] [DecidableEq ι] in
theorem CallInv.initial : CallInv parties CallState.initial := by
  refine ⟨⟨?_, ?_, ?_, trivial⟩, ⟨?_, List.nodup_nil, ?_, ?_⟩, ⟨List.nodup_nil, ?_⟩⟩
  · intro v
    refine ⟨?_, ?_, ?_⟩
    · intro data hData
      cases hData
    · intro header pub hKept
      simp [CallState.initial] at hKept
    · intro call hCall
      cases hCall
  · intro c data hData
    cases hData
  · intro request hRequest
    cases hRequest
  · intro c sequenceNum rosRequest hEvent
    cases hEvent
  · intro c sequenceNum hSending
    cases hSending
  · intro c sequenceNum sequenceId hEvent
    cases hEvent
  · intro v key
    simp [ServiceState.tokens, ServiceState.queuedKeys, ServiceState.ackedKeys, keptCount,
      CallState.initial, Listener.new]

theorem callInv_of_reachable (hReachable : (callMachine parties).Reachable s) :
    CallInv parties s := by
  apply hReachable.invariant
  · rintro s rfl
    exact CallInv.initial
  · intro s _ s' hInv hStep
    exact ⟨hInv.provenance.step hStep, hInv.numbers.step hStep,
      hInv.atMostOnce.step hInv.provenance hStep⟩

/-- In every run, requests and responses are paired. -/
theorem calls_paired (hReachable : (callMachine parties).Reachable s) : s.Paired parties := by
  have hInv : CallInv parties s := callInv_of_reachable hReachable
  refine ⟨?_, hInv.numbers.distinct, hInv.numbers.sequenceIds, ?_, hInv.atMostOnce.nodup_ackedKeys⟩
  · intro later earlier c header rosResponse hSplit
    exact hInv.provenance.paired.split hSplit
  · intro c header rosResponse hTaken c' sequenceNum hHeader
    obtain ⟨later, earlier, hSplit⟩ := List.append_of_mem hTaken
    obtain ⟨number, _, _, _, _, hOwn, _⟩ := hInv.provenance.paired.split hSplit
    have hKey := headerOf_injective (hHeader.symm.trans hOwn)
    exact parties.uuid_injective (congrArg Prod.fst hKey)

end Main

/-! ## Answers before the call returns, and answers that are cut -/

section Solo

local instance : DpsCbor := rfcCbor
local instance : Platform := signedChar

/-- A C client and a service of some package.  Requests are empty. -/
def solo (μ : MembersType) (responseMembers : MessageMembers) : Parties Unit Unit where
  client := fun _ => clientOf .c .nil responseMembers
  uuid := fun _ => Vector.replicate 16 7
  uuid_injective := fun _ _ _ => rfl
  service := fun _ => serviceOf μ .nil responseMembers

/-- The first request of the client, and its response, as DPS delivers them. -/
def soloPub (ackSequenceNum : UInt32) : DpsPublication :=
  { uuid := Vector.replicate 16 7, sequenceNum := 1, ackSequenceNum }

section

variable (parties : Parties Unit Unit) (response : RosMessage) (payload : List UInt8)

/-- The request is published, taken and answered. -/
def soloResponded : CallState Unit Unit :=
  (((CallState.initial.publish () (.c []) [0] true).deliverRequest ()
    { client := (), sequenceNum := 1, payload := [0] } (soloPub 0)).takeRequest parties
      ()).sendResponse parties () .ok (headerOf (soloPub 0).key) response

/-- The response is taken, too, all before `rmw_send_request` returns. -/
def soloAnswered : CallState Unit Unit :=
  ((soloResponded parties response).deliverAck () (soloPub 1) payload).takeResponse parties ()

end

theorem soloAnswered_reachable {μ : MembersType} {responseMembers : MessageMembers}
    {response : RosMessage} {payload : List UInt8}
    (hAcked : { pub := some (soloPub 0), payload, status := .ok } ∈
      ((soloResponded (solo μ responseMembers) response).services ()).acks) :
    (callMachine (solo μ responseMembers)).Reachable
      (soloAnswered (solo μ responseMembers) response payload) := by
  have hPublish : (callMachine (solo μ responseMembers)).Reachable
      (CallState.initial.publish () (.c []) [0] true) :=
    Machine.Reachable.step (e := ()) (.init rfl) (CallStep.publish rfl rfl (by decide))
  have hDeliver := hPublish.step (e := ())
    (@CallStep.deliverRequest _ _ _ _ _ _ (solo μ responseMembers) _ ()
      { client := (), sequenceNum := 1, payload := [0] } (soloPub 0) List.mem_cons_self
      List.not_mem_nil rfl rfl)
  have hTake := hDeliver.step (e := ())
    (@CallStep.takeRequest _ _ _ _ _ _ (solo μ responseMembers) _ ())
  have hRespond := hTake.step (e := ()) (@CallStep.sendResponse _ _ _ _ _ _
    (solo μ responseMembers) _ () .ok (headerOf (soloPub 0).key) response)
  have hAck := hRespond.step (e := ()) (@CallStep.deliverAck _ _ _ _ _ _ (solo μ responseMembers) _
    () () { pub := some (soloPub 0), payload, status := .ok } (soloPub 0) (soloPub 1) hAcked rfl
    rfl rfl rfl rfl)
  exact hAck.step (e := ()) (@CallStep.takeResponse _ _ _ _ _ _ (solo μ responseMembers) _ ())

/-- A message with one string. -/
def askMembers : MessageMembers := .cons { typeId := .string } .nil .nil

/-- Three units, the second one of which is zero. -/
def zeroAnswer : RosMessage := .cpp [.string (.one [0x61, 0, 0x62])]

/-- A response can be taken before the call that sent the request has returned; and of a
string that only the service's package can hold, the client takes the units in front of the
first zero. -/
theorem soloAnswered_not_returned :
    ((callMachine (solo .c .nil)).Reachable (soloAnswered (solo .c .nil) (.c []) [0]) ∧
      ∃ later earlier header rosResponse,
        (soloAnswered (solo .c .nil) (.c []) [0]).history =
          later ++ .responseTaken () header rosResponse :: earlier ∧
          ∀ sequenceNum, .sent () sequenceNum .ok (some header.sequenceNumber) ∉ earlier) ∧
    ∃ payload, (callMachine (solo .cpp askMembers)).Reachable
        (soloAnswered (solo .cpp askMembers) zeroAnswer payload) ∧
      ∃ header earlier, (soloAnswered (solo .cpp askMembers) zeroAnswer payload).history =
        .responseTaken () header (some (.c [.string (.one ⟨some [0x61]⟩)])) ::
          .responded () header zeroAnswer .ok :: earlier ∧
        ∀ rosResponse, .responded () header rosResponse .ok ∉ earlier := by
  refine ⟨⟨soloAnswered_reachable List.mem_cons_self, [], [
    .responded () (headerOf (soloPub 0).key) (.c []) .ok,
    .requestTaken () (headerOf (soloPub 0).key) (some (.c [])),
    .published () 1 (.c [])], headerOf (soloPub 0).key, some (.c []), rfl, ?_⟩,
    [0x81, 0x63, 0x61, 0, 0x62], soloAnswered_reachable List.mem_cons_self,
    headerOf (soloPub 0).key, [
    .requestTaken () (headerOf (soloPub 0).key) (some (.cpp [])),
    .published () 1 (.c [])], rfl, ?_⟩
  · intro sequenceNum hSent
    simp at hSent
  · intro rosResponse hResponded
    simp at hResponded

/-! ## Two clients and two services -/

/-- A message with one number of eight bits. -/
def tellMembers : MessageMembers := .cons { typeId := .int8 } .nil .nil

/-- A client and a service of each package, the same-named of different packages. -/
def duo : Parties Bool Bool where
  client := fun c => clientOf (if c then .cpp else .c) askMembers tellMembers
  uuid := fun c => Vector.replicate 16 (if c then 8 else 7)
  uuid_injective := fun c c' => by cases c <;> cases c' <;> decide
  service := fun v => serviceOf (if v then .c else .cpp) askMembers tellMembers

/-- The first request of a client, and its response, as DPS delivers them. -/
def duoPub (c : Bool) (ackSequenceNum : UInt32) : DpsPublication :=
  { uuid := duo.uuid c, sequenceNum := 1, ackSequenceNum }

def duoRequest (c : Bool) : Request Bool :=
  { client := c, sequenceNum := 1, payload := [0x81, 0x61, if c then 0x62 else 0x61] }

/-- The clients ask "a" and "b". -/
def duoAsked : CallState Bool Bool :=
  (CallState.initial.publish false (.c [.string (.one ⟨some [0x61]⟩)]) (duoRequest false).payload
    true).publish true (.cpp [.string (.one [0x62])]) (duoRequest true).payload true

/-- Both requests reach the C++ service, and the first one reaches the C service, too. -/
def duoDelivered : CallState Bool Bool :=
  ((duoAsked.deliverRequest false (duoRequest true) (duoPub true 0)).deliverRequest false
    (duoRequest false) (duoPub false 0)).deliverRequest true (duoRequest false) (duoPub false 0)

def duoTaken : CallState Bool Bool :=
  ((duoDelivered.takeRequest duo false).takeRequest duo false).takeRequest duo true

/-- The C++ service answers 1 to "a", and then -1 to "b", which it took before. -/
def duoAnswered : CallState Bool Bool :=
  (duoTaken.sendResponse duo false .ok (headerOf (duoPub false 0).key)
    (.cpp [.prim .char (.one ⟨1⟩)])).sendResponse duo false .ok (headerOf (duoPub true 0).key)
    (.cpp [.prim .char (.one ⟨0xFF⟩)])

def duoDone : CallState Bool Bool :=
  ((((((duoAnswered.deliverAck true (duoPub true 1) [0x81, 0x20]).deliverAck false (duoPub false 1)
    [0x81, 0x01]).takeResponse duo true).takeResponse duo false).returnSent duo false 1 .ok)
    |>.returnSent duo true 1 .ok)

theorem duoTaken_reachable : (callMachine duo).Reachable duoTaken := by
  have hFirst : (callMachine duo).Reachable _ := Machine.Reachable.step (e := ()) (.init rfl)
    (@CallStep.publish _ _ _ _ _ _ duo _ false (.c [.string (.one ⟨some [0x61]⟩)])
      (duoRequest false).payload true rfl rfl (by decide))
  have hAsked : (callMachine duo).Reachable duoAsked := hFirst.step (e := ())
    (@CallStep.publish _ _ _ _ _ _ duo _ true (.cpp [.string (.one [0x62])])
      (duoRequest true).payload true rfl rfl (by decide))
  have hOther := hAsked.step (e := ()) (@CallStep.deliverRequest _ _ _ _ _ _ duo _ false
    (duoRequest true) (duoPub true 0) List.mem_cons_self List.not_mem_nil rfl rfl)
  have hBoth := hOther.step (e := ()) (@CallStep.deliverRequest _ _ _ _ _ _ duo _ false
    (duoRequest false) (duoPub false 0) (List.mem_cons_of_mem _ List.mem_cons_self) (by decide)
    rfl rfl)
  have hDelivered : (callMachine duo).Reachable duoDelivered := hBoth.step (e := ())
    (@CallStep.deliverRequest _ _ _ _ _ _ duo _ true (duoRequest false) (duoPub false 0)
      (List.mem_cons_of_mem _ List.mem_cons_self) (by decide) rfl rfl)
  have hTake := hDelivered.step (e := ()) (@CallStep.takeRequest _ _ _ _ _ _ duo _ false)
  have hTake' := hTake.step (e := ()) (@CallStep.takeRequest _ _ _ _ _ _ duo _ false)
  exact hTake'.step (e := ()) (@CallStep.takeRequest _ _ _ _ _ _ duo _ true)

theorem duoDone_reachable : (callMachine duo).Reachable duoDone := by
  have hRespond := duoTaken_reachable.step (e := ()) (@CallStep.sendResponse _ _ _ _ _ _ duo _
    false .ok (headerOf (duoPub false 0).key) (.cpp [.prim .char (.one ⟨1⟩)]))
  have hAnswered : (callMachine duo).Reachable duoAnswered := hRespond.step (e := ())
    (@CallStep.sendResponse _ _ _ _ _ _ duo _ false .ok (headerOf (duoPub true 0).key)
      (.cpp [.prim .char (.one ⟨0xFF⟩)]))
  have hAck := hAnswered.step (e := ()) (@CallStep.deliverAck _ _ _ _ _ _ duo _ false true
    { pub := some (duoPub true 0), payload := [0x81, 0x20], status := .ok } (duoPub true 0)
    (duoPub true 1) List.mem_cons_self rfl rfl rfl rfl rfl)
  have hAck' := hAck.step (e := ()) (@CallStep.deliverAck _ _ _ _ _ _ duo _ false false
    { pub := some (duoPub false 0), payload := [0x81, 0x01], status := .ok } (duoPub false 0)
    (duoPub false 1) (List.mem_cons_of_mem _ List.mem_cons_self) rfl rfl rfl rfl rfl)
  have hTake := hAck'.step (e := ()) (@CallStep.takeResponse _ _ _ _ _ _ duo _ true)
  have hTake' := hTake.step (e := ()) (@CallStep.takeResponse _ _ _ _ _ _ duo _ false)
  have hReturn := hTake'.step (e := ()) (@CallStep.returnSent _ _ _ _ _ _ duo _ false 1 .ok rfl)
  exact hReturn.step (e := ()) (@CallStep.returnSent _ _ _ _ _ _ duo _ true 1 .ok rfl)

/-- Each client gets the response to its own request, from a service of the other package or
of its own. -/
theorem duo_paired : duoDone.Paired duo ∧
    .responseTaken false (headerOf (duoPub false 0).key) (some (.c [.prim .char (.one ⟨1⟩)])) ∈
      duoDone.history ∧
    .responseTaken true (headerOf (duoPub true 0).key) (some (.cpp [.prim .char (.one ⟨0xFF⟩)])) ∈
      duoDone.history := by
  have hLawful : DpsCbor.Lawful := rfcCbor_lawful
  have hExact : DpsCbor.Exact := rfcCbor_exact
  refine ⟨calls_paired duoDone_reachable, ?_, ?_⟩
  · exact List.mem_cons_of_mem _ (List.mem_cons_of_mem _ List.mem_cons_self)
  · exact List.mem_cons_of_mem _ (List.mem_cons_of_mem _ (List.mem_cons_of_mem _
      List.mem_cons_self))

end Solo

end Messaging
end RmwDps
