import RmwDps.Messaging.InOrder

/-!
# Who sent a message

A subscription gets a gid with each message, and `rmw_compare_gids_equal` says whether it
is that of a given publisher.  In every run, whatever the values and the codec, the take
that finds the next payload is about the next message published.  A take that throws uses
up its own message and no other, so the gids that the later ones give stay right, and a
caller who keeps what compares equal to one publisher has messages of that publisher alone,
in the order they were published.
-/

namespace RmwDps
namespace Messaging

open Serialization

/-- `rmw_compare_gids_equal`.  `result` is what the caller's pointer leads to, before and
after. -/
def rmwCompareGidsEqual (gid1 gid2 : Option RmwGid) (result : Option Bool) :
    RmwRet × Option Bool :=
  match gid1 with
  | none => (.error "gid1 is null", result)
  | some gid1 =>
      if gid1.implementationIdentifier ≠ intelDpsIdentifier then
        (.error "guid1 handle not from this implementation", result)
      else
        match gid2 with
        | none => (.error "gid2 is null", result)
        | some gid2 =>
            if gid2.implementationIdentifier ≠ intelDpsIdentifier then
              (.error "gid1 handle not from this implementation", result)
            else
              match result with
              | none => (.error "result is null", none)
              -- `memcmp` on `sizeof(DPS_UUID)` bytes.
              | some _ => (.ok, some (decide (gid1.data.take 16 = gid2.data.take 16)))

/-! ## Gids of publications -/

section Gids

variable {pub other : DpsPublication} {gid1 gid2 : Option RmwGid} {result : Option Bool}

theorem take_assignMessageInfo : (assignMessageInfo (some pub)).data.take 16 = pub.uuid.toList := by
  simp [assignMessageInfo]

/-- Gids that come from publications compare as their uuids do. -/
theorem rmwCompareGidsEqual_assignMessageInfo (previous : Bool) :
    rmwCompareGidsEqual (some (assignMessageInfo (some pub)))
        (some (assignMessageInfo (some other))) (some previous) =
      (.ok, some (decide (other.uuid = pub.uuid))) := by
  have hBytes : pub.uuid.toList = other.uuid.toList ↔ other.uuid = pub.uuid := by
    rw [Vector.toList_inj, eq_comm]
  unfold rmwCompareGidsEqual
  simp only [take_assignMessageInfo, hBytes]
  rfl

end Gids

/-! ## Takes that find data -/

/-- A take that found data, and what it came to. -/
structure Found where
  data : Data
  withInfo : Bool
  report : Report

section Found

variable {ι : Type}

def ExchangeEvent.found : ExchangeEvent ι → List Found
  | .take (some data) withInfo report => [{ data, withInfo, report }]
  | _ => []

/-- The takes that found data, in order. -/
def foundIn (events : List (ExchangeEvent ι)) : List Found := events.flatMap ExchangeEvent.found

def Found.receipt (found : Found) : List Receipt :=
  match found.report with
  | .took message gid => [{ data := found.data, withInfo := found.withInfo, message, gid }]
  | .nothing | .failed => []

theorem mem_foundIn {events : List (ExchangeEvent ι)} {found : Found} :
    found ∈ foundIn events ↔ .take (some found.data) found.withInfo found.report ∈ events := by
  unfold foundIn
  rw [List.mem_flatMap]
  constructor
  · rintro ⟨event, hEvent, hFound⟩
    cases event with
    | take item withInfo report =>
        cases item with
        | none => cases hFound
        | some data =>
            obtain rfl := List.mem_singleton.mp hFound
            exact hEvent
    | _ => cases hFound
  · intro hEvent
    exact ⟨_, hEvent, List.mem_singleton_self _⟩

/-- The payloads that the takes found are those that the channel gave. -/
theorem taken_transportOf_found (events : List (ExchangeEvent ι)) :
    Fifo.taken (transportOf events) = (foundIn events).map Found.data := by
  induction events with
  | nil => rfl
  | cons event events ih =>
      have hTail : Fifo.taken (transportOf events) = (foundIn events).map Found.data := ih
      cases event with
      | take item withInfo report =>
          cases item <;>
            simpa [transportOf, foundIn, Fifo.taken, ExchangeEvent.transport, ExchangeEvent.found,
              Fifo.Event.taken] using hTail
      | _ =>
          simpa [transportOf, foundIn, Fifo.taken, ExchangeEvent.transport, ExchangeEvent.found,
            Fifo.Event.taken] using hTail

theorem receiptsIn_eq_found (events : List (ExchangeEvent ι)) :
    receiptsIn events = (foundIn events).flatMap Found.receipt := by
  induction events with
  | nil => rfl
  | cons event events ih =>
      have hTail : receiptsIn events = (foundIn events).flatMap Found.receipt := ih
      have hHead : event.receipt = event.found.flatMap Found.receipt := by
        cases event with
        | take item withInfo report => cases item <;> cases report <;> rfl
        | _ => rfl
      show event.receipt ++ receiptsIn events = (event.found ++ foundIn events).flatMap _
      rw [List.flatMap_append, hHead, hTail]

end Found

/-! ## What is to hold -/

section Statement

variable {ι : Type} [DecidableEq ι] (peers : Peers ι)

/-- The gid that `rmw_get_gid_for_publisher` gives. -/
def Peers.gidOf (p : ι) : Option RmwGid := (rmwGetGidForPublisher (some (peers.publisherOf p))).2

/-- The take threw, or it gave a gid that compares equal to that of `p` alone, or it was
not asked for one. -/
def Found.Names (p : ι) (found : Found) : Prop :=
  match found.report with
  | .took _ gid =>
      if found.withInfo then
        ∀ q previous, rmwCompareGidsEqual gid (peers.gidOf q) (some previous) =
          (.ok, some (decide (q = p)))
      else gid = none
  | .nothing => False
  | .failed => True

/-- The caller compares the gid of the receipt with that of the publisher. -/
def Receipt.isFrom (q : ι) (receipt : Receipt) : Bool :=
  rmwCompareGidsEqual receipt.gid (peers.gidOf q) (some false) = (.ok, some true)

/-- The takes that find data are about the messages published, one after the other, and
what compares equal to a publisher is what that one published. -/
structure Attributed (events : List (ExchangeEvent ι)) : Prop where
  kth : ∀ (k : Nat) (found : Found), (foundIn events)[k]? = some found →
    ∃ sent, (sentIn events)[k]? = some sent ∧ found.data = sent.data ∧ found.Names peers sent.p
  ofSender : ∀ q, List.Sublist
    (((receiptsIn events).filter (Receipt.isFrom peers q)).map Receipt.data)
    (((sentIn events).filter fun sent => sent.p = q).map Sent.data)

end Statement

/-! ## Every run -/

section Names

variable {ι : Type} [DecidableEq ι] {peers : Peers ι} {p q : ι} {found : Found}

/-- A receipt of a take about a message of `p` is taken for one of `q` only if `q` is `p`. -/
theorem Found.Names.filter_receipt (hNames : found.Names peers p) :
    found.receipt.filter (Receipt.isFrom peers q) = [] ∨
      q = p ∧ (found.receipt.filter (Receipt.isFrom peers q)).map Receipt.data = [found.data] := by
  obtain ⟨data, withInfo, report⟩ := found
  cases report with
  | took message gid =>
      cases withInfo with
      | false =>
          -- Without a gid the comparison fails, for every publisher.
          obtain rfl : gid = none := hNames
          exact .inl rfl
      | true =>
          have hCompare := hNames q false
          have hFrom : Receipt.isFrom peers q { data, withInfo := true, message, gid } =
              decide (q = p) := by
            simp [Receipt.isFrom, hCompare]
          have hSingle : Found.receipt { data, withInfo := true, report := .took message gid } =
              [{ data, withInfo := true, message, gid }] := rfl
          rw [hSingle]
          by_cases hSame : q = p
          · right
            rw [List.filter_cons_of_pos (hFrom.trans (decide_eq_true hSame))]
            exact ⟨hSame, rfl⟩
          · left
            rw [List.filter_cons_of_neg (by rw [hFrom]; simpa using hSame)]
            rfl
  | nothing => exact hNames.elim
  | failed => exact .inl rfl

/-- Takes about messages, one for one: those that compare equal to `q` are about messages
of `q`, in their order. -/
theorem sublist_ofSender {founds : List Found} {senders : List (Sent ι)}
    (hAll : List.Forall₂ (fun found sent => found.data = sent.data ∧ found.Names peers sent.p)
      founds senders) :
    List.Sublist
      (((founds.flatMap Found.receipt).filter (Receipt.isFrom peers q)).map Receipt.data)
      ((senders.filter fun sent => sent.p = q).map Sent.data) := by
  induction hAll with
  | nil => exact List.Sublist.refl _
  | @cons found sent founds senders hHead _ ih =>
      obtain ⟨hData, hNames⟩ := hHead
      rw [List.flatMap_cons, List.filter_append, List.map_append]
      rcases hNames.filter_receipt (q := q) with hNone | ⟨rfl, hOne⟩
      · rw [hNone, List.map_nil, List.nil_append]
        exact ih.trans ((List.Sublist.filter _ (List.sublist_cons_self sent senders)).map _)
      · rw [hOne, hData]
        have hKept : (sent :: senders).filter (fun other => other.p = sent.p) =
            sent :: senders.filter fun other => other.p = sent.p :=
          List.filter_cons_of_pos (decide_eq_true rfl)
        rw [hKept]
        exact ih.cons_cons _

end Names

section Runs

variable [DpsCbor] [Platform] {ι β : Type} [DecidableEq ι] [DecidableEq β] {resize : Resize}
  {peers : Peers ι} {s : Exchange ι β}

omit [DecidableEq β] in
/-- A take that found the data of a message reports about that message. -/
theorem names_of_faithful (hInjective : Function.Injective peers.uuid) {found : Found}
    {sent : Sent ι} (hData : found.data = sent.data)
    (hFound : (ExchangeEvent.take (some found.data) found.withInfo found.report :
      ExchangeEvent ι).Faithful peers)
    (hSent : (ExchangeEvent.published sent.p sent.value sent.data).Faithful peers) :
    found.Names peers sent.p := by
  obtain ⟨pub, ser, hReceived, hUuid, -⟩ := hSent
  have hReport : found.report = .expected peers found.withInfo (some found.data) := hFound
  rw [hData, hReceived, Listener.received, Report.expected] at hReport
  unfold Found.Names
  rw [hReport]
  cases deserializeRosMessage (RxStream.ofBytes ser.data)
      (.of peers.subscriber.package peers.members) with
  | error fault => trivial
  | ok message =>
      cases found.withInfo with
      | false => rfl
      | true =>
          intro q previous
          have hGid : peers.gidOf q = some (assignMessageInfo (some { pub with
            uuid := peers.uuid q })) := gid_of_uuid rfl
          rw [hGid, if_pos rfl, rmwCompareGidsEqual_assignMessageInfo, hUuid]
          simp only [hInjective.eq_iff]

omit [DecidableEq β] in
theorem Exchange.Refines.attributed (hRefines : s.Refines peers)
    (hInjective : Function.Injective peers.uuid) : Attributed peers s.events := by
  -- The channel gives the messages in order, and each end of it is faithful.
  have hKth : ∀ (k : Nat) (found : Found), (foundIn s.events)[k]? = some found →
      ∃ sent, (sentIn s.events)[k]? = some sent ∧ found.data = sent.data ∧
        found.Names peers sent.p := by
    intro k found hFound
    have hTaken : (Fifo.taken (transportOf s.events))[k]? = some found.data := by
      rw [taken_transportOf_found, List.getElem?_map, hFound]
      rfl
    have hSent := hRefines.channel.sent_of_taken hTaken
    rw [sent_transportOf, List.getElem?_map, Option.map_eq_some_iff] at hSent
    obtain ⟨sent, hSent, hData⟩ := hSent
    have hPublished := mem_sentIn.mp (List.mem_of_getElem? hSent)
    have hTake := mem_foundIn.mp (List.mem_of_getElem? hFound)
    exact ⟨sent, hSent, hData.symm, names_of_faithful hInjective hData.symm
      (hRefines.events _ hTake) (hRefines.events _ hPublished)⟩
  refine ⟨hKth, fun q => ?_⟩
  have hLength : (foundIn s.events).length ≤ (sentIn s.events).length := by
    have hPrefix := hRefines.channel.taken_prefix.length_le
    rwa [taken_transportOf_found, sent_transportOf, List.length_map, List.length_map] at hPrefix
  have hAll : List.Forall₂ (fun found sent => found.data = sent.data ∧ found.Names peers sent.p)
      (foundIn s.events) ((sentIn s.events).take (foundIn s.events).length) := by
    refine List.forall₂_iff_get.mpr ⟨by simpa using hLength, fun k hk hk' => ?_⟩
    obtain ⟨sent, hSent, hNames⟩ := hKth k _ (List.getElem?_eq_getElem hk)
    obtain ⟨hLt, rfl⟩ := List.getElem?_eq_some_iff.mp hSent
    simpa using hNames
  rw [receiptsIn_eq_found]
  exact (sublist_ofSender hAll).trans
    (((List.take_sublist _ _).filter _).map _)

end Runs

end Messaging
end RmwDps
