import RmwDps.Foundation.Rfc7049Items
import RmwDps.Serialization.DecodeBounds
import RmwDps.Serialization.RfcCbor

/-!
# Which payloads are CBOR

The head of a message announces as many elements as the message has members.  A member is
written as one data item, whatever its kind and shape, with one exception: an array of
nested messages is written as its elements one after the other, and a sequence of them as
an integer with the elements behind it.  The surplus stands behind the array that it was
to be part of, where the decoder of the package finds it, since it knows the description,
and no other reader does.
-/

namespace RmwDps
namespace Serialization

open Rfc7049 (Items IsItem IsArray)

/-! ## What is to hold -/

/-- The property of every nested message that a member holds. -/
def Value.EachNested {μ : MembersType} (sub : Message μ → Prop) : Value μ → Prop
  | .message msg => sub msg
  | .messages msgs => ∀ msg ∈ msgs, sub msg
  | _ => True

section Statement

variable [DpsCbor] [Platform] {μ : MembersType}

/-- The message is written as an array of as many elements as it has members. -/
def MessageMembers.WrittenAsArray (members : MessageMembers) (msg : Message μ) : Prop :=
  ∃ bytes, Writes (serializeROSmessage members msg) bytes ∧ IsArray members.memberCount bytes

/-- So are the nested messages, at every level. -/
def MessageMembers.NestedArrays : MessageMembers → Message μ → Prop
  | .cons _ submembers rest, value :: values =>
      value.EachNested (fun msg => submembers.WrittenAsArray msg ∧ submembers.NestedArrays msg) ∧
        rest.NestedArrays values
  | _, _ => True

/-- What the public serializer writes is one data item, and an array of as many elements as
the message has members if it has any, at every level. -/
def WellFormedPayload (members : MessageMembers) (msg : Message μ) : Prop :=
  ∀ hint ser, TypeSupport.serializeROSmessage members msg (TxStream.new hint) = .ok (true, ser) →
    IsItem ser.data ∧
      (members.memberCount ≠ 0 → IsArray members.memberCount ser.data) ∧ members.NestedArrays msg

end Statement

/-! ## The number of items -/

/-- A member is written as one item: no sequence of messages has an element, and no array of
messages has more than one. -/
def Value.OneItem {μ : MembersType} (member : MessageMember) (sub : Message μ → Prop) :
    Value μ → Prop
  | .message msg => sub msg
  | .messages msgs => if member.isFixedArray then ∃ msg, msgs = [msg] ∧ sub msg else msgs = []
  | _ => True

/-- Every member is, at every level. -/
def MessageMembers.OneItemEach {μ : MembersType} : MessageMembers → Message μ → Prop
  | .cons member submembers rest, value :: values =>
      value.OneItem member (fun msg => submembers.OneItemEach msg) ∧ rest.OneItemEach values
  | _, _ => True

/-- The number of items of a member, given those of a nested message. -/
def Value.itemCount {μ : MembersType} (member : MessageMember) (sub : Message μ → Nat) :
    Value μ → Nat
  | .message msg => sub msg
  | .messages msgs => (if member.isFixedArray then 0 else 1) + (msgs.map sub).sum
  | _ => 1

/-- The number of items of the members.  A nested message is an array of the first of them,
and the surplus. -/
def MessageMembers.itemCount {μ : MembersType} : MessageMembers → Message μ → Nat
  | .cons member submembers rest, value :: values =>
      value.itemCount member
          (fun msg => submembers.itemCount msg - submembers.memberCount + 1) +
        rest.itemCount values
  | _, _ => 0

/-! ## Items of fields -/

section Items

variable [Platform] {T : Type} {item : T → List UInt8} {xs : List T}

omit [Platform] in
theorem arrayItem_items (hLength : xs.length < 2 ^ 64) (hItem : ∀ x ∈ xs, Items 1 (item x)) :
    Items 1 (arrayItem item xs) := by
  have hElements : Items (xs.map fun _ => 1).sum (xs.flatMap item) := Items.flatMap hItem
  rw [List.map_const', List.sum_replicate, smul_eq_mul, Nat.mul_one] at hElements
  have hBody : Items (xs.length + 0) (xs.flatMap item) := hElements
  exact Items.array hLength hBody

theorem PrimType.item_items (t : PrimType) (x : t.Carrier) : Items 1 (t.item x) := by
  cases t with
  | bool => exact Items.bool x
  | uint8 => exact Items.uint (Nat.lt_trans x.toNat_lt (by decide))
  | char => exact Items.int x.toInt64.le_toInt (Int.lt_trans x.toInt64.toInt_lt (by decide))
  | float => exact Items.float32 x.bits
  | double => exact Items.float64 x.bits
  | int16 =>
      exact Items.int (Int.le_trans (by decide) x.le_toInt) (Int.lt_trans x.toInt_lt (by decide))
  | uint16 => exact Items.uint (Nat.lt_trans x.toNat_lt (by decide))
  | int32 =>
      exact Items.int (Int.le_trans (by decide) x.le_toInt) (Int.lt_trans x.toInt_lt (by decide))
  | uint32 => exact Items.uint (Nat.lt_trans x.toNat_lt (by decide))
  | int64 => exact Items.int x.le_toInt (Int.lt_trans x.toInt_lt (by decide))
  | uint64 => exact Items.uint x.toNat_lt

/-- Every array of primitives is one item: octets are a byte string, the others an array. -/
theorem PrimType.arrayItem_items (t : PrimType) {xs : List t.Carrier}
    (hLength : xs.length < 2 ^ 64) : Items 1 (t.arrayItem xs) := by
  cases t with
  | uint8 => exact Items.bytes hLength
  | _ => exact Serialization.arrayItem_items hLength fun x _ => PrimType.item_items _ x

omit [Platform] in
theorem FieldMem.wire_items {arrayItem : List T → List UInt8} {member : MessageMember}
    {field : FieldMem T} (hFits : field.Fits member) (hItem : ∀ x ∈ field.items, Items 1 (item x))
    (hArray : ∀ xs : List T, xs.length < 2 ^ 64 → (∀ x ∈ xs, Items 1 (item x)) →
      Items 1 (arrayItem xs)) :
    Items 1 (field.wire item arrayItem) := by
  cases field with
  | one x => exact hItem x List.mem_cons_self
  | many xs => exact hArray xs hFits.2.1 hItem

omit [Platform] in
theorem u16stringItem_items {s : StdU16String} (hLength : s.length < 2 ^ 64) :
    Items 1 (u16stringItem s) :=
  arrayItem_items hLength fun unit _ => Items.uint (Nat.lt_trans unit.toNat_lt (by decide))

end Items

/-! ## Counting -/

section Counts

variable {μ : MembersType} {member : MessageMember}

/-- The nested messages of a sequence are at least as many items. -/
theorem length_le_sum_itemCount {SubFits : Message μ → Prop} {subCount : Message μ → Nat}
    (hSub : ∀ msg, SubFits msg → 1 ≤ subCount msg) {msgs : List (Message μ)}
    (hMsgs : ∀ msg ∈ msgs, SubFits msg) : msgs.length ≤ (msgs.map subCount).sum := by
  have hEach : ∀ n ∈ msgs.map subCount, 1 ≤ n := by
    intro n hn
    obtain ⟨msg, hMem, rfl⟩ := List.mem_map.mp hn
    exact hSub msg (hMsgs msg hMem)
  simpa using List.length_le_sum_of_one_le _ hEach

theorem Value.itemCount_pos {SubFits : Message μ → Prop} {subCount : Message μ → Nat}
    (hSub : ∀ msg, SubFits msg → 1 ≤ subCount msg) {value : Value μ}
    (hFits : value.Fits member SubFits) : 1 ≤ value.itemCount member subCount := by
  cases value with
  | prim t field => exact le_rfl
  | string field => exact le_rfl
  | wstring field => exact le_rfl
  | message msg => exact hSub msg hFits.2.2
  | messages msgs =>
      obtain ⟨-, -, hLength, hMsgs⟩ := hFits
      have hSum := length_le_sum_itemCount hSub hMsgs
      simp only [Value.itemCount]
      by_cases hFixed : member.isFixedArray = true
      · rw [if_pos hFixed] at hLength
        have hSize := MessageMember.arraySize_pos hFixed
        omega
      · rw [if_neg hFixed]
        omega

theorem Value.itemCount_eq_one_iff {SubFits SubOne : Message μ → Prop}
    {subCount : Message μ → Nat} (hSub : ∀ msg, SubFits msg → 1 ≤ subCount msg)
    (hOne : ∀ msg, SubFits msg → (subCount msg = 1 ↔ SubOne msg)) {value : Value μ}
    (hFits : value.Fits member SubFits) :
    value.itemCount member subCount = 1 ↔ value.OneItem member SubOne := by
  cases value with
  | prim t field => exact iff_of_true rfl trivial
  | string field => exact iff_of_true rfl trivial
  | wstring field => exact iff_of_true rfl trivial
  | message msg => exact hOne msg hFits.2.2
  | messages msgs =>
      obtain ⟨-, -, hLength, hMsgs⟩ := hFits
      have hSum := length_le_sum_itemCount hSub hMsgs
      simp only [Value.itemCount, Value.OneItem]
      by_cases hFixed : member.isFixedArray = true
      · rw [if_pos hFixed] at hLength
        rw [if_pos hFixed, if_pos hFixed, Nat.zero_add]
        have hSize := MessageMember.arraySize_pos hFixed
        constructor
        · intro hTotal
          obtain ⟨msg, rfl⟩ := List.length_eq_one_iff.mp (by omega : msgs.length = 1)
          refine ⟨msg, rfl, (hOne msg (hMsgs msg List.mem_cons_self)).mp ?_⟩
          simpa using hTotal
        · rintro ⟨msg, rfl, hMsg⟩
          simpa using (hOne msg (hMsgs msg List.mem_cons_self)).mpr hMsg
      · rw [if_neg hFixed, if_neg hFixed]
        constructor
        · intro hTotal
          exact List.length_eq_zero_iff.mp (by omega)
        · rintro rfl
          rfl

theorem MessageMembers.memberCount_le_itemCount {members : MessageMembers} :
    ∀ {msg : Message μ}, members.Fits msg → members.memberCount ≤ members.itemCount msg := by
  induction members with
  | nil => exact fun _ => le_rfl
  | cons member submembers rest ihSub ihRest =>
      intro msg hFits
      cases msg with
      | nil => exact hFits.elim
      | cons value values =>
          have hValue : 1 ≤ value.itemCount member fun msg =>
              submembers.itemCount msg - submembers.memberCount + 1 :=
            Value.itemCount_pos (fun _ _ => Nat.le_add_left 1 _) hFits.1
          have hRest := ihRest hFits.2
          rw [memberCount, itemCount]
          omega

/-- Every member is one item if and only if nothing is left behind the array. -/
theorem MessageMembers.itemCount_eq_iff {members : MessageMembers} :
    ∀ {msg : Message μ}, members.Fits msg →
      (members.itemCount msg = members.memberCount ↔ members.OneItemEach msg) := by
  induction members with
  | nil => exact fun {msg} _ => iff_of_true rfl (by cases msg <;> trivial)
  | cons member submembers rest ihSub ihRest =>
      intro msg hFits
      cases msg with
      | nil => exact hFits.elim
      | cons value values =>
          have hSubOne : ∀ msg : Message μ,
              submembers.memberCount < 2 ^ 32 ∧ submembers.Fits msg →
              (submembers.itemCount msg - submembers.memberCount + 1 = 1 ↔
                submembers.OneItemEach msg) := by
            intro msg hMsg
            have hLe := memberCount_le_itemCount hMsg.2
            rw [← ihSub hMsg.2]
            omega
          have hPos : ∀ msg : Message μ,
              submembers.memberCount < 2 ^ 32 ∧ submembers.Fits msg →
              1 ≤ submembers.itemCount msg - submembers.memberCount + 1 :=
            fun _ _ => Nat.le_add_left 1 _
          have hValue := Value.itemCount_pos hPos hFits.1
          have hRest := memberCount_le_itemCount hFits.2
          have hValueOne := Value.itemCount_eq_one_iff hPos hSubOne hFits.1
          rw [memberCount, itemCount, OneItemEach, ← hValueOne, ← ihRest hFits.2]
          omega

theorem Value.eachNested_of_oneItem {member : MessageMember}
    {SubFits SubRefused SubOne SubArray : Message μ → Prop}
    (hSub : ∀ msg, SubFits msg → ¬ SubRefused msg → SubOne msg → SubArray msg) {value : Value μ}
    (hFits : value.Fits member SubFits) (hFine : ¬ value.Refused member SubRefused)
    (hOne : value.OneItem member SubOne) : value.EachNested SubArray := by
  cases value with
  | prim t field => trivial
  | string field => trivial
  | wstring field => trivial
  | message msg => exact hSub msg hFits.2.2 hFine hOne
  | messages msgs =>
      obtain ⟨-, -, -, hMsgs⟩ := hFits
      intro msg hMem
      refine hSub msg (hMsgs msg hMem) (fun hRefused => hFine (.inr ⟨msg, hMem, hRefused⟩)) ?_
      simp only [OneItem] at hOne
      split at hOne
      · obtain ⟨only, rfl, hOnly⟩ := hOne
        rwa [List.mem_singleton.mp hMem]
      · subst hOne
        cases hMem

end Counts

/-! ## Items of messages -/

section Messages

variable [Platform] {μ : MembersType} {member : MessageMember}

theorem Value.wire_items {SubFits : Message μ → Prop} {subWire : Message μ → List UInt8}
    {subCount : Message μ → Nat} (hSub : ∀ msg, SubFits msg → Items (subCount msg) (subWire msg))
    {value : Value μ} (hFits : value.Fits member SubFits) :
    Items (value.itemCount member subCount) (value.wire member subWire) := by
  cases value with
  | prim t field =>
      exact FieldMem.wire_items hFits.2 (fun x _ => t.item_items x)
        fun xs hLength _ => t.arrayItem_items hLength
  | string field =>
      obtain ⟨-, hField, hHolds⟩ := hFits
      exact FieldMem.wire_items hField (fun s hs => Items.text (hHolds s hs).2)
        fun xs hLength hItem => arrayItem_items hLength hItem
  | wstring field =>
      obtain ⟨-, hField, hHolds⟩ := hFits
      exact FieldMem.wire_items hField (fun s hs => u16stringItem_items (hHolds s hs).2)
        fun xs hLength hItem => arrayItem_items hLength hItem
  | message msg => exact hSub msg hFits.2.2
  | messages msgs =>
      obtain ⟨-, -, hLength, hMsgs⟩ := hFits
      have hElements : Items (msgs.map subCount).sum (msgs.flatMap subWire) :=
        Items.flatMap fun msg hMem => hSub msg (hMsgs msg hMem)
      unfold Value.itemCount Value.wire
      refine Items.append ?_ hElements
      by_cases hFixed : member.isFixedArray = true
      · simpa only [hFixed, if_true] using Items.nil
      · rw [if_neg hFixed] at hLength
        rw [if_neg hFixed, if_neg hFixed]
        exact Items.uint (by omega)

theorem MessageMembers.wire_items {members : MessageMembers} :
    ∀ {msg : Message μ}, members.Fits msg → Items (members.itemCount msg) (members.wire msg) := by
  induction members with
  | nil => exact fun _ => Items.nil
  | cons member submembers rest ihSub ihRest =>
      intro msg hFits
      cases msg with
      | nil => exact hFits.elim
      | cons value values =>
          have hSub : ∀ msg : Message μ, submembers.memberCount < 2 ^ 32 ∧ submembers.Fits msg →
              Items (submembers.itemCount msg - submembers.memberCount + 1)
                (Rfc7049.array submembers.memberCount ++ submembers.wire msg) := by
            intro msg hMsg
            apply Items.array (by omega)
            rw [Nat.add_sub_cancel' (memberCount_le_itemCount hMsg.2)]
            exact ihSub hMsg.2
          exact (Value.wire_items hSub hFits.1).append (ihRest hFits.2)

/-- The payload is one data item if every member is, and otherwise more than one. -/
theorem MessageMembers.payload_items {members : MessageMembers} {msg : Message μ}
    (hCount : members.memberCount < 2 ^ 32) (hFits : members.Fits msg) :
    Items (members.itemCount msg - members.memberCount + 1) (members.payload msg) := by
  unfold payload
  by_cases hEmpty : members.memberCount ≠ 0
  · rw [if_pos hEmpty]
    apply Items.array (by omega)
    rw [Nat.add_sub_cancel' (memberCount_le_itemCount hFits)]
    exact wire_items hFits
  · rw [if_neg hEmpty]
    cases members with
    | nil => exact Items.uint (by decide)
    | cons member submembers rest => simp [memberCount] at hEmpty

theorem MessageMembers.isArray_of_oneItemEach {members : MessageMembers} {msg : Message μ}
    (hCount : members.memberCount < 2 ^ 32) (hFits : members.Fits msg)
    (hOne : members.OneItemEach msg) :
    IsArray members.memberCount (Rfc7049.array members.memberCount ++ members.wire msg) := by
  have hItems := wire_items hFits
  rw [(itemCount_eq_iff hFits).mpr hOne] at hItems
  exact Items.isArray (by omega) hItems

end Messages

/-! ## Messages that are written -/

section Written

variable [DpsCbor] [DpsCbor.Lawful] [Platform] {μ : MembersType}

theorem MessageMembers.writtenAsArray_of_oneItemEach {members : MessageMembers} {msg : Message μ}
    (hCount : members.memberCount < 2 ^ 32) (hFits : members.Fits msg)
    (hFine : ¬ members.Refused msg) (hOne : members.OneItemEach msg) :
    members.WrittenAsArray msg := by
  have hSize : members.memberCount < 2 ^ 64 := by omega
  have hHead := putArrayHead_writes hSize
  have hMembers := (serializeMembers_writes hFits).writes hFine
  exact ⟨_, hHead.bind hMembers, isArray_of_oneItemEach hCount hFits hOne⟩

theorem MessageMembers.nestedArrays_of_oneItemEach {members : MessageMembers} :
    ∀ {msg : Message μ}, members.Fits msg → ¬ members.Refused msg → members.OneItemEach msg →
      members.NestedArrays msg := by
  induction members with
  | nil => exact fun {msg} _ _ _ => by cases msg <;> trivial
  | cons member submembers rest ihSub ihRest =>
      intro msg hFits hFine hOne
      cases msg with
      | nil => trivial
      | cons value values =>
          have hValueFine : ¬ value.Refused member (fun msg => submembers.Refused msg) :=
            fun hRefused => hFine (.inl (.inr hRefused))
          have hRestFine : ¬ rest.Refused values := fun hRefused => hFine (.inr hRefused)
          refine ⟨?_, ihRest hFits.2 hRestFine hOne.2⟩
          refine Value.eachNested_of_oneItem ?_ hFits.1 hValueFine hOne.1
          intro msg hMsg hMsgFine hMsgOne
          exact ⟨writtenAsArray_of_oneItemEach hMsg.1 hMsg.2 hMsgFine hMsgOne,
            ihSub hMsg.2 hMsgFine hMsgOne⟩

/-- A conforming value is written as well-formed CBOR if no nested sequence has an element
and no nested array more than one, or if it is not written at all, and not otherwise. -/
theorem wellFormedPayload_iff {members : MessageMembers} {msg : Message μ}
    (hConforms : members.Conforms msg) :
    WellFormedPayload members msg ↔ members.OneItemEach msg ∨ members.RefusedByWrap msg := by
  have hPass := serializePass_writes hConforms
  constructor
  · intro hWellFormed
    by_cases hRefused : members.RefusedByWrap msg
    · exact .inr hRefused
    · obtain ⟨ser, hOk, hData⟩ :=
        TypeSupport.serializeROSmessage_writes (hPass.writes hRefused) 0
      have hItem := (hWellFormed 0 ser hOk).1
      rw [hData] at hItem
      -- The payload is one item and so many items, so there is no surplus.
      have hSurplus := (MessageMembers.payload_items hConforms.count hConforms.fits).count_of_isItem
        hItem
      have hLe := MessageMembers.memberCount_le_itemCount hConforms.fits
      exact .inl ((MessageMembers.itemCount_eq_iff hConforms.fits).mp (by omega))
  · intro hFine hint ser hOk
    have hNotRefused := TypeSupport.not_refused_of_returns hPass hOk
    have hOne := hFine.resolve_right hNotRefused
    have hNot : ¬ members.Refused msg :=
      fun hRefused => hNotRefused
        ((MessageMembers.refused_iff hConforms.fits hConforms.bounded).mp hRefused)
    rw [TypeSupport.data_of_returns hPass hOk]
    refine ⟨?_, ?_, MessageMembers.nestedArrays_of_oneItemEach hConforms.fits hNot hOne⟩
    · have hItems := MessageMembers.payload_items hConforms.count hConforms.fits
      rw [(MessageMembers.itemCount_eq_iff hConforms.fits).mpr hOne, Nat.sub_self] at hItems
      exact hItems.isItem
    · intro hMembers
      rw [MessageMembers.payload, if_pos hMembers]
      exact MessageMembers.isArray_of_oneItemEach hConforms.count hConforms.fits hOne

end Written

/-! ## A message with nested ones -/

section Route

local instance routeCbor : DpsCbor := rfcCbor
local instance routePlatform : Platform := signedChar

/-- A place, an array of one place and a sequence of places, each of them an octet. -/
def routeMembers : MessageMembers :=
  let place : MessageMembers := .cons { typeId := .uint8 } .nil .nil
  .cons { typeId := .message } place <|
  .cons { typeId := .message, isArray := true, arraySize := 1 } place <|
  .cons { typeId := .message, isArray := true } place .nil

/-- A route with the given places between its ends. -/
def route (stops : List UInt8) : Message .cpp :=
  let place (octet : UInt8) : Message .cpp := [.prim .uint8 (.one octet)]
  [.message (place 1), .messages [place 2], .messages (stops.map place)]

theorem route_conforms (stops : List UInt8) (hStops : stops.length < 2 ^ 32) :
    routeMembers.Conforms (route stops) := by
  refine ⟨by decide, ?_, ?_⟩
  · simp [routeMembers, route, MessageMembers.Fits, Value.Fits, FieldMem.Fits, RosType.kind,
      MessageMember.isFixedArray, MessageMembers.memberCount]
    exact hStops
  · simp [routeMembers, route, MessageMembers.Bounded, Value.Bounded, FieldMem.Bounded,
      MessageMember.LengthOk, MessageMember.isFixedArray]

/-- Without stops the payload is an array of three items. -/
theorem route_wellFormedPayload : WellFormedPayload routeMembers (route []) := by
  have hLawful : DpsCbor.Lawful := rfcCbor_lawful
  refine (wellFormedPayload_iff (route_conforms [] (by decide))).mpr (.inl ?_)
  simp [routeMembers, route, MessageMembers.OneItemEach, Value.OneItem, MessageMember.isFixedArray]

/-- With a stop it is four items behind an array head that announces three. -/
theorem route_not_wellFormedPayload :
    routeMembers.Conforms (route [7]) ∧ ¬ WellFormedPayload routeMembers (route [7]) := by
  refine ⟨route_conforms [7] (by decide), ?_⟩
  intro hWellFormed
  have hItem : IsItem [0x83, 0x81, 1, 0x81, 2, 1, 0x81, 7] := (hWellFormed 64 _ rfl).1
  have hCount : routeMembers.memberCount < 2 ^ 32 := by decide
  have hItems := MessageMembers.payload_items hCount (route_conforms [7] (by decide)).fits
  exact absurd (hItems.count_of_isItem hItem) (by decide)

end Route

end Serialization
end RmwDps
