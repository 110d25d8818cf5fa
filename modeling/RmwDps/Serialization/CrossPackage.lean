import RmwDps.Serialization.RoundTrip
import RmwDps.Serialization.PayloadGrammar

/-!
# The two packages speak the same wire format

An abstract value is the C++ representation; `MessageMembers.toC` is the C
representation of the same value, which exists when no string has a zero code
unit.  Both representations have the same wire format and the same
conformance, so whatever one type support writes the other one reads: what one
of them cannot read back, because plain `char` is unsigned and an element has the
highest bit, the other one cannot either.
-/

namespace RmwDps
namespace Serialization

/-! ## The C representation of a value -/

def FieldMem.map {S T : Type} (f : S → T) : FieldMem S → FieldMem T
  | .one x => .one (f x)
  | .many xs => .many (xs.map f)

/-- The C string with the given code units. -/
def RosidlString.ofUnits {U : Type} (units : List U) : RosidlString U := ⟨some units⟩

/-- The C representation of a member, given that of a nested message. -/
def Value.toC (sub : Message .cpp → Message .c) : Value .cpp → Value .c
  | .prim t field => .prim t field
  | .string field => .string (field.map RosidlString.ofUnits)
  | .wstring field => .wstring (field.map RosidlString.ofUnits)
  | .message msg => .message (sub msg)
  | .messages msgs => .messages (msgs.map sub)

def MessageMembers.toC : MessageMembers → Message .cpp → Message .c
  | .nil, _ => []
  | .cons _ _ _, [] => []
  | .cons _ submembers rest, value :: values =>
      value.toC submembers.toC :: rest.toC values

/-- No string of the member has a zero code unit. -/
def Value.ZeroFree (sub : Message .cpp → Prop) : Value .cpp → Prop
  | .prim _ _ => True
  | .string field => ∀ s ∈ field.items, (0 : UInt8) ∉ s
  | .wstring field => ∀ s ∈ field.items, (0 : UInt16) ∉ s
  | .message msg => sub msg
  | .messages msgs => ∀ msg ∈ msgs, sub msg

/-- No string of the message has a zero code unit, so that the C package can
hold it. -/
def MessageMembers.ZeroFree : MessageMembers → Message .cpp → Prop
  | .nil, _ => True
  | .cons _ _ _, [] => True
  | .cons _ submembers rest, value :: values =>
      value.ZeroFree submembers.ZeroFree ∧ rest.ZeroFree values

/-! ## Fields -/

section Fields

variable {S T : Type} {f : S → T} {member : MessageMember}

@[simp] theorem FieldMem.items_map (field : FieldMem S) :
    (field.map f).items = field.items.map f := by
  cases field <;> rfl

@[simp] theorem FieldMem.fits_map {field : FieldMem S} :
    (field.map f).Fits member ↔ field.Fits member := by
  cases field <;> simp [FieldMem.map, FieldMem.Fits]

@[simp] theorem FieldMem.bounded_map {elementOk : T → Prop} {field : FieldMem S} :
    (field.map f).Bounded member elementOk ↔
      field.Bounded member fun x => elementOk (f x) := by
  cases field <;> simp [FieldMem.map, FieldMem.Bounded]

theorem FieldMem.wire_map {item : T → List UInt8} (field : FieldMem S) :
    (field.map f).wire item (arrayItem item) =
      field.wire (fun x => item (f x)) (arrayItem fun x => item (f x)) := by
  cases field with
  | one x => rfl
  | many xs => exact arrayItem_map item f xs

end Fields

theorem MembersType.holds_ofUnits {U : Type} [Zero U] {units : List U}
    (hHolds : MembersType.Holds .cpp units) (hUnits : (0 : U) ∉ units) :
    MembersType.Holds .c (RosidlString.ofUnits units) :=
  ⟨⟨units, rfl, hUnits⟩, hHolds.2⟩

theorem FieldMem.holds_ofUnits {U : Type} [Zero U] {field : FieldMem (List U)}
    (hHolds : ∀ s ∈ field.items, MembersType.Holds .cpp s)
    (hUnits : ∀ s ∈ field.items, (0 : U) ∉ s) :
    ∀ s ∈ (field.map RosidlString.ofUnits).items, MembersType.Holds .c s := by
  intro s hs
  rw [FieldMem.items_map, List.mem_map] at hs
  obtain ⟨units, hMem, rfl⟩ := hs
  exact MembersType.holds_ofUnits (hHolds units hMem) (hUnits units hMem)

/-! ## Members and messages -/

section Representations

variable {member : MessageMember} {toC : Message .cpp → Message .c}

theorem Value.wire_toC [Platform] {sub : Message .cpp → List UInt8}
    {subC : Message .c → List UInt8} (hSub : ∀ msg, subC (toC msg) = sub msg)
    (value : Value .cpp) :
    (value.toC toC).wire member subC = value.wire member sub := by
  cases value with
  | prim t field => rfl
  | string field => exact FieldMem.wire_map field
  | wstring field => exact FieldMem.wire_map field
  | message msg => exact hSub msg
  | messages msgs => simp [Value.toC, Value.wire, List.flatMap_map, hSub]

theorem Value.fits_toC {sub ZeroFree : Message .cpp → Prop} {subC : Message .c → Prop}
    (hSub : ∀ msg, sub msg → ZeroFree msg → subC (toC msg)) {value : Value .cpp}
    (hFits : value.Fits member sub) (hZeroFree : value.ZeroFree ZeroFree) :
    (value.toC toC).Fits member subC := by
  cases value with
  | prim t field => exact hFits
  | string field =>
      obtain ⟨hKind, hField, hHolds⟩ := hFits
      exact ⟨hKind, FieldMem.fits_map.mpr hField, FieldMem.holds_ofUnits hHolds hZeroFree⟩
  | wstring field =>
      obtain ⟨hKind, hField, hHolds⟩ := hFits
      exact ⟨hKind, FieldMem.fits_map.mpr hField, FieldMem.holds_ofUnits hHolds hZeroFree⟩
  | message msg => exact ⟨hFits.1, hFits.2.1, hSub msg hFits.2.2 hZeroFree⟩
  | messages msgs =>
      obtain ⟨hKind, hArray, hCount, hMsgs⟩ := hFits
      refine ⟨hKind, hArray, by simpa using hCount, ?_⟩
      intro msgC hMem
      obtain ⟨msg, hMsg, rfl⟩ := List.mem_map.mp hMem
      exact hSub msg (hMsgs msg hMsg) (hZeroFree msg hMsg)

theorem Value.bounded_toC {sub : Message .cpp → Prop} {subC : Message .c → Prop}
    (hSub : ∀ msg, sub msg → subC (toC msg)) {value : Value .cpp}
    (hBounded : value.Bounded member sub) : (value.toC toC).Bounded member subC := by
  cases value with
  | prim t field => exact hBounded
  | string field => exact FieldMem.bounded_map.mpr hBounded
  | wstring field => exact FieldMem.bounded_map.mpr hBounded
  | message msg => exact hSub msg hBounded
  | messages msgs =>
      refine ⟨by simpa using hBounded.1, ?_⟩
      intro msgC hMem
      obtain ⟨msg, hMsg, rfl⟩ := List.mem_map.mp hMem
      exact hSub msg (hBounded.2 msg hMsg)

end Representations

theorem MessageMembers.wire_toC [Platform] (members : MessageMembers) :
    ∀ msg : Message .cpp, members.wire (members.toC msg) = members.wire msg := by
  induction members with
  | nil =>
      intro msg
      rfl
  | cons member submembers rest ihSub ihRest =>
      intro msg
      cases msg with
      | nil => rfl
      | cons value values =>
          have hValue : (value.toC submembers.toC).wire member
                (fun msg => Rfc7049.array submembers.memberCount ++ submembers.wire msg) =
              value.wire member
                (fun msg => Rfc7049.array submembers.memberCount ++ submembers.wire msg) :=
            Value.wire_toC (fun msg => by rw [ihSub msg]) value
          simp only [MessageMembers.toC, MessageMembers.wire, hValue, ihRest]

theorem MessageMembers.payload_toC [Platform] (members : MessageMembers) (msg : Message .cpp) :
    members.payload (members.toC msg) = members.payload msg := by
  simp only [MessageMembers.payload, MessageMembers.wire_toC]

theorem MessageMembers.fits_toC {members : MessageMembers} :
    ∀ {msg : Message .cpp}, members.Fits msg → members.ZeroFree msg →
      members.Fits (members.toC msg) := by
  induction members with
  | nil =>
      intro msg hFits _
      cases msg with
      | nil => trivial
      | cons value values => exact hFits.elim
  | cons member submembers rest ihSub ihRest =>
      intro msg hFits hZeroFree
      cases msg with
      | nil => exact hFits.elim
      | cons value values =>
          have hSub : ∀ msg : Message .cpp,
              submembers.memberCount < 2 ^ 32 ∧ submembers.Fits msg → submembers.ZeroFree msg →
              submembers.memberCount < 2 ^ 32 ∧ submembers.Fits (submembers.toC msg) :=
            fun msg hMsg hZero => ⟨hMsg.1, ihSub hMsg.2 hZero⟩
          exact ⟨Value.fits_toC hSub hFits.1 hZeroFree.1, ihRest hFits.2 hZeroFree.2⟩

theorem MessageMembers.bounded_toC {members : MessageMembers} :
    ∀ {msg : Message .cpp}, members.Bounded msg → members.Bounded (members.toC msg) := by
  induction members with
  | nil =>
      intro msg _
      trivial
  | cons member submembers rest ihSub ihRest =>
      intro msg hBounded
      cases msg with
      | nil => trivial
      | cons value values =>
          exact ⟨Value.bounded_toC (fun _ => ihSub) hBounded.1, ihRest hBounded.2⟩

/-- The C representation of a conforming value conforms. -/
theorem MessageMembers.conforms_toC {members : MessageMembers} {msg : Message .cpp}
    (hConforms : members.Conforms msg) (hZeroFree : members.ZeroFree msg) :
    members.Conforms (members.toC msg) where
  count := hConforms.count
  fits := MessageMembers.fits_toC hConforms.fits hZeroFree
  bounded := MessageMembers.bounded_toC hConforms.bounded

/-! ## Every C value is such a representation -/

/-- The C++ representation of a member, given that of a nested message. -/
def Value.toCpp (sub : Message .c → Message .cpp) : Value .c → Value .cpp
  | .prim t field => .prim t field
  | .string field => .string (field.map (MembersType.content .c))
  | .wstring field => .wstring (field.map (MembersType.content .c))
  | .message msg => .message (sub msg)
  | .messages msgs => .messages (msgs.map sub)

def MessageMembers.toCpp : MessageMembers → Message .c → Message .cpp
  | .nil, _ => []
  | .cons _ _ _, [] => []
  | .cons _ submembers rest, value :: values =>
      value.toCpp submembers.toCpp :: rest.toCpp values

section Onto

variable {U : Type} [Zero U]

theorem MembersType.holds_content {s : RosidlString U} (hHolds : MembersType.Holds .c s) :
    MembersType.Holds .cpp (MembersType.content .c s) ∧ (0 : U) ∉ MembersType.content .c s ∧
      RosidlString.ofUnits (MembersType.content .c s) = s := by
  obtain ⟨⟨units, hData, hUnits⟩, hSized⟩ := hHolds
  obtain ⟨data⟩ := s
  cases hData
  exact ⟨⟨trivial, hSized⟩, hUnits, rfl⟩

theorem FieldMem.map_ofUnits_content {field : FieldMem (RosidlString U)}
    (hHolds : ∀ s ∈ field.items, MembersType.Holds .c s) :
    (field.map (MembersType.content .c)).map RosidlString.ofUnits = field := by
  cases field with
  | one s =>
      exact congrArg FieldMem.one (MembersType.holds_content (hHolds s (by simp [items]))).2.2
  | many ss =>
      refine congrArg FieldMem.many ?_
      rw [List.map_map]
      conv_rhs => rw [← List.map_id ss]
      exact List.map_congr_left fun s hs => (MembersType.holds_content (hHolds s hs)).2.2

theorem FieldMem.holds_content {field : FieldMem (RosidlString U)}
    (hHolds : ∀ s ∈ field.items, MembersType.Holds .c s) :
    (∀ s ∈ (field.map (MembersType.content .c)).items, MembersType.Holds .cpp s) ∧
      ∀ s ∈ (field.map (MembersType.content .c)).items, (0 : U) ∉ s := by
  constructor <;>
  · intro s hs
    rw [FieldMem.items_map, List.mem_map] at hs
    obtain ⟨s, hMem, rfl⟩ := hs
    have hContent := MembersType.holds_content (hHolds s hMem)
    first | exact hContent.1 | exact hContent.2.1

end Onto

section Onto

variable {member : MessageMember} {toC : Message .cpp → Message .c}
  {toCpp : Message .c → Message .cpp}

theorem Value.toC_toCpp {sub ZeroFree : Message .cpp → Prop} {subC : Message .c → Prop}
    (hSub : ∀ msg, subC msg → sub (toCpp msg) ∧ ZeroFree (toCpp msg) ∧ toC (toCpp msg) = msg)
    {value : Value .c} (hFits : value.Fits member subC) :
    (value.toCpp toCpp).Fits member sub ∧ (value.toCpp toCpp).ZeroFree ZeroFree ∧
      (value.toCpp toCpp).toC toC = value := by
  cases value with
  | prim t field => exact ⟨hFits, trivial, rfl⟩
  | string field =>
      obtain ⟨hKind, hField, hHolds⟩ := hFits
      obtain ⟨hHoldsCpp, hZero⟩ := FieldMem.holds_content hHolds
      exact ⟨⟨hKind, FieldMem.fits_map.mpr hField, hHoldsCpp⟩, hZero,
        congrArg Value.string (FieldMem.map_ofUnits_content hHolds)⟩
  | wstring field =>
      obtain ⟨hKind, hField, hHolds⟩ := hFits
      obtain ⟨hHoldsCpp, hZero⟩ := FieldMem.holds_content hHolds
      exact ⟨⟨hKind, FieldMem.fits_map.mpr hField, hHoldsCpp⟩, hZero,
        congrArg Value.wstring (FieldMem.map_ofUnits_content hHolds)⟩
  | message msg =>
      obtain ⟨hKind, hScalar, hMsg⟩ := hFits
      obtain ⟨hSubFits, hZero, hBack⟩ := hSub msg hMsg
      exact ⟨⟨hKind, hScalar, hSubFits⟩, hZero, congrArg Value.message hBack⟩
  | messages msgs =>
      obtain ⟨hKind, hArray, hCount, hMsgs⟩ := hFits
      -- The induction hypothesis for the nested messages, element by element.
      have hEach : ∀ msg ∈ msgs, _ := fun msg hMem => hSub msg (hMsgs msg hMem)
      refine ⟨⟨hKind, hArray, by simpa using hCount, ?_⟩, ?_, congrArg Value.messages ?_⟩
      · exact List.forall_mem_map.mpr fun msg hMem => (hEach msg hMem).1
      · exact List.forall_mem_map.mpr fun msg hMem => (hEach msg hMem).2.1
      · rw [List.map_map]
        conv_rhs => rw [← List.map_id msgs]
        exact List.map_congr_left fun msg hMem => (hEach msg hMem).2.2

theorem Value.bounded_toCpp {sub : Message .cpp → Prop} {subC : Message .c → Prop}
    (hSub : ∀ msg, subC msg → sub (toCpp msg)) {value : Value .c}
    (hBounded : value.Bounded member subC) : (value.toCpp toCpp).Bounded member sub := by
  cases value with
  | prim t field => exact hBounded
  | string field => exact FieldMem.bounded_map.mpr hBounded
  | wstring field => exact FieldMem.bounded_map.mpr hBounded
  | message msg => exact hSub msg hBounded
  | messages msgs =>
      refine ⟨by simpa using hBounded.1, ?_⟩
      exact List.forall_mem_map.mpr fun msg hMem => hSub msg (hBounded.2 msg hMem)

end Onto

/-- The C++ representation of a C value fits the description, has no zero code unit,
and leads back to the value. -/
theorem MessageMembers.toC_toCpp {members : MessageMembers} :
    ∀ {msg : Message .c}, members.Fits msg →
      members.Fits (members.toCpp msg) ∧ members.ZeroFree (members.toCpp msg) ∧
        members.toC (members.toCpp msg) = msg := by
  induction members with
  | nil =>
      intro msg hFits
      cases msg with
      | nil => exact ⟨trivial, trivial, rfl⟩
      | cons value values => exact hFits.elim
  | cons member submembers rest ihSub ihRest =>
      intro msg hFits
      cases msg with
      | nil => exact hFits.elim
      | cons value values =>
          have hSub : ∀ msg : Message .c, submembers.memberCount < 2 ^ 32 ∧ submembers.Fits msg →
              (submembers.memberCount < 2 ^ 32 ∧ submembers.Fits (submembers.toCpp msg)) ∧
                submembers.ZeroFree (submembers.toCpp msg) ∧
                submembers.toC (submembers.toCpp msg) = msg := by
            intro msg hMsg
            obtain ⟨hSubFits, hZero, hBack⟩ := ihSub hMsg.2
            exact ⟨⟨hMsg.1, hSubFits⟩, hZero, hBack⟩
          obtain ⟨hValueFits, hValueZero, hValueBack⟩ :=
            @Value.toC_toCpp member submembers.toC submembers.toCpp
              (fun msg => submembers.memberCount < 2 ^ 32 ∧ submembers.Fits msg)
              submembers.ZeroFree _ hSub value hFits.1
          obtain ⟨hRestFits, hRestZero, hRestBack⟩ := ihRest hFits.2
          refine ⟨⟨hValueFits, hRestFits⟩, ⟨hValueZero, hRestZero⟩, ?_⟩
          simp only [MessageMembers.toCpp, MessageMembers.toC, hValueBack, hRestBack]

theorem MessageMembers.bounded_toCpp {members : MessageMembers} :
    ∀ {msg : Message .c}, members.Bounded msg → members.Bounded (members.toCpp msg) := by
  induction members with
  | nil =>
      intro msg _
      trivial
  | cons member submembers rest ihSub ihRest =>
      intro msg hBounded
      cases msg with
      | nil => trivial
      | cons value values =>
          exact ⟨Value.bounded_toCpp (fun _ => ihSub) hBounded.1, ihRest hBounded.2⟩

/-- Every conforming C value represents a conforming value that both packages hold. -/
theorem MessageMembers.exists_toC {members : MessageMembers} {msg : Message .c}
    (hConforms : members.Conforms msg) :
    ∃ value : Message .cpp, members.Conforms value ∧ members.ZeroFree value ∧
      members.toC value = msg := by
  obtain ⟨hFits, hZeroFree, hBack⟩ := MessageMembers.toC_toCpp hConforms.fits
  exact ⟨members.toCpp msg,
    ⟨hConforms.count, hFits, MessageMembers.bounded_toCpp hConforms.bounded⟩, hZeroFree, hBack⟩

/-- The C++ serializer has no length test, so nothing wraps in it. -/
theorem MessageMembers.not_refusedByWrap_cpp {members : MessageMembers} :
    ∀ {msg : Message .cpp}, ¬ members.RefusedByWrap msg := by
  induction members with
  | nil =>
      intro msg hRefused
      exact hRefused
  | cons member submembers rest ihSub ihRest =>
      intro msg hRefused
      cases msg with
      | nil => exact hRefused
      | cons value values =>
          rcases hRefused with hValue | hValues
          · cases value with
            | prim t field => exact hValue
            | string field => exact hValue
            | wstring field => exact hValue
            | message msg => exact ihSub hValue
            | messages msgs =>
                obtain ⟨msg, -, hMsg⟩ := hValue
                exact ihSub hMsg
          · exact ihRest hValues

/-! ## Which characters are read back -/

theorem CChar.toInt_toInt8 (c : CChar) :
    c.bits.toInt8.toInt =
      if c.bits.toNat < 128 then (c.bits.toNat : Int) else c.bits.toNat - 256 := by
  rw [Int8.toInt, UInt8.toBitVec_toInt8, BitVec.toInt_eq_toNat_cond]
  simp only [UInt8.toNat_toBitVec]
  split_ifs <;> omega

theorem CChar.toInt_unsigned (c : CChar) :
    (@CChar.toInt64 unsignedChar c).toInt = (c.bits.toNat : Int) := by
  have hRange := c.bits.toNat_lt
  have hLow : 2 * c.bits.toUInt64.toBitVec.toNat < 2 ^ 64 := by
    simp
    omega
  show (c.bits.toUInt64.toInt64).toInt = _
  rw [Int64.toInt, UInt64.toBitVec_toInt64, BitVec.toInt_eq_toNat_of_lt hLow]
  simp

/-- The item of a character stands for its bits as the platform reads them. -/
theorem CChar.toInt_toInt64 (c : CChar) : ∀ p : Platform, (@CChar.toInt64 p c).toInt =
    if p.charIsSigned = true then c.bits.toInt8.toInt else (c.bits.toNat : Int)
  | ⟨true⟩ => Int8.toInt_toInt64 _
  | ⟨false⟩ => c.toInt_unsigned

theorem CChar.low_iff {c : CChar} : c.Low ↔ c.bits.toInt8.toInt = (c.bits.toNat : Int) := by
  have hRange := c.bits.toNat_lt
  rw [CChar.Low, UInt8.lt_iff_toNat_lt, CChar.toInt_toInt8]
  show c.bits.toNat < 128 ↔ _
  split_ifs <;> omega

/-- `char` is written as a plain `char` and read as an `int8_t`: a decoder that keeps to the
range of its type refuses what is beyond it. -/
theorem readsChars [DpsCbor] [DpsCbor.Lawful] [DpsCbor.Exact] [p : Platform] :
    ReadsChars (Platform.charIsSigned = true) := by
  intro c
  have hInt := c.toInt_toInt64 p
  constructor
  · intro hFine
    have hSame : c.toInt64.toInt = c.bits.toInt8.toInt := by
      rw [hInt]
      split_ifs with hSigned
      · rfl
      · exact (CChar.low_iff.mp (hFine.resolve_left hSigned)).symm
    show Reads getChar (Rfc7049.int c.toInt64.toInt) c
    rw [hSame]
    exact (Reads.read (DpsCbor.Lawful.decodeInt8 c.bits.toInt8) _).map
      (by simpa using Reads.pure c)
  · intro hNot deser rest hUnread
    obtain ⟨hUnsigned, hHigh⟩ := not_or.mp hNot
    rw [if_neg hUnsigned] at hInt
    have hItem : deser.unread = Rfc7049.int (c.bits.toNat : Int) ++ rest := by
      rw [← hInt]
      exact hUnread
    refine ⟨"failed to deserialize char", ?_⟩
    unfold getChar
    rw [Rx.exec_bind, RxStream.exec_read]
    cases hRead : DpsCbor.decodeInt8 deser.unread with
    | none => rfl
    | some result =>
        -- The decoder would have read a number that no `int8_t` is.
        have hRange := c.bits.toNat_lt
        obtain ⟨i, rest'⟩ := result
        have hTakes := Rfc7049.readInt_iff.mpr ((DpsCbor.Exact.decodeInt8 _ i rest').mp hRead)
        rw [hItem, Rfc7049.readInt_int (by omega) (by omega)] at hTakes
        have hValue : (c.bits.toNat : Int) = i.toInt := congrArg Prod.fst (Option.some.inj hTakes)
        have hBeyond : ¬ c.bits.toNat < 128 := fun h => hHigh (UInt8.lt_iff_toNat_lt.mpr h)
        have hInRange := i.toInt_lt
        omega

theorem Value.lowChars_toC {toC : Message .cpp → Message .c} {sub : Message .cpp → Prop}
    {subC : Message .c → Prop} (hSub : ∀ msg, subC (toC msg) ↔ sub msg) (value : Value .cpp) :
    (value.toC toC).LowChars subC ↔ value.LowChars sub := by
  cases value with
  | prim t field => exact Iff.rfl
  | string field => exact Iff.rfl
  | wstring field => exact Iff.rfl
  | message msg => exact hSub msg
  | messages msgs => simp [Value.toC, Value.LowChars, hSub]

theorem MessageMembers.lowChars_toC (members : MessageMembers) :
    ∀ msg : Message .cpp, members.LowChars (members.toC msg) ↔ members.LowChars msg := by
  induction members with
  | nil => exact fun _ => Iff.rfl
  | cons member submembers rest ihSub ihRest =>
      intro msg
      cases msg with
      | nil => exact Iff.rfl
      | cons value values => exact and_congr (Value.lowChars_toC ihSub value) (ihRest values)

/-! ## The same payload -/

section SameWire

variable [DpsCbor] [Platform]

/-- Both type supports write the same payload for a value. -/
def SamePayload (members : MessageMembers) (msg : Message .cpp) : Prop :=
  ∀ hint hintC, ∃ ser serC,
    TypeSupport.serializeROSmessage members msg (TxStream.new hint) = .ok (true, ser) ∧
      TypeSupport.serializeROSmessage members (members.toC msg) (TxStream.new hintC) =
        .ok (true, serC) ∧
      ser.data = serC.data

/-- Both type supports write the same payload for a value, and each of them
reads the value back from what the other one wrote. -/
def SameWireFormat (members : MessageMembers) (msg : Message .cpp) : Prop :=
  ∀ hint hintC rest, ∃ ser serC deser deserC,
    TypeSupport.serializeROSmessage members msg (TxStream.new hint) = .ok (true, ser) ∧
      TypeSupport.serializeROSmessage members (members.toC msg) (TxStream.new hintC) =
        .ok (true, serC) ∧
      ser.data = serC.data ∧
      Rx.exec (TypeSupport.deserializeROSmessage members) (RxStream.ofBytes (serC.data ++ rest)) =
        (.ok msg, deser) ∧
      Rx.exec (TypeSupport.deserializeROSmessage members) (RxStream.ofBytes (ser.data ++ rest)) =
        (.ok (members.toC msg), deserC)

variable [DpsCbor.Lawful] {members : MessageMembers} {msg : Message .cpp}

/-- The only difference between the two serializers is the wrapped bound. -/
theorem samePayload_iff (hConforms : members.Conforms msg) (hZeroFree : members.ZeroFree msg) :
    SamePayload members msg ↔ ¬ members.RefusedByWrap (members.toC msg) := by
  have hPassC := serializePass_writes (MessageMembers.conforms_toC hConforms hZeroFree)
  constructor
  · intro hSame
    obtain ⟨-, serC, -, hOkC, -⟩ := hSame 0 0
    exact TypeSupport.not_refused_of_returns hPassC hOkC
  · intro hFine hint hintC
    have hPass := (serializePass_writes hConforms).writes MessageMembers.not_refusedByWrap_cpp
    obtain ⟨ser, hOk, hData⟩ := TypeSupport.serializeROSmessage_writes hPass hint
    obtain ⟨serC, hOkC, hDataC⟩ :=
      TypeSupport.serializeROSmessage_writes (hPassC.writes hFine) hintC
    exact ⟨ser, serC, hOk, hOkC, by rw [hData, hDataC, MessageMembers.payload_toC]⟩

/-- For a value that both packages can hold, the two write the same exactly when the C
serializer does not refuse one of its strings, and each reads what the other writes
exactly when moreover no `char` is beyond the range of `int8_t`. -/
theorem sameWireFormat_iff [DpsCbor.Exact] (hConforms : members.Conforms msg)
    (hZeroFree : members.ZeroFree msg) :
    (SamePayload members msg ↔ ¬ members.RefusedByWrap (members.toC msg)) ∧
      (SameWireFormat members msg ↔ ¬ members.RefusedByWrap (members.toC msg) ∧
        (Platform.charIsSigned = true ∨ members.LowChars msg)) := by
  have hPayload := samePayload_iff hConforms hZeroFree
  have hConformsC := MessageMembers.conforms_toC hConforms hZeroFree
  have hReads := TypeSupport.deserializeROSmessage_readsWhen readsChars hConforms.count
    hConforms.fits
  have hReadsC := TypeSupport.deserializeROSmessage_readsWhen readsChars hConformsC.count
    hConformsC.fits
  rw [MessageMembers.payload_toC, MessageMembers.lowChars_toC] at hReadsC
  refine ⟨hPayload, ?_, ?_⟩
  · intro hSame
    refine ⟨hPayload.mp fun hint hintC => ?_, ?_⟩
    · obtain ⟨ser, serC, -, -, hOk, hOkC, hData, -⟩ := hSame hint hintC []
      exact ⟨ser, serC, hOk, hOkC, hData⟩
    · obtain ⟨ser, -, -, deserC, hOk, -, -, -, hRunC⟩ := hSame 0 0 []
      have hData := TypeSupport.data_of_returns (serializePass_writes hConforms) hOk
      by_contra hNot
      obtain ⟨fault, hFault⟩ := hReadsC.throws hNot (RxStream.ofBytes (ser.data ++ [])) []
        (by rw [hData]; rfl)
      rw [hRunC] at hFault
      cases hFault
  · rintro ⟨hFine, hChars⟩ hint hintC rest
    obtain ⟨ser, serC, hOk, hOkC, hSameData⟩ := hPayload.mpr hFine hint hintC
    have hData := TypeSupport.data_of_returns (serializePass_writes hConforms) hOk
    -- Each package reads the bytes of the other, as they are its own.
    obtain ⟨deser, hRun, -⟩ := hReads.reads hChars (RxStream.ofBytes (serC.data ++ rest)) rest
      (by rw [← hSameData, hData]; rfl)
    obtain ⟨deserC, hRunC, -⟩ := hReadsC.reads hChars (RxStream.ofBytes (ser.data ++ rest)) rest
      (by rw [hData]; rfl)
    exact ⟨ser, serC, deser, deserC, hOk, hOkC, hSameData, hRun, hRunC⟩

end SameWire

/-! ## A value on which they agree, and one on which they do not -/

/-- A sequence of bounded strings and one of booleans, which the two packages write
through different overloads, and an `int8`. -/
def tagMembers : MessageMembers :=
  .cons { typeId := .string, stringUpperBound := 4, isArray := true } .nil <|
  .cons { typeId := .boolean, isArray := true } .nil <|
  .cons { typeId := .int8 } .nil .nil

def tagOf (c : CChar) : Message .cpp :=
  [.string (.many [[0x61, 0x62], []]), .prim .bool (.many [true, false]), .prim .char (.one c)]

theorem tag_conforms (c : CChar) : tagMembers.Conforms (tagOf c) := by
  refine ⟨by decide, ?_, ?_⟩
  · simp [tagMembers, tagOf, MessageMembers.Fits, Value.Fits, FieldMem.Fits, FieldMem.items,
      RosType.kind, MessageMember.isFixedArray, MembersType.Holds, MembersType.IsString,
      MembersType.content]
  · simp [tagMembers, tagOf, MessageMembers.Bounded, Value.Bounded, FieldMem.Bounded,
      MessageMember.LengthOk, MessageMember.StringOk, MessageMember.isFixedArray,
      MembersType.content]

theorem tag_zeroFree (c : CChar) : tagMembers.ZeroFree (tagOf c) := by
  simp [tagMembers, tagOf, MessageMembers.ZeroFree, Value.ZeroFree, FieldMem.items]

/-- Where `char` is signed the packages agree on -1, too.  Where it is not they write the
same bytes for it, and neither of them reads them. -/
theorem tag_sameWireFormat :
    @SameWireFormat rfcCbor signedChar tagMembers (tagOf ⟨0xFF⟩) ∧
      @SameWireFormat rfcCbor unsignedChar tagMembers (tagOf ⟨0x7F⟩) ∧
      @SamePayload rfcCbor unsignedChar tagMembers (tagOf ⟨0xFF⟩) ∧
      ¬ @SameWireFormat rfcCbor unsignedChar tagMembers (tagOf ⟨0xFF⟩) := by
  let _ := rfcCbor
  have _ := rfcCbor_lawful
  have _ := rfcCbor_exact
  have hFine : ∀ c, ¬ tagMembers.RefusedByWrap (tagMembers.toC (tagOf c)) := by
    simp [tagMembers, tagOf, MessageMembers.toC, Value.toC, FieldMem.map,
      MessageMembers.RefusedByWrap, Value.RefusedByWrap, FieldMem.RefusedByWrap]
  have hSigned := fun c =>
    @sameWireFormat_iff _ signedChar _ _ _ _ (tag_conforms c) (tag_zeroFree c)
  have hUnsigned := fun c =>
    @sameWireFormat_iff _ unsignedChar _ _ _ _ (tag_conforms c) (tag_zeroFree c)
  refine ⟨(hSigned _).2.mpr ⟨hFine _, .inl rfl⟩, (hUnsigned _).2.mpr ⟨hFine _, .inr ?_⟩,
    (hUnsigned _).1.mpr (hFine _), fun hSame => ?_⟩
  · simp [tagMembers, tagOf, MessageMembers.LowChars, Value.LowChars, FieldMem.items,
      PrimType.Low, CChar.Low]
  · obtain ⟨-, hChar | hLow⟩ := (hUnsigned _).2.mp hSame
    · cases hChar
    · simp [tagMembers, tagOf, MessageMembers.LowChars, Value.LowChars, FieldMem.items,
        PrimType.Low, CChar.Low] at hLow

/-- The string of `widest` in the C++ representation. -/
def widestCpp : Message .cpp := [.string (.one [0x61])]

theorem widestCpp_conforms : widestMembers.Conforms widestCpp := by
  refine ⟨by decide, ?_, ?_⟩
  · simp [widestMembers, widestCpp, MessageMembers.Fits, Value.Fits, FieldMem.Fits,
      FieldMem.items, RosType.kind, MembersType.Holds, MembersType.IsString, MembersType.content]
  · simp [widestMembers, widestCpp, MessageMembers.Bounded, Value.Bounded, FieldMem.Bounded,
      MessageMember.StringOk, MembersType.content]

/-- The C++ type support writes a value whose C representation the C type support
refuses. -/
theorem widest_not_sameWireFormat :
    widestMembers.Conforms widestCpp ∧ widestMembers.ZeroFree widestCpp ∧
      ¬ @SameWireFormat rfcCbor signedChar widestMembers widestCpp := by
  refine ⟨widestCpp_conforms, ?_, ?_⟩
  · simp [widestMembers, widestCpp, MessageMembers.ZeroFree, Value.ZeroFree, FieldMem.items]
  · let _ := rfcCbor
    let _ := signedChar
    intro hSame
    obtain ⟨-, serC, -, -, -, hOkC, -⟩ := hSame 0 0 []
    have hFault : TypeSupport.serializeROSmessage widestMembers (widestMembers.toC widestCpp)
        (TxStream.new 0) = .error (.runtimeError "string overcomes the maximum length") := rfl
    rw [hFault] at hOkC
    cases hOkC

end Serialization
end RmwDps
