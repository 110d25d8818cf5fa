import RmwDps.Serialization.WireFormat

/-!
# Conforming values

`MessageMembers.Fits` says that a value has the types and shapes of its
description: what the pointer casts of the type support rely on.
`MessageMembers.Bounded` says that it keeps the declared sizes: the length of a
fixed-size array, and the upper bounds of sequences and strings.  A value
conforms to a description when both hold.

`MessageMembers.Refused` says that the serializer throws; on a conforming value it does so
only where a bound wraps, which is `MessageMembers.RefusedByWrap`.
-/

namespace RmwDps
namespace Serialization

/-! ## Types and shapes -/

/-- A field holds one element or an array, as its member says, and a fixed-size
array has the size of its type.  No container exceeds the range of `size_t`. -/
def FieldMem.Fits {T : Type} (member : MessageMember) : FieldMem T → Prop
  | .one _ => member.isArray = false
  | .many xs => member.isArray = true ∧ xs.length < 2 ^ 64 ∧
      (member.isFixedArray = true → xs.length = member.arraySize.toNat)

/-- A string that a field of the package can hold. -/
def MembersType.Holds {U : Type} [Zero U] (μ : MembersType) (s : μ.Str U) : Prop :=
  μ.IsString s ∧ (μ.content s).length < 2 ^ 64

/-- The value has the type of its member, given what that means for a nested
message. -/
def Value.Fits {μ : MembersType} (member : MessageMember) (sub : Message μ → Prop) :
    Value μ → Prop
  | .prim t field => member.typeId.kind = .prim t ∧ field.Fits member
  | .string field => member.typeId.kind = .string ∧ field.Fits member ∧
      ∀ s ∈ field.items, μ.Holds s
  | .wstring field => member.typeId.kind = .wstring ∧ field.Fits member ∧
      ∀ s ∈ field.items, μ.Holds s
  | .message msg => member.typeId.kind = .message ∧ member.isArray = false ∧ sub msg
  | .messages msgs => member.typeId.kind = .message ∧ member.isArray = true ∧
      (if member.isFixedArray then msgs.length = member.arraySize.toNat
        else msgs.length < 2 ^ 32) ∧
      ∀ msg ∈ msgs, sub msg

/-- The values of the members have the members' types.  `member_count_` is a
`uint32_t`, and the length on the wire of a sequence of messages as well. -/
def MessageMembers.Fits {μ : MembersType} : MessageMembers → Message μ → Prop
  | .nil, [] => True
  | .cons member submembers rest, value :: values =>
      value.Fits member
          (fun msg => submembers.memberCount < 2 ^ 32 ∧ submembers.Fits msg) ∧
        rest.Fits values
  | _, _ => False

/-! ## Declared sizes -/

/-- The number of elements of an array or sequence member. -/
def MessageMember.LengthOk (member : MessageMember) (length : Nat) : Prop :=
  (member.isFixedArray = true → length = member.arraySize.toNat) ∧
    (member.isUpperBound = true → length ≤ member.arraySize.toNat)

/-- The number of code units of a string member. -/
def MessageMember.StringOk (member : MessageMember) (length : Nat) : Prop :=
  member.stringUpperBound ≠ 0 → length ≤ member.stringUpperBound.toNat

/-- The field keeps the declared length, and its elements a property. -/
def FieldMem.Bounded {T : Type} (member : MessageMember) (elementOk : T → Prop) :
    FieldMem T → Prop
  | .one x => elementOk x
  | .many xs => member.LengthOk xs.length ∧ ∀ x ∈ xs, elementOk x

def Value.Bounded {μ : MembersType} (member : MessageMember) (sub : Message μ → Prop) :
    Value μ → Prop
  | .prim _ field => field.Bounded member fun _ => True
  | .string field => field.Bounded member fun s => member.StringOk (μ.content s).length
  | .wstring field => field.Bounded member fun s => member.StringOk (μ.content s).length
  | .message msg => sub msg
  | .messages msgs => member.LengthOk msgs.length ∧ ∀ msg ∈ msgs, sub msg

def MessageMembers.Bounded {μ : MembersType} : MessageMembers → Message μ → Prop
  | .nil, _ => True
  | .cons _ _ _, [] => True
  | .cons member submembers rest, value :: values =>
      value.Bounded member (fun msg => submembers.Bounded msg) ∧ rest.Bounded values

/-- A value of the described message type. -/
structure MessageMembers.Conforms {μ : MembersType} (members : MessageMembers)
    (msg : Message μ) : Prop where
  count : members.memberCount < 2 ^ 32
  fits : members.Fits msg
  bounded : members.Bounded msg

/-! ## Plain `char` -/

/-- The pattern stands for the same number whether or not `char` is signed. -/
def CChar.Low (c : CChar) : Prop := c.bits < 0x80

/-- An element of a type other than `char` is the same everywhere. -/
def PrimType.Low : (t : PrimType) → t.Carrier → Prop
  | .char, c => c.Low
  | .bool, _ | .uint8, _ | .float, _ | .double, _ | .int16, _ | .uint16, _ | .int32, _
  | .uint32, _ | .int64, _ | .uint64, _ => True

def Value.LowChars {μ : MembersType} (sub : Message μ → Prop) : Value μ → Prop
  | .prim t field => ∀ x ∈ field.items, t.Low x
  | .string _ | .wstring _ => True
  | .message msg => sub msg
  | .messages msgs => ∀ msg ∈ msgs, sub msg

/-- No `int8` or `char` of the message has the highest bit. -/
def MessageMembers.LowChars {μ : MembersType} : MessageMembers → Message μ → Prop
  | .nil, _ => True
  | .cons _ _ _, [] => True
  | .cons _ submembers rest, value :: values =>
      value.LowChars (fun msg => submembers.LowChars msg) ∧ rest.LowChars values

/-! ## What the serializer refuses -/

/-- A scalar string over `string_upper_bound_ + 1`, or an element with null data. -/
def C.RefusesField {U : Type} [Zero U] [DecidableEq U] (member : MessageMember) :
    FieldMem (RosidlString U) → Prop
  | .one s => member.stringUpperBound ≠ 0 ∧
      (member.stringUpperBound + 1).toNat < (C.convertToStdString s).length
  | .many ss => ∃ s ∈ ss, s.data = none

def MembersType.RefusesField {U : Type} [Zero U] [DecidableEq U] :
    (μ : MembersType) → MessageMember → FieldMem (μ.Str U) → Prop
  | .cpp, _, _ => False
  | .c, member, field => C.RefusesField member field

def Value.Refused {μ : MembersType} (member : MessageMember) (sub : Message μ → Prop) :
    Value μ → Prop
  | .prim _ _ => False
  | .string field => μ.RefusesField member field
  | .wstring field => μ.RefusesField member field
  | .message msg => sub msg
  | .messages msgs =>
      (member.isUpperBound = true ∧ member.arraySize.toNat < msgs.length) ∨ ∃ msg ∈ msgs, sub msg

/-- Some part of the value is refused. -/
def MessageMembers.Refused {μ : MembersType} : MessageMembers → Message μ → Prop
  | .nil, _ => False
  | .cons _ _ _, [] => False
  | .cons member submembers rest, value :: values =>
      (member.typeId.kind = .unknown ∨ value.Refused member (fun msg => submembers.Refused msg)) ∨
        rest.Refused values

/-! ## Bounds that wrap -/

/-- `string_upper_bound_ + 1` wraps to zero, so the length test of the C
serializer refuses every string but the empty one. -/
def MessageMember.BoundWraps (member : MessageMember) : Prop :=
  member.stringUpperBound + 1 = 0

def FieldMem.RefusedByWrap {U : Type} (member : MessageMember) :
    FieldMem (RosidlString U) → Prop
  | .one s => member.BoundWraps ∧ s.data.getD [] ≠ []
  | .many _ => False

/-- The value holds a string that the C serializer refuses although it keeps
its bound. -/
def Value.RefusedByWrap : {μ : MembersType} → MessageMember → (Message μ → Prop) → Value μ → Prop
  | .c, member, _, .string field => field.RefusedByWrap member
  | .c, member, _, .wstring field => field.RefusedByWrap member
  | _, _, sub, .message msg => sub msg
  | _, _, sub, .messages msgs => ∃ msg ∈ msgs, sub msg
  | _, _, _, _ => False

def MessageMembers.RefusedByWrap {μ : MembersType} : MessageMembers → Message μ → Prop
  | .nil, _ => False
  | .cons _ _ _, [] => False
  | .cons member submembers rest, value :: values =>
      value.RefusedByWrap member (fun msg => submembers.RefusedByWrap msg) ∨
        rest.RefusedByWrap values

end Serialization
end RmwDps
