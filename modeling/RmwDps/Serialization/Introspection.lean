import RmwDps.Serialization.CborStream

/-!
# Introspection data and the values it describes

A message description is what the rosidl introspection packages generate: a
list of members, each with a type id, an array shape, bounds, and for a nested
message the description of that message.  A value is the memory the members
point into, seen as the types the type support casts it to.
-/

namespace RmwDps
namespace Serialization

/-! ## Descriptions -/

/-- The `type_id_` of a member.  `unknown` stands for the ids without a case in
the switches of the type support. -/
inductive RosType
  | boolean
  | octet
  | uint8
  | char
  | int8
  | float
  | double
  | int16
  | uint16
  | int32
  | uint32
  | int64
  | uint64
  | string
  | wstring
  | message
  | unknown
  deriving DecidableEq, Repr

/-- `MessageMember`, without its name, its offset and the description of a
nested message. -/
structure MessageMember where
  typeId : RosType
  stringUpperBound : UInt64 := 0
  isArray : Bool := false
  arraySize : UInt64 := 0
  isUpperBound : Bool := false
  deriving DecidableEq, Repr

/-- `array_size_ && !is_upper_bound_`, the test for a fixed-size array. -/
def MessageMember.isFixedArray (member : MessageMember) : Bool :=
  member.arraySize ≠ 0 && !member.isUpperBound

/-- `MessageMembers`: the members in order.  `submembers` is what the
`members_` pointer of the first member leads to; it is read for a member of
type `message` only. -/
inductive MessageMembers
  | nil
  | cons (member : MessageMember) (submembers rest : MessageMembers)
  deriving DecidableEq, Repr

/-- `member_count_`. -/
def MessageMembers.memberCount : MessageMembers → Nat
  | .nil => 0
  | .cons _ _ rest => rest.memberCount + 1

/-! ## Values -/

/-- The element types of primitive fields, after the switch has merged the ids
that share one. -/
inductive PrimType
  | bool
  | uint8
  | char
  | float
  | double
  | int16
  | uint16
  | int32
  | uint32
  | int64
  | uint64
  deriving DecidableEq, Repr

@[reducible]
def PrimType.Carrier : PrimType → Type
  | .bool => Bool
  | .uint8 => UInt8
  | .char => CChar
  | .float => CFloat
  | .double => CDouble
  | .int16 => Int16
  | .uint16 => UInt16
  | .int32 => Int32
  | .uint32 => UInt32
  | .int64 => Int64
  | .uint64 => UInt64

def PrimType.ops [DpsCbor] [Platform] : (t : PrimType) → StreamOps t.Carrier
  | .bool => boolOps
  | .uint8 => uint8Ops
  | .char => charOps
  | .float => floatOps
  | .double => doubleOps
  | .int16 => int16Ops
  | .uint16 => uint16Ops
  | .int32 => int32Ops
  | .uint32 => uint32Ops
  | .int64 => int64Ops
  | .uint64 => uint64Ops

/-- The template argument of `TypeSupport`: the C++ or the C introspection. -/
inductive MembersType
  | cpp
  | c
  deriving DecidableEq, Repr

/-- `rosidl_generator_c__String` and `rosidl_generator_c__U16String`: the code
units at `data` up to the terminator that ends the allocation, if `data` is
not null.  The package does not read their `size` and `capacity`. -/
structure RosidlString (U : Type) where
  data : Option (List U)
  deriving DecidableEq, Repr

/-- The memory of a string field whose code units are `U`. -/
@[reducible]
def MembersType.Str : MembersType → Type → Type
  | .cpp, U => List U
  | .c, U => RosidlString U

/-- What the address of a field leads to, as elements of type `T`: one of them,
or those of an array or of a sequence. -/
inductive FieldMem (T : Type)
  | one (x : T)
  | many (xs : List T)
  deriving DecidableEq, Repr

/-- The value of one member; the value of a message is the list of the values
of its members. -/
inductive Value (μ : MembersType)
  | prim (t : PrimType) (field : FieldMem t.Carrier)
  | string (field : FieldMem (μ.Str UInt8))
  | wstring (field : FieldMem (μ.Str UInt16))
  | message (field : List (Value μ))
  | messages (field : List (List (Value μ)))

abbrev Message (μ : MembersType) := List (Value μ)

/-- `static_cast<T *>(field)` for a primitive type. -/
def Value.castPrim {μ : MembersType} (t : PrimType) : Value μ → Option (FieldMem t.Carrier)
  | .prim t' field => if h : t' = t then some (h ▸ field) else none
  | _ => none

@[simp] theorem Value.castPrim_prim {μ : MembersType} (t : PrimType)
    (field : FieldMem t.Carrier) :
    (Value.prim (μ := μ) t field).castPrim t = some field := by
  simp [castPrim]

end Serialization
end RmwDps
