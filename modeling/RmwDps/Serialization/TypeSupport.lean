import RmwDps.Serialization.Introspection

/-!
# The type support

`serializeROSmessage` and `deserializeROSmessage` for both introspection
packages.  The two instances of the template share the walk over the members;
they differ in the overloads of `serialize_field` and `deserialize_field`,
which are in the namespaces `Cpp` and `C`.
-/

namespace RmwDps
namespace Serialization

/-- The cases of the two switches on `type_id_`. -/
inductive FieldKind
  | prim (t : PrimType)
  | string
  | wstring
  | message
  | unknown
  deriving DecidableEq, Repr

def RosType.kind : RosType → FieldKind
  | .boolean => .prim .bool
  | .octet | .uint8 => .prim .uint8
  | .char | .int8 => .prim .char
  | .float => .prim .float
  | .double => .prim .double
  | .int16 => .prim .int16
  | .uint16 => .prim .uint16
  | .int32 => .prim .int32
  | .uint32 => .prim .uint32
  | .int64 => .prim .int64
  | .uint64 => .prim .uint64
  | .string => .string
  | .wstring => .wstring
  | .message => .message
  | .unknown => .unknown

/-! ## Serialization -/

/-- A pointer cast followed by a read: undefined unless the memory holds a
value of that type. -/
def castTo {α : Type} : Option α → Tx α
  | some a => return a
  | none => throw .undefinedBehavior

namespace Cpp

/-- `serialize_field<T>` on a C++ member. -/
def serializeField {T : Type} (ops : StreamOps T) (member : MessageMember) :
    FieldMem T → Tx Unit
  | .one x =>
      if member.isArray then throw .undefinedBehavior
      else ops.put x
  | .many xs =>
      if !member.isArray then throw .undefinedBehavior
      else if member.isFixedArray then
        if xs.length = member.arraySize.toNat then ops.encodeSequence xs
        else throw .undefinedBehavior
      else ops.putVector xs

end Cpp

namespace C

/-- `serialize_field<T>` on a C member: a sequence is written from its `data`
and `size`. -/
def serializeField {T : Type} (ops : StreamOps T) (member : MessageMember) :
    FieldMem T → Tx Unit
  | .one x =>
      if member.isArray then throw .undefinedBehavior
      else ops.put x
  | .many xs =>
      if !member.isArray then throw .undefinedBehavior
      else if member.isFixedArray then
        if xs.length = member.arraySize.toNat then ops.encodeSequence xs
        else throw .undefinedBehavior
      else ops.encodeSequence xs

/-- `convert_to_std_string(void * data)` and its `u16string` counterpart. -/
def convertToStdString {U : Type} [Zero U] [DecidableEq U] (s : RosidlString U) : List U :=
  match s.data with
  | some units => units.takeWhile (· ≠ 0)
  | none => []

/-- `convert_to_std_string(rosidl_generator_c__String & data)` and its
`u16string` counterpart, which do not test `data`. -/
def convertRefToStdString {U : Type} [Zero U] [DecidableEq U] (s : RosidlString U) :
    Tx (List U) :=
  match s.data with
  | some units => return units.takeWhile (· ≠ 0)
  | none => throw .undefinedBehavior

/-- The common body of the specializations `serialize_field<std::string>` and
`serialize_field<std::u16string>` on a C member.  The sum
`string_upper_bound_ + 1` is a `size_t`. -/
def serializeFieldOfString {U : Type} [Zero U] [DecidableEq U] (ops : StreamOps (List U))
    (member : MessageMember) : FieldMem (RosidlString U) → Tx Unit
  | .one s => do
      if member.isArray then
        throw .undefinedBehavior
      let str := convertToStdString s
      if member.stringUpperBound ≠ 0 ∧ (member.stringUpperBound + 1).toNat < str.length then
        throw (.runtimeError "string overcomes the maximum length")
      ops.put str
  | .many ss => do
      if !member.isArray then
        throw .undefinedBehavior
      if member.isFixedArray ∧ ss.length ≠ member.arraySize.toNat then
        throw .undefinedBehavior
      let stringVector ← ss.mapM convertRefToStdString
      ops.putVector stringVector

end C

section Serialize

variable [DpsCbor] [Platform]

/-- The case of `ROS_TYPE_BOOLEAN`: a single value is tested as a byte, and the
outcome of the test is written. -/
def serializeBoolean (serializeField : FieldMem Bool → Tx Unit) (member : MessageMember) :
    FieldMem Bool → Tx Unit
  | .one b =>
      if member.isArray then throw .undefinedBehavior else putBool (if b then true else false)
  | .many bs => serializeField (.many bs)

/-- `serialize_field<T>` for a primitive `T`, on a member of either package. -/
def serializePrim (μ : MembersType) (t : PrimType) (member : MessageMember)
    (field : FieldMem t.Carrier) : Tx Unit :=
  match μ with
  | .cpp => Cpp.serializeField t.ops member field
  | .c => C.serializeField t.ops member field

/-- `serialize_field<std::string>`. -/
def serializeString (μ : MembersType) (member : MessageMember)
    (field : FieldMem (μ.Str UInt8)) : Tx Unit :=
  match μ with
  | .cpp => Cpp.serializeField stringOps member field
  | .c => C.serializeFieldOfString stringOps member field

/-- `serialize_field<std::u16string>`. -/
def serializeWstring (μ : MembersType) (member : MessageMember)
    (field : FieldMem (μ.Str UInt16)) : Tx Unit :=
  match μ with
  | .cpp => Cpp.serializeField u16stringOps member field
  | .c => C.serializeFieldOfString u16stringOps member field

/-- `get_submessage_sequence_serialize`: write the length of a sequence and
return the number of elements to visit.  The overloads for the two packages
differ in the pointer they hand on only. -/
def getSubmessageSequenceSerialize (member : MessageMember) (size : Nat) : Tx Nat := do
  if member.isFixedArray then
    return member.arraySize.toNat
  else
    if member.isUpperBound ∧ member.arraySize.toNat < size then
      throw (.runtimeError "sequence overcomes the maximum length")
    putUint32 (UInt32.ofNat size)
    return size

/-- The case of `ROS_TYPE_MESSAGE`, given the serializer of the nested type. -/
def serializeMessage {μ : MembersType} (member : MessageMember)
    (serializeSub : Message μ → Tx Unit) : Value μ → Tx Unit
  | .message msg =>
      if member.isArray then throw .undefinedBehavior
      else serializeSub msg
  | .messages msgs => do
      if !member.isArray then
        throw .undefinedBehavior
      let arraySize ← getSubmessageSequenceSerialize member msgs.length
      if msgs.length ≠ arraySize then
        throw .undefinedBehavior
      msgs.forM serializeSub
  | _ => throw .undefinedBehavior

/-- The switch of `serializeROSmessage` on one member. -/
def serializeMember {μ : MembersType} (member : MessageMember)
    (serializeSub : Message μ → Tx Unit) (value : Value μ) : Tx Unit :=
  match member.typeId.kind with
  | .prim .bool => do
      let field ← castTo (value.castPrim .bool)
      serializeBoolean (serializePrim μ .bool member) member field
  | .prim t => do
      let field ← castTo (value.castPrim t)
      serializePrim μ t member field
  | .string =>
      match value with
      | .string field => serializeString μ member field
      | _ => throw .undefinedBehavior
  | .wstring =>
      match value with
      | .wstring field => serializeWstring μ member field
      | _ => throw .undefinedBehavior
  | .message => serializeMessage member serializeSub value
  | .unknown => throw (.runtimeError "unknown type")

/-- The loop of `serializeROSmessage` over the members. -/
def serializeMembers {μ : MembersType} : MessageMembers → Message μ → Tx Unit
  | .nil, _ => return
  | .cons _ _ _, [] => throw .undefinedBehavior
  | .cons member submembers rest, value :: values => do
      serializeMember member
        (fun msg => do
          putArrayHead submembers.memberCount
          serializeMembers submembers msg)
        value
      serializeMembers rest values

/-- `serializeROSmessage(ser, members, ros_message)`. -/
def serializeROSmessage {μ : MembersType} (members : MessageMembers) (rosMessage : Message μ) :
    Tx Unit := do
  putArrayHead members.memberCount
  serializeMembers members rosMessage

/-- One pass of the public `serializeROSmessage`: a message without members is
the single byte of `(uint8_t)0`. -/
def serializePass {μ : MembersType} (members : MessageMembers) (rosMessage : Message μ) :
    Tx Unit :=
  if members.memberCount ≠ 0 then serializeROSmessage members rosMessage
  else putUint8 0

/-- The public `serializeROSmessage(ros_message, ser)`. -/
def TypeSupport.serializeROSmessage {μ : MembersType} (members : MessageMembers)
    (rosMessage : Message μ) (ser : TxStream) : Except Fault (Bool × TxStream) := do
  let ser ← writeWithRetry (serializePass members rosMessage) ser
  return (ser.ret = .ok, ser)

end Serialize

/-! ## Deserialization -/

section Deserialize

variable [DpsCbor] [Platform]

namespace Cpp

/-- `deserialize_field<T>` on a C++ member. -/
def deserializeField {T : Type} (ops : StreamOps T) (member : MessageMember) :
    Rx (FieldMem T) := do
  if !member.isArray then
    return .one (← ops.get)
  else if member.isFixedArray then
    return .many (← ops.decodeSequence member.arraySize.toNat)
  else
    return .many (← ops.getVector)

end Cpp

namespace C

/-- `deserialize_field<T>` on a C member: a sequence is initialized to the
count in its head, which is then read a second time with the elements. -/
def deserializeField {T : Type} (ops : StreamOps T) (member : MessageMember) :
    Rx (FieldMem T) := do
  if !member.isArray then
    return .one (← ops.get)
  else if member.isFixedArray then
    return .many (← ops.decodeSequence member.arraySize.toNat)
  else
    let unread ← unreadLength
    let dsize ← deserializeSequenceSize
    resize dsize unread
    return .many (← ops.decodeSequence dsize)

/-- `rosidl_generator_c__String__assign(str, value.c_str())`: what `c_str`
leads to ends at the first zero unit. -/
def assign {U : Type} [Zero U] [DecidableEq U] (value : List U) : RosidlString U :=
  ⟨some (value.takeWhile (· ≠ 0))⟩

/-- Assign elements `0, ..., count - 1` of a vector, the first of them being
the head of the list; an index at or past the end of the vector is a fault. -/
def assignEach {U : Type} [Zero U] [DecidableEq U] :
    Nat → List (List U) → Rx (List (RosidlString U))
  | 0, _ => return []
  | _ + 1, [] => throw .indexPastEnd
  | count + 1, value :: values => do
      let rest ← assignEach count values
      return assign value :: rest

/-- The common body of the specializations `deserialize_field<std::string>` and
`deserialize_field<std::u16string>` on a C member. -/
def deserializeFieldOfString {U : Type} [Zero U] [DecidableEq U] (ops : StreamOps (List U))
    (member : MessageMember) : Rx (FieldMem (RosidlString U)) := do
  if !member.isArray then
    return .one (assign (← ops.get))
  else
    let unread ← unreadLength
    let stringVector ← ops.getVector
    if member.isFixedArray then
      return .many (← assignEach member.arraySize.toNat stringVector)
    else
      resize stringVector.length unread
      return .many (stringVector.map assign)

end C

/-- `deserialize_field<T>` for a primitive `T`, on a member of either package. -/
def deserializePrim (μ : MembersType) (t : PrimType) (member : MessageMember) :
    Rx (FieldMem t.Carrier) :=
  match μ with
  | .cpp => Cpp.deserializeField t.ops member
  | .c => C.deserializeField t.ops member

/-- `deserialize_field<std::string>`. -/
def deserializeString (μ : MembersType) (member : MessageMember) :
    Rx (FieldMem (μ.Str UInt8)) :=
  match μ with
  | .cpp => Cpp.deserializeField stringOps member
  | .c => C.deserializeFieldOfString stringOps member

/-- `deserialize_field<std::u16string>`. -/
def deserializeWstring (μ : MembersType) (member : MessageMember) :
    Rx (FieldMem (μ.Str UInt16)) :=
  match μ with
  | .cpp => Cpp.deserializeField u16stringOps member
  | .c => C.deserializeFieldOfString u16stringOps member

/-- `get_submessage_sequence_deserialize`: the number of elements to read.  A
sequence is resized to the length on the wire.  The overloads for the two
packages differ in the pointer they hand on only. -/
def getSubmessageSequenceDeserialize (member : MessageMember) : Rx Nat := do
  if member.isFixedArray then
    return member.arraySize.toNat
  else
    let unread ← unreadLength
    let arraySize ← getUint32
    resize arraySize.toNat unread
    return arraySize.toNat

/-- The case of `ROS_TYPE_MESSAGE`, given the deserializer of the nested type. -/
def deserializeMessage {μ : MembersType} (member : MessageMember)
    (deserializeSub : Rx (Message μ)) : Rx (Value μ) := do
  if !member.isArray then
    return .message (← deserializeSub)
  else
    let arraySize ← getSubmessageSequenceDeserialize member
    return .messages (← readEach deserializeSub arraySize)

/-- The switch of `deserializeROSmessage` on one member. -/
def deserializeMember {μ : MembersType} (member : MessageMember)
    (deserializeSub : Rx (Message μ)) : Rx (Value μ) :=
  match member.typeId.kind with
  | .prim t => return .prim t (← deserializePrim μ t member)
  | .string => return .string (← deserializeString μ member)
  | .wstring => return .wstring (← deserializeWstring μ member)
  | .message => deserializeMessage member deserializeSub
  | .unknown => throw (.runtimeError "unknown type")

/-- The head of a message: its member count has to be that of the description. -/
def checkMemberCount (count : Nat) : Rx Unit := do
  let memberCount ← getArrayHead "failed to deserialize array"
  if memberCount ≠ count then
    throw (.runtimeError "failed to deserialize value")

/-- The loop of `deserializeROSmessage` over the members. -/
def deserializeMembers {μ : MembersType} : MessageMembers → Rx (Message μ)
  | .nil => return []
  | .cons member submembers rest => do
      let value ← deserializeMember member do
        checkMemberCount submembers.memberCount
        deserializeMembers submembers
      let values ← deserializeMembers rest
      return value :: values

/-- `deserializeROSmessage(deser, members, ros_message, call_new)`. -/
def deserializeROSmessage {μ : MembersType} (members : MessageMembers) : Rx (Message μ) := do
  checkMemberCount members.memberCount
  deserializeMembers members

/-- The public `deserializeROSmessage(deser, ros_message)`, which returns `true`
whenever it returns. -/
def TypeSupport.deserializeROSmessage {μ : MembersType} (members : MessageMembers) :
    Rx (Message μ) := do
  if members.memberCount ≠ 0 then
    Serialization.deserializeROSmessage members
  else
    let _dump ← getUint8
    return []

end Deserialize

end Serialization
end RmwDps
