import RmwDps.Serialization.StreamLogic
import RmwDps.Serialization.TypeSupport

/-!
# The wire format

The bytes of a message as RFC 7049 data items, by recursion over its
description and without streams, capacities or overloads.  A value of either
introspection package is read through the code units its strings hold, so the
format does not mention the package.

`StreamOps.Lawful` says that the overloads for one element type agree with the
format; it holds for every element type the type support uses.
-/

namespace RmwDps
namespace Serialization

/-! ## Items of fields -/

/-- The code units of a string of either package. -/
def MembersType.content {U : Type} : (μ : MembersType) → μ.Str U → List U
  | .cpp, s => s
  | .c, s => s.data.getD []

/-- A string whose code units survive a trip through `c_str`: any C++ string,
and a C string with non-null data and no zero unit. -/
def MembersType.IsString {U : Type} [Zero U] : (μ : MembersType) → μ.Str U → Prop
  | .cpp, _ => True
  | .c, s => ∃ units, s.data = some units ∧ (0 : U) ∉ units

def PrimType.item [Platform] : (t : PrimType) → t.Carrier → List UInt8
  | .bool, b => Rfc7049.bool b
  | .uint8, n => Rfc7049.uint n.toNat
  | .char, c => Rfc7049.int c.toInt64.toInt
  | .float, f => Rfc7049.float32 f.bits
  | .double, d => Rfc7049.float64 d.bits
  | .int16, i => Rfc7049.int i.toInt
  | .uint16, n => Rfc7049.uint n.toNat
  | .int32, i => Rfc7049.int i.toInt
  | .uint32, n => Rfc7049.uint n.toNat
  | .int64, i => Rfc7049.int i.toInt
  | .uint64, n => Rfc7049.uint n.toNat

/-- An array, given the items of its elements. -/
def arrayItem {T : Type} (item : T → List UInt8) (xs : List T) : List UInt8 :=
  Rfc7049.array xs.length ++ xs.flatMap item

/-- A `u16string` is the array of its code units. -/
def u16stringItem (s : StdU16String) : List UInt8 :=
  arrayItem (fun unit => Rfc7049.uint unit.toNat) s

/-- An array or sequence of primitives; octets are a byte string. -/
def PrimType.arrayItem [Platform] : (t : PrimType) → List t.Carrier → List UInt8
  | .uint8, xs => Rfc7049.bytes xs
  | .bool, xs => Serialization.arrayItem (PrimType.item .bool) xs
  | .char, xs => Serialization.arrayItem (PrimType.item .char) xs
  | .float, xs => Serialization.arrayItem (PrimType.item .float) xs
  | .double, xs => Serialization.arrayItem (PrimType.item .double) xs
  | .int16, xs => Serialization.arrayItem (PrimType.item .int16) xs
  | .uint16, xs => Serialization.arrayItem (PrimType.item .uint16) xs
  | .int32, xs => Serialization.arrayItem (PrimType.item .int32) xs
  | .uint32, xs => Serialization.arrayItem (PrimType.item .uint32) xs
  | .int64, xs => Serialization.arrayItem (PrimType.item .int64) xs
  | .uint64, xs => Serialization.arrayItem (PrimType.item .uint64) xs

/-- The elements a field holds. -/
def FieldMem.items {T : Type} : FieldMem T → List T
  | .one x => [x]
  | .many xs => xs

/-- The item of a field, given those of an element and of an array. -/
def FieldMem.wire {T : Type} (item : T → List UInt8) (arrayItem : List T → List UInt8) :
    FieldMem T → List UInt8
  | .one x => item x
  | .many xs => arrayItem xs

/-! ## Messages -/

section Wire

variable [Platform]

/-- The bytes of a member, given those of a nested message. -/
def Value.wire {μ : MembersType} (member : MessageMember) (sub : Message μ → List UInt8) :
    Value μ → List UInt8
  | .prim t field => field.wire t.item t.arrayItem
  | .string field =>
      field.wire (fun s => Rfc7049.text (μ.content s))
        (arrayItem fun s => Rfc7049.text (μ.content s))
  | .wstring field =>
      field.wire (fun s => u16stringItem (μ.content s))
        (arrayItem fun s => u16stringItem (μ.content s))
  | .message msg => sub msg
  | .messages msgs =>
      (if member.isFixedArray then [] else Rfc7049.uint msgs.length) ++ msgs.flatMap sub

/-- The bytes of the members of a message. -/
def MessageMembers.wire {μ : MembersType} : MessageMembers → Message μ → List UInt8
  | .nil, _ => []
  | .cons _ _ _, [] => []
  | .cons member submembers rest, value :: values =>
      value.wire member
          (fun msg => Rfc7049.array submembers.memberCount ++ submembers.wire msg) ++
        rest.wire values

/-- The payload of a message. -/
def MessageMembers.payload {μ : MembersType} (members : MessageMembers) (msg : Message μ) :
    List UInt8 :=
  if members.memberCount ≠ 0 then Rfc7049.array members.memberCount ++ members.wire msg
  else Rfc7049.uint 0

end Wire

/-! ## Primitive writers and readers -/

section Primitive

variable [DpsCbor] [DpsCbor.Lawful]

theorem putUint64_writes (n : UInt64) : Writes (putUint64 n) (Rfc7049.uint n.toNat) :=
  Writes.write (DpsCbor.Lawful.encodeUint n) (DpsCbor.Lawful.sizeofUint n)

theorem putUint32_writes (n : UInt32) : Writes (putUint32 n) (Rfc7049.uint n.toNat) := by
  simpa [putUint32] using putUint64_writes n.toUInt64

theorem putUint16_writes (n : UInt16) : Writes (putUint16 n) (Rfc7049.uint n.toNat) := by
  simpa [putUint16] using putUint64_writes n.toUInt64

theorem putUint8_writes (n : UInt8) : Writes (putUint8 n) (Rfc7049.uint n.toNat) := by
  simpa [putUint8] using putUint64_writes n.toUInt64

theorem putInt64_writes (i : Int64) : Writes (putInt64 i) (Rfc7049.int i.toInt) :=
  Writes.write (DpsCbor.Lawful.encodeInt i) (DpsCbor.Lawful.sizeofInt i)

theorem putInt32_writes (i : Int32) : Writes (putInt32 i) (Rfc7049.int i.toInt) := by
  simpa [putInt32] using putInt64_writes i.toInt64

theorem putInt16_writes (i : Int16) : Writes (putInt16 i) (Rfc7049.int i.toInt) := by
  simpa [putInt16] using putInt64_writes i.toInt64

theorem putChar_writes [Platform] (c : CChar) :
    Writes (putChar c) (Rfc7049.int c.toInt64.toInt) :=
  putInt64_writes c.toInt64

theorem putFloat_writes (f : CFloat) : Writes (putFloat f) (Rfc7049.float32 f.bits) :=
  Writes.write (DpsCbor.Lawful.encodeFloat f) (DpsCbor.Lawful.sizeofFloat f)

theorem putDouble_writes (d : CDouble) : Writes (putDouble d) (Rfc7049.float64 d.bits) :=
  Writes.write (DpsCbor.Lawful.encodeDouble d) (DpsCbor.Lawful.sizeofDouble d)

theorem putBool_writes (b : Bool) : Writes (putBool b) (Rfc7049.bool b) :=
  Writes.write (DpsCbor.Lawful.encodeBoolean b) (DpsCbor.Lawful.sizeofBoolean b)

theorem putString_writes {s : StdString} (hLength : s.length < 2 ^ 64) :
    Writes (putString s) (Rfc7049.text s) :=
  Writes.write (DpsCbor.Lawful.encodeStringAndLength s hLength)
    (DpsCbor.Lawful.sizeofStringAndLength s hLength)

theorem putArrayHead_writes {size : Nat} (hSize : size < 2 ^ 64) :
    Writes (putArrayHead size) (Rfc7049.array size) :=
  Writes.write (DpsCbor.Lawful.encodeArray size hSize) (DpsCbor.Lawful.sizeofArray size hSize)

theorem encodeSequence_writes {T : Type} {put : T → Tx Unit} {item : T → List UInt8}
    {items : List T} (hLength : items.length < 2 ^ 64)
    (hPut : ∀ x ∈ items, Writes (put x) (item x)) :
    Writes (encodeSequence put items) (arrayItem item items) :=
  Writes.forM (putArrayHead_writes hLength) items hPut

theorem encodeSequenceUint8_writes {items : List UInt8} (hLength : items.length < 2 ^ 64) :
    Writes (encodeSequenceUint8 items) (Rfc7049.bytes items) :=
  Writes.write (DpsCbor.Lawful.encodeBytes items hLength)
    (DpsCbor.Lawful.sizeofBytes items hLength)

/-- A code unit promoted to `int` is written as the unsigned number it is. -/
theorem putInt32_unit_writes (unit : UInt16) :
    Writes (putInt32 unit.toUInt32.toInt32) (Rfc7049.uint unit.toNat) := by
  have hPromoted : unit.toUInt32.toInt32.toInt = (unit.toNat : Int) := by
    have hRange := unit.toNat_lt
    have hLow : 2 * unit.toUInt32.toBitVec.toNat < 2 ^ 32 := by
      simp
      omega
    rw [Int32.toInt, UInt32.toBitVec_toInt32, BitVec.toInt_eq_toNat_of_lt hLow]
    simp
  have hWrites := putInt32_writes unit.toUInt32.toInt32
  rwa [hPromoted, Rfc7049.int_of_nonneg] at hWrites

theorem putU16string_writes {s : StdU16String} (hLength : s.length < 2 ^ 64) :
    Writes (putU16string s) (u16stringItem s) :=
  Writes.forM (putArrayHead_writes hLength) s fun unit _ => putInt32_unit_writes unit

theorem getUint64_reads (n : UInt64) : Reads getUint64 (Rfc7049.uint n.toNat) n :=
  Reads.read (DpsCbor.Lawful.decodeUint n) _

theorem getUint32_reads (n : UInt32) : Reads getUint32 (Rfc7049.uint n.toNat) n :=
  Reads.read (DpsCbor.Lawful.decodeUint32 n) _

theorem getUint16_reads (n : UInt16) : Reads getUint16 (Rfc7049.uint n.toNat) n :=
  Reads.read (DpsCbor.Lawful.decodeUint16 n) _

theorem getChar16_reads (n : UInt16) : Reads getChar16 (Rfc7049.uint n.toNat) n :=
  Reads.read (DpsCbor.Lawful.decodeUint16 n) _

theorem getUint8_reads (n : UInt8) : Reads getUint8 (Rfc7049.uint n.toNat) n :=
  Reads.read (DpsCbor.Lawful.decodeUint8 n) _

theorem getInt64_reads (i : Int64) : Reads getInt64 (Rfc7049.int i.toInt) i :=
  Reads.read (DpsCbor.Lawful.decodeInt i) _

theorem getInt32_reads (i : Int32) : Reads getInt32 (Rfc7049.int i.toInt) i :=
  Reads.read (DpsCbor.Lawful.decodeInt32 i) _

theorem getInt16_reads (i : Int16) : Reads getInt16 (Rfc7049.int i.toInt) i :=
  Reads.read (DpsCbor.Lawful.decodeInt16 i) _

/-- Only where plain `char` is signed do the two sides agree on its range. -/
theorem getChar_reads [Platform] (hSigned : Platform.charIsSigned = true) (c : CChar) :
    Reads getChar (Rfc7049.int c.toInt64.toInt) c := by
  have hInt : c.toInt64.toInt = c.bits.toInt8.toInt := by simp [CChar.toInt64, hSigned]
  rw [hInt]
  exact (Reads.read (DpsCbor.Lawful.decodeInt8 c.bits.toInt8) _).map
    (by simpa using Reads.pure c)

theorem getFloat_reads (f : CFloat) : Reads getFloat (Rfc7049.float32 f.bits) f :=
  Reads.read (DpsCbor.Lawful.decodeFloat f) _

theorem getDouble_reads (d : CDouble) : Reads getDouble (Rfc7049.float64 d.bits) d :=
  Reads.read (DpsCbor.Lawful.decodeDouble d) _

theorem getBool_reads (b : Bool) : Reads getBool (Rfc7049.bool b) b :=
  Reads.read (DpsCbor.Lawful.decodeBoolean b) _

theorem getString_reads {s : StdString} (hLength : s.length < 2 ^ 64) :
    Reads getString (Rfc7049.text s) s :=
  Reads.unreadLength fun _ =>
    (Reads.read (DpsCbor.Lawful.decodeString s hLength) _).map (Reads.resize (Reads.pure s))

theorem getArrayHead_reads {size : Nat} (hSize : size < 2 ^ 64) (what : String) :
    Reads (getArrayHead what) (Rfc7049.array size) size := by
  have hBack : (UInt64.ofNat size).toNat = size := UInt64.toNat_ofNat_of_lt hSize
  have hRead := Reads.read (DpsCbor.Lawful.decodeArray (UInt64.ofNat size)) what
  rw [hBack] at hRead
  exact hRead.map (by rw [hBack]; exact Reads.pure size)

theorem getVector_readsWhen {T : Type} {get : Rx T} {item : T → List UInt8} {fine : T → Prop}
    {items : List T} (hLength : items.length < 2 ^ 64) (what : String)
    (hGet : ∀ x ∈ items, ReadsWhen (fine x) get (item x) x) :
    ReadsWhen (∀ x ∈ items, fine x) (getVector get what) (arrayItem item items) items :=
  ReadsWhen.unreadLength fun _ =>
    (getArrayHead_reads hLength what).bindWhen (ReadsWhen.resize (ReadsWhen.readEach items hGet))

theorem getVector_reads {T : Type} {get : Rx T} {item : T → List UInt8} {items : List T}
    (hLength : items.length < 2 ^ 64) (what : String)
    (hGet : ∀ x ∈ items, Reads get (item x) x) :
    Reads (getVector get what) (arrayItem item items) items :=
  (getVector_readsWhen hLength what fun x hx => (hGet x hx).when).reads fun _ _ => trivial

theorem getU16string_reads {s : StdU16String} (hLength : s.length < 2 ^ 64) :
    Reads getU16string (u16stringItem s) s :=
  getVector_reads hLength _ fun unit _ => getChar16_reads unit

theorem getVectorUint8_reads {items : List UInt8} (hLength : items.length < 2 ^ 64) :
    Reads getVectorUint8 (Rfc7049.bytes items) items :=
  Reads.unreadLength fun _ =>
    (Reads.read (DpsCbor.Lawful.decodeBytes items hLength) _).map
      (Reads.resize (Reads.pure items))

theorem decodeSequence_readsWhen {T : Type} {get : Rx T} {item : T → List UInt8}
    {fine : T → Prop} {items : List T} (hLength : items.length < 2 ^ 64)
    (hGet : ∀ x ∈ items, ReadsWhen (fine x) get (item x) x) :
    ReadsWhen (∀ x ∈ items, fine x) (decodeSequence get items.length) (arrayItem item items)
      items := by
  refine (getArrayHead_reads hLength _).bindWhen ?_
  simpa using ReadsWhen.readEach items hGet

theorem decodeSequenceUint8_reads {items : List UInt8} (hLength : items.length < 2 ^ 64) :
    Reads (decodeSequenceUint8 items.length) (Rfc7049.bytes items) items := by
  refine (Reads.read (DpsCbor.Lawful.decodeBytes items hLength) _).map ?_
  simpa using Reads.pure items

end Primitive

end Serialization
end RmwDps
