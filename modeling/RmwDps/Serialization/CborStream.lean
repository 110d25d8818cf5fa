import Mathlib
import RmwDps.Foundation.Rfc7049

/-!
# The CBOR streams

`TxStream` and `RxStream` over the DPS encoder and decoder primitives.  The
primitives themselves are not part of the package, so they are the fields of
the class `DpsCbor`; `DpsCbor.Lawful` says that they implement RFC 7049.

A `TxStream` remembers the first status that was not `DPS_OK` and keeps adding
up the size it would have needed; an `RxStream` operator throws.  Overload
resolution on `operator<<`, `operator>>`, `encodeSequence` and
`decodeSequence` is the record `StreamOps`, one value for each element type.
-/

namespace RmwDps
namespace Serialization

/-! ## The DPS primitives -/

/-- `DPS_Status`: the two values the package tells apart, and the rest. -/
inductive DpsStatus
  | ok
  | errOverflow
  | err (code : Nat)
  deriving DecidableEq, Repr

/-- `DPS_TxBuffer`: its capacity and the bytes from `base` to `txPos`. -/
structure DpsTxBuffer where
  capacity : Nat
  used : List UInt8
  deriving DecidableEq, Repr

/-- `float`, carried as its bit pattern. -/
structure CFloat where
  bits : UInt32
  deriving DecidableEq, Repr

/-- `double`, carried as its bit pattern. -/
structure CDouble where
  bits : UInt64
  deriving DecidableEq, Repr

/-- `char`, carried as its bit pattern. -/
structure CChar where
  bits : UInt8
  deriving DecidableEq, Repr

abbrev StdString := List UInt8
abbrev StdU16String := List UInt16

/-- The CBOR part of the DPS library.  A decoder gets the unread bytes and
returns the value with the bytes after it, or nothing when its status is not
`DPS_OK`. -/
class DpsCbor where
  encodeUint : UInt64 → DpsTxBuffer → DpsStatus × DpsTxBuffer
  encodeInt : Int64 → DpsTxBuffer → DpsStatus × DpsTxBuffer
  encodeFloat : CFloat → DpsTxBuffer → DpsStatus × DpsTxBuffer
  encodeDouble : CDouble → DpsTxBuffer → DpsStatus × DpsTxBuffer
  encodeBoolean : Bool → DpsTxBuffer → DpsStatus × DpsTxBuffer
  encodeArray : Nat → DpsTxBuffer → DpsStatus × DpsTxBuffer
  encodeBytes : List UInt8 → DpsTxBuffer → DpsStatus × DpsTxBuffer
  encodeStringAndLength : List UInt8 → DpsTxBuffer → DpsStatus × DpsTxBuffer
  sizeofUint : UInt64 → Nat
  sizeofInt : Int64 → Nat
  sizeofFloat : Nat
  sizeofDouble : Nat
  sizeofBoolean : Nat
  sizeofArray : Nat → Nat
  sizeofBytes : Nat → Nat
  sizeofStringAndLength : Nat → Nat
  decodeUint : List UInt8 → Option (UInt64 × List UInt8)
  decodeUint32 : List UInt8 → Option (UInt32 × List UInt8)
  decodeUint16 : List UInt8 → Option (UInt16 × List UInt8)
  decodeUint8 : List UInt8 → Option (UInt8 × List UInt8)
  decodeInt : List UInt8 → Option (Int64 × List UInt8)
  decodeInt32 : List UInt8 → Option (Int32 × List UInt8)
  decodeInt16 : List UInt8 → Option (Int16 × List UInt8)
  decodeInt8 : List UInt8 → Option (Int8 × List UInt8)
  decodeFloat : List UInt8 → Option (CFloat × List UInt8)
  decodeDouble : List UInt8 → Option (CDouble × List UInt8)
  decodeBoolean : List UInt8 → Option (Bool × List UInt8)
  decodeString : List UInt8 → Option (StdString × List UInt8)
  decodeBytes : List UInt8 → Option (List UInt8 × List UInt8)
  decodeArray : List UInt8 → Option (UInt64 × List UInt8)
  peek : List UInt8 → Option (Nat × UInt64)

/-- An encoder call writes `item` when it fits, and otherwise fails with
`DPS_ERR_OVERFLOW`, leaving the buffer in any state. -/
structure WritesItem (encode : DpsTxBuffer → DpsStatus × DpsTxBuffer) (item : List UInt8) :
    Prop where
  fits : ∀ b : DpsTxBuffer, b.used.length + item.length ≤ b.capacity →
    encode b = (.ok, { b with used := b.used ++ item })
  overflows : ∀ b : DpsTxBuffer, b.capacity < b.used.length + item.length →
    (encode b).1 = .errOverflow

/-- A decoder reads `item` off the front of any input as the value `a`. -/
def ReadsItem {α : Type} (decode : List UInt8 → Option (α × List UInt8)) (item : List UInt8)
    (a : α) : Prop :=
  ∀ rest, decode (item ++ rest) = some (a, rest)

/-- The DPS primitives implement RFC 7049: each encoder writes the item of its
argument, each `CBOR_SIZEOF_*` is at least the bytes its encoder writes, and
each decoder reads back the item of every value of its type and reports lengths
in the range of `size_t`. -/
class DpsCbor.Lawful [DpsCbor] : Prop where
  encodeUint : ∀ n : UInt64, WritesItem (encodeUint n) (Rfc7049.uint n.toNat)
  encodeInt : ∀ i : Int64, WritesItem (encodeInt i) (Rfc7049.int i.toInt)
  encodeFloat : ∀ f : CFloat, WritesItem (encodeFloat f) (Rfc7049.float32 f.bits)
  encodeDouble : ∀ d : CDouble, WritesItem (encodeDouble d) (Rfc7049.float64 d.bits)
  encodeBoolean : ∀ b : Bool, WritesItem (encodeBoolean b) (Rfc7049.bool b)
  encodeArray : ∀ n < 2 ^ 64, WritesItem (encodeArray n) (Rfc7049.array n)
  encodeBytes : ∀ s : List UInt8, s.length < 2 ^ 64 →
    WritesItem (encodeBytes s) (Rfc7049.bytes s)
  encodeStringAndLength : ∀ s : List UInt8, s.length < 2 ^ 64 →
    WritesItem (encodeStringAndLength s) (Rfc7049.text s)
  sizeofUint : ∀ n : UInt64, (Rfc7049.uint n.toNat).length ≤ sizeofUint n
  sizeofInt : ∀ i : Int64, (Rfc7049.int i.toInt).length ≤ sizeofInt i
  sizeofFloat : ∀ f : CFloat, (Rfc7049.float32 f.bits).length ≤ sizeofFloat
  sizeofDouble : ∀ d : CDouble, (Rfc7049.float64 d.bits).length ≤ sizeofDouble
  sizeofBoolean : ∀ b : Bool, (Rfc7049.bool b).length ≤ sizeofBoolean
  sizeofArray : ∀ n < 2 ^ 64, (Rfc7049.array n).length ≤ sizeofArray n
  sizeofBytes : ∀ s : List UInt8, s.length < 2 ^ 64 →
    (Rfc7049.bytes s).length ≤ sizeofBytes s.length
  sizeofStringAndLength : ∀ s : List UInt8, s.length < 2 ^ 64 →
    (Rfc7049.text s).length ≤ sizeofStringAndLength s.length
  decodeUint : ∀ n : UInt64, ReadsItem decodeUint (Rfc7049.uint n.toNat) n
  decodeUint32 : ∀ n : UInt32, ReadsItem decodeUint32 (Rfc7049.uint n.toNat) n
  decodeUint16 : ∀ n : UInt16, ReadsItem decodeUint16 (Rfc7049.uint n.toNat) n
  decodeUint8 : ∀ n : UInt8, ReadsItem decodeUint8 (Rfc7049.uint n.toNat) n
  decodeInt : ∀ i : Int64, ReadsItem decodeInt (Rfc7049.int i.toInt) i
  decodeInt32 : ∀ i : Int32, ReadsItem decodeInt32 (Rfc7049.int i.toInt) i
  decodeInt16 : ∀ i : Int16, ReadsItem decodeInt16 (Rfc7049.int i.toInt) i
  decodeInt8 : ∀ i : Int8, ReadsItem decodeInt8 (Rfc7049.int i.toInt) i
  decodeFloat : ∀ f : CFloat, ReadsItem decodeFloat (Rfc7049.float32 f.bits) f
  decodeDouble : ∀ d : CDouble, ReadsItem decodeDouble (Rfc7049.float64 d.bits) d
  decodeBoolean : ∀ b : Bool, ReadsItem decodeBoolean (Rfc7049.bool b) b
  decodeString : ∀ s : List UInt8, s.length < 2 ^ 64 → ReadsItem decodeString (Rfc7049.text s) s
  decodeBytes : ∀ s : List UInt8, s.length < 2 ^ 64 → ReadsItem decodeBytes (Rfc7049.bytes s) s
  decodeString_size : ∀ input s rest, DpsCbor.decodeString input = some (s, rest) →
    s.length < 2 ^ 64
  decodeBytes_size : ∀ input s rest, DpsCbor.decodeBytes input = some (s, rest) → s.length < 2 ^ 64
  decodeArray : ∀ n : UInt64, ReadsItem decodeArray (Rfc7049.array n.toNat) n
  peekArray : ∀ (n : UInt64) rest,
    peek (Rfc7049.array n.toNat ++ rest) = some (Rfc7049.majorArray, n)
  peekBytes : ∀ (s : List UInt8) rest, s.length < 2 ^ 64 →
    peek (Rfc7049.bytes s ++ rest) = some (Rfc7049.majorBytes, UInt64.ofNat s.length)

/-- Whether plain `char` is signed, which C++ leaves to the platform. -/
class Platform where
  charIsSigned : Bool

/-- The integer a plain `char` converts to. -/
def CChar.toInt64 [Platform] (c : CChar) : Int64 :=
  if Platform.charIsSigned then c.bits.toInt8.toInt64 else c.bits.toUInt64.toInt64

/-! ## Outcomes -/

/-- How a call leaves without a result: it throws `std::runtime_error`, it
indexes a vector at or past its end, or it reads memory as a type that is not
the type of the value stored there. -/
inductive Fault
  | runtimeError (what : String)
  | indexPastEnd
  | undefinedBehavior
  deriving DecidableEq, Repr

/-! ## TxStream -/

/-- `TxStream`: `ret_`, `size_` and `buffer_`. -/
structure TxStream where
  ret : DpsStatus
  size : Nat
  buffer : DpsTxBuffer
  deriving DecidableEq, Repr

/-- The constructor `TxStream(size_t hint = 1024)`. -/
def TxStream.new (hint : Nat := 1024) : TxStream :=
  { ret := .ok, size := 0, buffer := { capacity := hint, used := [] } }

/-- `data()` with `size()`: the bytes written so far. -/
def TxStream.data (ser : TxStream) : List UInt8 := ser.buffer.used

def TxStream.sizeNeeded (ser : TxStream) : Nat := ser.size

/-- A writer on a `TxStream`. -/
abbrev Tx := StateT TxStream (Except Fault)

section TxStream

variable [DpsCbor]

/-- The body of every primitive writer: account for the size, and call the
encoder unless an earlier call failed. -/
def TxStream.write (size : Nat) (encode : DpsTxBuffer → DpsStatus × DpsTxBuffer) : Tx Unit :=
  modify fun ser =>
    let ser := { ser with size := ser.size + size }
    if ser.ret = .ok then
      let (ret, buffer) := encode ser.buffer
      { ser with ret, buffer }
    else
      ser

def putUint64 (n : UInt64) : Tx Unit :=
  TxStream.write (DpsCbor.sizeofUint n) (DpsCbor.encodeUint n)

def putUint32 (n : UInt32) : Tx Unit := putUint64 n.toUInt64
def putUint16 (n : UInt16) : Tx Unit := putUint64 n.toUInt64
def putUint8 (n : UInt8) : Tx Unit := putUint64 n.toUInt64

def putInt64 (i : Int64) : Tx Unit :=
  TxStream.write (DpsCbor.sizeofInt i) (DpsCbor.encodeInt i)

def putInt32 (i : Int32) : Tx Unit := putInt64 i.toInt64
def putInt16 (i : Int16) : Tx Unit := putInt64 i.toInt64
def putInt8 (i : Int8) : Tx Unit := putInt64 i.toInt64
def putChar [Platform] (c : CChar) : Tx Unit := putInt64 c.toInt64

def putFloat (f : CFloat) : Tx Unit :=
  TxStream.write DpsCbor.sizeofFloat (DpsCbor.encodeFloat f)

def putDouble (d : CDouble) : Tx Unit :=
  TxStream.write DpsCbor.sizeofDouble (DpsCbor.encodeDouble d)

def putBool (b : Bool) : Tx Unit :=
  TxStream.write DpsCbor.sizeofBoolean (DpsCbor.encodeBoolean b)

def putString (s : StdString) : Tx Unit :=
  TxStream.write (DpsCbor.sizeofStringAndLength s.length) (DpsCbor.encodeStringAndLength s)

/-- `serializeSequence(size_t size)`: the head of an array. -/
def putArrayHead (size : Nat) : Tx Unit :=
  TxStream.write (DpsCbor.sizeofArray size) (DpsCbor.encodeArray size)

/-- The template `encodeSequence`, given the `operator<<` of its element type. -/
def encodeSequence {T : Type} (put : T → Tx Unit) (items : List T) : Tx Unit := do
  putArrayHead items.length
  items.forM put

/-- The `uint8_t` overload of `encodeSequence`. -/
def encodeSequenceUint8 (items : List UInt8) : Tx Unit :=
  TxStream.write (DpsCbor.sizeofBytes items.length) (DpsCbor.encodeBytes items)

/-- `operator<<(const std::u16string)`: a code unit is a `char16_t`, which
promotes to `int`, so each one goes through the `int32_t` overload. -/
def putU16string (s : StdU16String) : Tx Unit := do
  putArrayHead s.length
  s.forM fun unit => putInt32 unit.toUInt32.toInt32

/-- `operator<<(const std::vector<bool>)`. -/
def putVectorBool (v : List Bool) : Tx Unit := do
  putArrayHead v.length
  v.forM putBool

end TxStream

/-- Write a whole payload, as both callers that build one do: a pass that
overflows is repeated on a stream of the size it asked for. -/
def writeWithRetry (op : Tx Unit) (ser : TxStream) : Except Fault TxStream := do
  let (_, ser) ← op.run ser
  if ser.ret = .errOverflow then
    -- the move assignment takes over all three members of the new stream
    let (_, ser) ← op.run (TxStream.new ser.sizeNeeded)
    return ser
  else
    return ser

/-! ## RxStream -/

/-- `RxStream`: the received bytes, and those from `rxPos` on.  `resized` is a
record of the run and not a member of the class: every count a container was
resized to, with the number of bytes that were unread at the count's header. -/
structure RxStream where
  base : List UInt8
  unread : List UInt8
  resized : List (Nat × Nat)
  deriving DecidableEq, Repr

/-- The constructor `RxStream(const uint8_t * data, size_t size)`. -/
def RxStream.ofBytes (data : List UInt8) : RxStream :=
  { base := data, unread := data, resized := [] }

def RxStream.getBuffer (deser : RxStream) : List UInt8 := deser.base

def RxStream.getBufferSize (deser : RxStream) : Nat := deser.base.length

/-- A reader on an `RxStream`.  The stream survives a fault, as it does when
the caller of a throwing operator still owns it. -/
abbrev Rx := ExceptT Fault (StateM RxStream)

/-- The body of every primitive reader. -/
def RxStream.read {α : Type} (decode : List UInt8 → Option (α × List UInt8)) (what : String) :
    Rx α := do
  let deser ← get
  match decode deser.unread with
  | some (a, rest) =>
      set { deser with unread := rest }
      return a
  | none => throw (.runtimeError what)

/-- The number of bytes not read yet. -/
def unreadLength : Rx Nat := return (← get).unread.length

/-- Record that a container takes `count` elements, the count having been read
off a header that `unread` bytes followed or were part of. -/
def resize (count unread : Nat) : Rx Unit :=
  modify fun deser => { deser with resized := deser.resized ++ [(count, unread)] }

/-- `for (size_t i = 0; i < count; ++i)` around a reader. -/
def readEach {α : Type} (reader : Rx α) : Nat → Rx (List α)
  | 0 => return []
  | count + 1 => do
      let a ← reader
      let rest ← readEach reader count
      return a :: rest

section RxStream

variable [DpsCbor]

def getUint64 : Rx UInt64 := RxStream.read DpsCbor.decodeUint "failed to deserialize uint64_t"
def getUint32 : Rx UInt32 := RxStream.read DpsCbor.decodeUint32 "failed to deserialize uint32_t"
def getUint16 : Rx UInt16 := RxStream.read DpsCbor.decodeUint16 "failed to deserialize uint16_t"
def getChar16 : Rx UInt16 := RxStream.read DpsCbor.decodeUint16 "failed to deserialize char16_t"
def getUint8 : Rx UInt8 := RxStream.read DpsCbor.decodeUint8 "failed to deserialize uint8_t"
def getInt64 : Rx Int64 := RxStream.read DpsCbor.decodeInt "failed to deserialize int64_t"
def getInt32 : Rx Int32 := RxStream.read DpsCbor.decodeInt32 "failed to deserialize int32_t"
def getInt16 : Rx Int16 := RxStream.read DpsCbor.decodeInt16 "failed to deserialize int16_t"

/-- `operator>>(char &)`: the item is read as an `int8_t` on every platform. -/
def getChar : Rx CChar := do
  let i ← RxStream.read DpsCbor.decodeInt8 "failed to deserialize char"
  return ⟨i.toUInt8⟩

def getFloat : Rx CFloat := RxStream.read DpsCbor.decodeFloat "failed to deserialize float"
def getDouble : Rx CDouble := RxStream.read DpsCbor.decodeDouble "failed to deserialize double"
def getBool : Rx Bool := RxStream.read DpsCbor.decodeBoolean "failed to deserialize bool"

def getString : Rx StdString := do
  let unread ← unreadLength
  let s ← RxStream.read DpsCbor.decodeString "failed to deserialize std::string"
  resize s.length unread
  return s

/-- `deserializeSequence(size_t * size)`: the head of an array. -/
def getArrayHead (what : String) : Rx Nat := do
  let size ← RxStream.read DpsCbor.decodeArray what
  return size.toNat

/-- `operator>>(std::vector<T> &)`, and with the `operator>>` of a code unit
`operator>>(std::u16string &)`: the container is resized to the count in the
head before an element is read. -/
def getVector {T : Type} (get : Rx T) (what : String := "failed to deserialize std::vector<>") :
    Rx (List T) := do
  let unread ← unreadLength
  let size ← getArrayHead what
  resize size unread
  readEach get size

def getU16string : Rx StdU16String := getVector getChar16

/-- `operator>>(std::vector<bool> &)`. -/
def getVectorBool : Rx (List Bool) :=
  getVector (RxStream.read DpsCbor.decodeBoolean "failed to deserialize std::vector<bool>")
    "failed to deserialize std::vector<bool>"

/-- `operator>>(std::vector<uint8_t> &)`. -/
def getVectorUint8 : Rx (List UInt8) := do
  let unread ← unreadLength
  let items ← RxStream.read DpsCbor.decodeBytes "failed to deserialize std::vector<uint8_t>"
  resize items.length unread
  return items

/-- The template `decodeSequence`, given the `operator>>` of its element type:
the count in the head has to be the count of the destination. -/
def decodeSequence {T : Type} (get : Rx T) (size : Nat) : Rx (List T) := do
  let size' ← getArrayHead "failed to deserialize array"
  if size' ≠ size then
    throw (.runtimeError "failed to deserialize array")
  readEach get size

/-- The `uint8_t` overload of `decodeSequence`. -/
def decodeSequenceUint8 (size : Nat) : Rx (List UInt8) := do
  let items ← RxStream.read DpsCbor.decodeBytes "failed to deserialize uint8_t array"
  if items.length ≠ size then
    throw (.runtimeError "failed to deserialize uint8_t array")
  return items

/-- `deserializeSequenceSize`: the count in the head of an array or of a byte
string, without consuming the head.  `size_t` has 64 bits, so the test against
its largest value never fires. -/
def deserializeSequenceSize : Rx Nat := do
  let deser ← get
  match DpsCbor.peek deser.unread with
  | some (maj, info) =>
      if maj ≠ Rfc7049.majorArray ∧ maj ≠ Rfc7049.majorBytes then
        throw (.runtimeError "failed to deserialize array size")
      return info.toNat
  | none => throw (.runtimeError "failed to deserialize array size")

end RxStream

/-! ## Overload resolution -/

/-- The stream operators the templates pick for an element type `T`. -/
structure StreamOps (T : Type) where
  put : T → Tx Unit
  encodeSequence : List T → Tx Unit
  putVector : List T → Tx Unit
  get : Rx T
  decodeSequence : Nat → Rx (List T)
  getVector : Rx (List T)

section StreamOps

variable [DpsCbor]

/-- A type without overloads of its own for sequences. -/
def StreamOps.ofScalar {T : Type} (put : T → Tx Unit) (get : Rx T) : StreamOps T where
  put := put
  encodeSequence := Serialization.encodeSequence put
  putVector := Serialization.encodeSequence put
  get := get
  decodeSequence := Serialization.decodeSequence get
  getVector := Serialization.getVector get

def boolOps : StreamOps Bool :=
  { StreamOps.ofScalar putBool getBool with
    putVector := putVectorBool
    getVector := getVectorBool }

def uint8Ops : StreamOps UInt8 where
  put := putUint8
  encodeSequence := encodeSequenceUint8
  putVector := encodeSequenceUint8
  get := getUint8
  decodeSequence := decodeSequenceUint8
  getVector := getVectorUint8

def charOps [Platform] : StreamOps CChar := StreamOps.ofScalar putChar getChar
def floatOps : StreamOps CFloat := StreamOps.ofScalar putFloat getFloat
def doubleOps : StreamOps CDouble := StreamOps.ofScalar putDouble getDouble
def int16Ops : StreamOps Int16 := StreamOps.ofScalar putInt16 getInt16
def uint16Ops : StreamOps UInt16 := StreamOps.ofScalar putUint16 getUint16
def int32Ops : StreamOps Int32 := StreamOps.ofScalar putInt32 getInt32
def uint32Ops : StreamOps UInt32 := StreamOps.ofScalar putUint32 getUint32
def int64Ops : StreamOps Int64 := StreamOps.ofScalar putInt64 getInt64
def uint64Ops : StreamOps UInt64 := StreamOps.ofScalar putUint64 getUint64
def stringOps : StreamOps StdString := StreamOps.ofScalar putString getString
def u16stringOps : StreamOps StdU16String := StreamOps.ofScalar putU16string getU16string

end StreamOps

end Serialization
end RmwDps
