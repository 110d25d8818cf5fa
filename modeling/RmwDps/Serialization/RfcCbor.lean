import RmwDps.Serialization.CborStream

/-!
# An implementation of the DPS primitives

The smallest `DpsCbor`: encoders that append one RFC 7049 item or report an
overflow, decoders that accept a head of any width and check the range of their
C type.  It shows that `DpsCbor.Lawful` can be met, and lets concrete messages
be run.
-/

namespace RmwDps
namespace Serialization

/-- Append an item, or report an overflow and write nothing. -/
def emitItem (item : List UInt8) (b : DpsTxBuffer) : DpsStatus × DpsTxBuffer :=
  if b.used.length + item.length ≤ b.capacity then (.ok, { b with used := b.used ++ item })
  else (.errOverflow, b)

/-- Read an unsigned integer below `limit`. -/
def readBelow (limit : Nat) (input : List UInt8) : Option (Nat × List UInt8) :=
  match Rfc7049.readArgument Rfc7049.majorUint input with
  | some (n, rest) => if n < limit then some (n, rest) else none
  | none => none

/-- Read an integer from `-limit` to `limit - 1`. -/
def readWithin (limit : Int) (input : List UInt8) : Option (Int × List UInt8) :=
  match Rfc7049.readInt input with
  | some (i, rest) => if -limit ≤ i ∧ i < limit then some (i, rest) else none
  | none => none

/-- A decoder whose result is converted to the C type. -/
def mapResult {α β : Type} (f : α → β) (decode : List UInt8 → Option (α × List UInt8))
    (input : List UInt8) : Option (β × List UInt8) :=
  (decode input).map fun result => (f result.1, result.2)

@[reducible]
def rfcCbor : DpsCbor where
  encodeUint n := emitItem (Rfc7049.uint n.toNat)
  encodeInt i := emitItem (Rfc7049.int i.toInt)
  encodeFloat f := emitItem (Rfc7049.float32 f.bits)
  encodeDouble d := emitItem (Rfc7049.float64 d.bits)
  encodeBoolean b := emitItem (Rfc7049.bool b)
  encodeArray n := emitItem (Rfc7049.array n)
  encodeBytes s := emitItem (Rfc7049.bytes s)
  encodeStringAndLength s := emitItem (Rfc7049.text s)
  sizeofUint n := (Rfc7049.uint n.toNat).length
  sizeofInt i := (Rfc7049.int i.toInt).length
  sizeofFloat := 5
  sizeofDouble := 9
  sizeofBoolean := 1
  sizeofArray n := (Rfc7049.array n).length
  sizeofBytes n := (Rfc7049.head Rfc7049.majorBytes n).length + n
  sizeofStringAndLength n := (Rfc7049.head Rfc7049.majorText n).length + n
  decodeUint := mapResult UInt64.ofNat (readBelow (2 ^ 64))
  decodeUint32 := mapResult UInt32.ofNat (readBelow (2 ^ 32))
  decodeUint16 := mapResult UInt16.ofNat (readBelow (2 ^ 16))
  decodeUint8 := mapResult UInt8.ofNat (readBelow (2 ^ 8))
  decodeInt := mapResult Int64.ofInt (readWithin (2 ^ 63))
  decodeInt32 := mapResult Int32.ofInt (readWithin (2 ^ 31))
  decodeInt16 := mapResult Int16.ofInt (readWithin (2 ^ 15))
  decodeInt8 := mapResult Int8.ofInt (readWithin (2 ^ 7))
  decodeFloat := mapResult CFloat.mk Rfc7049.readFloat32
  decodeDouble := mapResult CDouble.mk Rfc7049.readFloat64
  decodeBoolean := Rfc7049.readBool
  decodeString := Rfc7049.readString Rfc7049.majorText
  decodeBytes := Rfc7049.readString Rfc7049.majorBytes
  decodeArray := mapResult UInt64.ofNat (Rfc7049.readArgument Rfc7049.majorArray)
  peek input := (Rfc7049.readHead input).map fun head => (head.1, UInt64.ofNat head.2.1)

theorem emitItem_writes (item : List UInt8) : WritesItem (emitItem item) item where
  fits _ hRoom := if_pos hRoom
  overflows b hLong := by rw [emitItem, if_neg (by omega)]

theorem ReadsItem.map {α β : Type} {decode : List UInt8 → Option (α × List UInt8)}
    {item : List UInt8} {a : α} {b : β} {f : α → β} (hDecode : ReadsItem decode item a)
    (hValue : f a = b) : ReadsItem (mapResult f decode) item b := by
  intro rest
  simp only [mapResult, hDecode rest, Option.map_some, hValue]

theorem readBelow_reads {limit n : Nat} (hLimit : limit ≤ 2 ^ 64) (hBelow : n < limit) :
    ReadsItem (readBelow limit) (Rfc7049.uint n) n := by
  intro rest
  have hArgument : n < 2 ^ 64 := by omega
  have hMajor : Rfc7049.majorUint < 8 := by decide
  have hRead := Rfc7049.readArgument_head hMajor hArgument rest
  simp only [readBelow, Rfc7049.uint, hRead, if_pos hBelow]

theorem readWithin_reads {limit i : Int} (hLimit : limit ≤ 2 ^ 63) (hLow : -limit ≤ i)
    (hHigh : i < limit) : ReadsItem (readWithin limit) (Rfc7049.int i) i := by
  intro rest
  have hRead := Rfc7049.readInt_int (i := i) (by omega) (by omega) rest
  simp only [readWithin, hRead, if_pos (And.intro hLow hHigh)]

theorem readArray_reads {n : Nat} (hArgument : n < 2 ^ 64) :
    ReadsItem (Rfc7049.readArgument Rfc7049.majorArray) (Rfc7049.array n) n :=
  fun rest => Rfc7049.readArgument_head (by decide) hArgument rest

theorem rfcCbor_peek {major n : Nat} (hMajor : major < 8) (hArgument : n < 2 ^ 64)
    (rest : List UInt8) :
    rfcCbor.peek (Rfc7049.head major n ++ rest) = some (major, UInt64.ofNat n) := by
  show (Rfc7049.readHead _).map _ = _
  rw [Rfc7049.readHead_head hMajor hArgument, Option.map_some]

section Lawful

local instance : DpsCbor := rfcCbor

theorem rfcCbor_lawful : @DpsCbor.Lawful rfcCbor where
  -- Every encoder emits its item if there is room, and every size is that of the item.
  encodeUint _ := emitItem_writes _
  encodeInt _ := emitItem_writes _
  encodeFloat _ := emitItem_writes _
  encodeDouble _ := emitItem_writes _
  encodeBoolean _ := emitItem_writes _
  encodeArray _ _ := emitItem_writes _
  encodeBytes _ _ := emitItem_writes _
  encodeStringAndLength _ _ := emitItem_writes _
  sizeofUint _ := le_rfl
  sizeofInt _ := le_rfl
  sizeofFloat f := (Rfc7049.length_float32 f.bits).le
  sizeofDouble d := (Rfc7049.length_float64 d.bits).le
  sizeofBoolean _ := le_rfl
  sizeofArray _ _ := le_rfl
  sizeofBytes s _ := (Rfc7049.length_bytes s).le
  sizeofStringAndLength s _ := (Rfc7049.length_text s).le
  decodeUint n := (readBelow_reads le_rfl n.toNat_lt).map UInt64.ofNat_toNat
  decodeUint32 n := (readBelow_reads (by decide) n.toNat_lt).map UInt32.ofNat_toNat
  decodeUint16 n := (readBelow_reads (by decide) n.toNat_lt).map UInt16.ofNat_toNat
  decodeUint8 n := (readBelow_reads (by decide) n.toNat_lt).map UInt8.ofNat_toNat
  decodeInt i := (readWithin_reads le_rfl i.le_toInt i.toInt_lt).map (Int64.ofInt_toInt i)
  decodeInt32 i := (readWithin_reads (by decide) i.le_toInt i.toInt_lt).map (Int32.ofInt_toInt i)
  decodeInt16 i := (readWithin_reads (by decide) i.le_toInt i.toInt_lt).map (Int16.ofInt_toInt i)
  decodeInt8 i := (readWithin_reads (by decide) i.le_toInt i.toInt_lt).map (Int8.ofInt_toInt i)
  decodeFloat f := ReadsItem.map (fun rest => Rfc7049.readFloat32_float32 f.bits rest) rfl
  decodeDouble d := ReadsItem.map (fun rest => Rfc7049.readFloat64_float64 d.bits rest) rfl
  decodeBoolean := Rfc7049.readBool_bool
  decodeString _ hLength rest := Rfc7049.readString_head (by decide) hLength rest
  decodeBytes _ hLength rest := Rfc7049.readString_head (by decide) hLength rest
  decodeString_size _ _ _ hRead := Rfc7049.readString_length_lt hRead
  decodeBytes_size _ _ _ hRead := Rfc7049.readString_length_lt hRead
  decodeArray n := (readArray_reads n.toNat_lt).map UInt64.ofNat_toNat
  peekArray n rest := by
    rw [Rfc7049.array, rfcCbor_peek (by decide) n.toNat_lt, UInt64.ofNat_toNat]
  peekBytes s rest hLength := by
    rw [Rfc7049.bytes, List.append_assoc, rfcCbor_peek (by decide) hLength]

end Lawful

/-- A platform on which plain `char` is signed. -/
@[reducible]
def signedChar : Platform := ⟨true⟩

/-- A platform on which plain `char` is unsigned. -/
@[reducible]
def unsignedChar : Platform := ⟨false⟩

end Serialization
end RmwDps
