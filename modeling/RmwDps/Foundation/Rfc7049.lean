import Mathlib

/-!
# Data items of RFC 7049

The fragment of CBOR that a typed codec needs: the head of a data item (major
type and argument, in the shortest of the five widths), the items built on it,
and readers which accept a head of any width.  Every reader returns the bytes
it did not consume, and every `read*_*` lemma says that a reader applied to an
item followed by arbitrary bytes gives the value back and leaves exactly those
bytes.
-/

namespace Rfc7049

/-! ## Big-endian arguments -/

/-- The `width` low bytes of `n`, most significant first. -/
def beBytes : Nat → Nat → List UInt8
  | 0, _ => []
  | width + 1, n => UInt8.ofNat (n / 256 ^ width) :: beBytes width n

/-- The number a big-endian byte string denotes. -/
def beNat : List UInt8 → Nat
  | [] => 0
  | b :: rest => b.toNat * 256 ^ rest.length + beNat rest

@[simp] theorem length_beBytes (width n : Nat) : (beBytes width n).length = width := by
  induction width with
  | zero => rfl
  | succ width ih => simp [beBytes, ih]

theorem beNat_beBytes (width n : Nat) : beNat (beBytes width n) = n % 256 ^ width := by
  induction width with
  | zero => simp [beBytes, beNat, Nat.mod_one]
  | succ width ih =>
      have hSplit : n % 256 ^ (width + 1) =
          n % 256 ^ width + 256 ^ width * (n / 256 ^ width % 256) := Nat.mod_pow_succ
      simp only [beBytes, beNat, length_beBytes, ih, UInt8.toNat_ofNat']
      rw [hSplit, Nat.mul_comm, Nat.add_comm]

theorem beNat_beBytes_of_lt {width n : Nat} (h : n < 256 ^ width) :
    beNat (beBytes width n) = n := by
  rw [beNat_beBytes, Nat.mod_eq_of_lt h]

theorem beNat_lt (content : List UInt8) : beNat content < 256 ^ content.length := by
  induction content with
  | nil => simp [beNat]
  | cons b rest ih =>
      have hByte : b.toNat + 1 ≤ 256 := b.toNat_lt
      calc beNat (b :: rest) < b.toNat * 256 ^ rest.length + 256 ^ rest.length :=
            Nat.add_lt_add_left ih _
        _ = (b.toNat + 1) * 256 ^ rest.length := by ring
        _ ≤ 256 * 256 ^ rest.length := Nat.mul_le_mul_right _ hByte
        _ = 256 ^ (b :: rest).length := by rw [List.length_cons, Nat.pow_succ, Nat.mul_comm]

/-! ## Heads -/

/-- The major types in use. -/
def majorUint : Nat := 0
def majorNegative : Nat := 1
def majorBytes : Nat := 2
def majorText : Nat := 3
def majorArray : Nat := 4

/-- The argument of a head takes `2 ^ k` bytes after the initial byte when the
initial byte's low bits are `24 + k`. -/
def wideHead (major k n : Nat) : List UInt8 :=
  UInt8.ofNat (32 * major + 24 + k) :: beBytes (2 ^ k) n

/-- The shortest head with the given major type and argument. -/
def head (major n : Nat) : List UInt8 :=
  if n < 24 then [UInt8.ofNat (32 * major + n)]
  else if n < 2 ^ 8 then wideHead major 0 n
  else if n < 2 ^ 16 then wideHead major 1 n
  else if n < 2 ^ 32 then wideHead major 2 n
  else wideHead major 3 n

/-- Read a head of any width: its major type, its argument and what follows. -/
def readHead : List UInt8 → Option (Nat × Nat × List UInt8)
  | [] => none
  | initial :: rest =>
      let major := initial.toNat / 32
      let info := initial.toNat % 32
      if info < 24 then
        some (major, info, rest)
      else if info < 28 then
        let width := 2 ^ (info - 24)
        if rest.length < width then none
        else some (major, beNat (rest.take width), rest.drop width)
      else
        none

theorem readHead_wideHead {major k n : Nat} (hMajor : major < 8) (hWidth : k < 4)
    (hArgument : n < 256 ^ 2 ^ k) (rest : List UInt8) :
    readHead (wideHead major k n ++ rest) = some (major, n, rest) := by
  have hInitial : (UInt8.ofNat (32 * major + 24 + k)).toNat = 32 * major + 24 + k := by
    rw [UInt8.toNat_ofNat']
    omega
  have hMajorOf : (32 * major + 24 + k) / 32 = major := by omega
  have hInfoOf : (32 * major + 24 + k) % 32 = 24 + k := by omega
  have hWide : ¬ 24 + k < 24 := by omega
  have hKnown : 24 + k < 28 := by omega
  have hShift : 24 + k - 24 = k := by omega
  simp only [wideHead, List.cons_append, readHead, hInitial, hMajorOf, hInfoOf, hWide, hKnown,
    hShift, if_false, if_true]
  have hLong : ¬ (beBytes (2 ^ k) n ++ rest).length < 2 ^ k := by simp
  rw [if_neg hLong, List.take_left' (length_beBytes _ _), List.drop_left' (length_beBytes _ _),
    beNat_beBytes_of_lt hArgument]

theorem readHead_head {major n : Nat} (hMajor : major < 8) (hArgument : n < 2 ^ 64)
    (rest : List UInt8) :
    readHead (head major n ++ rest) = some (major, n, rest) := by
  unfold head
  split
  · next hShort =>
      have hInitial : (UInt8.ofNat (32 * major + n)).toNat = 32 * major + n := by
        rw [UInt8.toNat_ofNat']
        omega
      have hMajorOf : (32 * major + n) / 32 = major := by omega
      have hInfoOf : (32 * major + n) % 32 = n := by omega
      simp only [List.cons_append, List.nil_append, readHead, hInitial, hMajorOf, hInfoOf, hShort,
        if_true]
  · split
    · exact readHead_wideHead hMajor (by omega) (by omega) rest
    · split
      · exact readHead_wideHead hMajor (by omega) (by omega) rest
      · split
        · exact readHead_wideHead hMajor (by omega) (by omega) rest
        · exact readHead_wideHead hMajor (by omega) (by omega) rest

/-- The argument of a head has at most eight bytes. -/
theorem readHead_lt {input rest : List UInt8} {major n : Nat}
    (hRead : readHead input = some (major, n, rest)) : n < 2 ^ 64 := by
  cases input with
  | nil => simp [readHead] at hRead
  | cons initial tail =>
      simp only [readHead] at hRead
      split_ifs at hRead with hShort hKnown hLong
      · simp only [Option.some.injEq, Prod.mk.injEq] at hRead
        omega
      · simp only [Option.some.injEq, Prod.mk.injEq] at hRead
        obtain ⟨-, hArgument, -⟩ := hRead
        generalize hShift : initial.toNat % 32 - 24 = k at hArgument
        have hWidth : (tail.take (2 ^ k)).length ≤ 8 :=
          calc (tail.take (2 ^ k)).length ≤ 2 ^ k := List.length_take_le _ _
            _ ≤ 2 ^ 3 := Nat.pow_le_pow_right (by decide) (by omega)
        calc n = beNat (tail.take (2 ^ k)) := hArgument.symm
          _ < 256 ^ (tail.take (2 ^ k)).length := beNat_lt _
          _ ≤ 256 ^ 8 := Nat.pow_le_pow_right (by decide) hWidth

theorem head_ne_nil (major n : Nat) : head major n ≠ [] := by
  unfold head wideHead
  split_ifs <;> simp

/-! ## Items -/

/-- A non-negative integer. -/
def uint (n : Nat) : List UInt8 := head majorUint n

/-- An integer of either sign; `-1 - k` is written as the argument `k` under
the negative major type. -/
def int (i : Int) : List UInt8 :=
  if 0 ≤ i then uint i.toNat else head majorNegative (-1 - i).toNat

/-- A byte string. -/
def bytes (content : List UInt8) : List UInt8 := head majorBytes content.length ++ content

/-- A text string, given by its bytes. -/
def text (content : List UInt8) : List UInt8 := head majorText content.length ++ content

/-- The head of an array of `count` items. -/
def array (count : Nat) : List UInt8 := head majorArray count

/-- The two boolean simple values. -/
def bool (b : Bool) : List UInt8 := [if b then 0xF5 else 0xF4]

/-- A single-precision float, given by its bit pattern. -/
def float32 (bits : UInt32) : List UInt8 := 0xFA :: beBytes 4 bits.toNat

/-- A double-precision float, given by its bit pattern. -/
def float64 (bits : UInt64) : List UInt8 := 0xFB :: beBytes 8 bits.toNat

theorem int_of_nonneg (n : Nat) : int (n : Int) = uint n := by
  simp [int]

theorem length_bytes (content : List UInt8) :
    (bytes content).length = (head majorBytes content.length).length + content.length := by
  simp [bytes]

theorem length_text (content : List UInt8) :
    (text content).length = (head majorText content.length).length + content.length := by
  simp [text]

theorem length_float32 (bits : UInt32) : (float32 bits).length = 5 := by
  simp [float32]

theorem length_float64 (bits : UInt64) : (float64 bits).length = 9 := by
  simp [float64]

/-! ## Readers -/

/-- Read a head of one given major type. -/
def readArgument (major : Nat) (input : List UInt8) : Option (Nat × List UInt8) :=
  match readHead input with
  | some (m, n, rest) => if m = major then some (n, rest) else none
  | none => none

/-- Read an integer of either sign. -/
def readInt (input : List UInt8) : Option (Int × List UInt8) :=
  match readHead input with
  | some (0, n, rest) => some ((n : Int), rest)
  | some (1, n, rest) => some (-1 - (n : Int), rest)
  | _ => none

/-- Read a string of one given major type. -/
def readString (major : Nat) (input : List UInt8) : Option (List UInt8 × List UInt8) :=
  match readArgument major input with
  | some (n, rest) => if rest.length < n then none else some (rest.take n, rest.drop n)
  | none => none

def readBool : List UInt8 → Option (Bool × List UInt8)
  | 0xF4 :: rest => some (false, rest)
  | 0xF5 :: rest => some (true, rest)
  | _ => none

def readFloat32 : List UInt8 → Option (UInt32 × List UInt8)
  | 0xFA :: rest =>
      if rest.length < 4 then none
      else some (UInt32.ofNat (beNat (rest.take 4)), rest.drop 4)
  | _ => none

def readFloat64 : List UInt8 → Option (UInt64 × List UInt8)
  | 0xFB :: rest =>
      if rest.length < 8 then none
      else some (UInt64.ofNat (beNat (rest.take 8)), rest.drop 8)
  | _ => none

theorem readArgument_head {major n : Nat} (hMajor : major < 8) (hArgument : n < 2 ^ 64)
    (rest : List UInt8) :
    readArgument major (head major n ++ rest) = some (n, rest) := by
  simp [readArgument, readHead_head hMajor hArgument]

theorem readInt_int {i : Int} (hLow : -2 ^ 63 ≤ i) (hHigh : i < 2 ^ 64) (rest : List UInt8) :
    readInt (int i ++ rest) = some (i, rest) := by
  unfold int
  split
  · next hNonneg =>
      have hArgument : i.toNat < 2 ^ 64 := by omega
      have hBack : (i.toNat : Int) = i := Int.toNat_of_nonneg hNonneg
      simp [readInt, uint, majorUint, readHead_head (by decide : 0 < 8) hArgument, hBack]
  · next hNegative =>
      have hArgument : (-1 - i).toNat < 2 ^ 64 := by omega
      have hBack : -1 - ((-1 - i).toNat : Int) = i := by omega
      simp only [readInt, majorNegative, readHead_head (by decide : 1 < 8) hArgument, hBack]

theorem readString_head {major : Nat} (hMajor : major < 8) {content : List UInt8}
    (hLength : content.length < 2 ^ 64) (rest : List UInt8) :
    readString major (head major content.length ++ content ++ rest) = some (content, rest) := by
  have hLong : ¬ (content ++ rest).length < content.length := by simp
  simp only [readString, List.append_assoc, readArgument_head hMajor hLength, if_neg hLong,
    List.take_left, List.drop_left]

theorem readArgument_lt {major n : Nat} {input rest : List UInt8}
    (hRead : readArgument major input = some (n, rest)) : n < 2 ^ 64 := by
  unfold readArgument at hRead
  split at hRead
  · next hHead =>
      split_ifs at hRead
      simp only [Option.some.injEq, Prod.mk.injEq] at hRead
      exact hRead.1 ▸ readHead_lt hHead
  · cases hRead

theorem readString_length_lt {major : Nat} {input content rest : List UInt8}
    (hRead : readString major input = some (content, rest)) : content.length < 2 ^ 64 := by
  unfold readString at hRead
  split at hRead
  · next n tail hArgument =>
      split_ifs at hRead
      simp only [Option.some.injEq, Prod.mk.injEq] at hRead
      calc content.length = (tail.take n).length := by rw [hRead.1]
        _ ≤ n := List.length_take_le _ _
        _ < 2 ^ 64 := readArgument_lt hArgument
  · cases hRead

/-- A head takes at least one byte. -/
theorem readHead_length_lt {input rest : List UInt8} {major n : Nat}
    (hRead : readHead input = some (major, n, rest)) : rest.length < input.length := by
  cases input with
  | nil => simp [readHead] at hRead
  | cons initial tail =>
      simp only [readHead] at hRead
      split_ifs at hRead
      · cases hRead
        exact Nat.lt_succ_self _
      · cases hRead
        rw [List.length_drop, List.length_cons]
        exact Nat.lt_succ_of_le (Nat.sub_le _ _)

/-- A string is part of the input. -/
theorem readString_length_le {major : Nat} {input content rest : List UInt8}
    (hRead : readString major input = some (content, rest)) : content.length ≤ input.length := by
  unfold readString readArgument at hRead
  split at hRead
  · next n tail hArgument =>
      split at hArgument
      · next hHead =>
          split_ifs at hArgument hRead
          cases hArgument
          cases hRead
          calc (tail.take n).length ≤ tail.length := List.length_take_le' _ _
            _ ≤ input.length := (readHead_length_lt hHead).le
      · cases hArgument
  · cases hRead

theorem readBool_bool (b : Bool) (rest : List UInt8) :
    readBool (bool b ++ rest) = some (b, rest) := by
  cases b <;> rfl

theorem readFloat32_float32 (bits : UInt32) (rest : List UInt8) :
    readFloat32 (float32 bits ++ rest) = some (bits, rest) := by
  have hLong : ¬ (beBytes 4 bits.toNat ++ rest).length < 4 := by simp
  have hBits : beNat (beBytes 4 bits.toNat) = bits.toNat :=
    beNat_beBytes_of_lt bits.toNat_lt
  simp only [float32, List.cons_append, readFloat32, if_neg hLong]
  rw [List.take_left' (length_beBytes _ _), List.drop_left' (length_beBytes _ _), hBits,
    UInt32.ofNat_toNat]

theorem readFloat64_float64 (bits : UInt64) (rest : List UInt8) :
    readFloat64 (float64 bits ++ rest) = some (bits, rest) := by
  have hLong : ¬ (beBytes 8 bits.toNat ++ rest).length < 8 := by simp
  have hBits : beNat (beBytes 8 bits.toNat) = bits.toNat :=
    beNat_beBytes_of_lt bits.toNat_lt
  simp only [float64, List.cons_append, readFloat64, if_neg hLong]
  rw [List.take_left' (length_beBytes _ _), List.drop_left' (length_beBytes _ _), hBits,
    UInt64.ofNat_toNat]

/-! ## Longer inputs -/

section Append

variable {input rest : List UInt8} (more : List UInt8)

/-- Taking and dropping no more than there is. -/
theorem take_drop_append {n : Nat} (hLong : ¬ input.length < n) :
    (input ++ more).take n = input.take n ∧ (input ++ more).drop n = input.drop n ++ more := by
  have hEnough : n ≤ input.length := not_lt.mp hLong
  exact ⟨List.take_append_of_le_length hEnough, List.drop_append_of_le_length hEnough⟩

theorem not_length_append_lt {n : Nat} (hLong : ¬ input.length < n) :
    ¬ (input ++ more).length < n := by
  rw [List.length_append]
  omega

theorem readHead_append {major n : Nat} (hRead : readHead input = some (major, n, rest)) :
    readHead (input ++ more) = some (major, n, rest ++ more) := by
  cases input with
  | nil => cases hRead
  | cons initial tail =>
      simp only [readHead, List.cons_append] at hRead ⊢
      split_ifs at hRead with hShort hKnown hLong
      · cases hRead
        rw [if_pos hShort]
      · cases hRead
        obtain ⟨hTake, hDrop⟩ := take_drop_append more hLong
        rw [if_neg hShort, if_pos hKnown, if_neg (not_length_append_lt more hLong), hTake, hDrop]

theorem readArgument_append {major n : Nat} (hRead : readArgument major input = some (n, rest)) :
    readArgument major (input ++ more) = some (n, rest ++ more) := by
  unfold readArgument at hRead ⊢
  split at hRead
  · next hHead =>
      split_ifs at hRead with hMajor
      cases hRead
      rw [readHead_append more hHead]
      exact if_pos hMajor
  · cases hRead

theorem readInt_append {i : Int} (hRead : readInt input = some (i, rest)) :
    readInt (input ++ more) = some (i, rest ++ more) := by
  unfold readInt at hRead ⊢
  split at hRead
  · next hHead =>
      cases hRead
      simp only [readHead_append more hHead]
  · next hHead =>
      cases hRead
      simp only [readHead_append more hHead]
  · cases hRead

theorem readString_append {major : Nat} {content : List UInt8}
    (hRead : readString major input = some (content, rest)) :
    readString major (input ++ more) = some (content, rest ++ more) := by
  unfold readString at hRead ⊢
  split at hRead
  · next n tail hArgument =>
      split_ifs at hRead with hLong
      cases hRead
      obtain ⟨hTake, hDrop⟩ := take_drop_append more hLong
      rw [readArgument_append more hArgument]
      simp only [if_neg (not_length_append_lt more hLong), hTake, hDrop]
  · cases hRead

theorem readBool_append {b : Bool} (hRead : readBool input = some (b, rest)) :
    readBool (input ++ more) = some (b, rest ++ more) := by
  unfold readBool at hRead
  split at hRead
  · cases hRead
    rfl
  · cases hRead
    rfl
  · cases hRead

theorem readFloat32_append {bits : UInt32} (hRead : readFloat32 input = some (bits, rest)) :
    readFloat32 (input ++ more) = some (bits, rest ++ more) := by
  unfold readFloat32 at hRead
  split at hRead
  · next tail =>
      split_ifs at hRead with hLong
      cases hRead
      obtain ⟨hTake, hDrop⟩ := take_drop_append more hLong
      simp only [List.cons_append, readFloat32, if_neg (not_length_append_lt more hLong), hTake,
        hDrop]
  · cases hRead

theorem readFloat64_append {bits : UInt64} (hRead : readFloat64 input = some (bits, rest)) :
    readFloat64 (input ++ more) = some (bits, rest ++ more) := by
  unfold readFloat64 at hRead
  split at hRead
  · next tail =>
      split_ifs at hRead with hLong
      cases hRead
      obtain ⟨hTake, hDrop⟩ := take_drop_append more hLong
      simp only [List.cons_append, readFloat64, if_neg (not_length_append_lt more hLong), hTake,
        hDrop]
  · cases hRead

end Append

end Rfc7049
