import RmwDps.Foundation.Rfc7049

/-!
# Languages of data items

The byte strings of the data items of one kind and of definite length, as languages: heads
of any width, the two sorts of integers, strings, arrays of items.  None of them refers to
a reader; what the readers accept is proved to be these languages.

`Takes language input rest` says that the input begins with a word of the language and
goes on with `rest`.
-/

namespace Rfc7049

/-! ## Words in front of an input -/

section Takes

variable {α : Type}

/-- A word of the language is at the front of the input, with `rest` behind it. -/
def Takes (language : Language α) (input rest : List α) : Prop :=
  ∃ word ∈ language, input = word ++ rest

@[simp] theorem takes_zero {input rest : List α} : ¬ Takes 0 input rest :=
  fun ⟨word, hWord, _⟩ => Language.notMem_zero word hWord

@[simp] theorem takes_one {input rest : List α} : Takes 1 input rest ↔ input = rest := by
  constructor
  · rintro ⟨word, hWord, hInput⟩
    rw [(Language.mem_one word).mp hWord] at hInput
    exact hInput
  · rintro rfl
    exact ⟨[], Language.nil_mem_one, rfl⟩

@[simp] theorem takes_singleton {word input rest : List α} :
    Takes {word} input rest ↔ input = word ++ rest := by
  constructor
  · rintro ⟨word', hWord, hInput⟩
    obtain rfl : word' = word := hWord
    exact hInput
  · intro hInput
    exact ⟨word, rfl, hInput⟩

theorem takes_mul {language language' : Language α} {input rest : List α} :
    Takes (language * language') input rest ↔
      ∃ middle, Takes language input middle ∧ Takes language' middle rest := by
  constructor
  · rintro ⟨word, hWord, rfl⟩
    obtain ⟨front, hFront, back, hBack, rfl⟩ := Language.mem_mul.mp hWord
    exact ⟨back ++ rest, ⟨front, hFront, List.append_assoc front back rest⟩, back, hBack, rfl⟩
  · rintro ⟨middle, ⟨front, hFront, rfl⟩, back, hBack, rfl⟩
    exact ⟨front ++ back, Language.append_mem_mul hFront hBack,
      (List.append_assoc front back rest).symm⟩

theorem takes_iSup {ι : Sort*} {language : ι → Language α} {input rest : List α} :
    Takes (⨆ i, language i) input rest ↔ ∃ i, Takes (language i) input rest := by
  constructor
  · rintro ⟨word, hWord, hInput⟩
    obtain ⟨i, hMem⟩ := Language.mem_iSup.mp hWord
    exact ⟨i, word, hMem, hInput⟩
  · rintro ⟨i, word, hWord, hInput⟩
    exact ⟨word, Language.mem_iSup.mpr ⟨i, hWord⟩, hInput⟩

theorem Takes.mono {language language' : Language α} (hLe : language ≤ language')
    {input rest : List α} (hTakes : Takes language input rest) : Takes language' input rest := by
  obtain ⟨word, hWord, hInput⟩ := hTakes
  exact ⟨word, hLe hWord, hInput⟩

end Takes

/-! ## Heads -/

/-- The heads of a major type and an argument: a small argument stands in the initial byte,
and any argument may stand in the one, two, four or eight bytes behind it. -/
inductive IsHead (major n : Nat) : List UInt8 → Prop
  | short (hShort : n < 24) : IsHead major n [UInt8.ofNat (32 * major + n)]
  | wide {k : Nat} {argument : List UInt8} (hWidth : k < 4) (hLength : argument.length = 2 ^ k)
      (hValue : beNat argument = n) :
      IsHead major n (UInt8.ofNat (32 * major + 24 + k) :: argument)

def heads (major n : Nat) : Language UInt8 := {head : List UInt8 | IsHead major n head}

theorem IsHead.lt {major n : Nat} {head : List UInt8} (hHead : IsHead major n head) :
    n < 2 ^ 64 := by
  cases hHead with
  | short hShort => omega
  | @wide k argument hWidth hLength hValue =>
      calc n = beNat argument := hValue.symm
        _ < 256 ^ argument.length := beNat_lt argument
        _ = 256 ^ 2 ^ k := by rw [hLength]
        _ ≤ 256 ^ 2 ^ 3 := Nat.pow_le_pow_right (by decide) (Nat.pow_le_pow_right (by decide)
            (by omega))
        _ = 2 ^ 64 := by norm_num

theorem readHead_of_isHead {major n : Nat} {head : List UInt8} (hMajor : major < 8)
    (hHead : IsHead major n head) (rest : List UInt8) :
    readHead (head ++ rest) = some (major, n, rest) := by
  cases hHead with
  | short hShort =>
      have hInitial : (UInt8.ofNat (32 * major + n)).toNat = 32 * major + n := by
        rw [UInt8.toNat_ofNat']
        omega
      have hMajorOf : (32 * major + n) / 32 = major := by omega
      have hInfoOf : (32 * major + n) % 32 = n := by omega
      simp only [List.cons_append, List.nil_append, readHead, hInitial, hMajorOf, hInfoOf, hShort,
        if_true]
  | @wide k argument hWidth hLength hValue =>
      have hInitial : (UInt8.ofNat (32 * major + 24 + k)).toNat = 32 * major + 24 + k := by
        rw [UInt8.toNat_ofNat']
        omega
      have hMajorOf : (32 * major + 24 + k) / 32 = major := by omega
      have hInfoOf : (32 * major + 24 + k) % 32 = 24 + k := by omega
      have hWide : ¬ 24 + k < 24 := by omega
      have hKnown : 24 + k < 28 := by omega
      have hShift : 24 + k - 24 = k := by omega
      have hLong : ¬ (argument ++ rest).length < 2 ^ k := by
        rw [List.length_append]
        omega
      simp only [List.cons_append, readHead, hInitial, hMajorOf, hInfoOf, hWide, hKnown, hShift,
        if_false, if_true, if_neg hLong, List.take_left' hLength, List.drop_left' hLength, hValue]

theorem takes_heads_of_readHead {major n : Nat} {input rest : List UInt8}
    (hRead : readHead input = some (major, n, rest)) : Takes (heads major n) input rest := by
  cases input with
  | nil => cases hRead
  | cons initial tail =>
      have hSplit : initial.toNat = 32 * (initial.toNat / 32) + initial.toNat % 32 := by omega
      have hByte : UInt8.ofNat (32 * (initial.toNat / 32) + initial.toNat % 32) = initial := by
        rw [← hSplit, UInt8.ofNat_toNat]
      simp only [readHead] at hRead
      split_ifs at hRead with hShort hKnown hLong
      · cases hRead
        refine ⟨[initial], ?_, rfl⟩
        have hHead : IsHead (initial.toNat / 32) (initial.toNat % 32)
            [UInt8.ofNat (32 * (initial.toNat / 32) + initial.toNat % 32)] := .short hShort
        rwa [hByte] at hHead
      · cases hRead
        obtain ⟨k, hInfo⟩ := Nat.exists_eq_add_of_le (not_lt.mp hShort)
        have hShift : initial.toNat % 32 - 24 = k := by omega
        rw [hShift] at hLong ⊢
        have hLength : (tail.take (2 ^ k)).length = 2 ^ k :=
          List.length_take_of_le (not_lt.mp hLong)
        refine ⟨initial :: tail.take (2 ^ k), ?_, by simp⟩
        have hHead : IsHead (initial.toNat / 32) (beNat (tail.take (2 ^ k)))
            (UInt8.ofNat (32 * (initial.toNat / 32) + 24 + k) :: tail.take (2 ^ k)) :=
          .wide (by omega) hLength rfl
        rwa [Nat.add_assoc, ← hInfo, hByte] at hHead

/-- The reader of heads accepts exactly the heads. -/
theorem readHead_iff {major n : Nat} (hMajor : major < 8) {input rest : List UInt8} :
    readHead input = some (major, n, rest) ↔ Takes (heads major n) input rest := by
  constructor
  · exact takes_heads_of_readHead
  · rintro ⟨head, hHead, rfl⟩
    exact readHead_of_isHead hMajor hHead rest

/-! ## Items -/

/-- The integers, a negative one being `-1 - n`. -/
def ints (i : Int) : Language UInt8 :=
  if 0 ≤ i then heads majorUint i.toNat else heads majorNegative (-1 - i).toNat

/-- The strings of a major type with the given content. -/
def strings (major : Nat) (content : List UInt8) : Language UInt8 :=
  heads major content.length * {content}

/-- The strings of a major type and of so many bytes. -/
def stringsOf (major length : Nat) : Language UInt8 :=
  ⨆ content : List UInt8, ⨆ _ : content.length = length, strings major content

theorem takes_stringsOf {major length : Nat} {input rest : List UInt8} :
    Takes (stringsOf major length) input rest ↔
      ∃ content, content.length = length ∧ Takes (strings major content) input rest := by
  simp only [stringsOf, takes_iSup, exists_prop]

/-- The arrays of so many items. -/
def arrays (item : Language UInt8) (count : Nat) : Language UInt8 :=
  heads majorArray count * item ^ count

/-- The arrays with one item of each language. -/
def arrayOf (items : List (Language UInt8)) : Language UInt8 :=
  heads majorArray items.length * items.prod

theorem readArgument_iff {major n : Nat} (hMajor : major < 8) {input rest : List UInt8} :
    readArgument major input = some (n, rest) ↔ Takes (heads major n) input rest := by
  rw [← readHead_iff hMajor]
  unfold readArgument
  split
  · next m n' tail hHead =>
      rw [hHead]
      simp only [Option.ite_none_right_eq_some, Option.some.injEq, Prod.mk.injEq]
  · next hNone => simp [hNone]

theorem readInt_iff {i : Int} {input rest : List UInt8} :
    readInt input = some (i, rest) ↔ Takes (ints i) input rest := by
  unfold ints
  constructor
  · intro hRead
    unfold readInt at hRead
    split at hRead
    · next n tail hHead =>
        cases hRead
        rw [if_pos (Int.natCast_nonneg n), Int.toNat_natCast]
        exact takes_heads_of_readHead hHead
    · next n tail hHead =>
        cases hRead
        have hBack : (-1 - (-1 - (n : Int))).toNat = n := by omega
        rw [if_neg (by omega), hBack]
        exact takes_heads_of_readHead hHead
    · cases hRead
  · intro hTakes
    split_ifs at hTakes with hSign
    · have hBack : (i.toNat : Int) = i := Int.toNat_of_nonneg hSign
      have hHead := (readHead_iff (by decide)).mpr hTakes
      simp only [readInt, majorUint] at hHead ⊢
      simp only [hHead, hBack]
    · have hBack : -1 - ((-1 - i).toNat : Int) = i := by omega
      have hHead := (readHead_iff (by decide)).mpr hTakes
      simp only [readInt, majorNegative] at hHead ⊢
      simp only [hHead, hBack]

theorem readString_iff {major : Nat} (hMajor : major < 8) {content input rest : List UInt8} :
    readString major input = some (content, rest) ↔ Takes (strings major content) input rest := by
  unfold strings
  simp only [takes_mul, takes_singleton, ← readArgument_iff hMajor]
  unfold readString
  constructor
  · intro hRead
    split at hRead
    · next n tail hArgument =>
        split_ifs at hRead with hLong
        cases hRead
        refine ⟨tail, ?_, (List.take_append_drop n tail).symm⟩
        rw [hArgument, List.length_take_of_le (not_lt.mp hLong)]
    · cases hRead
  · rintro ⟨middle, hArgument, rfl⟩
    have hLong : ¬ (content ++ rest).length < content.length := by simp
    simp only [hArgument, if_neg hLong, List.take_left, List.drop_left]

theorem readBool_iff {b : Bool} {input rest : List UInt8} :
    readBool input = some (b, rest) ↔ Takes {bool b} input rest := by
  rw [takes_singleton]
  constructor
  · intro hRead
    unfold readBool at hRead
    split at hRead
    · cases hRead
      rfl
    · cases hRead
      rfl
    · cases hRead
  · rintro rfl
    exact readBool_bool b rest

/-- Only the low bytes of a number are written. -/
theorem beBytes_add_mul (width n m : Nat) :
    beBytes width (n * 256 ^ width + m) = beBytes width m := by
  induction width generalizing n with
  | zero => rfl
  | succ width ih =>
      have hPow : n * 256 ^ (width + 1) + m = n * 256 * 256 ^ width + m := by ring
      have hDiv : (n * 256 * 256 ^ width + m) / 256 ^ width = n * 256 + m / 256 ^ width := by
        rw [Nat.mul_comm, Nat.mul_add_div (Nat.pow_pos (by decide))]
      have hByte : UInt8.ofNat (n * 256 + m / 256 ^ width) = UInt8.ofNat (m / 256 ^ width) := by
        apply UInt8.toNat_inj.mp
        rw [UInt8.toNat_ofNat', UInt8.toNat_ofNat']
        omega
      rw [beBytes, beBytes, hPow, hDiv, hByte, ih]

theorem beBytes_beNat (content : List UInt8) :
    beBytes content.length (beNat content) = content := by
  induction content with
  | nil => rfl
  | cons b rest ih =>
      have hHigh : (b.toNat * 256 ^ rest.length + beNat rest) / 256 ^ rest.length = b.toNat := by
        rw [Nat.mul_comm, Nat.mul_add_div (Nat.pow_pos (by decide)),
          Nat.div_eq_of_lt (beNat_lt rest), Nat.add_zero]
      rw [List.length_cons, beNat, beBytes, hHigh, UInt8.ofNat_toNat, beBytes_add_mul, ih]

theorem readFloat32_iff {bits : UInt32} {input rest : List UInt8} :
    readFloat32 input = some (bits, rest) ↔ Takes {float32 bits} input rest := by
  rw [takes_singleton]
  constructor
  · intro hRead
    unfold readFloat32 at hRead
    split at hRead
    · next tail =>
        split_ifs at hRead with hLong
        cases hRead
        have hLength : (tail.take 4).length = 4 := List.length_take_of_le (not_lt.mp hLong)
        have hBits : (UInt32.ofNat (beNat (tail.take 4))).toNat = beNat (tail.take 4) := by
          have hRange := beNat_lt (tail.take 4)
          rw [hLength] at hRange
          exact UInt32.toNat_ofNat_of_lt hRange
        have hBack := beBytes_beNat (tail.take 4)
        rw [hLength] at hBack
        rw [float32, hBits, hBack, List.cons_append, List.take_append_drop]
    · cases hRead
  · rintro rfl
    exact readFloat32_float32 bits rest

theorem readFloat64_iff {bits : UInt64} {input rest : List UInt8} :
    readFloat64 input = some (bits, rest) ↔ Takes {float64 bits} input rest := by
  rw [takes_singleton]
  constructor
  · intro hRead
    unfold readFloat64 at hRead
    split at hRead
    · next tail =>
        split_ifs at hRead with hLong
        cases hRead
        have hLength : (tail.take 8).length = 8 := List.length_take_of_le (not_lt.mp hLong)
        have hBits : (UInt64.ofNat (beNat (tail.take 8))).toNat = beNat (tail.take 8) := by
          have hRange := beNat_lt (tail.take 8)
          rw [hLength] at hRange
          exact UInt64.toNat_ofNat_of_lt hRange
        have hBack := beBytes_beNat (tail.take 8)
        rw [hLength] at hBack
        rw [float64, hBits, hBack, List.cons_append, List.take_append_drop]
    · cases hRead
  · rintro rfl
    exact readFloat64_float64 bits rest

end Rfc7049
