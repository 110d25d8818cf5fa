import RmwDps.Foundation.Rfc7049

/-!
# Well-formed data items

The grammar of RFC 7049 for data items of any kind, whether a typed codec uses them or
not: heads of any width, strings, arrays, maps, tags and simple values, and the strings,
arrays and maps of indefinite length, which a break ends.  `ReadsItems count input rest`
says that the input begins with so many data items and goes on with `rest`; no input can
be divided in two ways.

A writer emits a number of items, one after the other.  An array head swallows as many of
the items behind it as it announces and makes one item of them, and the rest stay behind:
`Items.array`.
-/

namespace Rfc7049

/-! ## The grammar -/

def majorMap : Nat := 5
def majorTag : Nat := 6

/-- The bytes that follow a head as they are. -/
def contentBytes (major n : Nat) : Nat :=
  if major = majorBytes ∨ major = majorText then n else 0

/-- The data items that belong to a head. -/
def contentItems (major n : Nat) : Nat :=
  if major = majorArray then n
  else if major = majorMap then 2 * n
  else if major = majorTag then 1
  else 0

/-- The initial bytes of an array and a map of indefinite length, and the break. -/
def openArray : UInt8 := 0x9F
def openMap : UInt8 := 0xBF
def breakByte : UInt8 := 0xFF

/-- The initial byte of a string of indefinite length. -/
def openString (major : Nat) : UInt8 := UInt8.ofNat (32 * major + 31)

/-- The chunks of a string of indefinite length: strings of the same major type. -/
inductive ReadsChunks (major : Nat) : List UInt8 → List UInt8 → Prop
  | nil (rest : List UInt8) : ReadsChunks major rest rest
  | cons {input chunk middle rest : List UInt8}
      (hChunk : readString major input = some (chunk, middle))
      (hRest : ReadsChunks major middle rest) : ReadsChunks major input rest

/-- So many data items are at the front of the input, with `rest` behind them. -/
inductive ReadsItems : Nat → List UInt8 → List UInt8 → Prop
  | nil (rest : List UInt8) : ReadsItems 0 rest rest
  | definite {count major n : Nat} {input content middle rest : List UInt8}
      (hHead : readHead input = some (major, n, content))
      (hContent : contentBytes major n ≤ content.length)
      (hItems : ReadsItems (contentItems major n) (content.drop (contentBytes major n)) middle)
      (hRest : ReadsItems count middle rest) : ReadsItems (count + 1) input rest
  | string {count major : Nat} {content middle rest : List UInt8}
      (hMajor : major = majorBytes ∨ major = majorText)
      (hChunks : ReadsChunks major content (breakByte :: middle))
      (hRest : ReadsItems count middle rest) :
      ReadsItems (count + 1) (openString major :: content) rest
  | array {count n : Nat} {content middle rest : List UInt8}
      (hItems : ReadsItems n content (breakByte :: middle)) (hRest : ReadsItems count middle rest) :
      ReadsItems (count + 1) (openArray :: content) rest
  | map {count n : Nat} {content middle rest : List UInt8}
      (hItems : ReadsItems (2 * n) content (breakByte :: middle))
      (hRest : ReadsItems count middle rest) : ReadsItems (count + 1) (openMap :: content) rest

/-- The bytes are one data item, and nothing is left over. -/
def IsItem (bytes : List UInt8) : Prop := ReadsItems 1 bytes []

/-- The bytes are one array, whose head announces the number of its elements. -/
def IsArray (count : Nat) (bytes : List UInt8) : Prop :=
  ∃ content, readHead bytes = some (majorArray, count, content) ∧ ReadsItems count content []

/-! ## Initial bytes of indefinite length -/

/-- The five low bits of an initial byte that opens or ends something of indefinite
length. -/
theorem readHead_indefinite {initial : UInt8} (hInfo : initial.toNat % 32 = 31)
    (content : List UInt8) : readHead (initial :: content) = none := by
  simp [readHead, hInfo]

theorem openString_info {major : Nat} (hMajor : major = majorBytes ∨ major = majorText) :
    (openString major).toNat % 32 = 31 := by
  rcases hMajor with rfl | rfl <;> rfl

/-- A break is not the first byte of a data item. -/
theorem ReadsItems.not_break {count : Nat} {content rest : List UInt8} :
    ¬ ReadsItems (count + 1) (breakByte :: content) rest := by
  intro hRead
  generalize hInput : breakByte :: content = input at hRead
  cases hRead with
  | definite hHead =>
      rw [← hInput, readHead_indefinite (by decide)] at hHead
      cases hHead
  | string hMajor =>
      have hByte := (List.cons.inj hInput).1
      rcases hMajor with rfl | rfl <;> exact absurd hByte (by decide)
  | array => exact absurd (List.cons.inj hInput).1 (by decide)
  | map => exact absurd (List.cons.inj hInput).1 (by decide)

theorem ReadsItems.not_nil {count : Nat} {rest : List UInt8} :
    ¬ ReadsItems (count + 1) [] rest := by
  intro hRead
  cases hRead with
  | definite hHead => simp [readHead] at hHead

theorem ReadsChunks.break_unique {major : Nat} {content middle middle' : List UInt8}
    (hChunks : ReadsChunks major content (breakByte :: middle))
    (hChunks' : ReadsChunks major content (breakByte :: middle')) : middle = middle' := by
  have hBreak : ∀ content, readString major (breakByte :: content) = none := by
    intro content
    simp [readString, readArgument, readHead_indefinite (by decide : breakByte.toNat % 32 = 31)]
  generalize hEnd : breakByte :: middle = rest at hChunks
  induction hChunks with
  | nil =>
      subst hEnd
      cases hChunks' with
      | nil => rfl
      | cons hChunk =>
          rw [hBreak] at hChunk
          cases hChunk
  | cons hChunk _ ih =>
      cases hChunks' with
      | nil =>
          rw [hBreak] at hChunk
          cases hChunk
      | cons hChunk' hRest' =>
          rw [hChunk] at hChunk'
          cases hChunk'
          exact ih hRest' hEnd

/-! ## Sequences of items -/

theorem ReadsItems.append {count count' : Nat} {input middle rest : List UInt8}
    (hFront : ReadsItems count input middle) (hBack : ReadsItems count' middle rest) :
    ReadsItems (count + count') input rest := by
  induction hFront with
  | nil =>
      rw [Nat.zero_add]
      exact hBack
  | definite hHead hContent hItems _ _ ih =>
      rw [Nat.succ_add]
      exact .definite hHead hContent hItems (ih hBack)
  | string hMajor hChunks _ ih =>
      rw [Nat.succ_add]
      exact .string hMajor hChunks (ih hBack)
  | array hItems _ _ ih =>
      rw [Nat.succ_add]
      exact .array hItems (ih hBack)
  | map hItems _ _ ih =>
      rw [Nat.succ_add]
      exact .map hItems (ih hBack)

theorem ReadsItems.split {count count' : Nat} {input rest : List UInt8}
    (hRead : ReadsItems (count + count') input rest) :
    ∃ middle, ReadsItems count input middle ∧ ReadsItems count' middle rest := by
  induction count generalizing input with
  | zero =>
      rw [Nat.zero_add] at hRead
      exact ⟨input, .nil input, hRead⟩
  | succ count ih =>
      rw [Nat.succ_add] at hRead
      cases hRead with
      | definite hHead hContent hItems hRest =>
          obtain ⟨middle, hFront, hBack⟩ := ih hRest
          exact ⟨middle, .definite hHead hContent hItems hFront, hBack⟩
      | string hMajor hChunks hRest =>
          obtain ⟨middle, hFront, hBack⟩ := ih hRest
          exact ⟨middle, .string hMajor hChunks hFront, hBack⟩
      | array hItems hRest =>
          obtain ⟨middle, hFront, hBack⟩ := ih hRest
          exact ⟨middle, .array hItems hFront, hBack⟩
      | map hItems hRest =>
          obtain ⟨middle, hFront, hBack⟩ := ih hRest
          exact ⟨middle, .map hItems hFront, hBack⟩

/-! ## The division into items is unique -/

/-- Of two readings of one input, the one with more items goes on where the other ends. -/
structure Overlap (count : Nat) (rest : List UInt8) (count' : Nat) (rest' : List UInt8) : Prop where
  le : count ≤ count' → ReadsItems (count' - count) rest rest'
  ge : count' ≤ count → ReadsItems (count - count') rest' rest

section Overlap

variable {count count' : Nat} {rest rest' middle middle' content content' : List UInt8}

theorem Overlap.succ (hOverlap : Overlap count rest count' rest') :
    Overlap (count + 1) rest (count' + 1) rest' where
  le hLe := by
    rw [Nat.succ_sub_succ]
    exact hOverlap.le (Nat.le_of_succ_le_succ hLe)
  ge hGe := by
    rw [Nat.succ_sub_succ]
    exact hOverlap.ge (Nat.le_of_succ_le_succ hGe)

theorem Overlap.unique (hOverlap : Overlap count rest count rest') : rest = rest' := by
  have hRead := hOverlap.le le_rfl
  rw [Nat.sub_self] at hRead
  cases hRead
  rfl

/-- No item begins with a break, so both readings end at the same one. -/
theorem Overlap.break_unique
    (hOverlap : Overlap count (breakByte :: middle) count' (breakByte :: middle')) :
    middle = middle' := by
  rcases Nat.lt_trichotomy count count' with hLt | rfl | hGt
  · obtain ⟨more, hMore⟩ := Nat.exists_eq_add_of_lt hLt
    have hRead := hOverlap.le hLt.le
    rw [hMore, Nat.add_assoc, Nat.add_sub_cancel_left] at hRead
    exact absurd hRead ReadsItems.not_break
  · exact (List.cons.inj hOverlap.unique).2
  · obtain ⟨more, hMore⟩ := Nat.exists_eq_add_of_lt hGt
    have hRead := hOverlap.ge hGt.le
    rw [hMore, Nat.add_assoc, Nat.add_sub_cancel_left] at hRead
    exact absurd hRead ReadsItems.not_break

theorem Overlap.zero_right {input : List UInt8} (hRead : ReadsItems (count + 1) input rest) :
    Overlap (count + 1) rest 0 input where
  le hLe := absurd hLe (Nat.not_succ_le_zero count)
  ge _ := hRead

/-- The ways in which an input can begin are told apart by its first byte. -/
theorem openString_ne_openArray {major : Nat} (hMajor : major = majorBytes ∨ major = majorText) :
    openString major ≠ openArray ∧ openString major ≠ openMap := by
  rcases hMajor with rfl | rfl <;> decide

theorem openString_injective {major major' : Nat} (hMajor : major = majorBytes ∨ major = majorText)
    (hMajor' : major' = majorBytes ∨ major' = majorText)
    (hSame : openString major = openString major') : major = major' := by
  rcases hMajor with rfl | rfl <;> rcases hMajor' with rfl | rfl
  · rfl
  · exact absurd hSame (by decide)
  · exact absurd hSame (by decide)
  · rfl

theorem ReadsItems.overlap {input : List UInt8} (hRead : ReadsItems count input rest)
    (hRead' : ReadsItems count' input rest') : Overlap count rest count' rest' := by
  induction hRead generalizing count' rest' with
  | nil input =>
      refine ⟨fun _ => hRead', fun hNone => ?_⟩
      obtain rfl := Nat.le_zero.mp hNone
      cases hRead'
      exact .nil input
  | definite hHead hContent hItems hRest ihItems ihRest =>
      cases hRead' with
      | nil => exact .zero_right (.definite hHead hContent hItems hRest)
      | definite hHead' hContent' hItems' hRest' =>
          rw [hHead] at hHead'
          cases hHead'
          obtain rfl := (ihItems hItems').unique
          exact (ihRest hRest').succ
      | string hMajor =>
          rw [readHead_indefinite (openString_info hMajor)] at hHead
          cases hHead
      | array =>
          rw [readHead_indefinite (by decide)] at hHead
          cases hHead
      | map =>
          rw [readHead_indefinite (by decide)] at hHead
          cases hHead
  | @string count major content middle rest hMajor hChunks hRest ihRest =>
      generalize hInput : openString major :: content = input at hRead'
      cases hRead' with
      | nil =>
          subst hInput
          exact .zero_right (.string hMajor hChunks hRest)
      | definite hHead' =>
          rw [← hInput, readHead_indefinite (openString_info hMajor)] at hHead'
          cases hHead'
      | string hMajor' hChunks' hRest' =>
          obtain ⟨hByte, rfl⟩ := List.cons.inj hInput
          obtain rfl := openString_injective hMajor hMajor' hByte
          obtain rfl := hChunks.break_unique hChunks'
          exact (ihRest hRest').succ
      | array => exact absurd (List.cons.inj hInput).1 (openString_ne_openArray hMajor).1
      | map => exact absurd (List.cons.inj hInput).1 (openString_ne_openArray hMajor).2
  | @array count n content middle rest hItems hRest ihItems ihRest =>
      generalize hInput : openArray :: content = input at hRead'
      cases hRead' with
      | nil =>
          subst hInput
          exact .zero_right (.array hItems hRest)
      | definite hHead' =>
          rw [← hInput, readHead_indefinite (by decide)] at hHead'
          cases hHead'
      | string hMajor' =>
          exact absurd (List.cons.inj hInput).1.symm (openString_ne_openArray hMajor').1
      | array hItems' hRest' =>
          obtain ⟨-, rfl⟩ := List.cons.inj hInput
          obtain rfl := (ihItems hItems').break_unique
          exact (ihRest hRest').succ
      | map => exact absurd (List.cons.inj hInput).1 (by decide)
  | @map count n content middle rest hItems hRest ihItems ihRest =>
      generalize hInput : openMap :: content = input at hRead'
      cases hRead' with
      | nil =>
          subst hInput
          exact .zero_right (.map hItems hRest)
      | definite hHead' =>
          rw [← hInput, readHead_indefinite (by decide)] at hHead'
          cases hHead'
      | string hMajor' =>
          exact absurd (List.cons.inj hInput).1.symm (openString_ne_openArray hMajor').2
      | array => exact absurd (List.cons.inj hInput).1 (by decide)
      | map hItems' hRest' =>
          obtain ⟨-, rfl⟩ := List.cons.inj hInput
          obtain rfl := (ihItems hItems').break_unique
          exact (ihRest hRest').succ

/-- An input that is so many items is not another number of items. -/
theorem ReadsItems.count_unique {input : List UInt8} (hRead : ReadsItems count input [])
    (hRead' : ReadsItems count' input []) : count = count' := by
  have hOverlap := hRead.overlap hRead'
  rcases Nat.lt_trichotomy count count' with hLt | hSame | hGt
  · obtain ⟨more, hMore⟩ := Nat.exists_eq_add_of_lt hLt
    have hMoreItems := hOverlap.le hLt.le
    rw [hMore, Nat.add_assoc, Nat.add_sub_cancel_left] at hMoreItems
    exact absurd hMoreItems ReadsItems.not_nil
  · exact hSame
  · obtain ⟨more, hMore⟩ := Nat.exists_eq_add_of_lt hGt
    have hMoreItems := hOverlap.ge hGt.le
    rw [hMore, Nat.add_assoc, Nat.add_sub_cancel_left] at hMoreItems
    exact absurd hMoreItems ReadsItems.not_nil

end Overlap

/-! ## What is emitted -/

/-- The bytes are so many data items, whatever follows them. -/
def Items (count : Nat) (bytes : List UInt8) : Prop :=
  ∀ rest, ReadsItems count (bytes ++ rest) rest

section Items

variable {count count' : Nat} {front back : List UInt8}

theorem Items.nil : Items 0 [] := fun rest => .nil rest

theorem Items.append (hFront : Items count front) (hBack : Items count' back) :
    Items (count + count') (front ++ back) := by
  intro rest
  rw [List.append_assoc]
  exact (hFront (back ++ rest)).append (hBack rest)

theorem Items.flatMap {T : Type} {item : T → List UInt8} {number : T → Nat} {xs : List T}
    (hItem : ∀ x ∈ xs, Items (number x) (item x)) :
    Items (xs.map number).sum (xs.flatMap item) := by
  induction xs with
  | nil => exact Items.nil
  | cons x xs ih =>
      rw [List.map_cons, List.sum_cons, List.flatMap_cons]
      exact (hItem x List.mem_cons_self).append
        (ih fun y hy => hItem y (List.mem_cons_of_mem x hy))

/-- A head of a major type without items of its own, and its content. -/
theorem Items.of_readHead {major n : Nat} {head content : List UInt8}
    (hHead : ∀ rest, readHead (head ++ rest) = some (major, n, rest))
    (hContent : contentBytes major n = content.length) (hLeaf : contentItems major n = 0) :
    Items 1 (head ++ content) := by
  intro rest
  rw [List.append_assoc]
  have hNone : ReadsItems (contentItems major n)
      ((content ++ rest).drop (contentBytes major n)) rest := by
    rw [hLeaf, hContent, List.drop_left]
    exact .nil rest
  refine .definite (hHead _) ?_ hNone (.nil rest)
  rw [hContent, List.length_append]
  exact Nat.le_add_right _ _

theorem Items.head {major n : Nat} (hMajor : major < 8) (hArgument : n < 2 ^ 64)
    (hContent : contentBytes major n = 0) (hLeaf : contentItems major n = 0) :
    Items 1 (head major n) := by
  have hItem : Items 1 (Rfc7049.head major n ++ []) :=
    Items.of_readHead (readHead_head hMajor hArgument) hContent hLeaf
  rwa [List.append_nil] at hItem

theorem Items.uint {n : Nat} (hArgument : n < 2 ^ 64) : Items 1 (uint n) :=
  Items.head (by decide) hArgument rfl rfl

theorem Items.int {i : Int} (hLow : -2 ^ 63 ≤ i) (hHigh : i < 2 ^ 64) : Items 1 (int i) := by
  unfold Rfc7049.int
  split
  · exact Items.uint (by omega)
  · exact Items.head (by decide) (by omega) rfl rfl

theorem Items.bytes {content : List UInt8} (hLength : content.length < 2 ^ 64) :
    Items 1 (bytes content) :=
  Items.of_readHead (readHead_head (by decide) hLength) rfl rfl

theorem Items.text {content : List UInt8} (hLength : content.length < 2 ^ 64) :
    Items 1 (text content) :=
  Items.of_readHead (readHead_head (by decide) hLength) rfl rfl

theorem Items.bool (b : Bool) : Items 1 (bool b) := by
  have hHead : ∀ rest, readHead (Rfc7049.bool b ++ rest) =
      some (7, if b then 21 else 20, rest) := by
    intro rest
    cases b <;> rfl
  have hItem : Items 1 (Rfc7049.bool b ++ []) := Items.of_readHead hHead rfl rfl
  rwa [List.append_nil] at hItem

theorem Items.float32 (bits : UInt32) : Items 1 (float32 bits) := by
  have hHead : ∀ rest, readHead (Rfc7049.float32 bits ++ rest) = some (7, bits.toNat, rest) :=
    fun rest => readHead_wideHead (show 7 < 8 by decide) (show 2 < 4 by decide) bits.toNat_lt rest
  have hItem : Items 1 (Rfc7049.float32 bits ++ []) := Items.of_readHead hHead rfl rfl
  rwa [List.append_nil] at hItem

theorem Items.float64 (bits : UInt64) : Items 1 (float64 bits) := by
  have hHead : ∀ rest, readHead (Rfc7049.float64 bits ++ rest) = some (7, bits.toNat, rest) :=
    fun rest => readHead_wideHead (show 7 < 8 by decide) (show 3 < 4 by decide) bits.toNat_lt rest
  have hItem : Items 1 (Rfc7049.float64 bits ++ []) := Items.of_readHead hHead rfl rfl
  rwa [List.append_nil] at hItem

/-- The head of an array makes one item of the first items behind it. -/
theorem Items.array {n : Nat} {body : List UInt8} (hArgument : n < 2 ^ 64)
    (hBody : Items (n + count) body) : Items (count + 1) (array n ++ body) := by
  intro rest
  obtain ⟨middle, hElements, hRest⟩ := (hBody rest).split
  rw [List.append_assoc]
  exact .definite (readHead_head (by decide) hArgument (body ++ rest)) (Nat.zero_le _)
    hElements hRest

theorem Items.isItem {bytes : List UInt8} (hItems : Items 1 bytes) : IsItem bytes := by
  have hRead := hItems []
  rwa [List.append_nil] at hRead

/-- What is one item and so many items is so many for one. -/
theorem Items.count_of_isItem {bytes : List UInt8} (hItems : Items count bytes)
    (hItem : IsItem bytes) : count = 1 := by
  have hRead := hItems []
  rw [List.append_nil] at hRead
  exact hRead.count_unique hItem

theorem Items.isArray {n : Nat} {body : List UInt8} (hArgument : n < 2 ^ 64)
    (hBody : Items n body) : IsArray n (Rfc7049.array n ++ body) := by
  have hRead := hBody []
  rw [List.append_nil] at hRead
  exact ⟨body, readHead_head (by decide) hArgument body, hRead⟩

theorem IsArray.isItem {bytes : List UInt8} (hArray : IsArray count bytes) : IsItem bytes := by
  obtain ⟨content, hHead, hItems⟩ := hArray
  exact .definite hHead (Nat.zero_le _) hItems (.nil [])

end Items

end Rfc7049
