import Mathlib

/-!
# Searching in strings

`find`, `rfind` and `substr` of a C++ string, over any alphabet, the replacement
of every occurrence of a needle, and where a search for a keyword that ends in a
separator can succeed: only where the keyword's word is the end of the text in
front of a separator.  Splitting at a separator is `List.splitOn`.
-/

namespace ByteString

variable {α : Type} [DecidableEq α]

/-! ## The operations -/

/-- `s.find(needle)`: the first position at which `needle` occurs. -/
def find (needle : List α) : List α → Option Nat
  | [] => if needle = [] then some 0 else none
  | c :: s => if needle.isPrefixOf (c :: s) then some 0 else (find needle s).map (· + 1)

/-- `s.rfind(needle)`: the last position at which `needle` occurs. -/
def rfind (needle : List α) : List α → Option Nat
  | [] => if needle = [] then some 0 else none
  | c :: s =>
      match rfind needle s with
      | some pos => some (pos + 1)
      | none => if needle.isPrefixOf (c :: s) then some 0 else none

/-- The text with every occurrence of `needle` replaced, from left to right; of
the next `skip` characters, which belong to an occurrence, nothing is kept. -/
def replaceFrom (needle replacement : List α) : Nat → List α → List α
  | _, [] => []
  | skip + 1, _ :: s => replaceFrom needle replacement skip s
  | 0, c :: s =>
      if needle.isPrefixOf (c :: s) then
        replacement ++ replaceFrom needle replacement (needle.length - 1) s
      else c :: replaceFrom needle replacement 0 s

def replaceAll (needle replacement s : List α) : List α := replaceFrom needle replacement 0 s

/-- `s.substr(pos, count)` for a `pos` that is not past the end, where it would
throw. -/
def substr (s : List α) (pos count : Nat) : List α := (s.drop pos).take count

/-- `s.find(needle, from)`: the first position from `start` on at which `needle` occurs. -/
def findFrom (needle s : List α) (start : Nat) : Option Nat :=
  (find needle (s.drop start)).map (start + ·)

/-! ## What a search finds -/

theorem find_eq_zero_of_prefix {needle s : List α} (hPrefix : needle <+: s) :
    find needle s = some 0 := by
  cases s with
  | nil => simp [find, List.prefix_nil.mp hPrefix]
  | cons c s => simp [find, List.isPrefixOf_iff_prefix.mpr hPrefix]

theorem find_self_append (needle rest : List α) : find needle (needle ++ rest) = some 0 :=
  find_eq_zero_of_prefix (List.prefix_append needle rest)

theorem find_eq_none_of_not_infix {needle s : List α} (hInfix : ¬ needle <:+: s) :
    find needle s = none := by
  induction s with
  | nil =>
      have hNeedle : needle ≠ [] := fun h => hInfix (h ▸ List.nil_infix)
      simp [find, hNeedle]
  | cons c s ih =>
      have hPrefix : ¬ needle <+: c :: s := fun h => hInfix h.isInfix
      have hTail : ¬ needle <:+: s := fun h => hInfix (h.trans (List.suffix_cons c s).isInfix)
      simp [find, List.isPrefixOf_iff_prefix, hPrefix, ih hTail]

/-- A search succeeds at the first position at which the needle stands. -/
theorem find_eq_some_iff {needle s : List α} {pos : Nat} :
    find needle s = some pos ↔
      pos ≤ s.length ∧ needle <+: s.drop pos ∧ ∀ earlier < pos, ¬ needle <+: s.drop earlier := by
  induction s generalizing pos with
  | nil =>
      by_cases hNeedle : needle = []
      · subst hNeedle
        constructor
        · intro hFind
          obtain rfl : 0 = pos := by simpa [find] using hFind
          exact ⟨le_rfl, List.prefix_rfl, fun earlier h => absurd h earlier.not_lt_zero⟩
        · rintro ⟨hPos, -, -⟩
          obtain rfl : pos = 0 := by simpa using hPos
          rfl
      · simp [find, hNeedle]
  | cons c s ih =>
      by_cases hPrefix : needle <+: c :: s
      · rw [find, if_pos (List.isPrefixOf_iff_prefix.mpr hPrefix), Option.some_inj]
        constructor
        · rintro rfl
          exact ⟨Nat.zero_le _, hPrefix, fun earlier h => absurd h earlier.not_lt_zero⟩
        · rintro ⟨-, -, hFirst⟩
          by_contra hPos
          exact hFirst 0 (by omega) hPrefix
      · rw [find, if_neg (by rwa [List.isPrefixOf_iff_prefix])]
        cases pos with
        | zero =>
            constructor
            · intro hFind
              simp at hFind
            · rintro ⟨-, hHere, -⟩
              exact absurd hHere hPrefix
        | succ pos =>
            have hShift : (find needle s).map (· + 1) = some (pos + 1) ↔
                find needle s = some pos := by simp
            rw [hShift, ih]
            constructor
            · rintro ⟨hPos, hHere, hFirst⟩
              refine ⟨Nat.succ_le_succ hPos, hHere, fun earlier hEarlier => ?_⟩
              cases earlier with
              | zero => exact hPrefix
              | succ earlier => exact hFirst earlier (by omega)
            · rintro ⟨hPos, hHere, hFirst⟩
              exact ⟨Nat.le_of_succ_le_succ hPos, hHere,
                fun earlier hEarlier => hFirst (earlier + 1) (by omega)⟩

theorem find_eq_none_iff {needle s : List α} : find needle s = none ↔ ¬ needle <:+: s := by
  constructor
  · intro hFind
    induction s with
    | nil =>
        intro hInfix
        simp [find, List.infix_nil.mp hInfix] at hFind
    | cons c s ih =>
        rw [find] at hFind
        split at hFind
        · exact nomatch hFind
        · rename_i hPrefix
          rw [List.isPrefixOf_iff_prefix] at hPrefix
          rw [List.infix_cons_iff, not_or]
          exact ⟨hPrefix, ih (Option.map_eq_none_iff.mp hFind)⟩
  · exact find_eq_none_of_not_infix

/-- A search that succeeds splits the text. -/
theorem find_eq_some_append {needle s : List α} {pos : Nat} (hFind : find needle s = some pos) :
    ∃ front back, s = front ++ (needle ++ back) ∧ front.length = pos := by
  obtain ⟨hPos, ⟨back, hBack⟩, -⟩ := find_eq_some_iff.mp hFind
  refine ⟨s.take pos, back, ?_, List.length_take_of_le hPos⟩
  rw [hBack, List.take_append_drop]

/-- A search for one character splits the text at its first occurrence. -/
theorem find_singleton_eq_some {c : α} {s : List α} {pos : Nat}
    (hFind : find [c] s = some pos) :
    ∃ front back, s = front ++ c :: back ∧ front.length = pos ∧ c ∉ front := by
  obtain ⟨front, back, rfl, rfl⟩ := find_eq_some_append hFind
  refine ⟨front, back, rfl, rfl, fun hMem => ?_⟩
  obtain ⟨start, rest, rfl⟩ := List.append_of_mem hMem
  obtain ⟨-, -, hFirst⟩ := find_eq_some_iff.mp hFind
  refine hFirst start.length (by simp) ?_
  rw [List.append_assoc, List.drop_left]
  exact ⟨rest ++ ([c] ++ back), rfl⟩

theorem find_singleton_eq_none {c : α} {s : List α} : find [c] s = none ↔ c ∉ s := by
  rw [find_eq_none_iff, List.singleton_infix_iff]

theorem rfind_eq_none_iff {needle s : List α} : rfind needle s = none ↔ ¬ needle <:+: s := by
  induction s with
  | nil => by_cases hNeedle : needle = [] <;> simp [rfind, hNeedle]
  | cons c s ih =>
      rw [List.infix_cons_iff, not_or, rfind]
      cases hTail : rfind needle s with
      | some found =>
          have hInfix : needle <:+: s := by
            by_contra hNot
            rw [ih.mpr hNot] at hTail
            exact nomatch hTail
          simp [hInfix]
      | none => simp [List.isPrefixOf_iff_prefix, ih.mp hTail]

/-- A search from the end succeeds where the needle stands and does not occur
behind. -/
theorem rfind_eq_some_iff {needle : List α} (hNeedle : needle ≠ []) {s : List α} {pos : Nat} :
    rfind needle s = some pos ↔ needle <+: s.drop pos ∧ ¬ needle <:+: s.drop (pos + 1) := by
  induction s generalizing pos with
  | nil => simp [rfind, hNeedle]
  | cons c s ih =>
      rw [rfind]
      cases hTail : rfind needle s with
      | some found =>
          have hInfix : needle <:+: s := by
            by_contra hNot
            rw [rfind_eq_none_iff.mpr hNot] at hTail
            exact nomatch hTail
          cases pos with
          | zero => simp [hInfix]
          | succ pos =>
              have hPos : some (found + 1) = some (pos + 1) ↔ rfind needle s = some pos := by
                simp [hTail]
              rw [hPos, ih]
              rfl
      | none =>
          have hNowhere : ¬ needle <:+: s := rfind_eq_none_iff.mp hTail
          cases pos with
          | zero => simp [List.isPrefixOf_iff_prefix, hNowhere]
          | succ pos =>
              have hBehind : ¬ needle <+: s.drop pos := fun hPrefix =>
                hNowhere (hPrefix.isInfix.trans (List.drop_suffix pos s).isInfix)
              simp [hBehind]

theorem rfind_add_length_le {needle : List α} (hNeedle : needle ≠ []) {s : List α} {pos : Nat}
    (hFind : rfind needle s = some pos) : pos + needle.length ≤ s.length := by
  have hLength := ((rfind_eq_some_iff hNeedle).mp hFind).1.length_le
  have hPositive := List.length_pos_iff.mpr hNeedle
  rw [List.length_drop] at hLength
  omega

/-- A needle at the end is what a search from the end finds. -/
theorem rfind_append {needle : List α} (hNeedle : needle ≠ []) (front : List α) :
    rfind needle (front ++ needle) = some front.length := by
  rw [rfind_eq_some_iff hNeedle, List.drop_left]
  refine ⟨List.prefix_rfl, fun hInfix => ?_⟩
  have hLength := hInfix.length_le
  have hPositive := List.length_pos_iff.mpr hNeedle
  rw [List.length_drop, List.length_append] at hLength
  omega

/-- Whether a needle is at the end is seen from where a search from the end
succeeds. -/
theorem suffix_iff_of_rfind {needle : List α} (hNeedle : needle ≠ []) {s : List α} {pos : Nat}
    (hFind : rfind needle s = some pos) : needle <:+ s ↔ s.length - pos - needle.length = 0 := by
  constructor
  · rintro ⟨front, rfl⟩
    rw [rfind_append hNeedle, Option.some_inj] at hFind
    rw [List.length_append]
    omega
  · intro hEnd
    obtain ⟨back, hBack⟩ := ((rfind_eq_some_iff hNeedle).mp hFind).1
    have hLength := congrArg List.length hBack
    rw [List.length_append, List.length_drop] at hLength
    obtain rfl : back = [] := List.length_eq_zero_iff.mp (by omega)
    rw [List.append_nil] at hBack
    exact hBack ▸ List.drop_suffix pos s

/-- From a position on, the text up to the next character and the text behind it. -/
theorem findFrom_singleton_eq_some {c : α} {s : List α} {start pos : Nat}
    (hFind : findFrom [c] s start = some pos) :
    start ≤ pos ∧ pos < s.length ∧ c ∉ substr s start (pos - start) ∧
      s.drop start = substr s start (pos - start) ++ c :: s.drop (pos + 1) := by
  obtain ⟨found, hFound, rfl⟩ := Option.map_eq_some_iff.mp hFind
  obtain ⟨front, back, hSplit, rfl, hFront⟩ := find_singleton_eq_some hFound
  have hLength := congrArg List.length hSplit
  rw [List.length_drop, List.length_append, List.length_cons] at hLength
  have hTake : substr s start (start + front.length - start) = front := by
    rw [substr, hSplit, Nat.add_sub_cancel_left, List.take_left]
  have hDrop : s.drop (start + front.length + 1) = back := by
    rw [Nat.add_assoc, ← List.drop_drop, hSplit, List.append_cons]
    exact List.drop_left' (by simp)
  rw [hTake, hDrop]
  exact ⟨by omega, by omega, hFront, hSplit⟩

/-! ## Replacing a needle -/

theorem replaceFrom_eq_drop (needle replacement : List α) (skip : Nat) (s : List α) :
    replaceFrom needle replacement skip s = replaceAll needle replacement (s.drop skip) := by
  induction s generalizing skip with
  | nil => simp [replaceAll, replaceFrom]
  | cons c s ih =>
      cases skip with
      | zero => rfl
      | succ skip => exact ih skip

theorem replaceAll_append_needle {c : α} {word : List α} (replacement rest : List α) :
    replaceAll (c :: word) replacement ((c :: word) ++ rest) =
      replacement ++ replaceAll (c :: word) replacement rest := by
  have hPrefix : (c :: word).isPrefixOf (c :: (word ++ rest)) = true :=
    List.isPrefixOf_iff_prefix.mpr (List.prefix_append _ rest)
  rw [List.cons_append, replaceAll, replaceFrom, if_pos hPrefix, replaceFrom_eq_drop,
    List.length_cons, Nat.add_sub_cancel, List.drop_left]

/-- What comes in front of the first letter of the needle stays. -/
theorem replaceAll_append_of_notMem {c : α} {word front : List α} (hFront : c ∉ front)
    (replacement rest : List α) :
    replaceAll (c :: word) replacement (front ++ rest) =
      front ++ replaceAll (c :: word) replacement rest := by
  induction front with
  | nil => rfl
  | cons d front ih =>
      have hHead : c ≠ d := fun h => hFront (h ▸ List.mem_cons_self)
      have hPrefix : ¬ (c :: word).isPrefixOf (d :: (front ++ rest)) = true := by
        simp [hHead]
      rw [List.cons_append, replaceAll, replaceFrom, if_neg hPrefix, List.cons_append]
      exact congrArg (d :: ·) (ih fun h => hFront (List.mem_cons_of_mem d h))

/-- Behind words without its first letter every needle is replaced. -/
theorem replaceAll_flatMap {c : α} {word : List α} (replacement : List α)
    {words : List (List α)} (hWords : ∀ front ∈ words, c ∉ front) (rest : List α) :
    replaceAll (c :: word) replacement (words.flatMap (· ++ (c :: word)) ++ rest) =
      words.flatMap (· ++ replacement) ++ replaceAll (c :: word) replacement rest := by
  induction words with
  | nil => rfl
  | cons front words ih =>
      obtain ⟨hFront, hRest⟩ := List.forall_mem_cons.mp hWords
      rw [List.flatMap_cons, List.flatMap_cons, List.append_assoc, List.append_assoc,
        replaceAll_append_of_notMem hFront, replaceAll_append_needle, ih hRest, List.append_assoc,
        List.append_assoc]

/-! ## Words and separators -/

omit [DecidableEq α] in
theorem intercalate_concat (sep : List α) (words : List (List α)) (last : List α) :
    sep.intercalate (words ++ [last]) = words.flatMap (· ++ sep) ++ last := by
  induction words with
  | nil => exact List.intercalate_singleton
  | cons front words ih =>
      rw [List.cons_append, List.intercalate_cons_of_ne_nil (by simp), ih, List.flatMap_cons,
        List.append_assoc, List.append_assoc, List.append_assoc]

omit [DecidableEq α] in
theorem intercalate_append_sep (sep : List α) {words : List (List α)} (hWords : words ≠ []) :
    sep.intercalate words ++ sep = words.flatMap (· ++ sep) := by
  obtain ⟨front, last, rfl⟩ := (List.eq_nil_or_concat' words).resolve_left hWords
  rw [intercalate_concat, List.flatMap_append, List.append_assoc, List.flatMap_singleton]

/-- A separator between words without its first letter is replaced by another one. -/
theorem replaceAll_intercalate {c : α} {word : List α} (replacement : List α)
    {words : List (List α)} (hWords : ∀ front ∈ words, c ∉ front) :
    replaceAll (c :: word) replacement ((c :: word).intercalate words) =
      replacement.intercalate words := by
  obtain rfl | ⟨front, last, rfl⟩ := List.eq_nil_or_concat' words
  · rfl
  · have hFront : ∀ front' ∈ front, c ∉ front' := fun front' h => hWords front' (by simp [h])
    have hLast : replaceAll (c :: word) replacement (last ++ []) =
        last ++ replaceAll (c :: word) replacement [] :=
      replaceAll_append_of_notMem (hWords last (by simp)) replacement []
    rw [intercalate_concat, intercalate_concat, replaceAll_flatMap replacement hFront]
    simpa [replaceAll, replaceFrom] using hLast

/-! ## Keywords that end in a separator -/

section Separator

variable {sep : α} {word : List α}

omit [DecidableEq α] in
theorem prefix_sep_iff (hWord : sep ∉ word) {front back : List α} (hFront : sep ∉ front) :
    word ++ [sep] <+: front ++ sep :: back ↔ word = front := by
  induction word generalizing front with
  | nil =>
      cases front with
      | nil => simp
      | cons c front =>
          have hHead : sep ≠ c := fun h => hFront (h ▸ List.mem_cons_self)
          simp [hHead]
  | cons d word ih =>
      have hHeadWord : d ≠ sep := fun h => hWord (h ▸ List.mem_cons_self)
      cases front with
      | nil => simp [hHeadWord]
      | cons c front =>
          have hTail : word ++ [sep] <+: front ++ sep :: back ↔ word = front :=
            ih (fun h => hWord (List.mem_cons_of_mem d h))
              fun h => hFront (List.mem_cons_of_mem c h)
          simp [hTail]

omit [DecidableEq α] in
/-- A keyword that ends in a separator occurs at the first separator, or after
it. -/
theorem infix_cons_sep_iff (hWord : sep ∉ word) {front back : List α} (hFront : sep ∉ front) :
    word ++ [sep] <:+: front ++ sep :: back ↔ word <:+ front ∨ word ++ [sep] <:+: back := by
  induction front with
  | nil =>
      have hPrefix : word ++ [sep] <+: [] ++ sep :: back ↔ word = [] :=
        prefix_sep_iff hWord List.not_mem_nil
      rw [List.nil_append] at hPrefix ⊢
      rw [List.infix_cons_iff, hPrefix, List.suffix_nil]
  | cons c front ih =>
      have hTail : sep ∉ front := fun h => hFront (List.mem_cons_of_mem c h)
      have hPrefix : word ++ [sep] <+: c :: front ++ sep :: back ↔ word = c :: front :=
        prefix_sep_iff hWord hFront
      rw [List.cons_append] at hPrefix ⊢
      rw [List.infix_cons_iff, hPrefix, ih hTail, List.suffix_cons_iff, or_assoc]

omit [DecidableEq α] in
theorem not_infix_of_notMem {text : List α} (hText : sep ∉ text) :
    ¬ word ++ [sep] <:+: text := by
  intro hInfix
  exact hText (hInfix.subset (by simp))

/-- The first occurrence of a keyword is the displayed one when the text up to
its separator holds no other. -/
theorem find_append {front : List α} (hFirst : ¬ word ++ [sep] <:+: front ++ word)
    (back : List α) :
    find (word ++ [sep]) (front ++ (word ++ [sep]) ++ back) = some front.length := by
  induction front with
  | nil => exact find_self_append _ _
  | cons c front ih =>
      have hTail : ¬ word ++ [sep] <:+: front ++ word := by
        intro h
        exact hFirst (h.trans (List.suffix_cons c (front ++ word)).isInfix)
      have hHead : ¬ word ++ [sep] <+: c :: (front ++ (word ++ [sep]) ++ back) := by
        intro h
        have hShort : c :: (front ++ word) <+: c :: (front ++ (word ++ [sep]) ++ back) :=
          ⟨sep :: back, by simp⟩
        have hInside := List.prefix_of_prefix_length_le h hShort (by simp)
        exact hFirst hInside.isInfix
      rw [List.cons_append, List.cons_append, find,
        if_neg (by rwa [List.isPrefixOf_iff_prefix]), ih hTail]
      rfl

/-- A keyword whose word does not end the text in front of the first separator
is found behind it. -/
theorem find_cons_sep (hWord : sep ∉ word) {front : List α} (hFront : sep ∉ front)
    (hEnd : ¬ word <:+ front) (back : List α) :
    find (word ++ [sep]) (front ++ sep :: back) =
      (find (word ++ [sep]) back).map (· + (front.length + 1)) := by
  induction front with
  | nil =>
      have hPrefix : ¬ word ++ [sep] <+: [] ++ sep :: back := by
        rw [prefix_sep_iff hWord List.not_mem_nil]
        rintro rfl
        exact hEnd List.suffix_rfl
      rw [List.nil_append] at hPrefix ⊢
      rw [find, if_neg (by rwa [List.isPrefixOf_iff_prefix])]
      rfl
  | cons c front ih =>
      have hPrefix : ¬ word ++ [sep] <+: c :: front ++ sep :: back := by
        rw [prefix_sep_iff hWord hFront]
        rintro rfl
        exact hEnd List.suffix_rfl
      have hTail : sep ∉ front := fun h => hFront (List.mem_cons_of_mem c h)
      have hRest := ih hTail fun h => hEnd (h.trans (List.suffix_cons c front))
      rw [List.cons_append] at hPrefix ⊢
      rw [find, if_neg (by rwa [List.isPrefixOf_iff_prefix]), hRest, Option.map_map]
      rfl

end Separator

end ByteString
