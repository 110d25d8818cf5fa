import RmwDps.Discovery.NodeListener

/-!
# Type names

The names under which message types are advertised, and the two functions that
turn them back into names of ROS types.  Both look for the first `dps_::`; the one
for services looks for one of two suffixes besides.
-/

namespace RmwDps
namespace Discovery

open Serialization

/-! ## Mangling -/

/-- The members of a message description that name its type: `message_namespace_`
and `message_name_`. -/
structure MembersName where
  messageNamespace : StdString
  messageName : StdString
  deriving DecidableEq, Repr

/-- `"::"`, between the parts of a namespace. -/
def scopeSeparator : StdString := bytesOf "::"

/-- `"/"`, between the parts of a ROS type. -/
def typeSeparator : StdString := bytesOf "/"

/-- `"dps_::"`, in front of the name of a type. -/
def dpsSubstring : StdString := bytesOf "dps_::"

/-- `_create_type_name`, which has the same text for both packages. -/
def createTypeName (members : MembersName) : StdString :=
  (if members.messageNamespace ≠ [] then members.messageNamespace ++ scopeSeparator else []) ++
    (dpsSubstring ++ members.messageName ++ bytesOf "_")

/-! ## Demangling -/

/-- `rcpputils`, as far as it is used. -/
class Rcpputils where
  /-- `find_and_replace(input, find, replace)`. -/
  findAndReplace : StdString → StdString → StdString → StdString

/-- "Find and replace all instances of a string with another string." -/
class Rcpputils.Lawful [Rcpputils] : Prop where
  findAndReplace (input find replace : StdString) (hFind : find ≠ []) :
    Rcpputils.findAndReplace input find replace = ByteString.replaceAll find replace input

section Demangle

variable [Rcpputils]

/-- The namespace in front of `dps_::` as the front of a ROS type. -/
def demangleNamespace (typeNamespace : StdString) : StdString :=
  Rcpputils.findAndReplace typeNamespace scopeSeparator typeSeparator

/-- `_demangle_if_ros_type`.  In the empty string the index of the last character
is the largest `size_t`, outside; whatever is read there, the string itself is
returned, since it does not contain `dps_::`. -/
def demangleIfRosType (dpsTypeString : StdString) : StdString :=
  if dpsTypeString[sizeDifference dpsTypeString.length 1]? ≠ some 0x5F then dpsTypeString
  else
    match ByteString.find dpsSubstring dpsTypeString with
    | none => dpsTypeString
    | some substringPosition =>
        let typeNamespace := demangleNamespace (ByteString.substr dpsTypeString 0 substringPosition)
        let start := substringPosition + dpsSubstring.length
        let typeName := ByteString.substr dpsTypeString start
          (sizeDifference (sizeDifference dpsTypeString.length 1) start)
        typeNamespace ++ typeName

def responseSuffix : StdString := bytesOf "_Response_"
def requestSuffix : StdString := bytesOf "_Request_"

/-- The loop over the suffixes: the value of `suffix_position` behind it.  A suffix
that is found elsewhere than at the end leaves its position there. -/
def findSuffix (dpsTypeName : StdString) : List StdString → Option Nat → Option Nat
  | [], suffixPosition => suffixPosition
  | suffix :: suffixes, _ =>
      match ByteString.rfind suffix dpsTypeName with
      | some suffixPosition =>
          if dpsTypeName.length - suffixPosition - suffix.length ≠ 0 then
            findSuffix dpsTypeName suffixes (some suffixPosition)
          else some suffixPosition
      | none => findSuffix dpsTypeName suffixes none

/-- `suffix_position` where it is compared with `npos`. -/
def suffixPosition (dpsTypeName : StdString) : Option Nat :=
  findSuffix dpsTypeName [responseSuffix, requestSuffix] (some 0)

/-- `_demangle_service_type_only`. -/
def demangleServiceTypeOnly (dpsTypeName : StdString) : StdString :=
  match ByteString.find dpsSubstring dpsTypeName with
  | none => []
  | some nsSubstringPosition =>
      match suffixPosition dpsTypeName with
      | none => []
      | some suffixPosition =>
          let typeNamespace :=
            demangleNamespace (ByteString.substr dpsTypeName 0 nsSubstringPosition)
          let start := nsSubstringPosition + dpsSubstring.length
          let typeName := ByteString.substr dpsTypeName start (sizeDifference suffixPosition start)
          typeNamespace ++ typeName

/-! ## Where the suffix is found -/

omit [Rcpputils] in
theorem findSuffix_cons {s suffix : StdString} (hSuffix : suffix ≠ []) (suffixes : List StdString)
    (pos : Option Nat) :
    findSuffix s (suffix :: suffixes) pos =
      if suffix <:+ s then some (s.length - suffix.length)
      else findSuffix s suffixes (ByteString.rfind suffix s) := by
  rw [findSuffix]
  cases hFind : ByteString.rfind suffix s with
  | none =>
      have hNot : ¬ suffix <:+ s := fun h => ByteString.rfind_eq_none_iff.mp hFind h.isInfix
      rw [if_neg hNot]
  | some found =>
      have hEnd := ByteString.suffix_iff_of_rfind hSuffix hFind
      have hLength := ByteString.rfind_add_length_le hSuffix hFind
      by_cases hSuffixed : suffix <:+ s
      · have hZero := hEnd.mp hSuffixed
        have hFound : found = s.length - suffix.length := by omega
        rw [if_pos hSuffixed]
        show (if s.length - found - suffix.length ≠ 0 then _ else some found) = _
        rw [if_neg (not_not.mpr hZero), hFound]
      · rw [if_neg hSuffixed]
        simp only [ne_eq, ← hEnd, hSuffixed, not_false_eq_true, if_true]

omit [Rcpputils] in
/-- The position behind the loop: that of a suffix at the end, and otherwise of the
last `_Request_`, wherever it is. -/
theorem suffixPosition_eq (s : StdString) :
    suffixPosition s =
      if responseSuffix <:+ s then some (s.length - responseSuffix.length)
      else if requestSuffix <:+ s then some (s.length - requestSuffix.length)
      else ByteString.rfind requestSuffix s := by
  have hResponse : responseSuffix ≠ [] := by decide
  have hRequest : requestSuffix ≠ [] := by decide
  rw [suffixPosition, findSuffix_cons hResponse, findSuffix_cons hRequest, findSuffix]

omit [Rcpputils] in
theorem suffixPosition_append {suffix : StdString}
    (hSuffix : suffix = responseSuffix ∨ suffix = requestSuffix) (front : StdString) :
    suffixPosition (front ++ suffix) = some front.length := by
  have hLength : (front ++ suffix).length - suffix.length = front.length := by simp
  rw [suffixPosition_eq]
  obtain rfl | rfl := hSuffix
  · rw [if_pos (List.suffix_append _ _), hLength]
  · have hOther : ¬ responseSuffix <:+ front ++ requestSuffix := by
      intro h
      have hInside := List.suffix_of_suffix_length_le (List.suffix_append front requestSuffix) h
        (by decide)
      exact absurd hInside (by decide)
    rw [if_neg hOther, if_pos (List.suffix_append _ _), hLength]

/-! ## What is cut out -/

omit [Rcpputils] in
theorem sizeDifference_eq {endPos pos : Nat} (hLe : pos ≤ endPos) (hSized : endPos < 2 ^ 64) :
    sizeDifference endPos pos = endPos - pos := by
  unfold sizeDifference
  omega

/-- A type name comes apart at its first `dps_::` and its last underscore. -/
theorem demangleIfRosType_append {front name : StdString}
    (hFirst : ByteString.find dpsSubstring (front ++ (dpsSubstring ++ name ++ bytesOf "_")) =
      some front.length)
    (hSized : (front ++ (dpsSubstring ++ name ++ bytesOf "_")).length < 2 ^ 64) :
    demangleIfRosType (front ++ (dpsSubstring ++ name ++ bytesOf "_")) =
      demangleNamespace front ++ name := by
  have hLength : (front ++ (dpsSubstring ++ name ++ bytesOf "_")).length =
      front.length + dpsSubstring.length + name.length + 1 := by
    simp only [List.length_append, bytesOf, List.length_map]
    have hOne : "_".toList.length = 1 := rfl
    omega
  rw [hLength] at hSized
  have hIndex : sizeDifference (front ++ (dpsSubstring ++ name ++ bytesOf "_")).length 1 =
      front.length + dpsSubstring.length + name.length := by
    rw [hLength, sizeDifference_eq (by omega) hSized, Nat.add_sub_cancel]
  have hLast : (front ++ (dpsSubstring ++ name ++ bytesOf "_"))[front.length + dpsSubstring.length +
      name.length]? = some 0x5F := by
    have hFront : front ++ (dpsSubstring ++ name ++ bytesOf "_") =
        (front ++ dpsSubstring ++ name) ++ bytesOf "_" := by simp only [List.append_assoc]
    have hFrontLength : (front ++ dpsSubstring ++ name).length =
        front.length + dpsSubstring.length + name.length := by
      simp only [List.length_append]
    rw [hFront, ← hFrontLength, List.getElem?_append_right le_rfl, Nat.sub_self]
    rfl
  have hCount : sizeDifference (front.length + dpsSubstring.length + name.length)
      (front.length + dpsSubstring.length) = name.length := by
    rw [sizeDifference_eq (by omega) (by omega), Nat.add_sub_cancel_left]
  have hNamespace : ByteString.substr (front ++ (dpsSubstring ++ name ++ bytesOf "_")) 0
      front.length = front := by
    rw [ByteString.substr, List.drop_zero, List.take_left]
  have hName : ByteString.substr (front ++ (dpsSubstring ++ name ++ bytesOf "_"))
      (front.length + dpsSubstring.length) name.length = name := by
    rw [ByteString.substr, ← List.drop_drop, List.drop_left, List.append_assoc, List.drop_left,
      List.take_left]
  unfold demangleIfRosType
  rw [hIndex, hLast, hFirst]
  simp only [ne_eq, not_true_eq_false, if_false, hCount, hNamespace, hName]

/-- A service type name comes apart at its first `dps_::` and its suffix. -/
theorem demangleServiceTypeOnly_append {front name suffix : StdString}
    (hSuffix : suffix = responseSuffix ∨ suffix = requestSuffix)
    (hFirst : ByteString.find dpsSubstring (front ++ (dpsSubstring ++ name ++ suffix)) =
      some front.length)
    (hSized : (front ++ (dpsSubstring ++ name ++ suffix)).length < 2 ^ 64) :
    demangleServiceTypeOnly (front ++ (dpsSubstring ++ name ++ suffix)) =
      demangleNamespace front ++ name := by
  have hFront : front ++ (dpsSubstring ++ name ++ suffix) =
      (front ++ dpsSubstring ++ name) ++ suffix := by simp only [List.append_assoc]
  have hPosition : suffixPosition (front ++ (dpsSubstring ++ name ++ suffix)) =
      some (front.length + dpsSubstring.length + name.length) := by
    rw [hFront, suffixPosition_append hSuffix]
    simp only [List.length_append]
  have hCount : sizeDifference (front.length + dpsSubstring.length + name.length)
      (front.length + dpsSubstring.length) = name.length := by
    simp only [List.length_append] at hSized
    rw [sizeDifference_eq (by omega) (by omega), Nat.add_sub_cancel_left]
  have hNamespace : ByteString.substr (front ++ (dpsSubstring ++ name ++ suffix)) 0
      front.length = front := by
    rw [ByteString.substr, List.drop_zero, List.take_left]
  have hName : ByteString.substr (front ++ (dpsSubstring ++ name ++ suffix))
      (front.length + dpsSubstring.length) name.length = name := by
    rw [ByteString.substr, ← List.drop_drop, List.drop_left, List.append_assoc, List.drop_left,
      List.take_left]
  unfold demangleServiceTypeOnly
  rw [hFirst, hPosition]
  simp only [hCount, hNamespace, hName]

/-! ## Service types -/

omit [Rcpputils] in
/-- A suffix at the end of a string does not overlap a `dps_::`, which ends in a
colon. -/
theorem exists_append_of_suffix {front back suffix : StdString}
    (hSuffix : suffix = responseSuffix ∨ suffix = requestSuffix)
    (hEnd : suffix <:+ front ++ (dpsSubstring ++ back)) : ∃ name, back = name ++ suffix := by
  obtain ⟨start, hStart⟩ := hEnd
  rw [← List.append_assoc] at hStart
  obtain ⟨overlap, hFront, hOverlap⟩ | ⟨name, -, hBack⟩ := List.append_eq_append_iff.mp hStart
  · cases overlap using List.reverseRecOn with
    | nil => exact ⟨[], by simpa using hOverlap.symm⟩
    | append_singleton overlap c =>
        -- The last character in front of `back` is the second colon.
        have hColon : c = 0x3A := by
          have hLast := congrArg List.getLast? hFront
          rw [List.getLast?_append_of_ne_nil _ (by decide), ← List.append_assoc,
            List.getLast?_concat] at hLast
          have hDps : dpsSubstring.getLast? = some 0x3A := by decide
          rw [hDps, Option.some_inj] at hLast
          exact hLast.symm
        have hMem : (0x3A : UInt8) ∈ suffix := by
          rw [hOverlap, ← hColon]
          simp
        obtain rfl | rfl := hSuffix
        · exact absurd hMem (by decide)
        · exact absurd hMem (by decide)
  · exact ⟨name, hBack⟩

/-- A string that contains `dps_::` and ends in one of the suffixes. -/
def IsServiceType (s : StdString) : Prop :=
  dpsSubstring <:+: s ∧ (responseSuffix <:+ s ∨ requestSuffix <:+ s)

/-- A service type is recognised only if it is one, and then it comes apart at its
first `dps_::` and its suffix, between positions that are inside. -/
structure RecognizesServiceType (s : StdString) : Prop where
  rejects : ¬ IsServiceType s → demangleServiceTypeOnly s = []
  accepts : IsServiceType s → ∃ front name suffix,
    (suffix = responseSuffix ∨ suffix = requestSuffix) ∧
    s = front ++ (dpsSubstring ++ name ++ suffix) ∧
    ByteString.find dpsSubstring s = some front.length ∧
    demangleServiceTypeOnly s =
      ByteString.replaceAll scopeSeparator typeSeparator front ++ name
  inRange : IsServiceType s → ∃ nsPosition position,
    ByteString.find dpsSubstring s = some nsPosition ∧ suffixPosition s = some position ∧
    nsPosition + dpsSubstring.length ≤ position ∧ position ≤ s.length

/-- The strings that are recognised only if they should be: no `_Request_` is found
elsewhere than at the end, unless nothing is cut out in front of it. -/
def NoInnerRequest (s : StdString) : Prop :=
  IsServiceType s ∨ ¬ dpsSubstring <:+: s ∨ ¬ requestSuffix <:+: s ∨
    (dpsSubstring ++ requestSuffix <+: s ∧
      ByteString.rfind requestSuffix s = some dpsSubstring.length)

section Lawful

variable [Rcpputils.Lawful]

theorem demangleNamespace_eq (typeNamespace : StdString) :
    demangleNamespace typeNamespace =
      ByteString.replaceAll scopeSeparator typeSeparator typeNamespace :=
  Rcpputils.Lawful.findAndReplace _ _ _ (by decide)

theorem demangleNamespace_eq_nil_iff (typeNamespace : StdString) :
    demangleNamespace typeNamespace = [] ↔ typeNamespace = [] := by
  rw [demangleNamespace_eq]
  cases typeNamespace with
  | nil => simp [ByteString.replaceAll, ByteString.replaceFrom]
  | cons c rest =>
      rw [ByteString.replaceAll, ByteString.replaceFrom]
      split
      · simp [typeSeparator, bytesOf]
      · simp

theorem recognizes_of_isServiceType {s : StdString} (hSized : s.length < 2 ^ 64)
    (hService : IsServiceType s) : ∃ front name suffix,
      (suffix = responseSuffix ∨ suffix = requestSuffix) ∧
      s = front ++ (dpsSubstring ++ name ++ suffix) ∧
      ByteString.find dpsSubstring s = some front.length ∧
      demangleServiceTypeOnly s =
        ByteString.replaceAll scopeSeparator typeSeparator front ++ name := by
  obtain ⟨hDps, hSuffixes⟩ := hService
  obtain ⟨suffix, hSuffix, hEnd⟩ : ∃ suffix,
      (suffix = responseSuffix ∨ suffix = requestSuffix) ∧ suffix <:+ s := by
    obtain hResponse | hRequest := hSuffixes
    · exact ⟨_, .inl rfl, hResponse⟩
    · exact ⟨_, .inr rfl, hRequest⟩
  cases hFind : ByteString.find dpsSubstring s with
  | none => exact absurd hDps (ByteString.find_eq_none_iff.mp hFind)
  | some nsPosition =>
      obtain ⟨front, back, rfl, rfl⟩ := ByteString.find_eq_some_append hFind
      obtain ⟨name, rfl⟩ := exists_append_of_suffix hSuffix hEnd
      rw [← List.append_assoc dpsSubstring] at hFind hSized ⊢
      refine ⟨front, name, suffix, hSuffix, rfl, rfl, ?_⟩
      rw [demangleServiceTypeOnly_append hSuffix hFind hSized, demangleNamespace_eq]

omit [Rcpputils] [Rcpputils.Lawful] in
/-- A `_Request_` in a string that starts with `dps_::` is behind it. -/
theorem length_le_of_rfind_request {back : StdString} {pos : Nat}
    (hFind : ByteString.rfind requestSuffix (dpsSubstring ++ back) = some pos) :
    dpsSubstring.length ≤ pos := by
  have hHere := ((ByteString.rfind_eq_some_iff (by decide)).mp hFind).1
  by_contra hInside
  have hPos : pos < 6 := by
    have hLength : dpsSubstring.length = 6 := by decide
    omega
  have hRequest : requestSuffix = 0x5F :: 0x52 :: bytesOf "equest_" := by decide
  have hDps : dpsSubstring = [0x64, 0x70, 0x73, 0x5F, 0x3A, 0x3A] := by decide
  rw [hRequest, hDps] at hHere
  interval_cases pos <;> simp at hHere

/-- Where a `_Request_` that is not at the end is taken for the suffix, nothing is
returned only if nothing is cut out. -/
theorem demangleServiceTypeOnly_inner {s : StdString} {nsPosition position : Nat}
    (hSized : s.length < 2 ^ 64) (hFirst : ByteString.find dpsSubstring s = some nsPosition)
    (hPosition : suffixPosition s = some position)
    (hFind : ByteString.rfind requestSuffix s = some position) :
    demangleServiceTypeOnly s = [] ↔
      dpsSubstring ++ requestSuffix <+: s ∧ position = dpsSubstring.length := by
  obtain ⟨front, back, rfl, rfl⟩ := ByteString.find_eq_some_append hFirst
  have hResult : demangleServiceTypeOnly (front ++ (dpsSubstring ++ back)) =
      demangleNamespace front ++ ByteString.substr (front ++ (dpsSubstring ++ back))
        (front.length + dpsSubstring.length)
        (sizeDifference position (front.length + dpsSubstring.length)) := by
    unfold demangleServiceTypeOnly
    rw [hFirst, hPosition]
    simp only [ByteString.substr, List.drop_zero, List.take_left]
  have hBehind := ByteString.rfind_add_length_le (show requestSuffix ≠ [] by decide) hFind
  have hRequest : requestSuffix.length = 9 := by decide
  rw [hResult, List.append_eq_nil_iff, demangleNamespace_eq_nil_iff]
  constructor
  · rintro ⟨rfl, hName⟩
    rw [List.nil_append] at hFind hSized hBehind hName
    have hInside := length_le_of_rfind_request hFind
    -- Nothing is cut out, so the `_Request_` starts where the `dps_::` ends.
    rw [ByteString.substr, List.length_nil, Nat.zero_add, List.drop_left,
      sizeDifference_eq hInside (by omega), List.take_eq_nil_iff] at hName
    have hHere := ((ByteString.rfind_eq_some_iff (by decide)).mp hFind).1
    rw [List.length_append] at hBehind
    have hEnd : position = dpsSubstring.length := by
      obtain hZero | rfl := hName
      · omega
      · rw [List.length_nil] at hBehind
        omega
    rw [hEnd, List.drop_left] at hHere
    exact ⟨(List.prefix_append_right_inj dpsSubstring).mpr hHere, hEnd⟩
  · rintro ⟨hPrefix, rfl⟩
    have hStart : ByteString.find dpsSubstring (front ++ (dpsSubstring ++ back)) = some 0 :=
      ByteString.find_eq_zero_of_prefix ((List.prefix_append _ _).trans hPrefix)
    rw [hFirst, Option.some_inj] at hStart
    obtain rfl := List.length_eq_zero_iff.mp hStart
    refine ⟨rfl, ?_⟩
    rw [List.length_nil, Nat.zero_add, sizeDifference_eq le_rfl (by decide), Nat.sub_self,
      ByteString.substr, List.take_zero]

/-- Where no suffix is at the end, something is returned exactly if a `_Request_` is
elsewhere, and does not come right behind a `dps_::` at the start. -/
theorem rejects_iff {s : StdString} (hSized : s.length < 2 ^ 64) (hNot : ¬ IsServiceType s) :
    demangleServiceTypeOnly s = [] ↔
      ¬ dpsSubstring <:+: s ∨ ¬ requestSuffix <:+: s ∨
        (dpsSubstring ++ requestSuffix <+: s ∧
          ByteString.rfind requestSuffix s = some dpsSubstring.length) := by
  cases hFirst : ByteString.find dpsSubstring s with
  | none =>
      have hNone := ByteString.find_eq_none_iff.mp hFirst
      have hEmpty : demangleServiceTypeOnly s = [] := by
        unfold demangleServiceTypeOnly
        rw [hFirst]
      exact iff_of_true hEmpty (.inl hNone)
  | some nsPosition =>
      have hDps : dpsSubstring <:+: s := by
        obtain ⟨front, back, rfl, -⟩ := ByteString.find_eq_some_append hFirst
        exact ⟨front, back, by rw [List.append_assoc]⟩
      have hSuffixes : ¬ responseSuffix <:+ s ∧ ¬ requestSuffix <:+ s :=
        not_or.mp fun h => hNot ⟨hDps, h⟩
      have hPosition : suffixPosition s = ByteString.rfind requestSuffix s := by
        rw [suffixPosition_eq, if_neg hSuffixes.1, if_neg hSuffixes.2]
      cases hFind : ByteString.rfind requestSuffix s with
      | none =>
          have hNone := ByteString.rfind_eq_none_iff.mp hFind
          have hEmpty : demangleServiceTypeOnly s = [] := by
            unfold demangleServiceTypeOnly
            rw [hFirst, hPosition, hFind]
          exact iff_of_true hEmpty (.inr (.inl hNone))
      | some position =>
          have hRequest : requestSuffix <:+: s := by
            by_contra hNone
            rw [ByteString.rfind_eq_none_iff.mpr hNone] at hFind
            exact nomatch hFind
          rw [demangleServiceTypeOnly_inner hSized hFirst (hPosition.trans hFind) hFind,
            Option.some_inj]
          simp only [hDps, hRequest, not_true_eq_false, false_or]

/-- A service type is recognised only if it is one, on exactly the strings without a
`_Request_` inside that is taken for the suffix. -/
theorem recognizesServiceType_iff {s : StdString} (hSized : s.length < 2 ^ 64) :
    RecognizesServiceType s ↔ NoInnerRequest s := by
  by_cases hService : IsServiceType s
  · refine iff_of_true ⟨fun hNot => absurd hService hNot,
      fun _ => recognizes_of_isServiceType hSized hService, fun _ => ?_⟩ (.inl hService)
    obtain ⟨front, name, suffix, hSuffix, hText, hFirst, -⟩ :=
      recognizes_of_isServiceType hSized hService
    have hFront : s = (front ++ dpsSubstring ++ name) ++ suffix := by
      rw [hText]
      simp only [List.append_assoc]
    refine ⟨front.length, _, hFirst, hFront ▸ suffixPosition_append hSuffix _, ?_, ?_⟩
    · simp only [List.length_append]
      omega
    · have hLength := congrArg List.length hFront
      rw [List.length_append] at hLength
      omega
  · constructor
    · intro hRecognizes
      exact .inr ((rejects_iff hSized hService).mp (hRecognizes.rejects hService))
    · intro hInner
      have hEmpty := (rejects_iff hSized hService).mpr (hInner.resolve_left hService)
      exact ⟨fun _ => hEmpty, fun h => absurd h hService, fun h => absurd h hService⟩

end Lawful

end Demangle

/-! ## A service type and another string -/

/-- A `find_and_replace` that does what it is documented to do. -/
@[reducible] def replacingRcpputils : Rcpputils where
  findAndReplace input find replace := ByteString.replaceAll find replace input

theorem replacingRcpputils_lawful : @Rcpputils.Lawful replacingRcpputils :=
  @Rcpputils.Lawful.mk replacingRcpputils fun _ _ _ _ => rfl

theorem emptyRequest_recognizesServiceType :
    @RecognizesServiceType replacingRcpputils (bytesOf "test_msgs::srv::dps_::Empty_Request_") ∧
      @demangleServiceTypeOnly replacingRcpputils
        (bytesOf "test_msgs::srv::dps_::Empty_Request_") = bytesOf "test_msgs/srv/Empty" := by
  have hService : IsServiceType (bytesOf "test_msgs::srv::dps_::Empty_Request_") :=
    ⟨by decide +kernel, .inr (by decide +kernel)⟩
  have hSized : (bytesOf "test_msgs::srv::dps_::Empty_Request_").length < 2 ^ 64 := by decide
  exact ⟨(@recognizesServiceType_iff replacingRcpputils replacingRcpputils_lawful _ hSized).mpr
    (.inl hService), by decide +kernel⟩

/-- The suffix is inside, and a type is returned. -/
theorem innerRequest_not_recognizesServiceType :
    @demangleServiceTypeOnly replacingRcpputils (bytesOf "dps_::a_Request_b") = bytesOf "a" ∧
      ¬ @RecognizesServiceType replacingRcpputils (bytesOf "dps_::a_Request_b") := by
  have hResult : @demangleServiceTypeOnly replacingRcpputils (bytesOf "dps_::a_Request_b") =
      bytesOf "a" := by decide +kernel
  refine ⟨hResult, fun hRecognizes => ?_⟩
  have hNot : ¬ IsServiceType (bytesOf "dps_::a_Request_b") := by
    rintro ⟨-, hResponse | hRequest⟩
    · exact absurd hResponse (by decide)
    · exact absurd hRequest (by decide)
  have hEmpty := @RecognizesServiceType.rejects replacingRcpputils _ hRecognizes hNot
  rw [hResult] at hEmpty
  exact absurd hEmpty (by decide)

end Discovery
end RmwDps
