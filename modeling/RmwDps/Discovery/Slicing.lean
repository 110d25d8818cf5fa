import RmwDps.Discovery.Demangle
import RmwDps.Discovery.Grammar
import RmwDps.Foundation.Traced

/-!
# Where strings are cut

`process_topic_info` and the two demangling functions cut strings at positions that they
have found or computed.  Here each of them records the positions it uses and the
differences it takes.  The recorded functions compute what the functions compute, and
what they use is in range for exactly some strings: a topic string in which `&types=`
does not start in front of the topic, a type that is not empty, a service type whose
last `_Request_` is not in front of the name.
-/

namespace RmwDps
namespace Discovery
namespace Recorded

open Serialization
open Traced (emit value All)

/-! ## Accesses -/

/-- A position that is used as an index into a string of some size or as the offset of a
`substr`, or a difference of two positions. -/
inductive Access
  | index (size pos : Nat)
  | offset (size pos : Nat)
  | difference (endPos pos : Nat)
  deriving DecidableEq, Repr

/-- An index is below the size, an offset is at most the size, and a difference does not
wrap around. -/
def Access.InRange : Access → Prop
  | index size pos => pos < size
  | offset size pos => pos ≤ size
  | difference endPos pos => pos ≤ endPos

instance : DecidablePred Access.InRange
  | .index size pos => inferInstanceAs (Decidable (pos < size))
  | .offset size pos => inferInstanceAs (Decidable (pos ≤ size))
  | .difference endPos pos => inferInstanceAs (Decidable (pos ≤ endPos))

/-- `s[pos]`. -/
def charAt (s : StdString) (pos : Nat) : Traced Access (Option UInt8) := do
  emit (.index s.length pos)
  return s[pos]?

/-- `s.substr(pos, count)`. -/
def substr (s : StdString) (pos count : Nat) : Traced Access StdString := do
  emit (.offset s.length pos)
  return ByteString.substr s pos count

/-- `s.substr(pos)`. -/
def substrFrom (s : StdString) (pos : Nat) : Traced Access StdString := do
  emit (.offset s.length pos)
  return s.drop pos

/-- `endPos - pos` of two `size_t`. -/
def minus (endPos pos : Nat) : Traced Access Nat := do
  emit (.difference endPos pos)
  return if pos ≤ endPos then endPos - pos else endPos + 2 ^ 64 - pos

section Operations

variable {s : StdString} {pos count endPos : Nat}

@[simp] theorem value_charAt : value (charAt s pos) = s[pos]? := rfl

@[simp] theorem value_substr : value (substr s pos count) = ByteString.substr s pos count := rfl

@[simp] theorem value_substrFrom : value (substrFrom s pos) = s.drop pos := rfl

theorem value_minus (hLe : pos ≤ endPos) : value (minus endPos pos) = endPos - pos := if_pos hLe

theorem value_minus_of_lt (hEnd : endPos < 2 ^ 64) (hPos : pos ≤ 2 ^ 64) :
    value (minus endPos pos) = sizeDifference endPos pos := by
  show (if pos ≤ endPos then endPos - pos else endPos + 2 ^ 64 - pos) = _
  unfold sizeDifference
  split_ifs <;> omega

@[simp] theorem all_charAt : All Access.InRange (charAt s pos) ↔ pos < s.length := by
  simp [charAt, Access.InRange]

@[simp] theorem all_substr : All Access.InRange (substr s pos count) ↔ pos ≤ s.length := by
  simp [substr, Access.InRange]

@[simp] theorem all_substrFrom : All Access.InRange (substrFrom s pos) ↔ pos ≤ s.length := by
  simp [substrFrom, Access.InRange]

@[simp] theorem all_minus : All Access.InRange (minus endPos pos) ↔ pos ≤ endPos := by
  simp [minus, Access.InRange]

end Operations

/-! ## Topics -/

/-- The loop over the commas from `pos` on: the types of a topic. -/
def readTypes (topicStr : StdString) (pos : Nat) : Traced Access (List StdString) :=
  match hFind : ByteString.findFrom [typesSeparator] topicStr pos with
  | some endPos => do
      let count ← minus endPos pos
      let type ← substr topicStr pos count
      let types ← readTypes topicStr (endPos + 1)
      return type :: types
  | none => do
      let type ← substrFrom topicStr pos
      return [type]
termination_by topicStr.length - pos
decreasing_by
  obtain ⟨hLe, hInside, -⟩ := ByteString.findFrom_singleton_eq_some hFind
  omega

/-- `process_topic_info`. -/
def processTopicInfo (topicStr keyword : StdString) (topics : List Topic) :
    Traced Access (Option (List Topic)) :=
  match ByteString.find keyword topicStr with
  | none => return none
  | some found => do
      let pos := found + keyword.length
      match ByteString.find typesKeyword topicStr with
      | some endPos =>
          let count ← minus endPos pos
          let topic ← substr topicStr pos count
          let types ← readTypes topicStr (endPos + typesKeyword.length)
          return some (topics ++ [{ topic, types }])
      | none =>
          let topic ← substrFrom topicStr pos
          let types ← readTypes topicStr pos
          return some (topics ++ [{ topic, types }])

/-- A test of the loop of `onDiscovery` for the namespace or the name. -/
def testText (s keyword : StdString) (accept : StdString → Node) (next : Traced Access Node) :
    Traced Access Node :=
  match ByteString.find keyword s with
  | some pos => do
      let text ← substrFrom s (pos + keyword.length)
      return accept text
  | none => next

/-- A test of the loop for a topic. -/
def testTopic (s keyword : StdString) (topics : List Topic) (accept : List Topic → Node)
    (next : Traced Access Node) : Traced Access Node := do
  match ← processTopicInfo s keyword topics with
  | some topics => return accept topics
  | none => next

/-- One round of the loop of `onDiscovery` over the strings of a payload. -/
def processTopic (node : Node) (topic : StdString) : Traced Access Node :=
  testText topic dpsNamespacePrefix (fun namespace_ => { node with namespace_ }) <|
  testText topic dpsNamePrefix (fun name => { node with name }) <|
  testTopic topic dpsSubscriberPrefix node.subscribers
    (fun subscribers => { node with subscribers }) <|
  testTopic topic dpsPublisherPrefix node.publishers
    (fun publishers => { node with publishers }) <|
  testTopic topic dpsServicePrefix node.services (fun services => { node with services }) <|
  testTopic topic dpsClientPrefix node.clients (fun clients => { node with clients }) <|
  return node

section ReadTypes

variable {topicStr : StdString} {pos endPos : Nat}

theorem readTypes_of_some
    (hFind : ByteString.findFrom [typesSeparator] topicStr pos = some endPos) :
    readTypes topicStr pos = do
      let count ← minus endPos pos
      let type ← substr topicStr pos count
      let types ← readTypes topicStr (endPos + 1)
      return type :: types := by
  rw [readTypes]
  split
  · rename_i hSome
    rw [hFind] at hSome
    cases hSome
    rfl
  · rename_i hNone
    rw [hFind] at hNone
    cases hNone

theorem readTypes_of_none
    (hFind : ByteString.findFrom [typesSeparator] topicStr pos = none) :
    readTypes topicStr pos = do
      let type ← substrFrom topicStr pos
      return [type] := by
  rw [readTypes]
  split
  · rename_i hSome
    rw [hFind] at hSome
    cases hSome
  · rfl

/-- The types are what stands between the commas. -/
theorem value_readTypes (topicStr : StdString) (pos : Nat) :
    value (readTypes topicStr pos) = (topicStr.drop pos).splitOn typesSeparator := by
  induction pos using readTypes.induct topicStr with
  | case1 pos endPos hFind ih =>
      obtain ⟨hLe, -, hType, hSplit⟩ := ByteString.findFrom_singleton_eq_some hFind
      rw [hSplit, List.splitOn_append_cons_self, List.splitOn_eq_singleton hType, ← ih,
        readTypes_of_some hFind]
      simp [value_minus hLe]
  | case2 pos hFind =>
      have hNone : typesSeparator ∉ topicStr.drop pos :=
        ByteString.find_singleton_eq_none.mp (Option.map_eq_none_iff.mp hFind)
      rw [List.splitOn_eq_singleton hNone, readTypes_of_none hFind]
      rfl

/-- The loop stays inside of the string that it starts in. -/
theorem all_readTypes (hPos : pos ≤ topicStr.length) :
    All Access.InRange (readTypes topicStr pos) := by
  induction pos using readTypes.induct topicStr with
  | case1 pos endPos hFind ih =>
      obtain ⟨hLe, hInside, -⟩ := ByteString.findFrom_singleton_eq_some hFind
      rw [readTypes_of_some hFind]
      simp only [Traced.all_bind, all_minus, all_substr, Traced.all_pure, and_true]
      exact ⟨hLe, hPos, ih hInside⟩
  | case2 pos hFind =>
      rw [readTypes_of_none hFind]
      simpa using hPos

end ReadTypes

section TopicInfo

variable {topicStr keyword : StdString} {topics : List Topic}

theorem processTopicInfo_of_none (hFind : ByteString.find keyword topicStr = none) :
    processTopicInfo topicStr keyword topics = return none := by
  unfold processTopicInfo
  rw [hFind]

theorem find_add_length_le {needle s : StdString} {found : Nat}
    (hFind : ByteString.find needle s = some found) : found + needle.length ≤ s.length := by
  obtain ⟨front, back, rfl, rfl⟩ := ByteString.find_eq_some_append hFind
  simp only [List.length_append]
  omega

theorem value_processTopicInfo (hSized : topicStr.length < 2 ^ 64) (keyword : StdString)
    (topics : List Topic) :
    value (processTopicInfo topicStr keyword topics) =
      Discovery.processTopicInfo topicStr keyword topics := by
  unfold processTopicInfo Discovery.processTopicInfo
  cases hKeyword : ByteString.find keyword topicStr with
  | none => rfl
  | some found =>
      have hPos := find_add_length_le hKeyword
      cases hTypes : ByteString.find typesKeyword topicStr with
      | none => simp [value_readTypes]
      | some endPos =>
          have hEnd := find_add_length_le hTypes
          have hCount := @value_minus_of_lt (found + keyword.length) endPos (by omega) (by omega)
          simp [value_readTypes, hCount]

/-- What goes wrong is that `&types=` starts in front of the topic. -/
theorem all_processTopicInfo {found : Nat}
    (hKeyword : ByteString.find keyword topicStr = some found) :
    All Access.InRange (processTopicInfo topicStr keyword topics) ↔
      ∀ endPos ∈ ByteString.find typesKeyword topicStr, found + keyword.length ≤ endPos := by
  have hPos := find_add_length_le hKeyword
  unfold processTopicInfo
  rw [hKeyword]
  cases hTypes : ByteString.find typesKeyword topicStr with
  | none => simp [hPos, all_readTypes hPos]
  | some endPos =>
      have hEnd := find_add_length_le hTypes
      simp [hPos, all_readTypes hEnd]

end TopicInfo

/-- In a string with a topic, the first `&types=` starts where the topic does or behind
it. -/
def Sliceable (s : StdString) : Prop :=
  ∀ keyword ∈ Keyword.deciding? s, keyword.IsTopic →
    ∀ found ∈ ByteString.find keyword.text s, ∀ endPos ∈ ByteString.find typesKeyword s,
      found + keyword.text.length ≤ endPos

instance : DecidablePred Sliceable := fun s =>
  inferInstanceAs (Decidable (∀ keyword ∈ Keyword.deciding? s, _ → ∀ found ∈ _, ∀ endPos ∈ _, _))

section Tests

variable {s keyword : StdString} {topics : List Topic} {acceptText : StdString → Node}
  {acceptTopics : List Topic → Node} {next : Traced Access Node}

theorem value_testText :
    value (testText s keyword acceptText next) =
      match ByteString.find keyword s with
      | some pos => acceptText (s.drop (pos + keyword.length))
      | none => value next := by
  unfold testText
  cases ByteString.find keyword s <;> rfl

theorem value_testTopic (hSized : s.length < 2 ^ 64) :
    value (testTopic s keyword topics acceptTopics next) =
      match Discovery.processTopicInfo s keyword topics with
      | some topics => acceptTopics topics
      | none => value next := by
  rw [← value_processTopicInfo hSized]
  unfold testTopic
  rw [Traced.value_bind]
  cases value (processTopicInfo s keyword topics) <;> rfl

theorem all_testText :
    All Access.InRange (testText s keyword acceptText next) ↔
      (ByteString.find keyword s = none → All Access.InRange next) := by
  unfold testText
  cases hFind : ByteString.find keyword s with
  | none => simp
  | some pos => simp [find_add_length_le hFind]

theorem all_testTopic :
    All Access.InRange (testTopic s keyword topics acceptTopics next) ↔
      (∀ found ∈ ByteString.find keyword s, ∀ endPos ∈ ByteString.find typesKeyword s,
        found + keyword.length ≤ endPos) ∧
      (ByteString.find keyword s = none → All Access.InRange next) := by
  unfold testTopic
  cases hFind : ByteString.find keyword s with
  | none => simp [processTopicInfo_of_none hFind]
  | some found =>
      obtain ⟨accepted, hAccepted⟩ : ∃ accepted,
          value (processTopicInfo s keyword topics) = some accepted := by
        unfold processTopicInfo
        rw [hFind]
        cases ByteString.find typesKeyword s <;> exact ⟨_, rfl⟩
      simp [hAccepted, all_processTopicInfo hFind]

end Tests

theorem value_processTopic {s : StdString} (hSized : s.length < 2 ^ 64) (node : Node) :
    value (processTopic node s) = node.processTopic s := by
  simp only [processTopic, value_testText, value_testTopic hSized]
  rfl

/-- The six tests in front of the topic use no position but that of the deciding
keyword. -/
theorem all_processTopic {s : StdString} (node : Node) :
    All Access.InRange (processTopic node s) ↔ Sliceable s := by
  rw [Sliceable, Keyword.deciding?_eq]
  simp only [processTopic, all_testText, all_testTopic, List.find?_cons, Keyword.text,
    List.find?_nil]
  cases hNamespace : ByteString.find dpsNamespacePrefix s with
  | some found => simp [Keyword.IsTopic]
  | none =>
    cases hName : ByteString.find dpsNamePrefix s with
    | some found => simp [Keyword.IsTopic]
    | none =>
      cases hSubscriber : ByteString.find dpsSubscriberPrefix s with
      | some found => simp [Keyword.IsTopic, hSubscriber]
      | none =>
        cases hPublisher : ByteString.find dpsPublisherPrefix s with
        | some found => simp [Keyword.IsTopic, hPublisher]
        | none =>
          cases hService : ByteString.find dpsServicePrefix s with
          | some found => simp [Keyword.IsTopic, hService]
          | none =>
            cases hClient : ByteString.find dpsClientPrefix s with
            | some found => simp [Keyword.IsTopic, hClient]
            | none => simp

/-! ## Types -/

section Demangle

variable [Rcpputils]

/-- `_demangle_if_ros_type`. -/
def demangleIfRosType (dpsTypeString : StdString) : Traced Access StdString := do
  let last ← minus dpsTypeString.length 1
  let c ← charAt dpsTypeString last
  if c ≠ some 0x5F then return dpsTypeString
  else
    match ByteString.find dpsSubstring dpsTypeString with
    | none => return dpsTypeString
    | some substringPosition =>
        let typeNamespace ← substr dpsTypeString 0 substringPosition
        let start := substringPosition + dpsSubstring.length
        let last ← minus dpsTypeString.length 1
        let count ← minus last start
        let typeName ← substr dpsTypeString start count
        return demangleNamespace typeNamespace ++ typeName

/-- The loop over the suffixes. -/
def findSuffix (dpsTypeName : StdString) :
    List StdString → Option Nat → Traced Access (Option Nat)
  | [], suffixPosition => return suffixPosition
  | suffix :: suffixes, _ =>
      match ByteString.rfind suffix dpsTypeName with
      | some suffixPosition => do
          let behind ← minus dpsTypeName.length suffixPosition
          let rest ← minus behind suffix.length
          if rest ≠ 0 then findSuffix dpsTypeName suffixes (some suffixPosition)
          else return some suffixPosition
      | none => findSuffix dpsTypeName suffixes none

/-- `_demangle_service_type_only`. -/
def demangleServiceTypeOnly (dpsTypeName : StdString) : Traced Access StdString :=
  match ByteString.find dpsSubstring dpsTypeName with
  | none => return []
  | some nsSubstringPosition => do
      match ← findSuffix dpsTypeName [responseSuffix, requestSuffix] (some 0) with
      | none => return []
      | some suffixPosition =>
          let typeNamespace ← substr dpsTypeName 0 nsSubstringPosition
          let start := nsSubstringPosition + dpsSubstring.length
          let count ← minus suffixPosition start
          let typeName ← substr dpsTypeName start count
          return demangleNamespace typeNamespace ++ typeName

theorem value_demangleIfRosType {s : StdString} (hSized : s.length < 2 ^ 64) :
    value (demangleIfRosType s) = Discovery.demangleIfRosType s := by
  have hLast : value (minus s.length 1) = sizeDifference s.length 1 :=
    value_minus_of_lt hSized (by omega)
  unfold demangleIfRosType Discovery.demangleIfRosType
  by_cases hUnderscore : s[sizeDifference s.length 1]? ≠ some 0x5F
  · simp [hLast, hUnderscore]
  · cases hFind : ByteString.find dpsSubstring s with
    | none => simp [hLast]
    | some substringPosition =>
        have hStart := find_add_length_le hFind
        have hCount := @value_minus_of_lt (substringPosition + dpsSubstring.length)
          (sizeDifference s.length 1) (Nat.mod_lt _ (by omega)) (by omega)
        simp only [not_not] at hUnderscore
        simp [hLast, hUnderscore, hCount]

omit [Rcpputils] in
/-- The first `dps_::` ends in front of a last underscore. -/
theorem find_dpsSubstring_lt {s : StdString} {substringPosition : Nat}
    (hFind : ByteString.find dpsSubstring s = some substringPosition)
    (hLast : s[s.length - 1]? = some 0x5F) :
    substringPosition + dpsSubstring.length ≤ s.length - 1 := by
  obtain ⟨front, back, rfl, rfl⟩ := ByteString.find_eq_some_append hFind
  rw [← List.getLast?_eq_getElem?] at hLast
  cases back with
  | nil =>
      rw [List.append_nil, List.getLast?_append_of_ne_nil _ (by decide)] at hLast
      exact absurd hLast (by decide)
  | cons c back =>
      simp only [List.length_append, List.length_cons]
      omega

/-- What goes wrong is that there is no last character. -/
theorem all_demangleIfRosType {s : StdString} :
    All Access.InRange (demangleIfRosType s) ↔ s ≠ [] := by
  constructor
  · rintro hAll rfl
    exact absurd (all_minus.mp (Traced.all_bind.mp hAll).1) (by decide)
  · intro hNonempty
    have hLength := List.length_pos_iff.mpr hNonempty
    have hLast : value (minus s.length 1) = s.length - 1 := value_minus hLength
    unfold demangleIfRosType
    simp only [Traced.all_bind, all_minus, hLast, all_charAt]
    refine ⟨hLength, by omega, ?_⟩
    by_cases hUnderscore : value (charAt s (s.length - 1)) = some 0x5F
    · rw [if_neg (not_not.mpr hUnderscore)]
      cases hFind : ByteString.find dpsSubstring s with
      | none => simp
      | some substringPosition =>
          have hEnd := find_dpsSubstring_lt hFind hUnderscore
          simp only [Traced.all_bind, all_minus, hLast, all_substr, Traced.all_pure, and_true]
          omega
    · rw [if_pos hUnderscore]
      simp

omit [Rcpputils] in
theorem findSuffix_spec (s : StdString) {suffixes : List StdString}
    (hSuffixes : ∀ suffix ∈ suffixes, suffix ≠ []) (pos : Option Nat) :
    value (findSuffix s suffixes pos) = Discovery.findSuffix s suffixes pos ∧
      All Access.InRange (findSuffix s suffixes pos) := by
  induction suffixes generalizing pos with
  | nil => exact ⟨rfl, by simp [findSuffix]⟩
  | cons suffix suffixes ih =>
      obtain ⟨hSuffix, hRest⟩ := List.forall_mem_cons.mp hSuffixes
      rw [findSuffix, Discovery.findSuffix]
      cases hFind : ByteString.rfind suffix s with
      | none => exact ih hRest none
      | some found =>
          have hEnd := ByteString.rfind_add_length_le hSuffix hFind
          have hBehind : value (minus s.length found) = s.length - found :=
            value_minus (by omega)
          have hLeft : value (minus (s.length - found) suffix.length) =
              s.length - found - suffix.length := value_minus (by omega)
          obtain ⟨hValue, hAll⟩ := ih hRest (some found)
          by_cases hInside : s.length - found - suffix.length ≠ 0
          · simp only [Traced.value_bind, Traced.all_bind, all_minus, hBehind, hLeft,
              if_pos hInside]
            exact ⟨hValue, by omega, by omega, hAll⟩
          · simp only [Traced.value_bind, Traced.all_bind, all_minus, hBehind, hLeft,
              if_neg hInside]
            exact ⟨rfl, by omega, by omega, by simp⟩

omit [Rcpputils] in
theorem findSuffix_suffixes (s : StdString) :
    value (findSuffix s [responseSuffix, requestSuffix] (some 0)) = suffixPosition s ∧
      All Access.InRange (findSuffix s [responseSuffix, requestSuffix] (some 0)) :=
  findSuffix_spec s (by decide) (some 0)

omit [Rcpputils] in
theorem suffixPosition_le {s : StdString} {position : Nat}
    (hPosition : suffixPosition s = some position) : position ≤ s.length := by
  rw [suffixPosition_eq] at hPosition
  split_ifs at hPosition
  · cases hPosition
    omega
  · cases hPosition
    omega
  · have hEnd := ByteString.rfind_add_length_le (by decide) hPosition
    omega

theorem value_demangleServiceTypeOnly {s : StdString} (hSized : s.length < 2 ^ 64) :
    value (demangleServiceTypeOnly s) = Discovery.demangleServiceTypeOnly s := by
  unfold demangleServiceTypeOnly Discovery.demangleServiceTypeOnly
  cases hFind : ByteString.find dpsSubstring s with
  | none => rfl
  | some nsPosition =>
      have hStart := find_add_length_le hFind
      rw [Traced.value_bind, (findSuffix_suffixes s).1]
      cases hPosition : suffixPosition s with
      | none => rfl
      | some position =>
          have hEnd := suffixPosition_le hPosition
          have hCount := @value_minus_of_lt (nsPosition + dpsSubstring.length) position
            (by omega) (by omega)
          simp [hCount]

/-- A type that is a service type, or whose last `_Request_`, if there is one, does not
start in front of the end of the first `dps_::`. -/
def ServiceSliceable (s : StdString) : Prop :=
  IsServiceType s ∨ ∀ nsPosition ∈ ByteString.find dpsSubstring s,
    ∀ position ∈ ByteString.rfind requestSuffix s, nsPosition + dpsSubstring.length ≤ position

omit [Rcpputils] in
theorem le_suffixPosition {s : StdString} {nsPosition position : Nat}
    (hService : IsServiceType s) (hFind : ByteString.find dpsSubstring s = some nsPosition)
    (hPosition : suffixPosition s = some position) :
    nsPosition + dpsSubstring.length ≤ position := by
  obtain ⟨suffix, hSuffix, hEnd⟩ : ∃ suffix,
      (suffix = responseSuffix ∨ suffix = requestSuffix) ∧ suffix <:+ s := by
    rcases hService.2 with hResponse | hRequest
    · exact ⟨_, .inl rfl, hResponse⟩
    · exact ⟨_, .inr rfl, hRequest⟩
  obtain ⟨front, back, rfl, rfl⟩ := ByteString.find_eq_some_append hFind
  obtain ⟨name, rfl⟩ := exists_append_of_suffix hSuffix hEnd
  rw [← List.append_assoc, ← List.append_assoc, suffixPosition_append hSuffix,
    Option.some_inj] at hPosition
  simp only [← hPosition, List.length_append]
  omega

omit [Rcpputils] in
/-- Without a suffix at the end the loop leaves the position of the last `_Request_`. -/
theorem suffixPosition_of_not_isServiceType {s : StdString} {nsPosition : Nat}
    (hFind : ByteString.find dpsSubstring s = some nsPosition) (hNot : ¬ IsServiceType s) :
    suffixPosition s = ByteString.rfind requestSuffix s := by
  have hDps : dpsSubstring <:+: s := by
    obtain ⟨front, back, rfl, -⟩ := ByteString.find_eq_some_append hFind
    exact ⟨front, back, by rw [List.append_assoc]⟩
  obtain ⟨hResponse, hRequest⟩ : ¬ responseSuffix <:+ s ∧ ¬ requestSuffix <:+ s :=
    not_or.mp fun h => hNot ⟨hDps, h⟩
  rw [suffixPosition_eq, if_neg hResponse, if_neg hRequest]

/-- What goes wrong is that the position that the loop leaves is in front of the name. -/
theorem all_demangleServiceTypeOnly {s : StdString} :
    All Access.InRange (demangleServiceTypeOnly s) ↔ ServiceSliceable s := by
  have hPositions : All Access.InRange (demangleServiceTypeOnly s) ↔
      ∀ nsPosition ∈ ByteString.find dpsSubstring s, ∀ position ∈ suffixPosition s,
        nsPosition + dpsSubstring.length ≤ position := by
    unfold demangleServiceTypeOnly
    cases hFind : ByteString.find dpsSubstring s with
    | none => simp
    | some nsPosition =>
        have hStart := find_add_length_le hFind
        rw [Traced.all_bind, (findSuffix_suffixes s).1]
        cases hPosition : suffixPosition s with
        | none => simp [(findSuffix_suffixes s).2]
        | some position =>
            simp only [Traced.all_bind, all_substr, all_minus, Traced.all_pure, and_true,
              (findSuffix_suffixes s).2, true_and, Option.mem_some_iff, forall_eq']
            omega
  rw [hPositions, ServiceSliceable]
  by_cases hService : IsServiceType s
  · refine iff_of_true ?_ (.inl hService)
    intro nsPosition hFind position hPosition
    exact le_suffixPosition hService hFind hPosition
  · rw [or_iff_right hService]
    refine forall₂_congr fun nsPosition hFind => ?_
    rw [suffixPosition_of_not_isServiceType hFind hService]

end Demangle

end Recorded
end Discovery
end RmwDps
