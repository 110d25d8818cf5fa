import RmwDps.Serialization.DecodeBounds

/-!
# Inputs that break the declared sizes

The converse of `DecodeBounds`: for a description that `exceeds` there is a
value of the right shape outside its declared sizes, whose payload the decoder
takes; and where a description `indexesPastEnd` there is a payload that makes
the C decoder do so.
-/

namespace RmwDps
namespace Serialization

/-! ## Fields -/

def PrimType.zero : (t : PrimType) → t.Carrier
  | .bool => false
  | .uint8 => 0
  | .char => ⟨0⟩
  | .float => ⟨0⟩
  | .double => ⟨0⟩
  | .int16 => 0
  | .uint16 => 0
  | .int32 => 0
  | .uint32 => 0
  | .int64 => 0
  | .uint64 => 0

/-- The string of either package with the given code units. -/
def MembersType.str {U : Type} : (μ : MembersType) → List U → μ.Str U
  | .cpp, units => units
  | .c, units => ⟨some units⟩

@[simp] theorem MembersType.content_str {U : Type} (μ : MembersType) (units : List U) :
    μ.content (μ.str units) = units := by
  cases μ <;> rfl

theorem MembersType.holds_str {U : Type} [Zero U] (μ : MembersType) {units : List U}
    (hUnits : (0 : U) ∉ units) (hSized : units.length < 2 ^ 64) : μ.Holds (μ.str units) := by
  cases μ with
  | cpp => exact ⟨trivial, hSized⟩
  | c => exact ⟨⟨units, rfl, hUnits⟩, hSized⟩

/-- The number of copies in a field filled with one element: those of the array,
or any number in a sequence. -/
def MessageMember.copies (member : MessageMember) (count : Nat) : Nat :=
  if member.isFixedArray then member.arraySize.toNat else count

/-- A field all of whose elements are `x`. -/
def FieldMem.filled {T : Type} (member : MessageMember) (count : Nat) (x : T) : FieldMem T :=
  if member.isArray then .many (List.replicate (member.copies count) x) else .one x

section Filled

variable {T : Type} {member : MessageMember} {count : Nat} {x : T}

theorem FieldMem.filled_fits (hCount : count < 2 ^ 64) :
    (FieldMem.filled member count x).Fits member := by
  unfold filled
  split
  · next hArray =>
      refine ⟨hArray, ?_, fun hFixed => by simp [MessageMember.copies, hFixed]⟩
      have hSize := member.arraySize.toNat_lt
      rw [List.length_replicate, MessageMember.copies]
      split <;> omega
  · next hArray => exact FieldMem.one_fits hArray x

theorem FieldMem.forall_items_filled {P : T → Prop} (hElement : P x) :
    ∀ y ∈ (FieldMem.filled member count x).items, P y := by
  unfold filled
  split
  · intro y hy
    exact List.eq_of_mem_replicate hy ▸ hElement
  · simpa [FieldMem.items] using hElement

/-- One copy too many. -/
theorem FieldMem.filled_not_bounded_of_count {limit : Nat} {elementOk : T → Prop}
    (hExceeds : member.countExceeds limit = true) :
    ¬ (FieldMem.filled member (member.arraySize.toNat + 1) x).Bounded member elementOk := by
  simp only [MessageMember.countExceeds, Bool.and_eq_true] at hExceeds
  obtain ⟨⟨hArray, hUpper⟩, -⟩ := hExceeds
  have hFixed := MessageMember.not_isFixedArray_of_isUpperBound hUpper
  intro hBounded
  simp only [filled, hArray, if_true, FieldMem.Bounded, MessageMember.copies, hFixed,
    Bool.false_eq_true, if_false, List.length_replicate] at hBounded
  exact absurd (hBounded.1.2 hUpper) (by omega)

/-- An element that breaks its own bound. -/
theorem FieldMem.filled_not_bounded_of_element {elementOk : T → Prop} (hElement : ¬ elementOk x) :
    ¬ (FieldMem.filled member 1 x).Bounded member elementOk := by
  intro hBounded
  unfold filled at hBounded
  split at hBounded
  · have hCopies : 0 < member.copies 1 := by
      unfold MessageMember.copies
      split
      · next hFixed => exact MessageMember.arraySize_pos hFixed
      · exact Nat.one_pos
    exact hElement (hBounded.2 x (List.mem_replicate.mpr ⟨hCopies.ne', rfl⟩))
  · exact hElement hBounded

end Filled

/-! ## Members -/

section Members

variable {μ : MembersType} {member : MessageMember} {SubFits SubBounded : Message μ → Prop}

/-- The member whose nested messages are all `msg`. -/
def Value.filledMessages (member : MessageMember) (count : Nat) (msg : Message μ) : Value μ :=
  if member.isArray then .messages (List.replicate (member.copies count) msg) else .message msg

theorem Value.filledMessages_fits (hKind : member.typeId.kind = .message) {count : Nat}
    (hCount : count < 2 ^ 32) {msg : Message μ}
    (hMsg : member.isArray = true → member.copies count = 0 ∨ SubFits msg)
    (hScalar : ¬ (member.isArray = true) → SubFits msg) :
    (Value.filledMessages member count msg).Fits member SubFits := by
  unfold filledMessages
  split
  · next hArray =>
      refine ⟨hKind, hArray, ?_, fun m hm => ?_⟩
      · split
        · next hFixed => simp [MessageMember.copies, hFixed]
        · next hFixed => simpa [MessageMember.copies, hFixed] using hCount
      · obtain ⟨hSome, rfl⟩ := List.mem_replicate.mp hm
        exact (hMsg hArray).resolve_left hSome
  · next hArray => exact ⟨hKind, by simpa using hArray, hScalar hArray⟩

theorem Value.filledMessages_not_bounded {msg : Message μ} (hMsg : ¬ SubBounded msg) :
    ¬ (Value.filledMessages member 1 msg).Bounded member SubBounded := by
  intro hBounded
  unfold filledMessages at hBounded
  split at hBounded
  · have hCopies : 0 < member.copies 1 := by
      unfold MessageMember.copies
      split
      · next hFixed => exact MessageMember.arraySize_pos hFixed
      · exact Nat.one_pos
    exact hMsg (hBounded.2 msg (List.mem_replicate.mpr ⟨hCopies.ne', rfl⟩))
  · exact hMsg hBounded

/-- A member that some input decodes as has a value of its shape. -/
theorem MessageMember.exists_fits {subDecodable : Bool}
    (hSub : subDecodable = true → ∃ msg, SubFits msg)
    (hDecodable : member.decodable subDecodable = true) :
    ∃ value : Value μ, value.Fits member SubFits := by
  cases hKind : member.typeId.kind with
  | prim t =>
      exact ⟨.prim t (.filled member 0 t.zero), hKind, FieldMem.filled_fits (by decide)⟩
  | string =>
      exact ⟨.string (.filled member 0 (μ.str [])), hKind, FieldMem.filled_fits (by decide),
        FieldMem.forall_items_filled (μ.holds_str (by simp) (by simp))⟩
  | wstring =>
      exact ⟨.wstring (.filled member 0 (μ.str [])), hKind, FieldMem.filled_fits (by decide),
        FieldMem.forall_items_filled (μ.holds_str (by simp) (by simp))⟩
  | message =>
      simp only [decodable, hKind, Bool.or_eq_true, Bool.and_eq_true, Bool.not_eq_true']
        at hDecodable
      by_cases hSome : subDecodable = true
      · obtain ⟨msg, hMsg⟩ := hSub hSome
        exact ⟨.filledMessages member 0 msg,
          Value.filledMessages_fits hKind (by decide) (fun _ => .inr hMsg) fun _ => hMsg⟩
      · obtain ⟨hArray, hFixed⟩ := hDecodable.resolve_right hSome
        exact ⟨.filledMessages member 0 [],
          Value.filledMessages_fits hKind (by decide) (fun _ => .inl (by simp [copies, hFixed]))
            fun h => absurd hArray h⟩
  | unknown => simp [decodable, hKind] at hDecodable

/-- A string one code unit over its bound. -/
theorem MessageMember.exists_long_string {U : Type} [Zero U] (unit : U) (hUnit : unit ≠ 0)
    (hString : member.stringExceeds = true) :
    ∃ s : μ.Str U, μ.Holds s ∧ ¬ member.StringOk (μ.content s).length := by
  simp only [stringExceeds, Bool.and_eq_true, decide_eq_true_eq] at hString
  refine ⟨μ.str (List.replicate (member.stringUpperBound.toNat + 1) unit), ?_, ?_⟩
  · refine μ.holds_str (fun hMem => hUnit (List.eq_of_mem_replicate hMem).symm) ?_
    rw [List.length_replicate]
    exact hString.2
  · rw [MembersType.content_str, List.length_replicate]
    exact fun hOk => absurd (hOk hString.1) (by omega)

/-- A string member that exceeds has a field of its shape outside its bounds. -/
theorem MessageMember.exists_exceeding_strings {U : Type} [Zero U] (unit : U) (hUnit : unit ≠ 0)
    (hExceeds : (member.countExceeds (2 ^ 64) || member.stringExceeds) = true) :
    ∃ field : FieldMem (μ.Str U), field.Fits member ∧ (∀ s ∈ field.items, μ.Holds s) ∧
      ¬ field.Bounded member fun s => member.StringOk (μ.content s).length := by
  rw [Bool.or_eq_true] at hExceeds
  rcases hExceeds with hCount | hString
  · have hSized : member.arraySize.toNat + 1 < 2 ^ 64 := by
      simp only [countExceeds, Bool.and_eq_true, decide_eq_true_eq] at hCount
      exact hCount.2
    exact ⟨.filled member (member.arraySize.toNat + 1) (μ.str []), FieldMem.filled_fits hSized,
      FieldMem.forall_items_filled (μ.holds_str (by simp) (by simp)),
      FieldMem.filled_not_bounded_of_count hCount⟩
  · obtain ⟨s, hHolds, hLong⟩ := exists_long_string (μ := μ) unit hUnit hString
    exact ⟨.filled member 1 s, FieldMem.filled_fits (by decide),
      FieldMem.forall_items_filled hHolds, FieldMem.filled_not_bounded_of_element hLong⟩

/-- A member that exceeds has a value of its shape outside its declared sizes. -/
theorem MessageMember.exists_exceeding {subDecodable subExceeds : Bool}
    (hSub : subDecodable = true → ∃ msg, SubFits msg)
    (hSubExceeds : subExceeds = true → ∃ msg, SubFits msg ∧ ¬ SubBounded msg)
    (hExceeds : member.exceeds subDecodable subExceeds = true) :
    ∃ value : Value μ, value.Fits member SubFits ∧ ¬ value.Bounded member SubBounded := by
  cases hKind : member.typeId.kind with
  | prim t =>
      simp only [exceeds, hKind] at hExceeds
      have hSized : member.arraySize.toNat + 1 < 2 ^ 64 := by
        simp only [countExceeds, Bool.and_eq_true, decide_eq_true_eq] at hExceeds
        exact hExceeds.2
      exact ⟨.prim t (.filled member (member.arraySize.toNat + 1) t.zero),
        ⟨hKind, FieldMem.filled_fits hSized⟩, FieldMem.filled_not_bounded_of_count hExceeds⟩
  | string =>
      simp only [exceeds, hKind] at hExceeds
      obtain ⟨field, hFits, hHolds, hLong⟩ :=
        exists_exceeding_strings (μ := μ) (1 : UInt8) (by decide) hExceeds
      exact ⟨.string field, ⟨hKind, hFits, hHolds⟩, hLong⟩
  | wstring =>
      simp only [exceeds, hKind] at hExceeds
      obtain ⟨field, hFits, hHolds, hLong⟩ :=
        exists_exceeding_strings (μ := μ) (1 : UInt16) (by decide) hExceeds
      exact ⟨.wstring field, ⟨hKind, hFits, hHolds⟩, hLong⟩
  | message =>
      simp only [exceeds, hKind, Bool.or_eq_true, Bool.and_eq_true] at hExceeds
      rcases hExceeds with ⟨hCount, hDecodable⟩ | hNested
      · obtain ⟨msg, hMsg⟩ := hSub hDecodable
        simp only [countExceeds, Bool.and_eq_true, decide_eq_true_eq] at hCount
        obtain ⟨⟨hArray, hUpper⟩, hSized⟩ := hCount
        have hFixed := not_isFixedArray_of_isUpperBound hUpper
        refine ⟨.filledMessages member (member.arraySize.toNat + 1) msg,
          Value.filledMessages_fits hKind hSized (fun _ => .inr hMsg) fun _ => hMsg,
          fun hBounded => ?_⟩
        simp only [Value.filledMessages, hArray, if_true, Value.Bounded, copies, hFixed,
          Bool.false_eq_true, if_false, List.length_replicate] at hBounded
        exact absurd (hBounded.1.2 hUpper) (by omega)
      · obtain ⟨msg, hMsg, hLong⟩ := hSubExceeds hNested
        exact ⟨.filledMessages member 1 msg,
          Value.filledMessages_fits hKind (by decide) (fun _ => .inr hMsg) fun _ => hMsg,
          Value.filledMessages_not_bounded hLong⟩
  | unknown => simp [exceeds, hKind] at hExceeds

end Members

/-! ## Messages -/

section Messages

variable {μ : MembersType}

theorem MessageMembers.exists_fits {members : MessageMembers} (hCounts : members.CountsFit)
    (hDecodable : members.decodable = true) : ∃ msg : Message μ, members.Fits msg := by
  induction members with
  | nil => exact ⟨[], trivial⟩
  | cons member submembers rest ihSub ihRest =>
      obtain ⟨-, hSubCounts, hRestCounts⟩ := hCounts
      simp only [decodable, Bool.and_eq_true] at hDecodable
      have hSub : submembers.decodable = true →
          ∃ msg : Message μ, submembers.memberCount < 2 ^ 32 ∧ submembers.Fits msg := by
        intro h
        obtain ⟨msg, hMsg⟩ := ihSub hSubCounts h
        exact ⟨msg, hSubCounts.memberCount_lt, hMsg⟩
      obtain ⟨value, hValue⟩ := MessageMember.exists_fits hSub hDecodable.1
      obtain ⟨values, hValues⟩ := ihRest hRestCounts hDecodable.2
      exact ⟨value :: values, hValue, hValues⟩

theorem MessageMembers.exists_exceeding {members : MessageMembers}
    (hCounts : members.CountsFit) (hExceeds : members.exceeds = true) :
    ∃ msg : Message μ, members.Fits msg ∧ ¬ members.Bounded msg := by
  induction members with
  | nil => simp [exceeds] at hExceeds
  | cons member submembers rest ihSub ihRest =>
      obtain ⟨-, hSubCounts, hRestCounts⟩ := hCounts
      have hSubCount := hSubCounts.memberCount_lt
      have hSub : submembers.decodable = true →
          ∃ msg : Message μ, submembers.memberCount < 2 ^ 32 ∧ submembers.Fits msg := by
        intro h
        obtain ⟨msg, hMsg⟩ := exists_fits (μ := μ) hSubCounts h
        exact ⟨msg, hSubCount, hMsg⟩
      have hSubExceeds : submembers.exceeds = true → ∃ msg : Message μ,
          (submembers.memberCount < 2 ^ 32 ∧ submembers.Fits msg) ∧ ¬ submembers.Bounded msg := by
        intro h
        obtain ⟨msg, hMsg, hLong⟩ := ihSub hSubCounts h
        exact ⟨msg, ⟨hSubCount, hMsg⟩, hLong⟩
      simp only [exceeds, Bool.or_eq_true, Bool.and_eq_true] at hExceeds
      rcases hExceeds with ⟨hHead, hRest⟩ | ⟨hHead, hRest⟩
      · obtain ⟨value, hValue, hLong⟩ := MessageMember.exists_exceeding hSub hSubExceeds hHead
        obtain ⟨values, hValues⟩ := exists_fits (μ := μ) hRestCounts hRest
        exact ⟨value :: values, ⟨hValue, hValues⟩, fun h => hLong h.1⟩
      · obtain ⟨value, hValue⟩ := MessageMember.exists_fits hSub hHead
        obtain ⟨values, hValues, hLong⟩ := ihRest hRestCounts hRest
        exact ⟨value :: values, ⟨hValue, hValues⟩, fun h => hLong h.2⟩

end Messages

/-! ## Indexing past the end -/

section PastEnd

theorem readEach_faults {T : Type} {reader : Rx T} {bytes : List UInt8} {fault : Fault}
    (hReader : FaultsOn reader bytes fault) {count : Nat} (hCount : 0 < count) :
    FaultsOn (readEach reader count) bytes fault := by
  cases count with
  | zero => exact absurd hCount (by decide)
  | succ count => exact hReader.bind _

variable [DpsCbor] [DpsCbor.Lawful]

omit [DpsCbor.Lawful] in
/-- An empty array on the wire where the description has a fixed-size array of
strings: already the first element is past the end. -/
theorem C.deserializeFieldOfString_faults {U : Type} [Zero U] [DecidableEq U]
    {ops : StreamOps (List U)} {item : List U → List UInt8} {member : MessageMember}
    (hOps : ops.DecodesAs Sized (fun _ => True) item (arrayItem item))
    (hArray : member.isArray = true) (hFixed : member.isFixedArray = true) :
    FaultsOn (C.deserializeFieldOfString ops member) (arrayItem item []) .indexPastEnd := by
  obtain ⟨count, hCount⟩ := Nat.exists_eq_succ_of_ne_zero
    (MessageMember.arraySize_pos hFixed).ne'
  have hVector := (hOps.getVector [] (by simp) (by simp)).reads fun _ _ => trivial
  have hAssign : FaultsOn (C.assignEach member.arraySize.toNat ([] : List (List U))) []
      .indexPastEnd := by
    rw [hCount]
    exact FaultsOn.throw _
  unfold C.deserializeFieldOfString
  simp only [hArray, Bool.not_true, Bool.false_eq_true, if_false, hFixed, if_true]
  intro deser rest hUnread
  rw [← List.append_nil (arrayItem item [])] at hUnread
  exact hVector.bind_faultsOn (hAssign.bind _) deser rest hUnread

variable {μ : MembersType} {member : MessageMember}

/-- A nested message that faults makes the member fault: as the only message, as
the first of a fixed-size array, or as the first of a sequence of one. -/
theorem deserializeMessage_faults {deserializeSub : Rx (Message μ)} {bytes : List UInt8}
    {fault : Fault} (hSub : FaultsOn deserializeSub bytes fault) :
    ∃ bytes', FaultsOn (deserializeMessage member deserializeSub) bytes' fault := by
  unfold deserializeMessage getSubmessageSequenceDeserialize
  by_cases hArray : member.isArray = true
  · simp only [hArray, Bool.not_true, Bool.false_eq_true, if_false]
    by_cases hFixed : member.isFixedArray = true
    · simp only [hFixed, if_true, pure_bind]
      exact ⟨bytes, (readEach_faults hSub (MessageMember.arraySize_pos hFixed)).bind _⟩
    · simp only [hFixed, Bool.false_eq_true, if_false, bind_assoc, pure_bind]
      have hOne : FaultsOn (readEach deserializeSub (1 : UInt32).toNat) bytes fault :=
        readEach_faults hSub (by decide)
      refine ⟨Rfc7049.uint (1 : UInt32).toNat ++ bytes, FaultsOn.unreadLength fun unread => ?_⟩
      exact (getUint32_reads 1).bind_faultsOn (FaultsOn.resize (hOne.bind _))
  · simp only [hArray, Bool.not_false, if_true]
    exact ⟨bytes, hSub.bind _⟩

theorem stringMember_faults (hKind : member.typeId.kind = .string ∨ member.typeId.kind = .wstring)
    (hPast : member.indexesPastEnd μ false = true) [Platform] {deserializeSub : Rx (Message μ)} :
    ∃ bytes, FaultsOn (deserializeMember member deserializeSub) bytes .indexPastEnd := by
  rcases hKind with hKind | hKind
  all_goals
    simp only [MessageMember.indexesPastEnd, hKind, Bool.and_eq_true, decide_eq_true_eq] at hPast
    obtain ⟨⟨rfl, hArray⟩, hFixed⟩ := hPast
    simp only [deserializeMember, hKind]
  · exact ⟨_, (C.deserializeFieldOfString_faults stringOps_decodesAs hArray hFixed).bind _⟩
  · exact ⟨_, (C.deserializeFieldOfString_faults u16stringOps_decodesAs hArray hFixed).bind _⟩

theorem deserializeMember_faults [Platform] {deserializeSub : Rx (Message μ)}
    {subPastEnd : Bool}
    (hSub : subPastEnd = true → ∃ bytes, FaultsOn deserializeSub bytes .indexPastEnd)
    (hPast : member.indexesPastEnd μ subPastEnd = true) :
    ∃ bytes, FaultsOn (deserializeMember member deserializeSub) bytes .indexPastEnd := by
  cases hKind : member.typeId.kind with
  | prim t => simp [MessageMember.indexesPastEnd, hKind] at hPast
  | string =>
      refine stringMember_faults (.inl hKind) ?_
      simpa only [MessageMember.indexesPastEnd, hKind] using hPast
  | wstring =>
      refine stringMember_faults (.inr hKind) ?_
      simpa only [MessageMember.indexesPastEnd, hKind] using hPast
  | message =>
      simp only [MessageMember.indexesPastEnd, hKind] at hPast
      obtain ⟨bytes, hFaults⟩ := hSub hPast
      simp only [deserializeMember, hKind]
      exact deserializeMessage_faults hFaults
  | unknown => simp [MessageMember.indexesPastEnd, hKind] at hPast

/-- The bytes lead through the members in front, on values of their shapes, to
the member that faults. -/
theorem deserializeMembers_faults [Platform] (hSigned : Platform.charIsSigned = true)
    {members : MessageMembers} (hCounts : members.CountsFit)
    (hPast : members.indexesPastEnd μ = true) :
    ∃ bytes, FaultsOn (deserializeMembers members : Rx (Message μ)) bytes .indexPastEnd := by
  induction members with
  | nil => simp [MessageMembers.indexesPastEnd] at hPast
  | cons member submembers rest ihSub ihRest =>
      obtain ⟨-, hSubCounts, hRestCounts⟩ := hCounts
      have hSubCount := hSubCounts.memberCount_lt
      simp only [MessageMembers.indexesPastEnd, Bool.or_eq_true, Bool.and_eq_true] at hPast
      rcases hPast with hHead | ⟨hDecodable, hRest⟩
      · have hSub : submembers.indexesPastEnd μ = true → ∃ bytes, FaultsOn (do
            checkMemberCount submembers.memberCount
            deserializeMembers submembers : Rx (Message μ)) bytes .indexPastEnd := by
          intro h
          obtain ⟨bytes, hFaults⟩ := ihSub hSubCounts h
          exact ⟨_, (checkMemberCount_reads (by omega)).bind_faultsOn hFaults⟩
        obtain ⟨bytes, hFaults⟩ := deserializeMember_faults hSub hHead
        exact ⟨bytes, hFaults.bind _⟩
      · have hFits : submembers.decodable = true →
            ∃ msg : Message μ, submembers.memberCount < 2 ^ 32 ∧ submembers.Fits msg := by
          intro h
          obtain ⟨msg, hMsg⟩ := MessageMembers.exists_fits (μ := μ) hSubCounts h
          exact ⟨msg, hSubCount, hMsg⟩
        have hSub : ∀ msg : Message μ,
            submembers.memberCount < 2 ^ 32 ∧ submembers.Fits msg →
            Reads (do checkMemberCount submembers.memberCount; deserializeMembers submembers)
              (Rfc7049.array submembers.memberCount ++ submembers.wire msg) msg :=
          fun msg hMsg =>
            (checkMemberCount_reads (by omega)).bind (deserializeMembers_reads hSigned hMsg.2)
        obtain ⟨value, hValue⟩ := MessageMember.exists_fits hFits hDecodable
        obtain ⟨bytes, hFaults⟩ := ihRest hRestCounts hRest
        exact ⟨_, (deserializeMember_reads hSigned hSub hValue).bind_faultsOn (hFaults.bind _)⟩

end PastEnd

/-! ## The sign of plain `char` -/

section Sign

variable [DpsCbor] {μ : MembersType}

theorem deserializePrim_platform (p p' : Platform) (t : PrimType) (member : MessageMember) :
    @deserializePrim _ p μ t member = @deserializePrim _ p' μ t member := by
  cases μ <;> cases t <;> rfl

theorem deserializeMember_platform (p p' : Platform) (member : MessageMember)
    (deserializeSub : Rx (Message μ)) :
    @deserializeMember _ p μ member deserializeSub =
      @deserializeMember _ p' μ member deserializeSub := by
  unfold deserializeMember
  cases member.typeId.kind with
  | prim t => simp only [deserializePrim_platform p p']
  | string => rfl
  | wstring => rfl
  | message => rfl
  | unknown => rfl

theorem deserializeMembers_platform (p p' : Platform) (members : MessageMembers) :
    (@deserializeMembers _ p μ members) = @deserializeMembers _ p' μ members := by
  induction members with
  | nil => rfl
  | cons member submembers rest ihSub ihRest =>
      simp only [deserializeMembers, deserializeMember_platform p p', ihSub, ihRest]

/-- Reading does not depend on the sign of plain `char`: `operator>>(char &)`
reads an `int8_t` everywhere. -/
theorem TypeSupport.deserializeROSmessage_platform (p p' : Platform) (members : MessageMembers) :
    (@TypeSupport.deserializeROSmessage _ p μ members) =
      @TypeSupport.deserializeROSmessage _ p' μ members := by
  simp only [TypeSupport.deserializeROSmessage, Serialization.deserializeROSmessage,
    deserializeMembers_platform p p']

end Sign

/-! ## Exactly which descriptions are safe -/

section Declared

variable [DpsCbor] [Platform]

/-- Whatever the input, the deserializer reports a failure or delivers a value
within the declared sizes; it never indexes a vector past its end. -/
def DeliversDeclared (μ : MembersType) (members : MessageMembers) : Prop :=
  ∀ data, match (Rx.exec (TypeSupport.deserializeROSmessage members : Rx (Message μ))
      (RxStream.ofBytes data)).1 with
    | .ok msg => members.Bounded msg
    | .error (.runtimeError _) => True
    | .error _ => False

variable [DpsCbor.Lawful]

theorem not_deliversDeclared_of_exceeds {μ : MembersType} {members : MessageMembers}
    (hCounts : members.CountsFit) (hExceeds : members.exceeds = true) :
    ¬ DeliversDeclared μ members := by
  rename_i p _
  obtain ⟨msg, hFits, hLong⟩ := MessageMembers.exists_exceeding (μ := μ) hCounts hExceeds
  have hReads := @TypeSupport.deserializeROSmessage_reads _ _ signedChar μ rfl members msg
    hCounts.memberCount_lt hFits
  rw [TypeSupport.deserializeROSmessage_platform signedChar p] at hReads
  intro hDeclared
  obtain ⟨deser, hRun, -⟩ :=
    hReads (RxStream.ofBytes (@MessageMembers.payload signedChar μ members msg)) []
      (List.append_nil _).symm
  have hBounded := hDeclared (@MessageMembers.payload signedChar μ members msg)
  rw [hRun] at hBounded
  exact hLong hBounded

theorem not_deliversDeclared_of_indexesPastEnd {μ : MembersType} {members : MessageMembers}
    (hCounts : members.CountsFit) (hPast : members.indexesPastEnd μ = true) :
    ¬ DeliversDeclared μ members := by
  rename_i p _
  obtain ⟨bytes, hFaults⟩ := @deserializeMembers_faults _ _ μ signedChar rfl members hCounts hPast
  have hCount := hCounts.memberCount_lt
  have hSome : members.memberCount ≠ 0 := by
    cases members with
    | nil => simp [MessageMembers.indexesPastEnd] at hPast
    | cons member submembers rest => exact Nat.succ_ne_zero _
  have hPublic : FaultsOn (TypeSupport.deserializeROSmessage members : Rx (Message μ))
      (Rfc7049.array members.memberCount ++ bytes) .indexPastEnd := by
    rw [TypeSupport.deserializeROSmessage_platform p signedChar]
    unfold TypeSupport.deserializeROSmessage
    rw [if_pos hSome]
    exact (checkMemberCount_reads (by omega)).bind_faultsOn hFaults
  intro hDeclared
  have hFault := hPublic (RxStream.ofBytes _) [] (List.append_nil _).symm
  have hNever := hDeclared (Rfc7049.array members.memberCount ++ bytes)
  rw [hFault] at hNever
  exact hNever

/-- The deserializer delivers only values of the declared type exactly when no
value of the description can exceed its sizes and no array of strings can be
indexed past the end of its vector. -/
theorem deliversDeclared_iff {μ : MembersType} {members : MessageMembers}
    (hCounts : members.CountsFit) :
    DeliversDeclared μ members ↔
      members.exceeds = false ∧ members.indexesPastEnd μ = false := by
  constructor
  · intro hDeclared
    refine ⟨Bool.eq_false_iff.mpr fun h => ?_, Bool.eq_false_iff.mpr fun h => ?_⟩
    · exact not_deliversDeclared_of_exceeds hCounts h hDeclared
    · exact not_deliversDeclared_of_indexesPastEnd hCounts h hDeclared
  · rintro ⟨hExceeds, hPast⟩ data
    have hEnds : Ends (TypeSupport.deserializeROSmessage members : Rx (Message μ)) _ _ :=
      TypeSupport.deserializeROSmessage_ends
    have hEnd := hEnds (RxStream.ofBytes data)
    revert hEnd
    cases (Rx.exec (TypeSupport.deserializeROSmessage members : Rx (Message μ))
        (RxStream.ofBytes data)).1 with
    | ok msg => exact fun hBounded => hBounded hExceeds
    | error fault =>
        cases fault with
        | runtimeError what => exact id
        | indexPastEnd => exact fun h => absurd h (by simp [hPast])
        | undefinedBehavior => exact id

end Declared

/-- A string and a sequence of octets without bounds, and a fixed-size array of messages,
each with a `double` and a sequence of `u16string`s. -/
def looseMembers : MessageMembers :=
  .cons { typeId := .string } .nil <|
  .cons { typeId := .octet, isArray := true } .nil <|
  .cons { typeId := .message, isArray := true, arraySize := 2 }
    (.cons { typeId := .double } .nil <|
      .cons { typeId := .wstring, isArray := true } .nil .nil)
    .nil

theorem loose_countsFit : looseMembers.CountsFit := by
  simp [looseMembers, MessageMembers.CountsFit, MessageMembers.memberCount]

/-- Without bounds and without arrays of strings of a fixed size nothing can go wrong, in
either package. -/
theorem loose_deliversDeclared :
    @DeliversDeclared rfcCbor signedChar .c looseMembers ∧
      @DeliversDeclared rfcCbor signedChar .cpp looseMembers := by
  let _ := rfcCbor
  let _ := rfcCbor_lawful
  let _ := signedChar
  exact ⟨(deliversDeclared_iff loose_countsFit).mpr ⟨by decide, by decide⟩,
    (deliversDeclared_iff loose_countsFit).mpr ⟨by decide, by decide⟩⟩

/-- An array of two strings. -/
def pairMembers : MessageMembers :=
  .cons { typeId := .string, isArray := true, arraySize := 2 } .nil .nil

/-- A payload with one string where the description says two makes the C
deserializer read past the end of its vector. -/
theorem pair_not_deliversDeclared :
    ¬ @DeliversDeclared rfcCbor signedChar .c pairMembers := by
  let _ := rfcCbor
  let _ := signedChar
  intro hDeclared
  have hNever := hDeclared [0x81, 0x81, 0x61, 0x61]
  have hFault : (Rx.exec (TypeSupport.deserializeROSmessage pairMembers : Rx (Message .c))
      (RxStream.ofBytes [0x81, 0x81, 0x61, 0x61])).1 = .error .indexPastEnd := rfl
  rw [hFault] at hNever
  exact hNever

end Serialization
end RmwDps
