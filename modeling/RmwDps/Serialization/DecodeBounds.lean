import RmwDps.Serialization.RoundTrip

/-!
# What the decoder delivers on arbitrary input

A description decides whether hostile input can make the decoder deliver a
value outside the declared sizes, or index a temporary vector past its end:
`MessageMembers.exceeds` and `MessageMembers.indexesPastEnd` compute it, and
`deliversDeclared_iff` says that they are exact.

The checks that are there are the counts of fixed-size arrays.  No path checks
the bound of a sequence or of a string, and the C path for arrays of strings
trusts that the vector it decoded has as many elements as the array.
-/

namespace RmwDps
namespace Serialization

/-! ## What a description allows -/

/-- `member_count_` is a `uint32_t`, at every level. -/
def MessageMembers.CountsFit : MessageMembers → Prop
  | .nil => True
  | .cons _ submembers rest =>
      rest.memberCount + 1 < 2 ^ 32 ∧ submembers.CountsFit ∧ rest.CountsFit

/-- Some input decodes as the member, given whether some input decodes as the
nested message. -/
def MessageMember.decodable (member : MessageMember) (sub : Bool) : Bool :=
  match member.typeId.kind with
  | .prim _ | .string | .wstring => true
  | .message => (member.isArray && !member.isFixedArray) || sub
  | .unknown => false

/-- A count below `limit` can exceed the bound of the sequence. -/
def MessageMember.countExceeds (member : MessageMember) (limit : Nat) : Bool :=
  member.isArray && member.isUpperBound && decide (member.arraySize.toNat + 1 < limit)

/-- A string can exceed the bound of its type. -/
def MessageMember.stringExceeds (member : MessageMember) : Bool :=
  member.stringUpperBound ≠ 0 && decide (member.stringUpperBound.toNat + 1 < 2 ^ 64)

/-- Some input decodes as a value of the member outside its declared sizes. -/
def MessageMember.exceeds (member : MessageMember) (subDecodable subExceeds : Bool) : Bool :=
  match member.typeId.kind with
  | .prim _ => member.countExceeds (2 ^ 64)
  | .string | .wstring => member.countExceeds (2 ^ 64) || member.stringExceeds
  | .message => (member.countExceeds (2 ^ 32) && subDecodable) || subExceeds
  | .unknown => false

/-- Some input makes the decoder of the member index a vector past its end. -/
def MessageMember.indexesPastEnd (μ : MembersType) (member : MessageMember) (sub : Bool) : Bool :=
  match member.typeId.kind with
  | .string | .wstring => decide (μ = .c) && member.isArray && member.isFixedArray
  | .message => sub
  | .prim _ | .unknown => false

def MessageMembers.decodable : MessageMembers → Bool
  | .nil => true
  | .cons member submembers rest => member.decodable submembers.decodable && rest.decodable

/-- A value outside the declared sizes is delivered when one member exceeds them
and all of the others decode. -/
def MessageMembers.exceeds : MessageMembers → Bool
  | .nil => false
  | .cons member submembers rest =>
      (member.exceeds submembers.decodable submembers.exceeds && rest.decodable) ||
        (member.decodable submembers.decodable && rest.exceeds)

/-- A member that indexes past the end is reached when the members in front of
it decode. -/
def MessageMembers.indexesPastEnd (μ : MembersType) : MessageMembers → Bool
  | .nil => false
  | .cons member submembers rest =>
      member.indexesPastEnd μ (submembers.indexesPastEnd μ) ||
        (member.decodable submembers.decodable && rest.indexesPastEnd μ)

theorem MessageMembers.CountsFit.memberCount_lt {members : MessageMembers}
    (hCounts : members.CountsFit) : members.memberCount < 2 ^ 32 := by
  cases members with
  | nil => decide
  | cons member submembers rest => exact hCounts.1

theorem MessageMember.arraySize_pos {member : MessageMember}
    (hFixed : member.isFixedArray = true) : 0 < member.arraySize.toNat := by
  simp only [isFixedArray, Bool.and_eq_true, decide_eq_true_eq] at hFixed
  refine Nat.pos_of_ne_zero fun hZero => hFixed.1 ?_
  rw [← UInt64.toNat_inj, hZero, UInt64.toNat_zero]

theorem MessageMember.not_isFixedArray_of_isUpperBound {member : MessageMember}
    (hUpper : member.isUpperBound = true) : member.isFixedArray = false := by
  simp [isFixedArray, hUpper]

/-! ## Elements -/

/-- What the readers of an element type deliver on arbitrary input. -/
structure StreamOps.Delivers {T : Type} (ops : StreamOps T) (Element : T → Prop) : Prop where
  get : Ends ops.get Element False
  decodeSequence : ∀ size, Ends (ops.decodeSequence size)
    (fun xs => xs.length = size ∧ ∀ x ∈ xs, Element x) False
  getVector : Ends ops.getVector (fun xs => xs.length < 2 ^ 64 ∧ ∀ x ∈ xs, Element x) False

section Elements

variable [DpsCbor]

theorem getArrayHead_ends (what : String) : Ends (getArrayHead what) (· < 2 ^ 64) False :=
  (Ends.read (Q := fun _ => True) what fun _ _ _ _ => trivial).bind
    fun size _ => Ends.pure size.toNat_lt

theorem getVector_ends {T : Type} {get : Rx T} {Element : T → Prop} (what : String)
    (hGet : Ends get Element False) :
    Ends (getVector get what) (fun xs => xs.length < 2 ^ 64 ∧ ∀ x ∈ xs, Element x) False := by
  refine Ends.unreadLength fun unread => ?_
  refine (getArrayHead_ends what).bind fun size hSize => Ends.resize ?_
  refine (hGet.readEach size).mono (fun xs hItems => ?_) id
  exact ⟨hItems.1 ▸ hSize, hItems.2⟩

theorem decodeSequence_ends {T : Type} {get : Rx T} {Element : T → Prop}
    (hGet : Ends get Element False) (size : Nat) :
    Ends (decodeSequence get size) (fun xs => xs.length = size ∧ ∀ x ∈ xs, Element x) False := by
  refine (getArrayHead_ends _).bind fun size' _ => ?_
  split
  · exact (Ends.runtimeError (Q := fun _ => True) _).bind fun _ _ => hGet.readEach size
  · exact hGet.readEach size

theorem StreamOps.ofScalar_delivers {T : Type} {put : T → Tx Unit} {get : Rx T}
    {Element : T → Prop} (hGet : Ends get Element False) :
    (StreamOps.ofScalar put get).Delivers Element where
  get := hGet
  decodeSequence := decodeSequence_ends hGet
  getVector := getVector_ends _ hGet

theorem deserializeSequenceSize_ends : Ends deserializeSequenceSize (· < 2 ^ 64) False := by
  intro deser
  rw [RxStream.exec_deserializeSequenceSize]
  cases DpsCbor.peek deser.unread with
  | none => trivial
  | some head =>
      by_cases hMaj : head.1 ≠ Rfc7049.majorArray ∧ head.1 ≠ Rfc7049.majorBytes
      · simp only [if_pos hMaj]
      · simpa only [if_neg hMaj] using head.2.toNat_lt

variable [DpsCbor.Lawful]

theorem stringOps_delivers : stringOps.Delivers Sized :=
  StreamOps.ofScalar_delivers <| Ends.unreadLength fun _ =>
    (Ends.read _ DpsCbor.Lawful.decodeString_size).bind fun _ hSized =>
      Ends.resize (Ends.pure hSized)

theorem getVectorUint8_ends :
    Ends getVectorUint8 (fun xs => xs.length < 2 ^ 64 ∧ ∀ x ∈ xs, True) False :=
  Ends.unreadLength fun _ =>
    (Ends.read _ DpsCbor.Lawful.decodeBytes_size).bind fun _ hSized =>
      Ends.resize (Ends.pure ⟨hSized, fun _ _ => trivial⟩)

omit [DpsCbor.Lawful]

theorem getChar16_ends : Ends getChar16 (fun _ => True) False :=
  Ends.read _ fun _ _ _ _ => trivial

theorem u16stringOps_delivers : u16stringOps.Delivers Sized :=
  StreamOps.ofScalar_delivers <|
    (getVector_ends _ getChar16_ends).mono (fun _ hItems => hItems.1) id

theorem decodeSequenceUint8_ends (size : Nat) :
    Ends (decodeSequenceUint8 size) (fun xs => xs.length = size ∧ ∀ x ∈ xs, True) False := by
  refine (Ends.read (Q := fun _ => True) _ fun _ _ _ _ => trivial).bind fun items _ => ?_
  by_cases hSize : items.length = size
  · simp only [hSize, ne_eq, not_true_eq_false, if_false]
    exact Ends.pure ⟨hSize, fun _ _ => trivial⟩
  · simp only [hSize, ne_eq, not_false_eq_true, if_true]
    exact (Ends.runtimeError (Q := fun _ => False) _).bind fun _ hNever => hNever.elim

theorem PrimType.ops_delivers [DpsCbor.Lawful] [Platform] (t : PrimType) :
    t.ops.Delivers fun _ => True := by
  have hRead : ∀ {T : Type} (decode : List UInt8 → Option (T × List UInt8)) (what : String),
      Ends (RxStream.read decode what) (fun _ => True) False :=
    fun _ what => Ends.read what fun _ _ _ _ => trivial
  cases t with
  | bool =>
      exact ⟨hRead _ _, decodeSequence_ends (hRead _ _), getVector_ends _ (hRead _ _)⟩
  | uint8 => exact ⟨hRead _ _, decodeSequenceUint8_ends, getVectorUint8_ends⟩
  | char =>
      exact StreamOps.ofScalar_delivers ((hRead _ _).bind fun _ _ => Ends.pure trivial)
  | float => exact StreamOps.ofScalar_delivers (hRead _ _)
  | double => exact StreamOps.ofScalar_delivers (hRead _ _)
  | int16 => exact StreamOps.ofScalar_delivers (hRead _ _)
  | uint16 => exact StreamOps.ofScalar_delivers (hRead _ _)
  | int32 => exact StreamOps.ofScalar_delivers (hRead _ _)
  | uint32 => exact StreamOps.ofScalar_delivers (hRead _ _)
  | int64 => exact StreamOps.ofScalar_delivers (hRead _ _)
  | uint64 => exact StreamOps.ofScalar_delivers (hRead _ _)

end Elements

/-! ## Fields -/

section Fields

variable {T : Type} {ops : StreamOps T} {Element : T → Prop} {member : MessageMember}

theorem FieldMem.one_fits (hArray : ¬ (member.isArray = true)) (x : T) :
    (FieldMem.one x).Fits member := by
  simpa [FieldMem.Fits] using hArray

/-- A field of the right shape keeps its declared length when no count can
exceed it. -/
theorem FieldMem.bounded_of_fits {elementOk : T → Prop} {field : FieldMem T}
    (hFits : field.Fits member) (hCount : member.countExceeds (2 ^ 64) = false)
    (hItems : ∀ x ∈ field.items, elementOk x) : field.Bounded member elementOk := by
  cases field with
  | one x => exact hItems x List.mem_cons_self
  | many xs =>
      obtain ⟨hArray, hLength, hFixed⟩ := hFits
      refine ⟨⟨hFixed, fun hUpper => ?_⟩, hItems⟩
      simp only [MessageMember.countExceeds, hArray, hUpper, Bool.true_and,
        decide_eq_false_iff_not] at hCount
      omega

theorem Cpp.deserializeField_ends (hOps : ops.Delivers Element) :
    Ends (Cpp.deserializeField ops member)
      (fun field => field.Fits member ∧ ∀ x ∈ field.items, Element x) False := by
  unfold Cpp.deserializeField
  by_cases hArray : member.isArray = true
  · simp only [hArray, Bool.not_true, Bool.false_eq_true, if_false]
    split
    · next hFixed =>
        refine (hOps.decodeSequence _).bind fun xs hItems => Ends.pure ⟨?_, hItems.2⟩
        exact ⟨hArray, hItems.1 ▸ member.arraySize.toNat_lt, fun _ => hItems.1⟩
    · next hFixed =>
        refine hOps.getVector.bind fun xs hItems => Ends.pure ⟨?_, hItems.2⟩
        exact ⟨hArray, hItems.1, fun hIsFixed => absurd hIsFixed hFixed⟩
  · simp only [hArray, Bool.not_false, if_true]
    refine hOps.get.bind fun x hItem => Ends.pure ⟨FieldMem.one_fits hArray x, ?_⟩
    simpa [FieldMem.items] using hItem

theorem C.deserializeField_ends [DpsCbor] (hOps : ops.Delivers Element) :
    Ends (C.deserializeField ops member)
      (fun field => field.Fits member ∧ ∀ x ∈ field.items, Element x) False := by
  unfold C.deserializeField
  by_cases hArray : member.isArray = true
  · simp only [hArray, Bool.not_true, Bool.false_eq_true, if_false]
    split
    · next hFixed =>
        refine (hOps.decodeSequence _).bind fun xs hItems => Ends.pure ⟨?_, hItems.2⟩
        exact ⟨hArray, hItems.1 ▸ member.arraySize.toNat_lt, fun _ => hItems.1⟩
    · next hFixed =>
        refine Ends.unreadLength fun unread => ?_
        refine deserializeSequenceSize_ends.bind fun dsize hSize => Ends.resize ?_
        refine (hOps.decodeSequence _).bind fun xs hItems => Ends.pure ⟨?_, hItems.2⟩
        exact ⟨hArray, hItems.1 ▸ hSize, fun hIsFixed => absurd hIsFixed hFixed⟩
  · simp only [hArray, Bool.not_false, if_true]
    refine hOps.get.bind fun x hItem => Ends.pure ⟨FieldMem.one_fits hArray x, ?_⟩
    simpa [FieldMem.items] using hItem

end Fields

section CStrings

variable {U : Type} [Zero U] [DecidableEq U] {ops : StreamOps (List U)} {member : MessageMember}

/-- A string assigned to a C field can only get shorter. -/
theorem C.content_assign_sized {value : List U} (hSized : Sized value) :
    Sized (MembersType.content .c (C.assign value)) :=
  Nat.lt_of_le_of_lt (List.takeWhile_prefix _).length_le hSized

theorem C.assignEach_ends {values : List (List U)} (hSized : ∀ value ∈ values, Sized value) :
    ∀ count, Ends (C.assignEach count values)
      (fun ss => ss.length = count ∧ ∀ s ∈ ss, Sized (MembersType.content .c s)) True := by
  induction values with
  | nil =>
      intro count
      cases count with
      | zero => exact Ends.pure ⟨rfl, by simp⟩
      | succ count => exact fun _ => trivial
  | cons value values ih =>
      intro count
      cases count with
      | zero => exact Ends.pure ⟨rfl, by simp⟩
      | succ count =>
          have hValue := C.content_assign_sized (hSized value List.mem_cons_self)
          have hRest := ih (fun v hv => hSized v (List.mem_cons_of_mem value hv)) count
          refine hRest.bind fun ss hItems => Ends.pure ⟨?_, ?_⟩
          · rw [List.length_cons, hItems.1]
          · exact List.forall_mem_cons.mpr ⟨hValue, hItems.2⟩

/-- The one place where a vector may be shorter than the array it is copied to. -/
theorem C.deserializeFieldOfString_ends (hOps : ops.Delivers Sized) :
    Ends (C.deserializeFieldOfString ops member)
      (fun field => field.Fits member ∧
        ∀ s ∈ field.items, Sized (MembersType.content .c s))
      (member.isArray = true ∧ member.isFixedArray = true) := by
  unfold C.deserializeFieldOfString
  by_cases hArray : member.isArray = true
  · simp only [hArray, Bool.not_true, Bool.false_eq_true, if_false]
    refine Ends.unreadLength fun unread => ?_
    refine (hOps.getVector.mono (fun _ => id) False.elim).bind fun values hValues => ?_
    split
    · next hFixed =>
        -- The loop runs to `array_size_`, whatever the length of the vector.
        have hAssign := C.assignEach_ends hValues.2 member.arraySize.toNat
        refine (hAssign.mono (fun _ => id) fun _ => ⟨trivial, hFixed⟩).bind fun ss hItems => ?_
        refine Ends.pure ⟨⟨hArray, ?_, fun _ => hItems.1⟩, hItems.2⟩
        exact hItems.1 ▸ member.arraySize.toNat_lt
    · next hFixed =>
        refine Ends.resize (Ends.pure ⟨⟨hArray, ?_, fun hIsFixed => absurd hIsFixed hFixed⟩, ?_⟩)
        · simpa using hValues.1
        · intro s hs
          obtain ⟨value, hMem, rfl⟩ := List.mem_map.mp hs
          exact C.content_assign_sized (hValues.2 value hMem)
  · simp only [hArray, Bool.not_false, if_true]
    refine (hOps.get.mono (fun _ => id) False.elim).bind fun value hSized => ?_
    refine Ends.pure ⟨FieldMem.one_fits hArray _, ?_⟩
    simpa [FieldMem.items] using C.content_assign_sized hSized

end CStrings

/-! ## Members -/

theorem MessageMember.stringOk_of_sized {member : MessageMember}
    (hString : member.stringExceeds = false) {length : Nat}
    (hSized : length < 2 ^ 64) : member.StringOk length := by
  intro hBound
  simp only [stringExceeds, Bool.and_eq_false_iff, decide_eq_false_iff_not] at hString
  rcases hString with hUnbounded | hWidest
  · exact absurd hBound hUnbounded
  · omega

/-- A string field keeps its bounds when neither a count nor a string can exceed
them. -/
theorem FieldMem.bounded_of_sized {μ : MembersType} {member : MessageMember} {U : Type}
    {field : FieldMem (μ.Str U)}
    (hFits : field.Fits member) (hSized : ∀ s ∈ field.items, Sized (μ.content s))
    (hExceeds : (member.countExceeds (2 ^ 64) || member.stringExceeds) = false) :
    field.Bounded member fun s => member.StringOk (μ.content s).length := by
  rw [Bool.or_eq_false_iff] at hExceeds
  exact FieldMem.bounded_of_fits hFits hExceeds.1 fun s hs =>
    MessageMember.stringOk_of_sized hExceeds.2 (hSized s hs)

section Members

variable [DpsCbor] [DpsCbor.Lawful] {μ : MembersType} {member : MessageMember}

theorem deserializePrim_ends [Platform] {t : PrimType} :
    Ends (deserializePrim μ t member)
      (fun field => field.Fits member ∧ ∀ x ∈ field.items, True) False := by
  cases μ with
  | cpp => exact Cpp.deserializeField_ends t.ops_delivers
  | c => exact C.deserializeField_ends t.ops_delivers

theorem deserializeString_ends :
    Ends (deserializeString μ member)
      (fun field => field.Fits member ∧ ∀ s ∈ field.items, Sized (μ.content s))
      (μ = .c ∧ member.isArray = true ∧ member.isFixedArray = true) := by
  cases μ with
  | cpp => exact (Cpp.deserializeField_ends stringOps_delivers).mono (fun _ => id) False.elim
  | c =>
      exact (C.deserializeFieldOfString_ends stringOps_delivers).mono (fun _ => id)
        fun h => ⟨rfl, h⟩

omit [DpsCbor.Lawful] in
theorem deserializeWstring_ends :
    Ends (deserializeWstring μ member)
      (fun field => field.Fits member ∧ ∀ s ∈ field.items, Sized (μ.content s))
      (μ = .c ∧ member.isArray = true ∧ member.isFixedArray = true) := by
  cases μ with
  | cpp => exact (Cpp.deserializeField_ends u16stringOps_delivers).mono (fun _ => id) False.elim
  | c =>
      exact (C.deserializeFieldOfString_ends u16stringOps_delivers).mono (fun _ => id)
        fun h => ⟨rfl, h⟩

omit [DpsCbor.Lawful] in
/-- The number of nested messages comes from the description or is a `uint32_t`. -/
theorem getSubmessageSequenceDeserialize_ends :
    Ends (getSubmessageSequenceDeserialize member)
      (fun count => (member.isFixedArray = true → count = member.arraySize.toNat) ∧
        (member.isFixedArray = false → count < 2 ^ 32)) False := by
  unfold getSubmessageSequenceDeserialize
  by_cases hFixed : member.isFixedArray = true
  · simp only [hFixed, if_true]
    exact Ends.pure (by simp)
  · simp only [hFixed, Bool.false_eq_true, if_false]
    refine Ends.unreadLength fun unread => ?_
    refine (Ends.read (Q := fun _ => True) _ fun _ _ _ _ => trivial).bind fun size _ => ?_
    exact Ends.resize (Ends.pure ⟨fun h => absurd h (by simp), fun _ => size.toNat_lt⟩)

/-- What a message reader delivers, given the predictions of the description. -/
def DeliversWithin (decodable exceeds : Bool) (Bounded : Message μ → Prop)
    (msg : Message μ) : Prop :=
  decodable = true ∧ (exceeds = false → Bounded msg)

omit [DpsCbor.Lawful] in
theorem deserializeMessage_ends {deserializeSub : Rx (Message μ)}
    {subDecodable subExceeds : Bool} {subPastEnd : Prop} {SubBounded : Message μ → Prop}
    (hKind : member.typeId.kind = .message)
    (hSub : Ends deserializeSub (DeliversWithin subDecodable subExceeds SubBounded) subPastEnd) :
    Ends (deserializeMessage member deserializeSub)
      (fun value => member.decodable subDecodable = true ∧
        (member.exceeds subDecodable subExceeds = false → value.Bounded member SubBounded))
      subPastEnd := by
  simp only [MessageMember.decodable, MessageMember.exceeds, hKind]
  unfold deserializeMessage
  by_cases hArray : member.isArray = true
  · simp only [hArray, Bool.not_true, Bool.false_eq_true, if_false, Bool.true_and]
    refine (getSubmessageSequenceDeserialize_ends.mono (fun _ => id) False.elim).bind
      fun count hCount => ?_
    refine (hSub.readEach count).bind fun msgs hMsgs => Ends.pure ⟨?_, fun hExceeds => ?_⟩
    · by_cases hFixed : member.isFixedArray = true
      · -- a fixed-size array is not empty, so an element was decoded
        have hSome : msgs ≠ [] := by
          intro hNone
          have hLength := hMsgs.1
          have hPos := MessageMember.arraySize_pos hFixed
          rw [hNone, List.length_nil, hCount.1 hFixed] at hLength
          omega
        obtain ⟨msg, hMem⟩ := List.exists_mem_of_ne_nil msgs hSome
        simp [(hMsgs.2 msg hMem).1]
      · simp [hFixed]
    · rw [Bool.or_eq_false_iff] at hExceeds
      refine ⟨⟨fun hFixed => hMsgs.1.trans (hCount.1 hFixed), fun hUpper => ?_⟩,
        fun msg hMem => (hMsgs.2 msg hMem).2 hExceeds.2⟩
      have hFixed := MessageMember.not_isFixedArray_of_isUpperBound hUpper
      have hLength := hCount.2 hFixed
      by_cases hNone : msgs = []
      · simp [hNone]
      · obtain ⟨msg, hMem⟩ := List.exists_mem_of_ne_nil msgs hNone
        -- With an element decoded the bound does not exceed, so no count can be above it.
        have hWide : ¬ (member.arraySize.toNat + 1 < 2 ^ 32) := by
          simpa [MessageMember.countExceeds, hArray, hUpper, (hMsgs.2 msg hMem).1] using
            hExceeds.1
        have hCounted := hMsgs.1
        omega
  · simp only [hArray, Bool.not_false, if_true, Bool.false_and, Bool.false_or]
    refine hSub.bind fun msg hMsg => Ends.pure ⟨hMsg.1, fun hExceeds => hMsg.2 ?_⟩
    exact (Bool.or_eq_false_iff.mp hExceeds).2

theorem deserializeMember_ends [Platform] {deserializeSub : Rx (Message μ)}
    {subDecodable subExceeds subPastEnd : Bool} {SubBounded : Message μ → Prop}
    (hSub : Ends deserializeSub (DeliversWithin subDecodable subExceeds SubBounded)
      (subPastEnd = true)) :
    Ends (deserializeMember member deserializeSub)
      (fun value => member.decodable subDecodable = true ∧
        (member.exceeds subDecodable subExceeds = false → value.Bounded member SubBounded))
      (member.indexesPastEnd μ subPastEnd = true) := by
  unfold deserializeMember
  cases hKind : member.typeId.kind with
  | prim t =>
      refine (deserializePrim_ends.mono (fun _ => id) False.elim).bind fun field hField => ?_
      refine Ends.pure ⟨by simp [MessageMember.decodable, hKind], fun hExceeds => ?_⟩
      simp only [MessageMember.exceeds, hKind] at hExceeds
      exact FieldMem.bounded_of_fits hField.1 hExceeds fun _ _ => trivial
  | string =>
      refine (deserializeString_ends.mono (fun _ => id) fun hPast => ?_).bind
        fun field hField => ?_
      · simpa [MessageMember.indexesPastEnd, hKind, and_assoc] using hPast
      · refine Ends.pure ⟨by simp [MessageMember.decodable, hKind], fun hExceeds => ?_⟩
        simp only [MessageMember.exceeds, hKind] at hExceeds
        exact FieldMem.bounded_of_sized hField.1 hField.2 hExceeds
  | wstring =>
      refine (deserializeWstring_ends.mono (fun _ => id) fun hPast => ?_).bind
        fun field hField => ?_
      · simpa [MessageMember.indexesPastEnd, hKind, and_assoc] using hPast
      · refine Ends.pure ⟨by simp [MessageMember.decodable, hKind], fun hExceeds => ?_⟩
        simp only [MessageMember.exceeds, hKind] at hExceeds
        exact FieldMem.bounded_of_sized hField.1 hField.2 hExceeds
  | message =>
      refine (deserializeMessage_ends hKind hSub).mono (fun _ => id) fun hPast => ?_
      simpa only [MessageMember.indexesPastEnd, hKind] using hPast
  | unknown => exact Ends.runtimeError _

end Members

/-! ## Messages -/

section Messages

variable [DpsCbor] [DpsCbor.Lawful] [Platform] {μ : MembersType}

omit [DpsCbor.Lawful] [Platform] in
theorem checkMemberCount_ends (count : Nat) :
    Ends (checkMemberCount count) (fun _ => True) False := by
  refine (getArrayHead_ends _).bind fun memberCount _ => ?_
  split
  · exact Ends.runtimeError _
  · exact Ends.pure trivial

/-- The predictions hold for the walk over the members. -/
theorem deserializeMembers_ends {members : MessageMembers} :
    Ends (deserializeMembers members : Rx (Message μ))
      (DeliversWithin members.decodable members.exceeds members.Bounded)
      (members.indexesPastEnd μ = true) := by
  induction members with
  | nil => exact Ends.pure ⟨rfl, fun _ => trivial⟩
  | cons member submembers rest ihSub ihRest =>
      have hSub : Ends (do checkMemberCount submembers.memberCount; deserializeMembers submembers)
          (DeliversWithin submembers.decodable submembers.exceeds submembers.Bounded)
          (submembers.indexesPastEnd μ = true) :=
        ((checkMemberCount_ends _).mono (fun _ => id) False.elim).bind fun _ _ => ihSub
      have hPast : member.indexesPastEnd μ (submembers.indexesPastEnd μ) = true →
          (MessageMembers.cons member submembers rest).indexesPastEnd μ = true :=
        fun h => by simp [MessageMembers.indexesPastEnd, h]
      refine ((deserializeMember_ends hSub).mono (fun _ => id) hPast).bind fun value hValue => ?_
      -- The walk comes here only after it has decoded the member in front.
      have hPast' : rest.indexesPastEnd μ = true →
          (MessageMembers.cons member submembers rest).indexesPastEnd μ = true :=
        fun h => by simp [MessageMembers.indexesPastEnd, h, hValue.1]
      refine (ihRest.mono (fun _ => id) hPast').bind fun values hValues => Ends.pure ⟨?_, ?_⟩
      · simp [MessageMembers.decodable, hValue.1, hValues.1]
      · intro hExceeds
        simp only [MessageMembers.exceeds, hValue.1, hValues.1, Bool.and_true, Bool.true_and,
          Bool.or_eq_false_iff] at hExceeds
        exact ⟨hValue.2 hExceeds.1, hValues.2 hExceeds.2⟩

/-- The public deserializer on any input: what it delivers keeps the declared
sizes unless the description says otherwise. -/
theorem TypeSupport.deserializeROSmessage_ends {members : MessageMembers} :
    Ends (TypeSupport.deserializeROSmessage members : Rx (Message μ))
      (fun msg => members.exceeds = false → members.Bounded msg)
      (members.indexesPastEnd μ = true) := by
  unfold TypeSupport.deserializeROSmessage
  split
  · refine ((checkMemberCount_ends _).mono (fun _ => id) False.elim).bind fun _ _ => ?_
    exact deserializeMembers_ends.mono (fun _ hMsg => hMsg.2) id
  · next hEmpty =>
      cases members with
      | nil =>
          exact (Ends.read (Q := fun _ => True) _ fun _ _ _ _ => trivial).bind
            fun _ _ => Ends.pure fun _ => trivial
      | cons member submembers rest => simp [MessageMembers.memberCount] at hEmpty

end Messages

end Serialization
end RmwDps
