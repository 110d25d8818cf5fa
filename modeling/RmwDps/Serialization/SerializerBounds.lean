import RmwDps.Serialization.BufferGrowth
import RmwDps.Serialization.HostileInput

/-!
# Which bounds the serializer enforces

The serializer tests a length in two places: the scalar string of a C message, which
may be one unit longer than its bound, and a sequence of sub-messages.  Nothing else
is tested, neither the strings of a C++ message, nor the strings of an array or of a
sequence, nor the length of a sequence of primitives or of strings.

A description decides whether this matters: `MessageMembers.overruns` computes whether
one of its members can break a bound of its own while all the others are written.  A
member of an unknown type keeps everything around it from being written.

Values here have the types of their description and nothing more: a C string may hold a
zero or, outside an array, have null data.
-/

namespace RmwDps
namespace Serialization

/-! ## Writers that refuse -/

/-- The writer throws if `refused`, and otherwise always writes the same bytes. -/
def RefusesExactly (refused : Prop) (op : Tx Unit) : Prop :=
  ∃ bytes, WritesUnless refused op bytes

section RefusesExactly

variable {refused refused' : Prop} {op op' : Tx Unit}

theorem Produces.refusesExactly (hOp : Produces op) : RefusesExactly False op := by
  obtain ⟨bytes, hWrites⟩ := hOp
  exact ⟨bytes, hWrites.unless⟩

theorem TxFaults.refusesExactly (hOp : TxFaults op) (hRefused : refused) :
    RefusesExactly refused op :=
  ⟨[], fun hFine => absurd hRefused hFine, fun _ => hOp⟩

theorem RefusesExactly.congr (hOp : RefusesExactly refused op) (hIff : refused' ↔ refused) :
    RefusesExactly refused' op := by
  obtain ⟨bytes, hWrites⟩ := hOp
  exact ⟨bytes, hWrites.congr hIff⟩

theorem RefusesExactly.bind (hOp : RefusesExactly refused op)
    (hOp' : RefusesExactly refused' op') : RefusesExactly (refused ∨ refused') (do op; op') := by
  obtain ⟨front, hFront⟩ := hOp
  obtain ⟨back, hBack⟩ := hOp'
  exact ⟨front ++ back, hFront.bind hBack⟩

theorem RefusesExactly.forM {T : Type} {put : T → Tx Unit} {refusedItem : T → Prop}
    {items : List T} (hPut : ∀ x ∈ items, RefusesExactly (refusedItem x) (put x)) :
    RefusesExactly (∃ x ∈ items, refusedItem x) (items.forM put) := by
  choose! item hItem using hPut
  have hLoop := Writes.pure.unless.forM items hItem
  exact ⟨_, by simpa only [pure_bind, false_or] using hLoop⟩

/-- A test in front of a writer. -/
theorem RefusesExactly.unless {c : Prop} [Decidable c] {faulty : Tx Unit}
    (hFaulty : TxFaults faulty) (hOp : RefusesExactly refused op) :
    RefusesExactly (c ∨ refused) (if c then faulty else op) := by
  by_cases h : c
  · rw [if_pos h]
    exact hFaulty.refusesExactly (.inl h)
  · rw [if_neg h]
    exact hOp.congr (or_iff_right h)

end RefusesExactly

/-! ## Values of the described types -/

/-- The `data` of a C string is not null. -/
def MembersType.HasData {U : Type} : (μ : MembersType) → μ.Str U → Prop
  | .cpp, _ => True
  | .c, s => s.data ≠ none

/-- The strings of a field can be converted.  Null data is taken for the empty string,
except in an array, where the behavior of `std::string(nullptr)` is undefined. -/
def FieldMem.Readable {μ : MembersType} {U : Type} : FieldMem (μ.Str U) → Prop
  | .one s => (μ.content s).length < 2 ^ 64
  | .many ss => ∀ s ∈ ss, μ.HasData s ∧ (μ.content s).length < 2 ^ 64

/-- The value has the type of its member, given what that means for a nested
message. -/
def Value.Typed {μ : MembersType} (member : MessageMember) (sub : Message μ → Prop) :
    Value μ → Prop
  | .prim t field => member.typeId.kind = .prim t ∧ field.Fits member
  | .string field => member.typeId.kind = .string ∧ field.Fits member ∧ field.Readable
  | .wstring field => member.typeId.kind = .wstring ∧ field.Fits member ∧ field.Readable
  | .message msg => member.typeId.kind = .message ∧ member.isArray = false ∧ sub msg
  | .messages msgs => member.typeId.kind = .message ∧ member.isArray = true ∧
      (member.isFixedArray = true → msgs.length = member.arraySize.toNat) ∧
      ∀ msg ∈ msgs, sub msg

/-- The memory is that of a message of the description.  Of a member of an unknown
type nothing is said. -/
def MessageMembers.Typed {μ : MembersType} : MessageMembers → Message μ → Prop
  | .nil, [] => True
  | .cons member submembers rest, value :: values =>
      (member.typeId.kind = .unknown ∨ value.Typed member (fun msg => submembers.Typed msg)) ∧
        rest.Typed values
  | _, _ => False

/-! ## Which values are refused -/

section Refuses

variable {T : Type} {μ : MembersType} {member : MessageMember}

theorem Cpp.serializeField_produces {ops : StreamOps T} (hOps : ops.Produces) {field : FieldMem T}
    (hFits : field.Fits member) : Produces (Cpp.serializeField ops member field) := by
  cases field with
  | one x =>
      have hScalar : member.isArray = false := hFits
      simpa [Cpp.serializeField, hScalar] using hOps.put x
  | many xs =>
      obtain ⟨hArray, -, hFixed⟩ := hFits
      by_cases hIsFixed : member.isFixedArray = true
      · simpa [Cpp.serializeField, hArray, hIsFixed, hFixed hIsFixed] using hOps.encodeSequence xs
      · simpa [Cpp.serializeField, hArray, hIsFixed] using hOps.putVector xs

theorem C.serializeField_produces {ops : StreamOps T} (hOps : ops.Produces) {field : FieldMem T}
    (hFits : field.Fits member) : Produces (C.serializeField ops member field) := by
  cases field with
  | one x =>
      have hScalar : member.isArray = false := hFits
      simpa [C.serializeField, hScalar] using hOps.put x
  | many xs =>
      obtain ⟨hArray, -, hFixed⟩ := hFits
      by_cases hIsFixed : member.isFixedArray = true
      · simpa [C.serializeField, hArray, hIsFixed, hFixed hIsFixed] using hOps.encodeSequence xs
      · simpa [C.serializeField, hArray, hIsFixed] using hOps.encodeSequence xs

/-- The elements of an array are converted in turn, up to the first with null data. -/
theorem C.mapM_convertRefToStdString_refuses {U : Type} [Zero U] [DecidableEq U]
    {next : List (List U) → Tx Unit} (hNext : ∀ strs, Produces (next strs))
    (ss : List (RosidlString U)) :
    RefusesExactly (∃ s ∈ ss, s.data = none) (ss.mapM C.convertRefToStdString >>= next) := by
  induction ss generalizing next with
  | nil => exact (hNext []).refusesExactly.congr (by simp)
  | cons s ss ih =>
      obtain ⟨data⟩ := s
      rw [List.mapM_cons]
      cases data with
      | none =>
          have hFaults : TxFaults (C.convertRefToStdString (⟨none⟩ : RosidlString U)) :=
            TxFaults.throw _
          rw [bind_assoc]
          exact (hFaults.bind _).refusesExactly ⟨⟨none⟩, List.mem_cons_self, rfl⟩
      | some units =>
          have hTail := ih fun strs => hNext (units.takeWhile (· ≠ 0) :: strs)
          simpa [C.convertRefToStdString] using hTail

theorem C.serializeFieldOfString_refuses {U : Type} [Zero U] [DecidableEq U]
    {ops : StreamOps (List U)} (hOps : ops.Produces) {field : FieldMem (RosidlString U)}
    (hFits : field.Fits member) :
    RefusesExactly (C.RefusesField member field) (C.serializeFieldOfString ops member field) := by
  cases field with
  | one s =>
      have hScalar : member.isArray = false := hFits
      simp only [C.serializeFieldOfString, hScalar, Bool.false_eq_true, if_false]
      have hTest := (hOps.put (C.convertToStdString s)).refusesExactly.unless
        (c := member.stringUpperBound ≠ 0 ∧
          (member.stringUpperBound + 1).toNat < (C.convertToStdString s).length)
        ((TxFaults.throw (.runtimeError "string overcomes the maximum length")).bind
          fun _ : Unit => ops.put (C.convertToStdString s))
      exact hTest.congr (or_false _).symm.to_iff
  | many ss =>
      obtain ⟨hArray, -, hFixed⟩ := hFits
      have hFixed' : ¬ (member.isFixedArray = true ∧ ss.length ≠ member.arraySize.toNat) :=
        fun h => h.2 (hFixed h.1)
      simp only [C.serializeFieldOfString, hArray, Bool.not_true, Bool.false_eq_true, if_false,
        if_neg hFixed']
      exact C.mapM_convertRefToStdString_refuses hOps.putVector ss

variable [DpsCbor] [DpsCbor.Sizing]

theorem serializePrim_produces [Platform] {t : PrimType} {field : FieldMem t.Carrier}
    (hFits : field.Fits member) : Produces (serializePrim μ t member field) := by
  cases μ with
  | cpp => exact Cpp.serializeField_produces t.ops_produces hFits
  | c => exact C.serializeField_produces t.ops_produces hFits

theorem serializeBoolean_produces [Platform] {field : FieldMem Bool} (hFits : field.Fits member) :
    Produces (serializeBoolean (serializePrim μ .bool member) member field) := by
  cases field with
  | one b =>
      have hScalar : member.isArray = false := hFits
      simpa [serializeBoolean, hScalar] using putBool_produces b
  | many bs => exact serializePrim_produces (t := .bool) hFits

theorem serializeString_refuses {field : FieldMem (μ.Str UInt8)} (hFits : field.Fits member) :
    RefusesExactly (μ.RefusesField member field) (serializeString μ member field) := by
  cases μ with
  | cpp => exact (Cpp.serializeField_produces stringOps_produces hFits).refusesExactly
  | c => exact C.serializeFieldOfString_refuses stringOps_produces hFits

theorem serializeWstring_refuses {field : FieldMem (μ.Str UInt16)} (hFits : field.Fits member) :
    RefusesExactly (μ.RefusesField member field) (serializeWstring μ member field) := by
  cases μ with
  | cpp => exact (Cpp.serializeField_produces u16stringOps_produces hFits).refusesExactly
  | c => exact C.serializeFieldOfString_refuses u16stringOps_produces hFits

theorem serializeMessages_refuses {serializeSub : Message μ → Tx Unit}
    {SubTyped SubRefused : Message μ → Prop}
    (hSub : ∀ msg, SubTyped msg → RefusesExactly (SubRefused msg) (serializeSub msg))
    {msgs : List (Message μ)} (hTyped : (Value.messages msgs).Typed member SubTyped) :
    RefusesExactly ((Value.messages msgs).Refused member SubRefused)
      (serializeMessage member serializeSub (.messages msgs)) := by
  obtain ⟨-, hArray, hFixed, hMsgs⟩ := hTyped
  have hLoop : RefusesExactly (∃ msg ∈ msgs, SubRefused msg) (msgs.forM serializeSub) :=
    .forM fun msg hMem => hSub msg (hMsgs msg hMem)
  simp only [serializeMessage, getSubmessageSequenceSerialize, hArray, Bool.not_true,
    Bool.false_eq_true, if_false]
  by_cases hIsFixed : member.isFixedArray = true
  · have hNotUpper := MessageMember.not_isUpperBound_of_isFixedArray hIsFixed
    simpa [hIsFixed, hFixed hIsFixed, Value.Refused, hNotUpper] using hLoop
  · by_cases hLong : member.isUpperBound = true ∧ member.arraySize.toNat < msgs.length
    · simp only [hIsFixed, hLong, Bool.false_eq_true, if_false, and_self, if_true, bind_assoc]
      exact ((TxFaults.throw _).bind _).refusesExactly (.inl hLong)
    · simp only [hIsFixed, hLong, Bool.false_eq_true, if_false, bind_assoc, pure_bind, ne_eq,
        not_true_eq_false]
      -- The count may be truncated here: what is written does not matter, only whether.
      have hHead := (putUint64_produces (UInt32.ofNat msgs.length).toUInt64).refusesExactly
      exact (hHead.bind hLoop).congr (by simp [Value.Refused, hLong])

theorem serializeMember_refuses [Platform] {serializeSub : Message μ → Tx Unit}
    {SubTyped SubRefused : Message μ → Prop}
    (hSub : ∀ msg, SubTyped msg → RefusesExactly (SubRefused msg) (serializeSub msg))
    {value : Value μ} (hTyped : value.Typed member SubTyped) :
    RefusesExactly (value.Refused member SubRefused)
      (serializeMember member serializeSub value) := by
  cases value with
  | prim t field =>
      obtain ⟨hKind, hFits⟩ := hTyped
      -- No primitive member is ever refused, whatever its bound.
      refine Produces.refusesExactly ?_
      unfold serializeMember
      cases t with
      | bool =>
          simp only [hKind, Value.castPrim_prim, castTo, pure_bind]
          exact serializeBoolean_produces hFits
      | _ =>
          simp only [hKind, Value.castPrim_prim, castTo, pure_bind]
          exact serializePrim_produces hFits
  | string field =>
      simp only [serializeMember, hTyped.1]
      exact serializeString_refuses hTyped.2.1
  | wstring field =>
      simp only [serializeMember, hTyped.1]
      exact serializeWstring_refuses hTyped.2.1
  | message msg =>
      obtain ⟨hKind, hScalar, hMsg⟩ := hTyped
      simp only [serializeMember, hKind, serializeMessage, hScalar, Bool.false_eq_true, if_false]
      exact hSub msg hMsg
  | messages msgs =>
      simp only [serializeMember, hTyped.1]
      exact serializeMessages_refuses hSub hTyped

theorem serializeMembers_refuses [Platform] {members : MessageMembers} :
    ∀ {msg : Message μ}, members.Typed msg →
      RefusesExactly (members.Refused msg) (serializeMembers members msg) := by
  induction members with
  | nil => exact fun _ => Produces.pure.refusesExactly
  | cons member submembers rest ihSub ihRest =>
      intro msg hTyped
      cases msg with
      | nil => exact hTyped.elim
      | cons value values =>
          refine RefusesExactly.bind ?_ (ihRest hTyped.2)
          by_cases hUnknown : member.typeId.kind = .unknown
          · simp only [serializeMember, hUnknown]
            exact (TxFaults.throw _).refusesExactly (.inl trivial)
          · have hSub : ∀ msg : Message μ, submembers.Typed msg →
                RefusesExactly (submembers.Refused msg) (do
                  putArrayHead submembers.memberCount
                  serializeMembers submembers msg) := fun msg hMsg =>
              ((putArrayHead_produces _).refusesExactly.bind (ihSub hMsg)).congr
                (false_or _).symm.to_iff
            have hValue := serializeMember_refuses hSub (hTyped.1.resolve_left hUnknown)
            exact hValue.congr (or_iff_right hUnknown)

/-- One pass throws exactly when some part of the value is refused. -/
theorem serializePass_refuses [Platform] {members : MessageMembers} {msg : Message μ}
    (hTyped : members.Typed msg) :
    RefusesExactly (members.Refused msg) (serializePass members msg) := by
  cases members with
  | nil => exact (putUint64_produces _).refusesExactly
  | cons member submembers rest =>
      have hMembers := serializeMembers_refuses hTyped
      exact ((putArrayHead_produces _).refusesExactly.bind hMembers).congr (false_or _).symm.to_iff

/-- A value is written exactly if no part of it is refused. -/
theorem serializes_iff [Platform] {members : MessageMembers} {msg : Message μ}
    (hTyped : members.Typed msg) :
    (∃ ser ser', TypeSupport.serializeROSmessage members msg ser = .ok (true, ser')) ↔
      ¬ members.Refused msg := by
  obtain ⟨bytes, hPass⟩ := serializePass_refuses hTyped
  constructor
  · rintro ⟨ser, ser', hOk⟩
    exact TypeSupport.not_refused_of_returns hPass hOk
  · intro hFine
    obtain ⟨ser, hOk, -⟩ := TypeSupport.serializeROSmessage_writes (hPass.writes hFine) 0
    exact ⟨TxStream.new 0, ser, hOk⟩

end Refuses

/-! ## Which descriptions allow an overrun -/

/-- Some value of the member is written although it breaks a bound: of a sequence of
primitives or of strings, or of a string, none of which is tested so that it helps.  The
bound of a sequence of messages is tested, and with the bound zero nothing nested is left. -/
def MessageMember.overruns (member : MessageMember) (sub : Bool) : Bool :=
  match member.typeId.kind with
  | .prim _ => member.countExceeds (2 ^ 64)
  | .string | .wstring => member.countExceeds (2 ^ 64) || member.stringExceeds
  | .message => sub && !(member.isArray && member.isUpperBound && decide (member.arraySize = 0))
  | .unknown => false

/-- One member overruns and all of the others have values that are written, which are those
with values that can be read. -/
def MessageMembers.overruns : MessageMembers → Bool
  | .nil => false
  | .cons member submembers rest =>
      (member.overruns submembers.overruns && rest.decodable) ||
        (member.decodable submembers.decodable && rest.overruns)

section Overruns

variable {μ : MembersType} {member : MessageMember}

/-! ### No overrun -/

theorem FieldMem.Readable.sized {U : Type} {field : FieldMem (μ.Str U)}
    (hReadable : field.Readable) :
    ∀ s ∈ field.items, Sized (μ.content s) := by
  cases field with
  | one s => exact fun s' hs => List.mem_singleton.mp hs ▸ hReadable
  | many ss => exact fun s hs => (hReadable s hs).2

theorem Value.bounded_of_not_overruns {SubTyped SubRefused SubBounded : Message μ → Prop}
    {subOverruns : Bool}
    (hSub : subOverruns = false → ∀ msg, SubTyped msg → ¬ SubRefused msg → SubBounded msg)
    {value : Value μ} (hTyped : value.Typed member SubTyped)
    (hWritten : ¬ value.Refused member SubRefused)
    (hNone : member.overruns subOverruns = false) : value.Bounded member SubBounded := by
  cases value with
  | prim t field =>
      obtain ⟨hKind, hFits⟩ := hTyped
      simp only [MessageMember.overruns, hKind] at hNone
      exact FieldMem.bounded_of_fits hFits hNone fun _ _ => trivial
  | string field =>
      obtain ⟨hKind, hFits, hReadable⟩ := hTyped
      simp only [MessageMember.overruns, hKind] at hNone
      exact FieldMem.bounded_of_sized hFits hReadable.sized hNone
  | wstring field =>
      obtain ⟨hKind, hFits, hReadable⟩ := hTyped
      simp only [MessageMember.overruns, hKind] at hNone
      exact FieldMem.bounded_of_sized hFits hReadable.sized hNone
  | message msg =>
      obtain ⟨hKind, hScalar, hMsg⟩ := hTyped
      simp only [MessageMember.overruns, hKind, hScalar, Bool.false_and, Bool.not_false,
        Bool.and_true] at hNone
      exact hSub hNone msg hMsg hWritten
  | messages msgs =>
      obtain ⟨hKind, hArray, hFixed, hMsgs⟩ := hTyped
      obtain ⟨hShort, hEach⟩ := not_or.mp hWritten
      have hUpper : member.isUpperBound = true → msgs.length ≤ member.arraySize.toNat :=
        fun h => not_lt.mp fun hLong => hShort ⟨h, hLong⟩
      refine ⟨⟨hFixed, hUpper⟩, fun msg hMem => ?_⟩
      have hMsg : ¬ SubRefused msg := fun h => hEach ⟨msg, hMem, h⟩
      simp only [MessageMember.overruns, hKind, hArray, Bool.true_and, Bool.and_eq_false_iff,
        Bool.not_eq_false', Bool.and_eq_true, decide_eq_true_eq] at hNone
      rcases hNone with hSubNone | ⟨hIsUpper, hZero⟩
      · exact hSub hSubNone msg (hMsgs msg hMem) hMsg
      · -- a sequence of at most no messages has none
        have hEmpty := hUpper hIsUpper
        rw [hZero] at hEmpty
        simp only [UInt64.toNat_zero, Nat.le_zero, List.length_eq_zero_iff] at hEmpty
        rw [hEmpty] at hMem
        cases hMem

theorem Value.decodable_of_written {SubTyped SubRefused : Message μ → Prop} {subDecodable : Bool}
    (hSub : ∀ msg, SubTyped msg → ¬ SubRefused msg → subDecodable = true) {value : Value μ}
    (hTyped : value.Typed member SubTyped) (hWritten : ¬ value.Refused member SubRefused) :
    member.decodable subDecodable = true := by
  cases value with
  | prim t field => simp [MessageMember.decodable, hTyped.1]
  | string field => simp [MessageMember.decodable, hTyped.1]
  | wstring field => simp [MessageMember.decodable, hTyped.1]
  | message msg => simp [MessageMember.decodable, hTyped.1, hSub msg hTyped.2.2 hWritten]
  | messages msgs =>
      obtain ⟨hKind, hArray, hFixed, hMsgs⟩ := hTyped
      simp only [MessageMember.decodable, hKind, hArray, Bool.true_and, Bool.or_eq_true,
        Bool.not_eq_true']
      by_cases hIsFixed : member.isFixedArray = true
      · -- a fixed-size array has a first message
        right
        have hPos := MessageMember.arraySize_pos hIsFixed
        rw [← hFixed hIsFixed] at hPos
        obtain ⟨msg, hMem⟩ := List.exists_mem_of_length_pos hPos
        exact hSub msg (hMsgs msg hMem) fun h => hWritten (.inr ⟨msg, hMem, h⟩)
      · exact .inl (Bool.eq_false_iff.mpr hIsFixed)

theorem MessageMembers.decodable_of_written {members : MessageMembers} :
    ∀ {msg : Message μ}, members.Typed msg → ¬ members.Refused msg → members.decodable = true := by
  induction members with
  | nil => exact fun _ _ => rfl
  | cons member submembers rest ihSub ihRest =>
      intro msg hTyped hWritten
      cases msg with
      | nil => exact hTyped.elim
      | cons value values =>
          obtain ⟨hHead, hRest⟩ := not_or.mp hWritten
          obtain ⟨hKnown, hValue⟩ := not_or.mp hHead
          have hMember := Value.decodable_of_written (fun _ => ihSub)
            (hTyped.1.resolve_left hKnown) hValue
          simp only [decodable, hMember, ihRest hTyped.2 hRest, Bool.and_self]

/-- A value that is written keeps its bounds, where no member overruns. -/
theorem MessageMembers.bounded_of_not_overruns {members : MessageMembers} :
    members.overruns = false → ∀ {msg : Message μ}, members.Typed msg → ¬ members.Refused msg →
      members.Bounded msg := by
  induction members with
  | nil => exact fun _ _ _ _ => trivial
  | cons member submembers rest ihSub ihRest =>
      intro hNone msg hTyped hWritten
      cases msg with
      | nil => exact hTyped.elim
      | cons value values =>
          obtain ⟨hHead, hRest⟩ := not_or.mp hWritten
          obtain ⟨hKnown, hValue⟩ := not_or.mp hHead
          have hTypedValue := hTyped.1.resolve_left hKnown
          -- All of the members are written, so none of them overruns.
          have hMember := Value.decodable_of_written
            (fun _ => MessageMembers.decodable_of_written) hTypedValue hValue
          have hOthers := MessageMembers.decodable_of_written hTyped.2 hRest
          simp only [overruns, hMember, hOthers, Bool.and_true, Bool.true_and,
            Bool.or_eq_false_iff] at hNone
          exact ⟨Value.bounded_of_not_overruns (fun h _ => ihSub h) hTypedValue hValue hNone.1,
            ihRest hNone.2 hTyped.2 hRest⟩

/-! ### An overrun -/

theorem FieldMem.filled_readable {U : Type} {count : Nat} {units : List U}
    (hSized : units.length < 2 ^ 64) :
    (FieldMem.filled member count (μ.str units)).Readable := by
  have hString : μ.HasData (μ.str units) ∧ (μ.content (μ.str units)).length < 2 ^ 64 := by
    rw [MembersType.content_str]
    refine ⟨?_, hSized⟩
    cases μ with
    | cpp => trivial
    | c => exact Option.some_ne_none units
  unfold FieldMem.filled
  split
  · exact fun s hs => List.eq_of_mem_replicate hs ▸ hString
  · exact hString.2

/-- The C serializer lets a string through that is one unit over its bound. -/
theorem FieldMem.filled_not_refused {U : Type} [Zero U] [DecidableEq U] {count : Nat}
    {units : List U} (hShort : member.stringUpperBound ≠ 0 →
      units.length ≤ (member.stringUpperBound + 1).toNat) :
    ¬ μ.RefusesField member (FieldMem.filled member count (μ.str units)) := by
  cases μ with
  | cpp => exact id
  | c =>
      unfold FieldMem.filled
      split
      · rintro ⟨s, hs, hNull⟩
        rw [List.eq_of_mem_replicate hs] at hNull
        cases hNull
      · rintro ⟨hBound, hLong⟩
        have hPrefix : (C.convertToStdString (⟨some units⟩ : RosidlString U)).length ≤
            units.length := (List.takeWhile_sublist _).length_le
        have hLimit := hShort hBound
        exact absurd hLong (by
          show ¬ _ < (C.convertToStdString (⟨some units⟩ : RosidlString U)).length
          omega)

section Filled

variable {SubTyped SubRefused SubBounded : Message μ → Prop} {count : Nat} {msg : Message μ}

theorem Value.filledMessages_typed (hKind : member.typeId.kind = .message)
    (hMsg : member.isArray = true → member.copies count = 0 ∨ SubTyped msg)
    (hScalar : ¬ (member.isArray = true) → SubTyped msg) :
    (Value.filledMessages member count msg).Typed member SubTyped := by
  unfold filledMessages
  split
  · next hArray =>
      refine ⟨hKind, hArray, fun hFixed => by simp [MessageMember.copies, hFixed], fun m hm => ?_⟩
      obtain ⟨hSome, rfl⟩ := List.mem_replicate.mp hm
      exact (hMsg hArray).resolve_left hSome
  · next hArray => exact ⟨hKind, by simpa using hArray, hScalar hArray⟩

theorem Value.filledMessages_not_refused
    (hShort : member.isUpperBound = true → count ≤ member.arraySize.toNat)
    (hMsg : member.isArray = true → member.copies count = 0 ∨ ¬ SubRefused msg)
    (hScalar : ¬ (member.isArray = true) → ¬ SubRefused msg) :
    ¬ (Value.filledMessages member count msg).Refused member SubRefused := by
  unfold filledMessages
  split
  · next hArray =>
      rintro (⟨hUpper, hLong⟩ | ⟨m, hm, hRefused⟩)
      · have hLimit := hShort hUpper
        have hFixed := MessageMember.not_isFixedArray_of_isUpperBound hUpper
        simp only [List.length_replicate, MessageMember.copies, hFixed, Bool.false_eq_true,
          if_false] at hLong
        omega
      · obtain ⟨hSome, rfl⟩ := List.mem_replicate.mp hm
        exact (hMsg hArray).resolve_left hSome hRefused
  · next hArray => exact hScalar hArray

/-- A member that can be read has a value that is written. -/
theorem MessageMember.exists_written {subDecodable : Bool}
    (hSub : subDecodable = true → ∃ msg, SubTyped msg ∧ ¬ SubRefused msg)
    (hDecodable : member.decodable subDecodable = true) :
    ∃ value : Value μ, value.Typed member SubTyped ∧ ¬ value.Refused member SubRefused := by
  cases hKind : member.typeId.kind with
  | prim t =>
      exact ⟨.prim t (.filled member 0 t.zero), ⟨hKind, FieldMem.filled_fits (by decide)⟩, id⟩
  | string =>
      exact ⟨.string (.filled member 0 (μ.str [])), ⟨hKind, FieldMem.filled_fits (by decide),
        FieldMem.filled_readable (by simp)⟩, FieldMem.filled_not_refused fun _ => Nat.zero_le _⟩
  | wstring =>
      exact ⟨.wstring (.filled member 0 (μ.str [])), ⟨hKind, FieldMem.filled_fits (by decide),
        FieldMem.filled_readable (by simp)⟩, FieldMem.filled_not_refused fun _ => Nat.zero_le _⟩
  | message =>
      simp only [decodable, hKind, Bool.or_eq_true, Bool.and_eq_true, Bool.not_eq_true']
        at hDecodable
      by_cases hSome : subDecodable = true
      · obtain ⟨msg, hMsg, hWritten⟩ := hSub hSome
        exact ⟨.filledMessages member 0 msg,
          Value.filledMessages_typed hKind (fun _ => .inr hMsg) fun _ => hMsg,
          Value.filledMessages_not_refused (fun _ => Nat.zero_le _) (fun _ => .inr hWritten)
            fun _ => hWritten⟩
      · obtain ⟨hArray, hFixed⟩ := hDecodable.resolve_right hSome
        have hNone : member.copies 0 = 0 := by simp [copies, hFixed]
        exact ⟨.filledMessages member 0 [],
          Value.filledMessages_typed hKind (fun _ => .inl hNone) fun h => absurd hArray h,
          Value.filledMessages_not_refused (fun _ => Nat.zero_le _) (fun _ => .inl hNone)
            fun h => absurd hArray h⟩
  | unknown => simp [decodable, hKind] at hDecodable

/-- One element too many, or a string of one unit too many. -/
theorem MessageMember.exists_overrun_strings {U : Type} [Zero U] [DecidableEq U] (unit : U)
    (hOverruns : (member.countExceeds (2 ^ 64) || member.stringExceeds) = true) :
    ∃ field : FieldMem (μ.Str U), (field.Fits member ∧ field.Readable) ∧
      ¬ μ.RefusesField member field ∧
      ¬ field.Bounded member fun s => member.StringOk (μ.content s).length := by
  rw [Bool.or_eq_true] at hOverruns
  rcases hOverruns with hCount | hString
  · have hSized : member.arraySize.toNat + 1 < 2 ^ 64 := by
      simp only [countExceeds, Bool.and_eq_true, decide_eq_true_eq] at hCount
      exact hCount.2
    exact ⟨.filled member (member.arraySize.toNat + 1) (μ.str []),
      ⟨FieldMem.filled_fits hSized, FieldMem.filled_readable (by simp)⟩,
      FieldMem.filled_not_refused fun _ => Nat.zero_le _,
      FieldMem.filled_not_bounded_of_count hCount⟩
  · simp only [stringExceeds, Bool.and_eq_true, decide_eq_true_eq] at hString
    have hNoWrap : (member.stringUpperBound + 1).toNat = member.stringUpperBound.toNat + 1 := by
      rw [UInt64.toNat_add]
      exact Nat.mod_eq_of_lt hString.2
    have hLength : (List.replicate (member.stringUpperBound.toNat + 1) unit).length =
        member.stringUpperBound.toNat + 1 := List.length_replicate
    refine ⟨.filled member 1 (μ.str (List.replicate (member.stringUpperBound.toNat + 1) unit)),
      ⟨FieldMem.filled_fits (by decide), FieldMem.filled_readable (by omega)⟩,
      FieldMem.filled_not_refused fun _ => by omega,
      FieldMem.filled_not_bounded_of_element fun hOk => ?_⟩
    have hLong := hOk hString.1
    rw [MembersType.content_str, hLength] at hLong
    omega

/-- A member that overruns has a value that is written over a bound. -/
theorem MessageMember.exists_overrun {subOverruns : Bool}
    (hSub : subOverruns = true → ∃ msg, SubTyped msg ∧ ¬ SubRefused msg ∧ ¬ SubBounded msg)
    (hOverruns : member.overruns subOverruns = true) :
    ∃ value : Value μ, value.Typed member SubTyped ∧ ¬ value.Refused member SubRefused ∧
      ¬ value.Bounded member SubBounded := by
  cases hKind : member.typeId.kind with
  | prim t =>
      simp only [overruns, hKind] at hOverruns
      have hSized : member.arraySize.toNat + 1 < 2 ^ 64 := by
        simp only [countExceeds, Bool.and_eq_true, decide_eq_true_eq] at hOverruns
        exact hOverruns.2
      exact ⟨.prim t (.filled member (member.arraySize.toNat + 1) t.zero),
        ⟨hKind, FieldMem.filled_fits hSized⟩, id, FieldMem.filled_not_bounded_of_count hOverruns⟩
  | string =>
      simp only [overruns, hKind] at hOverruns
      obtain ⟨field, hTyped, hWritten, hLong⟩ :=
        exists_overrun_strings (μ := μ) (1 : UInt8) hOverruns
      exact ⟨.string field, ⟨hKind, hTyped⟩, hWritten, hLong⟩
  | wstring =>
      simp only [overruns, hKind] at hOverruns
      obtain ⟨field, hTyped, hWritten, hLong⟩ :=
        exists_overrun_strings (μ := μ) (1 : UInt16) hOverruns
      exact ⟨.wstring field, ⟨hKind, hTyped⟩, hWritten, hLong⟩
  | message =>
      simp only [overruns, hKind, Bool.and_eq_true, Bool.not_eq_true'] at hOverruns
      obtain ⟨hNested, hRoom⟩ := hOverruns
      obtain ⟨msg, hMsg, hWritten, hLong⟩ := hSub hNested
      refine ⟨.filledMessages member 1 msg,
        Value.filledMessages_typed hKind (fun _ => .inr hMsg) fun _ => hMsg, ?_,
        Value.filledMessages_not_bounded hLong⟩
      by_cases hArray : member.isArray = true
      · refine Value.filledMessages_not_refused (fun hUpper => ?_) (fun _ => .inr hWritten)
          fun _ => hWritten
        simp only [hArray, hUpper, Bool.and_self, Bool.true_and, decide_eq_false_iff_not,
          ← UInt64.toNat_inj, UInt64.toNat_zero] at hRoom
        omega
      · unfold Value.filledMessages
        rw [if_neg hArray]
        exact hWritten
  | unknown => simp [overruns, hKind] at hOverruns

end Filled

theorem MessageMembers.exists_written {members : MessageMembers} :
    members.decodable = true → ∃ msg : Message μ, members.Typed msg ∧ ¬ members.Refused msg := by
  induction members with
  | nil => exact fun _ => ⟨[], trivial, id⟩
  | cons member submembers rest ihSub ihRest =>
      intro hDecodable
      simp only [decodable, Bool.and_eq_true] at hDecodable
      obtain ⟨value, hTyped, hWritten⟩ := MessageMember.exists_written ihSub hDecodable.1
      obtain ⟨values, hTypedRest, hWrittenRest⟩ := ihRest hDecodable.2
      have hKnown : ¬ member.typeId.kind = .unknown := by
        intro hUnknown
        simp [MessageMember.decodable, hUnknown] at hDecodable
      exact ⟨value :: values, ⟨.inr hTyped, hTypedRest⟩,
        not_or.mpr ⟨not_or.mpr ⟨hKnown, hWritten⟩, hWrittenRest⟩⟩

theorem MessageMembers.exists_overrun {members : MessageMembers} :
    members.overruns = true → ∃ msg : Message μ, members.Typed msg ∧ ¬ members.Refused msg ∧
      ¬ members.Bounded msg := by
  induction members with
  | nil => simp [overruns]
  | cons member submembers rest ihSub ihRest =>
      intro hOverruns
      simp only [overruns, Bool.or_eq_true, Bool.and_eq_true] at hOverruns
      rcases hOverruns with ⟨hHead, hRest⟩ | ⟨hHead, hRest⟩
      · obtain ⟨value, hTyped, hWritten, hLong⟩ := MessageMember.exists_overrun ihSub hHead
        obtain ⟨values, hTypedRest, hWrittenRest⟩ := exists_written (μ := μ) hRest
        have hKnown : ¬ member.typeId.kind = .unknown := by
          intro hUnknown
          simp [MessageMember.overruns, hUnknown] at hHead
        exact ⟨value :: values, ⟨.inr hTyped, hTypedRest⟩,
          not_or.mpr ⟨not_or.mpr ⟨hKnown, hWritten⟩, hWrittenRest⟩, fun h => hLong h.1⟩
      · obtain ⟨value, hTyped, hWritten⟩ :=
          MessageMember.exists_written (fun h => exists_written (μ := μ) h) hHead
        obtain ⟨values, hTypedRest, hWrittenRest, hLong⟩ := ihRest hRest
        have hKnown : ¬ member.typeId.kind = .unknown := by
          intro hUnknown
          simp [MessageMember.decodable, hUnknown] at hHead
        exact ⟨value :: values, ⟨.inr hTyped, hTypedRest⟩,
          not_or.mpr ⟨not_or.mpr ⟨hKnown, hWritten⟩, hWrittenRest⟩, fun h => hLong h.2⟩

end Overruns

/-! ## The bounds of a description -/

section Enforces

variable [DpsCbor] [Platform]

/-- Whenever the public serializer of a package succeeds, the value keeps its declared
bounds. -/
def EnforcesBounds (μ : MembersType) (members : MessageMembers) : Prop :=
  ∀ (msg : Message μ) (ser ser' : TxStream), members.Typed msg →
    TypeSupport.serializeROSmessage members msg ser = .ok (true, ser') → members.Bounded msg

/-- The serializer enforces the bounds of a description exactly when no member of it can
overrun one. -/
theorem enforcesBounds_iff [DpsCbor.Sizing] {μ : MembersType} {members : MessageMembers} :
    EnforcesBounds μ members ↔ members.overruns = false := by
  constructor
  · intro hEnforces
    refine Bool.eq_false_iff.mpr fun hOverruns => ?_
    obtain ⟨msg, hTyped, hWritten, hLong⟩ := MessageMembers.exists_overrun (μ := μ) hOverruns
    obtain ⟨ser, ser', hOk⟩ := (serializes_iff hTyped).mpr hWritten
    exact hLong (hEnforces msg ser ser' hTyped hOk)
  · intro hNone msg ser ser' hTyped hOk
    exact MessageMembers.bounded_of_not_overruns hNone hTyped
      ((serializes_iff hTyped).mp ⟨ser, ser', hOk⟩)

end Enforces

/-! ## Descriptions with bounds -/

/-- At most two messages, each with a string of any length. -/
def tripMembers : MessageMembers :=
  .cons { typeId := .message, isArray := true, arraySize := 2, isUpperBound := true }
    (.cons { typeId := .string } .nil .nil) .nil

/-- A string of at most three units, and a sequence of at most two octets. -/
def labelMembers : MessageMembers :=
  .cons { typeId := .string, stringUpperBound := 3 } .nil <|
  .cons { typeId := .uint8, isArray := true, arraySize := 2, isUpperBound := true } .nil .nil

/-- The bound of a sequence of messages is enforced, that of strings is not; next to a member
of an unknown type nothing gets over it. -/
theorem trip_enforcesBounds :
    @EnforcesBounds rfcCbor signedChar .c tripMembers ∧
      ¬ @EnforcesBounds rfcCbor signedChar .cpp labelMembers ∧
      @EnforcesBounds rfcCbor signedChar .cpp
        (.cons { typeId := .unknown } .nil labelMembers) := by
  let _ := rfcCbor
  have _ := rfcCbor_sizing
  let _ := signedChar
  refine ⟨enforcesBounds_iff.mpr (by decide), fun hEnforces => ?_,
    enforcesBounds_iff.mpr (by decide)⟩
  exact absurd (enforcesBounds_iff.mp hEnforces) (by decide)

/-- One unit too many, which is what the `+ 1` of the C serializer lets through. -/
def label : Message .c := [.string (.one ⟨some [0x61, 0x62, 0x63, 0x64]⟩), .prim .uint8 (.many [1])]

/-- A string one unit over its bound is written. -/
theorem label_not_enforcesBounds :
    labelMembers.Typed label ∧ ¬ labelMembers.Bounded label ∧
      ¬ @EnforcesBounds rfcCbor signedChar .c labelMembers := by
  have hTyped : labelMembers.Typed label := by
    simp [labelMembers, label, MessageMembers.Typed, Value.Typed, FieldMem.Fits, RosType.kind,
      MessageMember.isFixedArray, FieldMem.Readable, MembersType.content]
  have hLong : ¬ labelMembers.Bounded label := by
    simp [labelMembers, label, MessageMembers.Bounded, Value.Bounded, FieldMem.Bounded,
      MessageMember.StringOk, MembersType.content]
  refine ⟨hTyped, hLong, fun hEnforces => ?_⟩
  let _ := rfcCbor
  let _ := signedChar
  exact hLong (hEnforces label (TxStream.new 16) _ hTyped rfl)

end Serialization
end RmwDps
