import RmwDps.Serialization.Conformance
import RmwDps.Serialization.RfcCbor

/-!
# Both type supports speak the wire format

The overloads of each element type agree with the wire format
(`StreamOps.EncodesAs`, `StreamOps.DecodesAs`), hence so does each field, each
member and, by induction over the description, each message: on a value that
fits, `serializeMembers` writes `MessageMembers.wire` of it, and
`deserializeMembers` reads it back from there.

The exception on the writing side is `MessageMembers.Refused`, which comes to
`MessageMembers.RefusedByWrap` on a value that keeps its bounds.
-/

namespace RmwDps
namespace Serialization

/-! ## Element types -/

/-- The writers of an element type agree with the wire format on valid
elements. -/
structure StreamOps.EncodesAs {T : Type} (ops : StreamOps T) (Valid : T → Prop)
    (item : T → List UInt8) (arrayItem : List T → List UInt8) : Prop where
  put : ∀ x, Valid x → Writes (ops.put x) (item x)
  encodeSequence : ∀ xs : List T, xs.length < 2 ^ 64 → (∀ x ∈ xs, Valid x) →
    Writes (ops.encodeSequence xs) (arrayItem xs)
  putVector : ∀ xs : List T, xs.length < 2 ^ 64 → (∀ x ∈ xs, Valid x) →
    Writes (ops.putVector xs) (arrayItem xs)

/-- `deserializeSequenceSize` finds the count in front of any input that starts
with `bytes`, and consumes nothing. -/
def PeeksCount [DpsCbor] (bytes : List UInt8) (count : Nat) : Prop :=
  ∀ (deser : RxStream) (rest : List UInt8), deser.unread = bytes ++ rest →
    Rx.exec deserializeSequenceSize deser = (.ok count, deser)

/-- The readers of an element type agree with the wire format on valid
elements, except that they throw on those that are not fine. -/
structure StreamOps.DecodesAs [DpsCbor] {T : Type} (ops : StreamOps T) (Valid Fine : T → Prop)
    (item : T → List UInt8) (arrayItem : List T → List UInt8) : Prop where
  get : ∀ x, Valid x → ReadsWhen (Fine x) ops.get (item x) x
  decodeSequence : ∀ xs : List T, xs.length < 2 ^ 64 → (∀ x ∈ xs, Valid x) →
    ReadsWhen (∀ x ∈ xs, Fine x) (ops.decodeSequence xs.length) (arrayItem xs) xs
  getVector : ∀ xs : List T, xs.length < 2 ^ 64 → (∀ x ∈ xs, Valid x) →
    ReadsWhen (∀ x ∈ xs, Fine x) ops.getVector (arrayItem xs) xs
  peeks : ∀ xs : List T, xs.length < 2 ^ 64 → PeeksCount (arrayItem xs) xs.length

/-- The bytes of the array are still unread behind the peek. -/
theorem ReadsWhen.peek [DpsCbor] {β : Type} {fine : Prop} {next : Nat → Rx β}
    {bytes : List UInt8} {count : Nat} {b : β} (hNext : ReadsWhen fine (next count) bytes b)
    (hPeek : PeeksCount bytes count) :
    ReadsWhen fine (deserializeSequenceSize >>= next) bytes b where
  reads hFine deser rest hUnread := by
    rw [Rx.exec_bind, hPeek deser rest hUnread]
    exact hNext.reads hFine deser rest hUnread
  throws hNot deser rest hUnread := by
    rw [Rx.exec_bind, hPeek deser rest hUnread]
    exact hNext.throws hNot deser rest hUnread

section Ops

variable [DpsCbor] [DpsCbor.Lawful]

theorem StreamOps.ofScalar_encodesAs {T : Type} {put : T → Tx Unit} {get : Rx T}
    {Valid : T → Prop} {item : T → List UInt8}
    (hPut : ∀ x, Valid x → Writes (put x) (item x)) :
    (StreamOps.ofScalar put get).EncodesAs Valid item (arrayItem item) where
  put := hPut
  encodeSequence _ hLength hValid := encodeSequence_writes hLength fun x hx => hPut x (hValid x hx)
  putVector _ hLength hValid := encodeSequence_writes hLength fun x hx => hPut x (hValid x hx)

omit [DpsCbor.Lawful] in
theorem peeksCount_of_peek {bytes : List UInt8} {count maj : Nat} {info : UInt64}
    (hPeek : ∀ rest, DpsCbor.peek (bytes ++ rest) = some (maj, info))
    (hMaj : maj = Rfc7049.majorArray ∨ maj = Rfc7049.majorBytes)
    (hCount : info.toNat = count) : PeeksCount bytes count := by
  intro deser rest hUnread
  rw [RxStream.exec_deserializeSequenceSize, hUnread, hPeek rest]
  have hKnown : ¬ (maj ≠ Rfc7049.majorArray ∧ maj ≠ Rfc7049.majorBytes) := by tauto
  simp only [if_neg hKnown, hCount]

theorem arrayItem_peeksCount {T : Type} (item : T → List UInt8) {xs : List T}
    (hLength : xs.length < 2 ^ 64) : PeeksCount (arrayItem item xs) xs.length := by
  have hBack : (UInt64.ofNat xs.length).toNat = xs.length := UInt64.toNat_ofNat_of_lt hLength
  refine peeksCount_of_peek (fun rest => ?_) (.inl rfl) hBack
  have hPeek := DpsCbor.Lawful.peekArray (UInt64.ofNat xs.length) (xs.flatMap item ++ rest)
  rw [hBack] at hPeek
  rw [arrayItem, List.append_assoc]
  exact hPeek

theorem bytes_peeksCount {xs : List UInt8} (hLength : xs.length < 2 ^ 64) :
    PeeksCount (Rfc7049.bytes xs) xs.length :=
  peeksCount_of_peek (fun rest => DpsCbor.Lawful.peekBytes xs rest hLength) (.inr rfl)
    (UInt64.toNat_ofNat_of_lt hLength)

theorem StreamOps.ofScalar_decodesAs {T : Type} {put : T → Tx Unit} {get : Rx T}
    {Valid Fine : T → Prop} {item : T → List UInt8}
    (hGet : ∀ x, Valid x → ReadsWhen (Fine x) get (item x) x) :
    (StreamOps.ofScalar put get).DecodesAs Valid Fine item (arrayItem item) where
  get := hGet
  decodeSequence _ hLength hValid :=
    decodeSequence_readsWhen hLength fun x hx => hGet x (hValid x hx)
  getVector _ hLength hValid := getVector_readsWhen hLength _ fun x hx => hGet x (hValid x hx)
  peeks _ hLength := arrayItem_peeksCount item hLength

/-- A valid `std::string` or `std::u16string` of the wire format. -/
def Sized {U : Type} (s : List U) : Prop := s.length < 2 ^ 64

theorem stringOps_encodesAs :
    stringOps.EncodesAs Sized Rfc7049.text (arrayItem Rfc7049.text) :=
  StreamOps.ofScalar_encodesAs fun _ hSized => putString_writes hSized

theorem stringOps_decodesAs :
    stringOps.DecodesAs Sized (fun _ => True) Rfc7049.text (arrayItem Rfc7049.text) :=
  StreamOps.ofScalar_decodesAs fun _ hSized => (getString_reads hSized).when

theorem u16stringOps_encodesAs :
    u16stringOps.EncodesAs Sized u16stringItem (arrayItem u16stringItem) :=
  StreamOps.ofScalar_encodesAs fun _ hSized => putU16string_writes hSized

theorem u16stringOps_decodesAs :
    u16stringOps.DecodesAs Sized (fun _ => True) u16stringItem (arrayItem u16stringItem) :=
  StreamOps.ofScalar_decodesAs fun _ hSized => (getU16string_reads hSized).when

theorem PrimType.ops_encodesAs [Platform] (t : PrimType) :
    t.ops.EncodesAs (fun _ => True) t.item t.arrayItem := by
  cases t with
  | bool =>
      refine ⟨fun x _ => putBool_writes x, fun xs hLength _ => ?_, fun xs hLength _ => ?_⟩
      · exact encodeSequence_writes hLength fun x _ => putBool_writes x
      · exact Writes.forM (putArrayHead_writes hLength) xs fun x _ => putBool_writes x
  | uint8 =>
      exact ⟨fun x _ => putUint8_writes x, fun _ hLength _ => encodeSequenceUint8_writes hLength,
        fun _ hLength _ => encodeSequenceUint8_writes hLength⟩
  | char => exact StreamOps.ofScalar_encodesAs fun x _ => putChar_writes x
  | float => exact StreamOps.ofScalar_encodesAs fun x _ => putFloat_writes x
  | double => exact StreamOps.ofScalar_encodesAs fun x _ => putDouble_writes x
  | int16 => exact StreamOps.ofScalar_encodesAs fun x _ => putInt16_writes x
  | uint16 => exact StreamOps.ofScalar_encodesAs fun x _ => putUint16_writes x
  | int32 => exact StreamOps.ofScalar_encodesAs fun x _ => putInt32_writes x
  | uint32 => exact StreamOps.ofScalar_encodesAs fun x _ => putUint32_writes x
  | int64 => exact StreamOps.ofScalar_encodesAs fun x _ => putInt64_writes x
  | uint64 => exact StreamOps.ofScalar_encodesAs fun x _ => putUint64_writes x

/-- Which characters the reader of `char` reads: those without the highest bit and, if
`every`, those with it. -/
def ReadsChars [Platform] (every : Prop) : Prop :=
  ∀ c : CChar, ReadsWhen (every ∨ c.Low) getChar (PrimType.item .char c) c

theorem readsChars_of_signed [Platform] (hSigned : Platform.charIsSigned = true) :
    ReadsChars True :=
  fun c => (getChar_reads hSigned c).when.congr (true_or _).to_iff

theorem PrimType.ops_decodesAs [Platform] {every : Prop} (hChars : ReadsChars every)
    (t : PrimType) :
    t.ops.DecodesAs (fun _ => True) (fun x => every ∨ t.Low x) t.item t.arrayItem := by
  have hFine : ∀ {T : Type} {reader : Rx T} {bytes : List UInt8} {a : T},
      Reads reader bytes a → ReadsWhen (every ∨ True) reader bytes a :=
    fun hReader => hReader.when.congr (or_true every).to_iff
  cases t with
  | bool =>
      refine ⟨fun x _ => hFine (getBool_reads x), fun xs hLength _ => ?_, fun xs hLength _ => ?_,
        fun xs hLength => arrayItem_peeksCount _ hLength⟩
      · exact decodeSequence_readsWhen hLength fun x _ => hFine (getBool_reads x)
      · exact getVector_readsWhen hLength _ fun x _ =>
          hFine (Reads.read (DpsCbor.Lawful.decodeBoolean x) _)
  | uint8 =>
      have hAll : ∀ xs : List UInt8, (∀ x ∈ xs, every ∨ PrimType.Low .uint8 x) ↔ True :=
        fun xs => iff_true_intro fun _ _ => .inr trivial
      exact ⟨fun x _ => hFine (getUint8_reads x),
        fun xs hLength _ => (decodeSequenceUint8_reads hLength).when.congr (hAll xs),
        fun xs hLength _ => (getVectorUint8_reads hLength).when.congr (hAll xs),
        fun _ hLength => bytes_peeksCount hLength⟩
  | char => exact StreamOps.ofScalar_decodesAs fun c _ => hChars c
  | float => exact StreamOps.ofScalar_decodesAs fun x _ => hFine (getFloat_reads x)
  | double => exact StreamOps.ofScalar_decodesAs fun x _ => hFine (getDouble_reads x)
  | int16 => exact StreamOps.ofScalar_decodesAs fun x _ => hFine (getInt16_reads x)
  | uint16 => exact StreamOps.ofScalar_decodesAs fun x _ => hFine (getUint16_reads x)
  | int32 => exact StreamOps.ofScalar_decodesAs fun x _ => hFine (getInt32_reads x)
  | uint32 => exact StreamOps.ofScalar_decodesAs fun x _ => hFine (getUint32_reads x)
  | int64 => exact StreamOps.ofScalar_decodesAs fun x _ => hFine (getInt64_reads x)
  | uint64 => exact StreamOps.ofScalar_decodesAs fun x _ => hFine (getUint64_reads x)

end Ops

/-! ## Fields -/

section Fields

variable {T : Type} {ops : StreamOps T} {Valid Fine : T → Prop} {item : T → List UInt8}
  {arrayItem : List T → List UInt8} {member : MessageMember}

theorem Cpp.serializeField_writes (hOps : ops.EncodesAs Valid item arrayItem)
    {field : FieldMem T} (hFits : field.Fits member) (hValid : ∀ x ∈ field.items, Valid x) :
    Writes (Cpp.serializeField ops member field) (field.wire item arrayItem) := by
  cases field with
  | one x =>
      have hScalar : member.isArray = false := hFits
      simp only [Cpp.serializeField, hScalar, Bool.false_eq_true, if_false]
      exact hOps.put x (hValid x List.mem_cons_self)
  | many xs =>
      obtain ⟨hArray, hLength, hFixed⟩ := hFits
      simp only [Cpp.serializeField, hArray, Bool.not_true, Bool.false_eq_true, if_false]
      split
      · next hIsFixed =>
          rw [if_pos (hFixed hIsFixed)]
          exact hOps.encodeSequence xs hLength hValid
      · exact hOps.putVector xs hLength hValid

theorem C.serializeField_writes (hOps : ops.EncodesAs Valid item arrayItem)
    {field : FieldMem T} (hFits : field.Fits member) (hValid : ∀ x ∈ field.items, Valid x) :
    Writes (C.serializeField ops member field) (field.wire item arrayItem) := by
  cases field with
  | one x =>
      have hScalar : member.isArray = false := hFits
      simp only [C.serializeField, hScalar, Bool.false_eq_true, if_false]
      exact hOps.put x (hValid x List.mem_cons_self)
  | many xs =>
      obtain ⟨hArray, hLength, hFixed⟩ := hFits
      simp only [C.serializeField, hArray, Bool.not_true, Bool.false_eq_true, if_false]
      split
      · next hIsFixed =>
          rw [if_pos (hFixed hIsFixed)]
          exact hOps.encodeSequence xs hLength hValid
      · exact hOps.encodeSequence xs hLength hValid

variable [DpsCbor]

theorem Cpp.deserializeField_readsWhen (hOps : ops.DecodesAs Valid Fine item arrayItem)
    {field : FieldMem T} (hFits : field.Fits member) (hValid : ∀ x ∈ field.items, Valid x) :
    ReadsWhen (∀ x ∈ field.items, Fine x) (Cpp.deserializeField ops member)
      (field.wire item arrayItem) field := by
  unfold Cpp.deserializeField
  cases field with
  | one x =>
      have hScalar : member.isArray = false := hFits
      simp only [hScalar, Bool.not_false, if_true]
      exact ((hOps.get x (hValid x List.mem_cons_self)).congr (by simp [FieldMem.items])).map
        (Reads.pure _)
  | many xs =>
      obtain ⟨hArray, hLength, hFixed⟩ := hFits
      simp only [hArray, Bool.not_true, Bool.false_eq_true, if_false]
      split
      · next hIsFixed =>
          rw [← hFixed hIsFixed]
          exact (hOps.decodeSequence xs hLength hValid).map (Reads.pure _)
      · exact (hOps.getVector xs hLength hValid).map (Reads.pure _)

/-- The count is read twice: without consuming it, then with the elements. -/
theorem C.deserializeField_readsWhen (hOps : ops.DecodesAs Valid Fine item arrayItem)
    {field : FieldMem T} (hFits : field.Fits member) (hValid : ∀ x ∈ field.items, Valid x) :
    ReadsWhen (∀ x ∈ field.items, Fine x) (C.deserializeField ops member)
      (field.wire item arrayItem) field := by
  unfold C.deserializeField
  cases field with
  | one x =>
      have hScalar : member.isArray = false := hFits
      simp only [hScalar, Bool.not_false, if_true]
      exact ((hOps.get x (hValid x List.mem_cons_self)).congr (by simp [FieldMem.items])).map
        (Reads.pure _)
  | many xs =>
      obtain ⟨hArray, hLength, hFixed⟩ := hFits
      simp only [hArray, Bool.not_true, Bool.false_eq_true, if_false]
      split
      · next hIsFixed =>
          rw [← hFixed hIsFixed]
          exact (hOps.decodeSequence xs hLength hValid).map (Reads.pure _)
      · refine ReadsWhen.unreadLength fun unread => ?_
        have hRead : ReadsWhen (∀ x ∈ xs, Fine x) (do
            resize xs.length unread
            return FieldMem.many (← ops.decodeSequence xs.length)) (arrayItem xs) (.many xs) :=
          ReadsWhen.resize ((hOps.decodeSequence xs hLength hValid).map (Reads.pure _))
        exact hRead.peek (hOps.peeks xs hLength)

end Fields

/-! ## String fields of the C package -/

section CStrings

variable {U : Type} [Zero U] [DecidableEq U]

theorem takeWhile_ne_zero_of_notMem {units : List U} (hUnits : (0 : U) ∉ units) :
    units.takeWhile (· ≠ 0) = units := by
  rw [List.takeWhile_eq_self_iff]
  intro unit hMem
  have hNonzero : unit ≠ 0 := fun h => hUnits (h ▸ hMem)
  simpa using hNonzero

theorem C.convertToStdString_eq_content {s : RosidlString U}
    (hString : MembersType.IsString .c s) :
    C.convertToStdString s = MembersType.content .c s := by
  obtain ⟨units, hData, hUnits⟩ := hString
  simp only [C.convertToStdString, MembersType.content, hData, Option.getD_some]
  exact takeWhile_ne_zero_of_notMem hUnits

theorem C.mapM_convertRefToStdString {ss : List (RosidlString U)}
    (hStrings : ∀ s ∈ ss, MembersType.IsString .c s) :
    ss.mapM C.convertRefToStdString = pure (ss.map (MembersType.content .c)) := by
  induction ss with
  | nil => rfl
  | cons s ss ih =>
      obtain ⟨units, hData, hUnits⟩ := hStrings s List.mem_cons_self
      have hHead : C.convertRefToStdString s = pure (MembersType.content .c s) := by
        simp only [C.convertRefToStdString, MembersType.content, hData, Option.getD_some]
        rw [takeWhile_ne_zero_of_notMem hUnits]
      simp [hHead, ih fun s' hs' => hStrings s' (List.mem_cons_of_mem s hs')]

theorem C.assign_content {s : RosidlString U} (hString : MembersType.IsString .c s) :
    C.assign (MembersType.content .c s) = s := by
  obtain ⟨data⟩ := s
  obtain ⟨units, rfl, hUnits⟩ := hString
  simp only [C.assign, MembersType.content, Option.getD_some]
  rw [takeWhile_ne_zero_of_notMem hUnits]

theorem C.map_assign_content {ss : List (RosidlString U)}
    (hStrings : ∀ s ∈ ss, MembersType.IsString .c s) :
    (ss.map (MembersType.content .c)).map C.assign = ss := by
  rw [List.map_map]
  conv_rhs => rw [← List.map_id ss]
  exact List.map_congr_left fun s hs => C.assign_content (hStrings s hs)

theorem C.assignEach_eq_pure (values : List (List U)) :
    C.assignEach values.length values = pure (values.map C.assign) := by
  induction values with
  | nil => rfl
  | cons value values ih => simp [C.assignEach, ih]

theorem arrayItem_map {S T : Type} (item : T → List UInt8) (f : S → T) (xs : List S) :
    arrayItem item (xs.map f) = arrayItem (fun x => item (f x)) xs := by
  simp [arrayItem, List.flatMap_map]

variable {ops : StreamOps (List U)} {item : List U → List UInt8} {member : MessageMember}

theorem C.serializeFieldOfString_writes
    (hOps : ops.EncodesAs Sized item (arrayItem item)) {field : FieldMem (RosidlString U)}
    (hFits : field.Fits member) (hHolds : ∀ s ∈ field.items, MembersType.Holds .c s) :
    WritesUnless (C.RefusesField member field) (C.serializeFieldOfString ops member field)
      (field.wire (fun s => item (MembersType.content .c s))
        (arrayItem fun s => item (MembersType.content .c s))) := by
  cases field with
  | one s =>
      have hScalar : member.isArray = false := hFits
      obtain ⟨hString, hSized⟩ := hHolds s List.mem_cons_self
      simp only [C.serializeFieldOfString, hScalar, Bool.false_eq_true, if_false]
      constructor
      · intro hFine
        rw [C.RefusesField] at hFine
        rw [if_neg hFine, C.convertToStdString_eq_content hString]
        exact hOps.put _ hSized
      · intro hRefused
        rw [C.RefusesField] at hRefused
        rw [if_pos hRefused]
        exact (TxFaults.throw _).bind _
  | many ss =>
      obtain ⟨hArray, hLength, hFixed⟩ := hFits
      have hStrings : ∀ s ∈ ss, MembersType.IsString .c s := fun s hs => (hHolds s hs).1
      -- A null pointer is refused, but no string of the package has one.
      have hNever : ¬ C.RefusesField member (.many ss) := by
        rintro ⟨s, hs, hNull⟩
        obtain ⟨units, hData, -⟩ := hStrings s hs
        rw [hNull] at hData
        cases hData
      have hSized : ∀ str ∈ ss.map (MembersType.content .c), Sized str := by
        intro str hStr
        obtain ⟨s, hs, rfl⟩ := List.mem_map.mp hStr
        exact (hHolds s hs).2
      have hFixed' : ¬ (member.isFixedArray = true ∧ ss.length ≠ member.arraySize.toNat) :=
        fun h => h.2 (hFixed h.1)
      simp only [C.serializeFieldOfString, hArray, C.mapM_convertRefToStdString hStrings,
        Bool.not_true, Bool.false_eq_true, if_false, if_neg hFixed', pure_bind, FieldMem.wire]
      rw [← arrayItem_map]
      exact (hOps.putVector _ (by simpa using hLength) hSized).unless.congr (iff_false_intro hNever)

theorem C.deserializeFieldOfString_reads [DpsCbor]
    (hOps : ops.DecodesAs Sized (fun _ => True) item (arrayItem item))
    {field : FieldMem (RosidlString U)}
    (hFits : field.Fits member) (hHolds : ∀ s ∈ field.items, MembersType.Holds .c s) :
    Reads (C.deserializeFieldOfString ops member)
      (field.wire (fun s => item (MembersType.content .c s))
        (arrayItem fun s => item (MembersType.content .c s))) field := by
  unfold C.deserializeFieldOfString
  cases field with
  | one s =>
      have hScalar : member.isArray = false := hFits
      obtain ⟨hString, hSized⟩ := hHolds s List.mem_cons_self
      simp only [hScalar, Bool.not_false, if_true]
      refine ((hOps.get _ hSized).reads trivial).map ?_
      rw [C.assign_content hString]
      exact Reads.pure _
  | many ss =>
      obtain ⟨hArray, hLength, hFixed⟩ := hFits
      have hStrings : ∀ s ∈ ss, MembersType.IsString .c s := fun s hs => (hHolds s hs).1
      have hSized : ∀ str ∈ ss.map (MembersType.content .c), Sized str := by
        intro str hStr
        obtain ⟨s, hs, rfl⟩ := List.mem_map.mp hStr
        exact (hHolds s hs).2
      simp only [hArray, Bool.not_true, Bool.false_eq_true, if_false, FieldMem.wire]
      rw [← arrayItem_map]
      refine Reads.unreadLength fun unread => ?_
      have hVector := (hOps.getVector _ (by simpa using hLength) hSized).reads fun _ _ => trivial
      refine hVector.map ?_
      split
      · next hIsFixed =>
          -- The vector has as many elements as the array, so no index is past its end.
          have hCount : member.arraySize.toNat = (ss.map (MembersType.content .c)).length := by
            rw [← hFixed hIsFixed, List.length_map]
          rw [hCount, C.assignEach_eq_pure, C.map_assign_content hStrings]
          simpa using Reads.pure (FieldMem.many ss)
      · rw [C.map_assign_content hStrings]
        exact Reads.resize (Reads.pure _)

end CStrings

/-! ## What a conforming value is refused for -/

section Refused

variable {U : Type} [Zero U] [DecidableEq U] {μ : MembersType} {member : MessageMember}

/-- The length test of the C serializer on a string within its bound. -/
theorem C.lengthTest_iff {length : Nat} (hBound : member.StringOk length) :
    (member.stringUpperBound ≠ 0 ∧ (member.stringUpperBound + 1).toNat < length) ↔
      member.BoundWraps ∧ length ≠ 0 := by
  have hRange := member.stringUpperBound.toNat_lt
  have hSum : (member.stringUpperBound + 1).toNat =
      (member.stringUpperBound.toNat + 1) % 2 ^ 64 := by
    simp [UInt64.toNat_add]
  have hWraps : member.BoundWraps ↔ (member.stringUpperBound + 1).toNat = 0 := by
    rw [MessageMember.BoundWraps, ← UInt64.toNat_inj, UInt64.toNat_zero]
  have hBounds : member.stringUpperBound ≠ 0 ↔ member.stringUpperBound.toNat ≠ 0 := by
    rw [ne_eq, ← UInt64.toNat_inj, UInt64.toNat_zero]
  rw [MessageMember.StringOk, hBounds] at hBound
  rw [hWraps, hBounds]
  omega

theorem C.refusesField_iff {field : FieldMem (RosidlString U)}
    (hHolds : ∀ s ∈ field.items, MembersType.Holds .c s)
    (hBounded : field.Bounded member fun s =>
      member.StringOk (MembersType.content .c s).length) :
    C.RefusesField member field ↔ field.RefusedByWrap member := by
  cases field with
  | one s =>
      have hString := (hHolds s List.mem_cons_self).1
      rw [C.RefusesField, C.convertToStdString_eq_content hString, C.lengthTest_iff hBounded]
      simp [FieldMem.RefusedByWrap, MembersType.content]
  | many ss =>
      refine iff_of_false ?_ id
      rintro ⟨s, hs, hNull⟩
      obtain ⟨⟨units, hData, -⟩, -⟩ := hHolds s hs
      rw [hNull] at hData
      cases hData

theorem Value.refused_iff {SubFits SubBounded SubRefused SubWrap : Message μ → Prop}
    (hSub : ∀ msg, SubFits msg → SubBounded msg → (SubRefused msg ↔ SubWrap msg))
    {value : Value μ} (hFits : value.Fits member SubFits)
    (hBounded : value.Bounded member SubBounded) :
    value.Refused member SubRefused ↔ value.RefusedByWrap member SubWrap := by
  cases value with
  | prim t field => cases μ <;> exact Iff.rfl
  | string field =>
      cases μ with
      | cpp => exact Iff.rfl
      | c => exact C.refusesField_iff hFits.2.2 hBounded
  | wstring field =>
      cases μ with
      | cpp => exact Iff.rfl
      | c => exact C.refusesField_iff hFits.2.2 hBounded
  | message msg =>
      have hMsg := hSub msg hFits.2.2 hBounded
      cases μ <;> exact hMsg
  | messages msgs =>
      obtain ⟨-, -, -, hMsgs⟩ := hFits
      obtain ⟨⟨-, hUpper⟩, hMsgsBounded⟩ := hBounded
      -- A bounded sequence keeps its bound, so only its elements can be refused.
      have hNotLong : ¬ (member.isUpperBound = true ∧ member.arraySize.toNat < msgs.length) :=
        fun h => absurd (hUpper h.1) (by omega)
      have hEach : (∃ msg ∈ msgs, SubRefused msg) ↔ ∃ msg ∈ msgs, SubWrap msg :=
        exists_congr fun msg => and_congr_right fun hMem =>
          hSub msg (hMsgs msg hMem) (hMsgsBounded msg hMem)
      cases μ <;> exact (or_iff_right hNotLong).trans hEach

/-- A value of an unknown type does not fit. -/
theorem Value.Fits.known {sub : Message μ → Prop} {value : Value μ}
    (hFits : value.Fits member sub) : ¬ member.typeId.kind = .unknown := by
  intro hUnknown
  cases value <;> simp [Value.Fits, hUnknown] at hFits

theorem MessageMembers.refused_iff {members : MessageMembers} :
    ∀ {msg : Message μ}, members.Fits msg → members.Bounded msg →
      (members.Refused msg ↔ members.RefusedByWrap msg) := by
  induction members with
  | nil => exact fun _ _ => Iff.rfl
  | cons member submembers rest ihSub ihRest =>
      intro msg hFits hBounded
      cases msg with
      | nil => exact hFits.elim
      | cons value values =>
          have hSub : ∀ msg : Message μ,
              submembers.memberCount < 2 ^ 32 ∧ submembers.Fits msg → submembers.Bounded msg →
              (submembers.Refused msg ↔ submembers.RefusedByWrap msg) :=
            fun msg hMsg hMsgBounded => ihSub hMsg.2 hMsgBounded
          have hValue := Value.refused_iff hSub hFits.1 hBounded.1
          exact or_congr ((or_iff_right hFits.1.known).trans hValue) (ihRest hFits.2 hBounded.2)

theorem MessageMember.not_isUpperBound_of_isFixedArray (hFixed : member.isFixedArray = true) :
    member.isUpperBound = false := by
  simp [MessageMember.isFixedArray] at hFixed
  exact hFixed.2

end Refused

/-! ## Members -/

section Members

variable [DpsCbor] [DpsCbor.Lawful] [Platform] {μ : MembersType} {member : MessageMember}

theorem serializePrim_writes {t : PrimType} {field : FieldMem t.Carrier}
    (hFits : field.Fits member) :
    Writes (serializePrim μ t member field) (field.wire t.item t.arrayItem) := by
  cases μ with
  | cpp => exact Cpp.serializeField_writes t.ops_encodesAs hFits fun _ _ => trivial
  | c => exact C.serializeField_writes t.ops_encodesAs hFits fun _ _ => trivial

/-- Testing a boolean as a byte does not change what is written. -/
theorem serializeBoolean_writes {field : FieldMem Bool} (hFits : field.Fits member) :
    Writes (serializeBoolean (serializePrim μ .bool member) member field)
      (field.wire (PrimType.item .bool) (PrimType.arrayItem .bool)) := by
  cases field with
  | one b =>
      have hScalar : member.isArray = false := hFits
      simp only [serializeBoolean, hScalar, Bool.false_eq_true, if_false]
      cases b <;> exact putBool_writes _
  | many bs => exact serializePrim_writes (t := .bool) hFits

omit [Platform] in
theorem serializeString_writes {field : FieldMem (μ.Str UInt8)} (hFits : field.Fits member)
    (hHolds : ∀ s ∈ field.items, μ.Holds s) :
    WritesUnless (μ.RefusesField member field)
      (serializeString μ member field)
      (field.wire (fun s => Rfc7049.text (μ.content s))
        (arrayItem fun s => Rfc7049.text (μ.content s))) := by
  cases μ with
  | cpp =>
      exact (Cpp.serializeField_writes stringOps_encodesAs hFits
        fun s hs => (hHolds s hs).2).unless
  | c => exact C.serializeFieldOfString_writes stringOps_encodesAs hFits hHolds

omit [Platform] in
theorem serializeWstring_writes {field : FieldMem (μ.Str UInt16)} (hFits : field.Fits member)
    (hHolds : ∀ s ∈ field.items, μ.Holds s) :
    WritesUnless (μ.RefusesField member field)
      (serializeWstring μ member field)
      (field.wire (fun s => u16stringItem (μ.content s))
        (arrayItem fun s => u16stringItem (μ.content s))) := by
  cases μ with
  | cpp =>
      exact (Cpp.serializeField_writes u16stringOps_encodesAs hFits
        fun s hs => (hHolds s hs).2).unless
  | c => exact C.serializeFieldOfString_writes u16stringOps_encodesAs hFits hHolds

/-- The length of a sequence of messages goes in front of its elements; a
fixed-size array has none. -/
theorem serializeMessage_writes {serializeSub : Message μ → Tx Unit}
    {SubFits SubRefused : Message μ → Prop} {subWire : Message μ → List UInt8}
    (hSub : ∀ msg, SubFits msg → WritesUnless (SubRefused msg) (serializeSub msg) (subWire msg))
    {msgs : List (Message μ)} (hFits : (Value.messages msgs).Fits member SubFits) :
    WritesUnless ((Value.messages msgs).Refused member SubRefused)
      (serializeMessage member serializeSub (.messages msgs))
      ((Value.messages msgs).wire member subWire) := by
  obtain ⟨-, hArray, hCount, hMsgs⟩ := hFits
  have hEach : ∀ msg ∈ msgs, WritesUnless (SubRefused msg) (serializeSub msg) (subWire msg) :=
    fun msg hMem => hSub msg (hMsgs msg hMem)
  simp only [serializeMessage, hArray, Bool.not_true, Bool.false_eq_true, if_false,
    getSubmessageSequenceSerialize, Value.wire, Value.Refused]
  by_cases hFixed : member.isFixedArray = true
  · rw [if_pos hFixed] at hCount
    have hNotUpper := MessageMember.not_isUpperBound_of_isFixedArray hFixed
    have hLoop := Writes.pure.unless.forM msgs hEach
    simpa [hFixed, hCount, hNotUpper] using hLoop
  · rw [if_neg hFixed] at hCount
    -- The count is written as a `uint32_t`, which holds the length.
    have hBack : (UInt32.ofNat msgs.length).toNat = msgs.length :=
      UInt32.toNat_ofNat_of_lt hCount
    have hHead := putUint32_writes (UInt32.ofNat msgs.length)
    rw [hBack] at hHead
    have hLoop := hHead.unless.forM msgs hEach
    -- The test of the bound stands in front of the first write.
    by_cases hLong : member.isUpperBound = true ∧ member.arraySize.toNat < msgs.length
    · refine ⟨fun hFine => absurd (.inl hLong) hFine, fun _ => ?_⟩
      simp only [hFixed, hLong, Bool.false_eq_true, if_false, and_self, if_true, bind_assoc]
      exact (TxFaults.throw _).bind _
    · simpa [hFixed, hLong] using hLoop

theorem serializeMember_writes {serializeSub : Message μ → Tx Unit}
    {SubFits SubRefused : Message μ → Prop} {subWire : Message μ → List UInt8}
    (hSub : ∀ msg, SubFits msg → WritesUnless (SubRefused msg) (serializeSub msg) (subWire msg))
    {value : Value μ} (hFits : value.Fits member SubFits) :
    WritesUnless (value.Refused member SubRefused)
      (serializeMember member serializeSub value) (value.wire member subWire) := by
  cases value with
  | prim t field =>
      obtain ⟨hKind, hFits⟩ := hFits
      have hWrites : Writes (serializeMember member serializeSub (.prim t field : Value μ))
          (field.wire t.item t.arrayItem) := by
        unfold serializeMember
        -- Only `bool` has a branch of its own in the switch.
        cases t with
        | bool =>
            simp only [hKind, Value.castPrim_prim, castTo, pure_bind]
            exact serializeBoolean_writes hFits
        | _ =>
            simp only [hKind, Value.castPrim_prim, castTo, pure_bind]
            exact serializePrim_writes hFits
      exact hWrites.unless
  | string field =>
      obtain ⟨hKind, hFits, hHolds⟩ := hFits
      simp only [serializeMember, hKind]
      exact serializeString_writes hFits hHolds
  | wstring field =>
      obtain ⟨hKind, hFits, hHolds⟩ := hFits
      simp only [serializeMember, hKind]
      exact serializeWstring_writes hFits hHolds
  | message msg =>
      obtain ⟨hKind, hScalar, hMsg⟩ := hFits
      simp only [serializeMember, hKind, serializeMessage, hScalar, Bool.false_eq_true, if_false]
      exact hSub msg hMsg
  | messages msgs =>
      simp only [serializeMember, hFits.1]
      exact serializeMessage_writes hSub hFits

theorem deserializePrim_readsWhen {every : Prop} (hChars : ReadsChars every) {t : PrimType}
    {field : FieldMem t.Carrier} (hFits : field.Fits member) :
    ReadsWhen (every ∨ ∀ x ∈ field.items, t.Low x) (deserializePrim μ t member)
      (field.wire t.item t.arrayItem) field := by
  have hEach : (every ∨ ∀ x ∈ field.items, t.Low x) ↔ ∀ x ∈ field.items, every ∨ t.Low x := by
    by_cases hEvery : every <;> simp [hEvery]
  have hOps := t.ops_decodesAs hChars
  cases μ with
  | cpp =>
      exact (Cpp.deserializeField_readsWhen hOps hFits fun _ _ => trivial).congr hEach
  | c => exact (C.deserializeField_readsWhen hOps hFits fun _ _ => trivial).congr hEach

omit [Platform] in
theorem deserializeString_reads {field : FieldMem (μ.Str UInt8)} (hFits : field.Fits member)
    (hHolds : ∀ s ∈ field.items, μ.Holds s) :
    Reads (deserializeString μ member)
      (field.wire (fun s => Rfc7049.text (μ.content s))
        (arrayItem fun s => Rfc7049.text (μ.content s))) field := by
  cases μ with
  | cpp =>
      exact (Cpp.deserializeField_readsWhen stringOps_decodesAs hFits fun s hs =>
        (hHolds s hs).2).reads fun _ _ => trivial
  | c => exact C.deserializeFieldOfString_reads stringOps_decodesAs hFits hHolds

omit [Platform] in
theorem deserializeWstring_reads {field : FieldMem (μ.Str UInt16)} (hFits : field.Fits member)
    (hHolds : ∀ s ∈ field.items, μ.Holds s) :
    Reads (deserializeWstring μ member)
      (field.wire (fun s => u16stringItem (μ.content s))
        (arrayItem fun s => u16stringItem (μ.content s))) field := by
  cases μ with
  | cpp =>
      exact (Cpp.deserializeField_readsWhen u16stringOps_decodesAs hFits fun s hs =>
        (hHolds s hs).2).reads fun _ _ => trivial
  | c => exact C.deserializeFieldOfString_reads u16stringOps_decodesAs hFits hHolds

/-- The number of elements of a sequence of messages is known before the first
of them is read: from the description, or from the wire. -/
theorem deserializeMessage_readsWhen {every : Prop} {deserializeSub : Rx (Message μ)}
    {SubFits SubLow : Message μ → Prop} {subWire : Message μ → List UInt8}
    (hSub : ∀ msg, SubFits msg → ReadsWhen (every ∨ SubLow msg) deserializeSub (subWire msg) msg)
    {msgs : List (Message μ)} (hFits : (Value.messages msgs).Fits member SubFits) :
    ReadsWhen (every ∨ (Value.messages msgs).LowChars SubLow)
      (deserializeMessage member deserializeSub)
      ((Value.messages msgs).wire member subWire) (.messages msgs) := by
  obtain ⟨-, hArray, hCount, hMsgs⟩ := hFits
  have hIff : (every ∨ ∀ msg ∈ msgs, SubLow msg) ↔ ∀ msg ∈ msgs, every ∨ SubLow msg := by
    by_cases hEvery : every <;> simp [hEvery]
  have hEach : ReadsWhen (every ∨ ∀ msg ∈ msgs, SubLow msg) (readEach deserializeSub msgs.length)
      (msgs.flatMap subWire) msgs :=
    (ReadsWhen.readEach msgs fun msg hMem => hSub msg (hMsgs msg hMem)).congr hIff
  have hLoop : ReadsWhen (every ∨ ∀ msg ∈ msgs, SubLow msg)
      (do return Value.messages (← readEach deserializeSub msgs.length))
      (msgs.flatMap subWire) (Value.messages msgs) := hEach.map (Reads.pure _)
  unfold deserializeMessage getSubmessageSequenceDeserialize
  simp only [hArray, Bool.not_true, Bool.false_eq_true, if_false, Value.wire, Value.LowChars]
  by_cases hFixed : member.isFixedArray = true
  · rw [if_pos hFixed] at hCount
    simpa only [hFixed, if_true, ← hCount, pure_bind, List.nil_append] using hLoop
  · rw [if_neg hFixed] at hCount
    have hBack : (UInt32.ofNat msgs.length).toNat = msgs.length :=
      UInt32.toNat_ofNat_of_lt hCount
    have hHead := getUint32_reads (UInt32.ofNat msgs.length)
    simp only [hFixed, Bool.false_eq_true, if_false, bind_assoc, pure_bind]
    refine ReadsWhen.unreadLength fun unread => ?_
    rw [hBack] at hHead
    refine hHead.bindWhen (ReadsWhen.resize ?_)
    rwa [hBack]

theorem deserializeMember_readsWhen {every : Prop} (hChars : ReadsChars every)
    {deserializeSub : Rx (Message μ)} {SubFits SubLow : Message μ → Prop}
    {subWire : Message μ → List UInt8}
    (hSub : ∀ msg, SubFits msg → ReadsWhen (every ∨ SubLow msg) deserializeSub (subWire msg) msg)
    {value : Value μ} (hFits : value.Fits member SubFits) :
    ReadsWhen (every ∨ value.LowChars SubLow) (deserializeMember member deserializeSub)
      (value.wire member subWire) value := by
  cases value with
  | prim t field =>
      obtain ⟨hKind, hFits⟩ := hFits
      simp only [deserializeMember, hKind]
      exact (deserializePrim_readsWhen hChars hFits).map (Reads.pure _)
  | string field =>
      obtain ⟨hKind, hFits, hHolds⟩ := hFits
      simp only [deserializeMember, hKind]
      exact ((deserializeString_reads hFits hHolds).when.congr (or_true every).to_iff).map
        (Reads.pure _)
  | wstring field =>
      obtain ⟨hKind, hFits, hHolds⟩ := hFits
      simp only [deserializeMember, hKind]
      exact ((deserializeWstring_reads hFits hHolds).when.congr (or_true every).to_iff).map
        (Reads.pure _)
  | message msg =>
      obtain ⟨hKind, hScalar, hMsg⟩ := hFits
      simp only [deserializeMember, hKind, deserializeMessage, hScalar, Bool.not_false, if_true]
      exact (hSub msg hMsg).map (Reads.pure _)
  | messages msgs =>
      simp only [deserializeMember, hFits.1]
      exact deserializeMessage_readsWhen hSub hFits

theorem deserializeMember_reads (hSigned : Platform.charIsSigned = true)
    {deserializeSub : Rx (Message μ)} {SubFits : Message μ → Prop}
    {subWire : Message μ → List UInt8}
    (hSub : ∀ msg, SubFits msg → Reads deserializeSub (subWire msg) msg)
    {value : Value μ} (hFits : value.Fits member SubFits) :
    Reads (deserializeMember member deserializeSub) (value.wire member subWire) value :=
  have hSubWhen : ∀ msg, SubFits msg →
      ReadsWhen (True ∨ True) deserializeSub (subWire msg) msg := fun msg hMsg =>
    (hSub msg hMsg).when.congr (true_or True).to_iff
  (deserializeMember_readsWhen (readsChars_of_signed hSigned) hSubWhen hFits).reads (.inl trivial)

end Members

/-! ## Messages -/

section Messages

variable [DpsCbor] [DpsCbor.Lawful] [Platform] {μ : MembersType}

theorem serializeMembers_writes {members : MessageMembers} :
    ∀ {msg : Message μ}, members.Fits msg →
      WritesUnless (members.Refused msg) (serializeMembers members msg) (members.wire msg) := by
  induction members with
  | nil =>
      intro msg _
      exact Writes.pure.unless
  | cons member submembers rest ihSub ihRest =>
      intro msg hFits
      cases msg with
      | nil => exact hFits.elim
      | cons value values =>
          have hSub : ∀ msg : Message μ,
              submembers.memberCount < 2 ^ 32 ∧ submembers.Fits msg →
              WritesUnless (submembers.Refused msg)
                (do putArrayHead submembers.memberCount; serializeMembers submembers msg)
                (Rfc7049.array submembers.memberCount ++ submembers.wire msg) := by
            intro msg hMsg
            have hCount : submembers.memberCount < 2 ^ 64 := by omega
            have hHead := putArrayHead_writes hCount
            exact (hHead.unless.bind (ihSub hMsg.2)).congr (by rw [false_or])
          have hValue := serializeMember_writes hSub hFits.1
          exact (hValue.congr (or_iff_right hFits.1.known)).bind (ihRest hFits.2)

omit [Platform] in
theorem checkMemberCount_reads {count : Nat} (hCount : count < 2 ^ 64) :
    Reads (checkMemberCount count) (Rfc7049.array count) () := by
  refine (getArrayHead_reads hCount _).map ?_
  simpa using Reads.pure ()

/-- The members are read back unless a character with the highest bit is in the way. -/
theorem deserializeMembers_readsWhen {every : Prop} (hChars : ReadsChars every)
    {members : MessageMembers} :
    ∀ {msg : Message μ}, members.Fits msg →
      ReadsWhen (every ∨ members.LowChars msg) (deserializeMembers members) (members.wire msg)
        msg := by
  induction members with
  | nil =>
      intro msg hFits
      cases msg with
      | nil => exact (Reads.pure []).when.congr (or_true every).to_iff
      | cons value values => exact hFits.elim
  | cons member submembers rest ihSub ihRest =>
      intro msg hFits
      cases msg with
      | nil => exact hFits.elim
      | cons value values =>
          have hSub : ∀ msg : Message μ,
              submembers.memberCount < 2 ^ 32 ∧ submembers.Fits msg →
              ReadsWhen (every ∨ submembers.LowChars msg)
                (do checkMemberCount submembers.memberCount; deserializeMembers submembers)
                (Rfc7049.array submembers.memberCount ++ submembers.wire msg) msg :=
            fun msg hMsg => (checkMemberCount_reads (by omega)).bindWhen (ihSub hMsg.2)
          have hValue := deserializeMember_readsWhen hChars hSub hFits.1
          exact (hValue.bind ((ihRest hFits.2).map (Reads.pure (value :: values)))).congr
            or_and_left

theorem deserializeMembers_reads (hSigned : Platform.charIsSigned = true)
    {members : MessageMembers} {msg : Message μ} (hFits : members.Fits msg) :
    Reads (deserializeMembers members) (members.wire msg) msg :=
  (deserializeMembers_readsWhen (readsChars_of_signed hSigned) hFits).reads (.inl trivial)

/-- One pass writes the payload of a value that fits, or is refused. -/
theorem serializePass_writes_of_fits {members : MessageMembers} {msg : Message μ}
    (hCount : members.memberCount < 2 ^ 32) (hFits : members.Fits msg) :
    WritesUnless (members.Refused msg) (serializePass members msg) (members.payload msg) := by
  have hMembers := serializeMembers_writes hFits
  unfold serializePass MessageMembers.payload
  by_cases hEmpty : members.memberCount ≠ 0
  · rw [if_pos hEmpty, if_pos hEmpty]
    have hSized : members.memberCount < 2 ^ 64 := by omega
    have hHead := putArrayHead_writes hSized
    exact (hHead.unless.bind hMembers).congr (by rw [false_or])
  · rw [if_neg hEmpty, if_neg hEmpty]
    cases members with
    | nil => exact (putUint8_writes 0).unless
    | cons member submembers rest => simp [MessageMembers.memberCount] at hEmpty

/-- On a conforming value only a bound that wraps is refused. -/
theorem serializePass_writes {members : MessageMembers} {msg : Message μ}
    (hConforms : members.Conforms msg) :
    WritesUnless (members.RefusedByWrap msg) (serializePass members msg) (members.payload msg) :=
  (serializePass_writes_of_fits hConforms.count hConforms.fits).congr
    (MessageMembers.refused_iff hConforms.fits hConforms.bounded).symm

/-- The public deserializer reads the payload of a value that fits, whether or not the
value keeps its bounds, unless a character with the highest bit is in the way. -/
theorem TypeSupport.deserializeROSmessage_readsWhen {every : Prop} (hChars : ReadsChars every)
    {members : MessageMembers} {msg : Message μ} (hCount : members.memberCount < 2 ^ 32)
    (hFits : members.Fits msg) :
    ReadsWhen (every ∨ members.LowChars msg) (TypeSupport.deserializeROSmessage members)
      (members.payload msg) msg := by
  unfold TypeSupport.deserializeROSmessage MessageMembers.payload
  by_cases hEmpty : members.memberCount ≠ 0
  · rw [if_pos hEmpty, if_pos hEmpty]
    exact (checkMemberCount_reads (by omega)).bindWhen (deserializeMembers_readsWhen hChars hFits)
  · rw [if_neg hEmpty, if_neg hEmpty]
    cases members with
    | nil =>
        cases msg with
        | nil =>
            exact ((getUint8_reads 0).map (Reads.pure [])).when.congr (or_true every).to_iff
        | cons value values => exact hFits.elim
    | cons member submembers rest => simp [MessageMembers.memberCount] at hEmpty

theorem TypeSupport.deserializeROSmessage_reads (hSigned : Platform.charIsSigned = true)
    {members : MessageMembers} {msg : Message μ} (hCount : members.memberCount < 2 ^ 32)
    (hFits : members.Fits msg) :
    Reads (TypeSupport.deserializeROSmessage members) (members.payload msg) msg :=
  (TypeSupport.deserializeROSmessage_readsWhen (readsChars_of_signed hSigned) hCount hFits).reads
    (.inl trivial)

omit [DpsCbor.Lawful] in
/-- The public serializer succeeds on a fresh stream of any capacity. -/
theorem TypeSupport.serializeROSmessage_writes {members : MessageMembers} {msg : Message μ}
    {bytes : List UInt8} (hPass : Writes (serializePass members msg) bytes) (hint : Nat) :
    ∃ ser, TypeSupport.serializeROSmessage members msg (TxStream.new hint) = .ok (true, ser) ∧
      ser.data = bytes := by
  obtain ⟨ser, hRun, hOk, hData⟩ := writeWithRetry_of_writes hPass hint
  refine ⟨ser, ?_, hData⟩
  simp [TypeSupport.serializeROSmessage, hRun, hOk, bind, Except.bind, pure, Except.pure]

omit [DpsCbor.Lawful] in
theorem TypeSupport.serializeROSmessage_faults {members : MessageMembers} {msg : Message μ}
    (hPass : TxFaults (serializePass members msg)) (ser : TxStream) :
    ∃ fault, TypeSupport.serializeROSmessage members msg ser = .error fault := by
  obtain ⟨fault, hRun⟩ := writeWithRetry_of_faults hPass ser
  refine ⟨fault, ?_⟩
  simp [TypeSupport.serializeROSmessage, hRun, bind, Except.bind]

omit [DpsCbor.Lawful] in
/-- A value is not refused if the public serializer returns. -/
theorem TypeSupport.not_refused_of_returns {members : MessageMembers} {msg : Message μ}
    {refused : Prop} {bytes : List UInt8} {ser : TxStream} {result : Bool × TxStream}
    (hPass : WritesUnless refused (serializePass members msg) bytes)
    (hOk : TypeSupport.serializeROSmessage members msg ser = .ok result) : ¬ refused := by
  intro hRefused
  obtain ⟨fault, hFault⟩ := TypeSupport.serializeROSmessage_faults (hPass.faults hRefused) ser
  rw [hOk] at hFault
  cases hFault

omit [DpsCbor.Lawful] in
theorem TypeSupport.data_of_returns {members : MessageMembers} {msg : Message μ}
    {refused : Prop} {bytes : List UInt8} {hint : Nat} {ser : TxStream}
    (hPass : WritesUnless refused (serializePass members msg) bytes)
    (hOk : TypeSupport.serializeROSmessage members msg (TxStream.new hint) = .ok (true, ser)) :
    ser.data = bytes := by
  have hFine := TypeSupport.not_refused_of_returns hPass hOk
  obtain ⟨ser', hOk', hData⟩ :=
    TypeSupport.serializeROSmessage_writes (hPass.writes hFine) hint
  rw [hOk] at hOk'
  cases hOk'
  exact hData

/-- What one side writes, followed by anything, the same side reads back as the
value it was given, and leaves what followed. -/
def RoundTrips (members : MessageMembers) (msg : Message μ) : Prop :=
  ∀ hint rest, ∃ ser deser,
    TypeSupport.serializeROSmessage members msg (TxStream.new hint) = .ok (true, ser) ∧
      Rx.exec (TypeSupport.deserializeROSmessage members) (RxStream.ofBytes (ser.data ++ rest)) =
        (.ok msg, deser) ∧
      deser.unread = rest

/-- A conforming value makes the round trip exactly when it has no non-empty
string that the wrapped bound refuses. -/
theorem roundTrips_iff (hSigned : Platform.charIsSigned = true) {members : MessageMembers}
    {msg : Message μ} (hConforms : members.Conforms msg) :
    RoundTrips members msg ↔ ¬ members.RefusedByWrap msg := by
  have hPass := serializePass_writes hConforms
  constructor
  · intro hRoundTrips
    obtain ⟨ser, -, hOk, -⟩ := hRoundTrips 0 []
    exact TypeSupport.not_refused_of_returns hPass hOk
  · intro hFine hint rest
    obtain ⟨ser, hOk, hData⟩ :=
      TypeSupport.serializeROSmessage_writes (hPass.writes hFine) hint
    have hReads := TypeSupport.deserializeROSmessage_reads hSigned hConforms.count hConforms.fits
    obtain ⟨deser, hRun, hUnread⟩ :=
      hReads (RxStream.ofBytes (ser.data ++ rest)) rest (by rw [hData]; rfl)
    exact ⟨ser, deser, hOk, hRun, hUnread⟩

end Messages

/-! ## A value that makes the round trip, and one that does not -/

/-- A bounded string, a sequence of octets and a fixed-size array of messages,
each with a `double` and a sequence of `u16string`s. -/
def scanMembers : MessageMembers :=
  .cons { typeId := .string, stringUpperBound := 3 } .nil <|
  .cons { typeId := .octet, isArray := true } .nil <|
  .cons { typeId := .message, isArray := true, arraySize := 2 }
    (.cons { typeId := .double } .nil <|
      .cons { typeId := .wstring, isArray := true } .nil .nil)
    .nil

def scan : Message .c :=
  [.string (.one ⟨some [0x6D, 0x61, 0x70]⟩), .prim .uint8 (.many [0, 255]),
    .messages [
      [.prim .double (.one ⟨0⟩), .wstring (.many [⟨some [0x3C0]⟩, ⟨some []⟩])],
      [.prim .double (.one ⟨0x7FF8000000000001⟩), .wstring (.many [])]]]

theorem scan_conforms : scanMembers.Conforms scan := by
  refine ⟨by decide, ?_, ?_⟩
  · simp [scanMembers, scan, MessageMembers.Fits, Value.Fits, FieldMem.Fits, FieldMem.items,
      RosType.kind, MessageMember.isFixedArray, MembersType.Holds, MembersType.IsString,
      MembersType.content, MessageMembers.memberCount]
  · simp [scanMembers, scan, MessageMembers.Bounded, Value.Bounded, FieldMem.Bounded,
      MessageMember.LengthOk, MessageMember.StringOk, MessageMember.isFixedArray,
      MembersType.content]

theorem scan_fine : ¬ scanMembers.RefusedByWrap scan := by
  simp [scanMembers, scan, MessageMembers.RefusedByWrap, Value.RefusedByWrap,
    FieldMem.RefusedByWrap, MessageMember.BoundWraps]

theorem scan_roundTrips : @RoundTrips rfcCbor signedChar .c scanMembers scan :=
  let _ := rfcCbor
  let _ := rfcCbor_lawful
  let _ := signedChar
  (roundTrips_iff rfl scan_conforms).mpr scan_fine

/-- A string member whose bound is the largest `size_t`, and a value of one
code unit. -/
def widestMembers : MessageMembers :=
  .cons { typeId := .string, stringUpperBound := 0xFFFFFFFFFFFFFFFF } .nil .nil

def widest : Message .c := [.string (.one ⟨some [0x61]⟩)]

theorem widest_conforms : widestMembers.Conforms widest := by
  refine ⟨by decide, ?_, ?_⟩
  · simp [widestMembers, widest, MessageMembers.Fits, Value.Fits, FieldMem.Fits, FieldMem.items,
      RosType.kind, MembersType.Holds, MembersType.IsString, MembersType.content]
  · simp [widestMembers, widest, MessageMembers.Bounded, Value.Bounded, FieldMem.Bounded,
      MessageMember.StringOk, MembersType.content]

/-- The wrapped bound makes a conforming value fail. -/
theorem widest_not_roundTrips :
    widestMembers.Conforms widest ∧
      ¬ @RoundTrips rfcCbor signedChar .c widestMembers widest := by
  refine ⟨widest_conforms, ?_⟩
  let _ := rfcCbor
  let _ := signedChar
  intro hRoundTrips
  obtain ⟨ser, -, hOk, -⟩ := hRoundTrips 0 []
  have hFault : TypeSupport.serializeROSmessage widestMembers widest (TxStream.new 0) =
      .error (.runtimeError "string overcomes the maximum length") := rfl
  rw [hFault] at hOk
  cases hOk

end Serialization
end RmwDps
