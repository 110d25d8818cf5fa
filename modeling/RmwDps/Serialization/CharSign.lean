import RmwDps.Serialization.CrossPackage
import RmwDps.Serialization.HostileInput

/-!
# The sign of plain `char`

The members of types `int8` and `char` are written through `operator<<(const char)`,
which widens a plain `char`, and read as `int8_t`.  Where plain `char` is unsigned, an
element from 0x80 on is therefore written as a positive number, not as the negative one
that the other platforms write and that every platform reads.

`Discerns` compares the two payloads of a value item by item: two items of one position
are equal, or no continuation makes them so, as they decode to different integers.
-/

namespace RmwDps
namespace Serialization

/-! ## Two writings of one item -/

/-- The lists are equal if `same`, and otherwise differ before either of them ends. -/
structure Discerns {α : Type} (same : Prop) (xs ys : List α) : Prop where
  eq : same → xs = ys
  cancel : ∀ rest rest', xs ++ rest = ys ++ rest' → same ∧ rest = rest'

section Discerns

variable {α : Type} {same same' : Prop} {xs ys xs' ys' : List α}

theorem Discerns.refl (xs : List α) : Discerns True xs xs where
  eq _ := rfl
  cancel _ _ hEq := ⟨trivial, List.append_cancel_left hEq⟩

theorem Discerns.congr (hDiscerns : Discerns same xs ys) (hIff : same' ↔ same) :
    Discerns same' xs ys where
  eq hSame := hDiscerns.eq (hIff.mp hSame)
  cancel rest rest' hEq := (hDiscerns.cancel rest rest' hEq).imp_left hIff.mpr

theorem Discerns.append (hFront : Discerns same xs ys) (hBack : Discerns same' xs' ys') :
    Discerns (same ∧ same') (xs ++ xs') (ys ++ ys') where
  eq := fun ⟨hSame, hSame'⟩ => by rw [hFront.eq hSame, hBack.eq hSame']
  cancel rest rest' hEq := by
    simp only [List.append_assoc] at hEq
    obtain ⟨hSame, hEq'⟩ := hFront.cancel _ _ hEq
    obtain ⟨hSame', hRest⟩ := hBack.cancel _ _ hEq'
    exact ⟨⟨hSame, hSame'⟩, hRest⟩

theorem Discerns.flatMap {T : Type} {same : T → Prop} {f g : T → List α} {items : List T}
    (hItem : ∀ x ∈ items, Discerns (same x) (f x) (g x)) :
    Discerns (∀ x ∈ items, same x) (items.flatMap f) (items.flatMap g) := by
  induction items with
  | nil => exact (Discerns.refl []).congr (by simp)
  | cons x items ih =>
      obtain ⟨hHead, hTail⟩ := List.forall_mem_cons.mp hItem
      exact (hHead.append (ih hTail)).congr List.forall_mem_cons

theorem Discerns.eq_iff (hDiscerns : Discerns same xs ys) : xs = ys ↔ same := by
  constructor
  · intro hEq
    exact (hDiscerns.cancel [] [] (by rw [hEq])).1
  · exact hDiscerns.eq

end Discerns

/-- The items of two integers in the range of CBOR. -/
theorem int_discerns {i j : Int} (hi : -2 ^ 63 ≤ i ∧ i < 2 ^ 64) (hj : -2 ^ 63 ≤ j ∧ j < 2 ^ 64) :
    Discerns (i = j) (Rfc7049.int i) (Rfc7049.int j) where
  eq hSame := by rw [hSame]
  cancel rest rest' hEq := by
    have hRead := Rfc7049.readInt_int hi.1 hi.2 rest
    rw [hEq, Rfc7049.readInt_int hj.1 hj.2 rest'] at hRead
    simpa [eq_comm] using hRead

/-! ## The two platforms -/

theorem CChar.item_discerns (c : CChar) :
    Discerns c.Low (@PrimType.item signedChar .char c) (@PrimType.item unsignedChar .char c) := by
  have hSigned : (@CChar.toInt64 signedChar c).toInt = c.bits.toInt8.toInt :=
    Int8.toInt_toInt64 _
  have hRange := c.bits.toNat_lt
  show Discerns c.Low (Rfc7049.int _) (Rfc7049.int _)
  rw [hSigned, CChar.toInt_unsigned]
  refine (int_discerns ?_ (by omega)).congr CChar.low_iff
  rw [CChar.toInt_toInt8]
  split_ifs <;> omega

/-! ## Two writings of a message -/

section Wire

variable {μ : MembersType} {member : MessageMember}

theorem PrimType.wire_discerns {t : PrimType} (field : FieldMem t.Carrier) :
    Discerns (∀ x ∈ field.items, t.Low x)
      (field.wire (@PrimType.item signedChar t) (@PrimType.arrayItem signedChar t))
      (field.wire (@PrimType.item unsignedChar t) (@PrimType.arrayItem unsignedChar t)) := by
  cases t with
  | char =>
      cases field with
      | one c => exact (CChar.item_discerns c).congr (by simp [FieldMem.items, PrimType.Low])
      | many cs =>
          have hElements := Discerns.flatMap fun c (_ : c ∈ cs) => CChar.item_discerns c
          exact ((Discerns.refl (Rfc7049.array cs.length)).append hElements).congr
            (true_and _).symm.to_iff
  | _ =>
      -- the platform has no part in the other types
      have hSame : ∀ xs : List UInt8, Discerns True xs xs := Discerns.refl
      exact (hSame _).congr (by simp [PrimType.Low])

theorem Value.wire_discerns {sub sub' : Message μ → List UInt8} {SubLow : Message μ → Prop}
    (hSub : ∀ msg, Discerns (SubLow msg) (sub msg) (sub' msg)) (value : Value μ) :
    Discerns (value.LowChars SubLow) (@Value.wire signedChar μ member sub value)
      (@Value.wire unsignedChar μ member sub' value) := by
  cases value with
  | prim t field => exact PrimType.wire_discerns field
  | string field => exact Discerns.refl _
  | wstring field => exact Discerns.refl _
  | message msg => exact hSub msg
  | messages msgs =>
      have hElements := Discerns.flatMap fun msg (_ : msg ∈ msgs) => hSub msg
      exact ((Discerns.refl _).append hElements).congr (true_and _).symm.to_iff

theorem MessageMembers.wire_discerns (members : MessageMembers) :
    ∀ msg : Message μ, Discerns (members.LowChars msg)
      (@MessageMembers.wire signedChar μ members msg)
      (@MessageMembers.wire unsignedChar μ members msg) := by
  induction members with
  | nil => exact fun _ => Discerns.refl []
  | cons member submembers rest ihSub ihRest =>
      intro msg
      cases msg with
      | nil => exact Discerns.refl []
      | cons value values =>
          refine (Value.wire_discerns (fun msg => ?_) value).append (ihRest values)
          exact ((Discerns.refl _).append (ihSub msg)).congr (true_and _).symm.to_iff

/-- The two payloads are the same exactly when no element has the highest bit. -/
theorem MessageMembers.payload_eq_iff {members : MessageMembers} {msg : Message μ} :
    @MessageMembers.payload signedChar μ members msg =
      @MessageMembers.payload unsignedChar μ members msg ↔ members.LowChars msg := by
  cases members with
  | nil => exact iff_of_true rfl trivial
  | cons member submembers rest =>
      have hWire := MessageMembers.wire_discerns (.cons member submembers rest) msg
      exact (((Discerns.refl _).append hWire).congr (true_and _).symm.to_iff).eq_iff

/-- Only the highest bit of a `char` on a platform where it is unsigned matters. -/
theorem MessageMembers.payload_signed {members : MessageMembers} {msg : Message μ} :
    ∀ p : Platform, p.charIsSigned = true ∨ members.LowChars msg →
      @MessageMembers.payload p μ members msg = @MessageMembers.payload signedChar μ members msg
  | ⟨true⟩, _ => rfl
  | ⟨false⟩, hChars =>
      (MessageMembers.payload_eq_iff.mpr (hChars.resolve_left Bool.false_ne_true)).symm

end Wire

/-! ## Independence of the platform -/

/-- The package can hold the value, which is given in the C++ representation. -/
def MessageMembers.HeldBy (members : MessageMembers) (value : Message .cpp) : MembersType → Prop
  | .cpp => True
  | .c => members.ZeroFree value

/-- The value in the representation of the package. -/
def MessageMembers.represent (members : MessageMembers) (value : Message .cpp) :
    (μ : MembersType) → Message μ
  | .cpp => value
  | .c => members.toC value

theorem MessageMembers.conforms_represent {members : MessageMembers} {value : Message .cpp}
    (hConforms : members.Conforms value) {μ : MembersType} (hHeld : members.HeldBy value μ) :
    members.Conforms (members.represent value μ) := by
  cases μ with
  | cpp => exact hConforms
  | c => exact MessageMembers.conforms_toC hConforms hHeld

theorem MessageMembers.fits_represent {members : MessageMembers} {value : Message .cpp}
    (hFits : members.Fits value) {μ : MembersType} (hHeld : members.HeldBy value μ) :
    members.Fits (members.represent value μ) := by
  cases μ with
  | cpp => exact hFits
  | c => exact MessageMembers.fits_toC hFits hHeld

theorem MessageMembers.payload_represent [Platform] (members : MessageMembers)
    (value : Message .cpp) (μ : MembersType) :
    members.payload (members.represent value μ) = members.payload value := by
  cases μ with
  | cpp => rfl
  | c => exact MessageMembers.payload_toC members value

/-- What one platform writes of the value, in either package, every platform writes,
and every platform reads back, in either package. -/
def CharIndependent [DpsCbor] (members : MessageMembers) (value : Message .cpp) : Prop :=
  ∀ (μ : MembersType) (p p' : Platform) (hint hint' : Nat) (ser : TxStream),
    members.HeldBy value μ →
    @TypeSupport.serializeROSmessage _ p μ members (members.represent value μ)
        (TxStream.new hint) = .ok (true, ser) →
      (∃ ser', @TypeSupport.serializeROSmessage _ p' μ members (members.represent value μ)
          (TxStream.new hint') = .ok (true, ser') ∧ ser'.data = ser.data) ∧
      ∀ ν, members.HeldBy value ν →
        ∃ deser, Rx.exec (@TypeSupport.deserializeROSmessage _ p' ν members)
          (RxStream.ofBytes ser.data) = (.ok (members.represent value ν), deser)

section Independence

variable [DpsCbor] [DpsCbor.Lawful] {members : MessageMembers} {value : Message .cpp}

theorem lowChars_of_charIndependent (hConforms : members.Conforms value)
    (hIndependent : CharIndependent members value) : members.LowChars value := by
  -- Compare the two platforms in the C++ package, which refuses nothing.
  have hPass := fun p : Platform => @serializePass_writes _ _ p _ members value hConforms
  obtain ⟨ser, hOk, hData⟩ := @TypeSupport.serializeROSmessage_writes _ signedChar _ _ _ _
    ((hPass signedChar).writes MessageMembers.not_refusedByWrap_cpp) 0
  obtain ⟨⟨ser', hOk', hSame⟩, -⟩ :=
    hIndependent .cpp signedChar unsignedChar 0 0 ser trivial hOk
  have hData' := @TypeSupport.data_of_returns _ unsignedChar _ _ _ _ _ _ _ (hPass unsignedChar) hOk'
  exact MessageMembers.payload_eq_iff.mp (by rw [← hData, ← hData', hSame])

theorem charIndependent_of_lowChars (hConforms : members.Conforms value)
    (hLow : members.LowChars value) : CharIndependent members value := by
  intro μ p p' hint hint' ser hHeld hOk
  have hRepresented := MessageMembers.conforms_represent hConforms hHeld
  have hPass := fun q : Platform => @serializePass_writes _ _ q _ _ _ hRepresented
  have hFine := @TypeSupport.not_refused_of_returns _ p _ _ _ _ _ _ _ (hPass p) hOk
  -- All platforms and packages write the payload of the value on a signed platform.
  have hPayload : ∀ (q : Platform) (ν : MembersType),
      @MessageMembers.payload q ν members (members.represent value ν) =
        @MessageMembers.payload signedChar .cpp members value := fun q ν =>
    (@MessageMembers.payload_represent q members value ν).trans
      (MessageMembers.payload_signed q (.inr hLow))
  have hData : ser.data = @MessageMembers.payload signedChar .cpp members value :=
    (@TypeSupport.data_of_returns _ p _ _ _ _ _ _ _ (hPass p) hOk).trans (hPayload p μ)
  constructor
  · obtain ⟨ser', hOk', hData'⟩ := @TypeSupport.serializeROSmessage_writes _ p' _ _ _ _
      ((hPass p').writes hFine) hint'
    exact ⟨ser', hOk', hData'.trans ((hPayload p' μ).trans hData.symm)⟩
  · intro ν hHeld'
    have hRead := MessageMembers.conforms_represent hConforms hHeld'
    have hReads := @TypeSupport.deserializeROSmessage_reads _ _ signedChar ν rfl _ _ hRead.count
      hRead.fits
    rw [TypeSupport.deserializeROSmessage_platform signedChar p', hPayload signedChar ν,
      ← hData] at hReads
    obtain ⟨deser, hRun, -⟩ :=
      hReads (RxStream.ofBytes ser.data) [] (List.append_nil _).symm
    exact ⟨deser, hRun⟩

/-- The platform cannot be told from the wire exactly when no `int8` or `char` of the
value has the highest bit. -/
theorem charIndependent_iff (hConforms : members.Conforms value) :
    CharIndependent members value ↔ members.LowChars value :=
  ⟨lowChars_of_charIndependent hConforms, charIndependent_of_lowChars hConforms⟩

end Independence

/-! ## A value that keeps the platform secret, and one that does not -/

/-- An `int8` and an array of `char`. -/
def toneMembers : MessageMembers :=
  .cons { typeId := .int8 } .nil <|
  .cons { typeId := .char, isArray := true, arraySize := 2 } .nil .nil

def tone : Message .cpp := [.prim .char (.one ⟨1⟩), .prim .char (.many [⟨0⟩, ⟨0x7F⟩])]

/-- The same with -1 in place of 1. -/
def lowTone : Message .cpp := [.prim .char (.one ⟨0xFF⟩), .prim .char (.many [⟨0⟩, ⟨0x7F⟩])]

theorem tones_conform : toneMembers.Conforms tone ∧ toneMembers.Conforms lowTone := by
  refine ⟨⟨by decide, ?_, ?_⟩, ⟨by decide, ?_, ?_⟩⟩ <;>
    simp [toneMembers, tone, lowTone, MessageMembers.Fits, Value.Fits, FieldMem.Fits, RosType.kind,
      MessageMember.isFixedArray, MessageMembers.Bounded, Value.Bounded, FieldMem.Bounded,
      MessageMember.LengthOk]

theorem tone_charIndependent : @CharIndependent rfcCbor toneMembers tone := by
  let _ := rfcCbor
  let _ := rfcCbor_lawful
  refine (charIndependent_iff tones_conform.1).mpr ?_
  simp [toneMembers, tone, MessageMembers.LowChars, Value.LowChars, FieldMem.items, PrimType.Low,
    CChar.Low]

/-- The platforms write -1 as two different integers. -/
theorem lowTone_not_charIndependent :
    toneMembers.Conforms lowTone ∧ ¬ @CharIndependent rfcCbor toneMembers lowTone := by
  refine ⟨tones_conform.2, fun hIndependent => ?_⟩
  let _ := rfcCbor
  obtain ⟨⟨ser', hOk', hSame⟩, -⟩ :=
    hIndependent .cpp signedChar unsignedChar 16 16 _ trivial rfl
  cases hOk'
  exact absurd hSame (by decide)

end Serialization
end RmwDps
