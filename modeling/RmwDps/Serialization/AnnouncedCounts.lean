import RmwDps.Serialization.DecodeBounds

/-!
# Counts that the input cannot hold

A container is resized to the count in its head before its elements are read.  DPS tests
the length of a byte string or of a text against the bytes that are left, and nobody tests
the number of elements of an array, so that number is believed: the head of a vector or of
a `u16string`, the head that the C decoder peeks at, and the integer in front of a sequence
of messages.

`MessageMembers.Believes` says of a description and an input that such a head stands where
decoding gets to, and announces more elements than there are bytes from it on.  On these
inputs and on no others the decoder resizes a container to more than the input can hold.
-/

namespace RmwDps
namespace Serialization

/-! ## Readers and what they resize -/

/-- The value that a reader has taken off its input, and what it has left. -/
def Rx.taken {α : Type} : Except Fault α × RxStream → Option (α × List UInt8)
  | (.ok a, deser) => some (a, deser.unread)
  | (.error _, _) => none

/-- What a reader takes off the front of an input, and what it leaves. -/
def Rx.parse {α : Type} (reader : Rx α) (input : List UInt8) : Option (α × List UInt8) :=
  Rx.taken (Rx.exec reader (RxStream.ofBytes input))

/-- A container was resized to more elements than there were unread bytes at its head. -/
def Oversized (heads : List (Nat × Nat)) : Prop :=
  ∃ head ∈ heads, head.2 < head.1

/-- What a reader does depends on the unread bytes only, and it resizes a container to more
elements than they can hold exactly when `believes` is true of them. -/
structure BelievesOn {α : Type} (reader : Rx α) (believes : List UInt8 → Prop) : Prop where
  parse : ∀ deser, Rx.taken (Rx.exec reader deser) = reader.parse deser.unread
  heads : ∀ deser, ∃ heads, (Rx.exec reader deser).2.resized = deser.resized ++ heads ∧
    (Oversized heads ↔ believes deser.unread)

section BelievesOn

variable {α β : Type} {reader : Rx α} {next : α → Rx β} {believes believes' : List UInt8 → Prop}
  {believesNext : α → List UInt8 → Prop}

theorem not_oversized_nil : ¬ Oversized [] := by
  rintro ⟨head, hMem, -⟩
  cases hMem

theorem oversized_append {heads heads' : List (Nat × Nat)} :
    Oversized (heads ++ heads') ↔ Oversized heads ∨ Oversized heads' := by
  simp only [Oversized, List.mem_append, or_and_right, exists_or]

theorem oversized_singleton {head : Nat × Nat} : Oversized [head] ↔ head.2 < head.1 := by
  simp [Oversized]

theorem BelievesOn.congr (hReader : BelievesOn reader believes)
    (hIff : ∀ input, believes' input ↔ believes input) : BelievesOn reader believes' where
  parse := hReader.parse
  heads deser := by
    obtain ⟨heads, hResized, hBelieves⟩ := hReader.heads deser
    exact ⟨heads, hResized, hBelieves.trans (hIff _).symm⟩

theorem BelievesOn.pure (a : α) : BelievesOn (pure a) fun _ => False where
  parse _ := rfl
  heads _ := ⟨[], (List.append_nil _).symm, iff_of_false not_oversized_nil id⟩

theorem BelievesOn.fault (fault : Fault) : BelievesOn (throw fault : Rx α) fun _ => False where
  parse _ := rfl
  heads _ := ⟨[], (List.append_nil _).symm, iff_of_false not_oversized_nil id⟩

/-- A primitive takes what its decoder takes. -/
theorem Rx.taken_read (decode : List UInt8 → Option (α × List UInt8)) (what : String)
    (deser : RxStream) :
    Rx.taken (Rx.exec (RxStream.read decode what) deser) = decode deser.unread := by
  rw [RxStream.exec_read]
  cases decode deser.unread with
  | none => rfl
  | some result => rfl

theorem Rx.parse_read (decode : List UInt8 → Option (α × List UInt8)) (what : String)
    (input : List UInt8) : (RxStream.read decode what).parse input = decode input :=
  Rx.taken_read decode what (RxStream.ofBytes input)

theorem BelievesOn.read (decode : List UInt8 → Option (α × List UInt8)) (what : String) :
    BelievesOn (RxStream.read decode what) fun _ => False where
  parse deser := by rw [Rx.taken_read, Rx.parse_read]
  heads deser := by
    refine ⟨[], ?_, iff_of_false not_oversized_nil id⟩
    rw [RxStream.exec_read, List.append_nil]
    cases decode deser.unread <;> rfl

/-- One reader after the other. -/
theorem Rx.taken_bind (hNext : ∀ a, BelievesOn (next a) (believesNext a)) (deser : RxStream) :
    Rx.taken (Rx.exec (reader >>= next) deser) =
      (Rx.taken (Rx.exec reader deser)).bind fun result => (next result.1).parse result.2 := by
  rw [Rx.exec_bind]
  rcases Rx.exec reader deser with ⟨fault | a, deser'⟩
  · rfl
  · exact (hNext a).parse deser'

theorem Rx.parse_bind (hNext : ∀ a, BelievesOn (next a) (believesNext a)) (input : List UInt8) :
    (reader >>= next).parse input =
      (reader.parse input).bind fun result => (next result.1).parse result.2 :=
  Rx.taken_bind hNext (RxStream.ofBytes input)

theorem BelievesOn.bind (hReader : BelievesOn reader believes)
    (hNext : ∀ a, BelievesOn (next a) (believesNext a)) :
    BelievesOn (reader >>= next) fun input =>
      believes input ∨ ∃ a rest, reader.parse input = some (a, rest) ∧ believesNext a rest where
  parse deser := by rw [Rx.taken_bind hNext, Rx.parse_bind hNext, hReader.parse]
  heads deser := by
    obtain ⟨heads, hResized, hBelieves⟩ := hReader.heads deser
    rw [← hReader.parse, Rx.exec_bind]
    revert hResized
    rcases Rx.exec reader deser with ⟨fault | a, deser'⟩
    · intro hResized
      refine ⟨heads, hResized, hBelieves.trans (or_iff_left ?_).symm⟩
      rintro ⟨a, rest, hTaken, -⟩
      cases hTaken
    · intro hResized
      obtain ⟨heads', hResized', hBelieves'⟩ := (hNext a).heads deser'
      refine ⟨heads ++ heads', ?_, ?_⟩
      · dsimp only at hResized ⊢
        rw [hResized', hResized, List.append_assoc]
      · rw [oversized_append, hBelieves, hBelieves']
        refine or_congr_right ⟨fun h => ⟨a, deser'.unread, rfl, h⟩, ?_⟩
        rintro ⟨_, _, hTaken, h⟩
        cases hTaken
        exact h

theorem BelievesOn.oversized_iff (hReader : BelievesOn reader believes) (input : List UInt8) :
    Oversized (Rx.exec reader (RxStream.ofBytes input)).2.resized ↔ believes input := by
  obtain ⟨heads, hResized, hBelieves⟩ := hReader.heads (RxStream.ofBytes input)
  rw [hResized]
  exact hBelieves

/-- A reader in front of one that never resizes. -/
theorem BelievesOn.map (hReader : BelievesOn reader believes)
    (hNext : ∀ a, BelievesOn (next a) fun _ => False) : BelievesOn (reader >>= next) believes :=
  (hReader.bind hNext).congr fun input => by simp

/-- The record of the unread bytes and of a container that is resized. -/
theorem BelievesOn.resize {count : Nat} {bound : Nat} {next : Rx β}
    (hNext : BelievesOn next believes) :
    BelievesOn (do Serialization.resize count bound; next)
      fun input => bound < count ∨ believes input where
  parse deser := by
    show Rx.taken (Rx.exec next { deser with resized := deser.resized ++ [(count, bound)] }) =
      Rx.taken (Rx.exec next { RxStream.ofBytes deser.unread with
        resized := (RxStream.ofBytes deser.unread).resized ++ [(count, bound)] })
    rw [hNext.parse, hNext.parse]
    rfl
  heads deser := by
    obtain ⟨heads, hResized, hBelieves⟩ :=
      hNext.heads { deser with resized := deser.resized ++ [(count, bound)] }
    refine ⟨(count, bound) :: heads, ?_, ?_⟩
    · show (Rx.exec next { deser with resized := deser.resized ++ [(count, bound)] }).2.resized = _
      rw [hResized, List.append_assoc]
      rfl
    · rw [← List.singleton_append, oversized_append, oversized_singleton, hBelieves]

theorem BelievesOn.unreadLength {next : Nat → Rx β} {believes : Nat → List UInt8 → Prop}
    (hNext : ∀ bound, BelievesOn (next bound) (believes bound)) :
    BelievesOn (Serialization.unreadLength >>= next)
      fun input => believes input.length input where
  parse deser := by
    show Rx.taken (Rx.exec (next deser.unread.length) deser) =
      Rx.taken (Rx.exec (next deser.unread.length) (RxStream.ofBytes deser.unread))
    rw [(hNext _).parse, (hNext _).parse]
    rfl
  heads deser := (hNext deser.unread.length).heads deser

/-- A test that throws, in front of a reader. -/
theorem BelievesOn.unless {c : Prop} [Decidable c] (fault : Fault)
    (hReader : BelievesOn reader believes) :
    BelievesOn ((if c then throw fault else Pure.pure ()) >>= fun _ : PUnit => reader)
      fun input => ¬ c ∧ believes input := by
  by_cases hTest : c
  · rw [if_pos hTest]
    exact ((BelievesOn.fault fault).bind fun _ : PUnit => hReader).congr fun input =>
      iff_of_false (fun h => h.1 hTest) (by simp [Rx.parse, Rx.taken, Rx.exec])
  · rw [if_neg hTest, pure_bind]
    exact hReader.congr fun input => and_iff_right hTest

/-- Some element does, and all in front of it can be read. -/
def EachBelieves (get : Rx α) (believes : List UInt8 → Prop) : Nat → List UInt8 → Prop
  | 0, _ => False
  | count + 1, input =>
      believes input ∨
        ∃ a rest, get.parse input = some (a, rest) ∧ EachBelieves get believes count rest

theorem BelievesOn.readEach (hReader : BelievesOn reader believes) (count : Nat) :
    BelievesOn (Serialization.readEach reader count) (EachBelieves reader believes count) := by
  induction count with
  | zero => exact .pure []
  | succ count ih => exact hReader.bind fun a => ih.map fun rest => .pure (a :: rest)

theorem not_eachBelieves {get : Rx α} {count : Nat} {input : List UInt8} :
    ¬ EachBelieves get (fun _ => False) count input := by
  induction count generalizing input with
  | zero => exact id
  | succ count ih =>
      rintro (hNever | ⟨a, rest, -, hEach⟩)
      · exact hNever
      · exact ih hEach

end BelievesOn

/-! ## Heads -/

/-- DPS returns a text or a byte string only if all of it is there. -/
class DpsCbor.ChecksLength [DpsCbor] : Prop where
  decodeString : ∀ input s rest, DpsCbor.decodeString input = some (s, rest) →
    s.length ≤ input.length
  decodeBytes : ∀ input s rest, DpsCbor.decodeBytes input = some (s, rest) →
    s.length ≤ input.length

section Heads

variable [DpsCbor] {T : Type}

/-- An array head in front of a vector or of a `u16string` announces too much. -/
def ArrayBelieves (input : List UInt8) : Prop :=
  ∃ n rest, DpsCbor.decodeArray input = some (n, rest) ∧ input.length < n.toNat

/-- The head of an array or of a byte string that the C decoder peeks at does. -/
def PeekBelieves (input : List UInt8) : Prop :=
  ∃ maj n, DpsCbor.peek input = some (maj, n) ∧
    (maj = Rfc7049.majorArray ∨ maj = Rfc7049.majorBytes) ∧ input.length < n.toNat

/-- The head of a vector does, or that of one of its elements. -/
def VectorBelieves (get : Rx T) (believes : List UInt8 → Prop) (input : List UInt8) : Prop :=
  ∃ n rest, DpsCbor.decodeArray input = some (n, rest) ∧
    (input.length < n.toNat ∨ EachBelieves get believes n.toNat rest)

/-- One of the elements of a fixed-size array does. -/
def SequenceBelieves (get : Rx T) (believes : List UInt8 → Prop) (size : Nat)
    (input : List UInt8) : Prop :=
  ∃ n rest, DpsCbor.decodeArray input = some (n, rest) ∧ n.toNat = size ∧
    EachBelieves get believes size rest

/-- The integer in front of a sequence of messages does, or one of the messages. -/
def MessagesBelieve (get : Rx T) (believes : List UInt8 → Prop) (input : List UInt8) : Prop :=
  ∃ n rest, DpsCbor.decodeUint32 input = some (n, rest) ∧
    (input.length < n.toNat ∨ EachBelieves get believes n.toNat rest)

variable {get : Rx T} {believes : List UInt8 → Prop}

theorem vectorBelieves_of_scalar (input : List UInt8) :
    ArrayBelieves input ↔ VectorBelieves get (fun _ => False) input := by
  simp only [ArrayBelieves, VectorBelieves, not_eachBelieves, or_false]

theorem not_sequenceBelieves {size : Nat} {input : List UInt8} :
    ¬ SequenceBelieves get (fun _ => False) size input := by
  rintro ⟨n, rest, -, -, hEach⟩
  exact not_eachBelieves hEach

/-- A reader behind an array head. -/
theorem BelievesOn.getArrayHead {β : Type} {next : Nat → Rx β}
    {believesNext : Nat → List UInt8 → Prop}
    (hNext : ∀ size, BelievesOn (next size) (believesNext size)) (what : String) :
    BelievesOn (Serialization.getArrayHead what >>= next) fun input =>
      ∃ n rest, DpsCbor.decodeArray input = some (n, rest) ∧ believesNext n.toNat rest := by
  unfold Serialization.getArrayHead
  rw [bind_assoc]
  have hRead := BelievesOn.read (DpsCbor.decodeArray) what
  have hBody : ∀ n : UInt64, BelievesOn (Pure.pure n.toNat >>= next) (believesNext n.toNat) := by
    intro n
    rw [pure_bind]
    exact hNext n.toNat
  refine (hRead.bind hBody).congr fun input => ?_
  simp only [false_or, Rx.parse_read]

omit [DpsCbor] in
theorem length_of_parse_readEach (hGet : BelievesOn get believes) {count : Nat} :
    ∀ {input rest : List UInt8} {xs : List T},
      (readEach get count).parse input = some (xs, rest) → xs.length = count := by
  induction count with
  | zero =>
      intro input rest xs hParse
      cases hParse
      rfl
  | succ count ih =>
      intro input rest xs hParse
      have hTail : ∀ a, BelievesOn (do let tail ← readEach get count; return a :: tail)
          (EachBelieves get believes count) := fun a => (hGet.readEach count).map fun _ => .pure _
      unfold readEach at hParse
      rw [Rx.parse_bind hTail] at hParse
      obtain ⟨⟨a, left⟩, -, hParse⟩ := Option.bind_eq_some_iff.mp hParse
      rw [Rx.parse_bind fun tail => .pure (a :: tail)] at hParse
      obtain ⟨⟨tail, left'⟩, hEach, hParse⟩ := Option.bind_eq_some_iff.mp hParse
      cases hParse
      rw [List.length_cons, ih hEach]

/-- A vector that has been read has as many elements as its head announces. -/
theorem length_of_parse_getVector (hGet : BelievesOn get believes) {what : String}
    {input rest : List UInt8} {xs : List T}
    (hParse : (getVector get what).parse input = some (xs, rest)) :
    ∃ n left, DpsCbor.decodeArray input = some (n, left) ∧ xs.length = n.toNat := by
  have hBody : ∀ n : UInt64, BelievesOn (do
      let size ← (pure n.toNat : Rx Nat)
      resize size input.length
      readEach get size) fun left =>
        input.length < n.toNat ∨ EachBelieves get believes n.toNat left := by
    intro n
    rw [pure_bind]
    exact (hGet.readEach n.toNat).resize
  have hHead : (getVector get what).parse input =
      (RxStream.read DpsCbor.decodeArray what >>= fun n => do
        let size ← (pure n.toNat : Rx Nat)
        resize size input.length
        readEach get size).parse input := by
    rw [← bind_assoc]
    rfl
  rw [hHead, Rx.parse_bind hBody, Rx.parse_read] at hParse
  obtain ⟨⟨n, left⟩, hDecode, hParse⟩ := Option.bind_eq_some_iff.mp hParse
  -- The record of the resized container does not change what is read.
  have hRecorded := (hGet.readEach n.toNat).parse
    { RxStream.ofBytes left with resized := [(n.toNat, input.length)] }
  exact ⟨n, left, hDecode, length_of_parse_readEach hGet (hRecorded.symm.trans hParse)⟩

theorem getVector_believesOn (hGet : BelievesOn get believes) (what : String) :
    BelievesOn (getVector get what) (VectorBelieves get believes) :=
  BelievesOn.unreadLength fun _ =>
    BelievesOn.getArrayHead (fun size => BelievesOn.resize (hGet.readEach size)) what

theorem decodeSequence_believesOn (hGet : BelievesOn get believes) (size : Nat) :
    BelievesOn (decodeSequence get size) (SequenceBelieves get believes size) := by
  have hBody : ∀ size', BelievesOn (do
      if size' ≠ size then
        throw (.runtimeError "failed to deserialize array")
      readEach get size : Rx (List T))
      fun input => size' = size ∧ EachBelieves get believes size input := by
    intro size'
    have hTest := (hGet.readEach size).unless (c := size' ≠ size)
      (.runtimeError "failed to deserialize array")
    refine (?_ : BelievesOn _ _).congr fun input => and_congr_left' not_not.symm
    by_cases hSize : size' ≠ size
    · rw [if_pos hSize] at hTest ⊢
      exact hTest
    · rw [if_neg hSize, pure_bind] at hTest
      rw [if_neg hSize]
      exact hTest
  exact BelievesOn.getArrayHead hBody _

theorem getString_believesOn [DpsCbor.ChecksLength] : BelievesOn getString fun _ => False := by
  refine (BelievesOn.unreadLength fun bound =>
    (BelievesOn.read _ _).bind fun s => BelievesOn.resize (.pure s)).congr fun input => ?_
  simp only [Rx.parse_read, false_or, or_false, false_iff]
  rintro ⟨s, rest, hRead, hLong⟩
  exact absurd hLong (Nat.not_lt.mpr (DpsCbor.ChecksLength.decodeString _ _ _ hRead))

theorem getVectorUint8_believesOn [DpsCbor.ChecksLength] :
    BelievesOn getVectorUint8 fun _ => False := by
  refine (BelievesOn.unreadLength fun bound =>
    (BelievesOn.read _ _).bind fun items => BelievesOn.resize (.pure items)).congr fun input => ?_
  simp only [Rx.parse_read, false_or, or_false, false_iff]
  rintro ⟨items, rest, hRead, hLong⟩
  exact absurd hLong (Nat.not_lt.mpr (DpsCbor.ChecksLength.decodeBytes _ _ _ hRead))

end Heads

/-! ## Descriptions -/

section Descriptions

variable [DpsCbor] {μ : MembersType}

/-- The member has a head that announces too much, given that for a nested message. -/
def MessageMember.Believes (μ : MembersType) (member : MessageMember) (sub : Rx (Message μ))
    (subBelieves : List UInt8 → Prop) (input : List UInt8) : Prop :=
  match member.typeId.kind with
  | .prim t =>
      member.isArray = true ∧ member.isFixedArray = false ∧
        match μ with
        | .cpp => t ≠ .uint8 ∧ ArrayBelieves input
        | .c => PeekBelieves input
  | .string =>
      member.isArray = true ∧ (μ = .cpp → member.isFixedArray = false) ∧ ArrayBelieves input
  | .wstring =>
      if member.isArray then
        if μ = .cpp ∧ member.isFixedArray = true then
          SequenceBelieves getU16string ArrayBelieves member.arraySize.toNat input
        else VectorBelieves getU16string ArrayBelieves input
      else ArrayBelieves input
  | .message =>
      if member.isArray then
        if member.isFixedArray then EachBelieves sub subBelieves member.arraySize.toNat input
        else MessagesBelieve sub subBelieves input
      else subBelieves input
  | .unknown => False

variable [Platform]

/-- The members in front of such a head can be read. -/
def MessageMembers.Believes (μ : MembersType) : MessageMembers → List UInt8 → Prop
  | .nil, _ => False
  | .cons member submembers rest, input =>
      let sub : Rx (Message μ) := do
        checkMemberCount submembers.memberCount
        deserializeMembers submembers
      let subBelieves (input : List UInt8) :=
        ∃ n left, DpsCbor.decodeArray input = some (n, left) ∧
          n.toNat = submembers.memberCount ∧ submembers.Believes μ left
      member.Believes μ sub subBelieves input ∨
        ∃ value left, (deserializeMember member sub).parse input = some (value, left) ∧
          rest.Believes μ left

/-- The same of a whole payload. -/
def MessageMembers.PayloadBelieves (μ : MembersType) (members : MessageMembers)
    (input : List UInt8) : Prop :=
  ∃ n left, DpsCbor.decodeArray input = some (n, left) ∧ n.toNat = members.memberCount ∧
    members.Believes μ left

end Descriptions

/-! ## Fields -/

/-- What the readers of an element type believe: a single element, an array of so many, and
a vector. -/
structure StreamOps.BelievesAs {T : Type} (ops : StreamOps T) (one : List UInt8 → Prop)
    (sequence : Nat → List UInt8 → Prop) (vector : List UInt8 → Prop) : Prop where
  get : BelievesOn ops.get one
  decodeSequence : ∀ size, BelievesOn (ops.decodeSequence size) (sequence size)
  getVector : BelievesOn ops.getVector vector

section Fields

variable [DpsCbor] {T : Type} {ops : StreamOps T} {member : MessageMember}
  {one vector : List UInt8 → Prop} {sequence : Nat → List UInt8 → Prop}

theorem StreamOps.ofScalar_believesAs {put : T → Tx Unit} {get : Rx T} (hGet : BelievesOn get one) :
    (StreamOps.ofScalar put get).BelievesAs one (SequenceBelieves get one)
      (VectorBelieves get one) where
  get := hGet
  decodeSequence := decodeSequence_believesOn hGet
  getVector := getVector_believesOn hGet _

/-- Only the head of a vector of scalars can announce too much. -/
theorem StreamOps.ofScalar_believesAs_head {put : T → Tx Unit} {get : Rx T}
    (hGet : BelievesOn get fun _ => False) :
    (StreamOps.ofScalar put get).BelievesAs (fun _ => False) (fun _ _ => False)
      ArrayBelieves where
  get := hGet
  decodeSequence size := (decodeSequence_believesOn hGet size).congr fun _ =>
    iff_of_false id not_sequenceBelieves
  getVector := (getVector_believesOn hGet _).congr vectorBelieves_of_scalar

theorem stringOps_believesAs [DpsCbor.ChecksLength] :
    stringOps.BelievesAs (fun _ => False) (fun _ _ => False) ArrayBelieves :=
  StreamOps.ofScalar_believesAs_head getString_believesOn

theorem getU16string_believesOn : BelievesOn getU16string ArrayBelieves :=
  (getVector_believesOn (.read _ _) _).congr vectorBelieves_of_scalar

theorem u16stringOps_believesAs :
    u16stringOps.BelievesAs ArrayBelieves (SequenceBelieves getU16string ArrayBelieves)
      (VectorBelieves getU16string ArrayBelieves) :=
  StreamOps.ofScalar_believesAs getU16string_believesOn

theorem decodeSequenceUint8_believesOn (size : Nat) :
    BelievesOn (decodeSequenceUint8 size) fun _ => False := by
  refine (BelievesOn.read _ _).map fun items => ?_
  by_cases hSize : items.length = size
  · simp only [hSize, ne_eq, not_true_eq_false, if_false]
    exact .pure items
  · simp only [hSize, ne_eq, not_false_eq_true, if_true]
    exact (BelievesOn.fault _).map fun _ => .pure items

theorem PrimType.ops_believesAs [DpsCbor.ChecksLength] [Platform] (t : PrimType) :
    t.ops.BelievesAs (fun _ => False) (fun _ _ => False)
      fun input => t ≠ .uint8 ∧ ArrayBelieves input := by
  have hRead : ∀ {T : Type} (decode : List UInt8 → Option (T × List UInt8)) (what : String),
      BelievesOn (RxStream.read decode what) fun _ => False := fun decode what => .read decode what
  have hHead : ∀ {T : Type} {ops : StreamOps T}, t ≠ .uint8 →
      ops.BelievesAs (fun _ => False) (fun _ _ => False) ArrayBelieves →
      ops.BelievesAs (fun _ => False) (fun _ _ => False)
        fun input => t ≠ .uint8 ∧ ArrayBelieves input := fun hNot hOps =>
    ⟨hOps.get, hOps.decodeSequence, hOps.getVector.congr fun _ => and_iff_right hNot⟩
  cases t with
  | uint8 =>
      exact ⟨hRead _ _, decodeSequenceUint8_believesOn,
        getVectorUint8_believesOn.congr fun _ => by simp⟩
  | bool =>
      have hScalar : (StreamOps.ofScalar putBool getBool).BelievesAs (fun _ => False)
          (fun _ _ => False) ArrayBelieves := StreamOps.ofScalar_believesAs_head (hRead _ _)
      have hVector : BelievesOn getVectorBool ArrayBelieves :=
        (getVector_believesOn (hRead _ _) _).congr vectorBelieves_of_scalar
      exact hHead (by decide) ⟨hScalar.get, hScalar.decodeSequence, hVector⟩
  | char =>
      have hChar : BelievesOn getChar fun _ => False := (hRead _ _).map fun i => .pure _
      exact hHead (by decide) (StreamOps.ofScalar_believesAs_head hChar)
  | float => exact hHead (by decide) (StreamOps.ofScalar_believesAs_head (hRead _ _))
  | double => exact hHead (by decide) (StreamOps.ofScalar_believesAs_head (hRead _ _))
  | int16 => exact hHead (by decide) (StreamOps.ofScalar_believesAs_head (hRead _ _))
  | uint16 => exact hHead (by decide) (StreamOps.ofScalar_believesAs_head (hRead _ _))
  | int32 => exact hHead (by decide) (StreamOps.ofScalar_believesAs_head (hRead _ _))
  | uint32 => exact hHead (by decide) (StreamOps.ofScalar_believesAs_head (hRead _ _))
  | int64 => exact hHead (by decide) (StreamOps.ofScalar_believesAs_head (hRead _ _))
  | uint64 => exact hHead (by decide) (StreamOps.ofScalar_believesAs_head (hRead _ _))

omit [DpsCbor] in
theorem Cpp.deserializeField_believesOn (hOps : ops.BelievesAs one sequence vector) :
    BelievesOn (Cpp.deserializeField ops member) fun input =>
      if member.isArray then
        if member.isFixedArray then sequence member.arraySize.toNat input else vector input
      else one input := by
  unfold Cpp.deserializeField
  by_cases hArray : member.isArray = true
  · simp only [hArray, Bool.not_true, Bool.false_eq_true, if_false, if_true]
    by_cases hFixed : member.isFixedArray = true
    · simp only [hFixed, if_true]
      exact (hOps.decodeSequence _).map fun xs => .pure _
    · simp only [hFixed]
      exact hOps.getVector.map fun xs => .pure _
  · simp only [hArray, Bool.not_false, if_true]
    exact hOps.get.map fun x => .pure _

/-- Peeking takes the count of an array or of a byte string, and leaves the input. -/
theorem taken_deserializeSequenceSize (deser : RxStream) (result : Nat × List UInt8) :
    Rx.taken (Rx.exec deserializeSequenceSize deser) = some result ↔
      ∃ maj n, DpsCbor.peek deser.unread = some (maj, n) ∧
        (maj = Rfc7049.majorArray ∨ maj = Rfc7049.majorBytes) ∧
        result = (n.toNat, deser.unread) := by
  rw [RxStream.exec_deserializeSequenceSize]
  cases DpsCbor.peek deser.unread with
  | none => simp [Rx.taken]
  | some head =>
      obtain ⟨maj, n⟩ := head
      by_cases hMaj : maj = Rfc7049.majorArray ∨ maj = Rfc7049.majorBytes
      · have hNot : ¬ (maj ≠ Rfc7049.majorArray ∧ maj ≠ Rfc7049.majorBytes) := by tauto
        simp [Rx.taken, if_neg hNot, hMaj, eq_comm]
      · have hBoth : maj ≠ Rfc7049.majorArray ∧ maj ≠ Rfc7049.majorBytes := not_or.mp hMaj
        simp [Rx.taken, if_pos hBoth, hMaj]

theorem deserializeSequenceSize_believesOn :
    BelievesOn deserializeSequenceSize fun _ => False where
  parse deser := by
    apply Option.ext
    intro result
    exact (taken_deserializeSequenceSize deser result).trans
      (taken_deserializeSequenceSize (RxStream.ofBytes deser.unread) result).symm
  heads deser := by
    refine ⟨[], ?_, iff_of_false not_oversized_nil id⟩
    rw [RxStream.exec_deserializeSequenceSize, List.append_nil]

/-- A C sequence is initialized to the count of the head. -/
theorem BelievesOn.initSequence {β : Type} {next : Nat → Rx β}
    (hNext : ∀ dsize, BelievesOn (next dsize) fun _ => False) :
    BelievesOn (do
      let bound ← Serialization.unreadLength
      let dsize ← deserializeSequenceSize
      Serialization.resize dsize bound
      next dsize) PeekBelieves := by
  refine (BelievesOn.unreadLength fun bound => deserializeSequenceSize_believesOn.bind
    fun dsize => (hNext dsize).resize).congr fun input => ?_
  simp only [false_or, or_false, PeekBelieves, Rx.parse, taken_deserializeSequenceSize]
  constructor
  · rintro ⟨maj, n, hPeek, hMaj, hLong⟩
    exact ⟨n.toNat, input, ⟨maj, n, hPeek, hMaj, rfl⟩, hLong⟩
  · rintro ⟨dsize, rest, ⟨maj, n, hPeek, hMaj, hResult⟩, hLong⟩
    cases hResult
    exact ⟨maj, n, hPeek, hMaj, hLong⟩

theorem C.deserializeField_believesOn
    (hOps : ops.BelievesAs (fun _ => False) (fun _ _ => False) vector) :
    BelievesOn (C.deserializeField ops member) fun input =>
      member.isArray = true ∧ member.isFixedArray = false ∧ PeekBelieves input := by
  unfold C.deserializeField
  by_cases hArray : member.isArray = true
  · simp only [hArray, Bool.not_true, Bool.false_eq_true, if_false, true_and]
    by_cases hFixed : member.isFixedArray = true
    · simp only [hFixed, if_true, Bool.true_eq_false, false_and]
      exact (hOps.decodeSequence _).map fun xs => .pure _
    · simp only [hFixed, true_and]
      exact BelievesOn.initSequence fun dsize => (hOps.decodeSequence dsize).map fun xs => .pure _
  · simp only [hArray, Bool.not_false, if_true]
    exact (hOps.get.map fun x => .pure _).congr fun input => by simp

omit [DpsCbor] in
theorem C.assignEach_believesOn {U : Type} [Zero U] [DecidableEq U] (values : List (List U)) :
    ∀ count, BelievesOn (C.assignEach count values) fun _ => False := by
  induction values with
  | nil =>
      intro count
      cases count with
      | zero => exact .pure []
      | succ count => exact .fault _
  | cons value values ih =>
      intro count
      cases count with
      | zero => exact .pure []
      | succ count => exact (ih count).map fun rest => .pure _

omit [DpsCbor] in
/-- The sequence that is filled from a vector has the size of the vector, whose head was
believed before. -/
theorem C.deserializeFieldOfString_believesOn {U : Type} [Zero U] [DecidableEq U]
    {ops : StreamOps (List U)} (hOps : ops.BelievesAs one sequence vector)
    (hCount : ∀ {input rest : List UInt8} {values : List (List U)},
      ops.getVector.parse input = some (values, rest) → input.length < values.length →
        vector input) :
    BelievesOn (C.deserializeFieldOfString ops member) fun input =>
      if member.isArray then vector input else one input := by
  unfold C.deserializeFieldOfString
  by_cases hArray : member.isArray = true
  · simp only [hArray, Bool.not_true, Bool.false_eq_true, if_false, if_true]
    by_cases hFixed : member.isFixedArray = true
    · simp only [hFixed, if_true]
      exact (BelievesOn.unreadLength fun _ => hOps.getVector.map fun values =>
        (C.assignEach_believesOn values _).map fun _ => .pure _)
    · simp only [hFixed]
      refine (BelievesOn.unreadLength fun bound => hOps.getVector.bind fun values =>
        BelievesOn.resize (.pure (FieldMem.many (values.map C.assign)))).congr fun input => ?_
      refine (or_iff_left_of_imp ?_).symm
      rintro ⟨values, rest, hParse, hLong | hNever⟩
      · exact hCount hParse hLong
      · exact hNever.elim
  · simp only [hArray, Bool.not_false, if_true]
    exact (hOps.get.map fun x => .pure _).congr fun input => by simp

theorem stringOps_count [DpsCbor.ChecksLength] {input rest : List UInt8} {values : List StdString}
    (hParse : stringOps.getVector.parse input = some (values, rest))
    (hLong : input.length < values.length) : ArrayBelieves input := by
  obtain ⟨n, left, hDecode, hLength⟩ := length_of_parse_getVector getString_believesOn hParse
  exact ⟨n, left, hDecode, hLength ▸ hLong⟩

theorem u16stringOps_count {input rest : List UInt8} {values : List StdU16String}
    (hParse : u16stringOps.getVector.parse input = some (values, rest))
    (hLong : input.length < values.length) :
    VectorBelieves getU16string ArrayBelieves input := by
  obtain ⟨n, left, hDecode, hLength⟩ := length_of_parse_getVector getU16string_believesOn hParse
  exact ⟨n, left, hDecode, .inl (hLength ▸ hLong)⟩

end Fields

/-! ## Messages -/

section Messages

variable [DpsCbor] [DpsCbor.ChecksLength] [Platform] {μ : MembersType} {member : MessageMember}

omit [DpsCbor.ChecksLength] [Platform] in
theorem deserializeMessage_believesOn {sub : Rx (Message μ)} {subBelieves : List UInt8 → Prop}
    (hSub : BelievesOn sub subBelieves) :
    BelievesOn (deserializeMessage member sub) fun input =>
      if member.isArray then
        if member.isFixedArray then EachBelieves sub subBelieves member.arraySize.toNat input
        else MessagesBelieve sub subBelieves input
      else subBelieves input := by
  unfold deserializeMessage getSubmessageSequenceDeserialize
  by_cases hArray : member.isArray = true
  · simp only [hArray, Bool.not_true, Bool.false_eq_true, if_false, if_true]
    by_cases hFixed : member.isFixedArray = true
    · simp only [hFixed, if_true, pure_bind]
      exact (hSub.readEach _).map fun _ => .pure _
    · simp only [hFixed, Bool.false_eq_true, if_false, bind_assoc, pure_bind]
      refine (BelievesOn.unreadLength fun bound => (BelievesOn.read _ _).bind fun n : UInt32 =>
        BelievesOn.resize ((hSub.readEach n.toNat).map fun msgs =>
          .pure (Value.messages msgs))).congr fun input => ?_
      simp only [false_or, Rx.parse_read]
      exact Iff.rfl
  · simp only [hArray, Bool.not_false, if_true]
    exact (hSub.map fun msg => .pure _).congr fun input => by simp

theorem deserializeMember_believesOn {sub : Rx (Message μ)} {subBelieves : List UInt8 → Prop}
    (hSub : BelievesOn sub subBelieves) :
    BelievesOn (deserializeMember member sub) (member.Believes μ sub subBelieves) := by
  unfold deserializeMember MessageMember.Believes
  cases member.typeId.kind with
  | prim t =>
      refine BelievesOn.map ?_ fun field => .pure (Value.prim t field)
      cases μ with
      | cpp =>
          refine (Cpp.deserializeField_believesOn t.ops_believesAs).congr fun input => ?_
          by_cases hArray : member.isArray = true <;>
            by_cases hFixed : member.isFixedArray = true <;> simp [hArray, hFixed]
      | c => exact C.deserializeField_believesOn t.ops_believesAs
  | string =>
      refine BelievesOn.map ?_ fun field => .pure (Value.string field)
      cases μ with
      | cpp =>
          refine (Cpp.deserializeField_believesOn stringOps_believesAs).congr fun input => ?_
          by_cases hArray : member.isArray = true <;>
            by_cases hFixed : member.isFixedArray = true <;> simp [hArray, hFixed]
      | c =>
          refine (C.deserializeFieldOfString_believesOn stringOps_believesAs
            stringOps_count).congr fun input => ?_
          split_ifs with hArray <;> simp [hArray]
  | wstring =>
      refine BelievesOn.map ?_ fun field => .pure (Value.wstring field)
      cases μ with
      | cpp =>
          refine (Cpp.deserializeField_believesOn u16stringOps_believesAs).congr fun input => ?_
          simp
      | c =>
          refine (C.deserializeFieldOfString_believesOn u16stringOps_believesAs
            u16stringOps_count).congr fun input => ?_
          simp
  | message => exact deserializeMessage_believesOn hSub
  | unknown => exact .fault _

omit [DpsCbor.ChecksLength] [Platform] in
/-- Behind the head of a message, which has to announce its number of members. -/
theorem checkMemberCount_believesOn {α : Type} {next : Rx α} {believes : List UInt8 → Prop}
    (hNext : BelievesOn next believes) (count : Nat) :
    BelievesOn (do checkMemberCount count; next) fun input =>
      ∃ n left, DpsCbor.decodeArray input = some (n, left) ∧ n.toNat = count ∧ believes left := by
  unfold checkMemberCount
  rw [bind_assoc]
  exact (BelievesOn.getArrayHead (fun memberCount => hNext.unless _) _).congr fun input => by
    simp only [ne_eq, not_not]

theorem deserializeMembers_believesOn (members : MessageMembers) :
    BelievesOn (deserializeMembers (μ := μ) members) (members.Believes μ) := by
  induction members with
  | nil => exact .pure []
  | cons member submembers rest ihSub ihRest =>
      have hSub := checkMemberCount_believesOn ihSub submembers.memberCount
      exact (deserializeMember_believesOn hSub).bind fun value =>
        ihRest.map fun values => .pure (value :: values)

/-- The decoder of either package resizes a container to more elements than the input can
hold on the inputs in which it meets such a head, and on no others. -/
theorem deserializeROSmessage_believesOn (members : MessageMembers) :
    BelievesOn (TypeSupport.deserializeROSmessage (μ := μ) members)
      (members.PayloadBelieves μ) := by
  unfold TypeSupport.deserializeROSmessage
  by_cases hEmpty : members.memberCount ≠ 0
  · rw [if_pos hEmpty]
    exact checkMemberCount_believesOn (deserializeMembers_believesOn members) members.memberCount
  · rw [if_neg hEmpty]
    cases members with
    | nil =>
        refine (BelievesOn.map (.read _ _) fun _ => .pure []).congr fun input => iff_of_false ?_ id
        rintro ⟨n, left, -, -, hNever⟩
        exact hNever
    | cons member submembers rest => simp [MessageMembers.memberCount] at hEmpty

end Messages

end Serialization
end RmwDps
