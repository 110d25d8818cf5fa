import RmwDps.Foundation.Rfc7049Language
import RmwDps.Serialization.TypeSupport
import RmwDps.Serialization.StreamLogic
import RmwDps.Serialization.RfcCbor

/-!
# Which payloads are messages

The payloads of a description as a language: by recursion over the description, from the
languages of RFC 7049 items, and without readers or streams.  `surplus` adds the payloads
in which a fixed-size array of strings has too many elements, which the C support lets
through.

`Recognizes reader language` says that a reader succeeds exactly on the inputs that begin
with a word of the language, and takes this word.  The decoder of each package recognizes
the payloads of the description.
-/

namespace RmwDps
namespace Serialization

open Rfc7049 (Takes takes_mul takes_iSup takes_stringsOf)

/-! ## The assumption on the primitives -/

/-- A decoder takes exactly the words of the languages, and returns the value that a word
stands for. -/
def DecodesExactly {α : Type} (decode : List UInt8 → Option (α × List UInt8))
    (items : α → Language UInt8) : Prop :=
  ∀ input a rest, decode input = some (a, rest) ↔ Takes (items a) input rest

/-- The DPS decoders implement RFC 7049: each one accepts the items of its type, with a head
of any width, and nothing else; `CBOR_Peek` tells the count of an array or a byte string. -/
class DpsCbor.Exact [DpsCbor] : Prop where
  decodeUint : DecodesExactly DpsCbor.decodeUint fun n => Rfc7049.ints n.toNat
  decodeUint32 : DecodesExactly DpsCbor.decodeUint32 fun n => Rfc7049.ints n.toNat
  decodeUint16 : DecodesExactly DpsCbor.decodeUint16 fun n => Rfc7049.ints n.toNat
  decodeUint8 : DecodesExactly DpsCbor.decodeUint8 fun n => Rfc7049.ints n.toNat
  decodeInt : DecodesExactly DpsCbor.decodeInt fun i => Rfc7049.ints i.toInt
  decodeInt32 : DecodesExactly DpsCbor.decodeInt32 fun i => Rfc7049.ints i.toInt
  decodeInt16 : DecodesExactly DpsCbor.decodeInt16 fun i => Rfc7049.ints i.toInt
  decodeInt8 : DecodesExactly DpsCbor.decodeInt8 fun i => Rfc7049.ints i.toInt
  decodeFloat : DecodesExactly DpsCbor.decodeFloat fun f => {Rfc7049.float32 f.bits}
  decodeDouble : DecodesExactly DpsCbor.decodeDouble fun d => {Rfc7049.float64 d.bits}
  decodeBoolean : DecodesExactly DpsCbor.decodeBoolean fun b => {Rfc7049.bool b}
  decodeString : DecodesExactly DpsCbor.decodeString (Rfc7049.strings Rfc7049.majorText)
  decodeBytes : DecodesExactly DpsCbor.decodeBytes (Rfc7049.strings Rfc7049.majorBytes)
  decodeArray : DecodesExactly DpsCbor.decodeArray fun n => Rfc7049.heads Rfc7049.majorArray n.toNat
  peek : ∀ major, major = Rfc7049.majorArray ∨ major = Rfc7049.majorBytes → ∀ input info,
    DpsCbor.peek input = some (major, info) ↔
      ∃ rest, Takes (Rfc7049.heads major info.toNat) input rest

section Rfc

/-- Conversions between the numbers that a reader delivers and the values of a C type. -/
theorem DecodesExactly.map {α β : Type} {f : α → β} (g : β → α) (valid : α → Prop)
    {decode : List UInt8 → Option (α × List UInt8)} {items : α → Language UInt8}
    (hDecode : ∀ input a rest, decode input = some (a, rest) ↔ valid a ∧ Takes (items a) input rest)
    (hValid : ∀ b, valid (g b)) (hBack : ∀ a, valid a → g (f a) = a) (hForth : ∀ b, f (g b) = b) :
    DecodesExactly (mapResult f decode) fun b => items (g b) := by
  intro input b rest
  constructor
  · intro hRead
    obtain ⟨⟨a, tail⟩, hResult, hMapped⟩ := Option.map_eq_some_iff.mp hRead
    cases hMapped
    obtain ⟨hA, hTakes⟩ := (hDecode input a tail).mp hResult
    show Takes (items (g (f a))) input tail
    rwa [hBack a hA]
  · intro hTakes
    have hResult := (hDecode input (g b) rest).mpr ⟨hValid b, hTakes⟩
    simp only [mapResult, hResult, Option.map_some, hForth]

theorem readBelow_iff {limit : Nat} (input : List UInt8) (n : Nat) (rest : List UInt8) :
    readBelow limit input = some (n, rest) ↔
      n < limit ∧ Takes (Rfc7049.ints n) input rest := by
  have hInts : Rfc7049.ints n = Rfc7049.heads Rfc7049.majorUint n := by
    rw [Rfc7049.ints, if_pos (Int.natCast_nonneg n), Int.toNat_natCast]
  rw [hInts, ← Rfc7049.readArgument_iff (by decide)]
  unfold readBelow
  split
  · next n' tail hArgument =>
      rw [hArgument]
      simp only [Option.ite_none_right_eq_some, Option.some.injEq, Prod.mk.injEq]
      constructor
      · rintro ⟨hBelow, rfl, rfl⟩
        exact ⟨hBelow, rfl, rfl⟩
      · rintro ⟨hBelow, rfl, rfl⟩
        exact ⟨hBelow, rfl, rfl⟩
  · next hNone => simp [hNone]

theorem readWithin_iff {limit : Int} (input : List UInt8) (i : Int) (rest : List UInt8) :
    readWithin limit input = some (i, rest) ↔
      (-limit ≤ i ∧ i < limit) ∧ Takes (Rfc7049.ints i) input rest := by
  rw [← Rfc7049.readInt_iff]
  unfold readWithin
  split
  · next i' tail hInt =>
      rw [hInt]
      simp only [Option.ite_none_right_eq_some, Option.some.injEq, Prod.mk.injEq]
      constructor
      · rintro ⟨hWithin, rfl, rfl⟩
        exact ⟨hWithin, rfl, rfl⟩
      · rintro ⟨hWithin, rfl, rfl⟩
        exact ⟨hWithin, rfl, rfl⟩
  · next hNone => simp [hNone]

theorem readCount_iff (input : List UInt8) (n : Nat) (rest : List UInt8) :
    Rfc7049.readArgument Rfc7049.majorArray input = some (n, rest) ↔
      n < 2 ^ 64 ∧ Takes (Rfc7049.heads Rfc7049.majorArray n) input rest := by
  rw [Rfc7049.readArgument_iff (by decide)]
  constructor
  · rintro ⟨head, hHead, hInput⟩
    exact ⟨Rfc7049.IsHead.lt hHead, head, hHead, hInput⟩
  · exact And.right

attribute [local instance] rfcCbor

theorem rfcCbor_exact : @DpsCbor.Exact rfcCbor where
  decodeUint := .map UInt64.toNat _ readBelow_iff (fun n => n.toNat_lt)
    (fun _ hBelow => UInt64.toNat_ofNat_of_lt hBelow) fun _ => UInt64.ofNat_toNat
  decodeUint32 := .map UInt32.toNat _ readBelow_iff (fun n => n.toNat_lt)
    (fun _ hBelow => UInt32.toNat_ofNat_of_lt hBelow) fun _ => UInt32.ofNat_toNat
  decodeUint16 := .map UInt16.toNat _ readBelow_iff (fun n => n.toNat_lt)
    (fun _ hBelow => UInt16.toNat_ofNat_of_lt hBelow) fun _ => UInt16.ofNat_toNat
  decodeUint8 := .map UInt8.toNat _ readBelow_iff (fun n => n.toNat_lt)
    (fun _ hBelow => UInt8.toNat_ofNat_of_lt hBelow) fun _ => UInt8.ofNat_toNat
  decodeInt := .map Int64.toInt _ readWithin_iff (fun i => ⟨i.le_toInt, i.toInt_lt⟩)
    (fun _ hWithin => Int64.toInt_ofInt_of_le hWithin.1 hWithin.2) Int64.ofInt_toInt
  decodeInt32 := .map Int32.toInt _ readWithin_iff (fun i => ⟨i.le_toInt, i.toInt_lt⟩)
    (fun _ hWithin => Int32.toInt_ofInt_of_le hWithin.1 hWithin.2) Int32.ofInt_toInt
  decodeInt16 := .map Int16.toInt _ readWithin_iff (fun i => ⟨i.le_toInt, i.toInt_lt⟩)
    (fun _ hWithin => Int16.toInt_ofInt_of_le hWithin.1 hWithin.2) Int16.ofInt_toInt
  decodeInt8 := .map Int8.toInt _ readWithin_iff (fun i => ⟨i.le_toInt, i.toInt_lt⟩)
    (fun _ hWithin => Int8.toInt_ofInt_of_le hWithin.1 hWithin.2) Int8.ofInt_toInt
  decodeFloat := .map CFloat.bits (fun _ => True)
    (fun _ _ _ => Rfc7049.readFloat32_iff.trans (true_and _).symm.to_iff) (fun _ => trivial)
    (fun _ _ => rfl) fun _ => rfl
  decodeDouble := .map CDouble.bits (fun _ => True)
    (fun _ _ _ => Rfc7049.readFloat64_iff.trans (true_and _).symm.to_iff) (fun _ => trivial)
    (fun _ _ => rfl) fun _ => rfl
  decodeBoolean _ _ _ := Rfc7049.readBool_iff
  decodeString _ _ _ := Rfc7049.readString_iff (by decide)
  decodeBytes _ _ _ := Rfc7049.readString_iff (by decide)
  decodeArray := .map UInt64.toNat _ readCount_iff (fun n => n.toNat_lt)
    (fun _ hFits => UInt64.toNat_ofNat_of_lt hFits) fun _ => UInt64.ofNat_toNat
  peek major hMajor input info := by
    have hSmall : major < 8 := by
      rcases hMajor with rfl | rfl <;> decide
    show (Rfc7049.readHead input).map _ = _ ↔ _
    simp only [← Rfc7049.readHead_iff hSmall, Option.map_eq_some_iff, Prod.exists, Prod.mk.injEq]
    constructor
    · rintro ⟨major', n, rest, hHead, rfl, rfl⟩
      have hBack : (UInt64.ofNat n).toNat = n :=
        UInt64.toNat_ofNat_of_lt (Rfc7049.readHead_lt hHead)
      exact ⟨rest, by rw [hBack, hHead]⟩
    · rintro ⟨rest, hHead⟩
      exact ⟨major, info.toNat, rest, hHead, rfl, UInt64.ofNat_toNat⟩

end Rfc

/-! ## The payloads of a description -/

/-- The items of one value of a primitive type.  A `char` is read as an `int8_t`. -/
def PrimType.items : PrimType → Language UInt8
  | .bool => ⨆ b : Bool, {Rfc7049.bool b}
  | .uint8 => ⨆ n : UInt8, Rfc7049.ints n.toNat
  | .char => ⨆ i : Int8, Rfc7049.ints i.toInt
  | .float => ⨆ f : CFloat, {Rfc7049.float32 f.bits}
  | .double => ⨆ d : CDouble, {Rfc7049.float64 d.bits}
  | .int16 => ⨆ i : Int16, Rfc7049.ints i.toInt
  | .uint16 => ⨆ n : UInt16, Rfc7049.ints n.toNat
  | .int32 => ⨆ i : Int32, Rfc7049.ints i.toInt
  | .uint32 => ⨆ n : UInt32, Rfc7049.ints n.toNat
  | .int64 => ⨆ i : Int64, Rfc7049.ints i.toInt
  | .uint64 => ⨆ n : UInt64, Rfc7049.ints n.toNat

/-- The arrays of so many values of a primitive type; octets are a byte string. -/
def PrimType.arrays : PrimType → Nat → Language UInt8
  | .uint8, count => Rfc7049.stringsOf Rfc7049.majorBytes count
  | t, count => Rfc7049.arrays t.items count

/-- The text strings, of any bytes. -/
def texts : Language UInt8 := ⨆ content, Rfc7049.strings Rfc7049.majorText content

/-- The array of the given texts. -/
def textArray (contents : List (List UInt8)) : Language UInt8 :=
  Rfc7049.arrayOf (contents.map (Rfc7049.strings Rfc7049.majorText))

/-- The arrays of UTF-16 code units. -/
def u16texts : Language UInt8 := ⨆ count, Rfc7049.arrays (PrimType.items .uint16) count

/-- A field is one element, an array of its fixed size, or a sequence of any length. -/
def MessageMember.shape (member : MessageMember) (one : Language UInt8)
    (fixed sequence : Nat → Language UInt8) : Language UInt8 :=
  if !member.isArray then one
  else if member.isFixedArray then fixed member.arraySize.toNat
  else ⨆ count, sequence count

/-- A fixed-size array of strings, with more than its strings if `surplus`. -/
def stringArrays (surplus : Bool) (string : Language UInt8) (size : Nat) : Language UInt8 :=
  if surplus then ⨆ more, Rfc7049.arrays string (size + more) else Rfc7049.arrays string size

/-- What stands for a member, given what stands for a nested message: the elements of an
array of messages follow each other without a head, those of a sequence follow their
number. -/
def MessageMember.words (surplus : Bool) (member : MessageMember) (sub : Language UInt8) :
    Language UInt8 :=
  match member.typeId.kind with
  | .prim t => member.shape t.items t.arrays t.arrays
  | .string => member.shape texts (stringArrays surplus texts) (Rfc7049.arrays texts)
  | .wstring => member.shape u16texts (stringArrays surplus u16texts) (Rfc7049.arrays u16texts)
  | .message => member.shape sub (fun size => sub ^ size)
      fun count => ⨆ _ : count < 2 ^ 32, Rfc7049.ints count * sub ^ count
  | .unknown => 0

/-- What stands for the members of a message, one behind the other. -/
def MessageMembers.words (surplus : Bool) : MessageMembers → Language UInt8
  | .nil => 1
  | .cons member submembers rest =>
      member.words surplus
          (Rfc7049.heads Rfc7049.majorArray submembers.memberCount * submembers.words surplus) *
        rest.words surplus

/-- The payloads of a description: an array head with the number of members and what stands
for them, or any `uint8_t` where there are none. -/
def MessageMembers.payloads (surplus : Bool) (members : MessageMembers) : Language UInt8 :=
  if members.memberCount ≠ 0 then
    Rfc7049.heads Rfc7049.majorArray members.memberCount * members.words surplus
  else PrimType.items .uint8

/-! ## What a reader recognizes -/

/-- The reader succeeds exactly on the inputs with a word of a language in front, and takes
the word; the key of the value that it delivers tells the language of the word. -/
def RecognizesBy {α β : Type} (key : α → β) (reader : Rx α) (language : β → Language UInt8) :
    Prop :=
  ∀ (deser : RxStream) (b : β) (rest : List UInt8),
    (∃ a deser', Rx.exec reader deser = (.ok a, deser') ∧ key a = b ∧ deser'.unread = rest) ↔
      Takes (language b) deser.unread rest

/-- The same without regard to the value. -/
def Recognizes {α : Type} (reader : Rx α) (language : Language UInt8) : Prop :=
  RecognizesBy (fun _ => ()) reader fun _ => language

section Logic

variable {α β γ δ : Type} {reader : Rx α} {key : α → β} {language language' : Language UInt8}

theorem RecognizesBy.congr {words words' : β → Language UInt8}
    (hReader : RecognizesBy key reader words)
    (hSame : ∀ b input rest, Takes (words' b) input rest ↔ Takes (words b) input rest) :
    RecognizesBy key reader words' :=
  fun deser b rest => (hReader deser b rest).trans (hSame b deser.unread rest).symm

theorem Recognizes.congr (hReader : Recognizes reader language)
    (hSame : ∀ input rest, Takes language' input rest ↔ Takes language input rest) :
    Recognizes reader language' :=
  RecognizesBy.congr hReader fun _ => hSame

theorem RecognizesBy.forget {words : β → Language UInt8} (hReader : RecognizesBy key reader words) :
    Recognizes reader (⨆ b, words b) := by
  intro deser _ rest
  rw [takes_iSup]
  constructor
  · rintro ⟨a, deser', hRun, -, hRest⟩
    exact ⟨key a, (hReader deser (key a) rest).mp ⟨a, deser', hRun, rfl, hRest⟩⟩
  · rintro ⟨b, hTakes⟩
    obtain ⟨a, deser', hRun, -, hRest⟩ := (hReader deser b rest).mpr hTakes
    exact ⟨a, deser', hRun, rfl, hRest⟩

/-- All values that the reader delivers have one key. -/
theorem Recognizes.withKey {b : β} (hReader : Recognizes reader language)
    (hKey : ∀ deser a deser', Rx.exec reader deser = (.ok a, deser') → key a = b) :
    RecognizesBy key reader fun b' => ⨆ _ : b' = b, language := by
  intro deser b' rest
  simp only [takes_iSup, exists_prop]
  rw [← hReader deser () rest]
  constructor
  · rintro ⟨a, deser', hRun, rfl, hRest⟩
    exact ⟨hKey deser a deser' hRun, a, deser', hRun, rfl, hRest⟩
  · rintro ⟨rfl, a, deser', hRun, -, hRest⟩
    exact ⟨a, deser', hRun, hKey deser a deser' hRun, hRest⟩

/-- What a reader recognizes by the value has one word in front of an input, and one value. -/
theorem RecognizesBy.unique {words : α → Language UInt8} (hReader : RecognizesBy id reader words)
    {input rest rest' : List UInt8} {a a' : α} (hTakes : Takes (words a) input rest)
    (hTakes' : Takes (words a') input rest') : a = a' ∧ rest = rest' := by
  obtain ⟨_, deser, hRun, rfl, rfl⟩ := (hReader (RxStream.ofBytes input) a rest).mpr hTakes
  obtain ⟨_, deser', hRun', rfl, rfl⟩ := (hReader (RxStream.ofBytes input) a' rest').mpr hTakes'
  cases hRun.symm.trans hRun'
  exact ⟨rfl, rfl⟩

theorem RecognizesBy.bind {next : α → Rx γ} {key' : γ → δ} {words : β → Language UInt8}
    {words' : β → δ → Language UInt8} (hReader : RecognizesBy key reader words)
    (hNext : ∀ a, RecognizesBy key' (next a) (words' (key a))) :
    RecognizesBy key' (reader >>= next) fun d => ⨆ b, words b * words' b d := by
  intro deser d rest
  simp only [takes_iSup, takes_mul]
  constructor
  · rintro ⟨c, deser'', hRun, hKey, hRest⟩
    rw [Rx.exec_bind] at hRun
    rcases hFirst : Rx.exec reader deser with ⟨fault | a, deser'⟩
    · rw [hFirst] at hRun
      cases hRun
    · rw [hFirst] at hRun
      exact ⟨key a, deser'.unread, (hReader deser (key a) _).mp ⟨a, deser', hFirst, rfl, rfl⟩,
        (hNext a deser' d rest).mp ⟨c, deser'', hRun, hKey, hRest⟩⟩
  · rintro ⟨b, middle, hFront, hBack⟩
    obtain ⟨a, deser', hFirst, rfl, rfl⟩ := (hReader deser b middle).mpr hFront
    obtain ⟨c, deser'', hRun, hKey, hRest⟩ := (hNext a deser' d rest).mpr hBack
    refine ⟨c, deser'', ?_, hKey, hRest⟩
    rw [Rx.exec_bind, hFirst]
    exact hRun

theorem Recognizes.bind {next : α → Rx γ} (hReader : Recognizes reader language)
    (hNext : ∀ a, Recognizes (next a) language') :
    Recognizes (reader >>= next) (language * language') := by
  have hBind : RecognizesBy (fun _ => ()) (reader >>= next) fun _ =>
      ⨆ _ : Unit, language * language' := RecognizesBy.bind hReader hNext
  exact hBind.congr fun _ _ _ => by rw [iSup_const]

theorem Recognizes.pure (a : α) : Recognizes (pure a) 1 := by
  intro deser _ rest
  rw [Rfc7049.takes_one]
  constructor
  · rintro ⟨_, deser', hRun, -, hRest⟩
    cases hRun
    exact hRest
  · intro hRest
    exact ⟨a, deser, rfl, rfl, hRest⟩

theorem Recognizes.throw (fault : Fault) : Recognizes (throw fault : Rx α) 0 := by
  intro deser _ rest
  refine iff_of_false ?_ Rfc7049.takes_zero
  rintro ⟨a, deser', hRun, -⟩
  cases hRun

theorem Recognizes.throw_bind (fault : Fault) (next : γ → Rx α) :
    Recognizes (MonadExcept.throw fault >>= next) 0 := by
  intro deser _ rest
  refine iff_of_false ?_ Rfc7049.takes_zero
  rintro ⟨a, deser', hRun, -⟩
  cases hRun

/-- A test in front of a reader. -/
theorem Recognizes.unless {c : Prop} [Decidable c] {faulty : Rx α} (hFaulty : Recognizes faulty 0)
    (hReader : Recognizes reader language) :
    Recognizes (if c then faulty else reader) (⨆ _ : ¬ c, language) := by
  by_cases hTest : c
  · rw [if_pos hTest]
    refine hFaulty.congr fun input rest => ?_
    rw [takes_iSup, exists_prop]
    exact iff_of_false (fun h => h.1 hTest) Rfc7049.takes_zero
  · rw [if_neg hTest]
    refine hReader.congr fun input rest => ?_
    rw [takes_iSup, exists_prop]
    exact and_iff_right hTest

/-- A reader followed by a step that reads nothing. -/
theorem Recognizes.map (hReader : Recognizes reader language) (f : α → γ) :
    Recognizes (do return f (← reader)) language := by
  have hMapped := hReader.bind fun a => Recognizes.pure (f a)
  rwa [mul_one] at hMapped

theorem RecognizesBy.read {decode : List UInt8 → Option (α × List UInt8)}
    {items : α → Language UInt8} (hDecode : DecodesExactly decode items) (what : String) :
    RecognizesBy id (RxStream.read decode what) items := by
  intro deser a rest
  rw [← hDecode, RxStream.exec_read]
  constructor
  · rintro ⟨a', deser', hRun, rfl, rfl⟩
    cases hRead : decode deser.unread with
    | none =>
        rw [hRead] at hRun
        cases hRun
    | some result =>
        rw [hRead] at hRun
        cases hRun
        rfl
  · intro hRead
    rw [hRead]
    exact ⟨a, { deser with unread := rest }, rfl, rfl, rfl⟩

theorem RecognizesBy.unreadLength {next : Nat → Rx α} {words : β → Language UInt8}
    (hNext : ∀ unread, RecognizesBy key (next unread) words) :
    RecognizesBy key (Serialization.unreadLength >>= next) words :=
  fun deser => hNext deser.unread.length deser

theorem RecognizesBy.resize {next : Rx α} {words : β → Language UInt8}
    (hNext : RecognizesBy key next words) (count unread : Nat) :
    RecognizesBy key (do Serialization.resize count unread; next) words :=
  fun deser => hNext { deser with resized := deser.resized ++ [(count, unread)] }

theorem Recognizes.readEach (hReader : Recognizes reader language) (count : Nat) :
    Recognizes (Serialization.readEach reader count) (language ^ count) := by
  induction count with
  | zero => exact Recognizes.pure []
  | succ count ih =>
      rw [pow_succ']
      exact hReader.bind fun a => ih.map fun rest => a :: rest

/-- A loop delivers as many values as it has rounds. -/
theorem Recognizes.readEach_length (hReader : Recognizes reader language) (count : Nat) :
    RecognizesBy List.length (Serialization.readEach reader count)
      fun length => ⨆ _ : length = count, language ^ count := by
  refine (hReader.readEach count).withKey ?_
  induction count with
  | zero =>
      intro deser values deser' hRun
      cases hRun
      rfl
  | succ count ih =>
      intro deser values deser' hRun
      rw [Serialization.readEach, Rx.exec_bind] at hRun
      rcases hFirst : Rx.exec reader deser with ⟨fault | a, middle⟩
      · rw [hFirst] at hRun
        cases hRun
      · rw [hFirst] at hRun
        simp only [Rx.exec_bind] at hRun
        rcases hTail : Rx.exec (Serialization.readEach reader count) middle with ⟨fault | rest, _⟩
        · rw [hTail] at hRun
          cases hRun
        · rw [hTail] at hRun
          cases hRun
          rw [List.length_cons, ih middle rest deser' hTail]

/-- A loop takes the words of its values, one behind the other. -/
theorem RecognizesBy.readEach {words : α → Language UInt8} (hReader : RecognizesBy id reader words)
    (count : Nat) : RecognizesBy id (Serialization.readEach reader count)
      fun values => ⨆ _ : values.length = count, (values.map words).prod := by
  induction count with
  | zero =>
      have hNone : RecognizesBy id (Serialization.readEach reader 0) fun values =>
          ⨆ _ : values = [], 1 := (Recognizes.pure []).withKey fun _ _ _ hRun => by
        cases hRun
        rfl
      refine hNone.congr fun values input rest => ?_
      simp only [takes_iSup, List.length_eq_zero_iff, exists_prop]
      refine and_congr_right fun hNil => ?_
      rw [hNil, List.map_nil, List.prod_nil]
  | succ count ih =>
      have hCons : ∀ a (tail : List α), RecognizesBy id (Pure.pure (a :: tail) : Rx (List α))
          fun values => ⨆ _ : values = a :: tail, 1 := fun a tail =>
        (Recognizes.pure (a :: tail)).withKey fun _ _ _ hRun => by
          cases hRun
          rfl
      have hMore : RecognizesBy id (Serialization.readEach reader (count + 1)) fun values =>
          ⨆ a, words a * ⨆ tail : List α, (⨆ _ : tail.length = count, (tail.map words).prod) *
            ⨆ _ : values = a :: tail, 1 :=
        hReader.bind fun a => ih.bind (hCons a)
      refine hMore.congr fun values input rest => ?_
      simp only [takes_iSup, takes_mul, Rfc7049.takes_one, exists_prop]
      constructor
      · rintro ⟨hLength, hTakes⟩
        cases values with
        | nil => cases hLength
        | cons a tail =>
            rw [List.map_cons, List.prod_cons, takes_mul] at hTakes
            obtain ⟨middle, hFirst, hTail⟩ := hTakes
            exact ⟨a, middle, hFirst, tail, rest, ⟨Nat.succ.inj hLength, hTail⟩, rfl, rfl⟩
      · rintro ⟨a, middle, hFirst, tail, rest', ⟨hLength, hTail⟩, rfl, rfl⟩
        rw [List.map_cons, List.prod_cons, takes_mul]
        exact ⟨congrArg Nat.succ hLength, middle, hFirst, hTail⟩

end Logic

/-! ## Elements -/

/-- The readers of an element type recognize its items and arrays, and `CBOR_Peek` tells the
count of an array. -/
structure StreamOps.RecognizesAs [DpsCbor] {T : Type} (ops : StreamOps T) (one : Language UInt8)
    (arrays : Nat → Language UInt8) : Prop where
  get : Recognizes ops.get one
  decodeSequence : ∀ size, Recognizes (ops.decodeSequence size) (arrays size)
  getVector : RecognizesBy List.length ops.getVector arrays
  peeks : ∀ count input rest, Takes (arrays count) input rest → ∃ major info,
    DpsCbor.peek input = some (major, info) ∧
      (major = Rfc7049.majorArray ∨ major = Rfc7049.majorBytes) ∧ info.toNat = count

section Elements

variable [DpsCbor] [DpsCbor.Exact]

theorem getArrayHead_recognizes (what : String) :
    RecognizesBy id (getArrayHead what) (Rfc7049.heads Rfc7049.majorArray) := by
  have hRead : RecognizesBy id (RxStream.read DpsCbor.decodeArray what) _ :=
    RecognizesBy.read DpsCbor.Exact.decodeArray what
  have hCount : ∀ size : UInt64, RecognizesBy id (Pure.pure size.toNat : Rx Nat)
      fun n => ⨆ _ : n = size.toNat, 1 := fun size =>
    (Recognizes.pure size.toNat).withKey fun _ _ _ hRun => by
      cases hRun
      rfl
  have hBind : RecognizesBy id (getArrayHead what) fun n => ⨆ size : UInt64,
      Rfc7049.heads Rfc7049.majorArray size.toNat * ⨆ _ : n = size.toNat, 1 := hRead.bind hCount
  refine hBind.congr fun n input rest => ?_
  simp only [takes_iSup, takes_mul, Rfc7049.takes_one, exists_prop]
  constructor
  · rintro ⟨head, hHead, rfl⟩
    have hBack : (UInt64.ofNat n).toNat = n := UInt64.toNat_ofNat_of_lt (Rfc7049.IsHead.lt hHead)
    exact ⟨UInt64.ofNat n, rest, by rw [hBack]; exact ⟨head, hHead, rfl⟩, hBack.symm, rfl⟩
  · rintro ⟨size, middle, hHead, rfl, rfl⟩
    exact hHead

/-- A head, and as many elements as it says. -/
theorem getVector_recognizes {T : Type} {get : Rx T} {one : Language UInt8} (what : String)
    (hGet : Recognizes get one) :
    RecognizesBy List.length (getVector get what) (Rfc7049.arrays one) := by
  have hVector : RecognizesBy List.length (getVector get what) fun length => ⨆ size,
      Rfc7049.heads Rfc7049.majorArray size * ⨆ _ : length = size, one ^ size :=
    RecognizesBy.unreadLength fun _ =>
      (getArrayHead_recognizes what).bind fun size => (hGet.readEach_length size).resize _ _
  refine hVector.congr fun length input rest => ?_
  simp only [Rfc7049.arrays, takes_iSup, takes_mul, exists_prop]
  constructor
  · rintro ⟨middle, hHead, hItems⟩
    exact ⟨length, middle, hHead, rfl, hItems⟩
  · rintro ⟨size, middle, hHead, rfl, hItems⟩
    exact ⟨middle, hHead, hItems⟩

/-- The vector that is read tells the items of the array. -/
theorem getVector_recognizesItems {T : Type} {get : Rx T} {words : T → Language UInt8}
    (what : String) (hGet : RecognizesBy id get words) :
    RecognizesBy id (getVector get what) fun values => Rfc7049.arrayOf (values.map words) := by
  have hVector : RecognizesBy id (getVector get what) fun values => ⨆ size,
      Rfc7049.heads Rfc7049.majorArray size *
        ⨆ _ : values.length = size, (values.map words).prod :=
    RecognizesBy.unreadLength fun _ =>
      (getArrayHead_recognizes what).bind fun size => (hGet.readEach size).resize _ _
  refine hVector.congr fun values input rest => ?_
  simp only [Rfc7049.arrayOf, List.length_map, takes_iSup, takes_mul, exists_prop]
  constructor
  · rintro ⟨middle, hHead, hItems⟩
    exact ⟨values.length, middle, hHead, rfl, hItems⟩
  · rintro ⟨size, middle, hHead, rfl, hItems⟩
    exact ⟨middle, hHead, hItems⟩

theorem decodeSequence_recognizes {T : Type} {get : Rx T} {one : Language UInt8}
    (hGet : Recognizes get one) (size : Nat) :
    Recognizes (decodeSequence get size) (Rfc7049.arrays one size) := by
  have hSequence : RecognizesBy (fun _ => ()) (decodeSequence get size) fun _ => ⨆ size',
      Rfc7049.heads Rfc7049.majorArray size' * ⨆ _ : ¬ size' ≠ size, one ^ size := by
    refine (getArrayHead_recognizes _).bind fun size' => ?_
    exact (Recognizes.throw_bind _ _).unless (hGet.readEach size)
  refine Recognizes.congr hSequence fun input rest => ?_
  simp only [Rfc7049.arrays, takes_iSup, takes_mul, exists_prop, not_not]
  constructor
  · rintro ⟨middle, hHead, hItems⟩
    exact ⟨size, middle, hHead, rfl, hItems⟩
  · rintro ⟨size', middle, hHead, rfl, hItems⟩
    exact ⟨middle, hHead, hItems⟩

/-- A head of an array tells its count. -/
theorem peeks_of_takes {major count : Nat} {items : Language UInt8} {input rest : List UInt8}
    (hMajor : major = Rfc7049.majorArray ∨ major = Rfc7049.majorBytes)
    (hTakes : Takes (Rfc7049.heads major count * items) input rest) : ∃ major info,
    DpsCbor.peek input = some (major, info) ∧
      (major = Rfc7049.majorArray ∨ major = Rfc7049.majorBytes) ∧ info.toNat = count := by
  obtain ⟨middle, hHead, -⟩ := takes_mul.mp hTakes
  obtain ⟨head, hIsHead, -⟩ := id hHead
  have hBack : (UInt64.ofNat count).toNat = count :=
    UInt64.toNat_ofNat_of_lt (Rfc7049.IsHead.lt hIsHead)
  refine ⟨major, UInt64.ofNat count, ?_, hMajor, hBack⟩
  exact (DpsCbor.Exact.peek major hMajor input _).mpr ⟨middle, by rwa [hBack]⟩

theorem StreamOps.ofScalar_recognizes {T : Type} {put : T → Tx Unit} {get : Rx T}
    {one : Language UInt8} (hGet : Recognizes get one) :
    (StreamOps.ofScalar put get).RecognizesAs one (Rfc7049.arrays one) where
  get := hGet
  decodeSequence := decodeSequence_recognizes hGet
  getVector := getVector_recognizes _ hGet
  peeks _ _ _ := peeks_of_takes (.inl rfl)

theorem getString_recognizes :
    RecognizesBy id getString (Rfc7049.strings Rfc7049.majorText) := by
  have hRead : RecognizesBy id (RxStream.read DpsCbor.decodeString _) _ :=
    RecognizesBy.read DpsCbor.Exact.decodeString "failed to deserialize std::string"
  have hString : RecognizesBy id getString fun s => ⨆ content,
      Rfc7049.strings Rfc7049.majorText content * ⨆ _ : s = content, 1 := by
    refine RecognizesBy.unreadLength fun unread => hRead.bind fun s => ?_
    refine RecognizesBy.resize ((Recognizes.pure s).withKey fun _ _ _ hRun => ?_) _ _
    cases hRun
    rfl
  refine hString.congr fun s input rest => ?_
  simp only [takes_iSup, takes_mul, Rfc7049.takes_one, exists_prop, exists_eq_right_right,
    exists_eq_right']

theorem stringOps_recognizes : stringOps.RecognizesAs texts (Rfc7049.arrays texts) :=
  StreamOps.ofScalar_recognizes getString_recognizes.forget

/-- The strings of a payload are what the discovery callback reads. -/
theorem stringOps_getVector_recognizes : RecognizesBy id stringOps.getVector textArray :=
  getVector_recognizesItems _ getString_recognizes

theorem u16stringOps_recognizes : u16stringOps.RecognizesAs u16texts (Rfc7049.arrays u16texts) :=
  StreamOps.ofScalar_recognizes
    (getVector_recognizes _ (RecognizesBy.read DpsCbor.Exact.decodeUint16 _).forget).forget

theorem uint8Ops_recognizes :
    uint8Ops.RecognizesAs (PrimType.items .uint8) (PrimType.arrays .uint8) where
  get := (RecognizesBy.read DpsCbor.Exact.decodeUint8 _).forget
  decodeSequence size := by
    have hSequence : RecognizesBy (fun _ => ()) (decodeSequenceUint8 size) fun _ => ⨆ content,
        Rfc7049.strings Rfc7049.majorBytes content * ⨆ _ : ¬ content.length ≠ size, 1 := by
      refine (RecognizesBy.read DpsCbor.Exact.decodeBytes _).bind fun items => ?_
      exact (Recognizes.throw_bind _ _).unless (Recognizes.pure items)
    refine Recognizes.congr hSequence fun input rest => ?_
    simp only [PrimType.arrays, takes_stringsOf, takes_iSup, takes_mul, Rfc7049.takes_one,
      exists_prop, not_not, exists_eq_right_right]
    constructor
    · rintro ⟨content, hLength, hTakes⟩
      exact ⟨content, hTakes, hLength⟩
    · rintro ⟨content, hTakes, hLength⟩
      exact ⟨content, hLength, hTakes⟩
  getVector := by
    have hRead : RecognizesBy id (RxStream.read DpsCbor.decodeBytes _) _ :=
      RecognizesBy.read DpsCbor.Exact.decodeBytes "failed to deserialize std::vector<uint8_t>"
    have hVector : RecognizesBy List.length getVectorUint8 fun length => ⨆ content,
        Rfc7049.strings Rfc7049.majorBytes content * ⨆ _ : length = content.length, 1 := by
      refine RecognizesBy.unreadLength fun unread => hRead.bind fun items => ?_
      refine RecognizesBy.resize ((Recognizes.pure items).withKey fun _ _ _ hRun => ?_) _ _
      cases hRun
      rfl
    refine hVector.congr fun length input rest => ?_
    simp only [PrimType.arrays, takes_stringsOf, takes_iSup, takes_mul, Rfc7049.takes_one,
      exists_prop, exists_eq_right_right]
    constructor
    · rintro ⟨content, hLength, hTakes⟩
      exact ⟨content, hTakes, hLength.symm⟩
    · rintro ⟨content, hTakes, hLength⟩
      exact ⟨content, hLength.symm, hTakes⟩
  peeks count input rest hTakes := by
    obtain ⟨content, rfl, hString⟩ := takes_stringsOf.mp hTakes
    exact peeks_of_takes (.inr rfl) hString

theorem PrimType.ops_recognizes [Platform] (t : PrimType) :
    t.ops.RecognizesAs t.items t.arrays := by
  cases t with
  | bool =>
      have hGet : ∀ what, Recognizes (RxStream.read DpsCbor.decodeBoolean what) _ := fun what =>
        (RecognizesBy.read DpsCbor.Exact.decodeBoolean what).forget
      exact ⟨hGet _, decodeSequence_recognizes (hGet _), getVector_recognizes _ (hGet _),
        fun _ _ _ => peeks_of_takes (.inl rfl)⟩
  | uint8 => exact uint8Ops_recognizes
  | char =>
      exact StreamOps.ofScalar_recognizes
        ((RecognizesBy.read DpsCbor.Exact.decodeInt8 _).forget.map fun i => CChar.mk i.toUInt8)
  | float =>
      exact StreamOps.ofScalar_recognizes (RecognizesBy.read DpsCbor.Exact.decodeFloat _).forget
  | double =>
      exact StreamOps.ofScalar_recognizes (RecognizesBy.read DpsCbor.Exact.decodeDouble _).forget
  | int16 =>
      exact StreamOps.ofScalar_recognizes (RecognizesBy.read DpsCbor.Exact.decodeInt16 _).forget
  | uint16 =>
      exact StreamOps.ofScalar_recognizes (RecognizesBy.read DpsCbor.Exact.decodeUint16 _).forget
  | int32 =>
      exact StreamOps.ofScalar_recognizes (RecognizesBy.read DpsCbor.Exact.decodeInt32 _).forget
  | uint32 =>
      exact StreamOps.ofScalar_recognizes (RecognizesBy.read DpsCbor.Exact.decodeUint32 _).forget
  | int64 =>
      exact StreamOps.ofScalar_recognizes (RecognizesBy.read DpsCbor.Exact.decodeInt _).forget
  | uint64 =>
      exact StreamOps.ofScalar_recognizes (RecognizesBy.read DpsCbor.Exact.decodeUint _).forget

end Elements

/-! ## Fields -/

section Fields

variable {T : Type} {ops : StreamOps T} {one : Language UInt8} {arrays : Nat → Language UInt8}
  {member : MessageMember} [DpsCbor]

theorem Cpp.deserializeField_recognizes (hOps : ops.RecognizesAs one arrays) :
    Recognizes (Cpp.deserializeField ops member) (member.shape one arrays arrays) := by
  unfold Cpp.deserializeField MessageMember.shape
  split_ifs with hArray hFixed
  · exact hOps.get.map FieldMem.one
  · exact (hOps.decodeSequence _).map FieldMem.many
  · exact hOps.getVector.forget.map FieldMem.many

/-- The count that is peeked at is the count that the head is then compared with. -/
theorem C.deserializeSequence_recognizes (hOps : ops.RecognizesAs one arrays) :
    Recognizes (do
      let unread ← unreadLength
      let dsize ← deserializeSequenceSize
      resize dsize unread
      ops.decodeSequence dsize) (⨆ count, arrays count) := by
  refine RecognizesBy.unreadLength fun unread => ?_
  intro deser _ rest
  rw [takes_iSup, Rx.exec_bind, RxStream.exec_deserializeSequenceSize]
  constructor
  · rintro ⟨values, deser', hRun, -, hRest⟩
    split at hRun
    · next dsize left hSize =>
        have hLeft : left = deser := (congrArg Prod.snd hSize).symm
        subst hLeft
        exact ⟨dsize, ((hOps.decodeSequence dsize).resize dsize unread left () rest).mp
          ⟨values, deser', hRun, rfl, hRest⟩⟩
    · cases hRun
  · rintro ⟨count, hTakes⟩
    obtain ⟨major, info, hPeek, hMajor, rfl⟩ := hOps.peeks count deser.unread rest hTakes
    have hKnown : ¬ (major ≠ Rfc7049.majorArray ∧ major ≠ Rfc7049.majorBytes) := by
      rintro ⟨hArray, hBytes⟩
      exact hMajor.elim hArray hBytes
    rw [hPeek]
    dsimp only
    rw [if_neg hKnown]
    exact ((hOps.decodeSequence info.toNat).resize info.toNat unread deser () rest).mpr hTakes

theorem C.deserializeField_recognizes (hOps : ops.RecognizesAs one arrays) :
    Recognizes (C.deserializeField ops member) (member.shape one arrays arrays) := by
  unfold C.deserializeField MessageMember.shape
  split_ifs with hArray hFixed
  · exact hOps.get.map FieldMem.one
  · exact (hOps.decodeSequence _).map FieldMem.many
  · simpa only [bind_assoc] using (C.deserializeSequence_recognizes hOps).map FieldMem.many

variable {U : Type} [Zero U] [DecidableEq U]

omit [DpsCbor] in
/-- Nothing is read, but the vector has to be long enough. -/
theorem C.assignEach_recognizes (values : List (List U)) (count : Nat) :
    Recognizes (C.assignEach count values) (⨆ _ : count ≤ values.length, 1) := by
  induction values generalizing count with
  | nil =>
      cases count with
      | zero => simpa [C.assignEach] using Recognizes.pure ([] : List (RosidlString U))
      | succ count =>
          refine (Recognizes.throw .indexPastEnd).congr fun input rest => ?_
          rw [takes_iSup, exists_prop]
          exact iff_of_false (fun h => Nat.not_succ_le_zero count h.1) Rfc7049.takes_zero
  | cons value values ih =>
      cases count with
      | zero => simpa [C.assignEach] using Recognizes.pure ([] : List (RosidlString U))
      | succ count => simpa [C.assignEach] using (ih count).map fun rest => C.assign value :: rest

/-- A fixed-size array is filled from the front of a vector of any length. -/
theorem C.deserializeFieldOfString_recognizes {ops : StreamOps (List U)}
    (hOps : ops.RecognizesAs one (Rfc7049.arrays one)) :
    Recognizes (C.deserializeFieldOfString ops member)
      (member.shape one (stringArrays true one) (Rfc7049.arrays one)) := by
  unfold C.deserializeFieldOfString MessageMember.shape stringArrays
  simp only [if_true]
  split_ifs with hArray hFixed
  · exact hOps.get.map fun s => FieldMem.one (C.assign s)
  · refine RecognizesBy.unreadLength fun unread => ?_
    have hAssign : Recognizes (do
        let values ← ops.getVector
        C.assignEach member.arraySize.toNat values) (⨆ length,
          Rfc7049.arrays one length * ⨆ _ : member.arraySize.toNat ≤ length, 1) :=
      hOps.getVector.bind fun values => C.assignEach_recognizes values member.arraySize.toNat
    have hField := Recognizes.map hAssign FieldMem.many
    rw [bind_assoc] at hField
    refine hField.congr fun input rest => ?_
    simp only [takes_iSup, takes_mul, Rfc7049.takes_one, exists_prop]
    constructor
    · rintro ⟨more, hTakes⟩
      exact ⟨_, rest, hTakes, Nat.le_add_right _ more, rfl⟩
    · rintro ⟨length, middle, hTakes, hLe, rfl⟩
      obtain ⟨more, rfl⟩ := Nat.exists_eq_add_of_le hLe
      exact ⟨more, hTakes⟩
  · refine RecognizesBy.unreadLength fun unread => ?_
    have hField := hOps.getVector.forget.bind fun values =>
      (Recognizes.pure (FieldMem.many (values.map C.assign))).resize values.length unread
    rwa [mul_one] at hField

end Fields

/-! ## Messages -/

/-- The C support lets a fixed-size array of strings be followed by more strings. -/
def MembersType.surplus : MembersType → Bool
  | .cpp => false
  | .c => true

section Messages

variable [DpsCbor] [DpsCbor.Exact] {μ : MembersType} {member : MessageMember}

theorem deserializePrim_recognizes [Platform] (t : PrimType) :
    Recognizes (deserializePrim μ t member) (member.shape t.items t.arrays t.arrays) := by
  cases μ with
  | cpp => exact Cpp.deserializeField_recognizes t.ops_recognizes
  | c => exact C.deserializeField_recognizes t.ops_recognizes

theorem deserializeString_recognizes :
    Recognizes (deserializeString μ member)
      (member.shape texts (stringArrays μ.surplus texts) (Rfc7049.arrays texts)) := by
  cases μ with
  | cpp => exact Cpp.deserializeField_recognizes stringOps_recognizes
  | c => exact C.deserializeFieldOfString_recognizes stringOps_recognizes

theorem deserializeWstring_recognizes :
    Recognizes (deserializeWstring μ member)
      (member.shape u16texts (stringArrays μ.surplus u16texts) (Rfc7049.arrays u16texts)) := by
  cases μ with
  | cpp => exact Cpp.deserializeField_recognizes u16stringOps_recognizes
  | c => exact C.deserializeFieldOfString_recognizes u16stringOps_recognizes

theorem getUint32_recognizes :
    RecognizesBy UInt32.toNat getUint32 fun n => ⨆ _ : n < 2 ^ 32, Rfc7049.ints n := by
  intro deser n rest
  have hRead := RecognizesBy.read DpsCbor.Exact.decodeUint32 "failed to deserialize uint32_t" deser
  simp only [takes_iSup, exists_prop]
  constructor
  · rintro ⟨a, deser', hRun, rfl, hRest⟩
    exact ⟨a.toNat_lt, (hRead a rest).mp ⟨a, deser', hRun, rfl, hRest⟩⟩
  · rintro ⟨hFits, hTakes⟩
    have hBack : (UInt32.ofNat n).toNat = n := UInt32.toNat_ofNat_of_lt hFits
    obtain ⟨a, deser', hRun, rfl, hRest⟩ := (hRead (UInt32.ofNat n) rest).mpr (by rwa [hBack])
    exact ⟨UInt32.ofNat n, deser', hRun, hBack, hRest⟩

theorem deserializeMessage_recognizes {deserializeSub : Rx (Message μ)} {sub : Language UInt8}
    (hSub : Recognizes deserializeSub sub) :
    Recognizes (deserializeMessage member deserializeSub)
      (member.shape sub (fun size => sub ^ size)
        fun count => ⨆ _ : count < 2 ^ 32, Rfc7049.ints count * sub ^ count) := by
  unfold deserializeMessage getSubmessageSequenceDeserialize MessageMember.shape
  by_cases hArray : (!member.isArray) = true
  · simp only [hArray, if_true]
    exact hSub.map Value.message
  · by_cases hFixed : member.isFixedArray = true
    · simp only [hArray, hFixed, Bool.false_eq_true, if_false, if_true, pure_bind]
      exact (hSub.readEach _).map Value.messages
    · simp only [hArray, hFixed, Bool.false_eq_true, if_false, bind_assoc, pure_bind]
      refine RecognizesBy.unreadLength fun unread => ?_
      have hElements : Recognizes (do
          let n ← getUint32
          resize n.toNat unread
          let messages ← readEach deserializeSub n.toNat
          return Value.messages messages) (⨆ n : Nat,
            (⨆ _ : n < 2 ^ 32, Rfc7049.ints n) * sub ^ n) :=
        getUint32_recognizes.bind fun n =>
          ((hSub.readEach n.toNat).map Value.messages).resize n.toNat unread
      refine Recognizes.congr hElements fun input rest => ?_
      simp only [takes_iSup, takes_mul, exists_prop]
      constructor
      · rintro ⟨count, hFits, middle, hHead, hItems⟩
        exact ⟨count, middle, ⟨hFits, hHead⟩, hItems⟩
      · rintro ⟨count, middle, ⟨hFits, hHead⟩, hItems⟩
        exact ⟨count, hFits, middle, hHead, hItems⟩

theorem deserializeMember_recognizes [Platform] {deserializeSub : Rx (Message μ)}
    {sub : Language UInt8} (hSub : Recognizes deserializeSub sub) :
    Recognizes (deserializeMember member deserializeSub) (member.words μ.surplus sub) := by
  unfold deserializeMember MessageMember.words
  cases member.typeId.kind with
  | prim t => exact (deserializePrim_recognizes t).map (Value.prim t)
  | string => exact deserializeString_recognizes.map Value.string
  | wstring => exact deserializeWstring_recognizes.map Value.wstring
  | message => exact deserializeMessage_recognizes hSub
  | unknown => exact Recognizes.throw _

theorem checkMemberCount_recognizes (count : Nat) :
    Recognizes (checkMemberCount count) (Rfc7049.heads Rfc7049.majorArray count) := by
  have hCheck : RecognizesBy (fun _ => ()) (checkMemberCount count) fun _ => ⨆ count',
      Rfc7049.heads Rfc7049.majorArray count' * ⨆ _ : ¬ count' ≠ count, 1 := by
    refine (getArrayHead_recognizes _).bind fun memberCount => ?_
    exact (Recognizes.throw _).unless (Recognizes.pure ())
  refine Recognizes.congr hCheck fun input rest => ?_
  simp only [takes_iSup, takes_mul, Rfc7049.takes_one, exists_prop, not_not, exists_eq_right_right,
    exists_eq_right]

theorem deserializeMembers_recognizes [Platform] (members : MessageMembers) :
    Recognizes (deserializeMembers members : Rx (Message μ)) (members.words μ.surplus) := by
  induction members with
  | nil => exact Recognizes.pure []
  | cons member submembers rest ihSub ihRest =>
      have hSub : Recognizes (do
          checkMemberCount submembers.memberCount
          deserializeMembers submembers : Rx (Message μ)) _ :=
        (checkMemberCount_recognizes _).bind fun _ => ihSub
      exact (deserializeMember_recognizes hSub).bind fun value =>
        ihRest.map fun values => value :: values

/-- The decoder of a package recognizes the payloads of the description, those with surplus
strings included where it is the C support. -/
theorem TypeSupport.deserializeROSmessage_recognizes [Platform] (members : MessageMembers) :
    Recognizes (TypeSupport.deserializeROSmessage members : Rx (Message μ))
      (members.payloads μ.surplus) := by
  unfold TypeSupport.deserializeROSmessage MessageMembers.payloads
  split_ifs with hSome
  · exact (checkMemberCount_recognizes _).bind fun _ => deserializeMembers_recognizes members
  · exact uint8Ops_recognizes.get.map fun _ => []

end Messages

/-! ## Surplus strings -/

theorem MessageMember.shape_mono {member : MessageMember} {one one' : Language UInt8}
    {fixed fixed' sequence sequence' : Nat → Language UInt8} (hOne : one ≤ one')
    (hFixed : ∀ size, fixed size ≤ fixed' size)
    (hSequence : ∀ count, sequence count ≤ sequence' count) :
    member.shape one fixed sequence ≤ member.shape one' fixed' sequence' := by
  unfold shape
  split_ifs
  · exact hOne
  · exact hFixed _
  · exact iSup_mono hSequence

theorem stringArrays_mono {surplus : Bool} (string : Language UInt8) (size : Nat) :
    stringArrays false string size ≤ stringArrays surplus string size := by
  cases surplus with
  | false => exact le_rfl
  | true => exact le_iSup (fun more => Rfc7049.arrays string (size + more)) 0

theorem MessageMembers.words_mono {surplus : Bool} (members : MessageMembers) :
    members.words false ≤ members.words surplus := by
  induction members with
  | nil => exact le_rfl
  | cons member submembers rest ihSub ihRest =>
      have hSub : Rfc7049.heads Rfc7049.majorArray submembers.memberCount * submembers.words false ≤
          Rfc7049.heads Rfc7049.majorArray submembers.memberCount * submembers.words surplus :=
        mul_le_mul_right ihSub _
      refine mul_le_mul' ?_ ihRest
      unfold MessageMember.words
      cases member.typeId.kind with
      | prim t => exact le_rfl
      | string =>
          exact MessageMember.shape_mono le_rfl (stringArrays_mono texts) fun _ => le_rfl
      | wstring =>
          exact MessageMember.shape_mono le_rfl (stringArrays_mono u16texts) fun _ => le_rfl
      | message =>
          exact MessageMember.shape_mono hSub (fun size => pow_le_pow_left' hSub size)
            fun count => iSup_mono fun _ => mul_le_mul_right (pow_le_pow_left' hSub count) _
      | unknown => exact le_rfl

/-- Every payload of the description is taken, and the C support takes more. -/
theorem MessageMembers.payloads_mono {surplus : Bool} (members : MessageMembers) :
    members.payloads false ≤ members.payloads surplus := by
  unfold payloads
  split_ifs
  · exact mul_le_mul_right members.words_mono _
  · exact le_rfl

end Serialization
end RmwDps
