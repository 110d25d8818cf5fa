import RmwDps.Serialization.AnnouncedCounts
import RmwDps.Serialization.PayloadGrammar

/-!
# Announced counts in the grammar of payloads

The places of the heads that nobody tests, by recursion over the description and over the
languages of its payloads, without readers or streams.  An input gets to such a place
behind the words of all that stands in front of it.  The head there overcounts if it
announces more elements than there are bytes from it on.

With decoders that accept exactly the items of RFC 7049, these are the heads that decoding
believes.
-/

namespace RmwDps
namespace Serialization

open Rfc7049 (Takes takes_mul takes_iSup)

/-! ## Places of heads -/

/-- A head of the major type is here, and announces more than the bytes from it on. -/
def HeadOvercounts (major : Nat) (input : List UInt8) : Prop :=
  ∃ n rest, Takes (Rfc7049.heads major n) input rest ∧ input.length < n

/-- One of so many items overcounts, behind the items in front of it. -/
def ItemOvercounts (item : Language UInt8) (overcounts : List UInt8 → Prop) (count : Nat)
    (input : List UInt8) : Prop :=
  ∃ index < count, ∃ rest, Takes (item ^ index) input rest ∧ overcounts rest

/-- The number in front of the items does, or one of the items. -/
def SequenceOvercounts (number : Nat → Language UInt8) (item : Language UInt8)
    (overcounts : List UInt8 → Prop) (input : List UInt8) : Prop :=
  ∃ n rest, Takes (number n) input rest ∧
    (input.length < n ∨ ItemOvercounts item overcounts n rest)

/-- A head of the member does, given the same of a nested message. -/
def MessageMember.Overcounts (μ : MembersType) (member : MessageMember) (sub : Language UInt8)
    (subOvercounts : List UInt8 → Prop) (input : List UInt8) : Prop :=
  match member.typeId.kind with
  | .prim t =>
      member.isArray = true ∧ member.isFixedArray = false ∧
        match μ with
        | .cpp => t ≠ .uint8 ∧ HeadOvercounts Rfc7049.majorArray input
        | .c => HeadOvercounts Rfc7049.majorArray input ∨ HeadOvercounts Rfc7049.majorBytes input
  | .string =>
      member.isArray = true ∧ (μ = .cpp → member.isFixedArray = false) ∧
        HeadOvercounts Rfc7049.majorArray input
  | .wstring =>
      if member.isArray then
        if μ = .cpp ∧ member.isFixedArray = true then
          ∃ rest, Takes (Rfc7049.heads Rfc7049.majorArray member.arraySize.toNat) input rest ∧
            ItemOvercounts u16texts (HeadOvercounts Rfc7049.majorArray)
              member.arraySize.toNat rest
        else
          SequenceOvercounts (Rfc7049.heads Rfc7049.majorArray) u16texts
            (HeadOvercounts Rfc7049.majorArray) input
      else HeadOvercounts Rfc7049.majorArray input
  | .message =>
      if member.isArray then
        if member.isFixedArray then ItemOvercounts sub subOvercounts member.arraySize.toNat input
        else
          SequenceOvercounts (fun n => ⨆ _ : n < 2 ^ 32, Rfc7049.ints n) sub subOvercounts input
      else subOvercounts input
  | .unknown => False

/-- A head among the members does, behind the words of the members in front of it. -/
def MessageMembers.Overcounts (μ : MembersType) : MessageMembers → List UInt8 → Prop
  | .nil, _ => False
  | .cons member submembers rest, input =>
      let head := Rfc7049.heads Rfc7049.majorArray submembers.memberCount
      let sub := head * submembers.words μ.surplus
      let subOvercounts (input : List UInt8) :=
        ∃ left, Takes head input left ∧ submembers.Overcounts μ left
      member.Overcounts μ sub subOvercounts input ∨
        ∃ left, Takes (member.words μ.surplus sub) input left ∧ rest.Overcounts μ left

def MessageMembers.PayloadOvercounts (μ : MembersType) (members : MessageMembers)
    (input : List UInt8) : Prop :=
  ∃ left, Takes (Rfc7049.heads Rfc7049.majorArray members.memberCount) input left ∧
    members.Overcounts μ left

/-! ## What decoding gets to -/

section Heads

variable {α : Type} {reader : Rx α} {item : Language UInt8} {input : List UInt8}
  {believes overcounts : List UInt8 → Prop}

theorem Recognizes.parse_iff (hReader : Recognizes reader item) (input rest : List UInt8) :
    (∃ a, reader.parse input = some (a, rest)) ↔ Takes item input rest := by
  have hTakes := hReader (RxStream.ofBytes input) () rest
  refine Iff.trans ?_ hTakes
  unfold Rx.parse Rx.taken
  constructor
  · rintro ⟨a, hParse⟩
    split at hParse
    · next hRun =>
        cases hParse
        exact ⟨a, _, hRun, rfl, rfl⟩
    · cases hParse
  · rintro ⟨a, deser, hRun, -, rfl⟩
    exact ⟨a, by rw [hRun]⟩

theorem itemOvercounts_succ {count : Nat} :
    ItemOvercounts item overcounts (count + 1) input ↔
      overcounts input ∨
        ∃ rest, Takes item input rest ∧ ItemOvercounts item overcounts count rest := by
  constructor
  · rintro ⟨index, hIndex, rest, hTakes, hOver⟩
    cases index with
    | zero =>
        rw [pow_zero, Rfc7049.takes_one] at hTakes
        subst hTakes
        exact .inl hOver
    | succ index =>
        rw [pow_succ', takes_mul] at hTakes
        obtain ⟨middle, hItem, hItems⟩ := hTakes
        exact .inr ⟨middle, hItem, index, Nat.lt_of_succ_lt_succ hIndex, rest, hItems, hOver⟩
  · rintro (hOver | ⟨middle, hItem, index, hIndex, rest, hItems, hOver⟩)
    · exact ⟨0, Nat.succ_pos count, input, by rw [pow_zero, Rfc7049.takes_one], hOver⟩
    · refine ⟨index + 1, Nat.succ_lt_succ hIndex, rest, ?_, hOver⟩
      rw [pow_succ', takes_mul]
      exact ⟨middle, hItem, hItems⟩

theorem eachBelieves_iff (hReader : Recognizes reader item)
    (hBelieves : ∀ input, believes input ↔ overcounts input) (count : Nat) (input : List UInt8) :
    EachBelieves reader believes count input ↔ ItemOvercounts item overcounts count input := by
  induction count generalizing input with
  | zero => exact iff_of_false id fun ⟨index, hIndex, _⟩ => absurd hIndex (Nat.not_lt_zero index)
  | succ count ih =>
      rw [itemOvercounts_succ]
      refine or_congr (hBelieves input) ?_
      simp only [← hReader.parse_iff, ← ih]
      constructor
      · rintro ⟨a, rest, hParse, hEach⟩
        exact ⟨rest, ⟨a, hParse⟩, hEach⟩
      · rintro ⟨rest, ⟨a, hParse⟩, hEach⟩
        exact ⟨a, rest, hParse, hEach⟩

variable [DpsCbor] [DpsCbor.Exact]

theorem exists_decodeArray_iff {P : Nat → List UInt8 → Prop} :
    (∃ n rest, DpsCbor.decodeArray input = some (n, rest) ∧ P n.toNat rest) ↔
      ∃ n rest, Takes (Rfc7049.heads Rfc7049.majorArray n) input rest ∧ P n rest := by
  constructor
  · rintro ⟨n, rest, hHead, hP⟩
    exact ⟨n.toNat, rest, (DpsCbor.Exact.decodeArray input n rest).mp hHead, hP⟩
  · rintro ⟨n, rest, hTakes, hP⟩
    obtain ⟨head, hHead, hInput⟩ := hTakes
    have hBack : (UInt64.ofNat n).toNat = n := UInt64.toNat_ofNat_of_lt (Rfc7049.IsHead.lt hHead)
    refine ⟨UInt64.ofNat n, rest, (DpsCbor.Exact.decodeArray input _ rest).mpr ?_, ?_⟩
    · show Takes (Rfc7049.heads Rfc7049.majorArray (UInt64.ofNat n).toNat) input rest
      rw [hBack]
      exact ⟨head, hHead, hInput⟩
    · rwa [hBack]

theorem exists_decodeUint32_iff {P : Nat → List UInt8 → Prop} :
    (∃ n rest, DpsCbor.decodeUint32 input = some (n, rest) ∧ P n.toNat rest) ↔
      ∃ (n : Nat) (rest : List UInt8),
        Takes (⨆ _ : n < 2 ^ 32, Rfc7049.ints n) input rest ∧ P n rest := by
  simp only [takes_iSup, exists_prop]
  constructor
  · rintro ⟨n, rest, hHead, hP⟩
    exact ⟨n.toNat, rest, ⟨n.toNat_lt, (DpsCbor.Exact.decodeUint32 input n rest).mp hHead⟩, hP⟩
  · rintro ⟨n, rest, ⟨hFits, hTakes⟩, hP⟩
    have hBack : (UInt32.ofNat n).toNat = n := UInt32.toNat_ofNat_of_lt hFits
    refine ⟨UInt32.ofNat n, rest, (DpsCbor.Exact.decodeUint32 input _ rest).mpr ?_, ?_⟩
    · show Takes (Rfc7049.ints (UInt32.ofNat n).toNat) input rest
      rwa [hBack]
    · rwa [hBack]

theorem arrayBelieves_iff (input : List UInt8) :
    ArrayBelieves input ↔ HeadOvercounts Rfc7049.majorArray input :=
  exists_decodeArray_iff (P := fun n _ => input.length < n)

theorem peekBelieves_iff (input : List UInt8) :
    PeekBelieves input ↔
      HeadOvercounts Rfc7049.majorArray input ∨ HeadOvercounts Rfc7049.majorBytes input := by
  have hPeek : ∀ major, major = Rfc7049.majorArray ∨ major = Rfc7049.majorBytes →
      ((∃ n, DpsCbor.peek input = some (major, n) ∧ input.length < n.toNat) ↔
        HeadOvercounts major input) := by
    intro major hMajor
    constructor
    · rintro ⟨n, hHead, hLong⟩
      obtain ⟨rest, hTakes⟩ := (DpsCbor.Exact.peek major hMajor input n).mp hHead
      exact ⟨n.toNat, rest, hTakes, hLong⟩
    · rintro ⟨n, rest, hTakes, hLong⟩
      obtain ⟨head, hHead, hInput⟩ := hTakes
      have hBack : (UInt64.ofNat n).toNat = n := UInt64.toNat_ofNat_of_lt (Rfc7049.IsHead.lt hHead)
      refine ⟨UInt64.ofNat n, (DpsCbor.Exact.peek major hMajor input _).mpr ⟨rest, ?_⟩, ?_⟩
      · rw [hBack]
        exact ⟨head, hHead, hInput⟩
      · rwa [hBack]
  rw [← hPeek _ (.inl rfl), ← hPeek _ (.inr rfl)]
  constructor
  · rintro ⟨major, n, hHead, rfl | rfl, hLong⟩
    · exact .inl ⟨n, hHead, hLong⟩
    · exact .inr ⟨n, hHead, hLong⟩
  · rintro (⟨n, hHead, hLong⟩ | ⟨n, hHead, hLong⟩)
    · exact ⟨_, n, hHead, .inl rfl, hLong⟩
    · exact ⟨_, n, hHead, .inr rfl, hLong⟩

theorem vectorBelieves_iff (hReader : Recognizes reader item)
    (hBelieves : ∀ input, believes input ↔ overcounts input) :
    VectorBelieves reader believes input ↔
      SequenceOvercounts (Rfc7049.heads Rfc7049.majorArray) item overcounts input := by
  unfold VectorBelieves SequenceOvercounts
  simp only [eachBelieves_iff hReader hBelieves]
  exact exists_decodeArray_iff
    (P := fun n rest => input.length < n ∨ ItemOvercounts item overcounts n rest)

theorem sequenceBelieves_iff {size : Nat} (hReader : Recognizes reader item)
    (hBelieves : ∀ input, believes input ↔ overcounts input) :
    SequenceBelieves reader believes size input ↔
      ∃ rest, Takes (Rfc7049.heads Rfc7049.majorArray size) input rest ∧
        ItemOvercounts item overcounts size rest := by
  unfold SequenceBelieves
  simp only [eachBelieves_iff hReader hBelieves]
  rw [exists_decodeArray_iff
    (P := fun n rest => n = size ∧ ItemOvercounts item overcounts size rest)]
  constructor
  · rintro ⟨_, rest, hTakes, rfl, hItems⟩
    exact ⟨rest, hTakes, hItems⟩
  · rintro ⟨rest, hTakes, hItems⟩
    exact ⟨size, rest, hTakes, rfl, hItems⟩

theorem messagesBelieve_iff (hReader : Recognizes reader item)
    (hBelieves : ∀ input, believes input ↔ overcounts input) :
    MessagesBelieve reader believes input ↔
      SequenceOvercounts (fun n => ⨆ _ : n < 2 ^ 32, Rfc7049.ints n) item overcounts input := by
  unfold MessagesBelieve SequenceOvercounts
  simp only [eachBelieves_iff hReader hBelieves]
  exact exists_decodeUint32_iff
    (P := fun n rest => input.length < n ∨ ItemOvercounts item overcounts n rest)

/-- The number of members is read in front of them. -/
theorem membersBelieve_iff {count : Nat}
    (hBelieves : ∀ input, believes input ↔ overcounts input) :
    (∃ n left, DpsCbor.decodeArray input = some (n, left) ∧ n.toNat = count ∧ believes left) ↔
      ∃ left, Takes (Rfc7049.heads Rfc7049.majorArray count) input left ∧ overcounts left := by
  simp only [hBelieves]
  rw [exists_decodeArray_iff (P := fun n left => n = count ∧ overcounts left)]
  constructor
  · rintro ⟨_, left, hTakes, rfl, hOver⟩
    exact ⟨left, hTakes, hOver⟩
  · rintro ⟨left, hTakes, hOver⟩
    exact ⟨count, left, hTakes, rfl, hOver⟩

end Heads

/-! ## Descriptions -/

section Descriptions

variable [DpsCbor] [DpsCbor.Exact] {μ : MembersType}

theorem MessageMember.believes_iff {member : MessageMember} {reader : Rx (Message μ)}
    {sub : Language UInt8} {subBelieves subOvercounts : List UInt8 → Prop}
    (hReader : Recognizes reader sub)
    (hSub : ∀ input, subBelieves input ↔ subOvercounts input) (input : List UInt8) :
    member.Believes μ reader subBelieves input ↔ member.Overcounts μ sub subOvercounts input := by
  unfold Believes Overcounts
  cases member.typeId.kind with
  | prim t =>
      refine and_congr_right fun _ => and_congr_right fun _ => ?_
      cases μ with
      | cpp => exact and_congr_right fun _ => arrayBelieves_iff input
      | c => exact peekBelieves_iff input
  | string => exact and_congr_right fun _ => and_congr_right fun _ => arrayBelieves_iff input
  | wstring =>
      dsimp only
      split_ifs with hArray hFixed
      · exact sequenceBelieves_iff u16stringOps_recognizes.get arrayBelieves_iff
      · exact vectorBelieves_iff u16stringOps_recognizes.get arrayBelieves_iff
      · exact arrayBelieves_iff input
  | message =>
      dsimp only
      split_ifs with hArray hFixed
      · exact eachBelieves_iff hReader hSub _ input
      · exact messagesBelieve_iff hReader hSub
      · exact hSub input
  | unknown => exact Iff.rfl

/-- A description and an input have a head that is believed where the grammar has one that
overcounts. -/
theorem MessageMembers.believes_iff [Platform] (members : MessageMembers) (input : List UInt8) :
    members.Believes μ input ↔ members.Overcounts μ input := by
  induction members generalizing input with
  | nil => exact Iff.rfl
  | cons member submembers rest ihSub ihRest =>
      have hSub : Recognizes (do
          checkMemberCount submembers.memberCount
          deserializeMembers submembers : Rx (Message μ))
          (Rfc7049.heads Rfc7049.majorArray submembers.memberCount *
            submembers.words μ.surplus) :=
        (checkMemberCount_recognizes _).bind fun _ => deserializeMembers_recognizes submembers
      have hMember := @deserializeMember_recognizes _ _ μ member _ _ _ hSub
      refine or_congr (member.believes_iff hSub (fun _ => membersBelieve_iff ihSub) input) ?_
      simp only [← hMember.parse_iff, ← ihRest]
      constructor
      · rintro ⟨value, left, hParse, hBelieves⟩
        exact ⟨left, ⟨value, hParse⟩, hBelieves⟩
      · rintro ⟨left, ⟨value, hParse⟩, hBelieves⟩
        exact ⟨value, left, hParse, hBelieves⟩

theorem MessageMembers.payloadBelieves_iff [Platform] (members : MessageMembers)
    (input : List UInt8) : members.PayloadBelieves μ input ↔ members.PayloadOvercounts μ input :=
  membersBelieve_iff members.believes_iff

end Descriptions

end Serialization
end RmwDps
