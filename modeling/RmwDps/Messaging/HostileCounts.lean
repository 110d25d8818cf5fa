import RmwDps.Discovery.NodeListener
import RmwDps.Serialization.CountGrammar
import RmwDps.Serialization.RfcCbor

/-!
# Containers and the counts on the wire

The two decoders for bytes from the network: of messages, for both packages, and of
discovery payloads.
-/

namespace RmwDps
namespace Messaging

open Serialization

section

variable [DpsCbor] [Platform]

/-- A decoder for bytes from the network. -/
inductive Decoder
  | message (μ : MembersType) (members : MessageMembers)
  | discovery

/-- The containers that the decoder resizes on an input: their counts, with the bytes that
were unread at their heads.  `onDiscovery` does not decode an empty payload. -/
def Decoder.resized (input : List UInt8) : Decoder → List (Nat × Nat)
  | .message μ members =>
      (Rx.exec (TypeSupport.deserializeROSmessage (μ := μ) members)
        (RxStream.ofBytes input)).2.resized
  | .discovery =>
      if input.isEmpty then []
      else (Rx.exec stringOps.getVector (RxStream.ofBytes input)).2.resized

/-- No container is resized to more elements than there were unread bytes at its head. -/
def Decoder.HoldsCounts (decoder : Decoder) (input : List UInt8) : Prop :=
  ∀ head ∈ decoder.resized input, head.1 ≤ head.2

/-- The input has a head, where the decoder gets to, that announces more elements than there
are bytes from it on. -/
def Decoder.Believes (input : List UInt8) : Decoder → Prop
  | .message μ members => members.PayloadBelieves μ input
  | .discovery => input ≠ [] ∧ ArrayBelieves input

/-- The same over the grammar of the payloads, without the readers of the decoder. -/
def Decoder.Overcounts (input : List UInt8) : Decoder → Prop
  | .message μ members => members.PayloadOvercounts μ input
  | .discovery => HeadOvercounts Rfc7049.majorArray input

theorem Decoder.believes_iff [DpsCbor.Exact] (decoder : Decoder) (input : List UInt8) :
    decoder.Believes input ↔ decoder.Overcounts input := by
  cases decoder with
  | message μ members => exact members.payloadBelieves_iff input
  | discovery =>
      unfold Believes Overcounts
      rw [arrayBelieves_iff, and_iff_right_of_imp]
      rintro ⟨n, rest, ⟨head, hHead, hInput⟩, -⟩ rfl
      cases hHead <;> cases hInput

variable [DpsCbor.ChecksLength]

theorem Decoder.oversized_iff (decoder : Decoder) (input : List UInt8) :
    Oversized (decoder.resized input) ↔ decoder.Believes input := by
  cases decoder with
  | message μ members =>
      exact (deserializeROSmessage_believesOn members).oversized_iff input
  | discovery =>
      unfold resized Believes
      cases input with
      | nil => exact iff_of_false not_oversized_nil fun h => h.1 rfl
      | cons byte input =>
          have hVector := stringOps_believesAs.getVector.oversized_iff (byte :: input)
          exact hVector.trans (and_iff_right (List.cons_ne_nil _ _)).symm

/-- A decoder keeps to the bytes it has if and only if its input announces no more.  Where
the input does is told by the grammar of the payloads, if DPS accepts the items of RFC 7049. -/
theorem holdsCounts_iff (decoder : Decoder) (input : List UInt8) :
    (decoder.HoldsCounts input ↔ ¬ decoder.Believes input) ∧
      (DpsCbor.Exact → (decoder.HoldsCounts input ↔ ¬ decoder.Overcounts input)) := by
  have hBelieves : decoder.HoldsCounts input ↔ ¬ decoder.Believes input := by
    rw [← decoder.oversized_iff]
    constructor
    · rintro hHolds ⟨head, hMem, hLong⟩
      exact absurd (hHolds head hMem) (Nat.not_le.mpr hLong)
    · intro hNot head hMem
      exact Nat.not_lt.mp fun hLong => hNot ⟨head, hMem, hLong⟩
  refine ⟨hBelieves, fun hExact => ?_⟩
  rw [hBelieves, decoder.believes_iff]

end

/-! ## A sequence of numbers -/

section Readings

local instance readingsCbor : DpsCbor := rfcCbor
local instance readingsPlatform : Platform := signedChar

theorem rfcCbor_checksLength : @DpsCbor.ChecksLength rfcCbor where
  decodeString _ _ _ hRead := Rfc7049.readString_length_le hRead
  decodeBytes _ _ _ hRead := Rfc7049.readString_length_le hRead

/-- A sequence of 64-bit numbers. -/
def readingsMembers : MessageMembers := .cons { typeId := .uint64, isArray := true } .nil .nil

/-- Two numbers, as they are announced. -/
theorem readings_holdsCounts :
    (Decoder.message .cpp readingsMembers).HoldsCounts [0x81, 0x82, 1, 2] := by
  have hChecks : DpsCbor.ChecksLength := rfcCbor_checksLength
  have hExact : DpsCbor.Exact := rfcCbor_exact
  refine ((holdsCounts_iff _ _).2 hExact).mpr ?_
  rw [← Decoder.believes_iff]
  rintro ⟨n, left, hHead, -, ⟨-, -, -, count, rest, hCount, hLong⟩ | ⟨_, _, -, hNever⟩⟩
  · cases hHead
    cases hCount
    exact absurd hLong (by decide)
  · exact hNever

/-- A payload of ten bytes that announces 2 ^ 32 numbers. -/
theorem readings_not_holdsCounts :
    ¬ (Decoder.message .cpp readingsMembers).HoldsCounts
      [0x81, 0x9B, 0, 0, 0, 1, 0, 0, 0, 0] := by
  have hChecks : DpsCbor.ChecksLength := rfcCbor_checksLength
  intro hHolds
  have hBelieves : ArrayBelieves [0x9B, 0, 0, 0, 1, 0, 0, 0, 0] := ⟨2 ^ 32, [], rfl, by decide⟩
  have hPayload : (Decoder.message .cpp readingsMembers).Believes
      [0x81, 0x9B, 0, 0, 0, 1, 0, 0, 0, 0] :=
    ⟨1, _, rfl, rfl, .inl ⟨rfl, rfl, by decide, hBelieves⟩⟩
  obtain ⟨head, hMem, hLong⟩ := (Decoder.oversized_iff _ _).mpr hPayload
  exact absurd (hHolds head hMem) (Nat.not_le.mpr hLong)

end Readings

end Messaging
end RmwDps
