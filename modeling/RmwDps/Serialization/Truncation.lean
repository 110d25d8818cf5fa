import RmwDps.Serialization.CrossPackage

/-!
# What follows a payload, and what is cut off

No reader looks behind the bytes that it takes.  A payload that decodes still decodes, as
the same value, when anything is appended to it; and a payload that a writer has produced
does not decode when its end is missing, but ends in a runtime error.  So the payloads of
a message type are a prefix code.

The lemmas follow the readers from the decoders of DPS up to a whole message.
-/

namespace RmwDps
namespace Serialization

/-! ## Decoders -/

/-- A decoder reads an item whatever follows it. -/
def DecodesLocally {α : Type} (decode : List UInt8 → Option (α × List UInt8)) : Prop :=
  ∀ input a rest more, decode input = some (a, rest) →
    decode (input ++ more) = some (a, rest ++ more)

/-- The DPS decoders advance through their buffer, and fail at its end with
`DPS_ERR_EOD`. -/
class DpsCbor.Local [DpsCbor] : Prop where
  decodeUint : DecodesLocally DpsCbor.decodeUint
  decodeUint32 : DecodesLocally DpsCbor.decodeUint32
  decodeUint16 : DecodesLocally DpsCbor.decodeUint16
  decodeUint8 : DecodesLocally DpsCbor.decodeUint8
  decodeInt : DecodesLocally DpsCbor.decodeInt
  decodeInt32 : DecodesLocally DpsCbor.decodeInt32
  decodeInt16 : DecodesLocally DpsCbor.decodeInt16
  decodeInt8 : DecodesLocally DpsCbor.decodeInt8
  decodeFloat : DecodesLocally DpsCbor.decodeFloat
  decodeDouble : DecodesLocally DpsCbor.decodeDouble
  decodeBoolean : DecodesLocally DpsCbor.decodeBoolean
  decodeString : DecodesLocally DpsCbor.decodeString
  decodeBytes : DecodesLocally DpsCbor.decodeBytes
  decodeArray : DecodesLocally DpsCbor.decodeArray
  peek : ∀ input more head, DpsCbor.peek input = some head →
    DpsCbor.peek (input ++ more) = some head

section Rfc

theorem DecodesLocally.map {α β : Type} {f : α → β}
    {decode : List UInt8 → Option (α × List UInt8)} (hDecode : DecodesLocally decode) :
    DecodesLocally (mapResult f decode) := by
  intro input b rest more hRead
  obtain ⟨result, hResult, hMapped⟩ := Option.map_eq_some_iff.mp hRead
  cases hMapped
  rw [mapResult, hDecode input result.1 result.2 more hResult]
  rfl

theorem readBelow_local (limit : Nat) : DecodesLocally (readBelow limit) := by
  intro input n rest more hRead
  unfold readBelow at hRead ⊢
  split at hRead
  · next hArgument =>
      split_ifs at hRead with hBelow
      cases hRead
      rw [Rfc7049.readArgument_append more hArgument]
      exact if_pos hBelow
  · cases hRead

theorem readWithin_local (limit : Int) : DecodesLocally (readWithin limit) := by
  intro input i rest more hRead
  unfold readWithin at hRead ⊢
  split at hRead
  · next hInt =>
      split_ifs at hRead with hWithin
      cases hRead
      rw [Rfc7049.readInt_append more hInt]
      exact if_pos hWithin
  · cases hRead

local instance : DpsCbor := rfcCbor

theorem rfcCbor_local : @DpsCbor.Local rfcCbor where
  decodeUint := (readBelow_local _).map
  decodeUint32 := (readBelow_local _).map
  decodeUint16 := (readBelow_local _).map
  decodeUint8 := (readBelow_local _).map
  decodeInt := (readWithin_local _).map
  decodeInt32 := (readWithin_local _).map
  decodeInt16 := (readWithin_local _).map
  decodeInt8 := (readWithin_local _).map
  decodeFloat := DecodesLocally.map fun _ _ _ more hRead => Rfc7049.readFloat32_append more hRead
  decodeDouble := DecodesLocally.map fun _ _ _ more hRead => Rfc7049.readFloat64_append more hRead
  decodeBoolean _ _ _ more hRead := Rfc7049.readBool_append more hRead
  decodeString _ _ _ more hRead := Rfc7049.readString_append more hRead
  decodeBytes _ _ _ more hRead := Rfc7049.readString_append more hRead
  decodeArray := DecodesLocally.map fun _ _ _ more hRead => Rfc7049.readArgument_append more hRead
  peek input more head hPeek := by
    obtain ⟨⟨major, n, rest⟩, hHead, hMapped⟩ := Option.map_eq_some_iff.mp hPeek
    show (Rfc7049.readHead (input ++ more)).map _ = _
    rw [Rfc7049.readHead_append more hHead]
    exact congrArg some hMapped

end Rfc

/-! ## Readers -/

/-- Unless the first reader runs into a runtime error, the second one ends like it on the
same input with more behind it, and leaves that. -/
def EndsAlike {α : Type} (more : List UInt8) (reader reader' : Rx α) : Prop :=
  ∀ deser deser' : RxStream, deser'.unread = deser.unread ++ more →
    match Rx.exec reader deser with
    | (.ok a, left) => ∃ left', Rx.exec reader' deser' = (.ok a, left') ∧
        left'.unread = left.unread ++ more
    | (.error (.runtimeError _), _) => True
    | (.error fault, _) => (Rx.exec reader' deser').1 = .error fault

/-- A reader does not look behind what it takes. -/
def IsLocal {α : Type} (reader : Rx α) : Prop := ∀ more, EndsAlike more reader reader

section Logic

variable {α β : Type} {more : List UInt8} {reader reader' : Rx α}

theorem EndsAlike.bind {next next' : α → Rx β} (hReader : EndsAlike more reader reader')
    (hNext : ∀ a, EndsAlike more (next a) (next' a)) :
    EndsAlike more (reader >>= next) (reader' >>= next') := by
  intro deser deser' hUnread
  have hEnd := hReader deser deser' hUnread
  rw [Rx.exec_bind, Rx.exec_bind]
  rcases hFirst : Rx.exec reader deser with ⟨fault | a, left⟩
  all_goals rw [hFirst] at hEnd
  · cases fault with
    | runtimeError what => trivial
    | indexPastEnd | undefinedBehavior =>
        rcases hSecond : Rx.exec reader' deser' with ⟨outcome, left'⟩
        rw [hSecond] at hEnd
        obtain rfl : outcome = _ := hEnd
        rfl
  · obtain ⟨left', hExec, hLeft⟩ := hEnd
    rw [hExec]
    exact hNext a left left' hLeft

namespace IsLocal

theorem pure (a : α) : IsLocal (pure a) :=
  fun _ _ deser' hUnread => ⟨deser', rfl, hUnread⟩

theorem throw (fault : Fault) : IsLocal (throw fault : Rx α) := by
  intro more deser deser' _
  cases fault with
  | runtimeError what => trivial
  | indexPastEnd | undefinedBehavior => rfl

theorem bind {next : α → Rx β} (hReader : IsLocal reader) (hNext : ∀ a, IsLocal (next a)) :
    IsLocal (reader >>= next) :=
  fun more => (hReader more).bind fun a => hNext a more

theorem read {decode : List UInt8 → Option (α × List UInt8)} (hDecode : DecodesLocally decode)
    (what : String) : IsLocal (RxStream.read decode what) := by
  intro more deser deser' hUnread
  rw [RxStream.exec_read]
  cases hRead : decode deser.unread with
  | none => trivial
  | some result =>
      refine ⟨{ deser' with unread := result.2 ++ more }, ?_, rfl⟩
      rw [RxStream.exec_read, hUnread, hDecode _ _ _ more hRead]

/-- The number of unread bytes goes into the record of the run and nowhere else. -/
theorem unreadLength {next : Nat → Rx β}
    (hNext : ∀ unread unread' more, EndsAlike more (next unread) (next unread')) :
    IsLocal (Serialization.unreadLength >>= next) :=
  fun more deser deser' hUnread =>
    hNext deser.unread.length deser'.unread.length more deser deser' hUnread

end IsLocal

theorem EndsAlike.resize (count unread unread' : Nat) {next next' : Rx β}
    (hNext : EndsAlike more next next') :
    EndsAlike more (do Serialization.resize count unread; next)
      (do Serialization.resize count unread'; next') := by
  intro deser deser' hUnread
  exact hNext { deser with resized := deser.resized ++ [(count, unread)] }
    { deser' with resized := deser'.resized ++ [(count, unread')] } hUnread

theorem IsLocal.readEach (hReader : IsLocal reader) (count : Nat) :
    IsLocal (Serialization.readEach reader count) := by
  induction count with
  | zero => exact IsLocal.pure []
  | succ count ih =>
      exact hReader.bind fun a => ih.bind fun rest => IsLocal.pure (a :: rest)

theorem deserializeSequenceSize_local [DpsCbor] [DpsCbor.Local] :
    IsLocal deserializeSequenceSize := by
  intro more deser deser' hUnread
  rw [RxStream.exec_deserializeSequenceSize]
  cases hPeek : DpsCbor.peek deser.unread with
  | none => trivial
  | some head =>
      have hPeek' := DpsCbor.Local.peek deser.unread more head hPeek
      by_cases hMaj : head.1 ≠ Rfc7049.majorArray ∧ head.1 ≠ Rfc7049.majorBytes
      · simp only [if_pos hMaj]
      · simp only [if_neg hMaj]
        refine ⟨deser', ?_, hUnread⟩
        rw [RxStream.exec_deserializeSequenceSize, hUnread, hPeek']
        simp only [if_neg hMaj]

/-- A reader that is local, and has nothing to say about `bytes` but what they are the bytes
of, has nothing to say about a part of them but that it has failed. -/
theorem IsLocal.cut {fine : Prop} {bytes cut rest : List UInt8} {a : α} (hLocal : IsLocal reader)
    (hReads : ReadsWhen fine reader bytes a) (hSplit : bytes = cut ++ rest) (hRest : rest ≠ []) :
    ∃ what, (Rx.exec reader (RxStream.ofBytes cut)).1 = .error (.runtimeError what) := by
  have hAll : (RxStream.ofBytes bytes).unread = bytes ++ [] := (List.append_nil bytes).symm
  have hEnd := hLocal rest (RxStream.ofBytes cut) (RxStream.ofBytes bytes) hSplit
  -- What the part makes the reader do other than throw, all of the bytes make it do, too.
  rcases hCut : Rx.exec reader (RxStream.ofBytes cut) with ⟨fault | a', left⟩
  all_goals rw [hCut] at hEnd
  · cases fault with
    | runtimeError what => exact ⟨what, rfl⟩
    | indexPastEnd | undefinedBehavior =>
        by_cases hFine : fine
        · obtain ⟨all, hRun, -⟩ := hReads.reads hFine _ [] hAll
          rw [hRun] at hEnd
          cases hEnd
        · obtain ⟨what, hFault⟩ := hReads.throws hFine _ [] hAll
          rw [hFault] at hEnd
          cases hEnd
  · obtain ⟨left', hLeft, hUnread⟩ := hEnd
    by_cases hFine : fine
    · obtain ⟨all, hRun, hNothing⟩ := hReads.reads hFine _ [] hAll
      rw [hRun] at hLeft
      cases hLeft
      rw [hNothing] at hUnread
      exact absurd (List.append_eq_nil_iff.mp hUnread.symm).2 hRest
    · obtain ⟨what, hFault⟩ := hReads.throws hFine _ [] hAll
      rw [hLeft] at hFault
      cases hFault

end Logic

/-! ## Elements -/

/-- The readers of an element type are local. -/
structure StreamOps.IsLocal {T : Type} (ops : StreamOps T) : Prop where
  get : Serialization.IsLocal ops.get
  decodeSequence : ∀ size, Serialization.IsLocal (ops.decodeSequence size)
  getVector : Serialization.IsLocal ops.getVector

section Elements

variable [DpsCbor] [DpsCbor.Local]

theorem getArrayHead_local (what : String) : IsLocal (getArrayHead what) :=
  (IsLocal.read DpsCbor.Local.decodeArray what).bind fun size => IsLocal.pure size.toNat

theorem getVector_local {T : Type} {get : Rx T} (what : String) (hGet : IsLocal get) :
    IsLocal (getVector get what) := by
  refine IsLocal.unreadLength fun unread unread' more => ?_
  refine (getArrayHead_local what more).bind fun size => ?_
  exact EndsAlike.resize size unread unread' (hGet.readEach size more)

theorem decodeSequence_local {T : Type} {get : Rx T} (hGet : IsLocal get) (size : Nat) :
    IsLocal (decodeSequence get size) := by
  refine (getArrayHead_local _).bind fun size' => ?_
  split
  · exact (IsLocal.throw _).bind fun _ => hGet.readEach size
  · exact hGet.readEach size

theorem StreamOps.ofScalar_local {T : Type} {put : T → Tx Unit} {get : Rx T}
    (hGet : Serialization.IsLocal get) : (StreamOps.ofScalar put get).IsLocal where
  get := hGet
  decodeSequence := decodeSequence_local hGet
  getVector := getVector_local _ hGet

theorem stringOps_local : stringOps.IsLocal := by
  refine StreamOps.ofScalar_local (IsLocal.unreadLength fun unread unread' more => ?_)
  refine (IsLocal.read DpsCbor.Local.decodeString _ more).bind fun s => ?_
  exact EndsAlike.resize s.length unread unread' (IsLocal.pure s more)

theorem u16stringOps_local : u16stringOps.IsLocal :=
  StreamOps.ofScalar_local (getVector_local _ (IsLocal.read DpsCbor.Local.decodeUint16 _))

theorem uint8Ops_local : uint8Ops.IsLocal where
  get := IsLocal.read DpsCbor.Local.decodeUint8 _
  decodeSequence size := by
    refine (IsLocal.read DpsCbor.Local.decodeBytes _).bind fun items => ?_
    split
    · exact (IsLocal.throw _).bind fun _ => IsLocal.pure items
    · exact IsLocal.pure items
  getVector := by
    refine IsLocal.unreadLength fun unread unread' more => ?_
    refine (IsLocal.read DpsCbor.Local.decodeBytes _ more).bind fun items => ?_
    exact EndsAlike.resize items.length unread unread' (IsLocal.pure items more)

theorem PrimType.ops_local [Platform] (t : PrimType) : t.ops.IsLocal := by
  cases t with
  | bool =>
      have hGet : ∀ what, IsLocal (RxStream.read DpsCbor.decodeBoolean what) :=
        IsLocal.read DpsCbor.Local.decodeBoolean
      exact ⟨hGet _, decodeSequence_local (hGet _), getVector_local _ (hGet _)⟩
  | uint8 => exact uint8Ops_local
  | char =>
      exact StreamOps.ofScalar_local
        ((IsLocal.read DpsCbor.Local.decodeInt8 _).bind fun _ => IsLocal.pure _)
  | float => exact StreamOps.ofScalar_local (IsLocal.read DpsCbor.Local.decodeFloat _)
  | double => exact StreamOps.ofScalar_local (IsLocal.read DpsCbor.Local.decodeDouble _)
  | int16 => exact StreamOps.ofScalar_local (IsLocal.read DpsCbor.Local.decodeInt16 _)
  | uint16 => exact StreamOps.ofScalar_local (IsLocal.read DpsCbor.Local.decodeUint16 _)
  | int32 => exact StreamOps.ofScalar_local (IsLocal.read DpsCbor.Local.decodeInt32 _)
  | uint32 => exact StreamOps.ofScalar_local (IsLocal.read DpsCbor.Local.decodeUint32 _)
  | int64 => exact StreamOps.ofScalar_local (IsLocal.read DpsCbor.Local.decodeInt _)
  | uint64 => exact StreamOps.ofScalar_local (IsLocal.read DpsCbor.Local.decodeUint _)

end Elements

/-! ## Fields -/

section Fields

variable {T : Type} {ops : StreamOps T} {member : MessageMember}

theorem Cpp.deserializeField_local (hOps : ops.IsLocal) :
    IsLocal (Cpp.deserializeField ops member) := by
  unfold Cpp.deserializeField
  split_ifs with hArray hFixed
  · exact hOps.get.bind fun x => IsLocal.pure _
  · exact (hOps.decodeSequence _).bind fun xs => IsLocal.pure _
  · exact hOps.getVector.bind fun xs => IsLocal.pure _

theorem C.deserializeField_local [DpsCbor] [DpsCbor.Local] (hOps : ops.IsLocal) :
    IsLocal (C.deserializeField ops member) := by
  unfold C.deserializeField
  split_ifs with hArray hFixed
  · exact hOps.get.bind fun x => IsLocal.pure _
  · exact (hOps.decodeSequence _).bind fun xs => IsLocal.pure _
  · refine IsLocal.unreadLength fun unread unread' more => ?_
    refine (deserializeSequenceSize_local more).bind fun dsize => ?_
    refine EndsAlike.resize dsize unread unread' ?_
    exact (hOps.decodeSequence dsize more).bind fun xs => IsLocal.pure _ more

variable {U : Type} [Zero U] [DecidableEq U]

theorem C.assignEach_local (values : List (List U)) (count : Nat) :
    IsLocal (C.assignEach count values) := by
  induction values generalizing count with
  | nil =>
      cases count with
      | zero => exact IsLocal.pure []
      | succ count => exact IsLocal.throw _
  | cons value values ih =>
      cases count with
      | zero => exact IsLocal.pure []
      | succ count => exact (ih count).bind fun rest => IsLocal.pure (C.assign value :: rest)

theorem C.deserializeFieldOfString_local {ops : StreamOps (List U)} (hOps : ops.IsLocal) :
    IsLocal (C.deserializeFieldOfString ops member) := by
  unfold C.deserializeFieldOfString
  split_ifs with hArray hFixed
  · exact hOps.get.bind fun value => IsLocal.pure _
  · refine IsLocal.unreadLength fun _ _ more => ?_
    refine (hOps.getVector more).bind fun values => ?_
    exact (C.assignEach_local values _ more).bind fun ss => IsLocal.pure _ more
  · refine IsLocal.unreadLength fun unread unread' more => ?_
    refine (hOps.getVector more).bind fun values => ?_
    exact EndsAlike.resize values.length unread unread' (IsLocal.pure _ more)

end Fields

/-! ## Messages -/

section Messages

variable [DpsCbor] [DpsCbor.Local] [Platform] {μ : MembersType} {member : MessageMember}

omit [Platform] in
theorem getSubmessageSequenceDeserialize_local :
    IsLocal (getSubmessageSequenceDeserialize member) := by
  unfold getSubmessageSequenceDeserialize
  split_ifs with hFixed
  · exact IsLocal.pure _
  · refine IsLocal.unreadLength fun unread unread' more => ?_
    refine (IsLocal.read DpsCbor.Local.decodeUint32 _ more).bind fun arraySize => ?_
    exact EndsAlike.resize _ unread unread' (IsLocal.pure _ more)

omit [Platform] in
theorem deserializeMessage_local {deserializeSub : Rx (Message μ)}
    (hSub : IsLocal deserializeSub) : IsLocal (deserializeMessage member deserializeSub) := by
  unfold deserializeMessage
  split_ifs with hArray
  · exact hSub.bind fun msg => IsLocal.pure _
  · refine getSubmessageSequenceDeserialize_local.bind fun count => ?_
    exact (hSub.readEach count).bind fun msgs => IsLocal.pure _

theorem deserializeMember_local {deserializeSub : Rx (Message μ)}
    (hSub : IsLocal deserializeSub) : IsLocal (deserializeMember member deserializeSub) := by
  unfold deserializeMember
  cases member.typeId.kind with
  | prim t =>
      refine IsLocal.bind ?_ fun field => IsLocal.pure _
      cases μ with
      | cpp => exact Cpp.deserializeField_local t.ops_local
      | c => exact C.deserializeField_local t.ops_local
  | string =>
      refine IsLocal.bind ?_ fun field => IsLocal.pure _
      cases μ with
      | cpp => exact Cpp.deserializeField_local stringOps_local
      | c => exact C.deserializeFieldOfString_local stringOps_local
  | wstring =>
      refine IsLocal.bind ?_ fun field => IsLocal.pure _
      cases μ with
      | cpp => exact Cpp.deserializeField_local u16stringOps_local
      | c => exact C.deserializeFieldOfString_local u16stringOps_local
  | message => exact deserializeMessage_local hSub
  | unknown => exact IsLocal.throw _

omit [Platform] in
theorem checkMemberCount_local (count : Nat) : IsLocal (checkMemberCount count) := by
  refine (getArrayHead_local _).bind fun memberCount => ?_
  split
  · exact IsLocal.throw _
  · exact IsLocal.pure ()

theorem deserializeMembers_local (members : MessageMembers) :
    IsLocal (deserializeMembers members : Rx (Message μ)) := by
  induction members with
  | nil => exact IsLocal.pure []
  | cons member submembers rest ihSub ihRest =>
      have hSub := (checkMemberCount_local submembers.memberCount).bind fun _ => ihSub
      refine (deserializeMember_local hSub).bind fun value => ?_
      exact ihRest.bind fun values => IsLocal.pure (value :: values)

theorem TypeSupport.deserializeROSmessage_local (members : MessageMembers) :
    IsLocal (TypeSupport.deserializeROSmessage members : Rx (Message μ)) := by
  unfold TypeSupport.deserializeROSmessage
  split
  · exact (checkMemberCount_local _).bind fun _ => deserializeMembers_local members
  · exact (IsLocal.read DpsCbor.Local.decodeUint8 _).bind fun _ => IsLocal.pure []

/-- Whatever the bytes are, and whether or not anybody has sent them: unless they end in a
runtime error, the deserializer ends as it does without what is appended to them. -/
theorem deserializeROSmessage_append (members : MessageMembers) (input more : List UInt8) :
    match (Rx.exec (TypeSupport.deserializeROSmessage members : Rx (Message μ))
      (RxStream.ofBytes input)).1 with
    | .error (.runtimeError _) => True
    | outcome => (Rx.exec (TypeSupport.deserializeROSmessage members : Rx (Message μ))
        (RxStream.ofBytes (input ++ more))).1 = outcome := by
  have hEnd := TypeSupport.deserializeROSmessage_local (μ := μ) members more
    (RxStream.ofBytes input) (RxStream.ofBytes (input ++ more)) rfl
  rcases hRun : Rx.exec (TypeSupport.deserializeROSmessage members : Rx (Message μ))
    (RxStream.ofBytes input) with ⟨fault | msg, left⟩
  all_goals rw [hRun] at hEnd
  · cases fault with
    | runtimeError what => trivial
    | indexPastEnd | undefinedBehavior => exact hEnd
  · obtain ⟨left', hRun', -⟩ := hEnd
    rw [hRun']

end Messages

/-! ## A scan -/

/-- A byte behind the payload of a message with one flag is ignored. -/
theorem flag_append :
    (Rx.exec (@TypeSupport.deserializeROSmessage rfcCbor signedChar .cpp
      (.cons { typeId := .boolean } .nil .nil)) (RxStream.ofBytes ([0x81, 0xF5] ++ [0xFF]))).1 =
        .ok [.prim .bool (.one true)] :=
  @deserializeROSmessage_append rfcCbor rfcCbor_local signedChar .cpp
    (.cons { typeId := .boolean } .nil .nil) [0x81, 0xF5] [0xFF]

end Serialization
end RmwDps
