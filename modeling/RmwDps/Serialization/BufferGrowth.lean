import RmwDps.Discovery.Advertisement

/-!
# Buffers that grow

A stream that overflows is replaced by one of the size it asked for, and the whole
payload is written again.  This gives what a stream of unlimited capacity would hold,
because every operator adds to `size_` what its branch may emit, whether or not an
earlier one has failed, and because whether a writer throws, and what it writes, does
not depend on the stream.

Of the primitives only this is used: an encoder writes some item where it fits and
fails with `DPS_ERR_OVERFLOW` where it does not, and its `CBOR_SIZEOF_*` is at least
the length of that item.  A value need not conform to anything.
-/

namespace RmwDps
namespace Serialization

/-! ## The assumption on the primitives -/

/-- The encoder writes some item, and `size` bytes are enough for it. -/
def EncodesWithin (encode : DpsTxBuffer → DpsStatus × DpsTxBuffer) (size : Nat) : Prop :=
  ∃ item, WritesItem encode item ∧ item.length ≤ size

/-- Every encoder writes an item that its `CBOR_SIZEOF_*` is enough for. -/
class DpsCbor.Sizing [DpsCbor] : Prop where
  encodeUint : ∀ n : UInt64, EncodesWithin (encodeUint n) (sizeofUint n)
  encodeInt : ∀ i : Int64, EncodesWithin (encodeInt i) (sizeofInt i)
  encodeFloat : ∀ f : CFloat, EncodesWithin (encodeFloat f) sizeofFloat
  encodeDouble : ∀ d : CDouble, EncodesWithin (encodeDouble d) sizeofDouble
  encodeBoolean : ∀ b : Bool, EncodesWithin (encodeBoolean b) sizeofBoolean
  encodeArray : ∀ n : Nat, EncodesWithin (encodeArray n) (sizeofArray n)
  encodeBytes : ∀ s : List UInt8, EncodesWithin (encodeBytes s) (sizeofBytes s.length)
  encodeStringAndLength : ∀ s : List UInt8,
    EncodesWithin (encodeStringAndLength s) (sizeofStringAndLength s.length)

/-! ## Writers that do not depend on the stream -/

/-- A writer that never throws, and always writes the same bytes. -/
def Produces (op : Tx Unit) : Prop :=
  ∃ bytes, Writes op bytes

/-- A writer that throws on every stream or on none, and always writes the same
bytes. -/
def Settles (op : Tx Unit) : Prop :=
  TxFaults op ∨ Produces op

/-- A step without a stream: it throws, or it returns a value. -/
def Decides {α : Type} (op : Tx α) : Prop :=
  TxFaults op ∨ ∃ a, op = pure a

section Settles

variable {op op' : Tx Unit}

theorem EncodesWithin.produces {encode : DpsTxBuffer → DpsStatus × DpsTxBuffer} {size : Nat}
    (hEncode : EncodesWithin encode size) : Produces (TxStream.write size encode) := by
  obtain ⟨item, hWrites, hSize⟩ := hEncode
  exact ⟨item, Writes.write hWrites hSize⟩

theorem Produces.pure : Produces (pure ()) :=
  ⟨[], Writes.pure⟩

theorem Produces.bind (hOp : Produces op) (hOp' : Produces op') : Produces (do op; op') := by
  obtain ⟨front, hFront⟩ := hOp
  obtain ⟨back, hBack⟩ := hOp'
  exact ⟨front ++ back, hFront.bind hBack⟩

theorem Produces.forM {T : Type} {put : T → Tx Unit} (hPut : ∀ x, Produces (put x))
    (items : List T) : Produces (items.forM put) := by
  induction items with
  | nil => exact Produces.pure
  | cons x items ih => exact (hPut x).bind ih

theorem Produces.settles (hOp : Produces op) : Settles op :=
  .inr hOp

theorem Settles.throw (fault : Fault) : Settles (throw fault) :=
  .inl (TxFaults.throw fault)

theorem Settles.bind (hOp : Settles op) (hOp' : Settles op') : Settles (do op; op') := by
  rcases hOp with hFaults | ⟨front, hFront⟩
  · exact .inl (hFaults.bind _)
  · rcases hOp' with hFaults' | ⟨back, hBack⟩
    · exact .inl (hFront.bind_faults hFaults')
    · exact .inr ⟨front ++ back, hFront.bind hBack⟩

theorem Settles.forM {T : Type} {put : T → Tx Unit} {items : List T}
    (hPut : ∀ x ∈ items, Settles (put x)) : Settles (items.forM put) := by
  induction items with
  | nil => exact Produces.pure.settles
  | cons x items ih =>
      obtain ⟨hHead, hTail⟩ := List.forall_mem_cons.mp hPut
      exact hHead.bind (ih hTail)

theorem Settles.ite {c : Prop} [Decidable c] (hThen : Settles op) (hElse : Settles op') :
    Settles (if c then op else op') := by
  split_ifs
  · exact hThen
  · exact hElse

theorem Decides.bind {α : Type} {step : Tx α} {next : α → Tx Unit} (hStep : Decides step)
    (hNext : ∀ a, Settles (next a)) : Settles (step >>= next) := by
  rcases hStep with hFaults | ⟨a, rfl⟩
  · exact .inl (hFaults.bind _)
  · rw [pure_bind]
    exact hNext a

theorem Decides.castTo {α : Type} (value : Option α) : Decides (castTo value) := by
  cases value with
  | none => exact .inl (TxFaults.throw _)
  | some a => exact .inr ⟨a, rfl⟩

theorem Decides.mapM {α β : Type} {f : α → Tx β} (hf : ∀ a, Decides (f a)) (items : List α) :
    Decides (items.mapM f) := by
  induction items with
  | nil => exact .inr ⟨[], rfl⟩
  | cons a items ih =>
      rw [List.mapM_cons]
      rcases hf a with hFaults | ⟨b, hHead⟩
      · exact .inl (hFaults.bind _)
      · rw [hHead, pure_bind]
        rcases ih with hFaults | ⟨bs, hTail⟩
        · exact .inl (hFaults.bind _)
        · rw [hTail, pure_bind]
          exact .inr ⟨b :: bs, rfl⟩

end Settles

/-! ## The operators -/

section Operators

variable [DpsCbor] [DpsCbor.Sizing]

theorem putUint64_produces (n : UInt64) : Produces (putUint64 n) :=
  (DpsCbor.Sizing.encodeUint n).produces

theorem putInt64_produces (i : Int64) : Produces (putInt64 i) :=
  (DpsCbor.Sizing.encodeInt i).produces

theorem putFloat_produces (f : CFloat) : Produces (putFloat f) :=
  (DpsCbor.Sizing.encodeFloat f).produces

theorem putDouble_produces (d : CDouble) : Produces (putDouble d) :=
  (DpsCbor.Sizing.encodeDouble d).produces

theorem putBool_produces (b : Bool) : Produces (putBool b) :=
  (DpsCbor.Sizing.encodeBoolean b).produces

theorem putString_produces (s : StdString) : Produces (putString s) :=
  (DpsCbor.Sizing.encodeStringAndLength s).produces

theorem putArrayHead_produces (size : Nat) : Produces (putArrayHead size) :=
  (DpsCbor.Sizing.encodeArray size).produces

theorem encodeSequenceUint8_produces (items : List UInt8) :
    Produces (encodeSequenceUint8 items) :=
  (DpsCbor.Sizing.encodeBytes items).produces

theorem encodeSequence_produces {T : Type} {put : T → Tx Unit} (hPut : ∀ x, Produces (put x))
    (items : List T) : Produces (encodeSequence put items) :=
  (putArrayHead_produces items.length).bind (Produces.forM hPut items)

theorem putU16string_produces (s : StdU16String) : Produces (putU16string s) :=
  (putArrayHead_produces s.length).bind (Produces.forM (fun _ => putInt64_produces _) s)

theorem putVectorBool_produces (v : List Bool) : Produces (putVectorBool v) :=
  (putArrayHead_produces v.length).bind (Produces.forM putBool_produces v)

/-- The three writers of an element type. -/
structure StreamOps.Produces {T : Type} (ops : StreamOps T) : Prop where
  put : ∀ x, Serialization.Produces (ops.put x)
  encodeSequence : ∀ xs, Serialization.Produces (ops.encodeSequence xs)
  putVector : ∀ xs, Serialization.Produces (ops.putVector xs)

theorem StreamOps.ofScalar_produces {T : Type} {put : T → Tx Unit} {get : Rx T}
    (hPut : ∀ x, Serialization.Produces (put x)) : (StreamOps.ofScalar put get).Produces where
  put := hPut
  encodeSequence := encodeSequence_produces hPut
  putVector := encodeSequence_produces hPut

theorem stringOps_produces : stringOps.Produces :=
  StreamOps.ofScalar_produces putString_produces

theorem u16stringOps_produces : u16stringOps.Produces :=
  StreamOps.ofScalar_produces putU16string_produces

theorem PrimType.ops_produces [Platform] (t : PrimType) : t.ops.Produces := by
  cases t with
  | bool =>
      exact ⟨putBool_produces, encodeSequence_produces putBool_produces, putVectorBool_produces⟩
  | uint8 =>
      exact ⟨fun _ => putUint64_produces _, encodeSequenceUint8_produces,
        encodeSequenceUint8_produces⟩
  | float => exact StreamOps.ofScalar_produces putFloat_produces
  | double => exact StreamOps.ofScalar_produces putDouble_produces
  | char => exact StreamOps.ofScalar_produces fun _ => putInt64_produces _
  | int16 => exact StreamOps.ofScalar_produces fun _ => putInt64_produces _
  | int32 => exact StreamOps.ofScalar_produces fun _ => putInt64_produces _
  | int64 => exact StreamOps.ofScalar_produces putInt64_produces
  | uint16 => exact StreamOps.ofScalar_produces fun _ => putUint64_produces _
  | uint32 => exact StreamOps.ofScalar_produces fun _ => putUint64_produces _
  | uint64 => exact StreamOps.ofScalar_produces putUint64_produces

end Operators

/-! ## The type support -/

section TypeSupport

variable {T : Type} {ops : StreamOps T} {μ : MembersType} {member : MessageMember}

theorem Cpp.serializeField_settles (hOps : ops.Produces) (field : FieldMem T) :
    Settles (Cpp.serializeField ops member field) := by
  cases field with
  | one x => exact .ite (.throw _) (hOps.put x).settles
  | many xs =>
      refine .ite (.throw _) (.ite (.ite ?_ (.throw _)) ?_)
      · exact (hOps.encodeSequence xs).settles
      · exact (hOps.putVector xs).settles

theorem C.serializeField_settles (hOps : ops.Produces) (field : FieldMem T) :
    Settles (C.serializeField ops member field) := by
  cases field with
  | one x => exact .ite (.throw _) (hOps.put x).settles
  | many xs =>
      refine .ite (.throw _) (.ite (.ite ?_ (.throw _)) ?_)
      · exact (hOps.encodeSequence xs).settles
      · exact (hOps.encodeSequence xs).settles

theorem C.convertRefToStdString_decides {U : Type} [Zero U] [DecidableEq U]
    (s : RosidlString U) : Decides (C.convertRefToStdString s) := by
  obtain ⟨data⟩ := s
  cases data with
  | none => exact .inl (TxFaults.throw _)
  | some units => exact .inr ⟨_, rfl⟩

theorem C.serializeFieldOfString_settles {U : Type} [Zero U] [DecidableEq U]
    {ops : StreamOps (List U)} (hOps : ops.Produces) (field : FieldMem (RosidlString U)) :
    Settles (C.serializeFieldOfString ops member field) := by
  cases field with
  | one s =>
      simp only [C.serializeFieldOfString]
      refine .ite ?_ (.ite ?_ ?_)
      · exact .inl ((TxFaults.throw _).bind _)
      · exact .inl ((TxFaults.throw _).bind _)
      · exact (hOps.put _).settles
  | many ss =>
      simp only [C.serializeFieldOfString]
      refine .ite ?_ (.ite ?_ ?_)
      · exact .inl ((TxFaults.throw _).bind _)
      · exact .inl ((TxFaults.throw _).bind _)
      · exact (Decides.mapM C.convertRefToStdString_decides ss).bind
          fun strs => (hOps.putVector strs).settles

variable [DpsCbor] [DpsCbor.Sizing]

theorem serializePrim_settles [Platform] {t : PrimType} (field : FieldMem t.Carrier) :
    Settles (serializePrim μ t member field) := by
  cases μ with
  | cpp => exact Cpp.serializeField_settles t.ops_produces field
  | c => exact C.serializeField_settles t.ops_produces field

theorem serializeBoolean_settles [Platform] (field : FieldMem Bool) :
    Settles (serializeBoolean (serializePrim μ .bool member) member field) := by
  cases field with
  | one b => exact .ite (.throw _) (putBool_produces _).settles
  | many bs => exact serializePrim_settles (t := .bool) (.many bs)

theorem serializeString_settles (field : FieldMem (μ.Str UInt8)) :
    Settles (serializeString μ member field) := by
  cases μ with
  | cpp => exact Cpp.serializeField_settles stringOps_produces field
  | c => exact C.serializeFieldOfString_settles stringOps_produces field

theorem serializeWstring_settles (field : FieldMem (μ.Str UInt16)) :
    Settles (serializeWstring μ member field) := by
  cases μ with
  | cpp => exact Cpp.serializeField_settles u16stringOps_produces field
  | c => exact C.serializeFieldOfString_settles u16stringOps_produces field

/-- The length is written before a sub-message is, and refused before either. -/
theorem serializeMessage_settles {serializeSub : Message μ → Tx Unit}
    (hSub : ∀ msg, Settles (serializeSub msg)) (value : Value μ) :
    Settles (serializeMessage member serializeSub value) := by
  have hLoop : ∀ (msgs : List (Message μ)) (arraySize : Nat), Settles (do
      if msgs.length ≠ arraySize then
        throw .undefinedBehavior
      msgs.forM serializeSub) := fun msgs arraySize =>
    .ite (.inl ((TxFaults.throw _).bind _)) (.forM fun msg _ => hSub msg)
  cases value with
  | message msg => exact .ite (.throw _) (hSub msg)
  | messages msgs =>
      simp only [serializeMessage, getSubmessageSequenceSerialize]
      refine .ite (.inl ((TxFaults.throw _).bind _)) ?_
      by_cases hFixed : member.isFixedArray = true
      · simpa only [hFixed, if_true, pure_bind] using hLoop msgs member.arraySize.toNat
      · by_cases hLong : member.isUpperBound = true ∧ member.arraySize.toNat < msgs.length
        · simp only [hFixed, hLong, Bool.false_eq_true, if_false, and_self, if_true, bind_assoc]
          exact .inl ((TxFaults.throw _).bind _)
        · simp only [hFixed, hLong, Bool.false_eq_true, if_false, bind_assoc, pure_bind]
          exact (putUint64_produces _).settles.bind (hLoop msgs msgs.length)
  | _ => exact .throw _

theorem serializeMember_settles [Platform] {serializeSub : Message μ → Tx Unit}
    (hSub : ∀ msg, Settles (serializeSub msg)) (value : Value μ) :
    Settles (serializeMember member serializeSub value) := by
  unfold serializeMember
  split
  · exact (Decides.castTo _).bind serializeBoolean_settles
  · exact (Decides.castTo _).bind serializePrim_settles
  · split
    · exact serializeString_settles _
    · exact .throw _
  · split
    · exact serializeWstring_settles _
    · exact .throw _
  · exact serializeMessage_settles hSub value
  · exact .throw _

theorem serializeMembers_settles [Platform] {members : MessageMembers} :
    ∀ msg : Message μ, Settles (serializeMembers members msg) := by
  induction members with
  | nil => exact fun _ => Produces.pure.settles
  | cons member submembers rest ihSub ihRest =>
      intro msg
      cases msg with
      | nil => exact .throw _
      | cons value values =>
          have hSub : ∀ msg : Message μ, Settles (do
              putArrayHead submembers.memberCount
              serializeMembers submembers msg) :=
            fun msg => (putArrayHead_produces _).settles.bind (ihSub msg)
          exact (serializeMember_settles hSub value).bind (ihRest values)

theorem serializePass_settles [Platform] (members : MessageMembers) (msg : Message μ) :
    Settles (serializePass members msg) :=
  .ite ((putArrayHead_produces _).settles.bind (serializeMembers_settles msg))
    (putUint64_produces _).settles

end TypeSupport

/-! ## The operators of the class -/

/-- A call of an overload of `operator<<` or `serializeSequence`, with what it
writes.  The elements of a `sequence` may be vectors in turn. -/
inductive TxOperator
  | uint64 (n : UInt64)
  | uint32 (n : UInt32)
  | uint16 (n : UInt16)
  | uint8 (n : UInt8)
  | int64 (i : Int64)
  | int32 (i : Int32)
  | int16 (i : Int16)
  | int8 (i : Int8)
  | char (c : CChar)
  | float (f : CFloat)
  | double (d : CDouble)
  | string (s : StdString)
  | u16string (s : StdU16String)
  | bool (b : Bool)
  | vectorBool (v : List Bool)
  | octets (items : List UInt8)
  | sequence (items : List TxOperator)
  | sequenceHead (size : Nat)

section TxOperator

variable [DpsCbor] [Platform]

mutual

def TxOperator.put : TxOperator → Tx Unit
  | .uint64 n => putUint64 n
  | .uint32 n => putUint32 n
  | .uint16 n => putUint16 n
  | .uint8 n => putUint8 n
  | .int64 i => putInt64 i
  | .int32 i => putInt32 i
  | .int16 i => putInt16 i
  | .int8 i => putInt8 i
  | .char c => putChar c
  | .float f => putFloat f
  | .double d => putDouble d
  | .string s => putString s
  | .u16string s => putU16string s
  | .bool b => putBool b
  | .vectorBool v => putVectorBool v
  | .octets items => encodeSequenceUint8 items
  | .sequence items => do
      putArrayHead items.length
      TxOperator.putEach items
  | .sequenceHead size => putArrayHead size

/-- One operator after the other. -/
def TxOperator.putEach : List TxOperator → Tx Unit
  | [] => return
  | operator :: operators => do
      operator.put
      TxOperator.putEach operators

end

mutual

theorem TxOperator.put_produces [DpsCbor.Sizing] : ∀ operator : TxOperator, Produces operator.put
  | .uint64 _ | .uint32 _ | .uint16 _ | .uint8 _ => putUint64_produces _
  | .int64 _ | .int32 _ | .int16 _ | .int8 _ | .char _ => putInt64_produces _
  | .float f => putFloat_produces f
  | .double d => putDouble_produces d
  | .string s => putString_produces s
  | .u16string s => putU16string_produces s
  | .bool b => putBool_produces b
  | .vectorBool v => putVectorBool_produces v
  | .octets items => encodeSequenceUint8_produces items
  | .sequence items => (putArrayHead_produces items.length).bind (TxOperator.putEach_produces items)
  | .sequenceHead size => putArrayHead_produces size

theorem TxOperator.putEach_produces [DpsCbor.Sizing] :
    ∀ operators : List TxOperator, Produces (TxOperator.putEach operators)
  | [] => Produces.pure
  | operator :: operators => operator.put_produces.bind (TxOperator.putEach_produces operators)

end

end TxOperator

/-! ## Growing is not observable -/

/-- What one pass writes into a stream of unlimited capacity: `bytes`, as long
as the capacity is large enough. -/
def SinglePass (op : Tx Unit) (bytes : List UInt8) : Prop :=
  ∃ enough, ∀ capacity ≥ enough, ∃ ser,
    op.run (TxStream.new capacity) = .ok ((), ser) ∧ ser.ret = .ok ∧ ser.data = bytes

theorem Writes.singlePass {op : Tx Unit} {bytes : List UInt8} (hOp : Writes op bytes) :
    SinglePass op bytes := by
  refine ⟨bytes.length, fun capacity hRoom => ?_⟩
  obtain ⟨ser, hRun, hWrote⟩ := hOp (TxStream.new capacity)
  exact ⟨ser, hRun, hWrote.of_new hRoom⟩

/-- The public serializer, on a stream of any capacity, leaves what a single
pass writes. -/
def SerializesAs [DpsCbor] [Platform] {μ : MembersType} (members : MessageMembers)
    (msg : Message μ) (bytes : List UInt8) : Prop :=
  SinglePass (serializePass members msg) bytes ∧
    ∀ hint, ∃ ser,
      TypeSupport.serializeROSmessage members msg (TxStream.new hint) = .ok (true, ser) ∧
        ser.ret = .ok ∧ ser.data = bytes

/-- A run of operators on a stream of any capacity asks for enough to hold what
a single pass writes. -/
def AsksForEnough [DpsCbor] [Platform] (operators : List TxOperator) : Prop :=
  ∃ bytes, SinglePass (TxOperator.putEach operators) bytes ∧
    ∀ hint, ∃ ser, (TxOperator.putEach operators).run (TxStream.new hint) = .ok ((), ser) ∧
      bytes.length ≤ ser.sizeNeeded

/-- On a stream that has overflowed, operators change the size needed only. -/
def KeepsOverflowed [DpsCbor] [Platform] (operators : List TxOperator) : Prop :=
  ∀ ser : TxStream, ser.ret = .errOverflow →
    ∃ ser', (TxOperator.putEach operators).run ser = .ok ((), ser') ∧
      ser'.ret = .errOverflow ∧ ser'.buffer = ser.buffer

/-- The payload that a node publishes, from a stream of any capacity, is what a
single pass writes. -/
def PublishesAs [DpsCbor] (impl : Discovery.Advertisement) (bytes : List UInt8) : Prop :=
  SinglePass (stringOps.putVector impl.discoveryPayload) bytes ∧
    (∀ hint, ∃ ser,
      writeWithRetry (stringOps.putVector impl.discoveryPayload) (TxStream.new hint) = .ok ser ∧
        ser.ret = .ok ∧ ser.data = bytes) ∧
    Discovery.publishDiscoveryPayload .ok impl = .ok (.ok, { impl with published := some bytes })

section Growth

variable [DpsCbor] [Platform]

theorem TypeSupport.status_ok {μ : MembersType} {members : MessageMembers} {msg : Message μ}
    {ser ser' : TxStream}
    (hTrue : TypeSupport.serializeROSmessage members msg ser = .ok (true, ser')) :
    ser'.ret = .ok := by
  unfold TypeSupport.serializeROSmessage at hTrue
  cases hRun : writeWithRetry (serializePass members msg) ser with
  | error fault =>
      rw [hRun] at hTrue
      cases hTrue
  | ok last =>
      rw [hRun] at hTrue
      obtain ⟨hRet, rfl⟩ := Prod.mk.inj (Except.ok.inj hTrue)
      exact of_decide_eq_true hRet

variable [DpsCbor.Sizing]

theorem serializesAs_of_returns {μ : MembersType} {members : MessageMembers} {msg : Message μ}
    {ser : TxStream} {result : Bool × TxStream}
    (hReturns : TypeSupport.serializeROSmessage members msg ser = .ok result) :
    ∃ bytes, SerializesAs members msg bytes := by
  rcases serializePass_settles members msg with hFaults | ⟨bytes, hWrites⟩
  · obtain ⟨fault, hFault⟩ := TypeSupport.serializeROSmessage_faults hFaults ser
    rw [hReturns] at hFault
    cases hFault
  · refine ⟨bytes, hWrites.singlePass, fun hint => ?_⟩
    obtain ⟨ser', hRun, hData⟩ := TypeSupport.serializeROSmessage_writes hWrites hint
    exact ⟨ser', hRun, TypeSupport.status_ok hRun, hData⟩

theorem asksForEnough (operators : List TxOperator) : AsksForEnough operators := by
  obtain ⟨bytes, hWrites⟩ := TxOperator.putEach_produces operators
  refine ⟨bytes, hWrites.singlePass, fun hint => ?_⟩
  obtain ⟨ser, hRun, hWrote⟩ := hWrites (TxStream.new hint)
  refine ⟨ser, hRun, ?_⟩
  simpa [TxStream.new, TxStream.sizeNeeded] using hWrote.size

theorem keepsOverflowed (operators : List TxOperator) : KeepsOverflowed operators := by
  intro ser hOver
  obtain ⟨bytes, hWrites⟩ := TxOperator.putEach_produces operators
  obtain ⟨ser', hRun, hWrote⟩ := hWrites ser
  obtain ⟨hRet, hBuffer⟩ := hWrote.stuck (by rw [hOver]; decide)
  exact ⟨ser', hRun, hRet.trans hOver, hBuffer⟩

omit [Platform] in
theorem publishesAs (impl : Discovery.Advertisement) : ∃ bytes, PublishesAs impl bytes := by
  obtain ⟨bytes, hWrites⟩ := stringOps_produces.putVector impl.discoveryPayload
  refine ⟨bytes, hWrites.singlePass, writeWithRetry_of_writes hWrites, ?_⟩
  obtain ⟨ser, hRun, -, hData⟩ := writeWithRetry_of_writes hWrites 1024
  simp [Discovery.publishDiscoveryPayload, hRun, hData, Bind.bind, Except.bind, pure, Except.pure]

/-- Growing the buffer changes no payload: neither that of a message, whenever
the public serializer returns at all, nor that of a node.  Under both are the
operators, which never ask for too little and never touch a buffer that has
overflowed. -/
theorem growth_unobservable :
    (∀ (μ : MembersType) (members : MessageMembers) (msg : Message μ) (ser : TxStream)
        (result : Bool × TxStream),
      TypeSupport.serializeROSmessage members msg ser = .ok result →
        ∃ bytes, SerializesAs members msg bytes) ∧
    (∀ operators, AsksForEnough operators ∧ KeepsOverflowed operators) ∧
    ∀ impl, ∃ bytes, PublishesAs impl bytes :=
  ⟨fun _ _ _ _ _ => serializesAs_of_returns,
    fun operators => ⟨asksForEnough operators, keepsOverflowed operators⟩, publishesAs⟩

end Growth

theorem rfcCbor_sizing : @DpsCbor.Sizing rfcCbor :=
  letI := rfcCbor
  { encodeUint := fun _ => ⟨_, emitItem_writes _, le_rfl⟩
    encodeInt := fun _ => ⟨_, emitItem_writes _, le_rfl⟩
    encodeFloat := fun f => ⟨_, emitItem_writes _, (Rfc7049.length_float32 f.bits).le⟩
    encodeDouble := fun d => ⟨_, emitItem_writes _, (Rfc7049.length_float64 d.bits).le⟩
    encodeBoolean := fun _ => ⟨_, emitItem_writes _, le_rfl⟩
    encodeArray := fun _ => ⟨_, emitItem_writes _, le_rfl⟩
    encodeBytes := fun s => ⟨_, emitItem_writes _, (Rfc7049.length_bytes s).le⟩
    encodeStringAndLength := fun s => ⟨_, emitItem_writes _, (Rfc7049.length_text s).le⟩ }

/-- A stream of four bytes is too small for `scan`, and its replacement is not. -/
theorem scan_growth :
    ∃ bytes, @SerializesAs rfcCbor signedChar .c scanMembers scan bytes := by
  let _ := rfcCbor
  let _ := rfcCbor_sizing
  let _ := signedChar
  have hReturns : (TypeSupport.serializeROSmessage (μ := .c) scanMembers scan
      (TxStream.new 4)).toOption.isSome = true := by decide +kernel
  cases hRun : TypeSupport.serializeROSmessage (μ := .c) scanMembers scan (TxStream.new 4) with
  | error fault =>
      rw [hRun] at hReturns
      cases hReturns
  | ok result => exact growth_unobservable.1 .c scanMembers scan (TxStream.new 4) result hRun

end Serialization
end RmwDps
