import RmwDps.Serialization.CborStream

/-!
# Reasoning about writers and readers

`Writes op bytes` says what a writer does to a stream in any state: nothing
when an earlier write failed, `bytes` when they fit, an overflow when they do
not, and in each case it asks for at least `bytes.length` more bytes.
`Reads reader bytes a` says that a reader takes `bytes` off the front of any
input as the value `a`.  Both compose along `do` blocks and loops, and each
stream operator has one lemma in each vocabulary.

For input that no writer produced there are `Ends`, which says how a reader can
end at all, and `FaultsOn`, which exhibits a fault.
-/

namespace RmwDps
namespace Serialization

/-! ## Writers -/

/-- What happened to a stream when `bytes` were written to it. -/
structure Wrote (ser : TxStream) (bytes : List UInt8) (ser' : TxStream) : Prop where
  size : ser.size + bytes.length ≤ ser'.size
  fits : ser.ret = .ok → ser.buffer.used.length + bytes.length ≤ ser.buffer.capacity →
    ser'.ret = .ok ∧ ser'.buffer = { ser.buffer with used := ser.buffer.used ++ bytes }
  overflows : ser.ret = .ok → ser.buffer.used.length ≤ ser.buffer.capacity →
    ser.buffer.capacity < ser.buffer.used.length + bytes.length → ser'.ret = .errOverflow
  stuck : ser.ret ≠ .ok → ser'.ret = ser.ret ∧ ser'.buffer = ser.buffer

/-- A writer that never faults and writes `bytes`. -/
def Writes (op : Tx Unit) (bytes : List UInt8) : Prop :=
  ∀ ser, ∃ ser', op.run ser = .ok ((), ser') ∧ Wrote ser bytes ser'

/-- A writer that faults on every stream. -/
def TxFaults {α : Type} (op : Tx α) : Prop :=
  ∀ ser, ∃ fault, op.run ser = .error fault

theorem Wrote.nil (ser : TxStream) : Wrote ser [] ser where
  size := by simp
  fits hOk _ := ⟨hOk, by simp⟩
  overflows _ hUsed hLong := absurd hLong (by simpa using hUsed)
  stuck _ := ⟨rfl, rfl⟩

theorem Wrote.trans {ser ser' ser'' : TxStream} {front back : List UInt8}
    (hFront : Wrote ser front ser') (hBack : Wrote ser' back ser'') :
    Wrote ser (front ++ back) ser'' where
  size := by
    have hFrontSize := hFront.size
    have hBackSize := hBack.size
    rw [List.length_append]
    omega
  fits hOk hRoom := by
    rw [List.length_append] at hRoom
    obtain ⟨hOk', hBuffer'⟩ := hFront.fits hOk (by omega)
    have hRoom' : ser'.buffer.used.length + back.length ≤ ser'.buffer.capacity := by
      simp only [hBuffer', List.length_append]
      omega
    obtain ⟨hOk'', hBuffer''⟩ := hBack.fits hOk' hRoom'
    refine ⟨hOk'', ?_⟩
    rw [hBuffer'', hBuffer', List.append_assoc]
  overflows hOk hUsed hLong := by
    rw [List.length_append] at hLong
    -- Either the front overflows already, or the back does behind it.
    by_cases hRoom : ser.buffer.used.length + front.length ≤ ser.buffer.capacity
    · obtain ⟨hOk', hBuffer'⟩ := hFront.fits hOk hRoom
      apply hBack.overflows hOk'
      · simpa only [hBuffer', List.length_append] using hRoom
      · simp only [hBuffer', List.length_append]
        omega
    · have hOver := hFront.overflows hOk hUsed (by omega)
      have hStuck := hBack.stuck (by rw [hOver]; decide)
      rw [hStuck.1, hOver]
  stuck hFail := by
    obtain ⟨hRet', hBuffer'⟩ := hFront.stuck hFail
    obtain ⟨hRet'', hBuffer''⟩ := hBack.stuck (by rw [hRet']; exact hFail)
    exact ⟨hRet''.trans hRet', hBuffer''.trans hBuffer'⟩

theorem Writes.pure : Writes (pure ()) [] :=
  fun ser => ⟨ser, rfl, Wrote.nil ser⟩

theorem Writes.bind {op op' : Tx Unit} {front back : List UInt8} (hOp : Writes op front)
    (hOp' : Writes op' back) : Writes (do op; op') (front ++ back) := by
  intro ser
  obtain ⟨ser', hRun, hWrote⟩ := hOp ser
  obtain ⟨ser'', hRun', hWrote'⟩ := hOp' ser'
  refine ⟨ser'', ?_, hWrote.trans hWrote'⟩
  simp only [StateT.run_bind, hRun]
  exact hRun'

theorem TxFaults.throw {α : Type} (fault : Fault) : TxFaults (throw fault : Tx α) :=
  fun _ => ⟨fault, rfl⟩

theorem TxFaults.bind {α β : Type} {op : Tx α} (hOp : TxFaults op) (next : α → Tx β) :
    TxFaults (op >>= next) := by
  intro ser
  obtain ⟨fault, hRun⟩ := hOp ser
  refine ⟨fault, ?_⟩
  simp only [StateT.run_bind, hRun]
  rfl

theorem Writes.bind_faults {op : Tx Unit} {front : List UInt8} {β : Type} {next : Tx β}
    (hOp : Writes op front) (hNext : TxFaults next) : TxFaults (do op; next) := by
  intro ser
  obtain ⟨ser', hRun, -⟩ := hOp ser
  obtain ⟨fault, hRun'⟩ := hNext ser'
  refine ⟨fault, ?_⟩
  simp only [StateT.run_bind, hRun]
  exact hRun'

/-- A writer that never faults, whatever the primitives do. -/
def Completes (op : Tx Unit) : Prop :=
  ∀ ser, ∃ ser', op.run ser = .ok ((), ser')

theorem Completes.write (size : Nat) (encode : DpsTxBuffer → DpsStatus × DpsTxBuffer) :
    Completes (TxStream.write size encode) :=
  fun _ => ⟨_, rfl⟩

theorem Completes.bind {op op' : Tx Unit} (hOp : Completes op) (hOp' : Completes op') :
    Completes (do op; op') := by
  intro ser
  obtain ⟨ser', hRun⟩ := hOp ser
  obtain ⟨ser'', hRun'⟩ := hOp' ser'
  refine ⟨ser'', ?_⟩
  simp only [StateT.run_bind, hRun]
  exact hRun'

theorem Completes.forM {T : Type} {put : T → Tx Unit} (hPut : ∀ x, Completes (put x))
    (items : List T) : Completes (items.forM put) := by
  induction items with
  | nil => exact fun ser => ⟨ser, rfl⟩
  | cons x items ih => exact (hPut x).bind ih

theorem Completes.encodeSequence [DpsCbor] {T : Type} {put : T → Tx Unit}
    (hPut : ∀ x, Completes (put x)) (items : List T) :
    Completes (Serialization.encodeSequence put items) :=
  (Completes.write _ _).bind (Completes.forM hPut items)

theorem Completes.writeWithRetry {op : Tx Unit} (hOp : Completes op) (ser : TxStream) :
    ∃ ser', writeWithRetry op ser = .ok ser' := by
  obtain ⟨first, hRun⟩ := hOp ser
  by_cases hOver : first.ret = .errOverflow
  · obtain ⟨second, hRun'⟩ := hOp (TxStream.new first.sizeNeeded)
    refine ⟨second, ?_⟩
    simp [Serialization.writeWithRetry, hRun, hOver, hRun', Bind.bind, Except.bind, pure,
      Except.pure]
  · refine ⟨first, ?_⟩
    simp [Serialization.writeWithRetry, hRun, hOver, Bind.bind, Except.bind, pure, Except.pure]

/-- A writer that writes `bytes` unless `refused`, and then faults. -/
structure WritesUnless (refused : Prop) (op : Tx Unit) (bytes : List UInt8) : Prop where
  writes : ¬ refused → Writes op bytes
  faults : refused → TxFaults op

theorem Writes.unless {op : Tx Unit} {bytes : List UInt8} (hOp : Writes op bytes) :
    WritesUnless False op bytes where
  writes _ := hOp
  faults := False.elim

theorem WritesUnless.bind {refused refused' : Prop} {op op' : Tx Unit} {front back : List UInt8}
    (hOp : WritesUnless refused op front) (hOp' : WritesUnless refused' op' back) :
    WritesUnless (refused ∨ refused') (do op; op') (front ++ back) where
  writes hFine := (hOp.writes fun h => hFine (.inl h)).bind (hOp'.writes fun h => hFine (.inr h))
  faults hRefused := by
    by_cases h : refused
    · exact (hOp.faults h).bind _
    · exact (hOp.writes h).bind_faults (hOp'.faults (hRefused.resolve_left h))

theorem WritesUnless.congr {refused refused' : Prop} {op : Tx Unit} {bytes : List UInt8}
    (hOp : WritesUnless refused op bytes) (hIff : refused' ↔ refused) :
    WritesUnless refused' op bytes :=
  ⟨fun h => hOp.writes (mt hIff.mpr h), fun h => hOp.faults (hIff.mp h)⟩

/-- A loop is refused when one of its iterations is. -/
theorem WritesUnless.forM {T : Type} {put : T → Tx Unit} {item : T → List UInt8}
    {refusedItem : T → Prop} {refused : Prop} {op : Tx Unit} {front : List UInt8}
    (hOp : WritesUnless refused op front) (items : List T)
    (hPut : ∀ x ∈ items, WritesUnless (refusedItem x) (put x) (item x)) :
    WritesUnless (refused ∨ ∃ x ∈ items, refusedItem x) (do op; items.forM put)
      (front ++ items.flatMap item) := by
  induction items generalizing op front refused with
  | nil =>
      show WritesUnless _ (do op; Pure.pure ()) _
      simpa using hOp
  | cons x items ih =>
      have hHead : WritesUnless (refused ∨ refusedItem x) (do op; put x) (front ++ item x) :=
        hOp.bind (hPut x List.mem_cons_self)
      have hTail := ih hHead fun y hy => hPut y (List.mem_cons_of_mem x hy)
      show WritesUnless _ (do op; put x; items.forM put) _
      simpa only [List.flatMap_cons, bind_assoc, List.append_assoc, List.exists_mem_cons_iff,
        or_assoc] using hTail

/-- A loop writes the concatenation of what its iterations write. -/
theorem Writes.forM {T : Type} {put : T → Tx Unit} {item : T → List UInt8}
    {op : Tx Unit} {front : List UInt8} (hOp : Writes op front) (items : List T)
    (hPut : ∀ x ∈ items, Writes (put x) (item x)) :
    Writes (do op; items.forM put) (front ++ items.flatMap item) := by
  have hLoop := hOp.unless.forM items fun x hx => (hPut x hx).unless
  exact hLoop.writes (by simp)

/-- The primitive writers write the item their encoder writes. -/
theorem Writes.write {size : Nat} {encode : DpsTxBuffer → DpsStatus × DpsTxBuffer}
    {item : List UInt8} (hEncode : WritesItem encode item) (hSize : item.length ≤ size) :
    Writes (TxStream.write size encode) item := by
  intro ser
  obtain ⟨ret, total, buffer⟩ := ser
  refine ⟨_, rfl, ?_, ?_, ?_, ?_⟩
  · dsimp only
    split <;> exact Nat.add_le_add_left hSize total
  · intro hOk hRoom
    simp only at hOk hRoom
    simp [hOk, hEncode.fits buffer hRoom]
  · intro hOk _ hLong
    simp only at hOk hLong
    simp [hOk, hEncode.overflows buffer hLong]
  · intro hFail
    simp only at hFail
    simp [hFail]

/-- A fresh stream that `bytes` fit on holds exactly `bytes` afterwards. -/
theorem Wrote.of_new {hint : Nat} {bytes : List UInt8} {ser : TxStream}
    (hWrote : Wrote (TxStream.new hint) bytes ser) (hRoom : bytes.length ≤ hint) :
    ser.ret = .ok ∧ ser.data = bytes := by
  obtain ⟨hOk, hBuffer⟩ := hWrote.fits rfl (by simpa [TxStream.new] using hRoom)
  refine ⟨hOk, ?_⟩
  simp [TxStream.data, hBuffer, TxStream.new]

/-- A fresh stream of any capacity ends up with the whole payload: a pass that
overflows has asked for at least the bytes of the payload, so the second one
fits. -/
theorem writeWithRetry_of_writes {op : Tx Unit} {bytes : List UInt8} (hOp : Writes op bytes)
    (hint : Nat) :
    ∃ ser, writeWithRetry op (TxStream.new hint) = .ok ser ∧ ser.ret = .ok ∧ ser.data = bytes := by
  obtain ⟨first, hRun, hWrote⟩ := hOp (TxStream.new hint)
  by_cases hRoom : bytes.length ≤ hint
  · obtain ⟨hOk, hData⟩ := hWrote.of_new hRoom
    refine ⟨first, ?_, hOk, hData⟩
    simp [writeWithRetry, hRun, hOk, bind, Except.bind, pure, Except.pure]
  · have hOver : first.ret = .errOverflow :=
      hWrote.overflows rfl (Nat.zero_le _) (by simpa [TxStream.new] using hRoom)
    have hNeeded : bytes.length ≤ first.sizeNeeded := by
      simpa [TxStream.new, TxStream.sizeNeeded] using hWrote.size
    obtain ⟨second, hRun', hWrote'⟩ := hOp (TxStream.new first.sizeNeeded)
    obtain ⟨hOk, hData⟩ := hWrote'.of_new hNeeded
    refine ⟨second, ?_, hOk, hData⟩
    simp [writeWithRetry, hRun, hOver, hRun', bind, Except.bind, pure, Except.pure]

theorem writeWithRetry_of_faults {op : Tx Unit} (hOp : TxFaults op) (ser : TxStream) :
    ∃ fault, writeWithRetry op ser = .error fault := by
  obtain ⟨fault, hRun⟩ := hOp ser
  refine ⟨fault, ?_⟩
  simp [writeWithRetry, hRun, bind, Except.bind]

/-! ## Readers -/

/-- Run a reader: how it ends, and the stream it leaves. -/
def Rx.exec {α : Type} (reader : Rx α) (deser : RxStream) : Except Fault α × RxStream :=
  reader.run.run deser

@[simp] theorem Rx.exec_pure {α : Type} (a : α) (deser : RxStream) :
    Rx.exec (pure a) deser = (.ok a, deser) := rfl

theorem Rx.exec_bind {α β : Type} (reader : Rx α) (next : α → Rx β) (deser : RxStream) :
    Rx.exec (reader >>= next) deser =
      match Rx.exec reader deser with
      | (.ok a, deser') => Rx.exec (next a) deser'
      | (.error fault, deser') => (.error fault, deser') := by
  unfold Rx.exec
  rw [ExceptT.run_bind, StateT.run_bind]
  rcases reader.run.run deser with ⟨fault | a, deser'⟩ <;> rfl

/-- A reader that takes `bytes` off the front of any input as the value `a`. -/
def Reads {α : Type} (reader : Rx α) (bytes : List UInt8) (a : α) : Prop :=
  ∀ (deser : RxStream) (rest : List UInt8), deser.unread = bytes ++ rest →
    ∃ deser', Rx.exec reader deser = (.ok a, deser') ∧ deser'.unread = rest

theorem Reads.pure {α : Type} (a : α) : Reads (pure a) [] a :=
  fun deser _ hUnread => ⟨deser, rfl, hUnread⟩

theorem Reads.bind {α β : Type} {reader : Rx α} {next : α → Rx β} {front back : List UInt8}
    {a : α} {b : β} (hReader : Reads reader front a) (hNext : Reads (next a) back b) :
    Reads (reader >>= next) (front ++ back) b := by
  intro deser rest hUnread
  rw [List.append_assoc] at hUnread
  obtain ⟨deser', hRun, hUnread'⟩ := hReader deser (back ++ rest) hUnread
  obtain ⟨deser'', hRun', hUnread''⟩ := hNext deser' rest hUnread'
  refine ⟨deser'', ?_, hUnread''⟩
  rw [Rx.exec_bind, hRun]
  exact hRun'

/-- A reader followed by a step that reads nothing. -/
theorem Reads.map {α β : Type} {reader : Rx α} {next : α → Rx β} {bytes : List UInt8}
    {a : α} {b : β} (hReader : Reads reader bytes a) (hNext : Reads (next a) [] b) :
    Reads (reader >>= next) bytes b := by
  simpa using hReader.bind hNext

/-- A step that reads nothing followed by a reader. -/
theorem Reads.silent {α β : Type} {reader : Rx α} {next : α → Rx β} {bytes : List UInt8}
    {b : β} (hReader : ∀ deser, ∃ a deser', Rx.exec reader deser = (.ok a, deser') ∧
      deser'.unread = deser.unread ∧ Reads (next a) bytes b) :
    Reads (reader >>= next) bytes b := by
  intro deser rest hUnread
  obtain ⟨a, deser', hRun, hSame, hNext⟩ := hReader deser
  obtain ⟨deser'', hRun', hUnread'⟩ := hNext deser' rest (hSame.trans hUnread)
  refine ⟨deser'', ?_, hUnread'⟩
  rw [Rx.exec_bind, hRun]
  exact hRun'

theorem Reads.unreadLength {β : Type} {next : Nat → Rx β} {bytes : List UInt8} {b : β}
    (hNext : ∀ unread, Reads (next unread) bytes b) :
    Reads (Serialization.unreadLength >>= next) bytes b :=
  Reads.silent fun deser => ⟨deser.unread.length, deser, rfl, rfl, hNext _⟩

theorem Reads.resize {β : Type} {next : Rx β} {count unread : Nat} {bytes : List UInt8} {b : β}
    (hNext : Reads next bytes b) :
    Reads (do Serialization.resize count unread; next) bytes b :=
  Reads.silent fun deser =>
    ⟨(), { deser with resized := deser.resized ++ [(count, unread)] }, rfl, rfl, hNext⟩

theorem RxStream.exec_read {α : Type} (decode : List UInt8 → Option (α × List UInt8))
    (what : String) (deser : RxStream) :
    Rx.exec (RxStream.read decode what) deser =
      match decode deser.unread with
      | some (a, rest) => (.ok a, { deser with unread := rest })
      | none => (.error (.runtimeError what), deser) := by
  unfold RxStream.read
  rw [Rx.exec_bind]
  show Rx.exec (match decode deser.unread with
    | some (a, rest) => (do set { deser with unread := rest }; Pure.pure a : Rx α)
    | none => throw (.runtimeError what)) deser = _
  cases decode deser.unread with
  | none => rfl
  | some result => rfl

/-- Peeking at the size of a sequence leaves the stream as it was. -/
theorem RxStream.exec_deserializeSequenceSize [DpsCbor] (deser : RxStream) :
    Rx.exec deserializeSequenceSize deser =
      (match DpsCbor.peek deser.unread with
        | some (maj, info) =>
            if maj ≠ Rfc7049.majorArray ∧ maj ≠ Rfc7049.majorBytes then
              .error (.runtimeError "failed to deserialize array size")
            else .ok info.toNat
        | none => .error (.runtimeError "failed to deserialize array size"), deser) := by
  unfold deserializeSequenceSize
  rw [Rx.exec_bind]
  show Rx.exec (match DpsCbor.peek deser.unread with
    | some (maj, info) => (do
        if maj ≠ Rfc7049.majorArray ∧ maj ≠ Rfc7049.majorBytes then
          throw (.runtimeError "failed to deserialize array size")
        return info.toNat : Rx Nat)
    | none => throw (.runtimeError "failed to deserialize array size")) deser = _
  cases DpsCbor.peek deser.unread with
  | none => rfl
  | some head =>
      obtain ⟨maj, info⟩ := head
      by_cases hMaj : maj ≠ Rfc7049.majorArray ∧ maj ≠ Rfc7049.majorBytes
      · simp only [if_pos hMaj]
        rfl
      · simp only [if_neg hMaj]
        rfl

/-- The primitive readers read the item their decoder reads. -/
theorem Reads.read {α : Type} {decode : List UInt8 → Option (α × List UInt8)}
    {item : List UInt8} {a : α} (hDecode : ReadsItem decode item a) (what : String) :
    Reads (RxStream.read decode what) item a := by
  intro deser rest hUnread
  refine ⟨{ deser with unread := rest }, ?_, rfl⟩
  rw [RxStream.exec_read, hUnread, hDecode]

/-- A loop reads the concatenation of what its iterations read. -/
theorem Reads.readEach {T : Type} {reader : Rx T} {item : T → List UInt8} (items : List T)
    (hReader : ∀ x ∈ items, Reads reader (item x) x) :
    Reads (Serialization.readEach reader items.length) (items.flatMap item) items := by
  induction items with
  | nil => exact Reads.pure []
  | cons x items ih =>
      have hTail := ih fun y hy => hReader y (List.mem_cons_of_mem x hy)
      rw [List.flatMap_cons]
      exact (hReader x List.mem_cons_self).bind (hTail.map (Reads.pure (x :: items)))

/-! ## Arbitrary input -/

/-- Whatever the input, the reader delivers a value in `Q` or reports a runtime
error; it indexes past the end of a vector only where `pastEnd` allows it. -/
def Ends {α : Type} (reader : Rx α) (Q : α → Prop) (pastEnd : Prop) : Prop :=
  ∀ deser, match (Rx.exec reader deser).1 with
    | .ok a => Q a
    | .error (.runtimeError _) => True
    | .error .indexPastEnd => pastEnd
    | .error .undefinedBehavior => False

section Ends

variable {α β : Type} {Q : α → Prop} {R : β → Prop} {pastEnd : Prop}

theorem Ends.pure {a : α} (hValue : Q a) : Ends (pure a) Q pastEnd :=
  fun _ => hValue

theorem Ends.runtimeError (what : String) : Ends (throw (.runtimeError what)) Q pastEnd :=
  fun _ => trivial

theorem Ends.mono {reader : Rx α} {Q' : α → Prop} {pastEnd' : Prop}
    (hReader : Ends reader Q pastEnd) (hValue : ∀ a, Q a → Q' a)
    (hPastEnd : pastEnd → pastEnd') : Ends reader Q' pastEnd' := by
  intro deser
  have hEnd := hReader deser
  revert hEnd
  cases (Rx.exec reader deser).1 with
  | ok a => exact hValue a
  | error fault =>
      cases fault with
      | runtimeError what => exact id
      | indexPastEnd => exact hPastEnd
      | undefinedBehavior => exact id

theorem Ends.bind {reader : Rx α} {next : α → Rx β} (hReader : Ends reader Q pastEnd)
    (hNext : ∀ a, Q a → Ends (next a) R pastEnd) : Ends (reader >>= next) R pastEnd := by
  intro deser
  have hEnd := hReader deser
  rw [Rx.exec_bind]
  revert hEnd
  rcases Rx.exec reader deser with ⟨fault | a, deser'⟩
  · cases fault <;> exact id
  · exact fun hValue => hNext a hValue deser'

theorem Ends.unreadLength {next : Nat → Rx β} (hNext : ∀ unread, Ends (next unread) R pastEnd) :
    Ends (Serialization.unreadLength >>= next) R pastEnd :=
  fun deser => hNext deser.unread.length deser

theorem Ends.resize {next : Rx β} {count unread : Nat} (hNext : Ends next R pastEnd) :
    Ends (do Serialization.resize count unread; next) R pastEnd :=
  fun deser => hNext { deser with resized := deser.resized ++ [(count, unread)] }

theorem Ends.read {decode : List UInt8 → Option (α × List UInt8)} (what : String)
    (hDecode : ∀ input a rest, decode input = some (a, rest) → Q a) :
    Ends (RxStream.read decode what) Q pastEnd := by
  intro deser
  rw [RxStream.exec_read]
  cases hRead : decode deser.unread with
  | none => trivial
  | some result => exact hDecode deser.unread result.1 result.2 hRead

theorem Ends.readEach {reader : Rx α} (hReader : Ends reader Q pastEnd) (count : Nat) :
    Ends (Serialization.readEach reader count) (fun xs => xs.length = count ∧ ∀ x ∈ xs, Q x)
      pastEnd := by
  induction count with
  | zero => exact Ends.pure ⟨rfl, by simp⟩
  | succ count ih =>
      refine hReader.bind fun a hValue => ih.bind fun rest hRest => Ends.pure ⟨?_, ?_⟩
      · rw [List.length_cons, hRest.1]
      · exact List.forall_mem_cons.mpr ⟨hValue, hRest.2⟩

end Ends

/-- The reader faults on every input that starts with `bytes`. -/
def FaultsOn {α : Type} (reader : Rx α) (bytes : List UInt8) (fault : Fault) : Prop :=
  ∀ (deser : RxStream) (rest : List UInt8), deser.unread = bytes ++ rest →
    (Rx.exec reader deser).1 = .error fault

theorem FaultsOn.throw {α : Type} (fault : Fault) : FaultsOn (throw fault : Rx α) [] fault :=
  fun _ _ _ => rfl

theorem FaultsOn.unreadLength {β : Type} {next : Nat → Rx β} {bytes : List UInt8}
    {fault : Fault} (hNext : ∀ unread, FaultsOn (next unread) bytes fault) :
    FaultsOn (Serialization.unreadLength >>= next) bytes fault :=
  fun deser => hNext deser.unread.length deser

theorem FaultsOn.resize {β : Type} {next : Rx β} {count unread : Nat} {bytes : List UInt8}
    {fault : Fault} (hNext : FaultsOn next bytes fault) :
    FaultsOn (do Serialization.resize count unread; next) bytes fault :=
  fun deser => hNext { deser with resized := deser.resized ++ [(count, unread)] }

theorem FaultsOn.bind {α β : Type} {reader : Rx α} {bytes : List UInt8} {fault : Fault}
    (hReader : FaultsOn reader bytes fault) (next : α → Rx β) :
    FaultsOn (reader >>= next) bytes fault := by
  intro deser rest hUnread
  have hFault := hReader deser rest hUnread
  rw [Rx.exec_bind]
  revert hFault
  rcases Rx.exec reader deser with ⟨fault' | a, deser'⟩
  · exact fun hFault => congrArg Except.error (Except.error.inj hFault)
  · exact fun hFault => nomatch hFault

theorem Reads.bind_faultsOn {α β : Type} {reader : Rx α} {next : α → Rx β}
    {front back : List UInt8} {a : α} {fault : Fault} (hReader : Reads reader front a)
    (hNext : FaultsOn (next a) back fault) : FaultsOn (reader >>= next) (front ++ back) fault := by
  intro deser rest hUnread
  rw [List.append_assoc] at hUnread
  obtain ⟨deser', hRun, hUnread'⟩ := hReader deser (back ++ rest) hUnread
  rw [Rx.exec_bind, hRun]
  exact hNext deser' rest hUnread'

/-! ## Readers that do not read everything -/

/-- A reader that takes `bytes` off the front of any input as the value `a` where the value
is `fine`, and throws on them where it is not. -/
structure ReadsWhen {α : Type} (fine : Prop) (reader : Rx α) (bytes : List UInt8) (a : α) :
    Prop where
  reads : fine → Reads reader bytes a
  throws : ¬ fine → ∀ (deser : RxStream) (rest : List UInt8), deser.unread = bytes ++ rest →
    ∃ what, (Rx.exec reader deser).1 = .error (.runtimeError what)

section ReadsWhen

variable {α β : Type} {fine fine' : Prop} {reader : Rx α} {next : α → Rx β}
  {bytes front back : List UInt8} {a : α} {b : β}

theorem Reads.when (hReader : Reads reader bytes a) : ReadsWhen True reader bytes a where
  reads _ := hReader
  throws hNot := absurd trivial hNot

theorem ReadsWhen.congr (hReader : ReadsWhen fine reader bytes a) (hIff : fine' ↔ fine) :
    ReadsWhen fine' reader bytes a :=
  ⟨fun h => hReader.reads (hIff.mp h), fun h => hReader.throws (mt hIff.mpr h)⟩

theorem ReadsWhen.bind (hReader : ReadsWhen fine reader front a)
    (hNext : ReadsWhen fine' (next a) back b) :
    ReadsWhen (fine ∧ fine') (reader >>= next) (front ++ back) b where
  reads := fun ⟨hFine, hFine'⟩ => (hReader.reads hFine).bind (hNext.reads hFine')
  throws hNot deser rest hUnread := by
    rw [List.append_assoc] at hUnread
    by_cases hFine : fine
    · obtain ⟨deser', hRun, hUnread'⟩ := hReader.reads hFine deser (back ++ rest) hUnread
      rw [Rx.exec_bind, hRun]
      exact hNext.throws (fun hFine' => hNot ⟨hFine, hFine'⟩) deser' rest hUnread'
    · obtain ⟨fault, hFault⟩ := hReader.throws hFine deser (back ++ rest) hUnread
      refine ⟨fault, ?_⟩
      rw [Rx.exec_bind, ← Prod.mk.eta (p := Rx.exec reader deser), hFault]

/-- A step that reads nothing follows the reader. -/
theorem ReadsWhen.map (hReader : ReadsWhen fine reader bytes a) (hNext : Reads (next a) [] b) :
    ReadsWhen fine (reader >>= next) bytes b := by
  have hBoth := (hReader.bind hNext.when).congr (and_true fine).symm.to_iff
  rwa [List.append_nil] at hBoth

/-- A reader that reads everything goes in front. -/
theorem Reads.bindWhen (hReader : Reads reader front a) (hNext : ReadsWhen fine (next a) back b) :
    ReadsWhen fine (reader >>= next) (front ++ back) b :=
  (hReader.when.bind hNext).congr (true_and fine).symm.to_iff

theorem ReadsWhen.unreadLength {next : Nat → Rx β}
    (hNext : ∀ unread, ReadsWhen fine (next unread) bytes b) :
    ReadsWhen fine (Serialization.unreadLength >>= next) bytes b where
  reads hFine := Reads.unreadLength fun unread => (hNext unread).reads hFine
  throws hNot deser := (hNext deser.unread.length).throws hNot deser

theorem ReadsWhen.resize {next : Rx β} {count unread : Nat} (hNext : ReadsWhen fine next bytes b) :
    ReadsWhen fine (do Serialization.resize count unread; next) bytes b where
  reads hFine := Reads.resize (hNext.reads hFine)
  throws hNot deser :=
    hNext.throws hNot { deser with resized := deser.resized ++ [(count, unread)] }

/-- A loop throws at the first value that is not fine. -/
theorem ReadsWhen.readEach {T : Type} {reader : Rx T} {item : T → List UInt8} {fine : T → Prop}
    (items : List T) (hReader : ∀ x ∈ items, ReadsWhen (fine x) reader (item x) x) :
    ReadsWhen (∀ x ∈ items, fine x) (Serialization.readEach reader items.length)
      (items.flatMap item) items := by
  induction items with
  | nil => exact (Reads.pure []).when.congr (by simp)
  | cons x items ih =>
      have hTail := ih fun y hy => hReader y (List.mem_cons_of_mem x hy)
      rw [List.flatMap_cons]
      exact ((hReader x List.mem_cons_self).bind
        (hTail.map (Reads.pure (x :: items)))).congr List.forall_mem_cons

end ReadsWhen

end Serialization
end RmwDps
