import RmwDps.Messaging.Provenance
import RmwDps.Serialization.RfcCbor

/-!
# Overlapping sends

Any number of threads inside `rmw_send_request` on one client.  `publish` blocks
until DPS has numbered the request, and the number is read back from the
publication of the client afterwards; whatever other threads publish in between
moves it on.
-/

namespace RmwDps
namespace Messaging

open Serialization
open Transition (Machine)

/-! ## The machine -/

/-- Where a thread stands in `rmw_send_request`: outside, inside `publish` with the
payload not yet published, or published under a number that is not yet read
back.  `later` counts the publications of the client since then. -/
inductive SendPhase
  | idle
  | publishing (payload : List UInt8)
  | published (sequenceNum : UInt32) (later : Nat)
  deriving DecidableEq, Repr

/-- A call whose request was published and that has returned: the number of the
publication that carried its request, the publications of the client between that
one and the read, and what the call returned. -/
structure SendCall where
  sequenceNum : UInt32
  later : Nat
  ret : RmwRet
  sequenceId : Option Int64
  deriving DecidableEq, Repr

/-- `returned` is a record of the run. -/
structure SendState (τ : Type) where
  publication : DpsPublication
  phase : τ → SendPhase
  returned : List SendCall

/-- The steps of a thread: the call up to `publish`, the publication by DPS, a
`publish` that fails before it, and the return of `publish` with the rest of the
call. -/
inductive SendAction (τ : Type)
  | call (thread : τ) (rosRequest : RosMessage)
  | publish (thread : τ)
  | refuse (thread : τ)
  | finish (thread : τ) (status : DpsStatus)

/-- One more publication since the thread's own. -/
def SendPhase.countLater : SendPhase → SendPhase
  | .published sequenceNum later => .published sequenceNum (later + 1)
  | phase => phase

def SendState.start {τ : Type} (uuid : DpsUuid) : SendState τ where
  publication := { uuid, sequenceNum := 0, ackSequenceNum := 0 }
  phase := fun _ => .idle
  returned := []

section Machine

variable {τ : Type} [DecidableEq τ]

def SendState.setPhase (s : SendState τ) (thread : τ) (phase : SendPhase) : SendState τ :=
  { s with phase := Function.update s.phase thread phase }

@[simp] theorem SendState.phase_setPhase_self (s : SendState τ) (thread : τ) (phase : SendPhase) :
    (s.setPhase thread phase).phase thread = phase :=
  Function.update_self ..

theorem SendState.phase_setPhase_of_ne {s : SendState τ} {thread other : τ} {phase : SendPhase}
    (hOther : other ≠ thread) : (s.setPhase thread phase).phase other = s.phase other :=
  Function.update_of_ne hOther _ _

/-- After a move to another phase, what is published was so before. -/
theorem SendState.published_of_setPhase {s : SendState τ} {thread other : τ} {phase : SendPhase}
    {sequenceNum : UInt32} {later : Nat}
    (hPhase : ∀ sequenceNum later, phase ≠ .published sequenceNum later)
    (hOther : (s.setPhase thread phase).phase other = .published sequenceNum later) :
    s.phase other = .published sequenceNum later := by
  by_cases hThread : other = thread
  · subst hThread
    rw [phase_setPhase_self] at hOther
    exact absurd hOther (hPhase sequenceNum later)
  · rwa [phase_setPhase_of_ne hThread] at hOther

/-- DPS publishes the request of a thread under the next number. -/
def SendState.publish (s : SendState τ) (thread : τ) : SendState τ :=
  let sequenceNum := s.publication.sequenceNum + 1
  { s with
    publication := { s.publication with sequenceNum }
    phase := Function.update (fun other => (s.phase other).countLater) thread
      (.published sequenceNum 0) }

/-- `rmw_send_request` from where `publish` returns. -/
def SendState.finish (s : SendState τ) (thread : τ) (sequenceNum : UInt32) (later : Nat)
    (status : DpsStatus) : SendState τ :=
  let (ret, sequenceId) := rmwSendRequestPublished status (some s.publication)
  { s.setPhase thread .idle with
    returned := { sequenceNum, later, ret, sequenceId } :: s.returned }

variable [DpsCbor] [Platform]

/-- The state after a step, if the thread can take it.  A call that does not get to
`publish` changes nothing. -/
def SendState.step (client : RmwClient) (s : SendState τ) : SendAction τ → Option (SendState τ)
  | .call thread rosRequest =>
      match s.phase thread, rmwSendRequest client rosRequest with
      | .idle, .ok (.publishes payload) =>
          some (s.setPhase thread (.publishing payload))
      | .idle, _ => some s
      | _, _ => none
  | .publish thread =>
      match s.phase thread with
      | .publishing _ => some (s.publish thread)
      | _ => none
  | .refuse thread =>
      match s.phase thread with
      | .publishing _ => some (s.setPhase thread .idle)
      | _ => none
  | .finish thread status =>
      match s.phase thread with
      | .published sequenceNum later => some (s.finish thread sequenceNum later status)
      | _ => none

/-- What a step can do: nothing, move a thread that has not published, publish, or let a
call that has published return. -/
theorem SendState.step_cases {client : RmwClient} {s s' : SendState τ} {action : SendAction τ}
    (hStep : s.step client action = some s') :
    s' = s ∨
      (∃ thread phase, (∀ sequenceNum later, phase ≠ .published sequenceNum later) ∧
        s' = s.setPhase thread phase) ∨
      (∃ thread, action = .publish thread ∧ s' = s.publish thread) ∨
      ∃ thread sequenceNum later status, s.phase thread = .published sequenceNum later ∧
        s' = s.finish thread sequenceNum later status := by
  cases action with
  | call thread rosRequest =>
      simp only [step] at hStep
      split at hStep
      · exact .inr (.inl ⟨thread, .publishing _, fun _ _ => nofun, (Option.some.inj hStep).symm⟩)
      · exact .inl (Option.some.inj hStep).symm
      · exact nomatch hStep
  | publish thread =>
      simp only [step] at hStep
      split at hStep
      · exact .inr (.inr (.inl ⟨thread, rfl, (Option.some.inj hStep).symm⟩))
      · exact nomatch hStep
  | refuse thread =>
      simp only [step] at hStep
      split at hStep
      · exact .inr (.inl ⟨thread, .idle, fun _ _ => nofun, (Option.some.inj hStep).symm⟩)
      · exact nomatch hStep
  | finish thread status =>
      simp only [step] at hStep
      split at hStep
      · next sequenceNum later hPhase =>
          refine .inr (.inr (.inr ⟨thread, sequenceNum, later, status, hPhase, ?_⟩))
          exact (Option.some.inj hStep).symm
      · exact nomatch hStep

def sendMachine (client : RmwClient) (uuid : DpsUuid) :
    Machine (SendState τ) (SendAction τ) :=
  Machine.ofFunction (SendState.start uuid) (SendState.step client)

end Machine

/-! ## What is to hold -/

section Statement

variable {τ : Type}

/-- Calls that return `RMW_RET_OK` return different ids, each the number of the
publication that carried its own request. -/
structure SendState.UniqueIds (s : SendState τ) : Prop where
  own : ∀ call ∈ s.returned, call.ret = .ok →
    call.sequenceId = some call.sequenceNum.toNat.toInt64
  distinct : s.returned.Pairwise fun call call' =>
    call.ret = .ok → call'.ret = .ok → call.sequenceId ≠ call'.sequenceId

/-- The client has published less than 2³² times, so the number of its publication
has not wrapped. -/
def Unwrapped (s : SendState τ) : SendAction τ → Prop
  | .publish _ => s.publication.sequenceNum.toNat + 1 < 2 ^ 32
  | _ => True

/-- Besides, a request is published only when no other call has published and not
yet read its number back. -/
def Undisturbed (s : SendState τ) (action : SendAction τ) : Prop :=
  Unwrapped s action ∧
    match action with
    | .publish _ => ∀ other sequenceNum later, s.phase other ≠ .published sequenceNum later
    | _ => True

end Statement

/-! ## The invariant -/

section Invariant

variable {τ : Type}

/-- The numbers of the publications that are to be read back, and of those that
were, are all different, and the publications since then are counted. -/
structure SendInv (s : SendState τ) : Prop where
  count : ∀ thread sequenceNum later, s.phase thread = .published sequenceNum later →
    s.publication.sequenceNum.toNat = sequenceNum.toNat + later
  thread : ∀ thread thread' sequenceNum later later',
    s.phase thread = .published sequenceNum later →
    s.phase thread' = .published sequenceNum later' → thread = thread'
  fresh : ∀ thread sequenceNum later, s.phase thread = .published sequenceNum later →
    ∀ call ∈ s.returned, call.sequenceNum ≠ sequenceNum
  bound : ∀ call ∈ s.returned, call.sequenceNum.toNat ≤ s.publication.sequenceNum.toNat
  returned : ∀ call ∈ s.returned, call.ret = .ok →
    call.sequenceNum.toNat + call.later < 2 ^ 32 ∧
      call.sequenceId = some (call.sequenceNum.toNat + call.later).toInt64
  distinct : s.returned.Pairwise fun call call' => call.sequenceNum ≠ call'.sequenceNum

theorem SendInv.start (uuid : DpsUuid) : SendInv (SendState.start uuid : SendState τ) where
  count _ _ _ hPhase := nomatch hPhase
  thread _ _ _ _ _ hPhase := nomatch hPhase
  fresh _ _ _ hPhase := nomatch hPhase
  bound _ hCall := nomatch hCall
  returned _ hCall := nomatch hCall
  distinct := .nil

variable [DecidableEq τ] {s s' : SendState τ} {thread : τ}

/-- A thread that is not to read a number back may move. -/
theorem SendInv.setPhase (hInv : SendInv s) {phase : SendPhase}
    (hPhase : ∀ sequenceNum later, phase ≠ .published sequenceNum later) :
    SendInv (s.setPhase thread phase) := by
  have hBefore : ∀ other sequenceNum later,
      (s.setPhase thread phase).phase other = .published sequenceNum later →
      s.phase other = .published sequenceNum later :=
    fun _ _ _ => SendState.published_of_setPhase hPhase
  constructor
  · intro other sequenceNum later hOther
    exact hInv.count other sequenceNum later (hBefore _ _ _ hOther)
  · intro other other' sequenceNum later later' hOther hOther'
    exact hInv.thread other other' _ _ _ (hBefore _ _ _ hOther) (hBefore _ _ _ hOther')
  · intro other sequenceNum later hOther
    exact hInv.fresh other sequenceNum later (hBefore _ _ _ hOther)
  · exact hInv.bound
  · exact hInv.returned
  · exact hInv.distinct

theorem SendPhase.countLater_eq_published {phase : SendPhase} {sequenceNum : UInt32} {later : Nat}
    (hLater : phase.countLater = .published sequenceNum later) :
    ∃ before, later = before + 1 ∧ phase = .published sequenceNum before := by
  cases phase with
  | idle => exact nomatch hLater
  | publishing payload => exact nomatch hLater
  | published number before =>
      rw [countLater, published.injEq] at hLater
      exact ⟨before, hLater.2.symm, by rw [hLater.1]⟩

/-- The new number is above all that are in use, and every other publication to be
read back has one more behind it. -/
theorem SendInv.publish (hInv : SendInv s) (thread : τ)
    (hUnwrapped : s.publication.sequenceNum.toNat + 1 < 2 ^ 32) : SendInv (s.publish thread) := by
  have hNext : (s.publication.sequenceNum + 1).toNat = s.publication.sequenceNum.toNat + 1 := by
    rw [UInt32.toNat_add, UInt32.toNat_one, Nat.mod_eq_of_lt hUnwrapped]
  have hPhase : ∀ other sequenceNum later,
      (s.publish thread).phase other = .published sequenceNum later →
      (other = thread ∧ sequenceNum = s.publication.sequenceNum + 1 ∧ later = 0) ∨
        ∃ before, later = before + 1 ∧ s.phase other = .published sequenceNum before := by
    intro other sequenceNum later hOther
    by_cases hThread : other = thread
    · subst hThread
      simp only [SendState.publish, Function.update_self, SendPhase.published.injEq] at hOther
      exact .inl ⟨rfl, hOther.1.symm, hOther.2.symm⟩
    · simp only [SendState.publish, Function.update_of_ne hThread] at hOther
      exact .inr (SendPhase.countLater_eq_published hOther)
  -- A number in use is not above the one before the publication.
  have hInUse : ∀ other sequenceNum later, s.phase other = .published sequenceNum later →
      sequenceNum ≠ s.publication.sequenceNum + 1 := by
    rintro other _ later hOther rfl
    have hCount := hInv.count other _ later hOther
    omega
  constructor
  · intro other sequenceNum later hOther
    show (s.publication.sequenceNum + 1).toNat = _
    obtain ⟨-, rfl, rfl⟩ | ⟨before, rfl, hBefore⟩ := hPhase other sequenceNum later hOther
    · rfl
    · have hCount := hInv.count other sequenceNum before hBefore
      omega
  · intro other other' sequenceNum later later' hOther hOther'
    obtain ⟨rfl, hNumber, -⟩ | ⟨before, -, hBefore⟩ := hPhase other sequenceNum later hOther
    · obtain ⟨rfl, -, -⟩ | ⟨before, -, hBefore⟩ := hPhase other' sequenceNum later' hOther'
      · rfl
      · exact absurd hNumber (hInUse other' sequenceNum before hBefore)
    · obtain ⟨-, hNumber, -⟩ | ⟨before', -, hBefore'⟩ := hPhase other' sequenceNum later' hOther'
      · exact absurd hNumber (hInUse other sequenceNum before hBefore)
      · exact hInv.thread other other' sequenceNum before before' hBefore hBefore'
  · intro other sequenceNum later hOther call hCall hSame
    obtain ⟨-, rfl, -⟩ | ⟨before, -, hBefore⟩ := hPhase other sequenceNum later hOther
    · have hBound := hInv.bound call hCall
      rw [hSame] at hBound
      omega
    · exact hInv.fresh other sequenceNum before hBefore call hCall hSame
  · intro call hCall
    show _ ≤ (s.publication.sequenceNum + 1).toNat
    have hBound := hInv.bound call hCall
    omega
  · exact hInv.returned
  · exact hInv.distinct

/-- What the call returns is its own number and the publications since then. -/
theorem SendInv.finish (hInv : SendInv s) {sequenceNum : UInt32} {later : Nat}
    (hPhase : s.phase thread = .published sequenceNum later) (status : DpsStatus) :
    SendInv (s.finish thread sequenceNum later status) := by
  have hIdle : SendInv (s.setPhase thread .idle) := hInv.setPhase fun _ _ => nofun
  have hCount := hInv.count thread sequenceNum later hPhase
  have hLt := s.publication.sequenceNum.toNat_lt
  have hReturned : (s.finish thread sequenceNum later status).returned =
      { sequenceNum, later, ret := (rmwSendRequestPublished status (some s.publication)).1,
        sequenceId := (rmwSendRequestPublished status (some s.publication)).2 } :: s.returned := rfl
  constructor
  · exact hIdle.count
  · exact hIdle.thread
  · intro other number laterOther hOther call hCall
    rw [hReturned, List.mem_cons] at hCall
    obtain rfl | hCall := hCall
    · -- Another thread that is still to read has published under another number.
      rintro rfl
      have hThread : other ≠ thread := by
        rintro rfl
        have hSelf : (s.setPhase other .idle).phase other = .published sequenceNum laterOther :=
          hOther
        rw [SendState.phase_setPhase_self] at hSelf
        exact nomatch hSelf
      have hIdlePhase : ∀ number before, SendPhase.idle ≠ .published number before :=
        fun _ _ => nofun
      have hBefore : s.phase other = .published sequenceNum laterOther :=
        SendState.published_of_setPhase hIdlePhase hOther
      exact hThread (hInv.thread _ _ _ _ _ hBefore hPhase)
    · exact hIdle.fresh other number laterOther hOther call hCall
  · intro call hCall
    show _ ≤ s.publication.sequenceNum.toNat
    rw [hReturned, List.mem_cons] at hCall
    obtain rfl | hCall := hCall
    · show sequenceNum.toNat ≤ _
      omega
    · exact hInv.bound call hCall
  · intro call hCall hOk
    rw [hReturned, List.mem_cons] at hCall
    obtain rfl | hCall := hCall
    · have hId : rmwSendRequestPublished status (some s.publication) =
          (.ok, some s.publication.sequenceNum.toNat.toInt64) := by
        unfold rmwSendRequestPublished at hOk ⊢
        split at hOk
        · next hStatus =>
            rw [if_pos hStatus]
            rfl
        · exact nomatch hOk
      rw [hId, ← hCount]
      exact ⟨hLt, rfl⟩
    · exact hInv.returned call hCall hOk
  · rw [hReturned, List.pairwise_cons]
    exact ⟨fun call hCall => (hInv.fresh thread sequenceNum later hPhase call hCall).symm,
      hInv.distinct⟩

variable [DpsCbor] [Platform] {client : RmwClient} {uuid : DpsUuid}

theorem SendInv.step {action : SendAction τ} (hInv : SendInv s) (hUnwrapped : Unwrapped s action)
    (hStep : s.step client action = some s') : SendInv s' := by
  obtain rfl | ⟨thread, phase, hPhase, rfl⟩ | ⟨thread, rfl, rfl⟩ |
    ⟨thread, sequenceNum, later, status, hPhase, rfl⟩ := SendState.step_cases hStep
  · exact hInv
  · exact hInv.setPhase hPhase
  · exact hInv.publish thread hUnwrapped
  · exact hInv.finish hPhase status

theorem sendInv_of_reachable (hReachable : (sendMachine client uuid).ReachableIf Unwrapped s) :
    SendInv s := by
  refine hReachable.invariant ?_ ?_
  · rintro _ rfl
    exact SendInv.start uuid
  · intro s action s' hInv hUnwrapped hStep
    exact hInv.step hUnwrapped hStep

/-! ## When the ids are unique -/

omit [DpsCbor] [Platform] in
theorem toInt64_inj {m n : Nat} (hm : m < 2 ^ 32) (hn : n < 2 ^ 32)
    (hSame : m.toInt64 = n.toInt64) : m = n := by
  have hInt := congrArg Int64.toInt hSame
  have hLeft : m.toInt64.toInt = m := Int64.toInt_ofNat_of_lt (by omega)
  have hRight : n.toInt64.toInt = n := Int64.toInt_ofNat_of_lt (by omega)
  rw [hLeft, hRight] at hInt
  exact Int.ofNat_inj.mp hInt

omit [DecidableEq τ] [DpsCbor] [Platform] in
theorem SendInv.uniqueIds_iff (hInv : SendInv s) :
    s.UniqueIds ↔ ∀ call ∈ s.returned, call.ret = .ok → call.later = 0 := by
  constructor
  · intro hUnique call hCall hOk
    have hOwn := hUnique.own call hCall hOk
    obtain ⟨hLt, hId⟩ := hInv.returned call hCall hOk
    rw [hId, Option.some_inj] at hOwn
    have hNumber := toInt64_inj hLt call.sequenceNum.toNat_lt hOwn
    omega
  · intro hLater
    have hOwn : ∀ call ∈ s.returned, call.ret = .ok →
        call.sequenceId = some call.sequenceNum.toNat.toInt64 := by
      intro call hCall hOk
      rw [(hInv.returned call hCall hOk).2, hLater call hCall hOk, Nat.add_zero]
    refine ⟨hOwn, hInv.distinct.imp_of_mem ?_⟩
    intro call call' hCall hCall' hNumbers hOk hOk' hSame
    rw [hOwn call hCall hOk, hOwn call' hCall' hOk', Option.some_inj] at hSame
    have hNat := toInt64_inj call.sequenceNum.toNat_lt call'.sequenceNum.toNat_lt hSame
    exact hNumbers (UInt32.toNat_inj.mp hNat)

/-- No call has had a publication of another one between its own and its read. -/
structure AloneInv (s : SendState τ) : Prop where
  phase : ∀ thread sequenceNum later, s.phase thread = .published sequenceNum later → later = 0
  returned : ∀ call ∈ s.returned, call.later = 0

omit [DpsCbor] [Platform] in
theorem AloneInv.setPhase (hInv : AloneInv s) {phase : SendPhase}
    (hPhase : ∀ sequenceNum later, phase ≠ .published sequenceNum later) :
    AloneInv (s.setPhase thread phase) where
  phase other sequenceNum later hOther :=
    hInv.phase other sequenceNum later (SendState.published_of_setPhase hPhase hOther)
  returned := hInv.returned

omit [DpsCbor] [Platform] in
theorem AloneInv.publish (hInv : AloneInv s)
    (hAlone : ∀ other sequenceNum later, s.phase other ≠ .published sequenceNum later) :
    AloneInv (s.publish thread) where
  phase other sequenceNum later hOther := by
    by_cases hThread : other = thread
    · subst hThread
      simp only [SendState.publish, Function.update_self, SendPhase.published.injEq] at hOther
      exact hOther.2.symm
    · simp only [SendState.publish, Function.update_of_ne hThread] at hOther
      obtain ⟨before, -, hBefore⟩ := SendPhase.countLater_eq_published hOther
      exact absurd hBefore (hAlone other sequenceNum before)
  returned := hInv.returned

omit [DpsCbor] [Platform] in
theorem AloneInv.finish (hInv : AloneInv s) {sequenceNum : UInt32} {later : Nat}
    (hPhase : s.phase thread = .published sequenceNum later) (status : DpsStatus) :
    AloneInv (s.finish thread sequenceNum later status) := by
  have hIdle : AloneInv (s.setPhase thread .idle) := hInv.setPhase fun _ _ => nofun
  constructor
  · exact hIdle.phase
  · exact List.forall_mem_cons.mpr ⟨hInv.phase thread sequenceNum later hPhase, hInv.returned⟩

theorem AloneInv.step {action : SendAction τ} (hInv : AloneInv s)
    (hUndisturbed : Undisturbed s action) (hStep : s.step client action = some s') :
    AloneInv s' := by
  obtain rfl | ⟨thread, phase, hPhase, rfl⟩ | ⟨thread, rfl, rfl⟩ |
    ⟨thread, sequenceNum, later, status, hPhase, rfl⟩ := SendState.step_cases hStep
  · exact hInv
  · exact hInv.setPhase hPhase
  · exact hInv.publish hUndisturbed.2
  · exact hInv.finish hPhase status

theorem aloneInv_of_reachable (hReachable : (sendMachine client uuid).ReachableIf Undisturbed s) :
    AloneInv s := by
  refine hReachable.invariant ?_ ?_
  · rintro _ rfl
    exact ⟨fun _ _ _ => nofun, fun _ => nofun⟩
  · intro s action s' hInv hUndisturbed hStep
    exact hInv.step hUndisturbed hStep

/-- In every run in which no request is published between the publication of another
and its read, all ids are unique; and in every run, as long as the numbers do not
wrap, they are unique if and only if no call that returned `RMW_RET_OK` had a
publication in between. -/
theorem sequenceIds_unique (client : RmwClient) (uuid : DpsUuid) (s : SendState τ) :
    ((sendMachine client uuid).ReachableIf Undisturbed s → s.UniqueIds) ∧
      ((sendMachine client uuid).ReachableIf Unwrapped s →
        (s.UniqueIds ↔ ∀ call ∈ s.returned, call.ret = .ok → call.later = 0)) := by
  constructor
  · intro hReachable
    have hUnwrapped : (sendMachine client uuid).ReachableIf Unwrapped s :=
      hReachable.mono fun _ _ hUndisturbed => hUndisturbed.1
    rw [(sendInv_of_reachable hUnwrapped).uniqueIds_iff]
    exact fun call hCall _ => (aloneInv_of_reachable hReachable).returned call hCall
  · exact fun hReachable => (sendInv_of_reachable hReachable).uniqueIds_iff

end Invariant

/-! ## Two threads -/

section TwoThreads

local instance sendCbor : DpsCbor := rfcCbor
local instance sendPlatform : Platform := signedChar

/-- A client whose requests are empty. -/
def emptyClient : RmwClient := clientOf .c .nil .nil

def sendsAfter (actions : List (SendAction Bool)) : SendState Bool :=
  Transition.after (SendState.step emptyClient) (SendState.start (Vector.replicate 16 7)) actions

/-- One thread after the other. -/
def sendsInTurn : List (SendAction Bool) :=
  [.call true (.c []), .publish true, .call false (.c []), .finish true .ok, .publish false,
    .finish false .ok]

/-- The second thread publishes before the first has read its number back. -/
def sendsOverlapping : List (SendAction Bool) :=
  [.call true (.c []), .publish true, .call false (.c []), .publish false, .finish true .ok,
    .finish false .ok]

/-- The numbers of calls in turn are unique. -/
theorem sendsInTurn_unique : (sendsAfter sendsInTurn).UniqueIds ∧
    (sendsAfter sendsInTurn).returned.map SendCall.sequenceId = [some 2, some 1] := by
  have hCall : (sendMachine emptyClient (Vector.replicate 16 7)).ReachableIf Undisturbed
      (sendsAfter (sendsInTurn.take 1)) :=
    .step (e := .call true (.c [])) (.init rfl) ⟨trivial, trivial⟩ rfl
  have hPublish : (sendMachine emptyClient (Vector.replicate 16 7)).ReachableIf Undisturbed
      (sendsAfter (sendsInTurn.take 2)) := by
    have hUnwrapped : (sendsAfter (sendsInTurn.take 1)).publication.sequenceNum.toNat + 1 <
        2 ^ 32 := by decide
    refine .step (e := .publish true) hCall ⟨hUnwrapped, fun other _ _ hOther => ?_⟩ rfl
    cases other <;> cases hOther
  have hOther : (sendMachine emptyClient (Vector.replicate 16 7)).ReachableIf Undisturbed
      (sendsAfter (sendsInTurn.take 3)) :=
    .step (e := .call false (.c [])) hPublish ⟨trivial, trivial⟩ rfl
  have hFinish : (sendMachine emptyClient (Vector.replicate 16 7)).ReachableIf Undisturbed
      (sendsAfter (sendsInTurn.take 4)) :=
    .step (e := .finish true .ok) hOther ⟨trivial, trivial⟩ rfl
  have hPublishOther : (sendMachine emptyClient (Vector.replicate 16 7)).ReachableIf Undisturbed
      (sendsAfter (sendsInTurn.take 5)) := by
    have hUnwrapped : (sendsAfter (sendsInTurn.take 4)).publication.sequenceNum.toNat + 1 <
        2 ^ 32 := by decide
    refine .step (e := .publish false) hFinish ⟨hUnwrapped, fun other _ _ hOther => ?_⟩ rfl
    cases other <;> cases hOther
  have hFinishOther : (sendMachine emptyClient (Vector.replicate 16 7)).ReachableIf Undisturbed
      (sendsAfter sendsInTurn) :=
    .step (e := .finish false .ok) hPublishOther ⟨trivial, trivial⟩ rfl
  exact ⟨(sequenceIds_unique _ _ _).1 hFinishOther, by decide⟩

/-- Two calls that overlap both return `RMW_RET_OK` with the id of the second
request. -/
theorem sendsOverlapping_not_unique :
    (sendMachine emptyClient (Vector.replicate 16 7)).Reachable (sendsAfter sendsOverlapping) ∧
      (sendsAfter sendsOverlapping).returned =
        [{ sequenceNum := 2, later := 0, ret := .ok, sequenceId := some 2 },
          { sequenceNum := 1, later := 1, ret := .ok, sequenceId := some 2 }] ∧
      ¬ (sendsAfter sendsOverlapping).UniqueIds := by
  have hReturned : (sendsAfter sendsOverlapping).returned =
      [{ sequenceNum := 2, later := 0, ret := .ok, sequenceId := some 2 },
        { sequenceNum := 1, later := 1, ret := .ok, sequenceId := some 2 }] := by decide
  refine ⟨Machine.reachable_after _ _ _, hReturned, fun hUnique => ?_⟩
  have hDistinct := hUnique.distinct
  rw [hReturned] at hDistinct
  simp at hDistinct

end TwoThreads

end Messaging
end RmwDps
