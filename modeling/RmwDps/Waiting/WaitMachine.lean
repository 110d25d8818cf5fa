import RmwDps.Foundation.Transition
import RmwDps.Messaging.Listener

/-!
# Waiting

`rmw_wait` together with everything that runs beside it: the callbacks of
listeners, the triggers of guard conditions, and takes.  A step is a section that
the code runs under a mutex, or one that needs none.

No section ends with a condition mutex held, so the condition mutexes are not part
of the state: a section under one of them is one step.  An internal mutex is held
from section to section by a callback that found a condition attached; `callbacks`
is that callback's progress.
-/

namespace RmwDps
namespace Waiting

open Messaging (Listener Data)
open Transition (Machine)

/-! ## Entities -/

/-- `GuardCondition`; the two pointers are to the members of a wait set, given by its
address. -/
structure GuardCondition where
  hasTriggered : Bool
  conditionMutex : Option Nat
  conditionVariable : Option Nat
  deriving DecidableEq, Repr

def GuardCondition.new : GuardCondition :=
  { hasTriggered := false, conditionMutex := none, conditionVariable := none }

def GuardCondition.attachCondition (guard : GuardCondition) (waitSet : Nat) : GuardCondition :=
  { guard with conditionMutex := some waitSet, conditionVariable := some waitSet }

def GuardCondition.detachCondition (guard : GuardCondition) : GuardCondition :=
  { guard with conditionMutex := none, conditionVariable := none }

/-- `hasTriggered_ = true`. -/
def GuardCondition.set (guard : GuardCondition) : GuardCondition :=
  { guard with hasTriggered := true }

/-- `hasTriggered_.exchange(false)`. -/
def GuardCondition.getHasTriggered (guard : GuardCondition) : Bool × GuardCondition :=
  (guard.hasTriggered, { guard with hasTriggered := false })

/-- What `rmw_wait` waits for: the listener of a subscription, client or service, or a
guard condition. -/
inductive Waitable
  | listener (listener : Listener)
  | guardCondition (guard : GuardCondition)
  deriving DecidableEq, Repr

/-- What a callback brings: data for a listener, or a trigger for a guard condition. -/
inductive Signal
  | data (data : Data)
  | trigger
  deriving DecidableEq, Repr

namespace Waitable

/-- `hasData()` or `hasTriggered()`. -/
def ready : Waitable → Bool
  | .listener l => l.hasData
  | .guardCondition g => g.hasTriggered

def conditionMutex : Waitable → Option Nat
  | .listener l => l.conditionMutex
  | .guardCondition g => g.conditionMutex

def conditionVariable : Waitable → Option Nat
  | .listener l => l.conditionVariable
  | .guardCondition g => g.conditionVariable

def attachCondition (waitSet : Nat) : Waitable → Waitable
  | .listener l => .listener (l.attachCondition waitSet)
  | .guardCondition g => .guardCondition (g.attachCondition waitSet)

def detachCondition : Waitable → Waitable
  | .listener l => .listener l.detachCondition
  | .guardCondition g => .guardCondition g.detachCondition

/-- The change that a callback makes: `data_.push` or `hasTriggered_ = true`. -/
def accept : Signal → Waitable → Option Waitable
  | .data data, .listener l => some (.listener (l.push data))
  | .trigger, .guardCondition g => some (.guardCondition g.set)
  | _, _ => none

/-- The test of an entry after the wait: `hasData()`, or `getHasTriggered()`, which takes
the trigger. -/
def test : Waitable → Bool × Waitable
  | .listener l => (l.hasData, .listener l)
  | .guardCondition g => (g.getHasTriggered.1, .guardCondition g.getHasTriggered.2)

/-- An entity as its constructor leaves it. -/
def Fresh (entity : Waitable) : Prop :=
  entity = .listener Listener.new ∨ entity = .guardCondition GuardCondition.new

end Waitable

/-! ## Calls of `rmw_wait` -/

/-- `wait_timeout`: null, zero, or positive. -/
inductive Timeout
  | none
  | zero
  | positive
  deriving DecidableEq, Repr

/-- How far a call has come. -/
inductive WaitPhase
  /-- It has attached so many entities. -/
  | attaching (count : Nat)
  /-- It is blocked on its condition variable. -/
  | blocked
  /-- It has left the condition variable, by a notification, by itself or because its time
  has expired, and is about to evaluate the predicate. -/
  | woken (expired : Bool)
  /-- `timeout` is decided; it has tested so many entries, and detached the next entity. -/
  | filtering (timeout : Bool) (index : Nat) (detached : Bool)
  /-- It has returned `RMW_RET_TIMEOUT` or `RMW_RET_OK`. -/
  | returned (timeout : Bool)
  deriving DecidableEq, Repr

/-- A call of `rmw_wait`.  `entities` are those of the four arrays, in the order in which
the call goes through them, and `entries` says which array entries are not null.
`consumed` is a record of the run: the guard conditions whose trigger the call took. -/
structure WaitCall where
  waitSet : Nat
  entities : List Nat
  timeout : Timeout
  entries : List Bool
  consumed : List Nat
  phase : WaitPhase
  deriving DecidableEq, Repr

namespace WaitCall

def new (waitSet : Nat) (entities : List Nat) (timeout : Timeout) : WaitCall where
  waitSet := waitSet
  entities := entities
  timeout := timeout
  entries := entities.map fun _ => true
  consumed := []
  phase := .attaching 0

def setPhase (call : WaitCall) (phase : WaitPhase) : WaitCall := { call with phase }

/-- The call has not returned. -/
def InProgress (call : WaitCall) : Prop := ∀ timeout, call.phase ≠ .returned timeout

theorem inProgress_of_phase {call : WaitCall} {phase : WaitPhase} (hPhase : call.phase = phase)
    (hNot : ∀ timeout, phase ≠ .returned timeout) : call.InProgress := by
  intro timeout hReturned
  exact hNot timeout (hPhase ▸ hReturned)

/-- Where the first evaluation of the predicate leads. -/
def afterCheck (call : WaitCall) (hasData : Bool) : WaitPhase :=
  if hasData then .filtering false 0 false
  else
    match call.timeout with
    | .none | .positive => .blocked
    | .zero => .filtering true 0 false

/-- Where an evaluation of the predicate inside `wait` or `wait_for` leads. -/
def afterRecheck (hasData expired : Bool) : WaitPhase :=
  if hasData then .filtering false 0 false
  else if expired then .filtering true 0 false
  else .blocked

/-- The call after the test of its next entry. -/
def afterTest (call : WaitCall) (timeout : Bool) (index id : Nat) (entity : Waitable) : WaitCall :=
  { call with
    entries := call.entries.set index entity.test.1
    consumed := if entity.ready ∧ ¬ entity.test.2.ready then id :: call.consumed else call.consumed
    phase := .filtering timeout (index + 1) false }

end WaitCall

/-! ## The machine -/

/-- How far the callback has come that holds the internal mutex of an entity: in front of
the section under the condition mutex, between `clock.unlock()` and `notify_one()`, or in
front of its return. -/
inductive CallbackPhase
  | beforeLock (signal : Signal)
  | beforeNotify
  | beforeReturn
  deriving DecidableEq, Repr

structure WaitState where
  entities : Nat → Waitable
  callbacks : Nat → Option CallbackPhase
  calls : Nat → Option WaitCall

namespace WaitState

def setEntity (s : WaitState) (id : Nat) (entity : Waitable) : WaitState :=
  { s with entities := Function.update s.entities id entity }

def setCallback (s : WaitState) (id : Nat) (phase : Option CallbackPhase) : WaitState :=
  { s with callbacks := Function.update s.callbacks id phase }

def setCall (s : WaitState) (t : Nat) (call : WaitCall) : WaitState :=
  { s with calls := Function.update s.calls t (some call) }

/-- `check_wait_set_for_data`. -/
def checkWaitSetForData (s : WaitState) (entities : List Nat) : Bool :=
  entities.any fun id => (s.entities id).ready

/-- No call and no callback has begun. -/
def Initial (s : WaitState) : Prop :=
  (∀ id, (s.entities id).Fresh) ∧ (∀ id, s.callbacks id = none) ∧ ∀ t, s.calls t = none

end WaitState

/-- The sections, those of a call by its number and those of a callback by its entity. -/
inductive WaitAction
  | start (t waitSet : Nat) (entities : List Nat) (timeout : Timeout)
  | attach (t : Nat)
  | check (t : Nat)
  | wake (t : Nat)
  | expire (t : Nat)
  | recheck (t : Nat)
  | detach (t : Nat)
  | test (t : Nat)
  | finish (t : Nat)
  | callback (id : Nat) (signal : Signal)
  | change (id : Nat)
  | notify (id : Nat)
  | leave (id : Nat)
  | take (id : Nat)
  deriving DecidableEq, Repr

inductive WaitStep : WaitState → WaitAction → WaitState → Prop
  | start {s : WaitState} {t waitSet : Nat} {entities : List Nat} {timeout : Timeout}
      (hFresh : s.calls t = none) :
      WaitStep s (.start t waitSet entities timeout)
        (s.setCall t (WaitCall.new waitSet entities timeout))
  | attach {s : WaitState} {t id count : Nat} {call : WaitCall} (hCall : s.calls t = some call)
      (hPhase : call.phase = .attaching count) (hNext : call.entities[count]? = some id)
      (hFree : s.callbacks id = none) :
      WaitStep s (.attach t)
        ((s.setEntity id ((s.entities id).attachCondition call.waitSet)).setCall t
          (call.setPhase (.attaching (count + 1))))
  | check {s : WaitState} {t : Nat} {call : WaitCall} (hCall : s.calls t = some call)
      (hPhase : call.phase = .attaching call.entities.length) :
      WaitStep s (.check t)
        (s.setCall t (call.setPhase (call.afterCheck (s.checkWaitSetForData call.entities))))
  /-- A spurious wakeup. -/
  | wake {s : WaitState} {t : Nat} {call : WaitCall} (hCall : s.calls t = some call)
      (hPhase : call.phase = .blocked) :
      WaitStep s (.wake t) (s.setCall t (call.setPhase (.woken false)))
  | expire {s : WaitState} {t : Nat} {call : WaitCall} (hCall : s.calls t = some call)
      (hPhase : call.phase = .blocked) (hTimed : call.timeout = .positive) :
      WaitStep s (.expire t) (s.setCall t (call.setPhase (.woken true)))
  | recheck {s : WaitState} {t : Nat} {call : WaitCall} {expired : Bool}
      (hCall : s.calls t = some call) (hPhase : call.phase = .woken expired) :
      WaitStep s (.recheck t)
        (s.setCall t (call.setPhase
          (WaitCall.afterRecheck (s.checkWaitSetForData call.entities) expired)))
  | detach {s : WaitState} {t id index : Nat} {call : WaitCall} {timeout : Bool}
      (hCall : s.calls t = some call) (hPhase : call.phase = .filtering timeout index false)
      (hNext : call.entities[index]? = some id) (hFree : s.callbacks id = none) :
      WaitStep s (.detach t)
        ((s.setEntity id (s.entities id).detachCondition).setCall t
          (call.setPhase (.filtering timeout index true)))
  | test {s : WaitState} {t id index : Nat} {call : WaitCall} {timeout : Bool}
      (hCall : s.calls t = some call) (hPhase : call.phase = .filtering timeout index true)
      (hNext : call.entities[index]? = some id) :
      WaitStep s (.test t)
        ((s.setEntity id (s.entities id).test.2).setCall t
          (call.afterTest timeout index id (s.entities id)))
  | finish {s : WaitState} {t : Nat} {call : WaitCall} {timeout : Bool}
      (hCall : s.calls t = some call)
      (hPhase : call.phase = .filtering timeout call.entities.length false) :
      WaitStep s (.finish t) (s.setCall t (call.setPhase (.returned timeout)))
  /-- A callback that finds no condition attached is one section. -/
  | callbackDetached {s : WaitState} {id : Nat} {signal : Signal} {entity : Waitable}
      (hFree : s.callbacks id = none) (hMutex : (s.entities id).conditionMutex = none)
      (hAccept : (s.entities id).accept signal = some entity) :
      WaitStep s (.callback id signal) (s.setEntity id entity)
  | callbackAttached {s : WaitState} {id waitSet : Nat} {signal : Signal} {entity : Waitable}
      (hFree : s.callbacks id = none)
      (hMutex : (s.entities id).conditionMutex = some waitSet)
      (hAccept : (s.entities id).accept signal = some entity) :
      WaitStep s (.callback id signal) (s.setCallback id (some (.beforeLock signal)))
  | change {s : WaitState} {id : Nat} {signal : Signal} {entity : Waitable}
      (hCallback : s.callbacks id = some (.beforeLock signal))
      (hAccept : (s.entities id).accept signal = some entity) :
      WaitStep s (.change id) ((s.setEntity id entity).setCallback id (some .beforeNotify))
  /-- `notify_one` releases one of the calls that are blocked on the condition variable. -/
  | notifyOne {s : WaitState} {t id : Nat} {call : WaitCall}
      (hCallback : s.callbacks id = some .beforeNotify) (hCall : s.calls t = some call)
      (hVariable : (s.entities id).conditionVariable = some call.waitSet)
      (hPhase : call.phase = .blocked) :
      WaitStep s (.notify id)
        ((s.setCallback id (some .beforeReturn)).setCall t (call.setPhase (.woken false)))
  | notifyNone {s : WaitState} {id waitSet : Nat}
      (hCallback : s.callbacks id = some .beforeNotify)
      (hVariable : (s.entities id).conditionVariable = some waitSet)
      (hNobody : ∀ t call, s.calls t = some call → call.waitSet = waitSet →
        call.phase ≠ .blocked) :
      WaitStep s (.notify id) (s.setCallback id (some .beforeReturn))
  | leave {s : WaitState} {id : Nat} (hCallback : s.callbacks id = some .beforeReturn) :
      WaitStep s (.leave id) (s.setCallback id none)
  /-- `takeNextData` on a listener. -/
  | take {s : WaitState} {id : Nat} {listener : Listener} (hFree : s.callbacks id = none)
      (hListener : s.entities id = .listener listener) :
      WaitStep s (.take id)
        (s.setEntity id (.listener (Messaging.Api.exec Listener.takeNextData listener).2))

/-- Guard conditions, and no call. -/
def WaitState.idle : WaitState where
  entities := fun _ => .guardCondition GuardCondition.new
  callbacks := fun _ => none
  calls := fun _ => none

theorem WaitState.initial_idle : idle.Initial :=
  ⟨fun _ => .inr rfl, fun _ => rfl, fun _ => rfl⟩

def waitMachine : Machine WaitState WaitAction where
  init := WaitState.Initial
  step := WaitStep

/-- No entity belongs to two calls in progress: a call starts with entities that no call
in progress has. -/
def SeparateEntities (s : WaitState) : WaitAction → Prop
  | .start _ _ entities _ =>
      ∀ t call, s.calls t = some call → call.InProgress → ∀ id ∈ entities, id ∉ call.entities
  | _ => True

/-- No wait set serves two calls in progress. -/
def SeparateWaitSets (s : WaitState) : WaitAction → Prop
  | .start _ waitSet _ _ =>
      ∀ t call, s.calls t = some call → call.InProgress → call.waitSet ≠ waitSet
  | _ => True

/-- A run with one more step. -/
theorem follow {allowed : WaitState → WaitAction → Prop} {s s' : WaitState} {action : WaitAction}
    (hReachable : waitMachine.ReachableIf allowed s) (hStep : WaitStep s action s')
    (hAllowed : allowed s action) : waitMachine.ReachableIf allowed s' :=
  hReachable.step hAllowed hStep

/-! ## Calls along a step -/

namespace WaitCall

/-- The number of entries that the call has tested. -/
def tested (call : WaitCall) : Nat :=
  match call.phase with
  | .attaching _ | .blocked | .woken _ => 0
  | .filtering _ index _ => index
  | .returned _ => call.entities.length

/-- The decision whether the call reports a timeout, once it is taken. -/
def verdict (call : WaitCall) : Option Bool :=
  match call.phase with
  | .attaching _ | .blocked | .woken _ => none
  | .filtering timeout _ _ => some timeout
  | .returned timeout => some timeout

theorem tested_afterCheck (call : WaitCall) (hasData : Bool) :
    (call.setPhase (call.afterCheck hasData)).tested = 0 := by
  unfold tested setPhase afterCheck
  cases hasData <;> cases call.timeout <;> rfl

theorem tested_afterRecheck (call : WaitCall) (hasData expired : Bool) :
    (call.setPhase (afterRecheck hasData expired)).tested = 0 := by
  unfold tested setPhase afterRecheck
  cases hasData <;> cases expired <;> rfl

theorem verdict_afterCheck (call : WaitCall) (hasData : Bool) :
    (call.setPhase (call.afterCheck hasData)).verdict = none ∨
      (call.setPhase (call.afterCheck hasData)).verdict = some (! hasData) := by
  unfold verdict setPhase afterCheck
  cases hasData <;> cases call.timeout <;> simp

theorem verdict_afterRecheck (call : WaitCall) (hasData expired : Bool) :
    (call.setPhase (afterRecheck hasData expired)).verdict = none ∨
      (call.setPhase (afterRecheck hasData expired)).verdict = some (! hasData) := by
  unfold verdict setPhase afterRecheck
  cases hasData <;> cases expired <;> simp

theorem inProgress_of_verdict_none {call : WaitCall} (hNone : call.verdict = none) :
    call.InProgress := by
  intro timeout hReturned
  simp [verdict, hReturned] at hNone

theorem tested_of_verdict_none {call : WaitCall} (hNone : call.verdict = none) :
    call.tested = 0 := by
  unfold verdict at hNone
  unfold tested
  split at hNone <;> simp_all

end WaitCall

/-- What a step may do to one call: nothing, begin it, move its phase on, decide its verdict,
or test its next entry. -/
inductive CallChange (s s' : WaitState) (action : WaitAction) (t : Nat) : Prop
  | same (hAction : action ≠ .test t) (hSame : s'.calls t = s.calls t)
  | started {waitSet : Nat} {entities : List Nat} {timeout : Timeout}
      (hAction : action = .start t waitSet entities timeout) (hFresh : s.calls t = none)
      (hCall' : s'.calls t = some (WaitCall.new waitSet entities timeout))
  | moved {call : WaitCall} {phase : WaitPhase} (hAction : action ≠ .test t)
      (hCall : s.calls t = some call) (hProgress : call.InProgress)
      (hTested : (call.setPhase phase).tested = call.tested)
      (hVerdict : (call.setPhase phase).verdict = call.verdict)
      (hCall' : s'.calls t = some (call.setPhase phase))
  | decided {call : WaitCall} {phase : WaitPhase} (hCall : s.calls t = some call)
      (hTested : (call.setPhase phase).tested = call.tested) (hNone : call.verdict = none)
      (hVerdict : (call.setPhase phase).verdict = some (! s.checkWaitSetForData call.entities))
      (hEntities : s'.entities = s.entities) (hCall' : s'.calls t = some (call.setPhase phase))
  | tested {call : WaitCall} {timeout : Bool} {id : Nat} (hAction : action = .test t)
      (hCall : s.calls t = some call) (hPhase : call.phase = .filtering timeout call.tested true)
      (hNext : call.entities[call.tested]? = some id)
      (hEntities : s'.entities = Function.update s.entities id (s.entities id).test.2)
      (hCall' : s'.calls t = some (call.afterTest timeout call.tested id (s.entities id)))

section CallChange

variable {s s' : WaitState} {action : WaitAction}

theorem CallChange.of_setPhase {t' : Nat} {call : WaitCall} {phase : WaitPhase} (t : Nat)
    (hAction : action ≠ .test t) (hCall : s.calls t' = some call) (hProgress : call.InProgress)
    (hTested : (call.setPhase phase).tested = call.tested)
    (hVerdict : (call.setPhase phase).verdict = call.verdict)
    (hCalls : s'.calls = Function.update s.calls t' (some (call.setPhase phase))) :
    CallChange s s' action t := by
  by_cases hSame : t = t'
  · subst hSame
    apply CallChange.moved hAction hCall hProgress hTested hVerdict
    rw [hCalls, Function.update_self]
  · apply CallChange.same hAction
    rw [hCalls, Function.update_of_ne hSame]

/-- An evaluation of the predicate decides the verdict or leaves it open. -/
theorem CallChange.of_evaluation {t' : Nat} {call : WaitCall} {phase : WaitPhase} (t : Nat)
    (hAction : action ≠ .test t) (hCall : s.calls t' = some call)
    (hTested : (call.setPhase phase).tested = call.tested) (hNone : call.verdict = none)
    (hVerdict : (call.setPhase phase).verdict = none ∨
      (call.setPhase phase).verdict = some (! s.checkWaitSetForData call.entities)) :
    CallChange s (s.setCall t' (call.setPhase phase)) action t := by
  rcases hVerdict with hOpen | hDecided
  · have hProgress : call.InProgress := WaitCall.inProgress_of_verdict_none hNone
    exact CallChange.of_setPhase t hAction hCall hProgress hTested (hOpen.trans hNone.symm) rfl
  · by_cases hSame : t = t'
    · subst hSame
      exact CallChange.decided hCall hTested hNone hDecided rfl (Function.update_self ..)
    · exact CallChange.same hAction (Function.update_of_ne hSame _ _)

theorem WaitStep.callChange (hStep : WaitStep s action s') (t : Nat) :
    CallChange s s' action t := by
  cases hStep with
  | @start t' waitSet entities timeout hFresh =>
      by_cases hSame : t = t'
      · subst hSame
        exact .started rfl hFresh (Function.update_self ..)
      · exact .same (by simp) (Function.update_of_ne hSame _ _)
  | attach hCall hPhase | wake hCall hPhase | expire hCall hPhase | detach hCall hPhase
  | finish hCall hPhase | notifyOne _ hCall _ hPhase =>
      apply CallChange.of_setPhase t _ hCall _ _ _ rfl
      · simp
      · exact WaitCall.inProgress_of_phase hPhase (by simp)
      · simp [WaitCall.tested, WaitCall.setPhase, hPhase]
      · simp [WaitCall.verdict, WaitCall.setPhase, hPhase]
  | check hCall hPhase =>
      apply CallChange.of_evaluation t _ hCall _ _ (WaitCall.verdict_afterCheck _ _)
      · simp
      · rw [WaitCall.tested_afterCheck, WaitCall.tested, hPhase]
      · rw [WaitCall.verdict, hPhase]
  | recheck hCall hPhase =>
      apply CallChange.of_evaluation t _ hCall _ _ (WaitCall.verdict_afterRecheck _ _ _)
      · simp
      · rw [WaitCall.tested_afterRecheck, WaitCall.tested, hPhase]
      · rw [WaitCall.verdict, hPhase]
  | @test t' id index call timeout hCall hPhase hNext =>
      by_cases hSame : t = t'
      · subst hSame
        have hTested : call.tested = index := by simp [WaitCall.tested, hPhase]
        subst hTested
        exact .tested rfl hCall hPhase hNext rfl (Function.update_self ..)
      · apply CallChange.same _ (Function.update_of_ne hSame _ _)
        simp [Ne.symm hSame]
  | callbackDetached | callbackAttached | change | notifyNone | leave | take =>
      exact .same (by simp) rfl

/-- Where a call of the next state comes from: the same call, unless it has begun. -/
theorem CallChange.origin {t : Nat} {call' : WaitCall} (hChange : CallChange s s' action t)
    (hCall' : s'.calls t = some call') :
    (∃ call, s.calls t = some call ∧ call'.entities = call.entities ∧
        call'.waitSet = call.waitSet ∧ (call'.InProgress → call.InProgress)) ∨
      ∃ waitSet entities timeout, action = .start t waitSet entities timeout ∧
        call' = WaitCall.new waitSet entities timeout := by
  rcases hChange with ⟨_, hSame⟩ | ⟨hAction, _, hNew⟩ | ⟨_, hCall, hProgress, _, _, hMoved⟩ |
    ⟨hCall, _, hNone, _, _, hDecided⟩ | ⟨_, hCall, hPhase, _, _, hTested⟩
  · exact .inl ⟨call', hSame ▸ hCall', rfl, rfl, fun hProgress => hProgress⟩
  · obtain rfl := Option.some.inj (hNew.symm.trans hCall')
    exact .inr ⟨_, _, _, hAction, rfl⟩
  · obtain rfl := Option.some.inj (hMoved.symm.trans hCall')
    exact .inl ⟨_, hCall, rfl, rfl, fun _ => hProgress⟩
  · obtain rfl := Option.some.inj (hDecided.symm.trans hCall')
    exact .inl ⟨_, hCall, rfl, rfl, fun _ => WaitCall.inProgress_of_verdict_none hNone⟩
  · obtain rfl := Option.some.inj (hTested.symm.trans hCall')
    exact .inl ⟨_, hCall, rfl, rfl, fun _ => WaitCall.inProgress_of_phase hPhase (by simp)⟩

/-- Any two calls in progress are related. -/
def WaitState.Pairwise (R : WaitCall → WaitCall → Prop) (s : WaitState) : Prop :=
  ∀ t t' call call', s.calls t = some call → s.calls t' = some call' → t ≠ t' →
    call.InProgress → call'.InProgress → R call call'

theorem WaitState.Pairwise.of_initial {R : WaitCall → WaitCall → Prop} (hInit : s.Initial) :
    s.Pairwise R := by
  intro t t' call call' hCall
  rw [hInit.2.2 t] at hCall
  cases hCall

/-- A relation that depends on entities and wait sets alone is kept, if a new call has it
to all calls in progress. -/
theorem WaitState.Pairwise.step {R : WaitCall → WaitCall → Prop}
    (hSymm : ∀ call call', R call call' → R call' call)
    (hCongr : ∀ call call' other, call'.entities = call.entities → call'.waitSet = call.waitSet →
      R call other → R call' other)
    (hStart : ∀ t waitSet entities timeout, action = .start t waitSet entities timeout →
      ∀ t' call, s.calls t' = some call → call.InProgress →
        R (WaitCall.new waitSet entities timeout) call)
    (hPairwise : s.Pairwise R) (hStep : WaitStep s action s') : s'.Pairwise R := by
  intro t₁ t₂ call₁ call₂ hCall₁ hCall₂ hNe hProgress₁ hProgress₂
  rcases (hStep.callChange t₁).origin hCall₁ with
    ⟨before₁, hBefore₁, hEntities₁, hSet₁, hStill₁⟩ | ⟨waitSet, entities, timeout, hAction₁, rfl⟩
  · rcases (hStep.callChange t₂).origin hCall₂ with
      ⟨before₂, hBefore₂, hEntities₂, hSet₂, hStill₂⟩ | ⟨waitSet, entities, timeout, hAction₂, rfl⟩
    · have hR := hPairwise t₁ t₂ before₁ before₂ hBefore₁ hBefore₂ hNe (hStill₁ hProgress₁)
        (hStill₂ hProgress₂)
      -- Neither call is new, so the relation is carried over on both sides.
      have hR₁ : R call₁ before₂ := hCongr before₁ call₁ before₂ hEntities₁ hSet₁ hR
      exact hSymm _ _ (hCongr before₂ call₂ call₁ hEntities₂ hSet₂ (hSymm _ _ hR₁))
    · have hR := hStart t₂ waitSet entities timeout hAction₂ t₁ before₁ hBefore₁
        (hStill₁ hProgress₁)
      exact hCongr before₁ call₁ _ hEntities₁ hSet₁ (hSymm _ _ hR)
  · rcases (hStep.callChange t₂).origin hCall₂ with
      ⟨before₂, hBefore₂, hEntities₂, hSet₂, hStill₂⟩ | ⟨_, _, _, hAction₂, _⟩
    · have hR := hStart t₁ waitSet entities timeout hAction₁ t₂ before₂ hBefore₂
        (hStill₂ hProgress₂)
      exact hSymm _ _ (hCongr before₂ call₂ _ hEntities₂ hSet₂ (hSymm _ _ hR))
    · rw [hAction₁] at hAction₂
      cases hAction₂
      exact absurd rfl hNe

/-- Calls have no entity in common. -/
def WaitCall.EntitiesApart (call call' : WaitCall) : Prop :=
  ∀ id ∈ call.entities, id ∉ call'.entities

theorem WaitState.entitiesApart_step (hPairwise : s.Pairwise WaitCall.EntitiesApart)
    (hAllowed : SeparateEntities s action) (hStep : WaitStep s action s') :
    s'.Pairwise WaitCall.EntitiesApart := by
  apply hPairwise.step _ _ _ hStep
  · intro call call' hApart id hId hId'
    exact hApart id hId' hId
  · intro call call' other hEntities _ hApart
    unfold WaitCall.EntitiesApart at hApart ⊢
    rwa [hEntities]
  · rintro t waitSet entities timeout rfl t' call hCall hProgress
    exact hAllowed t' call hCall hProgress

theorem WaitState.waitSetsApart_step
    (hPairwise : s.Pairwise fun call call' => call.waitSet ≠ call'.waitSet)
    (hAllowed : SeparateWaitSets s action) (hStep : WaitStep s action s') :
    s'.Pairwise fun call call' => call.waitSet ≠ call'.waitSet := by
  apply hPairwise.step _ _ _ hStep
  · intro call call' hApart
    exact hApart.symm
  · intro call call' other _ hSet hApart
    rwa [hSet]
  · rintro t waitSet entities timeout rfl t' call hCall hProgress
    exact (hAllowed t' call hCall hProgress).symm

/-- A call has one entry for each entity. -/
def WaitState.Aligned (s : WaitState) : Prop :=
  ∀ t call, s.calls t = some call → call.entries.length = call.entities.length

theorem WaitState.Aligned.step (hAligned : s.Aligned) (hStep : WaitStep s action s') :
    s'.Aligned := by
  intro t call' hCall'
  rcases hStep.callChange t with ⟨_, hSame⟩ | ⟨_, _, hNew⟩ | ⟨_, hCall, _, _, _, hMoved⟩ |
    ⟨hCall, _, _, _, _, hDecided⟩ | ⟨_, hCall, _, _, _, hTested⟩
  · exact hAligned t call' (hSame ▸ hCall')
  · obtain rfl := Option.some.inj (hNew.symm.trans hCall')
    simp [WaitCall.new]
  · obtain rfl := Option.some.inj (hMoved.symm.trans hCall')
    have hLength := hAligned t _ hCall
    exact hLength
  · obtain rfl := Option.some.inj (hDecided.symm.trans hCall')
    have hLength := hAligned t _ hCall
    exact hLength
  · obtain rfl := Option.some.inj (hTested.symm.trans hCall')
    simp only [WaitCall.afterTest, List.length_set]
    exact hAligned t _ hCall

theorem aligned_of_reachable {s : WaitState} (hReachable : waitMachine.Reachable s) :
    s.Aligned := by
  apply hReachable.invariant
  · intro s hInit t call hCall
    rw [hInit.2.2 t] at hCall
    cases hCall
  · intro s action s' hAligned hStep
    exact hAligned.step hStep

end CallChange

/-! ## What the operations on entities leave as it was -/

section Waitable

variable {entity entity' : Waitable} {signal : Signal} {waitSet : Nat}

@[simp] theorem Waitable.ready_attachCondition :
    (entity.attachCondition waitSet).ready = entity.ready := by
  cases entity <;> rfl

@[simp] theorem Waitable.ready_detachCondition : entity.detachCondition.ready = entity.ready := by
  cases entity <;> rfl

@[simp] theorem Waitable.conditionMutex_attachCondition :
    (entity.attachCondition waitSet).conditionMutex = some waitSet := by
  cases entity <;> rfl

@[simp] theorem Waitable.conditionVariable_attachCondition :
    (entity.attachCondition waitSet).conditionVariable = some waitSet := by
  cases entity <;> rfl

@[simp] theorem Waitable.conditionMutex_test :
    entity.test.2.conditionMutex = entity.conditionMutex := by
  cases entity <;> rfl

@[simp] theorem Waitable.conditionVariable_test :
    entity.test.2.conditionVariable = entity.conditionVariable := by
  cases entity <;> rfl

@[simp] theorem Waitable.test_fst : entity.test.1 = entity.ready := by
  cases entity <;> rfl

/-- A test never makes an entity ready. -/
theorem Waitable.ready_of_ready_test (hReady : entity.test.2.ready = true) :
    entity.ready = true := by
  cases entity with
  | listener l => exact hReady
  | guardCondition g => cases hReady

section AfterTest

variable {call : WaitCall} {timeout : Bool} {index id : Nat}

@[simp] theorem WaitCall.tested_afterTest :
    (call.afterTest timeout index id entity).tested = index + 1 := rfl

@[simp] theorem WaitCall.entities_afterTest :
    (call.afterTest timeout index id entity).entities = call.entities := rfl

@[simp] theorem WaitCall.entries_afterTest :
    (call.afterTest timeout index id entity).entries = call.entries.set index entity.ready := by
  simp [afterTest]

@[simp] theorem WaitState.calls_setCall_self {s : WaitState} {t : Nat} :
    (s.setCall t call).calls t = some call :=
  Function.update_self ..

theorem WaitState.calls_setCall_of_ne {s : WaitState} {t t' : Nat} (hNe : t' ≠ t) :
    (s.setCall t call).calls t' = s.calls t' :=
  Function.update_of_ne hNe _ _

end AfterTest

theorem Waitable.accept_conditionMutex (hAccept : entity.accept signal = some entity') :
    entity'.conditionMutex = entity.conditionMutex := by
  cases signal <;> cases entity <;> cases hAccept <;> rfl

theorem Waitable.accept_conditionVariable (hAccept : entity.accept signal = some entity') :
    entity'.conditionVariable = entity.conditionVariable := by
  cases signal <;> cases entity <;> cases hAccept <;> rfl

theorem Waitable.accept_ready (hAccept : entity.accept signal = some entity') :
    entity'.ready = true := by
  cases signal <;> cases entity <;> cases hAccept
  · simp [ready, Listener.hasData, Listener.push]
  · rfl

end Waitable

/-- A take leaves the pointers, and never makes a listener ready. -/
theorem ready_of_ready_take {listener : Listener}
    (hReady : (Messaging.Api.exec Listener.takeNextData listener).2.hasData = true) :
    listener.hasData = true := by
  cases hData : listener.data with
  | nil =>
      have hSame : (Messaging.Api.exec Listener.takeNextData listener).2 = listener := by
        unfold Messaging.Api.exec Listener.takeNextData
        simp only [ExceptT.run_mk, StateT.run, hData]
      rwa [hSame] at hReady
  | cons data rest => simp [Listener.hasData, hData]

theorem take_conditionMutex (listener : Listener) :
    (Messaging.Api.exec Listener.takeNextData listener).2.conditionMutex =
      listener.conditionMutex := by
  unfold Messaging.Api.exec Listener.takeNextData
  simp only [ExceptT.run_mk, StateT.run]
  split <;> rfl

theorem take_conditionVariable (listener : Listener) :
    (Messaging.Api.exec Listener.takeNextData listener).2.conditionVariable =
      listener.conditionVariable := by
  unfold Messaging.Api.exec Listener.takeNextData
  simp only [ExceptT.run_mk, StateT.run]
  split <;> rfl

/-! ## Readiness along a step -/

/-- The entity that an action pushes data to, or triggers. -/
def WaitState.arrival (s : WaitState) : WaitAction → Option Nat
  | .callback id _ => if (s.entities id).conditionMutex = none then some id else none
  | .change id => some id
  | _ => none

section Readiness

variable {s s' : WaitState} {action : WaitAction} {id : Nat}

/-- An entity that changes readiness is the one that is set. -/
theorem WaitState.ready_setEntity {other : Nat} {entity : Waitable}
    (hKeeps : id = other → entity.ready = (s.entities id).ready) :
    ((s.setEntity other entity).entities id).ready = (s.entities id).ready := by
  by_cases hSame : id = other
  · have hReady := hKeeps hSame
    simpa [setEntity, hSame] using hReady
  · simp [setEntity, hSame]

/-- Only a take empties a queue, and only the call that lists it clears a guard condition. -/
theorem WaitStep.ready_or_cleared (hStep : WaitStep s action s')
    (hReady : (s.entities id).ready = true) :
    (s'.entities id).ready = true ∨ action = .take id ∨
      ∃ t call, action = .test t ∧ s.calls t = some call ∧ call.InProgress ∧
        id ∈ call.entities := by
  cases hStep with
  | start | check | wake | expire | recheck | finish | callbackAttached | notifyOne | notifyNone
  | leave => exact .inl hReady
  | attach | detach =>
      left
      refine (WaitState.ready_setEntity ?_).trans hReady
      rintro rfl
      simp
  | @test t other index call timeout hCall hPhase hNext =>
      by_cases hSame : id = other
      · subst hSame
        have hProgress : call.InProgress := WaitCall.inProgress_of_phase hPhase (by simp)
        exact .inr (.inr ⟨t, call, rfl, hCall, hProgress, List.mem_of_getElem? hNext⟩)
      · left
        exact (WaitState.ready_setEntity fun hEqual => absurd hEqual hSame).trans hReady
  | callbackDetached _ _ hAccept | change _ hAccept =>
      left
      refine (WaitState.ready_setEntity ?_).trans hReady
      intro _
      rw [Waitable.accept_ready hAccept, hReady]
  | @take other =>
      by_cases hSame : id = other
      · exact .inr (.inl (hSame ▸ rfl))
      · left
        exact (WaitState.ready_setEntity fun hEqual => absurd hEqual hSame).trans hReady

/-- Only a callback makes an entity ready. -/
theorem WaitStep.arrival_of_ready (hStep : WaitStep s action s')
    (hBefore : (s.entities id).ready = false) (hReady : (s'.entities id).ready = true) :
    s.arrival action = some id := by
  have hNotSame : (s'.entities id).ready ≠ (s.entities id).ready := by
    rw [hBefore, hReady]
    decide
  cases hStep with
  | start | check | wake | expire | recheck | finish | callbackAttached | notifyOne | notifyNone
  | leave => exact absurd rfl hNotSame
  | attach | detach =>
      apply absurd (WaitState.ready_setEntity _) hNotSame
      rintro rfl
      simp
  | @test t other =>
      apply absurd (WaitState.ready_setEntity _) hNotSame
      rintro rfl
      rw [hBefore]
      -- A test may clear a guard condition, but it sets none.
      by_contra hTested
      rw [Bool.not_eq_false] at hTested
      rw [Waitable.ready_of_ready_test hTested] at hBefore
      cases hBefore
  | @callbackDetached other _ _ _ hMutex =>
      by_cases hSame : id = other
      · simp [WaitState.arrival, hSame, hMutex]
      · exact absurd (WaitState.ready_setEntity fun hEqual => absurd hEqual hSame) hNotSame
  | @change other =>
      by_cases hSame : id = other
      · simp [WaitState.arrival, hSame]
      · exact absurd (WaitState.ready_setEntity fun hEqual => absurd hEqual hSame) hNotSame
  | @take other listener _ hListener =>
      apply absurd (WaitState.ready_setEntity _) hNotSame
      rintro rfl
      rw [hBefore]
      by_contra hTaken
      rw [Bool.not_eq_false] at hTaken
      rw [hListener] at hBefore
      -- A take leaves data behind only if there was some before.
      have hHad : listener.hasData = true := ready_of_ready_take hTaken
      exact absurd (hHad.symm.trans hBefore) (by decide)

end Readiness

end Waiting
end RmwDps
