import RmwDps.Foundation.Locking
import RmwDps.Waiting.WaitMachine

/-!
# The order of the mutexes

Every mutex of the wait and discovery machinery, locked and unlocked one at a time by
the code of `rmw_wait`, of the callbacks, of takes, of graph queries and of the create
and destroy functions.

Two mutexes are held together in one place only: a callback holds the internal mutex
of an entity when it locks the condition mutex that is attached there.  So internal
mutexes rank below condition mutexes, and the others, which are held alone, rank below
both.
-/

namespace RmwDps
namespace Waiting

open Locking (Instruction System Ordered WaitsFor)
open Transition (Machine)

/-! ## Mutexes and actions -/

/-- The mutexes, by the number of the listener or guard condition, of the wait set, or of
the node that has them. -/
inductive Mutex
  /-- `internalMutex_` of a `Listener` or `GuardCondition`. -/
  | internal (id : Nat)
  /-- `condition_mutex`. -/
  | condition (waitSet : Nat)
  /-- `NodeListener::mutex_`. -/
  | nodes (node : Nat)
  | publishers (node : Nat)
  | subscribers (node : Nat)
  | discovery (node : Nat)
  deriving DecidableEq, Repr

/-- The place of a mutex in the order. -/
def Mutex.rank : Mutex → Fin 3
  | .nodes _ | .publishers _ | .subscribers _ | .discovery _ => 0
  | .internal _ => 1
  | .condition _ => 2

/-- What a thread does between locking and unlocking.  `elsewhere` stands for what
touches neither a mutex nor an entity: the map, the registries, the payload, DPS, and
being blocked on a condition variable. -/
inductive Act
  | attachCondition (id waitSet : Nat)
  | detachCondition (id : Nat)
  /-- The body of `onPublication`, `onAcknowledgement` and `trigger` behind
  `lock_guard`. -/
  | callback (id : Nat) (signal : Signal)
  /-- `data_.push` or `hasTriggered_ = true`. -/
  | change (id : Nat) (signal : Signal)
  /-- The evaluation that decides whether `rmw_wait` is to wait. -/
  | check (waitSet : Nat) (entities : List Nat) (timeout : Timeout)
  /-- An evaluation of the predicate inside `wait` or `wait_for`. -/
  | recheck (waitSet : Nat) (entities : List Nat) (timeout : Timeout)
  /-- `hasData()`, or `getHasTriggered()`, behind the wait. -/
  | test (id : Nat)
  | take (id : Nat)
  | elsewhere
  deriving DecidableEq, Repr

abbrev LockCode := Locking.Code Mutex Act

/-- A section under one mutex. -/
def underLock (mutex : Mutex) (act : Act) : LockCode := [.lock mutex, .act act, .unlock mutex]

/-! ## Operations -/

/-- `Listener::onPublication`, `Listener::onAcknowledgement`, `GuardCondition::trigger`. -/
def callbackCode (id : Nat) (signal : Signal) : LockCode :=
  underLock (.internal id) (.callback id signal)

/-- The branch of a callback that found a condition mutex: the change under that mutex,
and `notify_one` without it. -/
def attachedCode (id waitSet : Nat) (signal : Signal) : LockCode :=
  underLock (.condition waitSet) (.change id signal) ++ [.act .elsewhere]

/-- One turn of the condition variable: the mutex is released, and locked again before
`next`. -/
def sleepCode (waitSet : Nat) (next : Act) : LockCode :=
  [.unlock (.condition waitSet), .act .elsewhere, .lock (.condition waitSet), .act next]

/-- `rmw_wait` on the entities of its four arrays. -/
def rmwWaitCode (waitSet : Nat) (entities : List Nat) (timeout : Timeout) : LockCode :=
  entities.flatMap (fun id => underLock (.internal id) (.attachCondition id waitSet)) ++
    underLock (.condition waitSet) (.check waitSet entities timeout) ++
    entities.flatMap fun id => underLock (.internal id) (.detachCondition id) ++ [.act (.test id)]

/-- `NodeListener::onDiscovery`.  What the event finds in the map decides which of the
later sections it enters, and whether it triggers the graph guard condition. -/
def onDiscoveryCode (node graphGuardCondition : Nat)
    (subscribersChanged publishersChanged trigger : Bool) : LockCode :=
  underLock (.nodes node) .elsewhere ++
    (if subscribersChanged then underLock (.publishers node) .elsewhere else []) ++
    (if publishersChanged then underLock (.subscribers node) .elsewhere else []) ++
    (if trigger then callbackCode graphGuardCondition .trigger else [])

inductive EntityKind
  | publisher
  | subscription
  | service
  | client
  deriving DecidableEq, Repr

/-- The mutex of the registry of a kind; services and clients have none. -/
def EntityKind.registryCode (node : Nat) : EntityKind → LockCode
  | .publisher => underLock (.publishers node) .elsewhere
  | .subscription => underLock (.subscribers node) .elsewhere
  | .service | .client => []

/-- How a create function ends: at a point of failure in front of the publish, by a
publish that fails, or with the entity. -/
inductive CreateOutcome
  | failsEarly
  | failsToPublish
  | created
  deriving DecidableEq, Repr

/-- The create functions.  `discovery_mutex_` is held around the publish. -/
def createCode (node : Nat) (kind : EntityKind) : CreateOutcome → LockCode
  | .failsEarly => [.act .elsewhere]
  | .failsToPublish => [.act .elsewhere] ++ underLock (.discovery node) .elsewhere
  | .created =>
      [.act .elsewhere] ++ underLock (.discovery node) .elsewhere ++ kind.registryCode node

/-- How far a destroy function goes: not past the tests of its handles, past them without an
info, with the info of a handle that has no topic name, or through all of it. -/
inductive DestroyOutcome
  | refused
  | withoutInfo
  | withoutName
  | destroyed
  deriving DecidableEq, Repr

/-- The destroy functions.  The registry is looked up by the topic name of the handle. -/
def destroyCode (node : Nat) (kind : EntityKind) : DestroyOutcome → LockCode
  | .refused | .withoutInfo => [.act .elsewhere]
  | .withoutName => underLock (.discovery node) .elsewhere ++ [.act .elsewhere]
  | .destroyed =>
      kind.registryCode node ++ underLock (.discovery node) .elsewhere ++ [.act .elsewhere]

inductive WaitOp
  | rmwWait (waitSet : Nat) (entities : List Nat) (timeout : Timeout)
  | callback (id : Nat) (signal : Signal)
  | takeNextData (id : Nat)
  | onDiscovery (node graphGuardCondition : Nat)
      (subscribersChanged publishersChanged trigger : Bool)
  | graphQuery (node : Nat)
  | create (node : Nat) (kind : EntityKind) (outcome : CreateOutcome)
  | destroy (node : Nat) (kind : EntityKind) (outcome : DestroyOutcome)
  deriving DecidableEq, Repr

def WaitOp.code : WaitOp → LockCode
  | .rmwWait waitSet entities timeout => rmwWaitCode waitSet entities timeout
  | .callback id signal => callbackCode id signal
  | .takeNextData id => underLock (.internal id) (.take id)
  | .onDiscovery node graphGuardCondition subscribersChanged publishersChanged trigger =>
      onDiscoveryCode node graphGuardCondition subscribersChanged publishersChanged trigger
  | .graphQuery node => underLock (.nodes node) .elsewhere
  | .create node kind outcome => createCode node kind outcome
  | .destroy node kind outcome => destroyCode node kind outcome

/-! ## What the actions do -/

/-- The listeners and guard conditions, by number. -/
abbrev Entities := Nat → Waitable

/-- `takeNextData`; a take is from a listener. -/
def takeFrom : Waitable → Waitable
  | .listener listener =>
      .listener (Messaging.Api.exec Messaging.Listener.takeNextData listener).2
  | .guardCondition guard => .guardCondition guard

/-- The action on the entities, and the code that it puts in front. -/
inductive ActEffect (entities : Entities) : Act → Entities → LockCode → Prop
  | attachCondition {id waitSet : Nat} :
      ActEffect entities (.attachCondition id waitSet)
        (Function.update entities id ((entities id).attachCondition waitSet)) []
  | detachCondition {id : Nat} :
      ActEffect entities (.detachCondition id)
        (Function.update entities id (entities id).detachCondition) []
  | callbackDetached {id : Nat} {signal : Signal} (hMutex : (entities id).conditionMutex = none) :
      ActEffect entities (.callback id signal) entities [.act (.change id signal)]
  | callbackAttached {id waitSet : Nat} {signal : Signal}
      (hMutex : (entities id).conditionMutex = some waitSet) :
      ActEffect entities (.callback id signal) entities (attachedCode id waitSet signal)
  /-- A callback is for an entity of its own kind, so there is something to accept. -/
  | change {id : Nat} {signal : Signal} :
      ActEffect entities (.change id signal)
        (Function.update entities id (((entities id).accept signal).getD (entities id))) []
  | checkReady {waitSet : Nat} {ids : List Nat} {timeout : Timeout}
      (hReady : (ids.any fun id => (entities id).ready) = true ∨ timeout = .zero) :
      ActEffect entities (.check waitSet ids timeout) entities []
  | checkWaits {waitSet : Nat} {ids : List Nat} {timeout : Timeout}
      (hReady : (ids.any fun id => (entities id).ready) = false) (hTimeout : timeout ≠ .zero) :
      ActEffect entities (.check waitSet ids timeout) entities
        [.act (.recheck waitSet ids timeout)]
  | recheckReady {waitSet : Nat} {ids : List Nat} {timeout : Timeout}
      (hReady : (ids.any fun id => (entities id).ready) = true) :
      ActEffect entities (.recheck waitSet ids timeout) entities []
  | recheckSleeps {waitSet : Nat} {ids : List Nat} {timeout : Timeout}
      (hReady : (ids.any fun id => (entities id).ready) = false) :
      ActEffect entities (.recheck waitSet ids timeout) entities
        (sleepCode waitSet (.recheck waitSet ids timeout))
  /-- The time runs out during this sleep: the last evaluation decides the result only. -/
  | recheckExpires {waitSet : Nat} {ids : List Nat}
      (hReady : (ids.any fun id => (entities id).ready) = false) :
      ActEffect entities (.recheck waitSet ids .positive) entities (sleepCode waitSet .elsewhere)
  | test {id : Nat} :
      ActEffect entities (.test id) (Function.update entities id (entities id).test.2) []
  | take {id : Nat} :
      ActEffect entities (.take id) (Function.update entities id (takeFrom (entities id))) []
  | elsewhere : ActEffect entities .elsewhere entities []

def lockSystem : System Mutex Entities Act WaitOp where
  code := WaitOp.code
  effect := ActEffect

/-- Any number of threads, over listeners and guard conditions as they are constructed. -/
def lockMachine : Machine (Locking.State Nat Mutex Entities Act) Nat :=
  lockSystem.machine fun entities => ∀ id, (entities id).Fresh

/-! ## The discipline -/

/-- The mutexes that an action needs, and with which it is compatible. -/
def Act.allowed : Act → List Mutex → Prop
  | .callback id _, held => held = [.internal id]
  | .check waitSet _ _, held | .recheck waitSet _ _, held => held = [.condition waitSet]
  | _, _ => True

abbrev LockOrdered : List Mutex → LockCode → Prop := Ordered Mutex.rank Act.allowed

/-- A section that starts with nothing held. -/
theorem lockOrdered_underLock {mutex : Mutex} {act : Act} {rest : LockCode}
    (hAct : act.allowed [mutex]) (hRest : LockOrdered [] rest) :
    LockOrdered [] (underLock mutex act ++ rest) := by
  refine ⟨by simp, hAct, List.mem_cons_self, ?_⟩
  rwa [List.erase_cons_head]

theorem lockOrdered_flatMap {ids : List Nat} {code : Nat → LockCode} {rest : LockCode}
    (hCode : ∀ id rest, LockOrdered [] rest → LockOrdered [] (code id ++ rest))
    (hRest : LockOrdered [] rest) : LockOrdered [] (ids.flatMap code ++ rest) := by
  induction ids with
  | nil => exact hRest
  | cons id ids ih =>
      rw [List.flatMap_cons, List.append_assoc]
      exact hCode id _ ih

theorem lockOrdered_rmwWaitCode (waitSet : Nat) (entities : List Nat) (timeout : Timeout) :
    LockOrdered [] (rmwWaitCode waitSet entities timeout) := by
  rw [rmwWaitCode, List.append_assoc]
  refine lockOrdered_flatMap (fun id rest => lockOrdered_underLock trivial) ?_
  refine lockOrdered_underLock rfl ?_
  rw [← List.append_nil (entities.flatMap _)]
  refine lockOrdered_flatMap (fun id rest hRest => ?_) rfl
  rw [List.append_assoc]
  exact lockOrdered_underLock trivial ⟨trivial, hRest⟩

theorem lockOrdered_registryCode (node : Nat) (kind : EntityKind) {rest : LockCode}
    (hRest : LockOrdered [] rest) : LockOrdered [] (kind.registryCode node ++ rest) := by
  cases kind with
  | publisher => exact lockOrdered_underLock trivial hRest
  | subscription => exact lockOrdered_underLock trivial hRest
  | service => exact hRest
  | client => exact hRest

theorem lockOrdered_onDiscoveryCode (node graphGuardCondition : Nat)
    (subscribersChanged publishersChanged trigger : Bool) :
    LockOrdered [] (onDiscoveryCode node graphGuardCondition subscribersChanged
      publishersChanged trigger) := by
  have hIf : ∀ (b : Bool) {code rest : LockCode},
      (LockOrdered [] rest → LockOrdered [] (code ++ rest)) → LockOrdered [] rest →
        LockOrdered [] ((if b then code else []) ++ rest) := by
    intro b code rest hCode hRest
    cases b with
    | false => exact hRest
    | true => exact hCode hRest
  rw [onDiscoveryCode, List.append_assoc, List.append_assoc,
    ← List.append_nil (if trigger then _ else _)]
  refine lockOrdered_underLock trivial (hIf _ (lockOrdered_underLock trivial) ?_)
  refine hIf _ (lockOrdered_underLock trivial) (hIf _ ?_ rfl)
  exact lockOrdered_underLock rfl

theorem lockOrdered_code (op : WaitOp) : LockOrdered [] op.code := by
  cases op with
  | rmwWait waitSet entities timeout => exact lockOrdered_rmwWaitCode waitSet entities timeout
  | callback id signal => exact lockOrdered_underLock rfl rfl
  | takeNextData id => exact lockOrdered_underLock trivial rfl
  | onDiscovery node graphGuardCondition subscribersChanged publishersChanged trigger =>
      exact lockOrdered_onDiscoveryCode _ _ _ _ _
  | graphQuery node => exact lockOrdered_underLock trivial rfl
  | create node kind outcome =>
      cases outcome with
      | failsEarly => exact ⟨trivial, rfl⟩
      | failsToPublish => exact ⟨trivial, lockOrdered_underLock trivial rfl⟩
      | created =>
          refine ⟨trivial, lockOrdered_underLock trivial ?_⟩
          rw [← List.append_nil (kind.registryCode node)]
          exact lockOrdered_registryCode node kind rfl
  | destroy node kind outcome =>
      have hRemoves :
          LockOrdered [] (underLock (.discovery node) .elsewhere ++ [.act .elsewhere]) :=
        lockOrdered_underLock trivial ⟨trivial, rfl⟩
      cases outcome with
      | refused | withoutInfo => exact ⟨trivial, rfl⟩
      | withoutName => exact hRemoves
      | destroyed =>
          show LockOrdered [] (destroyCode node kind .destroyed)
          rw [destroyCode, List.append_assoc]
          exact lockOrdered_registryCode node kind hRemoves

/-- An allowed action leaves the code ordered.  Only a callback that finds a condition
mutex attached locks something while it holds something. -/
theorem lockOrdered_effect {held : List Mutex} {entities entities' : Entities} {act : Act}
    {front rest : LockCode} (hAllowed : act.allowed held)
    (hEffect : ActEffect entities act entities' front) (hRest : LockOrdered held rest) :
    LockOrdered held (front ++ rest) := by
  have hSleep : ∀ {waitSet : Nat} {next : Act}, next.allowed [.condition waitSet] →
      LockOrdered [.condition waitSet] rest →
        LockOrdered [.condition waitSet] (sleepCode waitSet next ++ rest) := by
    intro waitSet next hNext hRest
    refine ⟨List.mem_cons_self, ?_⟩
    rw [List.erase_cons_head]
    exact ⟨trivial, by simp, hNext, hRest⟩
  cases hEffect with
  | attachCondition | detachCondition | change | checkReady | recheckReady | test | take
  | elsewhere => exact hRest
  | callbackDetached => exact ⟨trivial, hRest⟩
  | @callbackAttached id waitSet signal hMutex =>
      have hHeld : held = [.internal id] := hAllowed
      subst hHeld
      -- The only place where a mutex is locked while another is held.
      have hBelow : Mutex.rank (.internal id) < Mutex.rank (.condition waitSet) := by
        show (1 : Fin 3) < 2
        decide
      refine ⟨by simpa using hBelow, trivial, List.mem_cons_self, ?_⟩
      rw [List.erase_cons_head]
      exact ⟨trivial, hRest⟩
  | checkWaits => exact ⟨hAllowed, hRest⟩
  | @recheckSleeps waitSet ids timeout hReady =>
      have hHeld : held = [.condition waitSet] := hAllowed
      subst hHeld
      exact hSleep rfl hRest
  | @recheckExpires waitSet ids hReady =>
      have hHeld : held = [.condition waitSet] := hAllowed
      subst hHeld
      exact hSleep trivial hRest

theorem lockSystem_disciplined : lockSystem.Disciplined Mutex.rank Act.allowed where
  code := lockOrdered_code
  effect := lockOrdered_effect

/-! ## No deadlock -/

/-- Every action can be taken in every state. -/
theorem actEffect_enabled (entities : Entities) (act : Act) :
    ∃ entities' front, ActEffect entities act entities' front := by
  cases act with
  | attachCondition id waitSet => exact ⟨_, _, .attachCondition⟩
  | detachCondition id => exact ⟨_, _, .detachCondition⟩
  | callback id signal =>
      cases hMutex : (entities id).conditionMutex with
      | none => exact ⟨_, _, .callbackDetached hMutex⟩
      | some waitSet => exact ⟨_, _, .callbackAttached hMutex⟩
  | change id signal => exact ⟨_, _, .change⟩
  | check waitSet ids timeout =>
      by_cases hReady : (ids.any fun id => (entities id).ready) = true ∨ timeout = .zero
      · exact ⟨_, _, .checkReady hReady⟩
      · rw [not_or, Bool.not_eq_true] at hReady
        exact ⟨_, _, .checkWaits hReady.1 hReady.2⟩
  | recheck waitSet ids timeout =>
      cases hReady : ids.any fun id => (entities id).ready with
      | true => exact ⟨_, _, .recheckReady hReady⟩
      | false => exact ⟨_, _, .recheckSleeps hReady⟩
  | test id => exact ⟨_, _, .test⟩
  | take id => exact ⟨_, _, .take⟩
  | elsewhere => exact ⟨_, _, .elsewhere⟩

/-- In every reachable state of any number of threads the waits-for relation between
threads and mutexes is acyclic, no thread requests an internal mutex while it holds a
condition mutex, and a thread that waits for a mutex waits, through the owners, for a
thread that can move. -/
theorem lockOrder_acyclic {s : Locking.State Nat Mutex Entities Act}
    (hReachable : lockMachine.Reachable s) :
    (∀ x, ¬ Relation.TransGen (WaitsFor s) x x) ∧
    (∀ t id rest waitSet, s.code t = .lock (.internal id) :: rest →
      s.owner (.condition waitSet) ≠ some t) ∧
    ∀ t, s.Blocked t → ∃ u, Relation.TransGen (WaitsFor s) (.inl t) (.inl u) ∧
      ∃ s', lockMachine.step s u s' := by
  have hRank := lockSystem_disciplined.respectsRank hReachable
  refine ⟨hRank.acyclic, ?_, ?_⟩
  · intro t id rest waitSet hCode hOwner
    -- All that the thread holds ranks below what it requests.
    have hBelow := hRank t (.internal id) rest hCode (.condition waitSet) hOwner
    exact absurd (show (2 : Fin 3) < 1 from hBelow) (by decide)
  · intro t hBlocked
    obtain ⟨u, hChain, hFree, hBusy⟩ := lockSystem_disciplined.exists_running hReachable hBlocked
    exact ⟨u, hChain, Locking.State.exists_step actEffect_enabled hFree hBusy⟩

/-- Thread 0 is in `rmw_wait` on guard condition 0 and holds the condition mutex of wait
set 7; thread 1 triggers the guard condition and waits for that mutex. -/
theorem trigger_lockOrder_acyclic :
    ∃ s, lockMachine.Reachable s ∧ s.Blocked 1 ∧
      ¬ Relation.TransGen (WaitsFor s) (.inl 1) (.inl 1) := by
  let start : Locking.State Nat Mutex Entities Act :=
    { shared := fun _ => .guardCondition GuardCondition.new, owner := fun _ => none
      code := fun _ => [] }
  have hStart : lockMachine.Reachable start :=
    .init ⟨fun _ => .inr rfl, fun _ => rfl, fun _ => rfl⟩
  have hWait := hStart.step (e := 0) (.begin (.rmwWait 7 [0] .none) rfl)
  have hAttach := (hWait.step (e := 0) (.lock rfl rfl)).step (e := 0) (.act rfl .attachCondition)
  have hHolds := (hAttach.step (e := 0) (.unlock rfl)).step (e := 0) (.lock rfl rfl)
  have hTrigger := hHolds.step (e := 1) (.begin (.callback 0 .trigger) rfl)
  have hRequests := (hTrigger.step (e := 1) (.lock rfl rfl)).step (e := 1)
    (.act rfl (.callbackAttached rfl))
  have hSafe := lockOrder_acyclic hRequests
  refine ⟨_, hRequests, ⟨.condition 7, _, 0, rfl, rfl⟩, hSafe.1 _⟩

end Waiting
end RmwDps
