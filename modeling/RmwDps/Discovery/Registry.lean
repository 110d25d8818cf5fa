import RmwDps.Discovery.Creation
import RmwDps.Discovery.Matching

/-!
# The registries and the memory behind them

`publishers_` and `subscribers_` hold raw pointers.  Here the create functions, the
destroy functions and `onDiscovery` run on any number of threads, with the two mutexes
as part of the state and every fallible call, every section under a mutex, the
allocation and the deletion of an info as steps of their own.

An info belongs to one thread, or to the handle that a create function has returned,
and whoever it belongs to knows whether it is in the registry: a create function puts
it there after the last point at which it can fail, and a destroy function takes it
out before it deletes it.
-/

namespace RmwDps
namespace Discovery

open Serialization
open Creation (CreateCall FailurePoint)
open Transition (Machine)

/-! ## Threads -/

/-- The registry that a create function uses, if it uses one. -/
def CreateCall.side? : CreateCall → Option Side
  | .publisher .. => some .publisher
  | .subscription .. => some .subscription
  | .service .. | .client .. => none

/-- The info that a create or destroy function works on. -/
structure InfoRef where
  side : Side
  address : Nat
  topicName : StdString
  deriving DecidableEq, Repr

/-- Where a create function stands once it has allocated the info. -/
inductive CreatePhase
  | calling (calls : List FailurePoint)
  | beforeLock
  | beforeInsert
  | beforeUnlock
  | failing
  deriving DecidableEq, Repr

/-- Where a destroy function stands. -/
inductive DestroyPhase
  | beforeLock
  | beforeErase
  | beforeUnlock
  | beforeRemoveTopic
  | beforeDelete
  deriving DecidableEq, Repr

/-- One turn of the loops of `onDiscovery` over the removed and the added topics. -/
inductive TopicUpdate
  | removed (topic : StdString)
  | added (topic : StdString)
  deriving DecidableEq, Repr

def TopicUpdate.apply (uuid : StdString) (table : EntityTable) : TopicUpdate → EntityTable
  | .removed topic => table.forTopic (EntityInfo.eraseMatched uuid) topic
  | .added topic => table.forTopic (EntityInfo.insertMatched uuid) topic

/-- The section of `onDiscovery` under the mutex of one side. -/
structure UpdateSection where
  side : Side
  updates : List TopicUpdate
  deriving DecidableEq, Repr

/-- The turns of the two loops, in their order. -/
def topicUpdates (oldTopics newTopics : List Topic) : List TopicUpdate :=
  let (added, removed) := topicDifference oldTopics newTopics
  removed.map TopicUpdate.removed ++ added.map TopicUpdate.added

/-- The sections that `onDiscovery` enters: those whose topics have changed. -/
def updateSections (old node : Node) : List UpdateSection :=
  (if old.subscribers = node.subscribers then []
    else [⟨.publisher, topicUpdates old.subscribers node.subscribers⟩]) ++
  (if old.publishers = node.publishers then []
    else [⟨.subscription, topicUpdates old.publishers node.publishers⟩])

/-- What a thread is doing.  `testing` is a create function that has not allocated the
info yet, `discovering` is `onDiscovery` in front of the sections to come, and
`updating` is `onDiscovery` inside a section. -/
inductive ThreadState
  | idle
  | testing (side : Side) (topicName : StdString) (tests calls : List FailurePoint)
  | creating (info : InfoRef) (phase : CreatePhase)
  | destroying (info : InfoRef) (phase : DestroyPhase)
  | discovering (uuid : StdString) (sections : List UpdateSection)
  | updating (uuid : StdString) (side : Side) (updates : List TopicUpdate)
      (sections : List UpdateSection)
  deriving DecidableEq, Repr

/-- The thread is between `lock` and `unlock` of the mutex of a side. -/
def ThreadState.Holds (side : Side) : ThreadState → Prop
  | .creating info .beforeInsert | .creating info .beforeUnlock => info.side = side
  | .destroying info .beforeErase | .destroying info .beforeUnlock => info.side = side
  | .updating _ side' _ _ => side' = side
  | _ => False

/-- The thread is in a create or destroy function. -/
def ThreadState.ChangesEntities : ThreadState → Prop
  | .testing .. | .creating .. | .destroying .. => True
  | .idle | .discovering .. | .updating .. => False

/-! ## The machine -/

/-- The two registries with the infos in memory, their mutexes, the threads, and the
handles that the create functions have returned and that no destroy function has been
given, with their `topic_name`. -/
structure RegistryState where
  table : Side → EntityTable
  mutex : Side → Option Nat
  thread : Nat → ThreadState
  handle : Side → Nat → Option StdString

def RegistryState.start : RegistryState where
  table := fun _ => EntityTable.empty
  mutex := fun _ => none
  thread := fun _ => .idle
  handle := fun _ _ => none

section Updates

variable (s : RegistryState)

def RegistryState.setThread (t : Nat) (state : ThreadState) : RegistryState :=
  { s with thread := Function.update s.thread t state }

def RegistryState.setTable (side : Side) (table : EntityTable) : RegistryState :=
  { s with table := Function.update s.table side table }

def RegistryState.setMutex (side : Side) (owner : Option Nat) : RegistryState :=
  { s with mutex := Function.update s.mutex side owner }

def RegistryState.setHandle (side : Side) (address : Nat) (topicName : Option StdString) :
    RegistryState :=
  { s with
    handle := Function.update s.handle side
      (Function.update (s.handle side) address topicName) }

end Updates

/-- The steps of one thread. -/
inductive RegistryStep (s : RegistryState) (t : Nat) : RegistryState → Prop
  /-- A create function is called. -/
  | create {side : Side} (call : CreateCall) (hIdle : s.thread t = .idle)
      (hSide : CreateCall.side? call = some side) :
      RegistryStep s t (s.setThread t (.testing side call.entity.name call.tests call.calls))
  | testPasses {side : Side} {topicName : StdString} {test : FailurePoint}
      {tests calls : List FailurePoint}
      (hAt : s.thread t = .testing side topicName (test :: tests) calls)
      (hTest : test.succeeds = true) :
      RegistryStep s t (s.setThread t (.testing side topicName tests calls))
  | testFails {side : Side} {topicName : StdString} {test : FailurePoint}
      {tests calls : List FailurePoint}
      (hAt : s.thread t = .testing side topicName (test :: tests) calls)
      (hTest : test.succeeds = false) :
      RegistryStep s t (s.setThread t .idle)
  /-- `info = new …`, at any address that is free. -/
  | allocate {side : Side} {topicName : StdString} {calls : List FailurePoint} (address : Nat)
      (hAt : s.thread t = .testing side topicName [] calls)
      (hFree : (s.table side).infos address = none) :
      RegistryStep s t
        ((s.setTable side ((s.table side).allocate address (EntityInfo.new topicName))).setThread t
          (.creating ⟨side, address, topicName⟩ (.calling calls)))
  | callPasses {info : InfoRef} {call : FailurePoint} {calls : List FailurePoint}
      (hAt : s.thread t = .creating info (.calling (call :: calls)))
      (hCall : call.succeeds = true) :
      RegistryStep s t (s.setThread t (.creating info (.calling calls)))
  | callFails {info : InfoRef} {call : FailurePoint} {calls : List FailurePoint}
      (hAt : s.thread t = .creating info (.calling (call :: calls)))
      (hCall : call.succeeds = false) :
      RegistryStep s t (s.setThread t (.creating info .failing))
  /-- `_add_discovery_topic`, which may fail. -/
  | addTopic {info : InfoRef} (hAt : s.thread t = .creating info (.calling [])) :
      RegistryStep s t (s.setThread t (.creating info .beforeLock))
  | addTopicFails {info : InfoRef} (hAt : s.thread t = .creating info (.calling [])) :
      RegistryStep s t (s.setThread t (.creating info .failing))
  /-- From `fail:` on. -/
  | deleteFailed {info : InfoRef} (hAt : s.thread t = .creating info .failing) :
      RegistryStep s t
        ((s.setTable info.side ((s.table info.side).delete info.address)).setThread t .idle)
  | lockInsert {info : InfoRef} (hAt : s.thread t = .creating info .beforeLock)
      (hFree : s.mutex info.side = none) :
      RegistryStep s t
        ((s.setMutex info.side (some t)).setThread t (.creating info .beforeInsert))
  | insert {info : InfoRef} (hAt : s.thread t = .creating info .beforeInsert) :
      RegistryStep s t
        ((s.setTable info.side
          ((s.table info.side).register info.topicName info.address)).setThread t
            (.creating info .beforeUnlock))
  /-- The mutex is released and the handle returned. -/
  | created {info : InfoRef} (hAt : s.thread t = .creating info .beforeUnlock) :
      RegistryStep s t
        (((s.setMutex info.side none).setHandle info.side info.address
          (some info.topicName)).setThread t .idle)
  /-- A destroy function is called with a handle that a create function has returned. -/
  | destroy {side : Side} {address : Nat} {topicName : StdString} (hIdle : s.thread t = .idle)
      (hHandle : s.handle side address = some topicName) :
      RegistryStep s t
        ((s.setHandle side address none).setThread t
          (.destroying ⟨side, address, topicName⟩ .beforeLock))
  | lockErase {info : InfoRef} (hAt : s.thread t = .destroying info .beforeLock)
      (hFree : s.mutex info.side = none) :
      RegistryStep s t
        ((s.setMutex info.side (some t)).setThread t (.destroying info .beforeErase))
  | erase {info : InfoRef} (hAt : s.thread t = .destroying info .beforeErase) :
      RegistryStep s t
        ((s.setTable info.side
          ((s.table info.side).unregister info.topicName info.address)).setThread t
            (.destroying info .beforeUnlock))
  | unlockErase {info : InfoRef} (hAt : s.thread t = .destroying info .beforeUnlock) :
      RegistryStep s t
        ((s.setMutex info.side none).setThread t (.destroying info .beforeRemoveTopic))
  /-- `_remove_discovery_topic`, whose result is ignored. -/
  | removeTopic {info : InfoRef} (hAt : s.thread t = .destroying info .beforeRemoveTopic) :
      RegistryStep s t (s.setThread t (.destroying info .beforeDelete))
  | deleteDestroyed {info : InfoRef} (hAt : s.thread t = .destroying info .beforeDelete) :
      RegistryStep s t
        ((s.setTable info.side ((s.table info.side).delete info.address)).setThread t .idle)
  /-- `onDiscovery` after its section under `mutex_`. -/
  | discover (uuid : StdString) (old node : Node) (hIdle : s.thread t = .idle) :
      RegistryStep s t (s.setThread t (.discovering uuid (updateSections old node)))
  | lockUpdate {uuid : StdString} {current : UpdateSection} {sections : List UpdateSection}
      (hAt : s.thread t = .discovering uuid (current :: sections))
      (hFree : s.mutex current.side = none) :
      RegistryStep s t
        ((s.setMutex current.side (some t)).setThread t
          (.updating uuid current.side current.updates sections))
  | update {uuid : StdString} {side : Side} {turn : TopicUpdate} {updates : List TopicUpdate}
      {sections : List UpdateSection}
      (hAt : s.thread t = .updating uuid side (turn :: updates) sections) :
      RegistryStep s t
        ((s.setTable side (turn.apply uuid (s.table side))).setThread t
          (.updating uuid side updates sections))
  | unlockUpdate {uuid : StdString} {side : Side} {sections : List UpdateSection}
      (hAt : s.thread t = .updating uuid side [] sections) :
      RegistryStep s t
        ((s.setMutex side none).setThread t (.discovering uuid sections))
  | discovered {uuid : StdString} (hAt : s.thread t = .discovering uuid []) :
      RegistryStep s t (s.setThread t .idle)

/-- Any interleaving of the steps of any number of threads. -/
def registryMachine : Machine RegistryState Nat where
  init s := s = RegistryState.start
  step s t s' := RegistryStep s t s'

/-! ## What is to hold -/

/-- Every pointer in the registry of a side is the address of an info in memory. -/
def RegistryState.NoDangling (s : RegistryState) (side : Side) : Prop :=
  ∀ topicName, ∀ address ∈ (s.table side).registered topicName,
    ∃ info, (s.table side).infos address = some info

/-- The registry of a side has exactly the live entities of each topic, each under its
own topic and no other, and every info in memory is that of a live entity. -/
structure RegistryState.HoldsLive (s : RegistryState) (side : Side) : Prop where
  registered : ∀ topicName address, address ∈ (s.table side).registered topicName ↔
    s.handle side address = some topicName
  memory : ∀ address, ((s.table side).infos address).map EntityInfo.topicName =
    s.handle side address
  oneKey : ∀ address info, (s.table side).infos address = some info →
    ∃! topicName, address ∈ (s.table side).registered topicName

/-! ## Who an info belongs to -/

/-- An info in somebody's hands: its address and topic, and whether it is in the
registry. -/
structure Stake where
  info : InfoRef
  registered : Bool
  deriving DecidableEq, Repr

/-- The info that a thread works on.  A create function has it in the registry behind
the insertion, and a destroy function up to the removal. -/
def ThreadState.stake : ThreadState → Option Stake
  | .creating info .beforeUnlock => some ⟨info, true⟩
  | .creating info _ => some ⟨info, false⟩
  | .destroying info .beforeLock | .destroying info .beforeErase => some ⟨info, true⟩
  | .destroying info _ => some ⟨info, false⟩
  | _ => none

/-- The thread works on the info at an address. -/
def ThreadState.WorksOn (state : ThreadState) (side : Side) (address : Nat) : Prop :=
  ∃ stake, state.stake = some stake ∧ stake.info.side = side ∧ stake.info.address = address

/-- The info is in memory, and registered under its topic only or not at all. -/
structure EntityTable.Backs (table : EntityTable) (address : Nat) (topicName : StdString)
    (registered : Bool) : Prop where
  memory : (table.infos address).map EntityInfo.topicName = some topicName
  registry : ∀ topic, address ∈ table.registered topic ↔ registered = true ∧ topic = topicName

/-- Whom an address belongs to: nobody, a handle, or exactly one thread. -/
inductive RegistryState.Belongs (s : RegistryState) (side : Side) (address : Nat) : Prop
  | nobody (hMemory : (s.table side).infos address = none)
      (hRegistry : (s.table side).Unregistered address) (hHandle : s.handle side address = none)
      (hThreads : ∀ t, ¬ (s.thread t).WorksOn side address)
  | client (topicName : StdString) (hBacks : (s.table side).Backs address topicName true)
      (hHandle : s.handle side address = some topicName)
      (hThreads : ∀ t, ¬ (s.thread t).WorksOn side address)
  | thread (t : Nat) (topicName : StdString) (registered : Bool)
      (hStake : (s.thread t).stake = some ⟨⟨side, address, topicName⟩, registered⟩)
      (hBacks : (s.table side).Backs address topicName registered)
      (hHandle : s.handle side address = none)
      (hThreads : ∀ u, (s.thread u).WorksOn side address → u = t)

/-- Nothing that concerns an address has changed. -/
structure RegistryState.SameAt (s s' : RegistryState) (side : Side) (address : Nat) : Prop where
  memory : ((s'.table side).infos address).map EntityInfo.topicName =
    ((s.table side).infos address).map EntityInfo.topicName
  registry : ∀ topic, address ∈ (s'.table side).registered topic ↔
    address ∈ (s.table side).registered topic
  handle : s'.handle side address = s.handle side address
  stakes : ∀ t stake, stake.info.side = side → stake.info.address = address →
    ((s'.thread t).stake = some stake ↔ (s.thread t).stake = some stake)

theorem RegistryState.SameAt.worksOn_iff {s s' : RegistryState} {side : Side} {address : Nat}
    (hSame : s.SameAt s' side address) (t : Nat) :
    (s'.thread t).WorksOn side address ↔ (s.thread t).WorksOn side address := by
  constructor
  · rintro ⟨stake, hStake, hSide, hAddress⟩
    exact ⟨stake, (hSame.stakes t stake hSide hAddress).mp hStake, hSide, hAddress⟩
  · rintro ⟨stake, hStake, hSide, hAddress⟩
    exact ⟨stake, (hSame.stakes t stake hSide hAddress).mpr hStake, hSide, hAddress⟩

/-- The frame rule. -/
theorem RegistryState.Belongs.frame {s s' : RegistryState} {side : Side} {address : Nat}
    (hBelongs : s.Belongs side address) (hSame : s.SameAt s' side address) :
    s'.Belongs side address := by
  cases hBelongs with
  | nobody hMemory hRegistry hHandle hThreads =>
      refine .nobody ?_ (fun topic => mt (hSame.registry topic).mp (hRegistry topic))
        (hSame.handle.trans hHandle) fun t => mt (hSame.worksOn_iff t).mp (hThreads t)
      have hMap := hSame.memory
      rw [hMemory] at hMap
      exact Option.map_eq_none_iff.mp hMap
  | client topicName hBacks hHandle hThreads =>
      exact .client topicName
        ⟨hSame.memory.trans hBacks.memory, fun topic =>
          (hSame.registry topic).trans (hBacks.registry topic)⟩
        (hSame.handle.trans hHandle) fun t => mt (hSame.worksOn_iff t).mp (hThreads t)
  | thread t topicName registered hStake hBacks hHandle hThreads =>
      exact .thread t topicName registered ((hSame.stakes t _ rfl rfl).mpr hStake)
        ⟨hSame.memory.trans hBacks.memory, fun topic =>
          (hSame.registry topic).trans (hBacks.registry topic)⟩
        (hSame.handle.trans hHandle) fun u hWorks => hThreads u ((hSame.worksOn_iff u).mp hWorks)

section Belongs

variable {s : RegistryState} {side : Side} {address t : Nat} {topicName : StdString}

/-- A free address belongs to nobody. -/
theorem RegistryState.Belongs.of_free (hBelongs : s.Belongs side address)
    (hFree : (s.table side).infos address = none) :
    (s.table side).Unregistered address ∧ s.handle side address = none ∧
      ∀ t, ¬ (s.thread t).WorksOn side address := by
  cases hBelongs with
  | nobody _ hRegistry hHandle hThreads => exact ⟨hRegistry, hHandle, hThreads⟩
  | client _ hBacks _ _ =>
      have hMemory := hBacks.memory
      rw [hFree] at hMemory
      cases hMemory
  | thread _ _ _ _ hBacks _ _ =>
      have hMemory := hBacks.memory
      rw [hFree] at hMemory
      cases hMemory

/-- The info of a handle belongs to the handle. -/
theorem RegistryState.Belongs.of_handle (hBelongs : s.Belongs side address)
    (hHandle : s.handle side address = some topicName) :
    (s.table side).Backs address topicName true ∧ ∀ t, ¬ (s.thread t).WorksOn side address := by
  cases hBelongs with
  | nobody _ _ hNone _ => exact nomatch hNone.symm.trans hHandle
  | client topic hBacks hSome hThreads =>
      obtain rfl := Option.some.inj (hSome.symm.trans hHandle)
      exact ⟨hBacks, hThreads⟩
  | thread _ _ _ _ _ hNone _ => exact nomatch hNone.symm.trans hHandle

/-- The info that a thread works on belongs to that thread. -/
theorem RegistryState.Belongs.of_stake {registered : Bool} (hBelongs : s.Belongs side address)
    (hStake : (s.thread t).stake = some ⟨⟨side, address, topicName⟩, registered⟩) :
    (s.table side).Backs address topicName registered ∧ s.handle side address = none ∧
      ∀ u, (s.thread u).WorksOn side address → u = t := by
  have hWorks : (s.thread t).WorksOn side address := ⟨_, hStake, rfl, rfl⟩
  cases hBelongs with
  | nobody _ _ _ hThreads => exact absurd hWorks (hThreads t)
  | client _ _ _ hThreads => exact absurd hWorks (hThreads t)
  | thread u topic flag hStake' hBacks hHandle hThreads =>
      obtain rfl := hThreads t hWorks
      have hSame := hStake'.symm.trans hStake
      simp only [Option.some.injEq, Stake.mk.injEq, InfoRef.mk.injEq, true_and] at hSame
      obtain ⟨rfl, rfl⟩ := hSame
      exact ⟨hBacks, hHandle, hThreads⟩

end Belongs

/-! ## What the operations on a table leave alone -/

/-- Two tables agree on every address but one. -/
def EntityTable.AgreeExcept (table table' : EntityTable) (address : Nat) : Prop :=
  ∀ other, other ≠ address → table'.infos other = table.infos other ∧
    ∀ topic, other ∈ table'.registered topic ↔ other ∈ table.registered topic

section Tables

variable (table : EntityTable) (address : Nat) (topicName : StdString)

theorem EntityTable.agreeExcept_allocate (info : EntityInfo) :
    table.AgreeExcept (table.allocate address info) address :=
  fun _ hOther => ⟨Function.update_of_ne hOther _ _, fun _ => Iff.rfl⟩

theorem EntityTable.agreeExcept_delete : table.AgreeExcept (table.delete address) address :=
  fun _ hOther => ⟨Function.update_of_ne hOther _ _, fun _ => Iff.rfl⟩

theorem EntityTable.agreeExcept_register :
    table.AgreeExcept (table.register topicName address) address := by
  refine fun other hOther => ⟨rfl, fun topic => ?_⟩
  by_cases hTopic : topic = topicName
  · subst hTopic
    simp [register, hOther]
  · simp [register, hTopic]

theorem EntityTable.agreeExcept_unregister :
    table.AgreeExcept (table.unregister topicName address) address := by
  refine fun other hOther => ⟨rfl, fun topic => ?_⟩
  by_cases hTopic : topic = topicName
  · subst hTopic
    simp [unregister, hOther]
  · simp [unregister, hTopic]

variable {table address topicName}

theorem EntityTable.Unregistered.backs_allocate (hFree : table.Unregistered address) :
    (table.allocate address (EntityInfo.new topicName)).Backs address topicName false where
  memory := by simp [allocate, EntityInfo.new]
  registry topic := by
    have hNot : address ∉ table.registered topic := hFree topic
    simpa [allocate] using hNot

theorem EntityTable.Backs.register (hBacks : table.Backs address topicName false) :
    (table.register topicName address).Backs address topicName true where
  memory := hBacks.memory
  registry topic := by
    by_cases hTopic : topic = topicName
    · subst hTopic
      simp [EntityTable.register]
    · have hNot := hBacks.registry topic
      simp only [Bool.false_eq_true, false_and, iff_false] at hNot
      simp [EntityTable.register, hTopic, hNot]

theorem EntityTable.Backs.unregister (hBacks : table.Backs address topicName true) :
    (table.unregister topicName address).Backs address topicName false where
  memory := hBacks.memory
  registry topic := by
    by_cases hTopic : topic = topicName
    · subst hTopic
      simp [EntityTable.unregister]
    · have hNot := hBacks.registry topic
      simp only [hTopic, and_false, iff_false] at hNot
      simp [EntityTable.unregister, hTopic, hNot]

theorem EntityTable.Backs.unregistered_delete (hBacks : table.Backs address topicName false) :
    (table.delete address).infos address = none ∧ (table.delete address).Unregistered address := by
  refine ⟨Function.update_self _ _ _, fun topic hMem => ?_⟩
  exact absurd ((hBacks.registry topic).mp hMem).1 (by decide)

/-- A turn of a loop of `onDiscovery` neither moves an info nor registers one. -/
theorem TopicUpdate.topicName_apply (uuid : StdString) (turn : TopicUpdate) (other : Nat) :
    (((turn.apply uuid table).infos other).map EntityInfo.topicName =
      (table.infos other).map EntityInfo.topicName) ∧
    (turn.apply uuid table).registered = table.registered := by
  have hFor : ∀ f : EntityInfo → EntityInfo, (∀ info, (f info).topicName = info.topicName) →
      ∀ topic, ((table.forTopic f topic).infos other).map EntityInfo.topicName =
        (table.infos other).map EntityInfo.topicName := by
    intro f hf topic
    unfold EntityTable.forTopic
    dsimp only
    split_ifs
    · cases table.infos other with
      | none => rfl
      | some info => exact congrArg some (hf info)
    · rfl
  cases turn with
  | removed topic => exact ⟨hFor (EntityInfo.eraseMatched uuid) (fun _ => rfl) topic, rfl⟩
  | added topic => exact ⟨hFor (EntityInfo.insertMatched uuid) (fun _ => rfl) topic, rfl⟩

/-- The turns of a section, one after the other, are what `onDiscovery` does in it. -/
theorem TopicUpdate.foldl_apply (uuid : StdString) {oldTopics newTopics : List Topic}
    (hChanged : oldTopics ≠ newTopics) :
    (topicUpdates oldTopics newTopics).foldl (TopicUpdate.apply uuid) table =
      table.updateMatched uuid oldTopics newTopics := by
  rw [EntityTable.updateMatched, if_neg hChanged]
  simp only [topicUpdates, List.foldl_append, List.foldl_map, TopicUpdate.apply]

end Tables

/-! ## Steps -/

section Step

variable {s s' : RegistryState} {t : Nat} {state : ThreadState}

/-- A step that neither gives the thread an info nor takes one from it. -/
theorem RegistryState.sameAt_of_stake_eq
    (hThread : s'.thread = Function.update s.thread t state)
    (hStake : state.stake = (s.thread t).stake)
    (hTable : ∀ side address,
      ((s'.table side).infos address).map EntityInfo.topicName =
        ((s.table side).infos address).map EntityInfo.topicName ∧
      (s'.table side).registered = (s.table side).registered)
    (hHandle : s'.handle = s.handle) (side : Side) (address : Nat) :
    s.SameAt s' side address where
  memory := (hTable side address).1
  registry topic := by rw [(hTable side address).2]
  handle := by rw [hHandle]
  stakes u stake _ _ := by
    rw [hThread]
    by_cases hSelf : u = t
    · subst hSelf
      rw [Function.update_self, hStake]
    · rw [Function.update_of_ne hSelf]

/-- The addresses that a step leaves alone which concerns one info. -/
theorem RegistryState.sameAt_of_ne {info : InfoRef}
    (hThread : s'.thread = Function.update s.thread t state)
    (hBefore : ∀ stake, (s.thread t).stake = some stake → stake.info = info)
    (hAfter : ∀ stake, state.stake = some stake → stake.info = info)
    (hTable : (s.table info.side).AgreeExcept (s'.table info.side) info.address)
    (hOther : ∀ side, side ≠ info.side → s'.table side = s.table side)
    (hHandle : ∀ side address, ¬ (side = info.side ∧ address = info.address) →
      s'.handle side address = s.handle side address)
    {side : Side} {address : Nat} (hNe : ¬ (side = info.side ∧ address = info.address)) :
    s.SameAt s' side address := by
  have hAgree : (s'.table side).infos address = (s.table side).infos address ∧
      ∀ topic, address ∈ (s'.table side).registered topic ↔
        address ∈ (s.table side).registered topic := by
    by_cases hSide : side = info.side
    · subst hSide
      exact hTable address fun hAddress => hNe ⟨rfl, hAddress⟩
    · rw [hOther side hSide]
      exact ⟨rfl, fun _ => Iff.rfl⟩
  -- The only stake that changes is that of `info`, which is not at this address.
  have hElsewhere : ∀ stake : Stake, stake.info.side = side → stake.info.address = address →
      stake.info ≠ info := by
    rintro stake rfl rfl rfl
    exact hNe ⟨rfl, rfl⟩
  refine ⟨by rw [hAgree.1], hAgree.2, hHandle side address hNe, fun u stake hSide hAddress => ?_⟩
  rw [hThread]
  by_cases hSelf : u = t
  · subst hSelf
    rw [Function.update_self]
    constructor
    · exact fun hStake => absurd (hAfter stake hStake) (hElsewhere stake hSide hAddress)
    · exact fun hStake => absurd (hBefore stake hStake) (hElsewhere stake hSide hAddress)
  · rw [Function.update_of_ne hSelf]

theorem RegistryState.belongs_setThread (hBelongs : ∀ side address, s.Belongs side address)
    (hStake : state.stake = (s.thread t).stake) (side : Side) (address : Nat) :
    (s.setThread t state).Belongs side address := by
  refine (hBelongs side address).frame (sameAt_of_stake_eq rfl hStake ?_ ?_ side address)
  · exact fun _ _ => ⟨rfl, rfl⟩
  · rfl

theorem RegistryState.belongs_setMutex (hBelongs : ∀ side address, s.Belongs side address)
    {mutexSide : Side} {owner : Option Nat} (hStake : state.stake = (s.thread t).stake)
    (side : Side) (address : Nat) :
    ((s.setMutex mutexSide owner).setThread t state).Belongs side address := by
  refine (hBelongs side address).frame (sameAt_of_stake_eq rfl hStake ?_ ?_ side address)
  · exact fun _ _ => ⟨rfl, rfl⟩
  · rfl

/-- Another thread works on an address after a step exactly when it did before. -/
theorem RegistryState.eq_of_worksOn {side : Side} {address u : Nat}
    (hThread : s'.thread = Function.update s.thread t state)
    (hOthers : ∀ u, (s.thread u).WorksOn side address → u = t)
    (hWorks : (s'.thread u).WorksOn side address) : u = t := by
  by_contra hOther
  rw [hThread, Function.update_of_ne hOther] at hWorks
  exact hOther (hOthers u hWorks)

/-- No thread works on an address after a step that makes the only one let go. -/
theorem RegistryState.not_worksOn {side : Side} {address : Nat}
    (hThread : s'.thread = Function.update s.thread t state) (hNone : state.stake = none)
    (hOthers : ∀ u, (s.thread u).WorksOn side address → u = t) (u : Nat) :
    ¬ (s'.thread u).WorksOn side address := by
  intro hWorks
  obtain rfl := eq_of_worksOn hThread hOthers hWorks
  obtain ⟨stake, hStake, -⟩ := hWorks
  rw [hThread, Function.update_self, hNone] at hStake
  cases hStake

end Step

section OwnSteps

variable {s : RegistryState} {t : Nat} (hBelongs : ∀ side address, s.Belongs side address)
  (info : InfoRef)

include hBelongs

theorem RegistryState.belongs_allocate {calls : List FailurePoint}
    (hNone : (s.thread t).stake = none)
    (hFree : (s.table info.side).infos info.address = none) (side : Side) (address : Nat) :
    ((s.setTable info.side ((s.table info.side).allocate info.address
      (EntityInfo.new info.topicName))).setThread t
        (.creating info (.calling calls))).Belongs side address := by
  obtain ⟨hRegistry, hHandle, hThreads⟩ := (hBelongs info.side info.address).of_free hFree
  by_cases hHere : side = info.side ∧ address = info.address
  · obtain ⟨rfl, rfl⟩ := hHere
    refine .thread t info.topicName false ?_ ?_ hHandle fun u hWorks => ?_
    · simp [setThread, ThreadState.stake]
    · simpa [setThread, setTable] using hRegistry.backs_allocate
    · exact eq_of_worksOn rfl (fun u hWorks => absurd hWorks (hThreads u)) hWorks
  · refine (hBelongs side address).frame (sameAt_of_ne rfl ?_ ?_ ?_ ?_ ?_ hHere)
    · simp [hNone]
    · simp [ThreadState.stake]
    · simpa [setThread, setTable] using EntityTable.agreeExcept_allocate _ _ _
    · exact fun side hSide => Function.update_of_ne hSide _ _
    · exact fun _ _ _ => rfl

/-- A table operation on the info that the thread works on, which thereby comes into
the registry or leaves it. -/
theorem RegistryState.belongs_setTable {state : ThreadState} {table : EntityTable}
    (before after : Bool) (hStake : (s.thread t).stake = some ⟨info, before⟩)
    (hStake' : state.stake = some ⟨info, after⟩)
    (hAgree : (s.table info.side).AgreeExcept table info.address)
    (hBacks : (s.table info.side).Backs info.address info.topicName before →
      table.Backs info.address info.topicName after) (side : Side) (address : Nat) :
    ((s.setTable info.side table).setThread t state).Belongs side address := by
  obtain ⟨hOld, hHandle, hThreads⟩ := (hBelongs info.side info.address).of_stake hStake
  by_cases hHere : side = info.side ∧ address = info.address
  · obtain ⟨rfl, rfl⟩ := hHere
    refine .thread t info.topicName after ?_ ?_ hHandle fun u hWorks => ?_
    · simp [setThread, hStake']
    · simpa [setThread, setTable] using hBacks hOld
    · exact eq_of_worksOn rfl hThreads hWorks
  · refine (hBelongs side address).frame (sameAt_of_ne rfl ?_ ?_ ?_ ?_ ?_ hHere)
    · simp [hStake]
    · simp [hStake']
    · simpa [setThread, setTable] using hAgree
    · exact fun side hSide => Function.update_of_ne hSide _ _
    · exact fun _ _ _ => rfl

theorem RegistryState.belongs_delete (hStake : (s.thread t).stake = some ⟨info, false⟩)
    (side : Side) (address : Nat) :
    ((s.setTable info.side ((s.table info.side).delete info.address)).setThread t
      .idle).Belongs side address := by
  obtain ⟨hOld, hHandle, hThreads⟩ := (hBelongs info.side info.address).of_stake hStake
  obtain ⟨hMemory, hRegistry⟩ := hOld.unregistered_delete
  by_cases hHere : side = info.side ∧ address = info.address
  · obtain ⟨rfl, rfl⟩ := hHere
    refine .nobody ?_ ?_ hHandle (not_worksOn rfl rfl hThreads)
    · simpa [setThread, setTable] using hMemory
    · simpa [setThread, setTable] using hRegistry
  · refine (hBelongs side address).frame (sameAt_of_ne rfl ?_ ?_ ?_ ?_ ?_ hHere)
    · simp [hStake]
    · simp [ThreadState.stake]
    · simpa [setThread, setTable] using EntityTable.agreeExcept_delete _ _
    · exact fun side hSide => Function.update_of_ne hSide _ _
    · exact fun _ _ _ => rfl

omit hBelongs in
variable {info} in
theorem RegistryState.handle_setHandle_of_ne {side : Side} {address : Nat}
    (topicName : Option StdString) (hNe : ¬ (side = info.side ∧ address = info.address)) :
    (s.setHandle info.side info.address topicName).handle side address =
      s.handle side address := by
  by_cases hSide : side = info.side
  · subst hSide
    have hAddress : address ≠ info.address := fun hEqual => hNe ⟨rfl, hEqual⟩
    simp [setHandle, hAddress]
  · simp [setHandle, hSide]

/-- A create function returns the handle of the info that it has registered. -/
theorem RegistryState.belongs_created (hStake : (s.thread t).stake = some ⟨info, true⟩)
    (side : Side) (address : Nat) :
    (((s.setMutex info.side none).setHandle info.side info.address
      (some info.topicName)).setThread t .idle).Belongs side address := by
  obtain ⟨hOld, -, hThreads⟩ := (hBelongs info.side info.address).of_stake hStake
  by_cases hHere : side = info.side ∧ address = info.address
  · obtain ⟨rfl, rfl⟩ := hHere
    refine .client info.topicName hOld ?_ (not_worksOn rfl rfl hThreads)
    simp [setThread, setHandle]
  · refine (hBelongs side address).frame (sameAt_of_ne rfl ?_ ?_ ?_ ?_ ?_ hHere)
    · simp [hStake]
    · simp [ThreadState.stake]
    · exact fun _ _ => ⟨rfl, fun _ => Iff.rfl⟩
    · exact fun _ _ => rfl
    · exact fun side address hNe => handle_setHandle_of_ne _ hNe

/-- A destroy function takes over the info of a handle. -/
theorem RegistryState.belongs_destroy (hNone : (s.thread t).stake = none)
    (hHandle : s.handle info.side info.address = some info.topicName)
    (side : Side) (address : Nat) :
    ((s.setHandle info.side info.address none).setThread t
      (.destroying info .beforeLock)).Belongs side address := by
  obtain ⟨hOld, hThreads⟩ := (hBelongs info.side info.address).of_handle hHandle
  by_cases hHere : side = info.side ∧ address = info.address
  · obtain ⟨rfl, rfl⟩ := hHere
    refine .thread t info.topicName true ?_ hOld ?_ fun u hWorks => ?_
    · simp [setThread, ThreadState.stake]
    · simp [setThread, setHandle]
    · exact eq_of_worksOn rfl (fun u hWorks => absurd hWorks (hThreads u)) hWorks
  · refine (hBelongs side address).frame (sameAt_of_ne rfl ?_ ?_ ?_ ?_ ?_ hHere)
    · simp [hNone]
    · simp [ThreadState.stake]
    · exact fun _ _ => ⟨rfl, fun _ => Iff.rfl⟩
    · exact fun _ _ => rfl
    · exact fun side address hNe => handle_setHandle_of_ne _ hNe

end OwnSteps

section Runs

variable {s s' : RegistryState} {t : Nat}

/-- Each address belongs to somebody or to nobody, before and after every step. -/
theorem RegistryStep.belongs (hStep : RegistryStep s t s')
    (hBelongs : ∀ side address, s.Belongs side address) :
    ∀ side address, s'.Belongs side address := by
  cases hStep with
  | create call hAt _ | testPasses hAt _ | testFails hAt _ | callPasses hAt _ | callFails hAt _
  | addTopic hAt | addTopicFails hAt | removeTopic hAt | discover uuid old node hAt
  | discovered hAt =>
      -- Only the place of the thread in its own code changes.
      apply RegistryState.belongs_setThread hBelongs
      rw [hAt]
      rfl
  | lockInsert hAt _ | lockErase hAt _ | unlockErase hAt | lockUpdate hAt _ | unlockUpdate hAt =>
      apply RegistryState.belongs_setMutex hBelongs
      rw [hAt]
      rfl
  | @allocate side topicName calls address hAt hFree =>
      refine RegistryState.belongs_allocate hBelongs ⟨side, address, topicName⟩ ?_ hFree
      rw [hAt]
      rfl
  | deleteFailed hAt | deleteDestroyed hAt =>
      apply RegistryState.belongs_delete hBelongs
      rw [hAt]
      rfl
  | insert hAt =>
      refine RegistryState.belongs_setTable hBelongs _ false true ?_ rfl
        (EntityTable.agreeExcept_register _ _ _) EntityTable.Backs.register
      rw [hAt]
      rfl
  | erase hAt =>
      refine RegistryState.belongs_setTable hBelongs _ true false ?_ rfl
        (EntityTable.agreeExcept_unregister _ _ _) EntityTable.Backs.unregister
      rw [hAt]
      rfl
  | created hAt =>
      apply RegistryState.belongs_created hBelongs
      rw [hAt]
      rfl
  | @destroy side address topicName hIdle hHandle =>
      refine RegistryState.belongs_destroy hBelongs ⟨side, address, topicName⟩ ?_ hHandle
      rw [hIdle]
      rfl
  | @update uuid side turn updates sections hAt =>
      -- A turn changes matched sets only, so nothing changes at any address.
      intro side' address
      refine (hBelongs side' address).frame
        (RegistryState.sameAt_of_stake_eq rfl (t := t) ?_ ?_ ?_ side' address)
      · rw [hAt]
        rfl
      · intro side' other
        by_cases hSide : side' = side
        · subst hSide
          simpa [RegistryState.setThread, RegistryState.setTable] using
            TopicUpdate.topicName_apply uuid turn other
        · simp [RegistryState.setThread, RegistryState.setTable, hSide]
      · rfl

theorem RegistryState.belongs_start (side : Side) (address : Nat) :
    RegistryState.start.Belongs side address := by
  refine .nobody rfl (fun _ => Finset.notMem_empty _) rfl ?_
  rintro t ⟨stake, hStake, -⟩
  cases hStake

theorem RegistryState.belongs_of_reachable (hReachable : registryMachine.Reachable s)
    (side : Side) (address : Nat) : s.Belongs side address := by
  refine hReachable.invariant ?_ (fun _ _ _ hBelongs hStep => hStep.belongs hBelongs) side address
  rintro s rfl
  exact RegistryState.belongs_start

/-! ## The mutexes -/

/-- A thread in a section owns the mutex of the section. -/
def RegistryState.OwnsSections (s : RegistryState) : Prop :=
  ∀ t side, (s.thread t).Holds side → s.mutex side = some t

theorem RegistryState.ownsSections_of_holds {state : ThreadState} (hOwns : s.OwnsSections)
    (hThread : s'.thread = Function.update s.thread t state)
    (hHolds : ∀ side, state.Holds side → (s.thread t).Holds side) (hMutex : s'.mutex = s.mutex) :
    s'.OwnsSections := by
  intro u side hHolds'
  rw [hMutex]
  rw [hThread] at hHolds'
  by_cases hSelf : u = t
  · subst hSelf
    rw [Function.update_self] at hHolds'
    exact hOwns u side (hHolds side hHolds')
  · rw [Function.update_of_ne hSelf] at hHolds'
    exact hOwns u side hHolds'

theorem RegistryState.ownsSections_lock {state : ThreadState} {side : Side}
    (hOwns : s.OwnsSections) (hFree : s.mutex side = none)
    (hHolds : ∀ side', state.Holds side' → side' = side) :
    ((s.setMutex side (some t)).setThread t state).OwnsSections := by
  intro u side' hHolds'
  by_cases hSelf : u = t
  · subst hSelf
    obtain rfl := hHolds side' (by simpa [setThread] using hHolds')
    simp [setThread, setMutex]
  · have hOwner := hOwns u side' (by simpa [setThread, setMutex, hSelf] using hHolds')
    -- The mutex was free, so no other thread is in a section of this side.
    have hSide : side' ≠ side := by
      rintro rfl
      rw [hFree] at hOwner
      cases hOwner
    simpa [setThread, setMutex, hSide] using hOwner

theorem RegistryState.ownsSections_unlock {state : ThreadState} {side : Side}
    (hOwns : s.OwnsSections) (hBefore : (s.thread t).Holds side)
    (hAfter : ∀ side', ¬ state.Holds side') (hThread : s'.thread = Function.update s.thread t state)
    (hMutex : s'.mutex = Function.update s.mutex side none) : s'.OwnsSections := by
  intro u side' hHolds'
  rw [hThread] at hHolds'
  by_cases hSelf : u = t
  · subst hSelf
    rw [Function.update_self] at hHolds'
    exact absurd hHolds' (hAfter side')
  · rw [Function.update_of_ne hSelf] at hHolds'
    have hOwner := hOwns u side' hHolds'
    -- The mutex was owned by `t`, so no other thread is in a section of this side.
    have hSide : side' ≠ side := by
      rintro rfl
      exact hSelf (Option.some.inj (hOwner.symm.trans (hOwns t side' hBefore)))
    rw [hMutex, Function.update_of_ne hSide]
    exact hOwner

theorem RegistryStep.ownsSections (hStep : RegistryStep s t s') (hOwns : s.OwnsSections) :
    s'.OwnsSections := by
  cases hStep with
  | create | testPasses | testFails | allocate | callPasses | callFails | addTopic
  | addTopicFails | deleteFailed | destroy | removeTopic | deleteDestroyed | discover
  | discovered =>
      exact RegistryState.ownsSections_of_holds hOwns rfl (fun _ hHolds => hHolds.elim) rfl
  | insert hAt | erase hAt | update hAt =>
      refine RegistryState.ownsSections_of_holds hOwns rfl (fun side hHolds => ?_) rfl
      rw [hAt]
      exact hHolds
  | lockInsert hAt hFree | lockErase hAt hFree | lockUpdate hAt hFree =>
      exact RegistryState.ownsSections_lock hOwns hFree fun _ hHolds => hHolds.symm
  | created hAt | unlockErase hAt | unlockUpdate hAt =>
      refine RegistryState.ownsSections_unlock hOwns ?_ (fun _ => id) rfl rfl
      rw [hAt]
      rfl

theorem RegistryState.ownsSections_of_reachable (hReachable : registryMachine.Reachable s) :
    s.OwnsSections := by
  refine hReachable.invariant ?_ (fun _ _ _ hOwns hStep => hStep.ownsSections hOwns)
  rintro s rfl t side hHolds
  exact hHolds.elim

/-! ## Discovery and the memory -/

/-- Along every interleaving of creates, destroys and events, whoever is in a section
of a mutex is there alone and finds only infos that are in memory in the registry.
While no create and no destroy is in progress the registry has exactly the live
entities. -/
theorem registry_noDangling (hReachable : registryMachine.Reachable s) :
    (∀ t side, (s.thread t).Holds side → s.NoDangling side) ∧
    (∀ t u side, (s.thread t).Holds side → (s.thread u).Holds side → t = u) ∧
    ((∀ t, ¬ (s.thread t).ChangesEntities) → ∀ side, s.HoldsLive side) := by
  have hBelongs := RegistryState.belongs_of_reachable hReachable
  have hOwns := RegistryState.ownsSections_of_reachable hReachable
  refine ⟨?_, ?_, ?_⟩
  · intro t side _ topicName address hListed
    by_contra hGone
    -- An address that is free is in no registry, whoever looks.
    have hFree : (s.table side).infos address = none := by
      rw [Option.eq_none_iff_forall_ne_some]
      exact fun info hInfo => hGone ⟨info, hInfo⟩
    exact ((hBelongs side address).of_free hFree).1 topicName hListed
  · intro t u side hHolds hHolds'
    exact Option.some.inj ((hOwns t side hHolds).symm.trans (hOwns u side hHolds'))
  · intro hQuiet side
    -- Without a create or a destroy, an info that is not free is that of a handle.
    have hSettled : ∀ address, ((s.table side).infos address = none ∧
        (s.table side).Unregistered address ∧ s.handle side address = none) ∨
        ∃ topicName, (s.table side).Backs address topicName true ∧
          s.handle side address = some topicName := by
      intro address
      cases hBelongs side address with
      | nobody hMemory hRegistry hHandle _ => exact .inl ⟨hMemory, hRegistry, hHandle⟩
      | client topicName hBacks hHandle _ => exact .inr ⟨topicName, hBacks, hHandle⟩
      | thread t topicName registered hStake _ _ _ =>
          refine absurd ?_ (hQuiet t)
          cases hState : s.thread t with
          | testing | creating | destroying => trivial
          | idle | discovering | updating =>
              rw [hState] at hStake
              cases hStake
    refine ⟨fun topicName address => ?_, fun address => ?_, fun address info hInfo => ?_⟩
    · rcases hSettled address with ⟨-, hRegistry, hHandle⟩ | ⟨topic, hBacks, hHandle⟩
      · rw [hHandle]
        exact iff_of_false (hRegistry topicName) (by simp)
      · rw [hHandle, hBacks.registry]
        simp [eq_comm]
    · rcases hSettled address with ⟨hMemory, -, hHandle⟩ | ⟨topic, hBacks, hHandle⟩
      · rw [hHandle, hMemory]
        rfl
      · rw [hHandle, hBacks.memory]
    · rcases hSettled address with ⟨hMemory, -, -⟩ | ⟨topic, hBacks, -⟩
      · rw [hMemory] at hInfo
        cases hInfo
      · exact ⟨topic, (hBacks.registry topic).mpr ⟨rfl, rfl⟩, fun other hOther =>
          ((hBacks.registry other).mp hOther).2⟩

end Runs

/-! ## A publisher and an event -/

theorem RegistryState.setThread_setThread (s : RegistryState) (t : Nat)
    (state state' : ThreadState) :
    (s.setThread t state).setThread t state' = s.setThread t state' := by
  simp [setThread]

/-- Tests that succeed are passed one after the other. -/
theorem reachable_tested {s : RegistryState} {t : Nat} {side : Side} {topicName : StdString}
    {tests calls : List FailurePoint} (hTests : ∀ test ∈ tests, test.succeeds = true)
    (hReachable : registryMachine.Reachable (s.setThread t (.testing side topicName tests calls))) :
    registryMachine.Reachable (s.setThread t (.testing side topicName [] calls)) := by
  induction tests with
  | nil => exact hReachable
  | cons test tests ih =>
      obtain ⟨hTest, hRest⟩ := List.forall_mem_cons.mp hTests
      apply ih hRest
      rw [← s.setThread_setThread t (.testing side topicName (test :: tests) calls)]
      exact hReachable.step (.testPasses (Function.update_self _ _ _) hTest)

/-- So are the fallible calls. -/
theorem reachable_called {s : RegistryState} {t : Nat} {info : InfoRef}
    {calls : List FailurePoint} (hCalls : ∀ call ∈ calls, call.succeeds = true)
    (hReachable : registryMachine.Reachable (s.setThread t (.creating info (.calling calls)))) :
    registryMachine.Reachable (s.setThread t (.creating info (.calling []))) := by
  induction calls with
  | nil => exact hReachable
  | cons call calls ih =>
      obtain ⟨hCall, hRest⟩ := List.forall_mem_cons.mp hCalls
      apply ih hRest
      rw [← s.setThread_setThread t (.creating info (.calling (call :: calls)))]
      exact hReachable.step (.callPasses (Function.update_self _ _ _) hCall)

/-- Thread 0 has created a publisher on `/t`, and thread 1 is in the section of an event
that lists a subscriber on `/t`.  The section finds the publisher, and it is live. -/
theorem talker_registry_noDangling :
    ∃ s, registryMachine.Reachable s ∧ (s.thread 1).Holds .publisher ∧
      0 ∈ (s.table .publisher).registered (bytesOf "/t") ∧ s.NoDangling .publisher ∧
      s.HoldsLive .publisher := by
  have hTests : ∀ test ∈ Creation.talkerCall.tests, test.succeeds = true := by decide
  have hCalls : ∀ call ∈ Creation.talkerCall.calls, call.succeeds = true := by decide
  have hStart : registryMachine.Reachable RegistryState.start := .init rfl
  have hTested := reachable_tested hTests
    (hStart.step (.create (t := 0) Creation.talkerCall rfl rfl))
  have hCalled := reachable_called hCalls (hTested.step (.allocate (t := 0) 0 rfl rfl))
  have hInsert := (hCalled.step (.addTopic (t := 0) rfl)).step (.lockInsert (t := 0) rfl rfl)
  have hCreated := (hInsert.step (.insert (t := 0) rfl)).step (.created (t := 0) rfl)
  have hEvent := hCreated.step (.discover (t := 1) (bytesOf "peer") {}
    { subscribers := [{ topic := bytesOf "/t", types := [bytesOf "T"] }] } rfl)
  have hSection := hEvent.step (.lockUpdate (t := 1) rfl rfl)
  have hSafe := registry_noDangling hSection
  refine ⟨_, hSection, rfl, ?_, hSafe.1 1 .publisher rfl, hSafe.2.2 ?_ .publisher⟩
  · decide
  · intro t hChanges
    by_cases hOne : t = 1
    · subst hOne
      exact hChanges
    · by_cases hZero : t = 0
      · subst hZero
        exact hChanges
      · have hIdle : ThreadState.ChangesEntities .idle := by
          simpa [RegistryState.setThread, RegistryState.setMutex, RegistryState.setHandle,
            RegistryState.setTable, RegistryState.start, hOne, hZero] using hChanges
        exact hIdle

end Discovery
end RmwDps
