import RmwDps.Lifecycle.Node

/-!
# The ledger of a node

Runs of create and destroy functions on a node, in any order and with any failures.
Nothing is given back twice.  What is held is what the node and the live entities own, and
the listeners that failing create functions have lost, one for each that DPS refused a
subscription or its data at the wrong moment.

The same runs change the payload of the node.  A node without live entities, none of whose
create functions failed in one of the two ways that leave something behind, is as it was
when it was created, and its destruction leaves nothing.
-/

namespace RmwDps
namespace Lifecycle

open Discovery (Advertisement bytesOf talker)
open Discovery.Creation (CreateCall NodeEvent NodeRun firstFailure freshRun talkerCall)
open Ownership (Block Heap)
open Serialization (DpsCbor DpsStatus StdString rfcCbor)
open Transition (Machine)

/-! ## One call -/

instance (call : CreateCall) : Decidable (LosesListener call) :=
  match call with
  | .publisher _ _ _ => inferInstanceAs (Decidable False)
  | .subscription _ _ calls => inferInstanceAs
      (Decidable (calls.createSubscription = true ∧ calls.setSubscriptionData ≠ .ok))
  | .service _ _ _ calls => inferInstanceAs
      (Decidable (calls.createSubscription = false ∨ calls.setSubscriptionData ≠ .ok))
  | .client _ _ _ calls => inferInstanceAs
      (Decidable (calls.createPublication = true ∧ calls.setPublicationData ≠ .ok))

/-- The number of listeners that a call loses. -/
def lostBy (call : CreateCall) : Nat :=
  if firstFailure call.tests = none ∧ LosesListener call then 1 else 0

/-- What a create function does to a heap: if it returns an entity, the entity owns all
that has been allocated; otherwise all has been given back but the lost listeners. -/
theorem create_held (call : CreateCall) (status : DpsStatus) {heap : Heap Resource}
    (hValid : heap.Valid) :
    (create call status heap).2.Valid ∧
    (create call status heap).2.badReleases = heap.badReleases ∧
    match (create call status heap).1 with
    | some entity => ((∀ point ∈ call.points, point.succeeds = true) ∧ status = .ok) ∧
        entity.data.FitsTo entity.kind ∧
        (create call status heap).2.held = entity.blocks + heap.held
    | none => ¬ ((∀ point ∈ call.points, point.succeeds = true) ∧ status = .ok) ∧
        ∃ lost, Listeners (lostBy call) lost ∧
          (create call status heap).2.held = lost + heap.held := by
  obtain ⟨left, hCreates, hHeld, hValid', hGood⟩ :=
    create_creates call status heap.held heap hValid (zero_add _).symm
  refine ⟨hValid', hGood, ?_⟩
  cases hEntity : (create call status heap).1 with
  | some entity =>
      rw [hEntity] at hCreates
      obtain ⟨hSucceeds, hKind, hFits, rfl⟩ := hCreates
      exact ⟨hSucceeds, hKind ▸ hFits, hHeld⟩
  | none =>
      rw [hEntity] at hCreates
      obtain ⟨hFails, count, hLost, hLoses, hKeeps⟩ := hCreates
      refine ⟨hFails, left, ?_, hHeld⟩
      unfold lostBy
      split_ifs with hBoth
      · rwa [← hLoses hBoth]
      · rwa [← hKeeps hBoth]

theorem forall_points_iff {call : CreateCall} :
    (∀ point ∈ call.points, point.succeeds = true) ↔ ¬ call.FailsEarly := by
  simp [CreateCall.FailsEarly]

/-- The function that allocates and the one that publishes agree on whether they
succeed. -/
theorem create_isSome_iff [DpsCbor] (call : CreateCall) (status : DpsStatus)
    {heap : Heap Resource} (hValid : heap.Valid) (impl : Advertisement) :
    (create call status heap).1.isSome = true ↔
      ∃ impl', call.run status impl = .ok (.ok, impl') := by
  have hHeld := (create_held call status hValid).2.2
  have hSome : (create call status heap).1.isSome = true ↔
      (∀ point ∈ call.points, point.succeeds = true) ∧ status = .ok := by
    cases hEntity : (create call status heap).1 with
    | some entity =>
        rw [hEntity] at hHeld
        exact iff_of_true rfl hHeld.1
    | none =>
        rw [hEntity] at hHeld
        exact iff_of_false (by simp) hHeld.1
  rw [hSome, forall_points_iff]
  constructor
  · rintro ⟨hLate, hStatus⟩
    obtain ⟨ret, impl', hRun, -, hRet⟩ := CreateCall.run_of_not_failsEarly hLate status impl
    exact ⟨impl', hRet.mpr hStatus ▸ hRun⟩
  · rintro ⟨impl', hRun⟩
    have hLate := forall_points_iff.mp (CreateCall.succeeds_of_run hRun)
    obtain ⟨ret, impl'', hRun', -, hRet⟩ := CreateCall.run_of_not_failsEarly hLate status impl
    rw [hRun] at hRun'
    cases hRun'
    exact ⟨hLate, hRet.mp rfl⟩

/-- The service whose name is refused, and the one whose subscription is: the second loses
its listener. -/
def serviceCall (createSubscription : Bool) : CreateCall :=
  .service
    { node := true, implementationIdentifier := intelDpsIdentifier, name := some (bytesOf "/s")
      qosPolicies := true, impl := true, implNode := true, typeSupport := true }
    (bytesOf "Q") (bytesOf "R")
    { createSubscription, setSubscriptionData := .ok, subscribe := .ok, handleAllocate := true
      allocate := false }

/-- A node with its heap and its handle.  A live entity has its handle, and its part in the
discovery payload.  `leftover` and `lost` are records of the run: the entities whose discovery
name a failing create function has left in the payload, and the number of listeners lost. -/
structure Ledger where
  handle : NodeHandle
  impl : Advertisement
  heap : Heap Resource
  live : List (Entity × Discovery.Entity)
  leftover : List Discovery.Entity
  lost : Nat

/-- A call of a create function or of a destroy function, with what
`DPS_DiscoveryPublish` returns to it. -/
inductive LedgerEvent
  | create (call : CreateCall) (status : DpsStatus)
  | destroy (entity : Entity × Discovery.Entity) (status : DpsStatus)

/-- What the discovery payload knows about. -/
def Ledger.node (s : Ledger) : NodeRun :=
  { impl := s.impl, live := s.live.map Prod.snd, leftover := s.leftover }

section Run

variable [DpsCbor]

def Ledger.next (s : Ledger) : LedgerEvent → Option Ledger
  | .create call status =>
      match call.run status s.impl with
      | .ok (_, impl) =>
          match create call status s.heap with
          | (some entity, heap) =>
              some { s with impl, heap, live := (entity, call.entity) :: s.live }
          | (none, heap) =>
              some { s with impl, heap, leftover := s.node.leftoverAfter call,
                            lost := s.lost + lostBy call }
      | .error _ => none
  | .destroy entity status =>
      if entity ∈ s.live then
        match entity.2.destroy status s.impl with
        | .ok (_, impl) =>
            some { s with impl, heap := (entity.1.destroy s.heap).2, live := s.live.erase entity }
        | .error _ => none
      else none

/-- The runs of a node from its creation on, where everything has succeeded. -/
def ledgerMachine (name namespace_ : StdString) : Machine Ledger LedgerEvent where
  init s := Discovery.createNode .ok name namespace_ = .ok (.ok, s.impl) ∧
    (∃ calls cleanup, calls.AllSucceed .ok ∧
      createNode calls .ok cleanup Heap.empty = (some s.handle, s.heap)) ∧
    s.live = [] ∧ s.leftover = [] ∧ s.lost = 0
  step s event s' := s.next event = some s'

end Run

/-- A create function that fails leaves neither its name nor its listener behind. -/
def LedgerEvent.FailsCleanly : LedgerEvent → Prop
  | .create call status => (call.FailsEarly ∨ status = .ok) ∧ lostBy call = 0
  | .destroy _ _ => True

/-- What is held is what the node and the live entities own, and the lost listeners. -/
structure Ledger.Balanced (s : Ledger) : Prop where
  valid : s.heap.Valid
  good : s.heap.badReleases = 0
  complete : s.handle.Complete
  fits : ∀ entity ∈ s.live, entity.1.data.FitsTo entity.1.kind
  held : ∃ lost, Listeners s.lost lost ∧
    s.heap.held = s.handle.blocks + ((s.live.map fun entity => entity.1.blocks).sum + lost)

theorem Listeners.add {count count' : Nat} {left left' : Multiset (Block Resource)}
    (hLeft : Listeners count left) (hLeft' : Listeners count' left') :
    Listeners (count + count') (left + left') := by
  refine ⟨by rw [Multiset.card_add, hLeft.1, hLeft'.1], fun block hBlock => ?_⟩
  rcases Multiset.mem_add.mp hBlock with hMem | hMem
  · exact hLeft.2 block hMem
  · exact hLeft'.2 block hMem

/-- A destroyed entity is the first of its name in the list of names, and need not be it in
the list of handles. -/
theorem map_erase_perm {α β : Type} [BEq α] [LawfulBEq α] [BEq β] [LawfulBEq β] {a : α}
    {as : List α} (f : α → β) (hMem : a ∈ as) :
    ((as.map f).erase (f a)).Perm ((as.erase a).map f) := by
  have hPerm := ((List.perm_cons_erase hMem).map f).erase (f a)
  rwa [List.map_cons, List.erase_cons_head] at hPerm

/-- A node of a run without live entities is destroyed: `destroy_node` returns
`RMW_RET_OK`, and what stays are the lost listeners. -/
theorem Ledger.Balanced.destroyNode_leaves {s : Ledger} (hBalanced : s.Balanced)
    (hLive : s.live = []) {calls : DestroyNodeCalls} (hCalls : calls.AllSucceed) :
    (destroyNode calls (some s.handle) s.heap).1 = .ok ∧
      Listeners s.lost (destroyNode calls (some s.handle) s.heap).2.held ∧
      (destroyNode calls (some s.handle) s.heap).2.badReleases = 0 := by
  obtain ⟨lost, hLost, hHeld⟩ := hBalanced.held
  obtain ⟨left, ⟨hRet, rfl⟩, hLeft, -, hGood⟩ :=
    destroyNode_empties hCalls hBalanced.complete lost 0 s.heap hBalanced.valid
      (by rw [hHeld, hLive, List.map_nil, List.sum_nil, zero_add, add_zero])
  exact ⟨hRet, by rwa [hLeft, add_zero], hGood.trans hBalanced.good⟩

section Run

variable [DpsCbor] {name namespace_ : StdString} {s s' : Ledger}

theorem Ledger.balanced_init (hInit : (ledgerMachine name namespace_).init s) : s.Balanced := by
  obtain ⟨-, ⟨calls, cleanup, hSucceeds, hCreate⟩, hLive, -, hLost⟩ := hInit
  have hWritten : ¬ calls.UsesUnwritten := fun hUses =>
    hUses.2 ⟨hSucceeds.1.2.1, hSucceeds.1.2.2.1, hSucceeds.1.2.2.2.1⟩
  obtain ⟨left, hEnd, hHeld, hValid, hGood⟩ :=
    createNode_creates .ok cleanup hWritten 0 Heap.empty Heap.empty_valid rfl
  rw [hCreate] at hEnd hHeld hValid hGood
  obtain ⟨-, hComplete, rfl⟩ := hEnd
  refine ⟨hValid, hGood, hComplete, ?_, 0, ?_, ?_⟩
  · simp [hLive]
  · rw [hLost]
    exact listeners_zero
  · rw [hLive]
    exact hHeld

/-- What a create function does to a ledger. -/
theorem Ledger.next_create {call : CreateCall} {status : DpsStatus}
    (hNext : s.next (.create call status) = some s') :
    s'.heap = (create call status s.heap).2 ∧ s'.handle = s.handle ∧
    ∃ ret, call.run status s.impl = .ok (ret, s'.impl) ∧
      match (create call status s.heap).1 with
      | some entity => s'.live = (entity, call.entity) :: s.live ∧ s'.leftover = s.leftover ∧
          s'.lost = s.lost
      | none => s'.live = s.live ∧ s'.leftover = s.node.leftoverAfter call ∧
          s'.lost = s.lost + lostBy call := by
  simp only [next] at hNext
  split at hNext
  · next ret impl hRun =>
    rcases hCreate : create call status s.heap with ⟨_ | entity, heap⟩
    · simp only [hCreate, Option.some.injEq] at hNext
      subst hNext
      exact ⟨rfl, rfl, ret, hRun, rfl, rfl, rfl⟩
    · simp only [hCreate, Option.some.injEq] at hNext
      subst hNext
      exact ⟨rfl, rfl, ret, hRun, rfl, rfl, rfl⟩
  · cases hNext

/-- What a destroy function does to a ledger. -/
theorem Ledger.next_destroy {entity : Entity × Discovery.Entity} {status : DpsStatus}
    (hNext : s.next (.destroy entity status) = some s') :
    entity ∈ s.live ∧ (∃ ret, entity.2.destroy status s.impl = .ok (ret, s'.impl)) ∧
      s'.heap = (entity.1.destroy s.heap).2 ∧ s'.handle = s.handle ∧
      s'.live = s.live.erase entity ∧ s'.leftover = s.leftover ∧ s'.lost = s.lost := by
  simp only [next] at hNext
  split_ifs at hNext with hLive
  split at hNext
  · next ret impl hDestroy =>
    obtain rfl := Option.some.inj hNext
    exact ⟨hLive, ⟨ret, hDestroy⟩, rfl, rfl, rfl, rfl, rfl⟩
  · cases hNext

theorem Ledger.balanced_create {call : CreateCall} {status : DpsStatus} (hBalanced : s.Balanced)
    (hNext : s.next (.create call status) = some s') : s'.Balanced := by
  obtain ⟨hHeap, hNode, ret, -, hResult⟩ := next_create hNext
  obtain ⟨hValid, hGood, hHeld⟩ := create_held call status hBalanced.valid
  obtain ⟨lost, hLost, hBefore⟩ := hBalanced.held
  cases hEntity : (create call status s.heap).1 with
  | some entity =>
      rw [hEntity] at hResult hHeld
      obtain ⟨hLive, -, hSame⟩ := hResult
      obtain ⟨-, hFits, hOwned⟩ := hHeld
      refine ⟨hHeap ▸ hValid, by rw [hHeap, hGood, hBalanced.good], hNode ▸ hBalanced.complete, ?_,
        lost, hSame ▸ hLost, ?_⟩
      · rw [hLive]
        exact List.forall_mem_cons.mpr ⟨hFits, hBalanced.fits⟩
      · rw [hHeap, hOwned, hBefore, hNode, hLive, List.map_cons, List.sum_cons]
        abel
  | none =>
      rw [hEntity] at hResult hHeld
      obtain ⟨hLive, -, hMore⟩ := hResult
      obtain ⟨-, lost', hLost', hOwned⟩ := hHeld
      refine ⟨hHeap ▸ hValid, by rw [hHeap, hGood, hBalanced.good], hNode ▸ hBalanced.complete, ?_,
        lost + lost', ?_, ?_⟩
      · rw [hLive]
        exact hBalanced.fits
      · rw [hMore]
        exact hLost.add hLost'
      · rw [hHeap, hOwned, hBefore, hNode, hLive]
        abel

theorem Ledger.balanced_destroy {entity : Entity × Discovery.Entity} {status : DpsStatus}
    (hBalanced : s.Balanced) (hNext : s.next (.destroy entity status) = some s') :
    s'.Balanced := by
  obtain ⟨hMem, -, hHeap, hNode, hLive, -, hSame⟩ := next_destroy hNext
  obtain ⟨lost, hLost, hBefore⟩ := hBalanced.held
  have hSum : (s.live.map fun entity => entity.1.blocks).sum =
      entity.1.blocks + ((s.live.erase entity).map fun entity => entity.1.blocks).sum := by
    have hPerm := (List.perm_cons_erase hMem).map fun entity => entity.1.blocks
    rw [hPerm.sum_eq, List.map_cons, List.sum_cons]
  have hGivesBack := Entity.givesBack_destroy (hBalanced.fits entity hMem)
  obtain ⟨_, rfl, hHeld, hValid, hGood⟩ :=
    hGivesBack 0 (s.handle.blocks + (((s.live.erase entity).map fun entity =>
      entity.1.blocks).sum + lost)) s.heap hBalanced.valid (by rw [hBefore, hSum]; abel)
  refine ⟨hHeap ▸ hValid, by rw [hHeap, hGood, hBalanced.good], hNode ▸ hBalanced.complete, ?_,
    lost, hSame ▸ hLost, ?_⟩
  · rw [hLive]
    exact fun other hOther => hBalanced.fits other (List.mem_of_mem_erase hOther)
  · rw [hHeap, hHeld, hNode, hLive, zero_add]

theorem Ledger.balanced_next {event : LedgerEvent} (hBalanced : s.Balanced)
    (hNext : s.next event = some s') : s'.Balanced := by
  cases event with
  | create call status => exact balanced_create hBalanced hNext
  | destroy entity status => exact balanced_destroy hBalanced hNext

/-! ### The payload -/

theorem Ledger.listed_init (hInit : (ledgerMachine name namespace_).init s) :
    s.node.Listed name namespace_ := by
  obtain ⟨hCreate, -, hLive, hLeftover, -⟩ := hInit
  exact NodeRun.listed_init ⟨hCreate, by simp [node, hLive], hLeftover⟩

/-- The payload of a ledger changes as that of a run of the node. -/
theorem Ledger.listed_next {event : LedgerEvent} (hBalanced : s.Balanced)
    (hListed : s.node.Listed name namespace_) (hNext : s.next event = some s') :
    s'.node.Listed name namespace_ := by
  cases event with
  | create call status =>
      obtain ⟨-, -, ret, hRun, hResult⟩ := next_create hNext
      have hAgrees := create_isSome_iff call status hBalanced.valid s.impl
      have hStep : s.node.next (.create call status) = some s'.node := by
        cases hEntity : (create call status s.heap).1 with
        | some entity =>
            rw [hEntity] at hResult hAgrees
            obtain ⟨hLive, hLeftover, -⟩ := hResult
            obtain ⟨impl', hOk⟩ := hAgrees.mp rfl
            rw [hRun] at hOk
            cases hOk
            simp [NodeRun.next, node, hRun, hLive, hLeftover]
        | none =>
            rw [hEntity] at hResult hAgrees
            obtain ⟨hLive, hLeftover, -⟩ := hResult
            have hFailed : ret ≠ .ok := by
              rintro rfl
              exact absurd (hAgrees.mpr ⟨_, hRun⟩) (by simp)
            cases ret with
            | ok => exact absurd rfl hFailed
            | timeout => simp [NodeRun.next, node, hRun, hLive, hLeftover]
            | error message => simp [NodeRun.next, node, hRun, hLive, hLeftover]
      exact NodeRun.listed_next hListed hStep
  | destroy entity status =>
      obtain ⟨hMem, ⟨ret, hDestroy⟩, -, -, hLive, hLeftover, -⟩ := next_destroy hNext
      have hKnown : entity.2 ∈ s.node.live := List.mem_map_of_mem hMem
      have hStep : s.node.next (.destroy entity.2 status) =
          some { impl := s'.impl, live := s.node.live.erase entity.2, leftover := s.leftover } := by
        simp only [NodeRun.next, if_pos hKnown]
        rw [show s.node.impl = s.impl from rfl, hDestroy]
        rfl
      obtain ⟨topics, hPayload, hPerm⟩ := NodeRun.listed_next hListed hStep
      have hErase : (s.node.live.erase entity.2).Perm s'.node.live := by
        rw [node, node, hLive]
        exact map_erase_perm Prod.snd hMem
      have hSame : s.leftover = s'.node.leftover := hLeftover.symm
      refine ⟨topics, hPayload, hPerm.trans (List.Perm.map _ ?_)⟩
      rw [← hSame]
      exact hErase.append_right s.leftover

/-- Nothing is left behind by create functions that fail cleanly. -/
theorem Ledger.clean_next {event : LedgerEvent} (hBalanced : s.Balanced)
    (hClean : s.lost = 0 ∧ s.leftover = []) (hFails : event.FailsCleanly)
    (hNext : s.next event = some s') : s'.lost = 0 ∧ s'.leftover = [] := by
  obtain ⟨hLost, hLeftover⟩ := hClean
  cases event with
  | create call status =>
      obtain ⟨-, -, ret, hRun, hResult⟩ := next_create hNext
      cases hEntity : (create call status s.heap).1 with
      | some entity =>
          rw [hEntity] at hResult
          exact ⟨hResult.2.2.trans hLost, hResult.2.1.trans hLeftover⟩
      | none =>
          rw [hEntity] at hResult
          obtain ⟨-, hLeftover', hLost'⟩ := hResult
          -- A call that neither fails early nor at its publish does not fail.
          have hEarly : call.FailsEarly := by
            have hHeld := (create_held call status hBalanced.valid).2.2
            rw [hEntity] at hHeld
            by_contra hLate
            exact hHeld.1 ⟨forall_points_iff.mpr hLate, hFails.1.resolve_left hLate⟩
          refine ⟨by rw [hLost', hLost, hFails.2], ?_⟩
          rw [hLeftover', NodeRun.leftoverAfter, if_pos hEarly]
          exact hLeftover
  | destroy entity status =>
      obtain ⟨-, -, -, -, -, hLeftover', hLost'⟩ := next_destroy hNext
      exact ⟨hLost'.trans hLost, hLeftover'.trans hLeftover⟩

end Run

/-! ## One publisher -/

/-- A fresh node. -/
def freshLedger : Ledger where
  handle :=
    { block := ⟨.nodeHandle, 0⟩, name := .pointsTo ⟨.name, 1⟩, namespace_ := .pointsTo ⟨.name, 2⟩
      data := .pointsTo
        { block := ⟨.nodeInfo, 3⟩
          graphGuardCondition := some ⟨⟨.guardConditionHandle, 4⟩, ⟨.guardCondition, 5⟩⟩
          listener := some ⟨.nodeListener, 6⟩, node := some ⟨.node, 7⟩
          discoverySvc := some ⟨.discoveryService, 8⟩ } }
  impl := freshRun.impl
  heap := (createNode (nodeCalls true .ok) .ok ⟨true, .ok, .ok⟩ Heap.empty).2
  live := []
  leftover := []
  lost := 0

/-- The publisher as the first entity of its node. -/
def talkerEntity : Entity where
  kind := .publisher
  handle := { block := ⟨.handle .publisher, 12⟩, name := some ⟨.name, 13⟩ }
  data :=
    { info := ⟨.info .publisher, 9⟩
      typeSupport := some ⟨.typeSupport, 10⟩
      responseTypeSupport := none
      listener := none
      object := some { block := ⟨.publication, 11⟩, data := none } }

/-- It is created, and destroyed while DPS refuses to publish. -/
def talkerLedger : Ledger :=
  @Transition.after _ _ (@Ledger.next rfcCbor) freshLedger
    [.create talkerCall .ok, .destroy (talkerEntity, talker) (.err 1)]

end Lifecycle
end RmwDps
