import RmwDps.Lifecycle.Entities

/-!
# What a node is made of

`create_node` and `destroy_node`, with every block that they allocate and every object that
they get from DPS.  The label `fail` of the first calls the second, which reads three fields
of a handle that comes as it is from the allocator: of those that have not been assigned by
then, nobody knows what they hold.
-/

namespace RmwDps
namespace Lifecycle

open Ownership (Block Heap Program acquire tryAcquire release releaseIfAny misuse owned Triple
  GivesBack Counts Misuses tryAcquire_false_bind tryAcquire_true_bind)
open Serialization (DpsStatus StdString)

/-! ## Handles -/

/-- A pointer in a handle. -/
inductive Field (α : Type)
  | unwritten
  | null
  | pointsTo (target : α)
  deriving DecidableEq, Repr

/-- `rmw_guard_condition_t`, and the `GuardCondition` in its `data`. -/
structure GuardConditionHandle where
  block : Block Resource
  data : Block Resource
  deriving DecidableEq, Repr

/-- The pointers of `CustomNodeInfo`. -/
structure NodeImpl where
  block : Block Resource
  graphGuardCondition : Option GuardConditionHandle
  listener : Option (Block Resource)
  node : Option (Block Resource)
  discoverySvc : Option (Block Resource)
  deriving DecidableEq, Repr

/-- `rmw_node_t`. -/
structure NodeHandle where
  block : Block Resource
  name : Field (Block Resource)
  namespace_ : Field (Block Resource)
  data : Field NodeImpl
  deriving DecidableEq, Repr

/-- What follows a test for null. -/
def Field.free : Field (Block Resource) → Program Resource Unit
  | .unwritten => misuse
  | .null => pure ()
  | .pointsTo block => release block

/-- What an allocation that may fail writes to a field. -/
def Field.ofOption {α : Type} : Option α → Field α
  | some target => .pointsTo target
  | none => .null

/-- `rmw_create_guard_condition` with a context of this implementation. -/
def createGuardCondition : Program Resource GuardConditionHandle := do
  let block ← acquire .guardConditionHandle
  let data ← acquire .guardCondition
  return { block, data }

/-- `rmw_destroy_guard_condition` with a handle. -/
def GuardConditionHandle.destroy (handle : GuardConditionHandle) : Program Resource Unit := do
  release handle.data
  release handle.block

/-! ## Destroying a node -/

/-- What DPS returns to `destroy_node`.  An object whose destruction it refuses stays. -/
structure DestroyNodeCalls where
  createEvent : Bool
  destroyDiscoveryService : DpsStatus
  destroyNode : DpsStatus
  deriving DecidableEq, Repr

/-- A destroy function of DPS that returns `status`, behind a test for null. -/
def destroyIfAny (status : DpsStatus) (object : Option (Block Resource)) : Program Resource Unit :=
  if status = .ok then releaseIfAny object else pure ()

def destroyGuardConditionIfAny : Option GuardConditionHandle → Program Resource Unit
  | some handle => handle.destroy
  | none => pure ()

/-- What `destroy_node` does with the `data` of the handle. -/
def NodeImpl.destroy (impl : NodeImpl) (calls : DestroyNodeCalls) : Program Resource RmwRet := do
  let event ← tryAcquire calls.createEvent .event
  match event with
  | none => return .error "failed to allocate DPS_Event"
  | some event => do
      destroyIfAny calls.destroyDiscoveryService impl.discoverySvc
      destroyIfAny calls.destroyNode impl.node
      release event
      releaseIfAny impl.listener
      destroyGuardConditionIfAny impl.graphGuardCondition
      release impl.block
      return .ok

def Field.destroy (calls : DestroyNodeCalls) : Field NodeImpl → Program Resource RmwRet
  | .unwritten => do
      misuse
      return .ok
  | .null => return .ok
  | .pointsTo impl => impl.destroy calls

/-- The last lines of `destroy_node`. -/
def NodeHandle.free (handle : NodeHandle) : Program Resource Unit := do
  handle.namespace_.free
  handle.name.free
  release handle.block

def destroyNode (calls : DestroyNodeCalls) : Option NodeHandle → Program Resource RmwRet
  | none => return .ok
  | some handle => do
      let ret ← handle.data.destroy calls
      if ret ≠ .ok then return ret
      else do
        handle.free
        return .ok

/-! ## Creating a node -/

/-- What DPS and the allocator return to `create_node`, and what becomes of its label
`fail`.  `createGuardCondition` says that the context is one of this implementation. -/
structure CreateNodeCalls where
  nodeAllocate : Bool
  allocateName : Bool
  allocateNamespace : Bool
  newNodeInfo : Bool
  createGuardCondition : Bool
  createNode : Bool
  startNode : DpsStatus
  createDiscoveryService : Bool
  setDiscoveryServiceData : DpsStatus
  deriving DecidableEq, Repr

/-- The part of `create_node` behind the discovery service.  `status` is what
`DPS_DiscoveryPublish` returns. -/
def startDiscovery (calls : CreateNodeCalls) (status : DpsStatus) (handle : NodeHandle)
    (impl : NodeImpl) (fail : NodeHandle → Program Resource (Option NodeHandle)) :
    Program Resource (Option NodeHandle) := do
  let discoverySvc ← tryAcquire calls.createDiscoveryService .discoveryService
  let handle := { handle with data := .pointsTo { impl with discoverySvc } }
  if discoverySvc.isNone then fail handle
  else if calls.setDiscoveryServiceData ≠ .ok then fail handle
  else if status ≠ .ok then fail handle
  else return some handle

/-- The part of `create_node` behind `new CustomNodeInfo`. -/
def createImpl (calls : CreateNodeCalls) (status : DpsStatus) (handle : NodeHandle)
    (block : Block Resource) (fail : NodeHandle → Program Resource (Option NodeHandle)) :
    Program Resource (Option NodeHandle) := do
  let impl : NodeImpl :=
    { block, graphGuardCondition := none, listener := none, node := none, discoverySvc := none }
  if calls.createGuardCondition = false then fail { handle with data := .pointsTo impl }
  else do
    let guardCondition ← createGuardCondition
    let listener ← acquire .nodeListener
    let node ← tryAcquire calls.createNode .node
    let impl :=
      { impl with graphGuardCondition := some guardCondition, listener := some listener, node }
    if node.isNone then fail { handle with data := .pointsTo impl }
    else if calls.startNode ≠ .ok then fail { handle with data := .pointsTo impl }
    else startDiscovery calls status handle impl fail

/-- `fail`. -/
def failNode (cleanup : DestroyNodeCalls) (handle : Option NodeHandle) :
    Program Resource (Option NodeHandle) := do
  let _ ← destroyNode cleanup handle
  return none

/-- `create_node` behind its tests. -/
def createNode (calls : CreateNodeCalls) (status : DpsStatus) (cleanup : DestroyNodeCalls) :
    Program Resource (Option NodeHandle) := do
  let handle ← tryAcquire calls.nodeAllocate .nodeHandle
  match handle with
  | none => failNode cleanup none
  | some block => do
      let fail := fun handle => failNode cleanup (some handle)
      let name ← tryAcquire calls.allocateName .name
      let handle : NodeHandle :=
        { block, name := .ofOption name, namespace_ := .unwritten, data := .unwritten }
      if name.isNone then fail handle
      else do
        let namespace_ ← tryAcquire calls.allocateNamespace .name
        let handle := { handle with namespace_ := .ofOption namespace_ }
        if namespace_.isNone then fail handle
        else do
          let impl ← tryAcquire calls.newNodeInfo .nodeInfo
          match impl with
          | none => fail handle
          | some block => createImpl calls status handle block fail

/-! ## What a node owns -/

def Field.elim {α β : Type} (nothing : β) (target : α → β) : Field α → β
  | .unwritten | .null => nothing
  | .pointsTo a => target a

def GuardConditionHandle.blocks (handle : GuardConditionHandle) : Multiset (Block Resource) :=
  {handle.block} + {handle.data}

def NodeImpl.blocks (impl : NodeImpl) : Multiset (Block Resource) :=
  {impl.block} + impl.graphGuardCondition.elim 0 GuardConditionHandle.blocks +
    owned impl.listener + owned impl.node + owned impl.discoverySvc

def NodeHandle.blocks (handle : NodeHandle) : Multiset (Block Resource) :=
  {handle.block} + handle.name.elim 0 (fun block => {block}) +
    handle.namespace_.elim 0 (fun block => {block}) + handle.data.elim 0 NodeImpl.blocks

/-- The object, if DPS destroys it, and otherwise nothing. -/
def accepted (status : DpsStatus) (object : Option (Block Resource)) : Multiset (Block Resource) :=
  if status = .ok then owned object else 0

/-- The object, if DPS refuses to destroy it. -/
def refused (status : DpsStatus) (object : Option (Block Resource)) : Multiset (Block Resource) :=
  if status = .ok then 0 else owned object

/-- What `destroy_node` leaves of a node. -/
def NodeImpl.refused (impl : NodeImpl) (calls : DestroyNodeCalls) : Multiset (Block Resource) :=
  Lifecycle.refused calls.destroyDiscoveryService impl.discoverySvc +
    Lifecycle.refused calls.destroyNode impl.node

/-- All that `destroy_node` reads has been written. -/
def NodeHandle.Complete (handle : NodeHandle) : Prop :=
  handle.name ≠ .unwritten ∧ handle.namespace_ ≠ .unwritten ∧
    ∃ impl, handle.data = .pointsTo impl

def DestroyNodeCalls.AllSucceed (calls : DestroyNodeCalls) : Prop :=
  calls.createEvent = true ∧ calls.destroyDiscoveryService = .ok ∧ calls.destroyNode = .ok

/-- The label `fail` is reached with a handle that has unwritten fields. -/
def CreateNodeCalls.UsesUnwritten (calls : CreateNodeCalls) : Prop :=
  calls.nodeAllocate = true ∧
    ¬ (calls.allocateName = true ∧ calls.allocateNamespace = true ∧ calls.newNodeInfo = true)

instance (calls : CreateNodeCalls) : Decidable calls.UsesUnwritten :=
  inferInstanceAs (Decidable (_ ∧ ¬ (_ ∧ _ ∧ _)))

def CreateNodeCalls.AllSucceed (calls : CreateNodeCalls) (status : DpsStatus) : Prop :=
  (calls.nodeAllocate = true ∧ calls.allocateName = true ∧ calls.allocateNamespace = true ∧
    calls.newNodeInfo = true ∧ calls.createGuardCondition = true ∧ calls.createNode = true ∧
    calls.startNode = .ok) ∧
  calls.createDiscoveryService = true ∧ calls.setDiscoveryServiceData = .ok ∧ status = .ok

section Specifications

variable {others : Multiset (Block Resource)} {handle : NodeHandle} {impl : NodeImpl}

theorem accepted_add_refused (status : DpsStatus) (object : Option (Block Resource)) :
    owned object = accepted status object + refused status object := by
  unfold accepted refused
  split_ifs
  · exact (add_zero _).symm
  · exact (zero_add _).symm

theorem Field.givesBack_free {field : Field (Block Resource)} (hWritten : field ≠ .unwritten) :
    GivesBack (field.elim 0 fun block => {block}) field.free := by
  cases field with
  | unwritten => exact absurd rfl hWritten
  | null => exact GivesBack.pure
  | pointsTo block => exact GivesBack.release block

theorem givesBack_destroyIfAny (status : DpsStatus) (object : Option (Block Resource)) :
    GivesBack (accepted status object) (destroyIfAny status object) := by
  unfold accepted destroyIfAny
  split_ifs
  · exact GivesBack.releaseIfAny object
  · exact GivesBack.pure

theorem givesBack_destroyGuardConditionIfAny (handle : Option GuardConditionHandle) :
    GivesBack (handle.elim 0 GuardConditionHandle.blocks) (destroyGuardConditionIfAny handle) := by
  cases handle with
  | none => exact GivesBack.pure
  | some handle =>
      rw [Option.elim_some, GuardConditionHandle.blocks, add_comm]
      exact (GivesBack.release _).bind (GivesBack.release _)

theorem NodeHandle.givesBack_free (hName : handle.name ≠ .unwritten)
    (hNamespace : handle.namespace_ ≠ .unwritten) :
    GivesBack ({handle.block} + handle.name.elim 0 (fun block => {block}) +
      handle.namespace_.elim 0 fun block => {block}) handle.free := by
  rw [add_comm, add_comm ({handle.block} : Multiset (Block Resource))]
  exact (Field.givesBack_free hNamespace).bind
    ((Field.givesBack_free hName).bind (GivesBack.release _))

/-- Without an event nothing is destroyed. -/
theorem NodeImpl.destroy_gives (calls : DestroyNodeCalls) (others : Multiset (Block Resource)) :
    Triple (impl.blocks + others) (impl.destroy calls) fun ret left =>
      if calls.createEvent = true then ret = .ok ∧ left = impl.refused calls + others
      else ret ≠ .ok ∧ left = impl.blocks + others := by
  refine (Triple.tryAcquire calls.createEvent _).bind fun event left hEvent => ?_
  obtain ⟨rfl, hCreated, -⟩ := hEvent
  cases event with
  | none =>
      rw [← hCreated]
      refine Triple.pure ?_
      simp
  | some event =>
      rw [← hCreated]
      have hOrder : owned (some event) + (impl.blocks + others) =
          accepted calls.destroyDiscoveryService impl.discoverySvc +
            (accepted calls.destroyNode impl.node + ({event} + (owned impl.listener +
              (impl.graphGuardCondition.elim 0 GuardConditionHandle.blocks +
                ({impl.block} + (impl.refused calls + others)))))) := by
        rw [blocks, accepted_add_refused calls.destroyDiscoveryService impl.discoverySvc,
          accepted_add_refused calls.destroyNode impl.node, refused, Ownership.owned_some]
        abel
      rw [hOrder]
      refine (givesBack_destroyIfAny _ _).andThen ((givesBack_destroyIfAny _ _).andThen
        ((GivesBack.release _).andThen ((GivesBack.releaseIfAny _).andThen
          ((givesBack_destroyGuardConditionIfAny _).andThen ((GivesBack.release _).andThen
            (Triple.pure ?_))))))
      simp

/-- `destroy_node` fails only before it has destroyed anything. -/
theorem destroyNode_gives (calls : DestroyNodeCalls) (hName : handle.name ≠ .unwritten)
    (hNamespace : handle.namespace_ ≠ .unwritten) (hData : handle.data = .pointsTo impl)
    (others : Multiset (Block Resource)) :
    Triple (handle.blocks + others) (destroyNode calls (some handle)) fun ret left =>
      if calls.createEvent = true then ret = .ok ∧ left = impl.refused calls + others
      else ret ≠ .ok ∧ left = handle.blocks + others := by
  have hOrder : handle.blocks + others = impl.blocks + ({handle.block} +
      handle.name.elim 0 (fun block => {block}) +
        handle.namespace_.elim 0 (fun block => {block}) + others) := by
    rw [NodeHandle.blocks, hData, Field.elim]
    abel
  rw [hOrder, destroyNode, hData]
  refine (NodeImpl.destroy_gives calls _).bind fun ret left hRet => ?_
  by_cases hEvent : calls.createEvent = true
  · simp only [if_pos hEvent] at hRet ⊢
    obtain ⟨rfl, rfl⟩ := hRet
    rw [if_neg (not_not.mpr rfl), add_left_comm]
    exact (NodeHandle.givesBack_free hName hNamespace).andThen (Triple.pure ⟨rfl, rfl⟩)
  · simp only [if_neg hEvent] at hRet ⊢
    obtain ⟨hFailed, rfl⟩ := hRet
    rw [if_pos hFailed]
    exact Triple.pure ⟨hFailed, rfl⟩

/-- A destruction that DPS does not refuse leaves nothing. -/
theorem destroyNode_empties {calls : DestroyNodeCalls} (hCalls : calls.AllSucceed)
    (hComplete : handle.Complete) (others : Multiset (Block Resource)) :
    Triple (handle.blocks + others) (destroyNode calls (some handle)) fun ret left =>
      ret = .ok ∧ left = others := by
  obtain ⟨hName, hNamespace, impl, hData⟩ := hComplete
  obtain ⟨hEvent, hService, hNode⟩ := hCalls
  refine (destroyNode_gives calls hName hNamespace hData others).mono fun ret left hEnd => ?_
  rw [if_pos hEvent] at hEnd
  refine ⟨hEnd.1, ?_⟩
  rw [hEnd.2, NodeImpl.refused, refused, refused, if_pos hService, if_pos hNode, zero_add, zero_add]

theorem failNode_fails (cleanup : DestroyNodeCalls) (hComplete : handle.Complete) :
    Triple handle.blocks (failNode cleanup (some handle)) fun result left =>
      result = none ∧ (cleanup.AllSucceed → left = 0) := by
  by_cases hCleanup : cleanup.AllSucceed
  · have hDestroy := destroyNode_empties hCleanup hComplete 0
    rw [add_zero] at hDestroy
    exact hDestroy.bind fun ret left hRet => Triple.pure ⟨rfl, fun _ => hRet.2⟩
  · obtain ⟨hName, hNamespace, impl, hData⟩ := hComplete
    have hDestroy := destroyNode_gives cleanup hName hNamespace hData 0
    rw [add_zero] at hDestroy
    exact hDestroy.bind fun ret left _ => Triple.pure ⟨rfl, fun hAll => absurd hAll hCleanup⟩

/-- What `create_node` ends with, where no field is read before it is written. -/
def CreatesNode (succeeds : Prop) (cleanup : DestroyNodeCalls) (result : Option NodeHandle)
    (left : Multiset (Block Resource)) : Prop :=
  match result with
  | some handle => succeeds ∧ handle.Complete ∧ left = handle.blocks
  | none => ¬ succeeds ∧ (cleanup.AllSucceed → left = 0)

theorem failNode_creates {cleanup : DestroyNodeCalls} {succeeds : Prop}
    (hComplete : handle.Complete) (hNot : ¬ succeeds) :
    Triple handle.blocks (failNode cleanup (some handle)) (CreatesNode succeeds cleanup) := by
  refine (failNode_fails cleanup hComplete).mono fun result left hEnd => ?_
  obtain ⟨rfl, hLeft⟩ := hEnd
  exact ⟨hNot, hLeft⟩

/-- The handle and its names, with an info that has been written to `data`. -/
theorem NodeHandle.blocks_data (handle : NodeHandle) (impl : NodeImpl) :
    { handle with data := .pointsTo impl }.blocks =
      { handle with data := .null }.blocks + impl.blocks := by
  simp only [NodeHandle.blocks, Field.elim, add_zero]

theorem startDiscovery_creates {calls : CreateNodeCalls} {status : DpsStatus}
    {cleanup : DestroyNodeCalls} (hName : handle.name ≠ .unwritten)
    (hNamespace : handle.namespace_ ≠ .unwritten) (hNone : impl.discoverySvc = none) :
    Triple ({ handle with data := .null }.blocks + impl.blocks)
      (startDiscovery calls status handle impl fun handle => failNode cleanup (some handle))
      (CreatesNode (calls.createDiscoveryService = true ∧ calls.setDiscoveryServiceData = .ok ∧
        status = .ok) cleanup) := by
  refine (Triple.tryAcquire _ _).bind fun discoverySvc left hService => ?_
  obtain ⟨rfl, hCreated, -⟩ := hService
  have hOwned : owned discoverySvc + ({ handle with data := .null }.blocks + impl.blocks) =
      { handle with data := .pointsTo { impl with discoverySvc } }.blocks := by
    rw [NodeHandle.blocks_data, NodeImpl.blocks, NodeImpl.blocks, hNone, Ownership.owned_none]
    abel
  rw [hOwned]
  have hComplete : NodeHandle.Complete
      { handle with data := .pointsTo { impl with discoverySvc } } := ⟨hName, hNamespace, _, rfl⟩
  dsimp only
  split_ifs with hNoService hData hStatus
  · refine failNode_creates hComplete fun hAll => ?_
    rw [← hCreated, Option.isNone_iff_eq_none.mp hNoService] at hAll
    cases hAll.1
  · exact failNode_creates hComplete fun hAll => hData hAll.2.1
  · exact failNode_creates hComplete fun hAll => hStatus hAll.2.2
  · refine Triple.pure ⟨⟨?_, not_not.mp hData, not_not.mp hStatus⟩, hComplete, rfl⟩
    rw [← hCreated, Option.isSome_iff_ne_none]
    simpa using hNoService

theorem CreatesNode.congr {succeeds succeeds' : Prop} {cleanup : DestroyNodeCalls}
    (hSucceeds : succeeds ↔ succeeds') {result : Option NodeHandle}
    {left : Multiset (Block Resource)} (hCreates : CreatesNode succeeds cleanup result left) :
    CreatesNode succeeds' cleanup result left := by
  rwa [← propext hSucceeds]

theorem createGuardCondition_creates (before : Multiset (Block Resource)) :
    Triple before createGuardCondition fun handle left => left = handle.blocks + before := by
  refine (Triple.acquire _).bind fun block left hBlock => ?_
  obtain ⟨-, rfl⟩ := hBlock
  refine (Triple.acquire _).bind fun data left hData => Triple.pure ?_
  obtain ⟨-, rfl⟩ := hData
  rw [GuardConditionHandle.blocks]
  abel

theorem createImpl_creates {calls : CreateNodeCalls} {status : DpsStatus}
    {cleanup : DestroyNodeCalls} (hName : handle.name ≠ .unwritten)
    (hNamespace : handle.namespace_ ≠ .unwritten) (block : Block Resource) :
    Triple ({ handle with data := .null }.blocks + {block})
      (createImpl calls status handle block fun handle => failNode cleanup (some handle))
      (CreatesNode ((calls.createGuardCondition = true ∧ calls.createNode = true ∧
        calls.startNode = .ok) ∧ calls.createDiscoveryService = true ∧
        calls.setDiscoveryServiceData = .ok ∧ status = .ok) cleanup) := by
  have hComplete : ∀ impl, NodeHandle.Complete { handle with data := .pointsTo impl } :=
    fun impl => ⟨hName, hNamespace, impl, rfl⟩
  unfold createImpl
  by_cases hContext : calls.createGuardCondition = true
  · rw [if_neg (by simp [hContext])]
    refine (createGuardCondition_creates _).bind fun guardCondition left hGuardCondition => ?_
    subst hGuardCondition
    refine (Triple.acquire _).bind fun listener left hListener => ?_
    obtain ⟨-, rfl⟩ := hListener
    refine (Triple.tryAcquire _ _).bind fun node left hNode => ?_
    obtain ⟨rfl, hCreated, -⟩ := hNode
    have hOwned : owned node + ({listener} + (guardCondition.blocks +
          ({ handle with data := .null }.blocks + {block}))) =
        { handle with data := .null }.blocks +
          NodeImpl.blocks ⟨block, some guardCondition, some listener, node, none⟩ := by
      simp only [NodeImpl.blocks, Option.elim_some, Ownership.owned_some, Ownership.owned_none]
      abel
    rw [hOwned]
    dsimp only
    split_ifs with hNoNode hStart
    · rw [← NodeHandle.blocks_data]
      refine failNode_creates (hComplete _) fun hAll => ?_
      rw [← hCreated, Option.isNone_iff_eq_none.mp hNoNode] at hAll
      cases hAll.1.2.1
    · rw [← NodeHandle.blocks_data]
      exact failNode_creates (hComplete _) fun hAll => hStart hAll.1.2.2
    · refine (startDiscovery_creates hName hNamespace rfl).mono fun result left => ?_
      refine CreatesNode.congr (Iff.symm (and_iff_right ⟨hContext, ?_, not_not.mp hStart⟩))
      rw [← hCreated, Option.isSome_iff_ne_none]
      simpa using hNoNode
  · have hOwned : { handle with data := .null }.blocks + {block} =
        { handle with data := .pointsTo ⟨block, none, none, none, none⟩ }.blocks := by
      rw [NodeHandle.blocks_data]
      rfl
    rw [if_pos (by simpa using hContext), hOwned]
    exact failNode_creates (hComplete _) fun hAll => hContext hAll.1.1

/-- `create_node`, where no field is read before it is written. -/
theorem createNode_creates {calls : CreateNodeCalls} (status : DpsStatus)
    (cleanup : DestroyNodeCalls) (hWritten : ¬ calls.UsesUnwritten) :
    Triple 0 (createNode calls status cleanup)
      (CreatesNode (calls.AllSucceed status) cleanup) := by
  cases hAllocated : calls.nodeAllocate with
  | false =>
      unfold createNode
      rw [hAllocated]
      exact Triple.pure ⟨by simp [CreateNodeCalls.AllSucceed, hAllocated], fun _ => rfl⟩
  | true =>
      have hAll : calls.allocateName = true ∧ calls.allocateNamespace = true ∧
          calls.newNodeInfo = true :=
        by_contra fun hNot => hWritten ⟨hAllocated, hNot⟩
      obtain ⟨hName, hNamespace, hInfo⟩ := hAll
      unfold createNode
      simp only [hAllocated, hName, hNamespace, hInfo, tryAcquire_true_bind]
      refine (Triple.acquire _).bind fun block left hBlock => ?_
      obtain ⟨-, rfl⟩ := hBlock
      refine (Triple.acquire _).bind fun name left hNameBlock => ?_
      obtain ⟨-, rfl⟩ := hNameBlock
      refine (Triple.acquire _).bind fun namespace_ left hNamespaceBlock => ?_
      obtain ⟨-, rfl⟩ := hNamespaceBlock
      refine (Triple.acquire _).bind fun info left hInfoBlock => ?_
      obtain ⟨-, rfl⟩ := hInfoBlock
      have hOwned : {info} + ({namespace_} + ({name} + ({block} + 0))) =
          NodeHandle.blocks ⟨block, .pointsTo name, .pointsTo namespace_, .null⟩ + {info} := by
        simp only [NodeHandle.blocks, Field.elim]
        abel
      rw [hOwned]
      have hCreates := @createImpl_creates ⟨block, .pointsTo name, .pointsTo namespace_, .unwritten⟩
        calls status cleanup (by simp) (by simp) info
      refine hCreates.mono fun result left => ?_
      refine CreatesNode.congr ?_
      simp [CreateNodeCalls.AllSucceed, hAllocated, hName, hNamespace, hInfo, and_assoc]

/-! ### Unwritten fields -/

theorem Field.counts_free (field : Field (Block Resource)) : Counts field.free := by
  cases field with
  | unwritten => exact Misuses.misuse.counts
  | null => exact Counts.pure ()
  | pointsTo block => exact Counts.release block

theorem failNode_misuses (cleanup : DestroyNodeCalls) (hData : handle.data = .unwritten) :
    Misuses (failNode cleanup (some handle)) := by
  refine Misuses.bind ?_ fun _ => Counts.pure none
  rw [destroyNode, hData]
  refine Misuses.bind (Misuses.misuse.bind fun _ => Counts.pure RmwRet.ok) fun ret => ?_
  split_ifs
  · exact Counts.pure ret
  · refine Counts.bind ?_ fun _ => Counts.pure RmwRet.ok
    exact (Field.counts_free _).bind fun _ => (Field.counts_free _).bind fun _ => Counts.release _

theorem createNode_misuses {calls : CreateNodeCalls} (status : DpsStatus)
    (cleanup : DestroyNodeCalls) (hUses : calls.UsesUnwritten) :
    Misuses (createNode calls status cleanup) := by
  obtain ⟨hAllocated, hFails⟩ := hUses
  unfold createNode
  cases hName : calls.allocateName with
  | false =>
      simp only [hAllocated, tryAcquire_true_bind, tryAcquire_false_bind, Option.isNone_none,
        if_true]
      exact (Counts.acquire _).bind_misuses fun _ => failNode_misuses cleanup rfl
  | true =>
      cases hNamespace : calls.allocateNamespace with
      | false =>
          simp only [hAllocated, tryAcquire_true_bind, tryAcquire_false_bind, Option.isNone_none,
            Option.isNone_some, Bool.false_eq_true, if_false, if_true]
          exact (Counts.acquire _).bind_misuses fun _ => (Counts.acquire _).bind_misuses fun _ =>
            failNode_misuses cleanup rfl
      | true =>
          have hInfo : calls.newNodeInfo = false := by
            simpa [hName, hNamespace] using hFails
          simp only [hAllocated, hInfo, tryAcquire_true_bind, tryAcquire_false_bind,
            Option.isNone_some, Bool.false_eq_true, if_false]
          exact (Counts.acquire _).bind_misuses fun _ => (Counts.acquire _).bind_misuses fun _ =>
            (Counts.acquire _).bind_misuses fun _ => failNode_misuses cleanup rfl

end Specifications

/-- A node of which only the name or the data of the discovery service can fail. -/
def nodeCalls (allocateName : Bool) (setDiscoveryServiceData : DpsStatus) : CreateNodeCalls :=
  { nodeAllocate := true, allocateName, allocateNamespace := true, newNodeInfo := true
    createGuardCondition := true, createNode := true, startNode := .ok
    createDiscoveryService := true, setDiscoveryServiceData }

end Lifecycle
end RmwDps
