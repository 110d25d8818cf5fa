import RmwDps.Discovery.Creation
import RmwDps.Foundation.Ownership

/-!
# What entities are made of

The four create functions and the four destroy functions, with every block that they
allocate and every object that they get from DPS.  A create function that fails goes to
its label `fail`, which gives back what the info can lead it to.

A listener is reached through the data of its DPS object.  Where it is created before the
object has it as data, and DPS refuses the object or the data, nobody reaches it any more.
-/

namespace RmwDps
namespace Lifecycle

open Discovery.Creation (CreateCall PublisherCalls SubscriptionCalls ClientCalls firstFailure
  firstFailure_eq_none)
open Ownership (Block Program acquire tryAcquire release releaseIfAny owned Triple GivesBack)
open Serialization (DpsStatus)

/-! ## Infos and handles -/

inductive EntityKind
  | publisher
  | subscription
  | service
  | client
  deriving DecidableEq, Repr

/-- What is allocated, by the function that gives it back: `delete` on an info, on a type
support and on a listener, `DPS_DestroyPublication`, `DPS_DestroySubscription`, the free
function of a handle, and `rmw_free` on a name.  The others belong to a node. -/
inductive Resource
  | info (kind : EntityKind)
  | typeSupport
  | listener
  | publication
  | subscription
  | handle (kind : EntityKind)
  | name
  | nodeInfo
  | nodeListener
  | guardCondition
  | guardConditionHandle
  | node
  | discoveryService
  | event
  | nodeHandle
  deriving DecidableEq, Repr

/-- A `DPS_Publication` or a `DPS_Subscription` with its data, null for a new one. -/
structure DpsObject where
  block : Block Resource
  data : Option (Block Resource)
  deriving DecidableEq, Repr

/-- The pointers of an info: `CustomPublisherInfo`, `CustomSubscriberInfo`,
`CustomServiceInfo` or `CustomClientInfo`.  `typeSupport` is the only one of a publisher or
subscription, and that of the requests in the others. -/
structure EntityInfo where
  info : Block Resource
  typeSupport : Option (Block Resource)
  responseTypeSupport : Option (Block Resource)
  listener : Option (Block Resource)
  object : Option DpsObject
  deriving DecidableEq, Repr

/-- `rmw_publisher_t`, `rmw_subscription_t`, `rmw_service_t` or `rmw_client_t`, with the
copy of the topic or service name. -/
structure Handle where
  block : Block Resource
  name : Option (Block Resource)
  deriving DecidableEq, Repr

/-- A handle and the info in its `data`. -/
structure Entity where
  kind : EntityKind
  handle : Handle
  data : EntityInfo
  deriving DecidableEq, Repr

namespace DpsObject

def new (block : Block Resource) : DpsObject := { block, data := none }

/-- `DPS_SetSubscriptionData` or `DPS_SetPublicationData`. -/
def setData (object : DpsObject) (listener : Block Resource) : DpsObject :=
  { object with data := some listener }

/-- `DPS_DestroyPublication` without a callback. -/
def destroy (object : DpsObject) : Program Resource Unit := release object.block

/-- `DPS_DestroyPublication` or `DPS_DestroySubscription` with the callback that deletes
the listener in the data. -/
def destroyWithListener (object : DpsObject) : Program Resource Unit := do
  release object.block
  releaseIfAny object.data

end DpsObject

/-- The objects are destroyed behind a test for null. -/
def ifAny (object : Option DpsObject) (destroy : DpsObject → Program Resource Unit) :
    Program Resource Unit :=
  match object with
  | some object => destroy object
  | none => pure ()

/-- The last lines of the labels and of the destroy functions. -/
def Handle.free (handle : Handle) : Program Resource Unit := do
  releaseIfAny handle.name
  release handle.block

/-! ## Labels -/

def freeHandle : Option Handle → Program Resource Unit
  | some handle => handle.free
  | none => pure ()

/-- `fail` of `rmw_create_publisher`. -/
def failPublisher (data : EntityInfo) (handle : Option Handle) :
    Program Resource (Option Entity) := do
  releaseIfAny data.typeSupport
  ifAny data.object DpsObject.destroy
  release data.info
  freeHandle handle
  return none

/-- `fail` of `rmw_create_subscription`. -/
def failSubscription (data : EntityInfo) (handle : Option Handle) :
    Program Resource (Option Entity) := do
  ifAny data.object DpsObject.destroyWithListener
  releaseIfAny data.typeSupport
  release data.info
  freeHandle handle
  return none

/-- `fail` of `rmw_create_service`. -/
def failService (data : EntityInfo) (handle : Option Handle) :
    Program Resource (Option Entity) := do
  ifAny data.object DpsObject.destroyWithListener
  releaseIfAny data.typeSupport
  releaseIfAny data.responseTypeSupport
  release data.info
  freeHandle handle
  return none

/-- `fail` of `rmw_create_client`. -/
def failClient (data : EntityInfo) (handle : Option Handle) :
    Program Resource (Option Entity) := do
  releaseIfAny data.typeSupport
  releaseIfAny data.responseTypeSupport
  ifAny data.object DpsObject.destroyWithListener
  release data.info
  freeHandle handle
  return none

/-! ## Create functions -/

/-- The end of the create functions: the handle, the copy of the name, and the discovery
name that is published. -/
def createHandle (kind : EntityKind) (data : EntityInfo) (handleAllocate allocate : Bool)
    (status : DpsStatus) (fail : EntityInfo → Option Handle → Program Resource (Option Entity)) :
    Program Resource (Option Entity) := do
  let handle ← tryAcquire handleAllocate (.handle kind)
  match handle with
  | none => fail data none
  | some block =>
      let name ← tryAcquire allocate .name
      if name.isNone then fail data (some { block, name })
      else if status ≠ .ok then fail data (some { block, name })
      else return some { kind, handle := { block, name }, data }

/-- The create functions of subscriptions, services and clients from the data of the object
on.  `start` is `DPS_Subscribe` or `DPS_InitPublication`. -/
def createWithListener (kind : EntityKind) (data : EntityInfo) (object listener : Block Resource)
    (setData start : DpsStatus) (handleAllocate allocate : Bool) (status : DpsStatus)
    (fail : EntityInfo → Option Handle → Program Resource (Option Entity)) :
    Program Resource (Option Entity) := do
  if setData ≠ .ok then fail data none
  else do
    let data := { data with object := some ((DpsObject.new object).setData listener) }
    if start ≠ .ok then fail data none
    else createHandle kind data handleAllocate allocate status fail

/-- `rmw_create_publisher` behind its tests.  `status` is what `DPS_DiscoveryPublish`
returns. -/
def createPublisher (calls : PublisherCalls) (status : DpsStatus) :
    Program Resource (Option Entity) := do
  let info ← acquire (.info .publisher)
  let typeSupport ← acquire .typeSupport
  let publication ← tryAcquire calls.createPublication .publication
  let data : EntityInfo :=
    { info
      typeSupport := some typeSupport
      responseTypeSupport := none
      listener := none
      object := publication.map DpsObject.new }
  if publication.isNone then failPublisher data none
  else if calls.initPublication ≠ .ok then failPublisher data none
  else createHandle .publisher data calls.publisherAllocate calls.allocate status failPublisher

/-- `rmw_create_subscription` behind its tests. -/
def createSubscription (calls : SubscriptionCalls) (status : DpsStatus) :
    Program Resource (Option Entity) := do
  let info ← acquire (.info .subscription)
  let typeSupport ← acquire .typeSupport
  let subscription ← tryAcquire calls.createSubscription .subscription
  let data : EntityInfo :=
    { info
      typeSupport := some typeSupport
      responseTypeSupport := none
      listener := none
      object := subscription.map DpsObject.new }
  match subscription with
  | none => failSubscription data none
  | some subscription =>
      let listener ← acquire .listener
      let data := { data with listener := some listener }
      createWithListener .subscription data subscription listener calls.setSubscriptionData
        calls.subscribe calls.handleAllocate calls.allocate status failSubscription

/-- `rmw_create_service` behind its tests. -/
def createService (calls : SubscriptionCalls) (status : DpsStatus) :
    Program Resource (Option Entity) := do
  let info ← acquire (.info .service)
  let requestTypeSupport ← acquire .typeSupport
  let responseTypeSupport ← acquire .typeSupport
  let listener ← acquire .listener
  let subscription ← tryAcquire calls.createSubscription .subscription
  let data : EntityInfo :=
    { info
      typeSupport := some requestTypeSupport
      responseTypeSupport := some responseTypeSupport
      listener := some listener
      object := subscription.map DpsObject.new }
  match subscription with
  | none => failService data none
  | some subscription =>
      createWithListener .service data subscription listener calls.setSubscriptionData
        calls.subscribe calls.handleAllocate calls.allocate status failService

/-- `rmw_create_client` behind its tests. -/
def createClient (calls : ClientCalls) (status : DpsStatus) :
    Program Resource (Option Entity) := do
  let info ← acquire (.info .client)
  let requestTypeSupport ← acquire .typeSupport
  let responseTypeSupport ← acquire .typeSupport
  let publication ← tryAcquire calls.createPublication .publication
  let data : EntityInfo :=
    { info
      typeSupport := some requestTypeSupport
      responseTypeSupport := some responseTypeSupport
      listener := none
      object := publication.map DpsObject.new }
  match publication with
  | none => failClient data none
  | some publication =>
      let listener ← acquire .listener
      let data := { data with listener := some listener }
      createWithListener .client data publication listener calls.setPublicationData
        calls.initPublication calls.clientAllocate calls.allocate status failClient

/-- A create function.  Its tests come before anything is allocated. -/
def create (call : CreateCall) (status : DpsStatus) : Program Resource (Option Entity) :=
  match firstFailure call.tests with
  | some _ => pure none
  | none =>
      match call with
      | .publisher _ _ calls => createPublisher calls status
      | .subscription _ _ calls => createSubscription calls status
      | .service _ _ _ calls => createService calls status
      | .client _ _ _ calls => createClient calls status

/-! ## Destroy functions -/

/-- What the destroy function of a kind does with the object and the type supports. -/
def EntityInfo.destroyParts (data : EntityInfo) : EntityKind → Program Resource Unit
  | .publisher => do
      ifAny data.object DpsObject.destroy
      releaseIfAny data.typeSupport
  | .subscription => do
      ifAny data.object DpsObject.destroyWithListener
      releaseIfAny data.typeSupport
  | .service => do
      ifAny data.object DpsObject.destroyWithListener
      releaseIfAny data.typeSupport
      releaseIfAny data.responseTypeSupport
  | .client => do
      releaseIfAny data.typeSupport
      releaseIfAny data.responseTypeSupport
      ifAny data.object DpsObject.destroyWithListener

/-- `rmw_destroy_publisher`, `rmw_destroy_subscription`, `rmw_destroy_service` and
`rmw_destroy_client` behind their tests. -/
def Entity.destroy (entity : Entity) : Program Resource Unit := do
  entity.data.destroyParts entity.kind
  release entity.data.info
  entity.handle.free

/-! ## What an entity owns -/

def DpsObject.blocks (object : DpsObject) : Multiset (Block Resource) :=
  {object.block} + owned object.data

/-- What the pointers of an info lead to.  The listener is reached through the object. -/
def EntityInfo.blocks (data : EntityInfo) : Multiset (Block Resource) :=
  {data.info} + owned data.typeSupport + owned data.responseTypeSupport +
    data.object.elim 0 DpsObject.blocks

def Handle.blocks (handle : Handle) : Multiset (Block Resource) :=
  {handle.block} + owned handle.name

def Entity.blocks (entity : Entity) : Multiset (Block Resource) :=
  entity.data.blocks + entity.handle.blocks

/-- The functions of a kind know all that its infos lead to. -/
def EntityInfo.FitsTo (data : EntityInfo) : EntityKind → Prop
  | .publisher => data.responseTypeSupport = none ∧ ∀ object ∈ data.object, object.data = none
  | .subscription => data.responseTypeSupport = none
  | .service | .client => True

/-- The kind of entity that a function creates. -/
def kindOf : CreateCall → EntityKind
  | .publisher _ _ _ => .publisher
  | .subscription _ _ _ => .subscription
  | .service _ _ _ _ => .service
  | .client _ _ _ _ => .client

/-- A create function loses its listener: it has one, and the object, if there is one, does
not have it as data. -/
def LosesListener : CreateCall → Prop
  | .publisher _ _ _ => False
  | .subscription _ _ calls => calls.createSubscription = true ∧ calls.setSubscriptionData ≠ .ok
  | .service _ _ _ calls => calls.createSubscription = false ∨ calls.setSubscriptionData ≠ .ok
  | .client _ _ _ calls => calls.createPublication = true ∧ calls.setPublicationData ≠ .ok

/-- The blocks left are so many listeners. -/
def Listeners (count : Nat) (left : Multiset (Block Resource)) : Prop :=
  left.card = count ∧ ∀ block ∈ left, block.kind = .listener

section Specifications

/-- New objects have no data. -/
theorem DpsObject.blocks_new (pointer : Option (Block Resource)) :
    (pointer.map DpsObject.new).elim 0 DpsObject.blocks = owned pointer := by
  cases pointer with
  | none => rfl
  | some block => exact add_zero _

variable {others : Multiset (Block Resource)} {data : EntityInfo}

theorem DpsObject.givesBack_destroyWithListener (object : DpsObject) :
    GivesBack object.blocks object.destroyWithListener :=
  (GivesBack.release _).bind (GivesBack.releaseIfAny _)

theorem DpsObject.givesBack_destroy {object : DpsObject} (hData : object.data = none) :
    GivesBack object.blocks object.destroy := by
  rw [blocks, hData]
  exact GivesBack.release _

theorem givesBack_ifAny {object : Option DpsObject} {destroy : DpsObject → Program Resource Unit}
    (hDestroy : ∀ known ∈ object, GivesBack known.blocks (destroy known)) :
    GivesBack (object.elim 0 DpsObject.blocks) (ifAny object destroy) := by
  cases object with
  | none => exact GivesBack.pure
  | some known => exact hDestroy known rfl

theorem Handle.givesBack_free (handle : Handle) : GivesBack handle.blocks handle.free := by
  rw [blocks, add_comm]
  exact (GivesBack.releaseIfAny _).bind (GivesBack.release _)

theorem givesBack_freeHandle (handle : Option Handle) :
    GivesBack (handle.elim 0 Handle.blocks) (freeHandle handle) := by
  cases handle with
  | none => exact GivesBack.pure
  | some handle => exact handle.givesBack_free

/-- A label gives back what the info leads to, and the handle. -/
def Fails (kind : EntityKind)
    (fail : EntityInfo → Option Handle → Program Resource (Option Entity)) : Prop :=
  ∀ (data : EntityInfo) (handle : Option Handle) (others : Multiset (Block Resource)),
    data.FitsTo kind →
    Triple (data.blocks + handle.elim 0 Handle.blocks + others) (fail data handle)
      fun entity left => entity = none ∧ left = others

theorem failPublisher_fails : Fails .publisher failPublisher := by
  intro data handle others hFits
  have hObject : GivesBack (data.object.elim 0 DpsObject.blocks)
      (ifAny data.object DpsObject.destroy) :=
    givesBack_ifAny fun known hKnown => DpsObject.givesBack_destroy (hFits.2 known hKnown)
  have hOrder : data.blocks + handle.elim 0 Handle.blocks + others =
      owned data.typeSupport + (data.object.elim 0 DpsObject.blocks +
        ({data.info} + (handle.elim 0 Handle.blocks + others))) := by
    rw [EntityInfo.blocks, hFits.1, Ownership.owned_none, add_zero]
    abel
  rw [hOrder]
  exact (GivesBack.releaseIfAny _).andThen (hObject.andThen ((GivesBack.release _).andThen
    ((givesBack_freeHandle handle).andThen (Triple.pure ⟨rfl, rfl⟩))))

/-- The object is destroyed together with the listener in its data. -/
theorem givesBack_object (data : EntityInfo) :
    GivesBack (data.object.elim 0 DpsObject.blocks)
      (ifAny data.object DpsObject.destroyWithListener) :=
  givesBack_ifAny fun known _ => known.givesBack_destroyWithListener

theorem failSubscription_fails : Fails .subscription failSubscription := by
  intro data handle others hFits
  have hNoResponse : data.responseTypeSupport = none := hFits
  have hOrder : data.blocks + handle.elim 0 Handle.blocks + others =
      data.object.elim 0 DpsObject.blocks + (owned data.typeSupport +
        ({data.info} + (handle.elim 0 Handle.blocks + others))) := by
    rw [EntityInfo.blocks, hNoResponse, Ownership.owned_none, add_zero]
    abel
  rw [hOrder]
  exact (givesBack_object data).andThen ((GivesBack.releaseIfAny _).andThen
    ((GivesBack.release _).andThen ((givesBack_freeHandle handle).andThen
      (Triple.pure ⟨rfl, rfl⟩))))

theorem failService_fails : Fails .service failService := by
  intro data handle others _
  have hOrder : data.blocks + handle.elim 0 Handle.blocks + others =
      data.object.elim 0 DpsObject.blocks + (owned data.typeSupport +
        (owned data.responseTypeSupport +
          ({data.info} + (handle.elim 0 Handle.blocks + others)))) := by
    rw [EntityInfo.blocks]
    abel
  rw [hOrder]
  exact (givesBack_object data).andThen ((GivesBack.releaseIfAny _).andThen
    ((GivesBack.releaseIfAny _).andThen ((GivesBack.release _).andThen
      ((givesBack_freeHandle handle).andThen (Triple.pure ⟨rfl, rfl⟩)))))

theorem failClient_fails : Fails .client failClient := by
  intro data handle others _
  have hOrder : data.blocks + handle.elim 0 Handle.blocks + others =
      owned data.typeSupport + (owned data.responseTypeSupport +
        (data.object.elim 0 DpsObject.blocks +
          ({data.info} + (handle.elim 0 Handle.blocks + others)))) := by
    rw [EntityInfo.blocks]
    abel
  rw [hOrder]
  exact (GivesBack.releaseIfAny _).andThen ((GivesBack.releaseIfAny _).andThen
    ((givesBack_object data).andThen ((GivesBack.release _).andThen
      ((givesBack_freeHandle handle).andThen (Triple.pure ⟨rfl, rfl⟩)))))

theorem EntityInfo.givesBack_destroyParts {kind : EntityKind} (hFits : data.FitsTo kind) :
    GivesBack (owned data.typeSupport + owned data.responseTypeSupport +
      data.object.elim 0 DpsObject.blocks) (data.destroyParts kind) := by
  rw [add_comm]
  cases kind with
  | publisher =>
      rw [hFits.1, Ownership.owned_none, add_zero]
      exact (givesBack_ifAny fun known hKnown =>
        DpsObject.givesBack_destroy (hFits.2 known hKnown)).bind (GivesBack.releaseIfAny _)
  | subscription =>
      have hNoResponse : data.responseTypeSupport = none := hFits
      rw [hNoResponse, Ownership.owned_none, add_zero]
      exact (givesBack_object data).bind (GivesBack.releaseIfAny _)
  | service =>
      exact (givesBack_object data).bind
        ((GivesBack.releaseIfAny _).bind (GivesBack.releaseIfAny _))
  | client =>
      rw [add_comm, add_assoc]
      exact (GivesBack.releaseIfAny _).bind
        ((GivesBack.releaseIfAny _).bind (givesBack_object data))

/-- A destroy function gives back all that the entity owns. -/
theorem Entity.givesBack_destroy {entity : Entity} (hFits : entity.data.FitsTo entity.kind) :
    GivesBack entity.blocks entity.destroy := by
  have hOrder : entity.blocks = owned entity.data.typeSupport +
      owned entity.data.responseTypeSupport + entity.data.object.elim 0 DpsObject.blocks +
        ({entity.data.info} + entity.handle.blocks) := by
    rw [blocks, EntityInfo.blocks]
    abel
  rw [hOrder]
  exact (EntityInfo.givesBack_destroyParts hFits).bind
    ((GivesBack.release _).bind entity.handle.givesBack_free)

/-! ## Create functions -/

/-- What a create function ends with: an entity that owns everything, or, when it fails, the
listeners that it has lost. -/
def Creates (kind : EntityKind) (succeeds loses : Prop) (entity : Option Entity)
    (left : Multiset (Block Resource)) : Prop :=
  match entity with
  | some entity => succeeds ∧ entity.kind = kind ∧ entity.data.FitsTo kind ∧ left = entity.blocks
  | none => ¬ succeeds ∧ ∃ count, Listeners count left ∧ (loses → count = 1) ∧ (¬ loses → count = 0)

theorem listeners_zero : Listeners 0 0 := ⟨rfl, by simp⟩

/-- A failure that loses nothing. -/
theorem creates_none {kind : EntityKind} {succeeds loses : Prop}
    {fail : Program Resource (Option Entity)} {before : Multiset (Block Resource)}
    (hFail : Triple before fail fun entity left => entity = none ∧ left = 0)
    (hNot : ¬ succeeds) (hKeeps : ¬ loses) : Triple before fail (Creates kind succeeds loses) := by
  refine hFail.mono fun entity left hEnd => ?_
  obtain ⟨rfl, rfl⟩ := hEnd
  exact ⟨hNot, 0, listeners_zero, fun hLoses => absurd hLoses hKeeps, fun _ => rfl⟩

/-- A failure that loses the listener. -/
theorem creates_lost {kind : EntityKind} {succeeds loses : Prop}
    {fail : Program Resource (Option Entity)} {before : Multiset (Block Resource)}
    {listener : Block Resource} (hKind : listener.kind = .listener)
    (hFail : Triple before fail fun entity left => entity = none ∧ left = {listener})
    (hNot : ¬ succeeds) (hLoses : loses) : Triple before fail (Creates kind succeeds loses) := by
  refine hFail.mono fun entity left hEnd => ?_
  obtain ⟨rfl, rfl⟩ := hEnd
  exact ⟨hNot, 1, ⟨rfl, by simpa using hKind⟩, fun _ => rfl, fun hKeeps => absurd hLoses hKeeps⟩

/-- A label with nothing but the info. -/
theorem Fails.info {kind : EntityKind}
    {fail : EntityInfo → Option Handle → Program Resource (Option Entity)}
    (hFails : Fails kind fail) (hFits : data.FitsTo kind) (others : Multiset (Block Resource)) :
    Triple (data.blocks + others) (fail data none)
      fun entity left => entity = none ∧ left = others := by
  have hTriple := hFails data none others hFits
  rwa [Option.elim_none, add_zero] at hTriple

theorem createHandle_creates {kind : EntityKind} {handleAllocate allocate : Bool}
    {status : DpsStatus} {fail : EntityInfo → Option Handle → Program Resource (Option Entity)}
    (hFails : Fails kind fail) (hFits : data.FitsTo kind) :
    Triple data.blocks (createHandle kind data handleAllocate allocate status fail)
      (Creates kind (handleAllocate = true ∧ allocate = true ∧ status = .ok) False) := by
  have hFail : ∀ handle, ¬ (handleAllocate = true ∧ allocate = true ∧ status = .ok) →
      Triple (data.blocks + handle.elim 0 Handle.blocks) (fail data handle)
        (Creates kind (handleAllocate = true ∧ allocate = true ∧ status = .ok) False) := by
    intro handle hNot
    have hTriple := hFails data handle 0 hFits
    rw [add_zero] at hTriple
    exact creates_none hTriple hNot id
  refine (Triple.tryAcquire handleAllocate _).bind fun handle left hHandle => ?_
  obtain ⟨rfl, hAllocated, -⟩ := hHandle
  cases handle with
  | none =>
      have hTriple := hFail none (by simp [← hAllocated])
      simpa [add_comm] using hTriple
  | some block =>
      refine (Triple.tryAcquire allocate _).bind fun name left hName => ?_
      obtain ⟨rfl, hNamed, -⟩ := hName
      have hOwned : owned name + (owned (some block) + data.blocks) =
          data.blocks + (some (Handle.mk block name)).elim 0 Handle.blocks := by
        simp only [Ownership.owned_some, Option.elim_some, Handle.blocks]
        abel
      rw [hOwned]
      split_ifs with hNoName hStatus
      · refine hFail _ ?_
        rw [← hNamed]
        simp [Option.isNone_iff_eq_none.mp hNoName]
      · exact hFail _ fun hAll => hStatus hAll.2.2
      · refine Triple.pure ⟨⟨hAllocated.symm, ?_, not_not.mp hStatus⟩, rfl, hFits, rfl⟩
        rw [← hNamed, Option.isSome_iff_ne_none]
        simpa using hNoName

theorem Creates.congr {kind : EntityKind} {succeeds succeeds' loses loses' : Prop}
    (hSucceeds : succeeds ↔ succeeds') (hLoses : loses ↔ loses') {entity : Option Entity}
    {left : Multiset (Block Resource)} (hCreates : Creates kind succeeds loses entity left) :
    Creates kind succeeds' loses' entity left := by
  rwa [← propext hSucceeds, ← propext hLoses]

theorem createPublisher_creates (calls : PublisherCalls) (status : DpsStatus) :
    Triple 0 (createPublisher calls status)
      (Creates .publisher ((∀ point ∈ calls.points, point.succeeds = true) ∧ status = .ok)
        False) := by
  have hSucceeds : ((∀ point ∈ calls.points, point.succeeds = true) ∧ status = .ok) ↔
      (calls.createPublication = true ∧ calls.initPublication = .ok) ∧
        (calls.publisherAllocate = true ∧ calls.allocate = true ∧ status = .ok) := by
    simp [PublisherCalls.points, and_assoc]
  rw [hSucceeds]
  refine (Triple.acquire _).bind fun info left hInfo => ?_
  obtain ⟨-, rfl⟩ := hInfo
  refine (Triple.acquire _).bind fun typeSupport left hTypeSupport => ?_
  obtain ⟨-, rfl⟩ := hTypeSupport
  refine (Triple.tryAcquire _ _).bind fun publication left hPublication => ?_
  obtain ⟨rfl, hCreated, -⟩ := hPublication
  have hFits : EntityInfo.FitsTo
      ⟨info, some typeSupport, none, none, publication.map DpsObject.new⟩ .publisher := by
    refine ⟨rfl, fun object hObject => ?_⟩
    obtain ⟨block, -, rfl⟩ := Option.map_eq_some_iff.mp hObject
    rfl
  have hOwned : owned publication + ({typeSupport} + ({info} + 0)) =
      EntityInfo.blocks ⟨info, some typeSupport, none, none, publication.map DpsObject.new⟩ := by
    simp only [EntityInfo.blocks, DpsObject.blocks_new, Ownership.owned_some, Ownership.owned_none]
    abel
  rw [hOwned]
  have hFail := failPublisher_fails.info hFits 0
  rw [add_zero] at hFail
  dsimp only
  split_ifs with hNone hInit
  · refine creates_none hFail ?_ id
    rw [← hCreated, Option.isNone_iff_eq_none.mp hNone]
    simp
  · exact creates_none hFail (fun hAll => hInit hAll.1.2) id
  · refine (createHandle_creates failPublisher_fails hFits).mono fun entity left => ?_
    refine Creates.congr (Iff.symm (and_iff_right ⟨?_, not_not.mp hInit⟩)) Iff.rfl
    rw [← hCreated, Option.isSome_iff_ne_none]
    simpa using hNone

/-- With the listener as its data, the object leads to it. -/
theorem EntityInfo.blocks_setData {object : Block Resource} (listener : Block Resource)
    (hObject : data.object = some (DpsObject.new object)) :
    data.blocks + {listener} =
      { data with object := some ((DpsObject.new object).setData listener) }.blocks := by
  simp only [blocks, hObject, Option.elim_some, DpsObject.blocks, DpsObject.new,
    DpsObject.setData, Ownership.owned_none, Ownership.owned_some]
  abel

theorem createWithListener_creates {kind : EntityKind} {object listener : Block Resource}
    {setData start : DpsStatus} {handleAllocate allocate : Bool} {status : DpsStatus}
    {fail : EntityInfo → Option Handle → Program Resource (Option Entity)}
    (hFails : Fails kind fail) (hFits : ∀ object, { data with object }.FitsTo kind)
    (hObject : data.object = some (DpsObject.new object)) (hKind : listener.kind = .listener) :
    Triple (data.blocks + {listener})
      (createWithListener kind data object listener setData start handleAllocate allocate status
        fail)
      (Creates kind
        ((setData = .ok ∧ start = .ok) ∧ handleAllocate = true ∧ allocate = true ∧ status = .ok)
        (setData ≠ .ok)) := by
  unfold createWithListener
  split_ifs with hSet hStart
  -- The object does not know the listener.
  · exact creates_lost hKind (hFails.info (hFits data.object) {listener})
      (fun hAll => hSet hAll.1.1) hSet
  · rw [EntityInfo.blocks_setData listener hObject]
    have hFail := hFails.info (hFits (some ((DpsObject.new object).setData listener))) 0
    rw [add_zero] at hFail
    exact creates_none hFail (fun hAll => hStart hAll.1.2) hSet
  · rw [EntityInfo.blocks_setData listener hObject]
    refine (createHandle_creates hFails (hFits _)).mono fun entity left => ?_
    exact Creates.congr (Iff.symm (and_iff_right ⟨not_not.mp hSet, not_not.mp hStart⟩))
      (iff_of_false id hSet)

theorem createSubscription_creates (calls : SubscriptionCalls) (noHandle noName : String)
    (status : DpsStatus) :
    Triple 0 (createSubscription calls status)
      (Creates .subscription
        ((∀ point ∈ calls.points noHandle noName, point.succeeds = true) ∧ status = .ok)
        (calls.createSubscription = true ∧ calls.setSubscriptionData ≠ .ok)) := by
  refine (Triple.acquire _).bind fun info left hInfo => ?_
  obtain ⟨-, rfl⟩ := hInfo
  refine (Triple.acquire _).bind fun typeSupport left hTypeSupport => ?_
  obtain ⟨-, rfl⟩ := hTypeSupport
  refine (Triple.tryAcquire _ _).bind fun subscription left hSubscription => ?_
  obtain ⟨rfl, hCreated, -⟩ := hSubscription
  have hOwned : owned subscription + ({typeSupport} + ({info} + 0)) =
      EntityInfo.blocks ⟨info, some typeSupport, none, none, subscription.map DpsObject.new⟩ := by
    simp only [EntityInfo.blocks, DpsObject.blocks_new, Ownership.owned_some, Ownership.owned_none]
    abel
  rw [hOwned]
  cases subscription with
  | none =>
      have hFail := failSubscription_fails.info
        (show EntityInfo.FitsTo ⟨info, some typeSupport, none, none, none⟩ .subscription from rfl) 0
      rw [add_zero] at hFail
      exact creates_none hFail (by simp [SubscriptionCalls.points, ← hCreated])
        (by simp [← hCreated])
  | some subscription =>
      refine (Triple.acquire _).bind fun listener left hListener => ?_
      obtain ⟨hKind, rfl⟩ := hListener
      rw [add_comm]
      change Triple (EntityInfo.blocks ⟨info, some typeSupport, none, some listener,
        some (DpsObject.new subscription)⟩ + {listener}) _ _
      have hFits : ∀ object, EntityInfo.FitsTo
          ⟨info, some typeSupport, none, some listener, object⟩ .subscription := fun _ => rfl
      refine (createWithListener_creates failSubscription_fails hFits rfl hKind).mono
        fun entity left => ?_
      refine Creates.congr ?_ ?_
      · simp [SubscriptionCalls.points, ← hCreated, and_assoc]
      · simp [← hCreated]

theorem createService_creates (calls : SubscriptionCalls) (noHandle noName : String)
    (status : DpsStatus) :
    Triple 0 (createService calls status)
      (Creates .service
        ((∀ point ∈ calls.points noHandle noName, point.succeeds = true) ∧ status = .ok)
        (calls.createSubscription = false ∨ calls.setSubscriptionData ≠ .ok)) := by
  refine (Triple.acquire _).bind fun info left hInfo => ?_
  obtain ⟨-, rfl⟩ := hInfo
  refine (Triple.acquire _).bind fun requestTypeSupport left hRequest => ?_
  obtain ⟨-, rfl⟩ := hRequest
  refine (Triple.acquire _).bind fun responseTypeSupport left hResponse => ?_
  obtain ⟨-, rfl⟩ := hResponse
  refine (Triple.acquire _).bind fun listener left hListener => ?_
  obtain ⟨hKind, rfl⟩ := hListener
  refine (Triple.tryAcquire _ _).bind fun subscription left hSubscription => ?_
  obtain ⟨rfl, hCreated, -⟩ := hSubscription
  have hOwned : owned subscription + ({listener} + ({responseTypeSupport} +
        ({requestTypeSupport} + ({info} + 0)))) =
      EntityInfo.blocks ⟨info, some requestTypeSupport, some responseTypeSupport, some listener,
        subscription.map DpsObject.new⟩ + {listener} := by
    simp only [EntityInfo.blocks, DpsObject.blocks_new, Ownership.owned_some]
    abel
  rw [hOwned]
  cases subscription with
  | none =>
      exact creates_lost hKind (failService_fails.info trivial {listener})
        (by simp [SubscriptionCalls.points, ← hCreated]) (.inl hCreated.symm)
  | some subscription =>
      refine (createWithListener_creates failService_fails (fun _ => trivial) rfl hKind).mono
        fun entity left => ?_
      refine Creates.congr ?_ ?_
      · simp [SubscriptionCalls.points, ← hCreated, and_assoc]
      · simp [← hCreated]

theorem createClient_creates (calls : ClientCalls) (status : DpsStatus) :
    Triple 0 (createClient calls status)
      (Creates .client ((∀ point ∈ calls.points, point.succeeds = true) ∧ status = .ok)
        (calls.createPublication = true ∧ calls.setPublicationData ≠ .ok)) := by
  refine (Triple.acquire _).bind fun info left hInfo => ?_
  obtain ⟨-, rfl⟩ := hInfo
  refine (Triple.acquire _).bind fun requestTypeSupport left hRequest => ?_
  obtain ⟨-, rfl⟩ := hRequest
  refine (Triple.acquire _).bind fun responseTypeSupport left hResponse => ?_
  obtain ⟨-, rfl⟩ := hResponse
  refine (Triple.tryAcquire _ _).bind fun publication left hPublication => ?_
  obtain ⟨rfl, hCreated, -⟩ := hPublication
  have hOwned : owned publication + ({responseTypeSupport} + ({requestTypeSupport} +
        ({info} + 0))) =
      EntityInfo.blocks ⟨info, some requestTypeSupport, some responseTypeSupport, none,
        publication.map DpsObject.new⟩ := by
    simp only [EntityInfo.blocks, DpsObject.blocks_new, Ownership.owned_some]
    abel
  rw [hOwned]
  cases publication with
  | none =>
      have hFail := failClient_fails.info (show EntityInfo.FitsTo
        ⟨info, some requestTypeSupport, some responseTypeSupport, none, none⟩ .client from
          trivial) 0
      rw [add_zero] at hFail
      exact creates_none hFail (by simp [ClientCalls.points, ← hCreated]) (by simp [← hCreated])
  | some publication =>
      refine (Triple.acquire _).bind fun listener left hListener => ?_
      obtain ⟨hKind, rfl⟩ := hListener
      rw [add_comm]
      change Triple (EntityInfo.blocks ⟨info, some requestTypeSupport, some responseTypeSupport,
        some listener, some (DpsObject.new publication)⟩ + {listener}) _ _
      refine (createWithListener_creates failClient_fails (fun _ => trivial) rfl hKind).mono
        fun entity left => ?_
      refine Creates.congr ?_ ?_
      · simp [ClientCalls.points, ← hCreated, and_assoc]
      · simp [← hCreated]

/-- Every create function, with everything that can go wrong in it. -/
theorem create_creates (call : CreateCall) (status : DpsStatus) :
    Triple 0 (create call status) (Creates (kindOf call)
      ((∀ point ∈ call.points, point.succeeds = true) ∧ status = .ok)
      (firstFailure call.tests = none ∧ LosesListener call)) := by
  unfold create
  cases hTests : firstFailure call.tests with
  | some message =>
      refine creates_none (Triple.pure ⟨rfl, rfl⟩) (fun hAll => ?_) nofun
      have hPass : firstFailure call.tests = none :=
        firstFailure_eq_none.mpr fun point hPoint => hAll.1 point (List.mem_append_left _ hPoint)
      rw [hTests] at hPass
      cases hPass
  | none =>
      have hPass := firstFailure_eq_none.mp hTests
      have hPoints : (∀ point ∈ call.points, point.succeeds = true) ↔
          ∀ point ∈ call.calls, point.succeeds = true := by
        rw [CreateCall.points, List.forall_mem_append]
        exact and_iff_right hPass
      simp only [hPoints, true_and]
      cases call with
      | publisher _ _ calls => exact createPublisher_creates calls status
      | subscription _ _ calls => exact createSubscription_creates calls _ _ status
      | service _ _ _ calls => exact createService_creates calls _ _ status
      | client _ _ _ calls => exact createClient_creates calls status

end Specifications

end Lifecycle
end RmwDps
