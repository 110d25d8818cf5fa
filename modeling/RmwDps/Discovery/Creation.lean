import RmwDps.Discovery.PeerView
import RmwDps.Foundation.Transition

/-!
# Creating entities, with every way to fail

The four create functions test their arguments, call DPS and the allocator, add the
discovery name to the payload of the node and publish it.  Up to the last of these
steps a failure leaves the payload as it was.  A publish that fails leaves the name
behind: the payload has been changed before it, and the exit `fail` does not take the
name out again.

A run of a node therefore keeps, beside its live entities, those whose create failed
at the publish.  The payload advertises both.
-/

namespace RmwDps
namespace Discovery
namespace Creation

open Serialization

/-! ## The points of failure -/

/-- A test that a create function makes or a call it relies on: whether it went well,
and the message it leaves otherwise. -/
structure FailurePoint where
  succeeds : Bool
  message : String
  deriving DecidableEq, Repr

/-- The message of the first point that fails; the ones behind it are not reached. -/
def firstFailure (points : List FailurePoint) : Option String :=
  (points.find? fun point => !point.succeeds).map FailurePoint.message

/-- The arguments of a create function as its tests see them.  `name` is the topic or
service name, `implNode` is `impl->node_`, and `typeSupport` says that one of the two
introspection identifiers has a handle. -/
structure CreateArguments where
  node : Bool
  implementationIdentifier : String
  name : Option StdString
  qosPolicies : Bool
  impl : Bool
  implNode : Bool
  typeSupport : Bool
  deriving DecidableEq, Repr

/-- The name of the entity, which the tests have found to be there. -/
def CreateArguments.entityName (arguments : CreateArguments) : StdString :=
  arguments.name.getD []

/-- The tests that the four functions share, in their order.  A function that looks at
`impl->node_` does so before it looks at the type support. -/
def CreateArguments.points (arguments : CreateArguments) (emptyName nullQos : String)
    (implNode : List FailurePoint) : List FailurePoint :=
  [⟨arguments.node, "node handle is null"⟩,
    ⟨arguments.implementationIdentifier = intelDpsIdentifier,
      "node handle not from this implementation"⟩,
    ⟨arguments.entityName ≠ [], emptyName⟩,
    ⟨arguments.qosPolicies, nullQos⟩,
    ⟨arguments.impl, "node impl is null"⟩] ++ implNode ++
  [⟨arguments.typeSupport, "type support not from this implementation"⟩]

/-- `if (!impl->node_)`. -/
def CreateArguments.implNodePoint (arguments : CreateArguments) : FailurePoint :=
  ⟨arguments.implNode, "node handle is null"⟩

/-- What DPS and the allocator return to `rmw_create_publisher`. -/
structure PublisherCalls where
  createPublication : Bool
  initPublication : DpsStatus
  publisherAllocate : Bool
  allocate : Bool
  deriving DecidableEq, Repr

def PublisherCalls.points (calls : PublisherCalls) : List FailurePoint :=
  [⟨calls.createPublication, "failed to create publication"⟩,
    ⟨calls.initPublication = .ok, "failed to initialize publication"⟩,
    ⟨calls.publisherAllocate, "failed to allocate publisher"⟩,
    ⟨calls.allocate, "failed to allocate memory for publisher topic name"⟩]

/-- What DPS and the allocator return to `rmw_create_subscription` and to
`rmw_create_service`. -/
structure SubscriptionCalls where
  createSubscription : Bool
  setSubscriptionData : DpsStatus
  subscribe : DpsStatus
  handleAllocate : Bool
  allocate : Bool
  deriving DecidableEq, Repr

def SubscriptionCalls.points (calls : SubscriptionCalls) (noHandle noName : String) :
    List FailurePoint :=
  [⟨calls.createSubscription, "failed to create subscription"⟩,
    ⟨calls.setSubscriptionData = .ok, "failed to set subscription data"⟩,
    ⟨calls.subscribe = .ok, "failed to subscribe"⟩,
    ⟨calls.handleAllocate, noHandle⟩,
    ⟨calls.allocate, noName⟩]

/-- What DPS and the allocator return to `rmw_create_client`. -/
structure ClientCalls where
  createPublication : Bool
  setPublicationData : DpsStatus
  initPublication : DpsStatus
  clientAllocate : Bool
  allocate : Bool
  deriving DecidableEq, Repr

def ClientCalls.points (calls : ClientCalls) : List FailurePoint :=
  [⟨calls.createPublication, "failed to create publication"⟩,
    ⟨calls.setPublicationData = .ok, "failed to set subscription data - %s"⟩,
    ⟨calls.initPublication = .ok, "failed to initialize publication - %s"⟩,
    ⟨calls.clientAllocate, "failed to allocate memory for client"⟩,
    ⟨calls.allocate, "failed to allocate memory for client name"⟩]

/-! ## The create functions -/

/-- A call of a create function, with all that it gets from its caller, from the type
support, from DPS and from the allocator before it publishes. -/
inductive CreateCall
  | publisher (arguments : CreateArguments) (typeName : StdString) (calls : PublisherCalls)
  | subscription (arguments : CreateArguments) (typeName : StdString) (calls : SubscriptionCalls)
  | service (arguments : CreateArguments) (requestTypeName responseTypeName : StdString)
      (calls : SubscriptionCalls)
  | client (arguments : CreateArguments) (requestTypeName responseTypeName : StdString)
      (calls : ClientCalls)
  deriving DecidableEq, Repr

/-- The tests of the called function, which come before the info is allocated. -/
def CreateCall.tests : CreateCall → List FailurePoint
  | .publisher arguments _ _ =>
      arguments.points "publisher topic is null or empty string" "qos_policies is null"
        [arguments.implNodePoint]
  | .subscription arguments _ _ =>
      arguments.points "subscription topic is null or empty string" "qos_profile is null" []
  | .service arguments _ _ _ =>
      arguments.points "service topic is null or empty string" "qos_profile is null" []
  | .client arguments _ _ _ =>
      arguments.points "client topic is null or empty string" "qos_profile is null"
        [arguments.implNodePoint]

/-- The fallible calls between the allocation of the info and `_add_discovery_topic`. -/
def CreateCall.calls : CreateCall → List FailurePoint
  | .publisher _ _ calls => calls.points
  | .subscription _ _ calls =>
      calls.points "failed to allocate subscription"
        "failed to allocate memory for subscription topic name"
  | .service _ _ _ calls =>
      calls.points "failed to allocate memory for service"
        "failed to allocate memory for service name"
  | .client _ _ _ calls => calls.points

/-- The points of failure of the called function in front of `_add_discovery_topic`. -/
def CreateCall.points (call : CreateCall) : List FailurePoint :=
  call.tests ++ call.calls

/-- The entity that the called function is to create. -/
def CreateCall.entity : CreateCall → Entity
  | .publisher arguments typeName _ => .publisher arguments.entityName typeName
  | .subscription arguments typeName _ => .subscription arguments.entityName typeName
  | .service arguments requestTypeName responseTypeName _ =>
      .service arguments.entityName requestTypeName responseTypeName
  | .client arguments requestTypeName responseTypeName _ =>
      .client arguments.entityName requestTypeName responseTypeName

section Create

variable [DpsCbor]

/-- A create function: `nullptr` with a message at the first point that fails, and
otherwise what the publish of the new discovery name makes of it.  `status` is what
`DPS_DiscoveryPublish` returns. -/
def CreateCall.run (call : CreateCall) (status : DpsStatus) (impl : Advertisement) :
    Except Fault (RmwRet × Advertisement) :=
  match firstFailure call.points with
  | some message => return (.error message, impl)
  | none => addDiscoveryTopic status impl call.entity.discoveryName

def rmwCreatePublisher (arguments : CreateArguments) (typeName : StdString)
    (calls : PublisherCalls) :=
  (CreateCall.publisher arguments typeName calls).run

def rmwCreateSubscription (arguments : CreateArguments) (typeName : StdString)
    (calls : SubscriptionCalls) :=
  (CreateCall.subscription arguments typeName calls).run

def rmwCreateService (arguments : CreateArguments) (requestTypeName responseTypeName : StdString)
    (calls : SubscriptionCalls) :=
  (CreateCall.service arguments requestTypeName responseTypeName calls).run

def rmwCreateClient (arguments : CreateArguments) (requestTypeName responseTypeName : StdString)
    (calls : ClientCalls) :=
  (CreateCall.client arguments requestTypeName responseTypeName calls).run

end Create

/-- The call fails before it has touched the payload. -/
def CreateCall.FailsEarly (call : CreateCall) : Prop :=
  ∃ point ∈ call.points, point.succeeds = false

instance (call : CreateCall) : Decidable call.FailsEarly :=
  inferInstanceAs (Decidable (∃ point ∈ call.points, point.succeeds = false))

/-- If the call returns `nullptr`, the payload is the same list as before. -/
def CreateCall.LeavesUnchanged [DpsCbor] (call : CreateCall) (status : DpsStatus)
    (impl : Advertisement) : Prop :=
  ∀ ret impl', call.run status impl = .ok (ret, impl') → ret ≠ .ok →
    impl'.discoveryPayload = impl.discoveryPayload

/-! ## Runs of a node -/

/-- A node in a run: its payload and its live entities.  `leftover` is a record of the
run: the entities whose create function returned `nullptr` after it had added their
discovery name. -/
structure NodeRun where
  impl : Advertisement
  live : List Entity
  leftover : List Entity
  deriving DecidableEq, Repr

/-- A call of a create function or of a destroy function, with what
`DPS_DiscoveryPublish` returns to it. -/
inductive NodeEvent
  | create (call : CreateCall) (status : DpsStatus)
  | destroy (entity : Entity) (status : DpsStatus)
  deriving DecidableEq, Repr

/-- The record of leftovers after a create function that returned `nullptr`. -/
def NodeRun.leftoverAfter (s : NodeRun) (call : CreateCall) : List Entity :=
  if call.FailsEarly then s.leftover else call.entity :: s.leftover

section Run

variable [DpsCbor]

def NodeRun.next (s : NodeRun) : NodeEvent → Option NodeRun
  | .create call status =>
      match call.run status s.impl with
      | .ok (.ok, impl) => some { s with impl, live := call.entity :: s.live }
      | .ok (_, impl) => some { s with impl, leftover := s.leftoverAfter call }
      | .error _ => none
  | .destroy entity status =>
      if entity ∈ s.live then
        match entity.destroy status s.impl with
        | .ok (_, impl) => some { s with impl, live := s.live.erase entity }
        | .error _ => none
      else none

/-- The runs of a node from its creation on. -/
def nodeMachine (name namespace_ : StdString) : Transition.Machine NodeRun NodeEvent where
  init s := createNode .ok name namespace_ = .ok (.ok, s.impl) ∧ s.live = [] ∧ s.leftover = []
  step s event s' := s.next event = some s'

end Run

/-- A create function that fails does so before the publish. -/
def NodeEvent.PublishesSafely : NodeEvent → Prop
  | .create call status => call.FailsEarly ∨ status = .ok
  | .destroy _ _ => True

/-- Behind the strings for the namespace and the name, every string of the payload is
the discovery name of a live entity. -/
def NodeRun.AdvertisesLive (s : NodeRun) (name namespace_ : StdString) : Prop :=
  ∃ topics, s.impl.discoveryPayload =
      (dpsNamespacePrefix ++ namespace_) :: (dpsNamePrefix ++ name) :: topics ∧
    ∀ topic ∈ topics, ∃ entity ∈ s.live, topic = entity.discoveryName

/-! ## One call -/

theorem firstFailure_eq_none {points : List FailurePoint} :
    firstFailure points = none ↔ ∀ point ∈ points, point.succeeds = true := by
  simp [firstFailure]

theorem CreateCall.failsEarly_iff {call : CreateCall} :
    call.FailsEarly ↔ ∃ message, firstFailure call.points = some message := by
  rw [← Option.ne_none_iff_exists', Ne, firstFailure_eq_none]
  simp [FailsEarly]

section Call

variable [DpsCbor] {impl impl' : Advertisement} {status : DpsStatus}

/-- Publishing neither throws nor changes the payload, and succeeds when DPS does. -/
theorem publishDiscoveryPayload_eq (status : DpsStatus) (impl : Advertisement) :
    ∃ ret impl', publishDiscoveryPayload status impl = .ok (ret, impl') ∧
      impl'.discoveryPayload = impl.discoveryPayload ∧ (ret = .ok ↔ status = .ok) := by
  have hPut : Completes (stringOps.putVector impl.discoveryPayload) :=
    Completes.encodeSequence (fun _ => Completes.write _ _) _
  obtain ⟨ser, hWrite⟩ := hPut.writeWithRetry TxStream.new
  unfold publishDiscoveryPayload
  rw [hWrite]
  by_cases hStatus : status = .ok
  · refine ⟨.ok, { impl with published := some ser.data }, ?_, rfl, by simp [hStatus]⟩
    simp [hStatus, bind, Except.bind, pure, Except.pure]
  · refine ⟨.error "failed to publish to discovery - %s", impl, ?_, rfl, by simp [hStatus]⟩
    simp [hStatus, bind, Except.bind, pure, Except.pure]

theorem CreateCall.run_of_failsEarly {call : CreateCall} (hEarly : call.FailsEarly)
    (status : DpsStatus) (impl : Advertisement) :
    ∃ message, call.run status impl = .ok (.error message, impl) := by
  obtain ⟨message, hFailure⟩ := failsEarly_iff.mp hEarly
  refine ⟨message, ?_⟩
  rw [run, hFailure]
  rfl

/-- A call that succeeds has passed all its points of failure. -/
theorem CreateCall.succeeds_of_run {call : CreateCall}
    (hRun : call.run status impl = .ok (.ok, impl')) :
    ∀ point ∈ call.points, point.succeeds = true := by
  by_contra hFails
  have hEarly : call.FailsEarly := by simpa [FailsEarly] using hFails
  obtain ⟨message, hFailed⟩ := run_of_failsEarly hEarly status impl
  rw [hRun] at hFailed
  cases hFailed

/-- A call that gets as far as the publish has put its name into the payload, whether
the publish succeeds or not. -/
theorem CreateCall.run_of_not_failsEarly {call : CreateCall} (hLate : ¬ call.FailsEarly)
    (status : DpsStatus) (impl : Advertisement) :
    ∃ ret impl', call.run status impl = .ok (ret, impl') ∧
      impl'.discoveryPayload = impl.discoveryPayload ++ [call.entity.discoveryName] ∧
      (ret = .ok ↔ status = .ok) := by
  have hPass : firstFailure call.points = none := by
    rw [failsEarly_iff] at hLate
    exact Option.eq_none_iff_forall_ne_some.mpr fun message hSome => hLate ⟨message, hSome⟩
  obtain ⟨ret, impl', hPublish, hPayload, hRet⟩ := publishDiscoveryPayload_eq status
    { impl with discoveryPayload := impl.discoveryPayload ++ [call.entity.discoveryName] }
  refine ⟨ret, impl', ?_, hPayload, hRet⟩
  rw [run, hPass]
  exact hPublish

/-- The full function is the discovery part of it once every point in front of the
publish succeeds. -/
theorem CreateCall.run_eq_create {call : CreateCall} (hLate : ¬ call.FailsEarly)
    (status : DpsStatus) (impl : Advertisement) :
    call.run status impl = call.entity.create status impl := by
  have hPass : firstFailure call.points = none := by
    rw [firstFailure_eq_none]
    simpa [FailsEarly] using hLate
  have hName : call.entity.name ≠ [] := by
    have hPoints := firstFailure_eq_none.mp hPass
    cases call <;>
      simp only [points, tests, CreateArguments.points, List.mem_append, List.mem_cons]
        at hPoints <;>
      simpa [entity, Entity.name] using hPoints _ (.inl (.inl (.inl (.inr (.inr (.inl rfl))))))
  have hCreate : ∀ emptyName, createEntity emptyName call.entity status impl =
      addDiscoveryTopic status impl call.entity.discoveryName := fun _ => by
    rw [createEntity, if_neg hName]
  rw [run, hPass]
  cases call <;> exact (hCreate _).symm

/-- A failing call leaves the payload alone unless it is the publish that failed. -/
theorem CreateCall.leavesUnchanged_iff (call : CreateCall) (status : DpsStatus)
    (impl : Advertisement) :
    call.LeavesUnchanged status impl ↔ call.FailsEarly ∨ status = .ok := by
  by_cases hEarly : call.FailsEarly
  · obtain ⟨message, hRun⟩ := run_of_failsEarly hEarly status impl
    refine iff_of_true ?_ (.inl hEarly)
    intro ret impl' hCall _
    rw [hRun] at hCall
    cases hCall
    rfl
  · obtain ⟨ret, impl', hRun, hPayload, hRet⟩ := run_of_not_failsEarly hEarly status impl
    constructor
    · intro hUnchanged
      refine .inr (hRet.mp (by_contra fun hFailed => ?_))
      have hSame := hUnchanged ret impl' hRun hFailed
      rw [hPayload] at hSame
      simp at hSame
    · rintro (hFails | hStatus) ret' impl'' hCall hFailed
      · exact absurd hFails hEarly
      · rw [hRun] at hCall
        cases hCall
        exact absurd (hRet.mpr hStatus) hFailed

end Call

/-! ## Runs -/

/-- The strings behind the node's own two are those of the live entities and of the
leftovers, in any order. -/
def NodeRun.Listed (s : NodeRun) (name namespace_ : StdString) : Prop :=
  ∃ topics, s.impl.discoveryPayload =
      (dpsNamespacePrefix ++ namespace_) :: (dpsNamePrefix ++ name) :: topics ∧
    topics.Perm ((s.live ++ s.leftover).map Entity.discoveryName)

section Run

variable [DpsCbor] {name namespace_ : StdString} {s s' : NodeRun}

/-- What a create function does to a node. -/
theorem NodeRun.next_create {call : CreateCall} {status : DpsStatus}
    (hNext : s.next (.create call status) = some s') :
    (call.FailsEarly ∧ s' = s) ∨
      (¬ call.FailsEarly ∧
        s'.impl.discoveryPayload = s.impl.discoveryPayload ++ [call.entity.discoveryName] ∧
        ((status = .ok ∧ s'.live = call.entity :: s.live ∧ s'.leftover = s.leftover) ∨
          (status ≠ .ok ∧ s'.live = s.live ∧ s'.leftover = call.entity :: s.leftover))) := by
  by_cases hEarly : call.FailsEarly
  · obtain ⟨message, hRun⟩ := CreateCall.run_of_failsEarly hEarly status s.impl
    simp only [next, hRun, leftoverAfter, if_pos hEarly, Option.some.injEq] at hNext
    exact .inl ⟨hEarly, hNext.symm⟩
  · obtain ⟨ret, impl', hRun, hPayload, hRet⟩ :=
      CreateCall.run_of_not_failsEarly hEarly status s.impl
    refine .inr ⟨hEarly, ?_⟩
    -- Behind the early exits only the publish decides between `ok` and the exit `fail`.
    by_cases hOk : ret = .ok
    · subst hOk
      simp only [next, hRun, Option.some.injEq] at hNext
      subst hNext
      exact ⟨hPayload, .inl ⟨hRet.mp rfl, rfl, rfl⟩⟩
    · have hFailed : s' = { s with impl := impl', leftover := call.entity :: s.leftover } := by
        cases ret with
        | ok => exact absurd rfl hOk
        | timeout =>
            simp only [next, hRun, leftoverAfter, if_neg hEarly, Option.some.injEq] at hNext
            exact hNext.symm
        | error message =>
            simp only [next, hRun, leftoverAfter, if_neg hEarly, Option.some.injEq] at hNext
            exact hNext.symm
      subst hFailed
      exact ⟨hPayload, .inr ⟨mt hRet.mpr hOk, rfl, rfl⟩⟩

/-- What a destroy function does to a node whose payload has the name of the entity:
one such name goes, whatever becomes of the publish. -/
theorem NodeRun.next_destroy {entity : Entity} {status : DpsStatus}
    (hListed : entity.discoveryName ∈ s.impl.discoveryPayload)
    (hNext : s.next (.destroy entity status) = some s') :
    entity ∈ s.live ∧
      s'.impl.discoveryPayload = s.impl.discoveryPayload.erase entity.discoveryName ∧
      s'.live = s.live.erase entity ∧ s'.leftover = s.leftover := by
  obtain ⟨ret, impl', hPublish, hPayload, -⟩ := publishDiscoveryPayload_eq status
    { s.impl with discoveryPayload := s.impl.discoveryPayload.erase entity.discoveryName }
  have hDestroy : entity.destroy status s.impl = .ok (.ok, impl') := by
    rw [Entity.destroy, removeDiscoveryTopic, if_pos hListed, hPublish]
    rfl
  simp only [next, hDestroy] at hNext
  split_ifs at hNext with hLive
  obtain rfl := Option.some.inj hNext
  exact ⟨hLive, hPayload, rfl, rfl⟩

theorem NodeRun.listed_init (hInit : (nodeMachine name namespace_).init s) :
    s.Listed name namespace_ := by
  obtain ⟨hCreate, hLive, hLeftover⟩ := hInit
  obtain ⟨ret, impl', hPublish, hPayload, -⟩ := publishDiscoveryPayload_eq .ok
    { discoveryPayload := [dpsNamespacePrefix ++ namespace_, dpsNamePrefix ++ name]
      published := none }
  have hSame : impl' = s.impl := by
    have hBoth := hPublish.symm.trans hCreate
    simp only [Except.ok.injEq, Prod.mk.injEq] at hBoth
    exact hBoth.2
  refine ⟨[], ?_, ?_⟩
  · rw [← hSame]
    exact hPayload
  · rw [hLive, hLeftover]
    exact List.Perm.nil

/-- One event keeps the list: a create adds one string and one entity, live or left
over, and a destroy takes out one of each. -/
theorem NodeRun.listed_next {event : NodeEvent} (hListed : s.Listed name namespace_)
    (hNext : s.next event = some s') : s'.Listed name namespace_ := by
  obtain ⟨topics, hPayload, hPerm⟩ := hListed
  cases event with
  | create call status =>
      rcases next_create hNext with ⟨-, rfl⟩ | ⟨-, hAdded, hEntities⟩
      · exact ⟨topics, hPayload, hPerm⟩
      -- The name is in the payload whatever the publish does; only the owner differs.
      · have hTopics : (topics ++ [call.entity.discoveryName]).Perm
            ((call.entity :: (s.live ++ s.leftover)).map Entity.discoveryName) := by
          rw [List.map_cons]
          exact (List.perm_append_singleton _ _).trans (hPerm.cons _)
        refine ⟨topics ++ [call.entity.discoveryName], ?_, hTopics.trans ?_⟩
        · rw [hAdded, hPayload]
          rfl
        · rcases hEntities with ⟨-, hLive, hLeftover⟩ | ⟨-, hLive, hLeftover⟩
          · rw [hLive, hLeftover]
            exact List.Perm.refl _
          · rw [hLive, hLeftover]
            exact List.perm_middle.symm.map Entity.discoveryName
  | destroy entity status =>
      have hLive : entity ∈ s.live := by
        by_contra hGone
        simp [next, hGone] at hNext
      have hMem : entity ∈ s.live ++ s.leftover := List.mem_append_left _ hLive
      -- What is destroyed is live, so its name is still listed.
      have hName : entity.discoveryName ∈ s.impl.discoveryPayload := by
        rw [hPayload]
        exact List.mem_cons_of_mem _
          (List.mem_cons_of_mem _ (hPerm.mem_iff.mpr (List.mem_map_of_mem hMem)))
      obtain ⟨-, hErased, hLive', hLeftover'⟩ := next_destroy hName hNext
      refine ⟨topics.erase entity.discoveryName, ?_, ?_⟩
      · rw [hErased, hPayload, entity.erase_discoveryName]
      · rw [hLive', hLeftover', ← List.erase_append_left _ hLive]
        exact Entity.perm_erase_discoveryName hMem hPerm

theorem NodeRun.listed_of_reachable (hReachable : (nodeMachine name namespace_).Reachable s) :
    s.Listed name namespace_ :=
  hReachable.invariant (fun _ hInit => listed_init hInit)
    fun _ _ _ hListed hStep => listed_next hListed hStep

/-- No create function leaves anything behind while none fails at its publish. -/
theorem NodeRun.leftover_eq_nil
    (hReachable : (nodeMachine name namespace_).ReachableIf
      (fun _ event => event.PublishesSafely) s) : s.leftover = [] := by
  refine hReachable.invariant (fun _ hInit => hInit.2.2) ?_
  intro s event s' hEmpty hSafe hStep
  cases event with
  | create call status =>
      rcases next_create hStep with ⟨-, rfl⟩ | ⟨hLate, -, hEntities⟩
      · exact hEmpty
      · rcases hEntities with ⟨-, -, hLeftover⟩ | ⟨hStatus, -, -⟩
        · exact hLeftover.trans hEmpty
        · exact absurd (hSafe.resolve_left hLate) hStatus
  | destroy entity status =>
      have hLeftover : s'.leftover = s.leftover := by
        simp only [nodeMachine, next] at hStep
        split_ifs at hStep
        split at hStep
        · rw [← Option.some.inj hStep]
        · cases hStep
      exact hLeftover.trans hEmpty

omit [DpsCbor] in
/-- The payload of a node names live entities only exactly when every leftover has the
discovery name of one. -/
theorem NodeRun.advertisesLive_iff (hListed : s.Listed name namespace_) :
    s.AdvertisesLive name namespace_ ↔
      ∀ left ∈ s.leftover, ∃ entity ∈ s.live, left.discoveryName = entity.discoveryName := by
  obtain ⟨topics, hPayload, hPerm⟩ := hListed
  constructor
  · rintro ⟨topics', hPayload', hLive⟩ left hLeft
    have hSame : topics' = topics := by
      rw [hPayload] at hPayload'
      exact (List.cons.inj (List.cons.inj hPayload').2).2.symm
    have hListed : left.discoveryName ∈ topics :=
      hPerm.mem_iff.mpr (List.mem_map_of_mem (List.mem_append_right _ hLeft))
    exact hLive _ (hSame ▸ hListed)
  · intro hLeftover
    refine ⟨topics, hPayload, fun topic hTopic => ?_⟩
    obtain ⟨entity, hEntity, rfl⟩ := List.mem_map.mp (hPerm.mem_iff.mp hTopic)
    rcases List.mem_append.mp hEntity with hLive | hLeft
    · exact ⟨entity, hLive, rfl⟩
    · exact hLeftover entity hLeft

/-- A failed create leaves the payload alone exactly when it fails in front of its
publish, so along the runs in which every failure is of that kind the payload names
live entities only.  In general it does exactly when each entity that a failed publish
left behind shares its discovery name with a live one. -/
theorem leavesUnchanged_iff_failsEarly (name namespace_ : StdString) :
    (∀ (call : CreateCall) (status : DpsStatus) (impl : Advertisement),
      call.LeavesUnchanged status impl ↔ call.FailsEarly ∨ status = .ok) ∧
    (∀ s, (nodeMachine name namespace_).Reachable s →
      (s.AdvertisesLive name namespace_ ↔
        ∀ left ∈ s.leftover, ∃ entity ∈ s.live, left.discoveryName = entity.discoveryName)) ∧
    ∀ s, (nodeMachine name namespace_).ReachableIf (fun _ event => event.PublishesSafely) s →
      s.AdvertisesLive name namespace_ := by
  refine ⟨CreateCall.leavesUnchanged_iff, ?_, ?_⟩
  · intro s hReachable
    exact NodeRun.advertisesLive_iff (NodeRun.listed_of_reachable hReachable)
  · intro s hSafe
    rw [NodeRun.advertisesLive_iff (NodeRun.listed_of_reachable hSafe.reachable),
      NodeRun.leftover_eq_nil hSafe]
    simp

end Run

/-! ## A publish that fails -/

/-- A publisher on `/t` whose create function has nothing to complain about. -/
def talkerCall : CreateCall :=
  .publisher
    { node := true, implementationIdentifier := intelDpsIdentifier, name := some (bytesOf "/t")
      qosPolicies := true, impl := true, implNode := true, typeSupport := true }
    (bytesOf "T")
    { createPublication := true, initPublication := .ok, publisherAllocate := true
      allocate := true }

/-- A subscription on `/u`, for which DPS and the allocator do all but perhaps the last. -/
def hearerCall (allocate : Bool) : CreateCall :=
  .subscription
    { node := true, implementationIdentifier := intelDpsIdentifier, name := some (bytesOf "/u")
      qosPolicies := true, impl := true, implNode := true, typeSupport := true }
    (bytesOf "T")
    { createSubscription := true, setSubscriptionData := .ok, subscribe := .ok
      handleAllocate := true, allocate }

/-- A fresh node. -/
def freshRun : NodeRun where
  impl :=
    { discoveryPayload := [bytesOf "namespace=/", bytesOf "name=n"]
      published := some (arrayItem Rfc7049.text [bytesOf "namespace=/", bytesOf "name=n"]) }
  live := []
  leftover := []

theorem freshRun_init : (@nodeMachine rfcCbor (bytesOf "n") (bytesOf "/")).init freshRun :=
  ⟨rfl, rfl, rfl⟩

/-- The allocator has no memory for the name of a subscription, which is then created anew;
the publisher is destroyed while DPS refuses to publish.  What is advertised at the end is
the subscription. -/
theorem talker_advertisesLive :
    let s := @Transition.after _ _ (@NodeRun.next rfcCbor) freshRun
      [.create talkerCall .ok, .create (hearerCall false) .ok, .create (hearerCall true) .ok,
        .destroy talker (.err 1)]
    s.live = [(hearerCall true).entity] ∧ s.leftover = [] ∧
      s.AdvertisesLive (bytesOf "n") (bytesOf "/") := by
  refine ⟨rfl, rfl, ?_⟩
  have hEarly : NodeEvent.PublishesSafely (.create (hearerCall false) .ok) := .inl (by decide)
  have hAgain : NodeEvent.PublishesSafely (.create (hearerCall true) .ok) := .inr rfl
  have hRuns := @leavesUnchanged_iff_failsEarly rfcCbor (bytesOf "n") (bytesOf "/")
  refine hRuns.2.2 _ ?_
  have hTalker := @Transition.Machine.ReachableIf.step _ _ _
    (fun _ event => NodeEvent.PublishesSafely event) _ _ (.create talkerCall .ok)
    (.init freshRun_init) (.inr rfl) (show @NodeRun.next rfcCbor freshRun _ = some _ from rfl)
  have hRefused := hTalker.step hEarly rfl
  have hHearer := hRefused.step hAgain rfl
  exact hHearer.step (e := .destroy talker (.err 1)) trivial rfl

/-- The same publisher on the fresh node when DPS refuses to publish: the create
function returns `nullptr`, and the payload names a publisher that is not there. -/
theorem talker_not_leavesUnchanged :
    ¬ @CreateCall.LeavesUnchanged rfcCbor talkerCall (.err 1) freshRun.impl ∧
      ¬ NodeRun.AdvertisesLive
        (@Transition.after _ _ (@NodeRun.next rfcCbor) freshRun [.create talkerCall (.err 1)])
        (bytesOf "n") (bytesOf "/") := by
  constructor
  · intro hUnchanged
    have hSame := hUnchanged (.error "failed to publish to discovery - %s")
      { freshRun.impl with
        discoveryPayload := freshRun.impl.discoveryPayload ++ [talker.discoveryName] } rfl
      (by decide)
    exact absurd hSame (by decide)
  · rintro ⟨topics, hPayload, hLive⟩
    have hTopics : [bytesOf "namespace=/", bytesOf "name=n", talker.discoveryName] = _ := hPayload
    obtain ⟨-, hTail⟩ := List.cons.inj hTopics
    obtain ⟨-, rfl⟩ := List.cons.inj hTail
    obtain ⟨entity, hEntity, -⟩ := hLive _ List.mem_cons_self
    exact absurd hEntity List.not_mem_nil

end Creation
end Discovery
end RmwDps
