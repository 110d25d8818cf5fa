import RmwDps.Rmw
import RmwDps.Discovery.NodeInfo
import RmwDps.Serialization.RoundTrip

/-!
# What a node advertises

The list `discovery_payload_` that the create and destroy functions maintain,
the payload that is published after each change, and the runs of a node that
creates and destroys entities.
-/

namespace RmwDps
namespace Discovery

open Serialization

/-! ## The payload of a node -/

/-- `discovery_payload_`, with the last payload that `DPS_DiscoveryPublish` took. -/
structure Advertisement where
  discoveryPayload : List StdString
  published : Option (List UInt8)
  deriving DecidableEq, Repr

section Payload

variable [DpsCbor]

/-- `_publish_discovery_payload`; `status` is what `DPS_DiscoveryPublish` returns. -/
def publishDiscoveryPayload (status : DpsStatus) (impl : Advertisement) :
    Except Fault (RmwRet × Advertisement) := do
  let ser ← writeWithRetry (stringOps.putVector impl.discoveryPayload) TxStream.new
  if status = .ok then
    return (.ok, { impl with published := some ser.data })
  else
    return (.error "failed to publish to discovery - %s", impl)

/-- `_add_discovery_topics`. -/
def addDiscoveryTopics (status : DpsStatus) (impl : Advertisement) (topics : List StdString) :
    Except Fault (RmwRet × Advertisement) :=
  publishDiscoveryPayload status
    { impl with discoveryPayload := impl.discoveryPayload ++ topics }

/-- `_add_discovery_topic`. -/
def addDiscoveryTopic (status : DpsStatus) (impl : Advertisement) (topic : StdString) :
    Except Fault (RmwRet × Advertisement) :=
  publishDiscoveryPayload status
    { impl with discoveryPayload := impl.discoveryPayload ++ [topic] }

local instance lawfulBEq_topic : LawfulBEq StdString := inferInstance

/-- `_remove_discovery_topic`: the first equal string goes. -/
def removeDiscoveryTopic (status : DpsStatus) (impl : Advertisement) (topic : StdString) :
    Except Fault (RmwRet × Advertisement) :=
  if topic ∈ impl.discoveryPayload then
    publishDiscoveryPayload status
      { impl with discoveryPayload := impl.discoveryPayload.erase topic }
  else
    return (.ok, impl)

/-- The discovery part of `create_node`. -/
def createNode (status : DpsStatus) (name namespace_ : StdString) :
    Except Fault (RmwRet × Advertisement) :=
  addDiscoveryTopics status { discoveryPayload := [], published := none }
    [dpsNamespacePrefix ++ namespace_, dpsNamePrefix ++ name]

end Payload

/-! ## Entities -/

/-- An entity as its handle remembers it: the name, and the type names that
`discovery_name_` was built from. -/
inductive Entity
  | publisher (topicName typeName : StdString)
  | subscription (topicName typeName : StdString)
  | service (serviceName requestTypeName responseTypeName : StdString)
  | client (serviceName requestTypeName responseTypeName : StdString)
  deriving DecidableEq, Repr

/-- `discovery_name_`, as each create function puts it together. -/
def Entity.discoveryName : Entity → StdString
  | .publisher topicName typeName =>
      dpsPublisherPrefix ++ topicName ++ typesKeyword ++ typeName
  | .subscription topicName typeName =>
      dpsSubscriberPrefix ++ topicName ++ typesKeyword ++ typeName
  | .service serviceName requestTypeName responseTypeName =>
      dpsServicePrefix ++ serviceName ++ typesKeyword ++
        (requestTypeName ++ [typesSeparator] ++ responseTypeName)
  | .client serviceName requestTypeName responseTypeName =>
      dpsClientPrefix ++ serviceName ++ typesKeyword ++
        (requestTypeName ++ [typesSeparator] ++ responseTypeName)

/-- The topic or service name. -/
def Entity.name : Entity → StdString
  | .publisher topicName _ | .subscription topicName _ => topicName
  | .service serviceName _ _ | .client serviceName _ _ => serviceName

section Create

variable [DpsCbor]

/-- The discovery part that the four create functions share: an empty name is
refused, and a failed publish makes the call fail. -/
def createEntity (emptyName : String) (entity : Entity) (status : DpsStatus)
    (impl : Advertisement) : Except Fault (RmwRet × Advertisement) :=
  if entity.name = [] then return (.error emptyName, impl)
  else addDiscoveryTopic status impl entity.discoveryName

def rmwCreatePublisher (topicName typeName : StdString) :=
  createEntity "publisher topic is null or empty string" (.publisher topicName typeName)

def rmwCreateSubscription (topicName typeName : StdString) :=
  createEntity "subscription topic is null or empty string" (.subscription topicName typeName)

def rmwCreateService (serviceName requestTypeName responseTypeName : StdString) :=
  createEntity "service topic is null or empty string"
    (.service serviceName requestTypeName responseTypeName)

def rmwCreateClient (serviceName requestTypeName responseTypeName : StdString) :=
  createEntity "client topic is null or empty string"
    (.client serviceName requestTypeName responseTypeName)

/-- The create function of an entity. -/
def Entity.create : Entity → DpsStatus → Advertisement → Except Fault (RmwRet × Advertisement)
  | .publisher topicName typeName => rmwCreatePublisher topicName typeName
  | .subscription topicName typeName => rmwCreateSubscription topicName typeName
  | .service serviceName requestTypeName responseTypeName =>
      rmwCreateService serviceName requestTypeName responseTypeName
  | .client serviceName requestTypeName responseTypeName =>
      rmwCreateClient serviceName requestTypeName responseTypeName

/-- The discovery part of the four destroy functions, which return `RMW_RET_OK`
whatever `_remove_discovery_topic` returned. -/
def Entity.destroy (entity : Entity) (status : DpsStatus) (impl : Advertisement) :
    Except Fault (RmwRet × Advertisement) := do
  let (_, impl) ← removeDiscoveryTopic status impl entity.discoveryName
  return (.ok, impl)

end Create

/-- A name free of the three separators. -/
def Plain (name : StdString) : Prop :=
  (0x26 : UInt8) ∉ name ∧ (0x3D : UInt8) ∉ name ∧ typesSeparator ∉ name

/-- All names of an entity are plain, and its discovery name has a size. -/
def Entity.Plain : Entity → Prop
  | entity@(.publisher topicName typeName) | entity@(.subscription topicName typeName) =>
      Discovery.Plain topicName ∧ Discovery.Plain typeName ∧ Sized entity.discoveryName
  | entity@(.service serviceName requestTypeName responseTypeName)
  | entity@(.client serviceName requestTypeName responseTypeName) =>
      Discovery.Plain serviceName ∧ Discovery.Plain requestTypeName ∧
        Discovery.Plain responseTypeName ∧ Sized entity.discoveryName

/-- The runs of a node: it is created, and then entities are created and
destroyed, every call being successful.  `live` are its live entities. -/
inductive Advertises [DpsCbor] (name namespace_ : StdString) : Advertisement → List Entity → Prop
  | start {impl : Advertisement} (hCreate : createNode .ok name namespace_ = .ok (.ok, impl)) :
      Advertises name namespace_ impl []
  | create {impl impl' : Advertisement} {live : List Entity} {entity : Entity}
      (hRun : Advertises name namespace_ impl live) (hPlain : entity.Plain)
      (hCreate : entity.create .ok impl = .ok (.ok, impl')) :
      Advertises name namespace_ impl' (entity :: live)
  | destroy {impl impl' : Advertisement} {live : List Entity} {entity : Entity}
      (hRun : Advertises name namespace_ impl live) (hLive : entity ∈ live)
      (hDestroy : entity.destroy .ok impl = .ok (.ok, impl')) :
      Advertises name namespace_ impl' (live.erase entity)

/-- The entry that a peer is to have of an entity, by the list it belongs to. -/
def Entity.publisherTopic : Entity → Option Topic
  | .publisher topicName typeName => some { topic := topicName, types := [typeName] }
  | _ => none

def Entity.subscriberTopic : Entity → Option Topic
  | .subscription topicName typeName => some { topic := topicName, types := [typeName] }
  | _ => none

def Entity.serviceTopic : Entity → Option Topic
  | .service serviceName requestTypeName responseTypeName =>
      some { topic := serviceName, types := [requestTypeName, responseTypeName] }
  | _ => none

def Entity.clientTopic : Entity → Option Topic
  | .client serviceName requestTypeName responseTypeName =>
      some { topic := serviceName, types := [requestTypeName, responseTypeName] }
  | _ => none

end Discovery
end RmwDps
