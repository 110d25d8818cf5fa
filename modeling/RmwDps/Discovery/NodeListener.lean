import RmwDps.Foundation.ByteString
import RmwDps.Serialization.StreamLogic

/-!
# The node listener

What a node learns from discovery payloads: the strings of a payload sorted into
a `Node`, the map from publication uuids to nodes, and the queries that read
the map.
-/

namespace RmwDps
namespace Discovery

open Serialization

/-- The bytes of a literal of the source. -/
def bytesOf (s : String) : StdString := s.toList.map fun c => UInt8.ofNat c.toNat

def dpsNamespacePrefix : StdString := bytesOf "namespace="
def dpsNamePrefix : StdString := bytesOf "name="
def dpsSubscriberPrefix : StdString := bytesOf "subscriber&topic="
def dpsPublisherPrefix : StdString := bytesOf "publisher&topic="
def dpsServicePrefix : StdString := bytesOf "service&topic="
def dpsClientPrefix : StdString := bytesOf "client&topic="

/-- The keyword in front of the types of a topic. -/
def typesKeyword : StdString := bytesOf "&types="

/-- The character between two types. -/
def typesSeparator : UInt8 := 0x2C

/-! ## Nodes -/

/-- `NodeListener::Topic`. -/
structure Topic where
  topic : StdString
  types : List StdString
  deriving DecidableEq, Repr

/-- `NodeListener::Node`. -/
structure Node where
  name : StdString := []
  namespace_ : StdString := []
  subscribers : List Topic := []
  publishers : List Topic := []
  services : List Topic := []
  clients : List Topic := []
  deriving DecidableEq, Repr

/-- `end_pos - pos` as a `size_t`. -/
def sizeDifference (endPos pos : Nat) : Nat := (endPos + 2 ^ 64 - pos) % 2 ^ 64

/-- `process_topic_info`: the list with the topic of `topicStr` appended, if
`keyword` occurs in it.  The types are what follows `&types=`, split at commas;
without `&types=` the loop over the commas runs on the topic itself. -/
def processTopicInfo (topicStr keyword : StdString) (topics : List Topic) :
    Option (List Topic) :=
  match ByteString.find keyword topicStr with
  | none => none
  | some found =>
      let pos := found + keyword.length
      match ByteString.find typesKeyword topicStr with
      | some endPos =>
          some (topics ++ [{
            topic := ByteString.substr topicStr pos (sizeDifference endPos pos)
            types := (topicStr.drop (endPos + typesKeyword.length)).splitOn typesSeparator }])
      | none =>
          some (topics ++ [{
            topic := topicStr.drop pos
            types := (topicStr.drop pos).splitOn typesSeparator }])

/-- One round of the loop of `onDiscovery` over the strings of a payload. -/
def Node.processTopic (node : Node) (topic : StdString) : Node :=
  match ByteString.find dpsNamespacePrefix topic with
  | some pos => { node with namespace_ := topic.drop (pos + dpsNamespacePrefix.length) }
  | none =>
  match ByteString.find dpsNamePrefix topic with
  | some pos => { node with name := topic.drop (pos + dpsNamePrefix.length) }
  | none =>
  match processTopicInfo topic dpsSubscriberPrefix node.subscribers with
  | some subscribers => { node with subscribers }
  | none =>
  match processTopicInfo topic dpsPublisherPrefix node.publishers with
  | some publishers => { node with publishers }
  | none =>
  match processTopicInfo topic dpsServicePrefix node.services with
  | some services => { node with services }
  | none =>
  match processTopicInfo topic dpsClientPrefix node.clients with
  | some clients => { node with clients }
  | none => node

/-- The node that the strings of a payload describe. -/
def Node.ofTopics (topics : List StdString) : Node := topics.foldl Node.processTopic {}

/-- The strings of a payload: `deser >> topics`. -/
def decodeTopics [DpsCbor] (payload : List UInt8) : Except Fault (List StdString) :=
  (Rx.exec stringOps.getVector (RxStream.ofBytes payload)).1

/-- The part of `onDiscovery` in front of its first lock: the node of the payload,
or nothing when the payload is null or empty. -/
def decodePayload [DpsCbor] (payload : List UInt8) : Except Fault (Option Node) :=
  if payload.isEmpty then .ok none
  else (decodeTopics payload).map fun topics => some (Node.ofTopics topics)

/-! ## The map of discovered nodes -/

/-- `discovered_nodes_`, keyed by the text of the publication uuid. -/
abbrev DiscoveredNodes := Std.ExtTreeMap StdString Node compare

/-- The section of `onDiscovery` under `mutex_`: the node known before, whether
the graph guard condition is to be triggered, and the map. -/
def DiscoveredNodes.update (nodes : DiscoveredNodes) (uuid : StdString) (announced : Option Node) :
    Node × Bool × DiscoveredNodes :=
  let old := nodes[uuid]?.getD {}
  match announced with
  | some node =>
      match nodes[uuid]? with
      | none => (old, true, nodes.insert uuid node)
      | some known =>
          if known = node then (old, false, nodes)
          else (old, true, nodes.insert uuid node)
  | none => (old, nodes.contains uuid, nodes.erase uuid)

/-! ## Queries -/

/-- `get_discovered_nodes`. -/
def DiscoveredNodes.getDiscoveredNodes (nodes : DiscoveredNodes) : List Node :=
  nodes.toList.map Prod.snd

/-- The number of topics with a name: `std::count_if` over one list. -/
def countTopic (topicName : StdString) (topics : List Topic) : Nat :=
  topics.countP fun topic => topic.topic = topicName

/-- The loop of the three counters over the discovered nodes. -/
def DiscoveredNodes.count (nodes : DiscoveredNodes) (select : Node → List Topic)
    (topicName : StdString) : Nat :=
  (nodes.getDiscoveredNodes.map fun node => countTopic topicName (select node)).sum

def DiscoveredNodes.countSubscribers (nodes : DiscoveredNodes) (topicName : StdString) : Nat :=
  nodes.count Node.subscribers topicName

def DiscoveredNodes.countPublishers (nodes : DiscoveredNodes) (topicName : StdString) : Nat :=
  nodes.count Node.publishers topicName

def DiscoveredNodes.countServices (nodes : DiscoveredNodes) (topicName : StdString) : Nat :=
  nodes.count Node.services topicName

/-- `std::map<std::string, std::set<std::string>>`. -/
abbrev NamesAndTypes := Std.ExtTreeMap StdString (Std.ExtTreeSet StdString compare) compare

/-- `names_and_types[it.topic].insert(it.types.begin(), it.types.end())`. -/
def NamesAndTypes.addTopic (namesAndTypes : NamesAndTypes) (topic : Topic) : NamesAndTypes :=
  namesAndTypes.insert topic.topic
    (topic.types.foldl (fun types type => types.insert type)
      (namesAndTypes[topic.topic]?.getD ∅))

def NamesAndTypes.addTopics (namesAndTypes : NamesAndTypes) (topics : List Topic) :
    NamesAndTypes :=
  topics.foldl NamesAndTypes.addTopic namesAndTypes

/-- The common body of the four queries by node: the first node, in the order of
the uuids, that has the name and the namespace. -/
def DiscoveredNodes.namesAndTypesByNode (nodes : DiscoveredNodes) (select : Node → List Topic)
    (name namespace_ : StdString) : NamesAndTypes :=
  match nodes.getDiscoveredNodes.find? fun node =>
      node.name = name ∧ node.namespace_ = namespace_ with
  | some node => NamesAndTypes.addTopics ∅ (select node)
  | none => ∅

def DiscoveredNodes.getSubscriberNamesAndTypesByNode (nodes : DiscoveredNodes) :=
  nodes.namesAndTypesByNode Node.subscribers

def DiscoveredNodes.getPublisherNamesAndTypesByNode (nodes : DiscoveredNodes) :=
  nodes.namesAndTypesByNode Node.publishers

def DiscoveredNodes.getServiceNamesAndTypesByNode (nodes : DiscoveredNodes) :=
  nodes.namesAndTypesByNode Node.services

def DiscoveredNodes.getClientNamesAndTypesByNode (nodes : DiscoveredNodes) :=
  nodes.namesAndTypesByNode Node.clients

def DiscoveredNodes.getTopicNamesAndTypes (nodes : DiscoveredNodes) : NamesAndTypes :=
  nodes.getDiscoveredNodes.foldl
    (fun namesAndTypes node =>
      (namesAndTypes.addTopics node.subscribers).addTopics node.publishers) ∅

def DiscoveredNodes.getServiceNamesAndTypes (nodes : DiscoveredNodes) : NamesAndTypes :=
  nodes.getDiscoveredNodes.foldl
    (fun namesAndTypes node => namesAndTypes.addTopics node.services) ∅

end Discovery
end RmwDps
