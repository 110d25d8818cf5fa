import RmwDps.Discovery.NodeInfo
import RmwDps.Rmw

/-!
# The graph queries of the API

What the functions that ask a node about the graph return, as functions of its
`CustomNodeInfo`, and the names that DPS knows a topic under.
-/

namespace RmwDps
namespace Discovery

open Serialization

/-- `c_str()` as the C functions read it: the text up to its first zero. -/
def cStr (s : StdString) : StdString := s.takeWhile (· ≠ 0)

/-- `_get_dps_topic_name`: "Valid topic names start with a separator so prefix the
domain_id to separate nodes". -/
def getDpsTopicName (domainId : Nat) (rosTopicName : StdString) : StdString :=
  bytesOf (toString domainId) ++ rosTopicName

/-- `rmw_names_and_types_t`: the names, each with its types. -/
abbrev RmwNamesAndTypes := List (StdString × List StdString)

/-- `_copy_data_to_results`. -/
def copyDataToResults (topics : NamesAndTypes) (demangleType : StdString → StdString) :
    RmwNamesAndTypes :=
  topics.toList.map fun topic =>
    (cStr topic.1, topic.2.toList.map fun type => cStr (demangleType type))

namespace CustomNodeInfo

variable (impl : CustomNodeInfo)

def rmwGetNodeNames : List (StdString × StdString) :=
  impl.discoveredNodes.getDiscoveredNodes.map fun node => (cStr node.name, cStr node.namespace_)

def rmwCountPublishers (topicName : StdString) : Nat :=
  impl.discoveredNodes.countPublishers topicName

def rmwCountSubscribers (topicName : StdString) : Nat :=
  impl.discoveredNodes.countSubscribers topicName

/-! The six queries for names and types; `demangleType` is the demangling function
that the call chooses. -/

variable (demangleType : StdString → StdString) (nodeName nodeNamespace : StdString)

def rmwGetSubscriberNamesAndTypesByNode : RmwNamesAndTypes :=
  copyDataToResults
    (impl.discoveredNodes.getSubscriberNamesAndTypesByNode nodeName nodeNamespace) demangleType

def rmwGetPublisherNamesAndTypesByNode : RmwNamesAndTypes :=
  copyDataToResults
    (impl.discoveredNodes.getPublisherNamesAndTypesByNode nodeName nodeNamespace) demangleType

def rmwGetServiceNamesAndTypesByNode : RmwNamesAndTypes :=
  copyDataToResults
    (impl.discoveredNodes.getServiceNamesAndTypesByNode nodeName nodeNamespace) demangleType

def rmwGetClientNamesAndTypesByNode : RmwNamesAndTypes :=
  copyDataToResults
    (impl.discoveredNodes.getClientNamesAndTypesByNode nodeName nodeNamespace) demangleType

def rmwGetTopicNamesAndTypes : RmwNamesAndTypes :=
  copyDataToResults impl.discoveredNodes.getTopicNamesAndTypes demangleType

def rmwGetServiceNamesAndTypes : RmwNamesAndTypes :=
  copyDataToResults impl.discoveredNodes.getServiceNamesAndTypes demangleType

/-- `rmw_service_server_is_available` for a client of a service: the number of services
under the DPS topic of its requests from the first `/` on.  Without a `/` the index is
`npos`, past the end. -/
def rmwServiceServerIsAvailable (serviceName : StdString) : Option Bool :=
  let topic := getDpsTopicName impl.domainId serviceName
  match ByteString.find [0x2F] topic with
  | some pos => some (0 < impl.discoveredNodes.countServices (cStr (topic.drop pos)))
  | none => none

end CustomNodeInfo

end Discovery
end RmwDps
