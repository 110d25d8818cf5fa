import RmwDps.Foundation.Rfc7049
import RmwDps.Foundation.Rfc7049Language
import RmwDps.Serialization.CborStream
import RmwDps.Serialization.RfcCbor
import RmwDps.Serialization.StreamLogic
import RmwDps.Serialization.Introspection
import RmwDps.Serialization.TypeSupport
import RmwDps.Serialization.WireFormat
import RmwDps.Serialization.Conformance
import RmwDps.Serialization.RoundTrip
import RmwDps.Serialization.CrossPackage
import RmwDps.Serialization.DecodeBounds
import RmwDps.Serialization.HostileInput
import RmwDps.Serialization.CharSign
import RmwDps.Foundation.ByteString
import RmwDps.Discovery.NodeListener
import RmwDps.Foundation.Transition
import RmwDps.Discovery.NodeInfo
import RmwDps.Discovery.Matching
import RmwDps.Rmw
import RmwDps.Discovery.Advertisement
import RmwDps.Serialization.BufferGrowth
import RmwDps.Serialization.SerializerBounds
import RmwDps.Discovery.PeerView
import RmwDps.Discovery.Grammar
import RmwDps.Discovery.Demangle
import RmwDps.Discovery.Mangling
import RmwDps.Discovery.NamesAndTypes
import RmwDps.Discovery.TypedGraph
import RmwDps.Discovery.TypeReports
import RmwDps.Discovery.GraphQueries
import RmwDps.Discovery.DomainIsolation
import RmwDps.Discovery.GraphTrigger
import RmwDps.Discovery.LastWord
import RmwDps.Discovery.Creation
import RmwDps.Discovery.Registry
import RmwDps.Discovery.DomainPrefix
import RmwDps.Discovery.OneStory
import RmwDps.Foundation.Traced
import RmwDps.Discovery.Slicing
import RmwDps.Discovery.QuerySafety
import RmwDps.Discovery.PeerSafety
import RmwDps.Messaging.RosMessage
import RmwDps.Messaging.Listener
import RmwDps.Messaging.Take
import RmwDps.Messaging.HostilePayloads
import RmwDps.Messaging.ServiceCalls
import RmwDps.Messaging.Provenance
import RmwDps.Messaging.Pairing
import RmwDps.Foundation.Fifo
import RmwDps.Messaging.SerializedMessages
import RmwDps.Messaging.Interchange
import RmwDps.Messaging.InOrder
import RmwDps.Waiting.WaitMachine
import RmwDps.Waiting.LostWakeups
import RmwDps.Waiting.Verdict
import RmwDps.Foundation.Locking
import RmwDps.Waiting.LockOrder
import RmwDps.Waiting.Released
import RmwDps.Foundation.Rfc7049Items
import RmwDps.Serialization.WellFormed
import RmwDps.Serialization.AnnouncedCounts
import RmwDps.Messaging.HostileCounts
import RmwDps.Messaging.PendingRequests
import RmwDps.Messaging.OverlappingSends
import RmwDps.Foundation.Replication
import RmwDps.Discovery.Network
import RmwDps.Discovery.Convergence
import RmwDps.Waiting.Progress
import RmwDps.Waiting.GraphWatch
import RmwDps.Foundation.Ownership
import RmwDps.Lifecycle.Entities
import RmwDps.Lifecycle.Ledger
import RmwDps.Serialization.Truncation
import RmwDps.Serialization.PayloadGrammar
import RmwDps.Serialization.CountGrammar
import RmwDps.Messaging.CutPayloads
import RmwDps.Messaging.Attribution
import RmwDps.Discovery.NetworkMatching
import RmwDps.Lifecycle.QueryResults
