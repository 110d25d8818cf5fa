import RmwDps.Discovery.Creation
import RmwDps.Discovery.NamesAndTypes

/-!
# The domain in front of a name

DPS knows a topic under the number of its domain and its name, with nothing between
them.  A name starts with a `/` and a number has none, so the first `/` of the whole is
where the name starts: two DPS topics are one only if the domains and the names are,
and the search of `rmw_service_server_is_available` for a `/` gives back the name that
the client was created with.
-/

namespace RmwDps
namespace Discovery

open Serialization

/-! ## Decimal numbers -/

/-- The bytes of a number are those of its digits. -/
theorem bytesOf_toString (n : Nat) :
    bytesOf (toString n) = (Nat.toDigits 10 n).map fun c => UInt8.ofNat c.toNat := by
  rw [bytesOf, Nat.toString_eq_repr, Nat.toList_repr]

theorem toNat_of_isDigit {c : Char} (hDigit : c.isDigit = true) :
    (UInt8.ofNat c.toNat).toNat = c.toNat ∧ 0x30 ≤ c.toNat := by
  obtain ⟨hLow, hHigh⟩ := Char.isDigit_iff_toNat.mp hDigit
  have hZero : '0'.toNat = 0x30 := rfl
  have hNine : '9'.toNat = 0x39 := rfl
  rw [UInt8.toNat_ofNat']
  omega

/-- No byte of a number comes before the digits. -/
theorem le_of_mem_toString {n : Nat} {b : UInt8} (hMem : b ∈ bytesOf (toString n)) :
    0x30 ≤ b.toNat := by
  rw [bytesOf_toString, List.mem_map] at hMem
  obtain ⟨c, hMem, rfl⟩ := hMem
  obtain ⟨hSame, hLow⟩ :=
    toNat_of_isDigit (Nat.isDigit_of_mem_toDigits (by omega) (by omega) hMem)
  omega

theorem separator_notMem_toString (n : Nat) : (0x2F : UInt8) ∉ bytesOf (toString n) :=
  fun hMem => absurd (le_of_mem_toString hMem) (by decide)

theorem zero_notMem_toString (n : Nat) : (0 : UInt8) ∉ bytesOf (toString n) :=
  fun hMem => absurd (le_of_mem_toString hMem) (by decide)

/-- The digits are read back from the bytes. -/
theorem map_ofNat_toString (n : Nat) :
    (bytesOf (toString n)).map (fun b => Char.ofNat b.toNat) = Nat.toDigits 10 n := by
  have hBack : ∀ c ∈ Nat.toDigits 10 n, Char.ofNat (UInt8.ofNat c.toNat).toNat = c := by
    intro c hMem
    rw [(toNat_of_isDigit (Nat.isDigit_of_mem_toDigits (by omega) (by omega) hMem)).1,
      Char.ofNat_toNat]
  rw [bytesOf_toString, List.map_map]
  exact (List.map_congr_left hBack).trans (List.map_id' _)

theorem bytesOf_toString_injective : Function.Injective fun n : Nat => bytesOf (toString n) := by
  intro m n hSame
  have hDigits : Nat.toDigits 10 m = Nat.toDigits 10 n := by
    rw [← map_ofNat_toString, ← map_ofNat_toString]
    exact congrArg (List.map fun b => Char.ofNat b.toNat) hSame
  have hNumbers := congrArg (Nat.ofDigitChars 10 · 0) hDigits
  simpa using hNumbers

/-! ## Names behind a domain -/

/-- "Valid topic names start with a separator". -/
def StartsWithSeparator (name : StdString) : Prop := name.head? = some 0x2F

instance : DecidablePred StartsWithSeparator := fun name =>
  inferInstanceAs (Decidable (name.head? = some 0x2F))

section Prefix

variable {name : StdString} (hName : StartsWithSeparator name)
include hName

/-- The first `/` of a DPS topic is the one that its name starts with. -/
theorem find_separator_getDpsTopicName (domainId : Nat) :
    ByteString.find [0x2F] (getDpsTopicName domainId name) =
      some (bytesOf (toString domainId)).length := by
  obtain ⟨rest, rfl⟩ := List.head?_eq_some_iff.mp hName
  have hFirst : ¬ [] ++ [(0x2F : UInt8)] <:+: bytesOf (toString domainId) ++ [] := by
    rw [List.append_nil]
    exact ByteString.not_infix_of_notMem (separator_notMem_toString domainId)
  have hFind := ByteString.find_append hFirst rest
  rw [List.append_assoc] at hFind
  exact hFind

/-- What is behind the domain is the name. -/
theorem drop_separator_getDpsTopicName {domainId pos : Nat}
    (hFind : ByteString.find [0x2F] (getDpsTopicName domainId name) = some pos) :
    (getDpsTopicName domainId name).drop pos = name := by
  rw [find_separator_getDpsTopicName hName, Option.some_inj] at hFind
  rw [← hFind, getDpsTopicName, List.drop_left]

theorem getDpsTopicName_injective {other : StdString} (hOther : StartsWithSeparator other)
    {domainId otherDomainId : Nat}
    (hSame : getDpsTopicName domainId name = getDpsTopicName otherDomainId other) :
    domainId = otherDomainId ∧ name = other := by
  have hFind := find_separator_getDpsTopicName hName domainId
  have hLength := hFind
  rw [hSame, find_separator_getDpsTopicName hOther, Option.some_inj] at hLength
  obtain ⟨hDomain, hRest⟩ := List.append_inj hSame hLength.symm
  exact ⟨bytesOf_toString_injective hDomain, hRest⟩

/-- The search for a `/` gives back the name of the service. -/
theorem rmwServiceServerIsAvailable_eq (hZero : (0 : UInt8) ∉ name) (impl : CustomNodeInfo) :
    impl.rmwServiceServerIsAvailable name =
      some (decide (0 < impl.discoveredNodes.countServices name)) := by
  have hFind := find_separator_getDpsTopicName hName impl.domainId
  simp only [CustomNodeInfo.rmwServiceServerIsAvailable, hFind,
    drop_separator_getDpsTopicName hName hFind, cStr_eq_self hZero]

end Prefix

theorem cStr_getDpsTopicName {name : StdString} (hZero : (0 : UInt8) ∉ name) (domainId : Nat) :
    cStr (getDpsTopicName domainId name) = getDpsTopicName domainId name := by
  apply cStr_eq_self
  rw [getDpsTopicName, List.mem_append, not_or]
  exact ⟨zero_notMem_toString domainId, hZero⟩

/-! ## Clients and their publications -/

/-- What the package uses of the publications of DPS, which is not part of the
repository: `DPS_InitPublication` with its topics and `DPS_PublicationGetTopic`. -/
class DpsPublications (π : Type) where
  initPublication : π → List StdString → DpsStatus × π
  publicationGetTopic : π → Nat → Option StdString

/-- A publication returns the topics it was initialized with. -/
class DpsPublications.Lawful (π : Type) [DpsPublications π] : Prop where
  publicationGetTopic_init : ∀ (publication : π) (topics : List StdString) (initialized : π),
    initPublication publication topics = (.ok, initialized) →
      ∀ index topic, topics[index]? = some topic →
        publicationGetTopic initialized index = some topic

/-- `rmw_client_t` with the publication of its requests. -/
structure ServiceClient (π : Type) where
  serviceName : StdString
  requestPublication : π
  deriving DecidableEq, Repr

section Client

variable {π : Type} [DpsPublications π]

/-- The client that `rmw_create_client` returns, if it returns one.  The publication is
what `DPS_CreatePublication` has returned, and `service_name` is a C string. -/
def createClient [DpsCbor] (domainId : Nat) (arguments : Creation.CreateArguments)
    (requestTypeName responseTypeName : StdString) (calls : Creation.ClientCalls)
    (publication : π) (status : DpsStatus) (impl : Advertisement) :
    Except Fault (Option (ServiceClient π) × Advertisement) := do
  let serviceName := cStr arguments.entityName
  let (initPublication, requestPublication) :=
    DpsPublications.initPublication publication [getDpsTopicName domainId serviceName]
  let (ret, impl) ← Creation.rmwCreateClient
    { arguments with name := arguments.name.map cStr } requestTypeName responseTypeName
    { calls with initPublication } status impl
  return (if ret = .ok then some { serviceName, requestPublication } else none, impl)

/-- `rmw_service_server_is_available` of a client, on a node that need not be the one
the client was created on.  Nothing is returned where the function reads outside of the
topic. -/
def CustomNodeInfo.serviceServerIsAvailable (impl : CustomNodeInfo) (client : ServiceClient π) :
    Option Bool := do
  let topic := cStr (← DpsPublications.publicationGetTopic client.requestPublication 0)
  let pos ← ByteString.find [0x2F] topic
  return 0 < impl.discoveredNodes.countServices (cStr (topic.drop pos))

variable [DpsCbor] {domainId : Nat} {arguments : Creation.CreateArguments}
  {requestTypeName responseTypeName : StdString} {calls : Creation.ClientCalls}
  {publication : π} {status : DpsStatus} {impl impl' : Advertisement} {client : ServiceClient π}

/-- A client that is returned has a publication that DPS has initialized with the DPS
topic of its name. -/
theorem initPublication_of_createClient
    (hCreate : createClient domainId arguments requestTypeName responseTypeName calls publication
      status impl = .ok (some client, impl')) :
    client.serviceName = cStr arguments.entityName ∧
      DpsPublications.initPublication publication [getDpsTopicName domainId client.serviceName] =
        (.ok, client.requestPublication) := by
  rcases hInit : DpsPublications.initPublication publication
    [getDpsTopicName domainId (cStr arguments.entityName)] with ⟨initPublication, initialized⟩
  simp only [createClient, hInit] at hCreate
  cases hRun : Creation.rmwCreateClient { arguments with name := arguments.name.map cStr }
      requestTypeName responseTypeName { calls with initPublication } status impl with
  | error fault => simp [hRun, bind, Except.bind] at hCreate
  | ok result =>
      obtain ⟨ret, impl''⟩ := result
      by_cases hRet : ret = .ok
      · subst hRet
        have hPoint := Creation.CreateCall.succeeds_of_run hRun
          ⟨initPublication = .ok, "failed to initialize publication - %s"⟩
          (List.mem_append_right _
            (by simp [Creation.CreateCall.calls, Creation.ClientCalls.points]))
        have hStatus : initPublication = .ok := by simpa using hPoint
        simp only [hRun, bind, Except.bind, pure, Except.pure, if_true, Except.ok.injEq,
          Prod.mk.injEq, Option.some.injEq] at hCreate
        obtain ⟨rfl, -⟩ := hCreate
        exact ⟨rfl, by rw [hInit, hStatus]⟩
      · simp [hRun, hRet, bind, Except.bind, pure, Except.pure] at hCreate

/-- The client asks as if its name were looked up in its own domain. -/
theorem serviceServerIsAvailable_of_createClient [DpsPublications.Lawful π]
    (hCreate : createClient domainId arguments requestTypeName responseTypeName calls publication
      status impl = .ok (some client, impl')) (peer : CustomNodeInfo) :
    (0 : UInt8) ∉ client.serviceName ∧
      peer.serviceServerIsAvailable client =
        { peer with domainId }.rmwServiceServerIsAvailable client.serviceName := by
  obtain ⟨hServiceName, hInit⟩ := initPublication_of_createClient hCreate
  have hZero : (0 : UInt8) ∉ client.serviceName := hServiceName ▸ zero_notMem_cStr _
  have hGet := DpsPublications.Lawful.publicationGetTopic_init _ _ _ hInit 0 _ rfl
  refine ⟨hZero, ?_⟩
  simp only [CustomNodeInfo.serviceServerIsAvailable, CustomNodeInfo.rmwServiceServerIsAvailable,
    hGet, cStr_getDpsTopicName hZero, Option.bind_eq_bind, Option.bind_some]
  cases ByteString.find [0x2F] (getDpsTopicName domainId client.serviceName) with
  | none => rfl
  | some pos => rfl

end Client

/-- Two DPS topics are one only if their domains and their names are, what is behind the
first `/` of a DPS topic is the name, and so a service is available to a client exactly
when a discovered node lists it under the name of the client. -/
theorem domainPrefix_reversible [DpsCbor] {π : Type} [DpsPublications π]
    [DpsPublications.Lawful π] :
    (∀ domainId otherDomainId name other, StartsWithSeparator name → StartsWithSeparator other →
      getDpsTopicName domainId name = getDpsTopicName otherDomainId other →
        domainId = otherDomainId ∧ name = other) ∧
    (∀ domainId name, StartsWithSeparator name →
      ∃ pos, ByteString.find [0x2F] (getDpsTopicName domainId name) = some pos ∧
        (getDpsTopicName domainId name).drop pos = name) ∧
    (∀ domainId arguments requestTypeName responseTypeName calls (publication : π) status impl
        client impl',
      createClient domainId arguments requestTypeName responseTypeName calls publication status
          impl = .ok (some client, impl') →
      StartsWithSeparator client.serviceName →
      ∀ peer : CustomNodeInfo, ∃ isAvailable,
        peer.serviceServerIsAvailable client = some isAvailable ∧
          (isAvailable = true ↔ ∃ node ∈ peer.discoveredNodes.getDiscoveredNodes,
            ∃ service ∈ node.services, service.topic = client.serviceName)) := by
  refine ⟨?_, ?_, ?_⟩
  · intro domainId otherDomainId name other hName hOther hSame
    exact getDpsTopicName_injective hName hOther hSame
  · intro domainId name hName
    have hFind := find_separator_getDpsTopicName hName domainId
    exact ⟨_, hFind, drop_separator_getDpsTopicName hName hFind⟩
  · intro domainId arguments requestTypeName responseTypeName calls publication status impl client
      impl' hCreate hName peer
    obtain ⟨hZero, hSame⟩ := serviceServerIsAvailable_of_createClient hCreate peer
    refine ⟨_, hSame.trans (rmwServiceServerIsAvailable_eq hName hZero _), ?_⟩
    rw [decide_eq_true_iff, DiscoveredNodes.countServices, DiscoveredNodes.count_pos]

/-! ## A client of a service that a peer advertises -/

section Recorded

local instance domainPrefixCbor : DpsCbor := rfcCbor

/-- Publications that are their topics. -/
local instance recordedPublications : DpsPublications (List StdString) where
  initPublication _ topics := (.ok, topics)
  publicationGetTopic publication index := publication[index]?

local instance recordedPublications_lawful : DpsPublications.Lawful (List StdString) where
  publicationGetTopic_init publication topics initialized hInit index topic hTopic := by
    cases hInit
    exact hTopic

/-- The arguments of `rmw_create_client` for the service `/add`. -/
def addArguments : Creation.CreateArguments where
  node := true
  implementationIdentifier := intelDpsIdentifier
  name := some (bytesOf "/add")
  qosPolicies := true
  impl := true
  implNode := true
  typeSupport := true

/-- A client in domain 42. -/
def addClient : ServiceClient (List StdString) where
  serviceName := bytesOf "/add"
  requestPublication := [bytesOf "42/add"]

theorem addClient_created :
    ∃ impl', createClient 42 addArguments (bytesOf "a") (bytesOf "b")
      { createPublication := true, setPublicationData := .ok, initPublication := .ok
        clientAllocate := true, allocate := true }
      ([] : List StdString) .ok Creation.freshRun.impl = .ok (some addClient, impl') := by
  refine ⟨{ discoveryPayload := Creation.freshRun.impl.discoveryPayload ++
      [bytesOf "client&topic=/add&types=a,b"], published := some (arrayItem Rfc7049.text
        (Creation.freshRun.impl.discoveryPayload ++ [bytesOf "client&topic=/add&types=a,b"])) }, ?_⟩
  decide +kernel

/-- A node that knows a peer with the service. -/
def addPeer : CustomNodeInfo :=
  (CustomNodeInfo.new 42).announce (bytesOf "uuid")
    (some { services := [{ topic := bytesOf "/add", types := [bytesOf "a", bytesOf "b"] }] })

theorem addClient_isAvailable :
    getDpsTopicName 4 (bytesOf "/2/add") ≠ getDpsTopicName 42 (bytesOf "/add") ∧
    (∃ pos, ByteString.find [0x2F] (getDpsTopicName 42 (bytesOf "/add")) = some pos ∧
      (getDpsTopicName 42 (bytesOf "/add")).drop pos = bytesOf "/add") ∧
    ∃ isAvailable, addPeer.serviceServerIsAvailable addClient = some isAvailable ∧
      (isAvailable = true ↔ ∃ node ∈ addPeer.discoveredNodes.getDiscoveredNodes,
        ∃ service ∈ node.services, service.topic = bytesOf "/add") := by
  obtain ⟨hInjective, hSuffix, hAvailable⟩ := domainPrefix_reversible (π := List StdString)
  obtain ⟨impl', hCreate⟩ := addClient_created
  refine ⟨fun hSame => ?_, hSuffix 42 _ (by decide), ?_⟩
  · have hDomains := (hInjective _ _ _ _ (by decide) (by decide) hSame).1
    exact absurd hDomains (by decide)
  · exact hAvailable _ _ _ _ _ _ _ _ _ _ hCreate (by decide) addPeer

end Recorded

end Discovery
end RmwDps
