import RmwDps.Discovery.Demangle

/-!
# Demangling undoes mangling

In a type name that is made of a namespace and a name, `dps_::` occurs once: every
`::` in the namespace comes behind a letter or a digit.  So both demangling
functions cut where the parts were put together, and two types with the same
type name are one.
-/

namespace RmwDps
namespace Discovery

open Serialization

/-! ## Names of types -/

/-- Letters, digits and the underscore. -/
def IsIdentifierByte (b : UInt8) : Prop :=
  (0x30 ≤ b ∧ b ≤ 0x39) ∨ (0x41 ≤ b ∧ b ≤ 0x5A) ∨ (0x61 ≤ b ∧ b ≤ 0x7A) ∨ b = 0x5F

instance : DecidablePred IsIdentifierByte := fun b =>
  inferInstanceAs (Decidable ((0x30 ≤ b ∧ b ≤ 0x39) ∨ (0x41 ≤ b ∧ b ≤ 0x5A) ∨
    (0x61 ≤ b ∧ b ≤ 0x7A) ∨ b = 0x5F))

/-- An identifier of rosidl: no underscore at either end, and no two in a row. -/
@[mk_iff]
structure Identifier (s : StdString) : Prop where
  nonempty : s ≠ []
  bytes : ∀ b ∈ s, IsIdentifierByte b
  head : s.head? ≠ some 0x5F
  last : s.getLast? ≠ some 0x5F
  single : ¬ [0x5F, 0x5F] <:+: s

instance (s : StdString) : Decidable (Identifier s) := decidable_of_iff' _ (identifier_iff s)

/-- What the demangling functions need of a part of a namespace. -/
structure Part (s : StdString) : Prop where
  nonempty : s ≠ []
  zero : (0 : UInt8) ∉ s
  colon : (0x3A : UInt8) ∉ s
  slash : (0x2F : UInt8) ∉ s
  last : s.getLast? ≠ some 0x5F

theorem Identifier.part {s : StdString} (hIdentifier : Identifier s) : Part s where
  nonempty := hIdentifier.nonempty
  zero hZero := absurd (hIdentifier.bytes _ hZero) (by decide)
  colon hColon := absurd (hIdentifier.bytes _ hColon) (by decide)
  slash hSlash := absurd (hIdentifier.bytes _ hSlash) (by decide)
  last := hIdentifier.last

/-- A type: the parts of its namespace, and its name. -/
structure TypeName where
  parts : List StdString
  name : StdString
  nonempty : parts ≠ []
  part : ∀ part ∈ parts, Part part
  zero : (0 : UInt8) ∉ name
  slash : (0x2F : UInt8) ∉ name

/-- The namespace with `::` between its parts. -/
def namespaceOf (parts : List StdString) : StdString := scopeSeparator.intercalate parts

def TypeName.members (type : TypeName) : MembersName where
  messageNamespace := namespaceOf type.parts
  messageName := type.name

/-- The ROS type: the namespace with `/` for `::`, and the name. -/
def rosTypeOf (parts : List StdString) (name : StdString) : StdString :=
  ByteString.replaceAll scopeSeparator typeSeparator (namespaceOf parts) ++ typeSeparator ++ name

/-! ## Where `dps_::` is found -/

/-- No underscore in front of a colon. -/
def Apart (b c : UInt8) : Prop := b = 0x5F → c ≠ 0x3A

instance : DecidableRel Apart := fun b c => inferInstanceAs (Decidable (b = 0x5F → c ≠ 0x3A))

theorem isChain_apart_of_notMem {s : StdString} (hColon : (0x3A : UInt8) ∉ s) :
    s.IsChain Apart := by
  rw [List.isChain_iff_forall_rel_of_append_cons_cons]
  rintro b c front back rfl - rfl
  exact hColon (by simp)

/-- In a namespace and the word of `dps_::` no underscore comes in front of a colon. -/
theorem isChain_apart_parts {parts : List StdString} (hParts : ∀ part ∈ parts, Part part) :
    (parts.flatMap (· ++ scopeSeparator) ++ bytesOf "dps_").IsChain Apart := by
  induction parts with
  | nil => exact isChain_apart_of_notMem (by decide)
  | cons part parts ih =>
      obtain ⟨hPart, hRest⟩ := List.forall_mem_cons.mp hParts
      have hScope : scopeSeparator = [0x3A, 0x3A] := by decide
      rw [List.flatMap_cons, List.append_assoc, List.append_assoc, List.isChain_append]
      refine ⟨isChain_apart_of_notMem hPart.colon, ?_, ?_⟩
      · rw [List.isChain_append]
        refine ⟨by rw [hScope]; simp [Apart], ih hRest, ?_⟩
        rintro b hLast c -  rfl
        rw [hScope] at hLast
        simp at hLast
      · rintro b hLast c - rfl
        exact absurd hLast hPart.last

theorem find_dpsSubstring {parts : List StdString} (hParts : ∀ part ∈ parts, Part part)
    (rest : StdString) :
    ByteString.find dpsSubstring (parts.flatMap (· ++ scopeSeparator) ++ (dpsSubstring ++ rest)) =
      some (parts.flatMap (· ++ scopeSeparator)).length := by
  have hDps : dpsSubstring = bytesOf "dps_:" ++ [0x3A] := by decide
  have hWord : bytesOf "dps_:" = bytesOf "dps_" ++ [0x3A] := by decide
  have hChain := isChain_apart_parts hParts
  have hFirst : ¬ bytesOf "dps_:" ++ [0x3A] <:+:
      parts.flatMap (· ++ scopeSeparator) ++ bytesOf "dps_:" := by
    rw [hWord, ← List.append_assoc (parts.flatMap _), List.infix_concat_iff]
    rintro (hEnd | hInside)
    · -- What is in front of the last colon does not end in a colon.
      obtain ⟨front, hFront⟩ := hEnd
      rw [← List.append_assoc, List.append_left_inj] at hFront
      have hLast := congrArg List.getLast? hFront
      rw [← List.append_assoc, List.getLast?_concat,
        List.getLast?_append_of_ne_nil _ (by decide)] at hLast
      exact absurd hLast (by decide)
    · have hWordChain := List.IsChain.infix hChain hInside
      exact absurd hWordChain (by decide)
  rw [hDps, ← List.append_assoc]
  exact ByteString.find_append hFirst rest

/-! ## Putting a type name together -/

namespace TypeName

variable (type : TypeName)

/-- The namespace with a separator behind each of its parts. -/
def front : StdString := type.parts.flatMap (· ++ scopeSeparator)

theorem namespaceOf_ne_nil : namespaceOf type.parts ≠ [] := by
  cases hParts : type.parts with
  | nil => exact absurd hParts type.nonempty
  | cons first rest =>
      have hFirst : first ≠ [] := (type.part first (by simp [hParts])).nonempty
      cases rest with
      | nil => simpa [namespaceOf] using hFirst
      | cons second rest => simp [namespaceOf, List.intercalate_cons_cons, hFirst]

theorem createTypeName_members :
    createTypeName type.members = type.front ++ (dpsSubstring ++ type.name ++ bytesOf "_") := by
  have hFront : namespaceOf type.parts ++ scopeSeparator = type.front :=
    ByteString.intercalate_append_sep scopeSeparator type.nonempty
  rw [createTypeName, members, if_pos type.namespaceOf_ne_nil, hFront]

theorem rosTypeOf_eq :
    rosTypeOf type.parts type.name = type.parts.flatMap (· ++ typeSeparator) ++ type.name := by
  have hScope : scopeSeparator = 0x3A :: [0x3A] := by decide
  have hColon : ∀ part ∈ type.parts, (0x3A : UInt8) ∉ part := fun part h => (type.part part h).colon
  rw [rosTypeOf, namespaceOf, hScope, ByteString.replaceAll_intercalate _ hColon,
    ByteString.intercalate_append_sep _ type.nonempty]

theorem replaceAll_front :
    ByteString.replaceAll scopeSeparator typeSeparator type.front =
      type.parts.flatMap (· ++ typeSeparator) := by
  have hScope : scopeSeparator = 0x3A :: [0x3A] := by decide
  have hColon : ∀ part ∈ type.parts, (0x3A : UInt8) ∉ part := fun part h => (type.part part h).colon
  have hEmpty : ByteString.replaceAll (0x3A :: [0x3A]) typeSeparator [] = [] := rfl
  rw [front, hScope, ← List.append_nil (type.parts.flatMap _),
    ByteString.replaceAll_flatMap _ hColon, hEmpty, List.append_nil]

theorem find_front (rest : StdString) :
    ByteString.find dpsSubstring (type.front ++ (dpsSubstring ++ rest)) =
      some type.front.length :=
  find_dpsSubstring type.part rest

/-- The parts and the name can be read off the ROS type. -/
theorem rosTypeOf_injective {type type' : TypeName}
    (hSame : rosTypeOf type.parts type.name = rosTypeOf type'.parts type'.name) :
    type = type' := by
  have hSplit : ∀ type : TypeName,
      (rosTypeOf type.parts type.name).splitOn 0x2F = type.parts ++ [type.name] := by
    intro type
    have hSlash : ∀ word ∈ type.parts ++ [type.name], (0x2F : UInt8) ∉ word := by
      intro word hWord
      rw [List.mem_append, List.mem_singleton] at hWord
      obtain hPart | rfl := hWord
      · exact (type.part word hPart).slash
      · exact type.slash
    have hSeparator : typeSeparator = [0x2F] := by decide
    rw [rosTypeOf_eq, hSeparator, ← ByteString.intercalate_concat]
    exact List.splitOn_intercalate 0x2F hSlash (by simp)
  have hWords := hSplit type
  rw [hSame, hSplit type'] at hWords
  obtain ⟨hParts, hName⟩ := List.append_inj' hWords rfl
  cases type
  cases type'
  simp only [List.cons.injEq, and_true] at hParts hName
  subst hParts hName
  rfl

theorem createTypeName_injective {type type' : TypeName}
    (hSame : createTypeName type.members = createTypeName type'.members) : type = type' := by
  rw [createTypeName_members, createTypeName_members] at hSame
  have hLength : type.front.length = type'.front.length := by
    have hFirst := type.find_front (type.name ++ bytesOf "_")
    rw [← List.append_assoc dpsSubstring, hSame, List.append_assoc dpsSubstring,
      type'.find_front, Option.some_inj] at hFirst
    exact hFirst.symm
  obtain ⟨hFront, hRest⟩ := List.append_inj hSame hLength
  rw [List.append_left_inj, List.append_right_inj] at hRest
  apply rosTypeOf_injective
  rw [rosTypeOf_eq, rosTypeOf_eq, ← replaceAll_front, ← replaceAll_front, hFront, hRest]

/-! ## Taking a type name apart -/

variable [Rcpputils] [Rcpputils.Lawful]

theorem demangleNamespace_front :
    demangleNamespace type.front = type.parts.flatMap (· ++ typeSeparator) := by
  rw [demangleNamespace_eq, replaceAll_front]

theorem demangleIfRosType_members (hSized : (createTypeName type.members).length < 2 ^ 64) :
    demangleIfRosType (createTypeName type.members) = rosTypeOf type.parts type.name := by
  rw [createTypeName_members] at hSized ⊢
  have hFirst := type.find_front (type.name ++ bytesOf "_")
  rw [← List.append_assoc dpsSubstring] at hFirst
  rw [demangleIfRosType_append hFirst hSized, demangleNamespace_front, rosTypeOf_eq]

omit [Rcpputils] [Rcpputils.Lawful] in
theorem notMem_append {c : UInt8} {name suffix : StdString} (hName : c ∉ name)
    (hSuffix : c ∉ suffix) : c ∉ name ++ suffix := by
  rw [List.mem_append, not_or]
  exact ⟨hName, hSuffix⟩

/-- The message type of the requests of a service. -/
def request (service : TypeName) : TypeName :=
  { service with
    name := service.name ++ bytesOf "_Request"
    zero := notMem_append service.zero (by decide)
    slash := notMem_append service.slash (by decide) }

/-- The message type of the responses of a service. -/
def response (service : TypeName) : TypeName :=
  { service with
    name := service.name ++ bytesOf "_Response"
    zero := notMem_append service.zero (by decide)
    slash := notMem_append service.slash (by decide) }

omit [Rcpputils] [Rcpputils.Lawful] in
theorem createTypeName_request (type : TypeName) : createTypeName type.request.members =
    type.front ++ (dpsSubstring ++ type.name ++ requestSuffix) := by
  have hSuffix : requestSuffix = bytesOf "_Request" ++ bytesOf "_" := by decide
  rw [createTypeName_members, hSuffix]
  simp only [front, request, List.append_assoc]

omit [Rcpputils] [Rcpputils.Lawful] in
theorem createTypeName_response (type : TypeName) : createTypeName type.response.members =
    type.front ++ (dpsSubstring ++ type.name ++ responseSuffix) := by
  have hSuffix : responseSuffix = bytesOf "_Response" ++ bytesOf "_" := by decide
  rw [createTypeName_members, hSuffix]
  simp only [front, response, List.append_assoc]

/-- Whatever the name of the service contains, its own suffix is at the end. -/
theorem demangleServiceTypeOnly_request
    (hSized : (createTypeName type.request.members).length < 2 ^ 64) :
    demangleServiceTypeOnly (createTypeName type.request.members) =
      rosTypeOf type.parts type.name := by
  have hFirst := type.find_front (type.name ++ requestSuffix)
  rw [← List.append_assoc dpsSubstring] at hFirst
  rw [createTypeName_request] at hSized ⊢
  rw [demangleServiceTypeOnly_append (.inr rfl) hFirst hSized, demangleNamespace_front,
    rosTypeOf_eq]

theorem demangleServiceTypeOnly_response
    (hSized : (createTypeName type.response.members).length < 2 ^ 64) :
    demangleServiceTypeOnly (createTypeName type.response.members) =
      rosTypeOf type.parts type.name := by
  have hFirst := type.find_front (type.name ++ responseSuffix)
  rw [← List.append_assoc dpsSubstring] at hFirst
  rw [createTypeName_response] at hSized ⊢
  rw [demangleServiceTypeOnly_append (.inl rfl) hFirst hSized, demangleNamespace_front,
    rosTypeOf_eq]

omit [Rcpputils] [Rcpputils.Lawful] in
theorem eq_of_append_name {type type' : TypeName} {suffix : StdString}
    (hParts : type.parts = type'.parts) (hName : type.name ++ suffix = type'.name ++ suffix) :
    type = type' := by
  cases type
  cases type'
  obtain rfl := List.append_cancel_right hName
  subst hParts
  rfl

omit [Rcpputils] [Rcpputils.Lawful] in
theorem request_injective {type type' : TypeName} (hSame : type.request = type'.request) :
    type = type' := by
  have hParts : type.request.parts = type'.request.parts := congrArg parts hSame
  have hName : type.request.name = type'.request.name := congrArg name hSame
  exact eq_of_append_name hParts hName

omit [Rcpputils] [Rcpputils.Lawful] in
theorem response_injective {type type' : TypeName} (hSame : type.response = type'.response) :
    type = type' := by
  have hParts : type.response.parts = type'.response.parts := congrArg parts hSame
  have hName : type.response.name = type'.response.name := congrArg name hSame
  exact eq_of_append_name hParts hName

omit [Rcpputils] [Rcpputils.Lawful] in
theorem request_ne_response (type type' : TypeName) : type.request ≠ type'.response := by
  intro hSame
  have hLast := congrArg (fun type => type.name.getLast?) hSame
  simp only [request, response] at hLast
  rw [List.getLast?_append_of_ne_nil _ (by decide),
    List.getLast?_append_of_ne_nil _ (by decide)] at hLast
  exact absurd hLast (by decide)

end TypeName

/-! ## Interfaces -/

/-- An interface of rosidl: a namespace of one or more identifiers, and a name. -/
structure Interface where
  parts : List StdString
  name : StdString
  nonempty : parts ≠ []
  part : ∀ part ∈ parts, Identifier part
  identifier : Identifier name

def Interface.type (interface : Interface) : TypeName where
  parts := interface.parts
  name := interface.name
  nonempty := interface.nonempty
  part part hPart := (interface.part part hPart).part
  zero := interface.identifier.part.zero
  slash := interface.identifier.part.slash

theorem Interface.type_injective {interface other : Interface}
    (hSame : interface.type = other.type) : interface = other := by
  cases interface
  cases other
  simp only [type, TypeName.mk.injEq] at hSame
  obtain ⟨rfl, rfl⟩ := hSame
  rfl

section Interface

variable [Rcpputils] [Rcpputils.Lawful]

/-- Demangling undoes mangling, of messages by the one function and of services by
the other, and no two interfaces have a type name in common. -/
theorem demangle_createTypeName (interface : Interface) :
    ((createTypeName interface.type.members).length < 2 ^ 64 →
      demangleIfRosType (createTypeName interface.type.members) =
        rosTypeOf interface.parts interface.name) ∧
    ((createTypeName interface.type.request.members).length < 2 ^ 64 →
      demangleServiceTypeOnly (createTypeName interface.type.request.members) =
        rosTypeOf interface.parts interface.name) ∧
    ((createTypeName interface.type.response.members).length < 2 ^ 64 →
      demangleServiceTypeOnly (createTypeName interface.type.response.members) =
        rosTypeOf interface.parts interface.name) ∧
    ∀ other : Interface,
      (createTypeName interface.type.members = createTypeName other.type.members →
        interface = other) ∧
      (createTypeName interface.type.request.members =
        createTypeName other.type.request.members → interface = other) ∧
      (createTypeName interface.type.response.members =
        createTypeName other.type.response.members → interface = other) ∧
      createTypeName interface.type.request.members ≠
        createTypeName other.type.response.members := by
  refine ⟨interface.type.demangleIfRosType_members,
    interface.type.demangleServiceTypeOnly_request,
    interface.type.demangleServiceTypeOnly_response, fun other => ⟨?_, ?_, ?_, ?_⟩⟩
  · intro hSame
    exact Interface.type_injective (TypeName.createTypeName_injective hSame)
  · intro hSame
    have hRequest := TypeName.createTypeName_injective hSame
    exact Interface.type_injective (TypeName.request_injective hRequest)
  · intro hSame
    have hResponse := TypeName.createTypeName_injective hSame
    exact Interface.type_injective (TypeName.response_injective hResponse)
  · intro hSame
    exact TypeName.request_ne_response _ _ (TypeName.createTypeName_injective hSame)

end Interface

/-- An interface whose names have the words of the markers in them. -/
def markedInterface : Interface where
  parts := [bytesOf "my_dps", bytesOf "srv"]
  name := bytesOf "Get_Response_dps"
  nonempty := by decide
  part := by decide +kernel
  identifier := by decide +kernel

theorem markedInterface_demangle :
    @demangleServiceTypeOnly replacingRcpputils
        (bytesOf "my_dps::srv::dps_::Get_Response_dps_Request_") =
      rosTypeOf markedInterface.parts markedInterface.name ∧
    rosTypeOf markedInterface.parts markedInterface.name =
      bytesOf "my_dps/srv/Get_Response_dps" := by
  have hName : createTypeName markedInterface.type.request.members =
      bytesOf "my_dps::srv::dps_::Get_Response_dps_Request_" := by decide +kernel
  have hSized : (createTypeName markedInterface.type.request.members).length < 2 ^ 64 := by
    decide +kernel
  have hDemangle := (@demangle_createTypeName replacingRcpputils replacingRcpputils_lawful
    markedInterface).2.1 hSized
  rw [hName] at hDemangle
  exact ⟨hDemangle, by decide +kernel⟩

end Discovery
end RmwDps
