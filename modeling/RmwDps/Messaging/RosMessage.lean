import RmwDps.Rmw
import RmwDps.Serialization.TypeSupport
import RmwDps.Serialization.StreamLogic

/-!
# ROS messages of either package

Handles carry their type support as an untyped pointer with an identifier.
`_serialize_ros_message` and `_deserialize_ros_message` choose between the C
and the C++ package by the identifier.
-/

namespace RmwDps
namespace Messaging

open Serialization

/-- `typesupport_identifier_`, which is compared with the identifiers of the two
introspection packages. -/
inductive TypesupportIdentifier
  | introspectionC
  | introspectionCpp
  | other (name : String)
  deriving DecidableEq, Repr

/-- A message type support: the identifier, and the members behind the pointer. -/
structure MessageTypeSupport where
  identifier : TypesupportIdentifier
  members : MessageMembers

/-- The identifier of a package. -/
def identifierOf : MembersType → TypesupportIdentifier
  | .c => .introspectionC
  | .cpp => .introspectionCpp

/-- The type support that the create functions make for a description of a package. -/
def MessageTypeSupport.of (μ : MembersType) (members : MessageMembers) : MessageTypeSupport :=
  { identifier := identifierOf μ, members }

/-- A message behind a `void *`. -/
inductive RosMessage
  | c (msg : Message .c)
  | cpp (msg : Message .cpp)

/-- A message of a package behind a `void *`. -/
def RosMessage.of : (μ : MembersType) → Message μ → RosMessage
  | .c, msg => .c msg
  | .cpp, msg => .cpp msg

/-- A function of the API on the state that it changes, which survives an exception
that leaves the function. -/
abbrev Api (σ : Type) := ExceptT Fault (StateM σ)

/-- Call a function: how it ends, and the state it leaves. -/
def Api.exec {σ α : Type} (function : Api σ α) (state : σ) : Except Fault α × σ :=
  function.run.run state

@[simp] theorem Api.exec_pure {σ α : Type} (a : α) (state : σ) :
    Api.exec (pure a) state = (.ok a, state) := rfl

@[simp] theorem Api.exec_get {σ : Type} (state : σ) :
    Api.exec (get : Api σ σ) state = (.ok state, state) := rfl

@[simp] theorem Api.exec_modify {σ : Type} (change : σ → σ) (state : σ) :
    Api.exec (modify change : Api σ PUnit) state = (.ok ⟨⟩, change state) := rfl

theorem Api.exec_bind {σ α β : Type} (function : Api σ α) (next : α → Api σ β) (state : σ) :
    Api.exec (function >>= next) state =
      match Api.exec function state with
      | (.ok a, state') => Api.exec (next a) state'
      | (.error fault, state') => (.error fault, state') := by
  unfold Api.exec
  rw [ExceptT.run_bind, StateT.run_bind]
  rcases function.run.run state with ⟨fault | a, state'⟩ <;> rfl

/-- A call that changes nothing. -/
def Api.lift {σ α : Type} (result : Except Fault α) : Api σ α := ExceptT.mk (pure result)

@[simp] theorem Api.exec_lift {σ α : Type} (result : Except Fault α) (state : σ) :
    Api.exec (Api.lift result) state = (result, state) := rfl

section Dispatch

variable [DpsCbor] [Platform]

/-- `_serialize_ros_message`.  A message of one package behind a type support of the
other one is read as what it is not. -/
def serializeRosMessage (rosMessage : RosMessage) (ser : TxStream) (ts : MessageTypeSupport) :
    Except Fault (Bool × TxStream) :=
  match ts.identifier, rosMessage with
  | .introspectionC, .c msg => TypeSupport.serializeROSmessage ts.members msg ser
  | .introspectionCpp, .cpp msg => TypeSupport.serializeROSmessage ts.members msg ser
  | .other _, _ => return (false, ser)
  | _, _ => throw .undefinedBehavior

/-- `_deserialize_ros_message` with the message it fills in, or nothing where it
returns `false`. -/
def deserializeRosMessage (buffer : RxStream) (ts : MessageTypeSupport) :
    Except Fault (Option RosMessage) :=
  match ts.identifier with
  | .introspectionC =>
      (Rx.exec (TypeSupport.deserializeROSmessage (μ := .c) ts.members) buffer).1.map
        fun msg => some (.c msg)
  | .introspectionCpp =>
      (Rx.exec (TypeSupport.deserializeROSmessage (μ := .cpp) ts.members) buffer).1.map
        fun msg => some (.cpp msg)
  | .other _ => .ok none

theorem serializeRosMessage_of {μ : MembersType} (msg : Message μ) (members : MessageMembers)
    (ser : TxStream) :
    serializeRosMessage (.of μ msg) ser (.of μ members) =
      TypeSupport.serializeROSmessage members msg ser := by
  cases μ <;> rfl

theorem deserializeRosMessage_of (μ : MembersType) (members : MessageMembers) (buffer : RxStream) :
    deserializeRosMessage buffer (.of μ members) =
      (Rx.exec (TypeSupport.deserializeROSmessage (μ := μ) members) buffer).1.map
        fun msg => some (.of μ msg) := by
  cases μ <;> rfl

/-- `rosidl_message_type_support_t` as `get_message_typesupport_handle` sees it: the
members that it has for an identifier. -/
structure RosidlMessageTypeSupport where
  handle : TypesupportIdentifier → Option MessageMembers

/-- The first lines of `rmw_serialize` and `rmw_deserialize`: the C introspection is
asked for first, then the C++ one. -/
def RosidlMessageTypeSupport.find (typeSupport : RosidlMessageTypeSupport) :
    Option MessageTypeSupport :=
  match typeSupport.handle .introspectionC with
  | some members => some { identifier := .introspectionC, members }
  | none => (typeSupport.handle .introspectionCpp).map
      fun members => { identifier := .introspectionCpp, members }

/-- `rmw_deserialize`. -/
def rmwDeserialize (serializedMessage : List UInt8) (typeSupport : RosidlMessageTypeSupport) :
    Except Fault (RmwRet × Option RosMessage) :=
  match typeSupport.find with
  | none => return (.error "type support not from this implementation", none)
  | some ts => do
      let message ← deserializeRosMessage (RxStream.ofBytes serializedMessage) ts
      -- Only an unknown identifier makes `_deserialize_ros_message` return `false`.
      if message.isSome then return (.ok, message)
      else return (.error "Unknown typesupport identifier", none)

end Dispatch

end Messaging
end RmwDps
