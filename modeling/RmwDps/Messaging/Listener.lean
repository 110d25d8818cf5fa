import RmwDps.Messaging.RosMessage

/-!
# Listeners

The queue between the DPS callbacks and the take functions, and the
publications that travel with the payloads.
-/

namespace RmwDps
namespace Messaging

open Serialization

/-- `DPS_UUID`. -/
abbrev DpsUuid := Vector UInt8 16

/-- `DPS_Publication`, the part that the package reads. -/
structure DpsPublication where
  uuid : DpsUuid
  sequenceNum : UInt32
  ackSequenceNum : UInt32
  deriving DecidableEq, Repr

/-- `Publication`: a pointer that owns a copy, or null. -/
abbrev Publication := Option DpsPublication

/-- `Listener::Data`. -/
abbrev Data := Publication × RxStream

/-- `Listener`.  `data` is the queue `data_`, its front first; the two pointers are to
the members of a wait set, given by its address. -/
structure Listener where
  data : List Data
  conditionMutex : Option Nat
  conditionVariable : Option Nat
  deriving DecidableEq, Repr

namespace Listener

def new : Listener := { data := [], conditionMutex := none, conditionVariable := none }

/-- `data_.push(std::move(data))`. -/
def push (listener : Listener) (data : Data) : Listener :=
  { listener with data := listener.data ++ [data] }

/-- The data that `onPublication` and `onAcknowledgement` push. -/
def received (pub : DpsPublication) (payload : List UInt8) : Data :=
  (some pub, RxStream.ofBytes payload)

/-- `onPublication`, with the condition variable that it notifies.  Both branches push;
the first of them also holds the mutex of the wait set. -/
def onPublication (listener : Listener) (pub : DpsPublication) (payload : List UInt8) :
    Listener × Option Nat :=
  match listener.conditionMutex with
  | some _ => (listener.push (received pub payload), listener.conditionVariable)
  | none => (listener.push (received pub payload), none)

@[simp] theorem onPublication_fst (listener : Listener) (pub : DpsPublication)
    (payload : List UInt8) :
    (listener.onPublication pub payload).1 = listener.push (received pub payload) := by
  unfold onPublication
  cases listener.conditionMutex <;> rfl

def attachCondition (listener : Listener) (waitSet : Nat) : Listener :=
  { listener with conditionMutex := some waitSet, conditionVariable := some waitSet }

def detachCondition (listener : Listener) : Listener :=
  { listener with conditionMutex := none, conditionVariable := none }

def hasData (listener : Listener) : Bool := 0 < listener.data.length

/-- `takeNextData`, on the listener. -/
def takeNextData : Api Listener (Option Data) :=
  ExceptT.mk fun listener =>
    match listener.data with
    | [] => (.ok none, listener)
    | data :: rest => (.ok (some data), { listener with data := rest })

theorem exec_takeNextData_nil {listener : Listener} (hData : listener.data = []) :
    Api.exec takeNextData listener = (.ok none, listener) := by
  unfold Api.exec takeNextData
  simp only [ExceptT.run_mk, StateT.run, hData]

theorem exec_takeNextData_cons {listener : Listener} {data : Data} {rest : List Data}
    (hData : listener.data = data :: rest) :
    Api.exec takeNextData listener = (.ok (some data), { listener with data := rest }) := by
  unfold Api.exec takeNextData
  simp only [ExceptT.run_mk, StateT.run, hData]

end Listener

end Messaging
end RmwDps
