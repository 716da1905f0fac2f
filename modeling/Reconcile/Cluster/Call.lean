import Reconcile.Cluster.Address
import Reconcile.Cluster.EventObject
import Reconcile.Fault

/-!
# Calls of the cluster interface

Events are read by name, created, and patched. A patch counts one more occurrence of an event
that was read before. It names the version that was read, so that the cluster can refuse it
when somebody else has written in the meantime.
-/

namespace Reconcile.Cluster

/-- One more occurrence of an event that exists. -/
structure Increment where
  /-- The version that was read; without one the cluster cannot notice other writers. -/
  version : Option String
  count : Int
  message : String
  time : Int
deriving DecidableEq, Repr

/-- The changes that an increment makes. -/
def Increment.toJson (i : Increment) : Json :=
  .ofFields [
    ("metadata", .ofFields [("resourceVersion", .ofString? i.version)]),
    ("count", .int i.count),
    ("lastTimestamp", .string (Calendar.timestamp i.time)),
    ("message", .string i.message)]

/-- A call of the cluster interface. -/
inductive Call
  | read (ns name : String)
  | create (event : EventObject)
  | patch (ns name : String) (change : Increment)
deriving DecidableEq, Repr

/-- The parts of an event that was read which matter for counting. -/
structure Existing where
  version : Option String
  count : Option Int
deriving DecidableEq, Repr

/-- The cluster interface, as it changes `σ`. -/
abbrev Api (σ : Type) : Type := Call → σ → Except ApiFault Existing × σ

namespace Call

/-- The path of the events of a namespace. -/
def eventsPath (ns : String) : String := "/api/v1/namespaces/" ++ ns ++ "/events"

/-- The verb of a call. -/
def method : Call → String
  | read .. => "GET"
  | create _ => "POST"
  | patch .. => "PATCH"

/-- The text of the address of a call. Reading has no query, the others have an empty one. -/
def addressText : Call → String
  | read ns name => eventsPath ns ++ "/" ++ name
  | create event => eventsPath event.ns ++ "?"
  | patch ns name _ => eventsPath ns ++ "/" ++ name ++ "?"

/-- The address of a call, if its names can stand in one. -/
def address? (c : Call) : Option Address := Address.ofText? c.addressText

/-- The kind of the body of a call. -/
def contentType? : Call → Option String
  | read .. => none
  | create _ => some "application/json"
  | patch .. => some "application/merge-patch+json"

/-- The body of a call. -/
def body? : Call → Option Json
  | read .. => none
  | create event => some event.toJson
  | patch _ _ change => some change.toJson

/-- Makes a call. Without an address nothing is sent. -/
def send {σ : Type} (api : Api σ) (c : Call) (s : σ) : Except ApiFault Existing × σ :=
  if c.address?.isSome then api c s else (.error .unaddressable, s)

end Call

end Reconcile.Cluster
