import Reconcile.Event.Record
import Reconcile.Json.Value
import Reconcile.Time.Calendar

/-!
# Event objects

In the cluster an event is an object with a name, a count, and the times of its first and
latest occurrence.
-/

namespace Reconcile.Cluster

/-- The reference of an event to what it is about. -/
def reference (r : ObjectRef) : Json :=
  .ofFields [("apiVersion", .string r.apiVersion), ("kind", .string r.kind),
    ("name", .string r.name), ("namespace", .string r.ns)]

/-- An event as the cluster keeps it. -/
structure EventObject where
  name : String
  ns : String
  labels : List (String × String)
  annotations : List (String × String)
  object : ObjectRef
  reason : String
  message : String
  severity : Severity
  count : Int
  firstTime : Int
  lastTime : Int
  component : String
  instanceName : String
deriving DecidableEq, Repr

/-- The event of a first occurrence at a time. -/
def EventObject.ofRecord (r : Record) (name : String) (now : Int) : EventObject where
  name := name
  ns := r.ns
  labels := r.labels
  annotations := [(operatorNamespaceKey, r.operatorNamespace)]
  object := r.object
  reason := r.reason
  message := r.message
  severity := r.item.severity
  count := 1
  firstTime := now
  lastTime := now
  component := r.component
  instanceName := r.instanceName

/-- Texts by name as an object. -/
def texts (fields : List (String × String)) : Json :=
  .ofFields (fields.map fun f => (f.1, .string f.2))

/-- The event as it is sent to the cluster. -/
def EventObject.toJson (e : EventObject) : Json :=
  .ofFields [
    ("apiVersion", .string "v1"),
    ("kind", .string "Event"),
    ("metadata", .ofFields [("annotations", texts e.annotations), ("labels", texts e.labels),
      ("name", .string e.name), ("namespace", .string e.ns)]),
    ("involvedObject", reference e.object),
    ("reason", .string e.reason),
    ("message", .string e.message),
    ("type", .string e.severity.text),
    ("count", .int e.count),
    ("firstTimestamp", .string (Calendar.timestamp e.firstTime)),
    ("lastTimestamp", .string (Calendar.timestamp e.lastTime)),
    ("reportingComponent", .string e.component),
    ("reportingInstance", .string e.instanceName),
    ("source", .ofFields [("component", .string e.component)])]

end Reconcile.Cluster
