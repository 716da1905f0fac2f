import Reconcile.Digest.NameId
import Reconcile.Event.Request

/-!
# Event records

A record is a lifecycle event ready to be stored. Occurrences with the same reason and the
same involved object are merged, so the name of the stored event is derived from these.
-/

namespace Reconcile

/-- A reference to the object an event is about. -/
structure ObjectRef where
  apiVersion : String
  kind : String
  name : String
  ns : String
deriving DecidableEq, Repr

/-- The label that holds the uid of the domain an event is about. -/
def domainUidLabel : String := "keel.dev/domainUID"

/-- The label of everything the operator creates. -/
def createdByOperatorLabel : String := "keel.dev/createdByOperator"

/-- The annotation that holds the namespace of the operator. -/
def operatorNamespaceKey : String := "keel.dev/operatorNamespace"

/-- The component that reports all events. -/
def operatorComponent : String := "keel.operator"

/-- A lifecycle event ready to be stored. -/
structure Record where
  item : Item
  ns : String
  object : ObjectRef
  message : String
  /-- The labels, sorted by name. -/
  labels : List (String × String)
  component : String
  instanceName : String
  operatorNamespace : String
deriving DecidableEq, Repr

namespace Record

/-- The reason of the kind of event. -/
def reason (r : Record) : String := r.item.reason

/-- The key under which repeated occurrences are merged. -/
def mergeKey (r : Record) : String :=
  String.intercalate "/" [r.reason, r.object.apiVersion, r.object.kind, r.object.ns, r.object.name]

/-- The name of the stored event: the name of the object and an identifier of the merge key. -/
def eventName (r : Record) : String :=
  r.object.name ++ "." ++ Digest.hexText (Digest.nameId Digest.objectNameSpace r.mergeKey)

end Record

end Reconcile
