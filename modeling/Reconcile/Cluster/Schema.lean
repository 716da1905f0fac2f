import Reconcile.Fault
import Reconcile.Json.Form

/-!
# What the cluster interface writes

The forms of events and of descriptions of refusals. Every field of an event may be missing
or null, apart from its version and kind, which may only be missing. Little of an event
matters, but all of its fields have to be of their forms.
-/

namespace Reconcile.Cluster

/-- Fields of one form, each of which may be null. -/
def nullables (form : Form) (names : List String) : List (String × Form) :=
  names.map fun name => (name, .nullable form)

/-- The form of a reference to an owner. -/
def ownerForm : Form :=
  .record (nullables .text ["apiVersion", "kind", "name", "uid"] ++
    nullables .flag ["blockOwnerDeletion", "controller"])

/-- The form of a note on who manages which fields. -/
def managerForm : Form :=
  .record (nullables .text ["apiVersion", "fieldsType", "manager", "operation", "subresource"] ++
    nullables .any ["fieldsV1"] ++ nullables .time ["time"])

/-- The form of what every object carries. -/
def metadataForm : Form :=
  .record (nullables .text ["generateName", "name", "namespace", "resourceVersion", "selfLink",
      "uid"] ++
    nullables (.table .text) ["annotations", "labels"] ++
    nullables .time ["creationTimestamp", "deletionTimestamp"] ++
    nullables (.signed 63) ["deletionGracePeriodSeconds", "generation"] ++
    nullables (.list .text) ["finalizers"] ++
    nullables (.list managerForm) ["managedFields"] ++
    nullables (.list ownerForm) ["ownerReferences"])

/-- The form of a reference to an object. -/
def referenceForm : Form :=
  .record (nullables .text ["apiVersion", "fieldPath", "kind", "name", "namespace",
    "resourceVersion", "uid"])

/-- The form of a series of occurrences. -/
def seriesForm : Form :=
  .record (nullables (.signed 31) ["count"] ++ nullables .time ["lastObservedTime"])

/-- The form of the source of an event. -/
def sourceForm : Form := .record (nullables .text ["component", "host"])

/-- The form of an event. -/
def eventForm : Form :=
  .record ([("apiVersion", .constant "v1"), ("kind", .constant "Event")] ++
    nullables .text ["action", "message", "reason", "reportingComponent", "reportingInstance",
      "type"] ++
    nullables (.signed 31) ["count"] ++
    nullables .time ["eventTime", "firstTimestamp", "lastTimestamp"] ++
    nullables referenceForm ["involvedObject", "related"] ++
    nullables metadataForm ["metadata"] ++
    nullables seriesForm ["series"] ++
    nullables sourceForm ["source"])

/-- The form of the description of a refusal. -/
def refusalForm : Form :=
  .entry [("status", .text), ("message", .text), ("reason", .text), ("code", .unsigned 16)]

end Reconcile.Cluster
