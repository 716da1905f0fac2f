import Reconcile.Text.Replace

/-!
# Kinds of lifecycle events

Every kind has a reason that names it in the cluster, a message pattern, a severity and a
scope. A pattern holds a place for the resource the event is about, and the patterns of
failures hold another for the failure text.
-/

namespace Reconcile

/-- How serious an event is. -/
inductive Severity
  | normal
  | warning
deriving DecidableEq, Repr

/-- The severity as the cluster writes it. -/
def Severity.text : Severity → String
  | normal => "Normal"
  | warning => "Warning"

/-- What an event points at: the domain of an attempt, or a namespace named in the request. -/
inductive Scope
  | domain
  | watch
deriving DecidableEq, Repr

/-- The scope by name. -/
def Scope.text : Scope → String
  | domain => "Domain"
  | watch => "Namespace"

/-- The kinds of lifecycle events. -/
inductive Item
  | processingStarting
  | processingCompleted
  | processingRetrying
  | processingFailed
  | processingAborted
  | resourceCreated
  | resourceChanged
  | resourceDeleted
  | namespaceWatchingStarted
  | namespaceWatchingStopped
deriving DecidableEq, Repr

namespace Item

/-- All kinds. -/
def all : List Item :=
  [processingStarting, processingCompleted, processingRetrying, processingFailed,
    processingAborted, resourceCreated, resourceChanged, resourceDeleted,
    namespaceWatchingStarted, namespaceWatchingStopped]

/-- The list of all kinds leaves none out. -/
theorem mem_all (i : Item) : i ∈ all := by cases i <;> decide

/-- The place of the resource in a pattern. -/
def resourcePlace : String := "\x7bresource\x7d"

/-- The place of the failure text in a pattern. -/
def textPlace : String := "\x7btext\x7d"

/-- The failure text of a failure reported without one. -/
def unknownText : String := "unknown"

/-- The reason that names the kind in the cluster. -/
def reason : Item → String
  | processingStarting => "DomainProcessingStarting"
  | processingCompleted => "DomainProcessingCompleted"
  | processingRetrying => "DomainProcessingRetrying"
  | processingFailed => "DomainProcessingFailed"
  | processingAborted => "DomainProcessingAborted"
  | resourceCreated => "DomainCreated"
  | resourceChanged => "DomainChanged"
  | resourceDeleted => "DomainDeleted"
  | namespaceWatchingStarted => "NamespaceWatchingStarted"
  | namespaceWatchingStopped => "NamespaceWatchingStopped"

/-- Different kinds have different reasons. -/
theorem reason_injective {i j : Item} (h : i.reason = j.reason) : i = j := by
  revert h; cases i <;> cases j <;> decide

/-- The message pattern. -/
def pattern : Item → String
  | processingStarting =>
    "Creating or updating Kubernetes presence for WebLogic Domain with UID \x7bresource\x7d"
  | processingCompleted => "Successfully completed processing domain resource \x7bresource\x7d"
  | processingRetrying => "Retrying the processing of domain resource \x7bresource\x7d " ++
      "after one or more failed attempts"
  | processingFailed => "Failed to complete processing domain resource \x7bresource\x7d " ++
      "due to: \x7btext\x7d, the processing will be retried if needed"
  | processingAborted => "Stop processing domain resource \x7bresource\x7d " ++
      "due to: \x7btext\x7d, the processing will not be retried"
  | resourceCreated => "Domain resource \x7bresource\x7d was created"
  | resourceChanged => "Domain resource \x7bresource\x7d was changed"
  | resourceDeleted => "Domain resource \x7bresource\x7d was deleted"
  | namespaceWatchingStarted => "Started watching namespace \x7bresource\x7d"
  | namespaceWatchingStopped => "Stopped watching namespace \x7bresource\x7d"

/-- Failures are warnings. -/
def severity : Item → Severity
  | processingFailed | processingAborted => .warning
  | _ => .normal

/-- Only the events of namespace watches are about a namespace. -/
def scope : Item → Scope
  | namespaceWatchingStarted | namespaceWatchingStopped => .watch
  | _ => .domain

/-- Whether the message has a place for a failure text. -/
def takesText (i : Item) : Bool := Text.occurs textPlace.toList i.pattern.toList

/-- The message about a resource. The resource is filled in first and the failure text, or the
word for an unknown one, afterwards. -/
def message (i : Item) (resource : String) (text : Option String) : String :=
  Text.replace textPlace (text.getD unknownText) (Text.replace resourcePlace resource i.pattern)

end Item

end Reconcile
