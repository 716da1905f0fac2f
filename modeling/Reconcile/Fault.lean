import Reconcile.Text.Quoted

/-!
# Faults

Everything that can go wrong in an attempt, with the fields needed to report it as an event.
A fault has a short category, which becomes the reason of a failure report, a text, and it
is either worth another attempt or not.
-/

namespace Reconcile

/-- What the cluster interface says about a refused request. -/
structure ApiStatus where
  status : String
  message : String
  reason : String
  code : Nat
deriving DecidableEq, Repr

/-- Why a call of the cluster interface failed. -/
inductive ApiFault
  /-- The interface answered that it refuses the request. -/
  | refused (answer : ApiStatus)
  /-- The interface could not be reached. -/
  | unreachable (text : String)
  /-- The interface accepted the request, but its answer could not be understood. -/
  | unreadable
  /-- The names of the object cannot stand in the address of a request. -/
  | unaddressable
deriving DecidableEq, Repr

/-- The text of a failed call. -/
def ApiFault.message : ApiFault → String
  | refused s =>
    "ApiError: " ++ s.message ++ ": " ++ s.reason ++ " (ErrorResponse \x7b status: " ++
      Text.quoted s.status ++ ", message: " ++ Text.quoted s.message ++ ", reason: " ++
      Text.quoted s.reason ++ ", code: " ++ toString s.code ++ " \x7d)"
  | unreachable text => "ServiceError: " ++ text
  | unreadable => "unreadable answer"
  | unaddressable => "invalid address"

/-- Whether the interface says that the object does not exist. -/
def ApiFault.isNotFound : ApiFault → Bool
  | refused s => s.reason == "NotFound"
  | _ => false

/-- Why an attempt, a step or an emission failed. -/
inductive Fault
  /-- A call of the cluster interface failed. -/
  | cluster (cause : ApiFault)
  /-- A setting of the operator itself is missing. -/
  | missingSetting (key : String)
  /-- The input of a step or an emission makes no sense. -/
  | invalid (message : String)
  /-- An action failed. -/
  | step (name message : String) (retryable : Bool)
  /-- A step asked for a retry once too often. -/
  | retriesExhausted (step : String) (retries : Nat)
  /-- A packet value could not be written or read. -/
  | unserializable (message : String)
  /-- The operator's own machinery failed. -/
  | internal (context message : String)
deriving DecidableEq, Repr

namespace Fault

/-- The text of a fault. -/
def message : Fault → String
  | cluster cause => "kubernetes error: " ++ cause.message
  | missingSetting key => "configuration missing: " ++ key ++ " is not set"
  | invalid message => "validation error: " ++ message
  | step name message _ => "step " ++ name ++ " failed: " ++ message
  | retriesExhausted name retries =>
    "attempt failed: step " ++ name ++ " still requested a retry after " ++ toString retries ++
      " retries"
  | unserializable message => "serialization error: " ++ message
  | internal context message => "internal error [" ++ context ++ "]: " ++ message

/-- The category of a fault, used as the reason of a failure report. -/
def reason : Fault → String
  | cluster _ => "Kubernetes"
  | missingSetting _ => "ConfigurationMissing"
  | invalid _ => "Validation"
  | step .. => "StepFailed"
  | retriesExhausted .. => "RetriesExhausted"
  | unserializable _ => "Serialization"
  | internal .. => "Internal"

/-- Whether a later attempt could succeed. -/
def retryable : Fault → Bool
  | cluster _ | retriesExhausted .. | internal .. => true
  | step _ _ retryable => retryable
  | missingSetting _ | invalid _ | unserializable _ => false

/-- Whether the operator's own configuration is to blame. Such a fault cannot be reported as
an event, since every event needs that configuration. -/
def isConfiguration : Fault → Bool
  | missingSetting _ => true
  | _ => false

/-- The text embedded in a failure report: what the action said, or else the whole text. -/
def reportText : Fault → String
  | step _ message _ => message
  | fault => fault.message

end Fault

end Reconcile
