import Reconcile.Event.Record
import Reconcile.Identity
import Reconcile.Packet.Basic

/-!
# From a request to a record

A request is turned into a record in three stages that stand in a fixed order. First it must
be clear what the event points at, then a correlation rule may decline it in view of the
markers of the attempt, and last the operator must know who it is. So a request without a
target is an error even when a rule would decline it, and a declined request never complains
about the identity.
-/

namespace Reconcile

/-! ## What an event points at -/

/-- What an event points at. -/
structure Target where
  resource : String
  ns : String
  object : ObjectRef
  domainUid : Option String
deriving DecidableEq, Repr

/-- The target of an event about a domain. -/
def Domain.target (d : Domain) : Target :=
  ⟨d.uid, d.ns, ⟨d.apiVersion, d.kind, d.name, d.ns⟩, some d.uid⟩

/-- The target of an event about a domain that is known only by its uid. -/
def Target.ofUid (uid ns : String) : Target :=
  ⟨uid, ns, ⟨domainApiVersion, domainKind, uid, ns⟩, some uid⟩

/-- The target of an event about a namespace. -/
def Target.ofNamespace (name ns : String) : Target :=
  ⟨name, ns, ⟨"v1", "Namespace", name, ns⟩, none⟩

namespace Request

/-- What the requested event points at. The domain of an attempt wins over the overrides of
the request; without one the overrides name the domain. -/
def target (r : Request) (domain : Option Domain) : Except Fault Target :=
  match r.item.scope with
  | .domain =>
    match domain with
    | some d => .ok d.target
    | none =>
      match r.resourceName, r.ns with
      | none, _ => .error (.invalid (r.item.reason ++ " event has no domain to report on"))
      | some uid, none =>
        .error (.invalid (r.item.reason ++ " event for " ++ uid ++ " has no namespace"))
      | some uid, some ns => .ok (.ofUid uid ns)
  | .watch =>
    match r.ns with
    | none => .error (.invalid (r.item.reason ++ " event requires a namespace"))
    | some ns => .ok (.ofNamespace (r.resourceName.getD ns) ns)

end Request

/-! ## Correlation rules -/

/-- The rules that decline a request. -/
inductive Rule
  | alreadyStarted
  | notStarted
  | alreadyCompleted
  | notFailed
  | alreadyAborted
  | sameFailure
deriving DecidableEq, Repr

/-- The name of a rule in the logs. -/
def Rule.name : Rule → String
  | alreadyStarted => "already-started"
  | notStarted => "not-started"
  | alreadyCompleted => "already-completed"
  | notFailed => "not-failed"
  | alreadyAborted => "already-aborted"
  | sameFailure => "same-failure"

/-- What the rules say about a request. -/
inductive Decision
  /-- Emit the event, with this text in its message. -/
  | emit (text : Option String)
  /-- A rule declines. -/
  | suppress (rule : Rule)
deriving DecidableEq, Repr

namespace Request

/-- The category of a failure reported without one. -/
def unknownReason : String := "Unknown"

/-- The failure that a FAILED request reports. -/
def failureMarker (r : Request) : FailureMarker :=
  ⟨r.reason.getD unknownReason, r.message.getD Item.unknownText⟩

/-- The marker that the event leaves when it is emitted. -/
def marker? (r : Request) : Option Markers.Marker :=
  match r.item with
  | .processingStarting => some .starting
  | .processingRetrying => some .retrying
  | .processingCompleted => some .completed
  | .processingAborted => some .aborted
  | .processingFailed => some (.failure r.failureMarker)
  | _ => none

/-- The correlation rule of the kind. An ABORTED event without a text of its own repeats the
text of the failure on record. -/
def decision (r : Request) (m : Markers) : Decision :=
  match r.item with
  | .processingStarting => if m.starting then .suppress .alreadyStarted else .emit r.message
  | .processingCompleted =>
    if !m.starting then .suppress .notStarted
    else if m.completed then .suppress .alreadyCompleted
    else .emit r.message
  | .processingAborted =>
    match m.failure with
    | none => .suppress .notFailed
    | some f =>
      if m.aborted then .suppress .alreadyAborted else .emit (some (r.message.getD f.message))
  | .processingFailed =>
    if m.failure = some r.failureMarker then .suppress .sameFailure else .emit r.message
  | _ => .emit r.message

/-- The markers after the event has been emitted. -/
def marked (r : Request) (m : Markers) : Markers :=
  (match r.marker? with
    | some k => m.record k
    | none => m).pushHistory r.item.reason

/-! ## Records -/

/-- What becomes of a request. -/
inductive Prepared
  | record (record : Record)
  | suppressed (rule : Rule)
deriving DecidableEq, Repr

/-- The record, unless a rule has declined it. -/
def Prepared.record? : Prepared → Option Record
  | record r => some r
  | suppressed _ => none

/-- The labels of an event; the names stand in ascending order. -/
def labels (domainUid : Option String) : List (String × String) :=
  (createdByOperatorLabel, "true") :: domainUid.toList.map fun uid => (domainUidLabel, uid)

/-- The record of a request with a known target and text. -/
def toRecord (r : Request) (t : Target) (text : Option String) (i : ResolvedIdentity) : Record :=
  ⟨r.item, t.ns, t.object, r.item.message t.resource text, labels t.domainUid, operatorComponent,
    i.pod, i.ns⟩

/-- The record of a request in the context of an attempt, unless a rule declines it. -/
def prepare (r : Request) (p : Packet) (i : Identity) : Except Fault Prepared := do
  let target ← r.target p.domain
  match r.decision p.markers with
  | .suppress rule => return .suppressed rule
  | .emit text =>
    let identity ← i.resolve
    return .record (r.toRecord target text identity)

/-- The record that an emission would hand over. Building it emits nothing. -/
def build (r : Request) (p : Packet) (i : Identity) : Except Fault (Option Record) :=
  (r.prepare p i).map Prepared.record?

end Request

end Reconcile
