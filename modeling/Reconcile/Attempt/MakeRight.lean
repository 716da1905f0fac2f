import Reconcile.Attempt.Work

/-!
# Make-right operations

A make-right operation brings the presence of a domain in line with its resource. Its chain
reports the start, runs a body and reports the completion; if an earlier attempt has failed,
it reports a retry first. Instead of the body and the completion an operation may report one
given event.

A failed attempt is followed by a report: the failure and, when no further attempt is going
to be made, the abortion. The steps of a report are critical.
-/

namespace Reconcile

/-- A make-right operation on a domain. -/
structure MakeRight (β : Type) where
  domain : Domain
  /-- The event to report instead of running a body. -/
  override : Option Request
  /-- The body to run instead of that of the reconciler. -/
  body : Option (Steps β)

namespace MakeRight

variable {β : Type}

/-- The operation that runs the body of the reconciler. -/
def of (domain : Domain) : MakeRight β := ⟨domain, none, none⟩

/-- The operation that only reports the deletion of a domain. -/
def ofDeletion (domain : Domain) : MakeRight β := ⟨domain, some (.of .resourceDeleted), none⟩

/-- The report of a retry, which leads only when there have been failures. -/
def retrying (failures : Nat) : List (Steps β) :=
  if 0 < failures then [Steps.event (.of .processingRetrying)] else []

/-- The plan of an operation after a number of failures in a row. -/
def plan (m : MakeRight β) (reconciler : Domain → Steps β) (failures : Nat) : Steps β :=
  match m.override with
  | some q => .chain [Steps.event (.of .processingStarting), Steps.event q]
  | none =>
    .chain (retrying failures ++
      [Steps.event (.of .processingStarting), m.body.getD (reconciler m.domain),
        Steps.event (.of .processingCompleted)])

end MakeRight

/-- The report of a failure and, if `abort` is set, of the abortion; `next` runs afterwards. -/
def failurePlan {β : Type} (reason message : String) (abort : Bool)
    (next : Option (Steps β)) : Steps β :=
  let failed := ((Request.of .processingFailed).withReason reason).withMessage message
  let aborted := if abort then [Steps.event (.of .processingAborted)] else []
  let report : Steps β := .critical (.chain (Steps.event failed :: aborted))
  match next with
  | some next => report.andThen next
  | none => report

end Reconcile
