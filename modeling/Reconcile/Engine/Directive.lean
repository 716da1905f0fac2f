import Reconcile.Step.Chain
import Reconcile.Time.Span

/-!
# Directives and outcomes

An action that has succeeded says how its run continues. A run that has not failed ends in one
of three ways.
-/

namespace Reconcile

/-- How a run continues after an action. -/
inductive Directive (α : Type)
  /-- Go on with the rest of the chain. -/
  | proceed
  /-- Run a chain and then go on with the rest. -/
  | insert (chain : Chain α)
  /-- Run a chain instead of the rest. -/
  | branch (chain : Chain α)
  /-- Skip everything that remains. -/
  | terminate
  /-- Run the same step again after a delay. -/
  | retryAfter (delay : Span)

/-- A description of a directive for logs. -/
def Directive.text {α : Type} [Named α] : Directive α → String
  | proceed => "Continue"
  | insert c => "Insert(" ++ Text.quoted c.name ++ ")"
  | branch c => "Branch(" ++ Text.quoted c.name ++ ")"
  | terminate => "Terminate"
  | retryAfter d => "RetryAfter(" ++ d.text ++ ")"

/-- How a run ended that did not fail. -/
inductive Outcome
  /-- Every step has run. -/
  | completed
  /-- An action asked to skip the rest. -/
  | terminated
  /-- The run was cancelled. -/
  | cancelled
deriving DecidableEq, Repr

/-- The outcome as a label. -/
def Outcome.label : Outcome → String
  | completed => "completed"
  | terminated => "terminated"
  | cancelled => "cancelled"

end Reconcile
