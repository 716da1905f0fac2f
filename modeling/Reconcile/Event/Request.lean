import Reconcile.Event.Item

/-!
# Event requests

A request asks for an event of some kind. It may carry the free text of the message, the
category of a failure, and overrides for what the event points at.
-/

namespace Reconcile

/-- A requested event. -/
structure Request where
  item : Item
  message : Option String
  reason : Option String
  ns : Option String
  resourceName : Option String
deriving DecidableEq, Repr

namespace Request

/-- A request without a text or overrides. -/
def of (item : Item) : Request := ⟨item, none, none, none, none⟩

/-- The request with the given text. -/
def withMessage (r : Request) (text : String) : Request := { r with message := some text }

/-- The request with the given failure category. -/
def withReason (r : Request) (reason : String) : Request := { r with reason := some reason }

/-- The request with the given namespace. -/
def withNamespace (r : Request) (ns : String) : Request := { r with ns := some ns }

/-- The request with the given name for what the event points at. -/
def withResourceName (r : Request) (name : String) : Request :=
  { r with resourceName := some name }

/-- The name of the step that emits the requested event. -/
def stepName (r : Request) : String := "event-" ++ r.item.reason

end Request

end Reconcile
