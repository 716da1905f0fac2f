/-!
# Logging

How the operator logs when nothing else is configured. Logging is set up once for the whole
process; a second set-up is refused.
-/

namespace Reconcile.Telemetry

/-- What is logged when no filter is given. -/
def standardFilter : String := "info,keel=debug,kube=info,tower=warn,hyper=warn"

/-- How the operator logs. -/
structure Config where
  /-- The name written at the start. -/
  service : String
  /-- Whether lines are JSON. -/
  json : Bool
deriving DecidableEq, Repr

/-- How it logs when nothing is configured. -/
def Config.standard : Config := ⟨"keel", true⟩

/-- Why logging was not set up. -/
inductive Refusal
  /-- It had been set up before. -/
  | alreadySet
deriving DecidableEq, Repr

/-- The text of a refusal. -/
def Refusal.message : Refusal → String
  | alreadySet =>
    "failed to initialize tracing subscriber: " ++
      "a global default trace dispatcher has already been set"

/-- Sets logging up in a process in which it has been set up, or has not. -/
def setUp (current : Option Config) (c : Config) : Except Refusal Config :=
  match current with
  | none => .ok c
  | some _ => .error .alreadySet

end Reconcile.Telemetry
