import Reconcile.CommandLine
import Reconcile.Event.Counters
import Reconcile.Telemetry

/-!
# The program

Reads the command line and the environment and shows with which settings the operator would
run.
-/

namespace Reconcile

/-- The exit status of a refused command line. -/
def usageStatus : UInt32 := 2

/-- What is shown for a refused command line. -/
def CommandLine.Refusal.text : CommandLine.Refusal → String
  | help => "keel: make-right reconciliation for Domain resources"
  | version => "keel 0.1.0"
  | invalidValue => "error: a value is missing or not possible"
  | valueValidation => "error: a value is not a number of the right range"
  | unknownArgument => "error: unexpected argument"
  | argumentConflict => "error: an option is given more than once"
  | tooManyValues => "error: a flag takes no value"

/-- The exit status that goes with a refusal. A text that was asked for is no error. -/
def CommandLine.Refusal.status : CommandLine.Refusal → UInt32
  | help | version => 0
  | _ => usageStatus

/-- The settings in one line each. -/
def Settings.lines (s : Settings) : List String :=
  ["namespaces: " ++ String.intercalate ", " s.namespaces,
    "retries of a step: " ++ toString s.stepMaxRetries,
    "first delay: " ++ (Span.ofMillis s.retryInitialDelay).text,
    "longest delay: " ++ (Span.ofMillis s.retryMaxDelay).text,
    "failure limit: " ++ toString s.failureRetryLimit,
    "logs: " ++ if s.jsonLogs then "json" else "plain"]

end Reconcile

open Reconcile in
/-- Shows the settings, or why there are none. -/
def main (arguments : List String) : IO UInt32 := do
  let values ← CommandLine.Flag.all.mapM fun flag => do
    return (flag.environmentKey, ← IO.getEnv flag.environmentKey)
  let look (key : String) : Option String := (values.find? fun v => v.1 = key).bind (·.2)
  match CommandLine.parse arguments look with
  | .error refusal =>
    IO.println refusal.text
    return refusal.status
  | .ok settings =>
    settings.lines.forM IO.println
    return 0
