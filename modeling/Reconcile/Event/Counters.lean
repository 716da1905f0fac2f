import Reconcile.Data.Table
import Reconcile.Event.Item

/-!
# Counters

The operator counts attempts by result, retries of steps, and events by what became of them.
A counter that was never raised does not exist.
-/

namespace Reconcile

/-- How an attempt ended, as counted. -/
inductive AttemptResult
  | completed
  | terminated
  | cancelled
  | failed
deriving DecidableEq, Repr

/-- The result as a label. -/
def AttemptResult.label : AttemptResult → String
  | completed => "completed"
  | terminated => "terminated"
  | cancelled => "cancelled"
  | failed => "failed"

/-- What is counted. -/
inductive Counter
  | attempts (result : AttemptResult)
  | durations (result : AttemptResult)
  | stepRetries
  | emitted (item : Item)
  | suppressed (item : Item)
  | storeFailed (item : Item)
deriving DecidableEq, Repr

/-- The name of a counter with its label. -/
def Counter.name : Counter → String
  | attempts r => "keel_attempts_total\x7bresult=" ++ r.label ++ "\x7d"
  | durations r => "keel_attempt_duration_seconds\x7bresult=" ++ r.label ++ "\x7d"
  | stepRetries => "keel_step_retries_total"
  | emitted i => "keel_events_emitted_total\x7breason=" ++ i.reason ++ "\x7d"
  | suppressed i => "keel_events_suppressed_total\x7breason=" ++ i.reason ++ "\x7d"
  | storeFailed i => "keel_events_store_failed_total\x7breason=" ++ i.reason ++ "\x7d"

/-- The counters raised so far. -/
abbrev Counters := Table Counter Nat

namespace Counters

/-- The value of a counter. -/
def value (c : Counters) (k : Counter) : Nat := c.getD k 0

/-- Raises a counter by one. -/
def raise (c : Counters) (k : Counter) : Counters := c.modify k 0 (· + 1)

theorem value_raise (c : Counters) (k x : Counter) :
    (c.raise k).value x = if x = k then c.value k + 1 else c.value x :=
  Table.getD_modify c k x 0 (· + 1)

/-- Counts an attempt that has ended, and its duration. -/
def raiseAttempt (c : Counters) (r : AttemptResult) : Counters :=
  (c.raise (.attempts r)).raise (.durations r)

end Counters

end Reconcile
