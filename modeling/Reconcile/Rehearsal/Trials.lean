import Reconcile.Cluster.Answer
import Reconcile.Cluster.Writer

/-!
# Rehearsed retries

Retried operations are rehearsed against scripted results: an operation whose tries succeed
or fail as written, and a cluster interface that gives scripted answers. Every random spread
is neutral, and time passes only in waits.
-/

namespace Reconcile.Rehearsal

/-- The surroundings of rehearsed retries. -/
structure Trials (τ : Type) where
  /-- The time in milliseconds. -/
  now : Nat
  /-- What remains of the script. -/
  script : List τ
  /-- The number of tries of an operation. -/
  tries : Nat
  /-- The calls of the cluster interface, latest first. -/
  calls : List Cluster.Call

namespace Trials

variable {τ : Type}

/-- The surroundings at the beginning. -/
def initial (script : List τ) : Trials τ := ⟨0, script, 0, []⟩

/-- Time and chance. -/
def clock : Retry.Clock Float (Trials τ) := ⟨Trials.now, fun s => (1, s)⟩

/-- Lets time pass until a moment. -/
def sleepUntil (deadline : Nat) (s : Trials τ) : Trials τ := { s with now := max s.now deadline }

/-- A bound on the number of steps of a loop with the given policy. -/
def stepLimit (p : Retry.Policy Float) : Nat := 4 * (p.maxRetries + 1)

/-- Runs an operation with retries. -/
def run {ι ε ρ : Type} (p : Retry.Policy Float) (op : Retry.Operation ι ε ρ (Trials τ))
    (s : Trials τ) : Retry.Loop ι ε ρ × Trials τ :=
  Retry.Loop.run clock sleepUntil p op (stepLimit p) (.start op) s

end Trials

/-! ## Delays -/

/-- The delays before a retry for draws that are spread evenly over the permitted range. There
are none if the factor makes them negative. -/
def sampleDelays (p : Retry.Policy Float) (retry : Nat) (requested : Span) (count : Nat) :
    Option (List Span) :=
  (List.range count).mapM fun i =>
    p.delay retry requested (0.5 + (Float.ofNat i + 0.5) / Float.ofNat count)

/-- The delay that all delays are equal to. -/
def constantDelay? : List Span → Option Span
  | [] => none
  | d :: rest => if rest.all (· = d) then some d else none

/-! ## Scripted results -/

/-- An operation whose tries end as scripted; the last result is repeated. -/
def scripted {ε ρ : Type} (fallback : Except ε ρ) :
    Retry.Operation Unit ε ρ (Trials (Except ε ρ)) where
  first := ()
  advance _ s :=
    let s := { s with tries := s.tries + 1 }
    match s.script with
    | [] => (.inr fallback, s)
    | [result] => (.inr result, s)
    | result :: rest => (.inr result, { s with script := rest })

/-! ## Scripted answers -/

/-- A scripted reaction of the cluster interface. -/
inductive Reaction
  | answer (answer : Cluster.Answer)
  | refuse (text : String)
deriving Repr

/-- What a reaction means. -/
def Reaction.read : Reaction → Except ApiFault Cluster.Existing
  | answer a => a.read
  | refuse text => .error (.unreachable text)

/-- The text of a refusal when the script has ended. -/
def scriptEnded : String := "no more replies"

/-- A cluster interface that reacts as scripted. -/
def scriptedApi : Cluster.Api (Trials Reaction) := fun call s =>
  let s := { s with calls := call :: s.calls }
  match s.script with
  | [] => (.error (.unreachable scriptEnded), s)
  | r :: rest => (r.read, { s with script := rest })

/-- Stores an occurrence through a scripted interface. -/
def putThrough (p : Retry.Policy Float) (r : Record) (s : Trials Reaction) :
    Retry.Loop Cluster.Write Fault Unit × Trials Reaction :=
  s.run p (Cluster.write scriptedApi (fun s => s.now) r)

end Reconcile.Rehearsal
