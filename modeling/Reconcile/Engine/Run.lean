import Reconcile.Engine.Directive
import Reconcile.Fault
import Reconcile.Retry.Loop

/-!
# Runs

The engine runs a chain strictly in order. What an action says decides where the run goes
next. A chain that an action inserts is run first, and the rest of the current chain is kept
among the pending ones, to be resumed afterwards. A step may ask to be run again after a
delay; every time it is reached anew it has the full budget of retries.

A cancelled run stops in front of the next step that is not critical, or in the wait before a
retry of such a step. An action that has started always finishes.

A run is a machine that is advanced one step at a time by `Run.step`, so that several runs can
take turns over the same surroundings. Looking at the cancellation and starting the action is
a single step of the machine. The journal of a run lists what it has done.
-/

namespace Reconcile

/-- How far an action has come. -/
inductive Progress (α κ : Type)
  /-- It has paused, and `activity` is what remains to be done. -/
  | paused (activity : κ)
  /-- It has ended. -/
  | done (result : Except Fault (Directive α))

/-- What actions `β` do to the surroundings `σ`, with activities `κ` while they are under way.
The chains that they name consist of actions `α`. -/
structure Behaviour (β α κ σ : Type) where
  /-- Starts an action. -/
  start : β → σ → Progress α κ × σ
  /-- Goes on with an action that has paused. -/
  resume : κ → σ → Progress α κ × σ

/-- What a run needs from its surroundings. -/
structure Host (𝕊 σ : Type) extends Retry.Clock 𝕊 σ where
  /-- Whether the run has been cancelled. -/
  isCancelled : σ → Bool
  /-- Counts a retry. -/
  countRetry : σ → σ
  /-- Whether the end of a wait is noticed before a cancellation at the same moment. -/
  timerFirst : σ → Bool

/-- Something that a run has done. -/
inductive Entry (α : Type)
  /-- It has started the action of a step. -/
  | invoked (node : Node α)
  /-- It has begun a wait before a retry of a step. -/
  | waited (node : Node α) (delay : Span)

/-- Where a run stands. -/
inductive Phase (α κ : Type)
  /-- In front of the rest of the current chain. -/
  | ready (rest : List (Node α))
  /-- In the action of a step that is followed by `more`. -/
  | acting (node : Node α) (more : List (Node α)) (activity : κ)
  /-- In the wait before a retry of a step that is followed by `more`. -/
  | waiting (node : Node α) (more : List (Node α)) (deadline : Nat)
  /-- At the end. -/
  | ended (result : Except Fault Outcome)
  /-- No delay could be computed. -/
  | crashed

/-- A run of a chain. -/
structure Run (α κ : Type) where
  /-- The retries of the current step since it was reached. -/
  retries : Nat
  /-- What remains of the chains that are to be resumed, innermost first. -/
  pending : List (List (Node α))
  phase : Phase α κ
  /-- What the run has done, latest first. -/
  journal : List (Entry α)

namespace Run

variable {𝕊 α κ σ : Type} [Retry.Seconds 𝕊] [Named α]

/-- A run that has not done anything yet. -/
def start (c : Chain α) : Run α κ := ⟨0, [], .ready c.nodes, []⟩

/-- The result, once there is one. -/
def result? (r : Run α κ) : Option (Except Fault Outcome) :=
  match r.phase with
  | .ended result => some result
  | _ => none

/-- The run at its end. -/
def finish (r : Run α κ) (result : Except Fault Outcome) : Run α κ :=
  { r with phase := .ended result }

/-- The run in front of other steps, with the full budget of retries for the first of them. -/
def goTo (r : Run α κ) (rest : List (Node α)) : Run α κ :=
  { r with retries := 0, phase := .ready rest }

/-- Keeps steps to be resumed later, unless there are none. -/
def keep (r : Run α κ) (more : List (Node α)) : Run α κ :=
  if more.isEmpty then r else { r with pending := more :: r.pending }

/-- A step asks to be run again: a wait begins, or the budget is exhausted. -/
def retry (host : Host 𝕊 σ) (policy : Retry.Policy 𝕊) (r : Run α κ) (node : Node α)
    (more : List (Node α)) (requested : Span) (s : σ) : Run α κ × σ :=
  if policy.maxRetries ≤ r.retries then
    (r.finish (.error (.retriesExhausted node.name r.retries)), s)
  else
    let (draw, s) := host.draw (host.countRetry s)
    match policy.delay (r.retries + 1) requested draw with
    | none => ({ r with phase := .crashed }, s)
    | some d =>
      ({ r with
          retries := r.retries + 1
          phase := .waiting node more (host.now s + d.millisUp)
          journal := .waited node d :: r.journal }, s)

/-- What follows the end of an action. -/
def follow (host : Host 𝕊 σ) (policy : Retry.Policy 𝕊) (r : Run α κ) (node : Node α)
    (more : List (Node α)) (result : Except Fault (Directive α)) (s : σ) : Run α κ × σ :=
  match result with
  | .error fault => (r.finish (.error fault), s)
  | .ok .proceed => (r.goTo more, s)
  | .ok (.insert c) => ((r.keep more).goTo c.nodes, s)
  | .ok (.branch c) => (r.goTo c.nodes, s)
  | .ok .terminate => (r.finish (.ok .terminated), s)
  | .ok (.retryAfter requested) => r.retry host policy node more requested s

/-- What follows the start or the resumption of an action. -/
def progressed (host : Host 𝕊 σ) (policy : Retry.Policy 𝕊) (r : Run α κ) (node : Node α)
    (more : List (Node α)) : Progress α κ × σ → Run α κ × σ
  | (.paused activity, s) => ({ r with phase := .acting node more activity }, s)
  | (.done result, s) => r.follow host policy node more result s

/-- Whether the run stops in front of a step, or in the wait before its retry. -/
def isStopped (host : Host 𝕊 σ) (node : Node α) (s : σ) : Bool :=
  !node.critical && host.isCancelled s

/-- Advances a run by one step. A run that waits stays as it is until the wait is over. -/
def step (host : Host 𝕊 σ) (policy : Retry.Policy 𝕊) (behaviour : Behaviour α α κ σ)
    (r : Run α κ) (s : σ) : Run α κ × σ :=
  match r.phase with
  | .ready [] =>
    match r.pending with
    | [] => (r.finish (.ok .completed), s)
    | rest :: pending => ({ r with pending := pending, phase := .ready rest }, s)
  | .ready (node :: more) =>
    if isStopped host node s then (r.finish (.ok .cancelled), s)
    else
      match node.action with
      | none => ({ r with phase := .ready [] }, s)
      | some action =>
        progressed host policy { r with journal := .invoked node :: r.journal } node more
          (behaviour.start action s)
  | .acting node more activity => r.progressed host policy node more (behaviour.resume activity s)
  | .waiting node more deadline =>
    let elapsed : Bool := deadline ≤ host.now s
    if isStopped host node s && !(elapsed && host.timerFirst s) then
      (r.finish (.ok .cancelled), s)
    else if elapsed then ({ r with phase := .ready (node :: more) }, s)
    else (r, s)
  | .ended _ => (r, s)
  | .crashed => (r, s)

/-- Drives a run alone for at most `fuel` steps; `sleep` lets time pass until a deadline. -/
def drive (host : Host 𝕊 σ) (sleep : Nat → σ → σ) (policy : Retry.Policy 𝕊)
    (behaviour : Behaviour α α κ σ) : (fuel : Nat) → Run α κ → σ → Run α κ × σ
  | 0, r, s => (r, s)
  | fuel + 1, r, s =>
    match r.phase with
    | .ended _ => (r, s)
    | .crashed => (r, s)
    | .waiting _ _ deadline =>
      let (r, s) := step host policy behaviour r (sleep deadline s)
      drive host sleep policy behaviour fuel r s
    | .ready _ | .acting .. =>
      let (r, s) := step host policy behaviour r s
      drive host sleep policy behaviour fuel r s

end Run

end Reconcile
