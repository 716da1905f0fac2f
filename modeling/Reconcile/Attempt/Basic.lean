import Reconcile.Attempt.MakeRight

/-!
# Attempts

An attempt executes a make-right operation. It registers itself, which cancels an older
attempt on the same domain, and runs the chain of the operation. Success resets the count of
failures of the domain. A failure is counted and reported before it is returned, unless the
operator's own configuration is to blame, since then no event could be emitted. The attempt is
aborted when the failure is permanent or when the limit of failures in a row is reached.

Like a run, an attempt is a machine that is advanced one step at a time.
-/

namespace Reconcile

/-- What the attempts of one kind of domain have in common. -/
structure Processor (𝕊 β : Type) where
  /-- The policy for steps that ask to be run again. -/
  policy : Retry.Policy 𝕊
  /-- The number of failures in a row after which processing is aborted. -/
  failureLimit : Nat
  /-- The number of the registry. -/
  registry : Nat
  /-- The body of the default chain. -/
  reconciler : Domain → Steps β

/-- The failure limit used when nothing else is configured. -/
def standardFailureLimit : Nat := 5

/-- Where an attempt stands. -/
inductive AttemptStage (β κ : Type)
  /-- It has not begun. -/
  | prepared
  /-- It runs its chain. -/
  | running (guard : Guard) (packet : Packet) (run : Run (Act β) (Activity κ))
  /-- It reports the failure that its chain has ended with. -/
  | reporting (guard : Guard) (packet : Packet) (fault : Fault)
      (run : Run (Act β) (Activity κ))
  /-- It has ended. -/
  | ended (packet : Packet) (result : Except Fault Outcome)
  /-- No delay could be computed. -/
  | crashed

/-- An attempt at a make-right operation. -/
structure Attempt (β κ : Type) where
  operation : MakeRight β
  stage : AttemptStage β κ

namespace Outcome

/-- The outcome as the result of an attempt. -/
def attemptResult : Outcome → AttemptResult
  | completed => .completed
  | terminated => .terminated
  | cancelled => .cancelled

end Outcome

/-- The result of an attempt as it is counted. -/
def AttemptResult.of : Except Fault Outcome → AttemptResult
  | .ok outcome => outcome.attemptResult
  | .error _ => .failed

namespace Processor

variable {𝕊 β κ ε : Type}

/-- Whether a fault is the end of processing, given the number of failures in a row. -/
def aborts (p : Processor 𝕊 β) (fault : Fault) (failures : Nat) : Bool :=
  !fault.retryable || p.failureLimit ≤ failures

/-- The report of a fault. -/
def report (p : Processor 𝕊 β) (fault : Fault) (failures : Nat) : Steps β :=
  failurePlan fault.reason fault.reportText (p.aborts fault failures) none

/-- The surroundings of a run that the token of a guard cancels. -/
def host (p : Processor 𝕊 β) (g : Guard) : Host 𝕊 (Packet × World 𝕊 ε) :=
  World.host fun w => (w.registry p.registry).isCancelled g.token

/-- Cancels the attempt in flight of a domain and says whether there was one. -/
def cancel (p : Processor 𝕊 β) (uid : String) (w : World 𝕊 ε) : Bool × World 𝕊 ε :=
  let (found, r) := (w.registry p.registry).cancel uid
  (found, w.setRegistry p.registry r)

/-- What an attempt releases at its end. -/
def release (p : Processor 𝕊 β) (g : Guard) (w : World 𝕊 ε) : World 𝕊 ε :=
  w.setRegistry p.registry ((w.registry p.registry).release g)

end Processor

namespace Attempt

variable {𝕊 β κ ε : Type} [Retry.Seconds 𝕊] [Named β]

/-- An attempt that has not begun. -/
def prepare (m : MakeRight β) : Attempt β κ := ⟨m, .prepared⟩

/-- The result, once there is one. -/
def result? (a : Attempt β κ) : Option (Except Fault Outcome) :=
  match a.stage with
  | .ended _ result => some result
  | _ => none

/-- The guard of an attempt that is under way. -/
def guard? (a : Attempt β κ) : Option Guard :=
  match a.stage with
  | .running g .. => some g
  | .reporting g .. => some g
  | _ => none

/-- Registers the attempt and builds its chain, in view of the failures so far. -/
def register (p : Processor 𝕊 β) (a : Attempt β κ) (w : World 𝕊 ε) :
    Attempt β κ × World 𝕊 ε :=
  let domain := a.operation.domain
  let (g, r) := (w.registry p.registry).begin domain.uid w.nextAttempt
  let plan := a.operation.plan p.reconciler (r.failureCount domain.uid)
  ({ a with stage := .running g (.forDomain domain) (.start plan.build) },
    { w.setRegistry p.registry r with nextAttempt := w.nextAttempt + 1 })

/-- What follows the end of the chain. -/
def conclude (p : Processor 𝕊 β) (a : Attempt β κ) (g : Guard) (packet : Packet)
    (result : Except Fault Outcome) (w : World 𝕊 ε) : Attempt β κ × World 𝕊 ε :=
  let w := { w with counters := w.counters.raiseAttempt (.of result) }
  let ended : Attempt β κ := { a with stage := .ended packet result }
  match result with
  | .ok .cancelled => (ended, p.release g w)
  | .ok _ =>
    (ended,
      p.release g (w.setRegistry p.registry ((w.registry p.registry).resetFailures g.uid)))
  | .error fault =>
    if fault.isConfiguration then (ended, p.release g w)
    else
      let (failures, r) := (w.registry p.registry).recordFailure g.uid
      ({ a with stage := .reporting g packet fault (.start (p.report fault failures).build) },
        w.setRegistry p.registry r)

/-- Advances an attempt by one step. -/
def step (p : Processor 𝕊 β) (custom : Behaviour β (Act β) κ (Packet × World 𝕊 ε))
    (a : Attempt β κ) (w : World 𝕊 ε) : Attempt β κ × World 𝕊 ε :=
  match a.stage with
  | .prepared => a.register p w
  | .running g packet run =>
    match run.phase with
    | .ended result => a.conclude p g packet result w
    | .crashed => ({ a with stage := .crashed }, p.release g w)
    | _ =>
      let (run, packet, w) := run.step (p.host g) p.policy (Work.behaviour custom) (packet, w)
      ({ a with stage := .running g packet run }, w)
  | .reporting g packet fault run =>
    match run.phase with
    | .ended _ => ({ a with stage := .ended packet (.error fault) }, p.release g w)
    | .crashed => ({ a with stage := .crashed }, p.release g w)
    | _ =>
      let (run, packet, w) := run.step (p.host g) p.policy (Work.behaviour custom) (packet, w)
      ({ a with stage := .reporting g packet fault run }, w)
  | .ended .. => (a, w)
  | .crashed => (a, w)

/-- Gives an attempt up from outside. Its guard is released. -/
def abandon (p : Processor 𝕊 β) (a : Attempt β κ) (w : World 𝕊 ε) : World 𝕊 ε :=
  match a.guard? with
  | some g => p.release g w
  | none => w

end Attempt

/-- The report that a namespace is watched, or is no longer. -/
def watchPlan {β : Type} (item : Item) (ns : String) : Steps β :=
  Steps.event ((Request.of item).withNamespace ns)

end Reconcile
