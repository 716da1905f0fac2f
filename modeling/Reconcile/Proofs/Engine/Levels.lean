import Reconcile.Engine.Run

/-!
# Chains as nested levels

A run keeps its place in a list of pending chains (`Run.step`).  This file says what a chain
means without such a list, by recursion on its levels.

`Behaviour.Returns` is the outcome of one action, pauses included.  `Run.Visit` is the visit of
one step: its action, and again its action after every wait that it asks for, as long as the
budget of retries lasts.  `Run.Level` is a whole level: its steps in order, where an inserted
chain is a level of its own inside the visit of the step that inserts it, and a branch takes
over the rest of the level it is taken in and nothing else.

Every relation carries the entries it adds to the journal, oldest first.  None of them knows of
a cancellation.
-/

namespace Reconcile

variable {𝕊 α κ σ : Type}

/-- What an action comes to once it is no longer paused. -/
inductive Behaviour.Returns (behaviour : Behaviour α α κ σ) :
    Progress α κ × σ → Except Fault (Directive α) → σ → Prop
  /-- It has ended. -/
  | done {result : Except Fault (Directive α)} {s : σ} :
      Returns behaviour (.done result, s) result s
  /-- It goes on after a pause. -/
  | paused {activity : κ} {s s' : σ} {result : Except Fault (Directive α)} :
      Returns behaviour (behaviour.resume activity s) result s' →
      Returns behaviour (.paused activity, s) result s'

namespace Run

/-- Whether a result asks for the same step again. -/
def AsksForRetry : Except Fault (Directive α) → Prop
  | .ok (.retryAfter _) => True
  | _ => False

theorem exists_of_asksForRetry {result : Except Fault (Directive α)} (h : AsksForRetry result) :
    ∃ requested, result = .ok (.retryAfter requested) := by
  match result, h with
  | .ok (.retryAfter requested), _ => exact ⟨requested, rfl⟩

variable (clock : Retry.Clock 𝕊 σ) (countRetry : σ → σ)

/-- The surroundings in which a wait begins: the retry has been counted and its random spread
drawn. -/
def drawn (s : σ) : σ := (clock.draw (countRetry s)).2

/-- The surroundings after that wait. -/
def rested (sleep : Nat → σ → σ) (delay : Span) (s : σ) : σ :=
  sleep (clock.now (drawn clock countRetry s) + delay.millisUp) (drawn clock countRetry s)

variable [Retry.Seconds 𝕊] [Named α]
variable (sleep : Nat → σ → σ) (policy : Retry.Policy 𝕊) (behaviour : Behaviour α α κ σ)

/-- The visit of a step with an action, `retries` of which are already used up.  The visit
ends with a result that does not ask for a retry. -/
inductive Visit (node : Node α) (action : α) :
    Nat → σ → List (Entry α) → Except Fault (Directive α) → σ → Prop
  /-- The action does not ask for a retry. -/
  | settled {retries : Nat} {s s' : σ} {result : Except Fault (Directive α)} :
      behaviour.Returns (behaviour.start action s) result s' → ¬ AsksForRetry result →
      Visit node action retries s [.invoked node] result s'
  /-- The action asks for a retry once too often. -/
  | exhausted {retries : Nat} {s s' : σ} {requested : Span} :
      behaviour.Returns (behaviour.start action s) (.ok (.retryAfter requested)) s' →
      policy.maxRetries ≤ retries →
      Visit node action retries s [.invoked node]
        (.error (.retriesExhausted node.name retries)) s'
  /-- The action asks for a retry, and the step is visited again after a wait. -/
  | retried {retries : Nat} {s s₁ s' : σ} {requested delay : Span} {trace : List (Entry α)}
      {result : Except Fault (Directive α)} :
      behaviour.Returns (behaviour.start action s) (.ok (.retryAfter requested)) s₁ →
      retries < policy.maxRetries →
      policy.delay (retries + 1) requested (clock.draw (countRetry s₁)).1 = some delay →
      Visit node action (retries + 1) (rested clock countRetry sleep delay s₁) trace result s' →
      Visit node action retries s (.invoked node :: .waited node delay :: trace) result s'

variable {clock countRetry sleep policy behaviour} in
theorem Visit.not_asksForRetry {node : Node α} {action : α} {retries : Nat} {s s' : σ}
    {trace : List (Entry α)} {result : Except Fault (Directive α)}
    (h : Visit clock countRetry sleep policy behaviour node action retries s trace result s') :
    ¬ AsksForRetry result := by
  induction h with
  | settled _ hask => exact hask
  | exhausted => exact id
  | retried _ _ _ _ ih => exact ih

/-- A level of a run.  The result `completed` ends this level only; any other result ends all
levels around it as well. -/
inductive Level : List (Node α) → σ → List (Entry α) → Except Fault Outcome → σ → Prop
  /-- Nothing is left. -/
  | empty {s : σ} : Level [] s [] (.ok .completed) s
  /-- A terminal ends its own level, whatever follows it there. -/
  | terminal {node : Node α} {more : List (Node α)} {s : σ} :
      node.action = none → Level (node :: more) s [] (.ok .completed) s
  /-- The rest of the level follows. -/
  | proceed {node : Node α} {more : List (Node α)} {action : α} {s s₁ s₂ : σ}
      {trace trace₁ : List (Entry α)} {result : Except Fault Outcome} :
      node.action = some action →
      Visit clock countRetry sleep policy behaviour node action 0 s trace (.ok .proceed) s₁ →
      Level more s₁ trace₁ result s₂ →
      Level (node :: more) s (trace ++ trace₁) result s₂
  /-- An inserted chain completes, and the rest of the level follows. -/
  | insert {node : Node α} {more : List (Node α)} {action : α} {c : Chain α} {s s₁ s₂ s₃ : σ}
      {trace trace₁ trace₂ : List (Entry α)} {result : Except Fault Outcome} :
      node.action = some action →
      Visit clock countRetry sleep policy behaviour node action 0 s trace (.ok (.insert c)) s₁ →
      Level c.nodes s₁ trace₁ (.ok .completed) s₂ →
      Level more s₂ trace₂ result s₃ →
      Level (node :: more) s (trace ++ (trace₁ ++ trace₂)) result s₃
  /-- An inserted chain ends all levels. -/
  | insertLast {node : Node α} {more : List (Node α)} {action : α} {c : Chain α} {s s₁ s₂ : σ}
      {trace trace₁ : List (Entry α)} {result : Except Fault Outcome} :
      node.action = some action →
      Visit clock countRetry sleep policy behaviour node action 0 s trace (.ok (.insert c)) s₁ →
      Level c.nodes s₁ trace₁ result s₂ → result ≠ .ok .completed →
      Level (node :: more) s (trace ++ trace₁) result s₂
  /-- A branch runs instead of the rest of the level. -/
  | branch {node : Node α} {more : List (Node α)} {action : α} {c : Chain α} {s s₁ s₂ : σ}
      {trace trace₁ : List (Entry α)} {result : Except Fault Outcome} :
      node.action = some action →
      Visit clock countRetry sleep policy behaviour node action 0 s trace (.ok (.branch c)) s₁ →
      Level c.nodes s₁ trace₁ result s₂ →
      Level (node :: more) s (trace ++ trace₁) result s₂
  /-- All levels end without a fault. -/
  | terminate {node : Node α} {more : List (Node α)} {action : α} {s s₁ : σ}
      {trace : List (Entry α)} :
      node.action = some action →
      Visit clock countRetry sleep policy behaviour node action 0 s trace (.ok .terminate) s₁ →
      Level (node :: more) s trace (.ok .terminated) s₁
  /-- All levels end with a fault. -/
  | fault {node : Node α} {more : List (Node α)} {action : α} {fault : Fault} {s s₁ : σ}
      {trace : List (Entry α)} :
      node.action = some action →
      Visit clock countRetry sleep policy behaviour node action 0 s trace (.error fault) s₁ →
      Level (node :: more) s trace (.error fault) s₁

end Run

end Reconcile
