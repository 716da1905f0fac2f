import Reconcile.Retry.Policy

/-!
# Retrying an operation

The operation is tried once and then, as long as it fails, up to the permitted number of
times more, with a wait before each retry. The outcome is the first success or the last
failure.

A run is a machine that is advanced one step at a time, since an operation may itself take
several calls and other clients may act between any two of them. `Loop.run` drives it to the
end.
-/

namespace Reconcile.Retry

/-- Time and chance, as the surroundings `σ` provide them. -/
structure Clock (𝕊 σ : Type) where
  /-- The current time in milliseconds. -/
  now : σ → Nat
  /-- The next random spread. -/
  draw : σ → 𝕊 × σ

/-- An operation that advances call by call until it succeeds with a `ρ` or fails with an
`ε`. -/
structure Operation (ι ε ρ σ : Type) where
  /-- How a try begins. -/
  first : ι
  /-- One call. -/
  advance : ι → σ → (ι ⊕ Except ε ρ) × σ

/-- Where a run of an operation with retries stands. -/
inductive Stage (ι ε ρ : Type)
  /-- Within a try. -/
  | trying (inner : ι)
  /-- Between two tries. -/
  | waiting (deadline : Nat)
  /-- At the end. -/
  | ended (result : Except ε ρ)
  /-- No delay could be computed. -/
  | crashed

/-- A run of an operation with retries. -/
structure Loop (ι ε ρ : Type) where
  /-- The number of retries begun so far. -/
  retries : Nat
  /-- The waits so far, latest first. -/
  waits : List Span
  stage : Stage ι ε ρ

namespace Loop

variable {𝕊 ι ε ρ σ : Type} [Seconds 𝕊]

/-- A run that has not called anything yet. -/
def start (op : Operation ι ε ρ σ) : Loop ι ε ρ := ⟨0, [], .trying op.first⟩

/-- The result, once there is one. -/
def result? (l : Loop ι ε ρ) : Option (Except ε ρ) :=
  match l.stage with
  | .ended r => some r
  | _ => none

/-- The number of tries that have ended. -/
def triesEnded (l : Loop ι ε ρ) : Nat :=
  match l.stage with
  | .trying _ => l.retries
  | .waiting _ => l.retries
  | .ended _ => l.retries + 1
  | .crashed => l.retries + 1

/-- What follows a failed try: the end, or a wait. -/
def failed (clock : Clock 𝕊 σ) (p : Policy 𝕊) (l : Loop ι ε ρ) (e : ε) (s : σ) :
    Loop ι ε ρ × σ :=
  if p.maxRetries ≤ l.retries then ({ l with stage := .ended (.error e) }, s)
  else
    let (draw, s) := clock.draw s
    match p.delay (l.retries + 1) .zero draw with
    | none => ({ l with stage := .crashed }, s)
    | some d => (⟨l.retries + 1, d :: l.waits, .waiting (clock.now s + d.millisUp)⟩, s)

/-- One call, or the end of a wait that is over. -/
def step (clock : Clock 𝕊 σ) (p : Policy 𝕊) (op : Operation ι ε ρ σ) (l : Loop ι ε ρ) (s : σ) :
    Loop ι ε ρ × σ :=
  match l.stage with
  | .trying inner =>
    match op.advance inner s with
    | (.inl inner, s) => ({ l with stage := .trying inner }, s)
    | (.inr (.ok a), s) => ({ l with stage := .ended (.ok a) }, s)
    | (.inr (.error e), s) => l.failed clock p e s
  | .waiting deadline =>
    if deadline ≤ clock.now s then ({ l with stage := .trying op.first }, s) else (l, s)
  | .ended _ => (l, s)
  | .crashed => (l, s)

/-- Drives a run for at most `fuel` steps; `sleep` lets time pass until a deadline. -/
def run (clock : Clock 𝕊 σ) (sleep : Nat → σ → σ) (p : Policy 𝕊) (op : Operation ι ε ρ σ) :
    (fuel : Nat) → Loop ι ε ρ → σ → Loop ι ε ρ × σ
  | 0, l, s => (l, s)
  | fuel + 1, l, s =>
    match l.stage with
    | .ended _ => (l, s)
    | .crashed => (l, s)
    | .waiting deadline =>
      let (l, s) := step clock p op l (sleep deadline s)
      run clock sleep p op fuel l s
    | .trying _ =>
      let (l, s) := step clock p op l s
      run clock sleep p op fuel l s

end Loop

end Reconcile.Retry
