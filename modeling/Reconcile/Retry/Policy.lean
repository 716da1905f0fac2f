import Reconcile.Number.Power
import Reconcile.Retry.Seconds

/-!
# Retry policies

A policy says how often something may be retried and how long to wait before each retry. The
same policy shape serves steps that ask to be run again and calls of the cluster interface.

The wait before the n-th retry starts at the initial delay and grows by a constant factor, up
to the ceiling. A step may ask for a longer one. The result is spread by a random draw, so
that many waiters do not come back at the same moment, and capped by the ceiling again.
-/

namespace Reconcile.Retry

/-- How often and after which delays to retry. -/
structure Policy (𝕊 : Type) where
  maxRetries : Nat
  initial : Span
  ceiling : Span
  factor : 𝕊

/-- The policy used when nothing else is configured. -/
def Policy.standard : Policy Float := ⟨5, .ofMillis 200, .ofSeconds 30, 2⟩

namespace Policy

variable {𝕊 : Type} [Seconds 𝕊]

open Seconds

/-- The exponent of the factor for a retry number. Retries are counted from one in 32 bits;
the exponent is read as a signed number of that width. -/
def exponent (retry : Nat) : Int := Int.bmod ((retry - 1 : Nat) : Int) (Number.twoTo 32)

/-- The delay before a retry, without the random spread. There is none if the factor makes it
negative. -/
def backoff (p : Policy 𝕊) (retry : Nat) : Option Span :=
  toSpan? (least (mul (ofSpan p.initial) (power p.factor (exponent retry))) (ofSpan p.ceiling))

/-- The wait before a retry when the step asked for `requested` and the draw is `draw`. -/
def delay (p : Policy 𝕊) (retry : Nat) (requested : Span) (draw : 𝕊) : Option Span :=
  (p.backoff retry).bind fun b =>
    toSpan? (least (mul (ofSpan (requested.max b)) draw) (ofSpan p.ceiling))

end Policy

/-- The text of the failure that a negative delay causes. -/
def negativeDelayText : String := "cannot convert float seconds to Duration: value is negative"

end Reconcile.Retry
