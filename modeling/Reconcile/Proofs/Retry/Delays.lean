import Mathlib.Algebra.Order.Field.Basic
import Reconcile.Proofs.Retry.Rounding
import Reconcile.Retry.Policy

/-!
# Delays in exact arithmetic

A delay is a span that is stretched by a number, cut off at the ceiling of the policy and rounded
(`Policy.stretched`).  The backoff stretches the initial delay by a power of the factor, and the
random draw stretches the backoff, or the request if that is longer.

In exact arithmetic nothing is negative as long as the factor and the draw are not, so every delay
can be computed then (`Policy.delay_isSome`), for any retry number and any requested length.  A
delay never exceeds the ceiling (`Policy.delay_le_ceiling`): the ceiling is a span, so that the
last rounding leads no further.
-/

namespace Reconcile.Retry

theorem rationalPower_eq_zpow (q : Rat) (n : Int) : rationalPower q n = q ^ n := by
  cases n with
  | ofNat n => exact (zpow_natCast q n).symm
  | negSucc n =>
    rw [zpow_negSucc]
    exact if_pos (Int.negSucc_lt_zero n)

namespace Policy

/-! ## The seconds of spans -/

/-- The seconds of a span are not negative. -/
theorem ofSpan_nonneg (s : Span) : 0 ≤ (Seconds.ofSpan s : Rat) :=
  div_nonneg (Nat.cast_nonneg _) (by decide)

theorem ofSpan_mono {s t : Span} (h : s ≤ t) : (Seconds.ofSpan s : Rat) ≤ Seconds.ofSpan t :=
  div_le_div_of_nonneg_right (Nat.cast_le.2 h) (by decide)

theorem ofSpan_min (s t : Span) :
    (Seconds.ofSpan (s.min t) : Rat) = min (Seconds.ofSpan s) (Seconds.ofSpan t) := by
  have hcast : ((s.min t).nanos : Rat) = min (s.nanos : Rat) t.nanos := Nat.cast_min ..
  calc (Seconds.ofSpan (s.min t) : Rat) = min (s.nanos : Rat) t.nanos / 1000000000 :=
        congrArg (· / 1000000000) hcast
    _ = min (Seconds.ofSpan s) (Seconds.ofSpan t) := (min_div_div_right (by decide) _ _).symm

theorem ofSpan_max (s t : Span) :
    (Seconds.ofSpan (s.max t) : Rat) = max (Seconds.ofSpan s) (Seconds.ofSpan t) := by
  have hcast : ((s.max t).nanos : Rat) = max (s.nanos : Rat) t.nanos := Nat.cast_max ..
  calc (Seconds.ofSpan (s.max t) : Rat) = max (s.nanos : Rat) t.nanos / 1000000000 :=
        congrArg (· / 1000000000) hcast
    _ = max (Seconds.ofSpan s) (Seconds.ofSpan t) := (max_div_div_right (by decide) _ _).symm

/-! ## Stretched spans -/

/-- A span in seconds, stretched by a number and cut off at the ceiling. -/
def stretched {𝕊 : Type} [Seconds 𝕊] (p : Policy 𝕊) (base : Span) (x : 𝕊) : 𝕊 :=
  Seconds.least (Seconds.mul (Seconds.ofSpan base) x) (Seconds.ofSpan p.ceiling)

variable {p : Policy Rat} {base : Span} {x : Rat} {retry : Nat}

theorem stretched_eq (p : Policy Rat) (base : Span) (x : Rat) :
    p.stretched base x = min (Seconds.ofSpan base * x) (Seconds.ofSpan p.ceiling) := by
  show (if _ < _ then _ else _) = _
  split_ifs with hlt
  · exact (min_eq_right hlt.le).symm
  · exact (min_eq_left (not_lt.1 hlt)).symm

theorem stretched_nonneg (p : Policy Rat) (base : Span) (hx : 0 ≤ x) : 0 ≤ p.stretched base x := by
  rw [stretched_eq]
  exact le_min (mul_nonneg (ofSpan_nonneg base) hx) (ofSpan_nonneg p.ceiling)

theorem stretched_mono {y : Rat} (base : Span) (h : x ≤ y) :
    p.stretched base x ≤ p.stretched base y := by
  rw [stretched_eq, stretched_eq]
  exact min_le_min_right _ (mul_le_mul_of_nonneg_left h (ofSpan_nonneg base))

theorem stretched_mono_span {base' : Span} (hx : 0 ≤ x) (h : base ≤ base') :
    p.stretched base x ≤ p.stretched base' x := by
  rw [stretched_eq, stretched_eq]
  exact min_le_min_right _ (mul_le_mul_of_nonneg_right (ofSpan_mono h) hx)

theorem toSpan?_stretched (p : Policy Rat) (base : Span) (hx : 0 ≤ x) :
    Seconds.toSpan? (p.stretched base x) = some (.nearest (p.stretched base x)) :=
  spanOfRational?_eq_some_iff.2 ⟨p.stretched_nonneg base hx, rfl⟩

/-- What is cut off at the ceiling is not rounded beyond it. -/
theorem le_ceiling_of_toSpan? {s : Span} (h : Seconds.toSpan? (p.stretched base x) = some s) :
    s ≤ p.ceiling := by
  obtain ⟨-, rfl⟩ := spanOfRational?_eq_some_iff.1 h
  have hle : p.stretched base x ≤ Seconds.ofSpan p.ceiling := by
    rw [stretched_eq]
    exact min_le_right _ _
  have hrounded := Span.nearest_mono hle
  rwa [Span.nearest_ofSpan] at hrounded

/-! ## Delays -/

theorem backoff_eq (hfactor : 0 ≤ p.factor) (retry : Nat) :
    p.backoff retry = some (.nearest (p.stretched p.initial (p.factor ^ exponent retry))) := by
  have hpower : 0 ≤ p.factor ^ exponent retry := zpow_nonneg hfactor _
  rw [← rationalPower_eq_zpow] at hpower ⊢
  exact p.toSpan?_stretched p.initial hpower

theorem backoff_isSome (hfactor : 0 ≤ p.factor) (retry : Nat) : (p.backoff retry).isSome := by
  rw [backoff_eq hfactor]
  rfl

/-- A delay stretches the backoff, or the request if that is longer. -/
theorem delay_eq_toSpan? {backoff : Span} (hbackoff : p.backoff retry = some backoff)
    (requested : Span) (draw : Rat) :
    p.delay retry requested draw =
      Seconds.toSpan? (p.stretched (requested.max backoff) draw) := by
  rw [delay, hbackoff]
  rfl

/-- With a factor and a draw that are not negative every delay can be computed. -/
theorem delay_isSome (hfactor : 0 ≤ p.factor) (retry : Nat) (requested : Span) {draw : Rat}
    (hdraw : 0 ≤ draw) : (p.delay retry requested draw).isSome := by
  obtain ⟨backoff, hbackoff⟩ := Option.isSome_iff_exists.1 (backoff_isSome hfactor retry)
  rw [delay_eq_toSpan? hbackoff, p.toSpan?_stretched _ hdraw]
  rfl

/-- No wait is longer than the ceiling, whatever the factor, the request and the draw are. -/
theorem delay_le_ceiling {requested d : Span} {draw : Rat}
    (h : p.delay retry requested draw = some d) : d ≤ p.ceiling := by
  obtain ⟨backoff, hbackoff, -⟩ := Option.bind_eq_some_iff.1 h
  rw [delay_eq_toSpan? hbackoff] at h
  exact le_ceiling_of_toSpan? h

end Policy

end Reconcile.Retry
