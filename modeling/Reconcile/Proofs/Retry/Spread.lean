import Reconcile.Proofs.Retry.Delays

/-!
# Spread delays

The wait before a retry is the longer of the backoff and the request, stretched by a random draw
(`IsSpread`) and cut off at the ceiling.  The draw takes away half of it at most, so what is left
before rounding is at least half, or the ceiling (`Policy.le_stretched_of_isSpread`).  A request
of twice the ceiling leaves the ceiling whatever is drawn (`Policy.delay_of_long`).
-/

namespace Reconcile.Retry

/-- A number that can be drawn to spread a delay: from a half on, and below one and a half. -/
def IsSpread (draw : Rat) : Prop := 1 / 2 ≤ draw ∧ draw < 3 / 2

namespace IsSpread

variable {draw : Rat} (h : IsSpread draw)

include h

theorem nonneg : 0 ≤ draw := le_trans (by decide +kernel) h.1

/-- A spread span is at least half as long. -/
theorem half_le (base : Span) :
    (Seconds.ofSpan base : Rat) / 2 ≤ Seconds.ofSpan base * draw := by
  rw [div_eq_mul_one_div]
  exact mul_le_mul_of_nonneg_left h.1 (Policy.ofSpan_nonneg base)

end IsSpread

namespace Policy

variable {p : Policy Rat} {retry : Nat} {requested : Span} {draw : Rat}

/-- A spread span is at least half as long, unless the ceiling is lower. -/
theorem le_stretched_of_isSpread (hdraw : IsSpread draw) (requested backoff : Span) :
    min (Seconds.ofSpan p.ceiling) (max (Seconds.ofSpan requested) (Seconds.ofSpan backoff) / 2) ≤
      p.stretched (requested.max backoff) draw := by
  rw [stretched_eq, ← ofSpan_max]
  exact le_min ((min_le_right _ _).trans (hdraw.half_le _)) (min_le_left _ _)

/-- A span that is twice as long is at least as long when it is halved. -/
theorem ofSpan_le_half {s t : Span} (h : 2 * s.nanos ≤ t.nanos) :
    (Seconds.ofSpan s : Rat) ≤ Seconds.ofSpan t / 2 := by
  have htwice : (s.nanos : Rat) * 2 ≤ t.nanos := by
    rw [mul_comm]
    exact_mod_cast h
  rw [le_div_iff₀ two_pos]
  calc (Seconds.ofSpan s : Rat) * 2 = s.nanos * 2 / 1000000000 := div_mul_eq_mul_div ..
    _ ≤ Seconds.ofSpan t := div_le_div_of_nonneg_right htwice (by decide)

/-- A longer request does not make a wait shorter, if nothing else is drawn. -/
theorem delay_mono (hfactor : 0 ≤ p.factor) (hdraw : 0 ≤ draw) (retry : Nat) {longer : Span}
    (h : requested ≤ longer) :
    ∃ d d', p.delay retry requested draw = some d ∧ p.delay retry longer draw = some d' ∧
      d ≤ d' := by
  obtain ⟨backoff, hbackoff⟩ := Option.isSome_iff_exists.1 (backoff_isSome hfactor retry)
  have hbase : requested.max backoff ≤ longer.max backoff :=
    Nat.max_le.2 ⟨Nat.le_trans h (Nat.le_max_left _ _), Nat.le_max_right _ _⟩
  rw [delay_eq_toSpan? hbackoff, delay_eq_toSpan? hbackoff, p.toSpan?_stretched _ hdraw,
    p.toSpan?_stretched _ hdraw]
  exact ⟨_, _, rfl, rfl, Span.nearest_mono (stretched_mono_span hdraw hbase)⟩

/-- A request of twice the ceiling is cut off at the ceiling, whatever is drawn. -/
theorem delay_of_long (hfactor : 0 ≤ p.factor) (hdraw : IsSpread draw) (retry : Nat)
    (hlong : 2 * p.ceiling.nanos ≤ requested.nanos) :
    p.delay retry requested draw = some p.ceiling := by
  obtain ⟨backoff, hbackoff⟩ := Option.isSome_iff_exists.1 (backoff_isSome hfactor retry)
  have hnanos : 2 * p.ceiling.nanos ≤ (requested.max backoff).nanos :=
    hlong.trans (Nat.le_max_left _ _)
  have hreaches : (Seconds.ofSpan p.ceiling : Rat) ≤
      Seconds.ofSpan (requested.max backoff) * draw :=
    (ofSpan_le_half hnanos).trans (hdraw.half_le _)
  rw [delay_eq_toSpan? hbackoff, p.toSpan?_stretched _ hdraw.nonneg, stretched_eq,
    min_eq_right hreaches, Span.nearest_ofSpan]

end Policy

end Reconcile.Retry
