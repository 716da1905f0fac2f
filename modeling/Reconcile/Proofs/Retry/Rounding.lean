import Mathlib.Algebra.Order.Field.Rat
import Reconcile.Retry.Seconds

/-!
# Rounding to spans

A number of seconds becomes the nearest span, with ties to the even nanosecond
(`Span.nearest`).  A longer time is never rounded to a shorter span (`Span.nearest_mono`), and the
length of a span is rounded to the span itself (`Span.nearest_ofSpan`).  So a span that bounds a
number of seconds bounds what the number is rounded to, and nothing else has to know how ties are
broken.
-/

namespace Reconcile

namespace Number

/-- A quotient is rounded to `n` or less if it lies below the middle between `n` and its
successor, or at the middle if `n` is even. -/
theorem roundDiv_le_iff {num den n : Nat} (h : 0 < den) :
    roundDiv num den ≤ n ↔
      2 * num < (2 * n + 1) * den ∨ 2 * num = (2 * n + 1) * den ∧ n % 2 = 0 := by
  have hnum : den * (num / den) + num % den = num := Nat.div_add_mod num den
  have hrest : num % den < den := Nat.mod_lt num h
  have hmiddle : (2 * n + 1) * den = 2 * (den * n) + den := by
    rw [Nat.succ_mul, Nat.mul_assoc, Nat.mul_comm n]
  unfold roundDiv
  simp only
  rcases Nat.lt_trichotomy (num / den) n with hbelow | rfl | habove
  · have hle : den * (num / den + 1) ≤ den * n := Nat.mul_le_mul_left den hbelow
    rw [Nat.mul_succ] at hle
    refine iff_of_true ?_ (.inl (by omega))
    split_ifs <;> omega
  · split_ifs <;> omega
  · have hle : den * (n + 1) ≤ den * (num / den) := Nat.mul_le_mul_left den habove
    rw [Nat.mul_succ] at hle
    refine iff_of_false ?_ (by omega)
    split_ifs <;> omega

/-- A greater quotient is not rounded to less. -/
theorem roundDiv_mono {a b d e : Nat} (hd : 0 < d) (he : 0 < e) (h : a * e ≤ b * d) :
    roundDiv a d ≤ roundDiv b e := by
  rw [roundDiv_le_iff hd]
  have hgreater := (@roundDiv_le_iff b e _ he).1 (Nat.le_refl _)
  generalize roundDiv b e = n at hgreater
  have hle : 2 * a * e ≤ 2 * b * d := by
    rw [Nat.mul_assoc, Nat.mul_assoc]
    exact Nat.mul_le_mul_left 2 h
  rcases hgreater with hlt | ⟨heq, heven⟩
  · have hcross : 2 * a * e < (2 * n + 1) * d * e := by
      calc 2 * a * e ≤ 2 * b * d := hle
        _ < (2 * n + 1) * e * d := Nat.mul_lt_mul_of_pos_right hlt hd
        _ = (2 * n + 1) * d * e := Nat.mul_right_comm ..
    exact .inl (Nat.lt_of_mul_lt_mul_right hcross)
  · have hcross : 2 * a * e ≤ (2 * n + 1) * d * e := by
      calc 2 * a * e ≤ 2 * b * d := hle
        _ = (2 * n + 1) * e * d := by rw [heq]
        _ = (2 * n + 1) * d * e := Nat.mul_right_comm ..
    rcases Nat.lt_or_eq_of_le (Nat.le_of_mul_le_mul_right hcross he) with hlt | hmiddle
    · exact .inl hlt
    · exact .inr ⟨hmiddle, heven⟩

end Number

namespace Span

/-- The span nearest to a number of seconds.  A negative number comes to no time at all. -/
def nearest (q : Rat) : Span :=
  ⟨Number.roundDiv (q * 1000000000).num.toNat (q * 1000000000).den⟩

theorem nearest_mono {p q : Rat} (h : p ≤ q) : nearest p ≤ nearest q := by
  have hscale : (0 : Rat) ≤ 1000000000 := by decide
  have hscaled : p * 1000000000 ≤ q * 1000000000 := mul_le_mul_of_nonneg_right h hscale
  rw [le_def]
  refine Number.roundDiv_mono (Rat.den_pos _) (Rat.den_pos _) ?_
  rcases le_total p 0 with hneg | hpos
  · have hnum : (p * 1000000000).num ≤ 0 :=
      Rat.num_nonpos.2 (mul_nonpos_of_nonpos_of_nonneg hneg hscale)
    rw [Int.toNat_of_nonpos hnum, Nat.zero_mul]
    exact Nat.zero_le _
  · have hnum : 0 ≤ (p * 1000000000).num := Rat.num_nonneg.2 (mul_nonneg hpos hscale)
    have hnum' : 0 ≤ (q * 1000000000).num := Rat.num_nonneg.2 (mul_nonneg (hpos.trans h) hscale)
    rw [← Int.ofNat_le, Int.natCast_mul, Int.natCast_mul, Int.toNat_of_nonneg hnum,
      Int.toNat_of_nonneg hnum']
    exact (Rat.le_iff _ _).1 hscaled

/-- The length of a span is rounded to the span. -/
theorem nearest_ofSpan (s : Span) : nearest (Retry.Seconds.ofSpan s) = s := by
  have hscaled : (Retry.Seconds.ofSpan s : Rat) * 1000000000 = (s.nanos : Rat) :=
    div_mul_cancel₀ (s.nanos : Rat) (by decide)
  have hrounded : Number.roundDiv (s.nanos * 1) 1 = s.nanos :=
    Number.roundDiv_mul s.nanos Nat.one_pos
  rw [Nat.mul_one] at hrounded
  rw [nearest, hscaled, Rat.num_natCast, Rat.den_natCast, Int.toNat_natCast, hrounded]

end Span

/-- There is a span for a number of seconds unless it is negative. -/
theorem Retry.spanOfRational?_eq_some_iff {q : Rat} {s : Span} :
    Retry.spanOfRational? q = some s ↔ 0 ≤ q ∧ Span.nearest q = s := by
  unfold spanOfRational?
  split_ifs with hneg
  · exact iff_of_false nofun fun h => not_lt.2 h.1 hneg
  · rw [Option.some_inj]
    exact (and_iff_right (not_lt.1 hneg)).symm

end Reconcile
