import Reconcile.Number.Power

/-!
# Binary floating point, exactly

A finite double is an integer multiple of a power of two. Reading it that way lets every
conversion below be done in exact integer arithmetic, with one rounding at the end.
-/

namespace Reconcile.Number

/-- The quotient rounded to the nearest integer; a tie goes to the even neighbour. -/
def roundDiv (num den : Nat) : Nat :=
  let q := num / den
  let r := num % den
  if 2 * r < den then q
  else if den < 2 * r then q + 1
  else if q % 2 = 0 then q else q + 1

/-- The rounded quotient of an exact multiple is the multiple. -/
theorem roundDiv_mul (q : Nat) {den : Nat} (h : 0 < den) : roundDiv (q * den) den = q := by
  simp [roundDiv, Nat.mul_div_cancel q h, h]

/-- Rounding moves a quotient by at most half a unit. -/
theorem two_mul_roundDiv_le (num : Nat) {den : Nat} (h : 0 < den) :
    2 * (roundDiv num den * den) ≤ 2 * num + den := by
  have hd : den * (num / den) + num % den = num := Nat.div_add_mod num den
  have hr : num % den < den := Nat.mod_lt num h
  have hc : num / den * den = den * (num / den) := Nat.mul_comm _ _
  have hs : (num / den + 1) * den = num / den * den + den := Nat.succ_mul _ _
  unfold roundDiv
  simp only
  split
  · omega
  · split
    · omega
    · split <;> omega

/-- A finite double: `mantissa * 2 ^ exponent`, negated if `negative`. -/
structure Binary where
  negative : Bool
  mantissa : Nat
  exponent : Int

/-- The exact value of a double, unless it is infinite or not a number. -/
def binary? (x : Float) : Option Binary :=
  let bits := x.toBits.toNat
  let negative := bits / twoTo 63 == 1
  let field : Nat := bits / twoTo 52 % twoTo 11
  let fraction : Nat := bits % twoTo 52
  if field = twoTo 11 - 1 then none
  else if field = 0 then some ⟨negative, fraction, -1074⟩
  else some ⟨negative, twoTo 52 + fraction, (field : Int) - 1075⟩

/-- The magnitude of a finite double times `scale`, rounded to the nearest integer with ties
to even. -/
def Binary.scaled (b : Binary) (scale : Nat) : Nat :=
  if 0 ≤ b.exponent then b.mantissa * twoTo b.exponent.toNat * scale
  else roundDiv (b.mantissa * scale) (twoTo (-b.exponent).toNat)

end Reconcile.Number
