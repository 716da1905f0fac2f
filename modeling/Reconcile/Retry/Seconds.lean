import Reconcile.Number.Binary64
import Reconcile.Time.Span

/-!
# Arithmetic in seconds

Delays grow by multiplication, so they are computed in seconds by an arithmetic that has
powers and is rounded to nanoseconds at the end. The operator computes in doubles; the exact
rationals say what it would compute without rounding on the way.
-/

namespace Reconcile.Retry

/-- Numbers of seconds that delays can be computed with. -/
class Seconds (𝕊 : Type) where
  /-- The length of a span. -/
  ofSpan : Span → 𝕊
  /-- The product of two numbers. -/
  mul : 𝕊 → 𝕊 → 𝕊
  /-- A power with a whole exponent, which may be negative. -/
  power : 𝕊 → Int → 𝕊
  /-- The smaller of two numbers; the second if the first is undefined. -/
  least : 𝕊 → 𝕊 → 𝕊
  /-- The span of that length, to the nearest nanosecond with ties to even. There is none for
  a negative number. -/
  toSpan? : 𝕊 → Option Span

/-! ## Doubles -/

/-- The span in seconds. The whole seconds and the rest are converted separately. -/
def floatOfSpan (s : Span) : Float :=
  Float.ofNat s.seconds + Float.ofNat s.subsecond / 1000000000

/-- A power by repeated squaring; `fuel` bounds the number of binary digits of `n`. -/
def squarings : (fuel : Nat) → (base acc : Float) → (n : Nat) → Float
  | 0, _, acc, _ => acc
  | fuel + 1, base, acc, n =>
    let acc := if n % 2 = 1 then acc * base else acc
    if n / 2 = 0 then acc else squarings fuel (base * base) acc (n / 2)

/-- A power of a double; a negative exponent gives the reciprocal. -/
def floatPower (x : Float) (n : Int) : Float :=
  let p := squarings 64 x 1 n.natAbs
  if n < 0 then 1 / p else p

/-- The smaller of two doubles; the second if the first is not a number. -/
def floatLeast (x y : Float) : Float := if x.isNaN then y else if y < x then y else x

/-- The nearest span to a number of seconds that is finite and not negative. -/
def spanOfFloat? (x : Float) : Option Span :=
  if x < 0 then none else (Number.binary? x).map fun b => ⟨b.scaled 1000000000⟩

instance : Seconds Float where
  ofSpan := floatOfSpan
  mul x y := x * y
  power := floatPower
  least := floatLeast
  toSpan? := spanOfFloat?

/-! ## Rationals -/

/-- A power of a rational; a negative exponent gives the reciprocal. -/
def rationalPower (q : Rat) (n : Int) : Rat :=
  if n < 0 then (q ^ n.natAbs)⁻¹ else q ^ n.natAbs

/-- The nearest span to a number of seconds that is not negative. -/
def spanOfRational? (q : Rat) : Option Span :=
  if q < 0 then none
  else
    let nanos := q * 1000000000
    some ⟨Number.roundDiv nanos.num.toNat nanos.den⟩

instance : Seconds Rat where
  ofSpan s := (s.nanos : Rat) / 1000000000
  mul p q := p * q
  power := rationalPower
  least p q := if q < p then q else p
  toSpan? := spanOfRational?

end Reconcile.Retry
