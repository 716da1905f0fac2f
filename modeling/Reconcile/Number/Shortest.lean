import Reconcile.Number.Binary64
import Reconcile.Number.Power

/-!
# The shortest decimal that reads back

A double is written with the fewest significant digits that no other double is nearer to,
and among those with the digits closest to it. All comparisons are made between exact
fractions. `floatText` lays the digits out: positional for exponents from -5 to 15, with at
least one digit on either side of the point, and otherwise in scientific form with a signed
exponent.
-/

namespace Reconcile.Number

/-- A positive decimal: `digits * 10 ^ exponent`. -/
structure Decimal where
  digits : Nat
  exponent : Int
deriving DecidableEq, Repr

/-- A non-negative fraction. -/
structure Fraction where
  num : Nat
  den : Nat

namespace Fraction

/-- Exact comparison; both denominators are positive. -/
def le (x y : Fraction) : Bool := x.num * y.den ≤ y.num * x.den

/-- Exact strict comparison; both denominators are positive. -/
def lt (x y : Fraction) : Bool := x.num * y.den < y.num * x.den

/-- The distance between two fractions. -/
def dist (x y : Fraction) : Fraction :=
  ⟨max (x.num * y.den) (y.num * x.den) - min (x.num * y.den) (y.num * x.den), x.den * y.den⟩

end Fraction

/-- The decimal as a fraction. -/
def Decimal.fraction (d : Decimal) : Fraction :=
  if 0 ≤ d.exponent then ⟨d.digits * tenTo d.exponent.toNat, 1⟩
  else ⟨d.digits, tenTo (-d.exponent).toNat⟩

/-- The decimal with the zeros at the end of its digits moved into the exponent; at most
`fuel` of them. -/
def Decimal.trimmed : (fuel : Nat) → Decimal → Decimal
  | 0, d => d
  | fuel + 1, d =>
    if d.digits ≠ 0 ∧ d.digits % 10 = 0 then trimmed fuel ⟨d.digits / 10, d.exponent + 1⟩ else d

/-- The reals that are rounded to one double: those between two fractions, ends included or
not. -/
structure Interval where
  low : Fraction
  high : Fraction
  closed : Bool

/-- Whether a fraction lies in the interval. -/
def Interval.contains (i : Interval) (x : Fraction) : Bool :=
  if i.closed then i.low.le x && x.le i.high else i.low.lt x && x.lt i.high

/-- The magnitude of a double as a fraction. -/
def Binary.fraction (b : Binary) : Fraction :=
  if 0 ≤ b.exponent then ⟨b.mantissa * twoTo b.exponent.toNat, 1⟩
  else ⟨b.mantissa, twoTo (-b.exponent).toNat⟩

/-- The rounding interval of a positive double. Below a power of two the gap is half as wide;
the ends belong to the interval when the mantissa is even. -/
def Binary.interval (b : Binary) : Interval :=
  let narrow := b.mantissa = twoTo 52 ∧ -1074 < b.exponent
  let unit := twoTo b.exponent.toNat
  let x := b.fraction
  ⟨⟨4 * x.num - (if narrow then 1 else 2) * unit, 4 * x.den⟩,
   ⟨4 * x.num + 2 * unit, 4 * x.den⟩, b.mantissa % 2 = 0⟩

/-- The number of decimal digits of a natural number. -/
def digitCount (n : Nat) : Nat := (Nat.toDigits 10 n).length

/-- The least power of ten above a positive fraction, as an exponent. -/
def Fraction.magnitude (x : Fraction) : Int :=
  if x.den ≤ x.num then digitCount (x.num / x.den)
  else
    let guess := digitCount x.den - digitCount x.num
    let least := ([guess - 1, guess].find? fun k => x.den ≤ x.num * tenTo k).getD (guess + 1)
    1 - (least : Int)

/-- The neighbours of a fraction on the grid of multiples of `10 ^ exponent`, nearer first. -/
def Fraction.neighbours (x : Fraction) (exponent : Int) : List Decimal :=
  let below := if 0 ≤ exponent then x.num / (x.den * tenTo exponent.toNat)
    else x.num * tenTo (-exponent).toNat / x.den
  let lower : Decimal := ⟨below, exponent⟩
  let upper : Decimal := ⟨below + 1, exponent⟩
  let a := x.dist lower.fraction
  let b := x.dist upper.fraction
  if a.lt b || (a.le b && below % 2 = 0) then [lower, upper] else [upper, lower]

/-- The first decimal in the interval when the digit count grows from `count`. -/
def shortestFrom (x : Fraction) (i : Interval) (magnitude : Int) :
    (fuel : Nat) → (count : Nat) → Decimal
  | 0, count => ((x.neighbours (magnitude - count)).head?).getD ⟨0, 0⟩
  | fuel + 1, count =>
    match (x.neighbours (magnitude - count)).find? fun d => i.contains d.fraction with
    | some d => d
    | none => shortestFrom x i magnitude fuel (count + 1)

/-- The shortest decimal that reads back as the magnitude of the double. -/
def Binary.shortest (b : Binary) : Decimal :=
  if b.mantissa = 0 then ⟨0, 0⟩
  else
    let x := b.fraction
    (shortestFrom x b.interval x.magnitude 17 1).trimmed 20

/-- The digits of a decimal with a point and, outside the positional range, an exponent. -/
def Decimal.text (d : Decimal) : String :=
  let ds := Nat.toDigits 10 d.digits
  let scale : Int := d.exponent + ds.length - 1
  if -5 ≤ scale ∧ scale ≤ 15 then
    if 0 ≤ d.exponent then
      String.ofList (ds ++ List.replicate d.exponent.toNat '0' ++ ['.', '0'])
    else if 0 ≤ scale then
      String.ofList (ds.take (scale.toNat + 1) ++ '.' :: ds.drop (scale.toNat + 1))
    else
      String.ofList ('0' :: '.' :: List.replicate (-scale - 1).toNat '0' ++ ds)
  else
    let point := if ds.length = 1 then [] else '.' :: ds.drop 1
    String.ofList (ds.take 1 ++ point ++ 'e' :: (if scale < 0 then '-' else '+') ::
      Nat.toDigits 10 scale.natAbs)

/-- The text of a finite double; there is none for infinities and for what is not a number. -/
def floatText? (x : Float) : Option String :=
  (binary? x).map fun b => (if b.negative then "-" else "") ++ b.shortest.text

end Reconcile.Number
