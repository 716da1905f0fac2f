import Reconcile.Number.Power

/-!
# Reading decimals

`readFloat?` reads the text of a floating-point setting and rounds it correctly.
`scale` is the cheaper rule of the interchange format: the significant digits are converted
first and then multiplied or divided by a power of ten, so that the last place of a long
number may differ from the correctly rounded one.
-/

namespace Reconcile.Number

/-- The value of a digit sequence in base ten. -/
def ofDigits (ds : List Char) : Nat := ds.foldl (fun n c => 10 * n + (c.toNat - 48)) 0

/-- Splits off a sign; `true` means negative. -/
def splitSign : List Char → Bool × List Char
  | '-' :: rest => (true, rest)
  | '+' :: rest => (false, rest)
  | cs => (false, cs)

/-- The value of the digits of an exponent. Once it is past all use, further digits do not
count. -/
def exponentOf (ds : List Char) : Nat :=
  ds.foldl (fun n c => if n < twoTo 16 then 10 * n + (c.toNat - 48) else n) 0

/-- The value of a signed exponent. -/
def readExponent? (cs : List Char) : Option Int :=
  let (negative, digits) := splitSign cs
  if digits = [] ∨ !digits.all Char.isDigit then none
  else some (if negative then -(exponentOf digits : Int) else exponentOf digits)

/-- Digits with an optional point and an optional exponent, without a sign. -/
def readUnsigned? (cs : List Char) : Option Float :=
  let whole := cs.takeWhile Char.isDigit
  let rest := cs.dropWhile Char.isDigit
  let (fraction, rest) := match rest with
    | '.' :: r => (r.takeWhile Char.isDigit, r.dropWhile Char.isDigit)
    | r => ([], r)
  let exponent? := match rest with
    | [] => some 0
    | e :: r => if e = 'e' ∨ e = 'E' then readExponent? r else none
  match exponent? with
  | none => none
  | some exponent =>
    if whole = [] ∧ fraction = [] then none
    else
      let power := exponent - fraction.length
      let significant := (whole ++ fraction).dropWhile (· = '0')
      let magnitude := power + significant.length
      if significant = [] then some 0
      else if 400 < magnitude then some (1 / 0)
      else if magnitude < -400 then some 0
      else some (Float.ofScientific (ofDigits significant) (power < 0) power.natAbs)

/-- A floating-point setting: a decimal, an infinity or the text for what is not a number. -/
def readFloat? (s : String) : Option Float :=
  let (negative, cs) := splitSign s.toList
  let magnitude? := match String.ofList (cs.map Char.toLower) with
    | "inf" | "infinity" => some (1 / 0)
    | "nan" => some (0 / 0)
    | _ => readUnsigned? cs
  magnitude?.map fun x => if negative then -x else x

/-- Divides by `10 ^ n` in steps that each stay in range; `fuel` bounds the steps. -/
def scaleDown : (fuel : Nat) → Float → (n : Nat) → Float
  | 0, x, _ => x
  | fuel + 1, x, n =>
    if n ≤ 308 then x / Float.ofScientific 1 false n
    else if x == 0 then x
    else scaleDown fuel (x / 1e308) (n - 308)

/-- The significant digits times a power of ten, or nothing when that is out of range. -/
def scale (significand : Nat) (exponent : Int) : Option Float :=
  let x := Float.ofNat significand
  if exponent < 0 then some (scaleDown 8 x exponent.natAbs)
  else if exponent ≤ 308 then
    let y := x * Float.ofScientific 1 false exponent.natAbs
    if y.isInf then none else some y
  else if significand = 0 then some x else none

end Reconcile.Number
