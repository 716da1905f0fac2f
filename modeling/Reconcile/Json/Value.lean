import Reconcile.Number.Power
import Reconcile.Number.Shortest

/-!
# JSON values

The data that steps leave for one another and that the cluster interface speaks. Integers are
kept apart from floating-point numbers; they range over all signed and unsigned 64-bit
integers. The fields of an object are distinct and sorted by name.
-/

namespace Reconcile

/-- A JSON value. -/
inductive Json
  | null
  | bool (b : Bool)
  | int (n : Int)
  | float (x : Float)
  | string (s : String)
  | array (items : List Json)
  | object (fields : List (String × Json))
deriving Inhabited

namespace Json

/-- Whether an integer fits into 64 bits, signed or unsigned. -/
def inRange (n : Int) : Bool := -(Number.twoTo 63 : Int) ≤ n && n < Number.twoTo 64

/-- Enters a field into sorted fields, replacing one of the same name. -/
def enter (name : String) (value : Json) : List (String × Json) → List (String × Json)
  | [] => [(name, value)]
  | field :: rest =>
    if name < field.1 then (name, value) :: field :: rest
    else if name = field.1 then (name, value) :: rest
    else field :: enter name value rest

/-- An object of the given fields; of two with one name the later stands. -/
def ofFields (fields : List (String × Json)) : Json :=
  object (fields.foldl (fun sorted f => enter f.1 f.2 sorted) [])

/-- The value of a field of an object. -/
def field? (name : String) : Json → Option Json
  | object fields => (fields.find? fun f => f.1 = name).map (·.2)
  | _ => none

/-- A string or nothing. -/
def ofString? : Option String → Json
  | some s => string s
  | none => null

/-! ## Writing -/

/-- One character inside a string: quotes, backslashes and control characters are escaped. -/
def escaped (c : Char) : List Char :=
  match c with
  | '"' => ['\\', '"']
  | '\\' => ['\\', '\\']
  | '\n' => ['\\', 'n']
  | '\r' => ['\\', 'r']
  | '\t' => ['\\', 't']
  | '\x08' => ['\\', 'b']
  | '\x0c' => ['\\', 'f']
  | c =>
    if c.toNat < 32 then
      ['\\', 'u', '0', '0', Nat.digitChar (c.toNat / 16), Nat.digitChar (c.toNat % 16)]
    else [c]

/-- A string literal. -/
def literal (s : String) : String := String.ofList ('"' :: s.toList.flatMap escaped ++ ['"'])

mutual

/-- The text of a value without blanks. A number that is not finite is written as null. -/
def text : Json → String
  | null => "null"
  | bool b => if b then "true" else "false"
  | int n => toString n
  | float x => (Number.floatText? x).getD "null"
  | string s => literal s
  | array items => "[" ++ String.intercalate "," (texts items) ++ "]"
  | object fields => "\x7b" ++ String.intercalate "," (fieldTexts fields) ++ "\x7d"

/-- The texts of the items of an array. -/
def texts : List Json → List String
  | [] => []
  | item :: rest => text item :: texts rest

/-- The texts of the fields of an object. -/
def fieldTexts : List (String × Json) → List String
  | [] => []
  | (name, value) :: rest => (literal name ++ ":" ++ text value) :: fieldTexts rest

end

end Json

end Reconcile
