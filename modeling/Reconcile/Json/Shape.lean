import Reconcile.Json.Value
import Reconcile.Number.Power
import Reconcile.Text.Quoted

/-!
# Reading values as a type

A stored value is read back as one of a few shapes. The reader either gives the value in the
normal form of the shape or says what it met and what it expected.
-/

namespace Reconcile

/-- Why a value does not have the expected shape. -/
inductive Mismatch
  /-- A value of another kind. -/
  | invalidType (met expected : String)
  /-- An integer outside the range of the shape. -/
  | invalidValue (met expected : String)
  /-- A sequence of the wrong length. -/
  | invalidLength (length : Nat) (expected : String)
  /-- An object without a required field. -/
  | missingField (name : String)
  /-- An object that has a field twice. -/
  | duplicateField (name : String)
deriving DecidableEq, Repr

/-- The text of a mismatch. -/
def Mismatch.message : Mismatch → String
  | invalidType met expected => "invalid type: " ++ met ++ ", expected " ++ expected
  | invalidValue met expected => "invalid value: " ++ met ++ ", expected " ++ expected
  | invalidLength length expected =>
    "invalid length " ++ toString length ++ ", expected " ++ expected
  | missingField name => "missing field `" ++ name ++ "`"
  | duplicateField name => "duplicate field `" ++ name ++ "`"

namespace Json

/-- How a value is named when it was not expected. -/
def description : Json → String
  | null => "null"
  | bool b => "boolean `" ++ (if b then "true" else "false") ++ "`"
  | int n => "integer `" ++ toString n ++ "`"
  | float x => "floating point `" ++ (Number.floatText? x).getD "null" ++ "`"
  | string s => "string " ++ Text.quoted s
  | array _ => "sequence"
  | object _ => "map"

/-- The complaint that a value is of the wrong kind. -/
def unexpected (v : Json) (expected : String) : Mismatch :=
  .invalidType v.description expected

/-- A string. -/
def readString : Json → Except Mismatch String
  | string s => .ok s
  | v => .error (v.unexpected "a string")

/-- An integer of a range with the given name. -/
def readInt (name : String) (low high : Int) : Json → Except Mismatch Int
  | int n => if low ≤ n ∧ n ≤ high then .ok n
      else .error (.invalidValue (int n).description name)
  | v => .error (v.unexpected name)

/-- A signed integer with the given number of bits besides its sign. -/
def readSigned (name : String) (bits : Nat) : Json → Except Mismatch Int :=
  readInt name (-(Number.twoTo bits : Int)) ((Number.twoTo bits : Int) - 1)

/-- An unsigned integer with the given number of bits. -/
def readUnsigned (name : String) (bits : Nat) : Json → Except Mismatch Int :=
  readInt name 0 ((Number.twoTo bits : Int) - 1)

/-- The elements of a sequence. -/
def readSequence : Json → Except Mismatch (List Json)
  | array items => .ok items
  | v => .error (v.unexpected "a sequence")

end Json

/-- The shapes that a stored value can be read as. -/
inductive Shape
  | any
  | string
  | bool
  | u8
  | i32
  | i64
  | u64
  | f64
  | strings
  | ints
  | intMap
  | optionalString
  | pair
  | unit
deriving DecidableEq, Repr

namespace Shape

open Json

/-- A signed integer of 64 bits. -/
def readLong : Json → Except Mismatch Int := readSigned "i64" 63

/-- A text together with a number. A third element is only noticed after the first two. -/
def readPair : List Json → Except Mismatch Json
  | [] => .error (.invalidLength 0 "a tuple of size 2")
  | [s] => do
    let _ ← readString s
    .error (.invalidLength 1 "a tuple of size 2")
  | s :: n :: rest => do
    let s ← readString s
    let n ← readUnsigned "u32" 32 n
    if rest.isEmpty then .ok (.array [.string s, .int n])
    else .error (.invalidLength (rest.length + 2) "fewer elements in array")

/-- Reads a value as a shape and gives it in normal form. -/
def read : Shape → Json → Except Mismatch Json
  | any, v => .ok v
  | string, v => .string <$> readString v
  | bool, .bool b => .ok (.bool b)
  | bool, v => .error (v.unexpected "a boolean")
  | u8, v => .int <$> readUnsigned "u8" 8 v
  | i32, v => .int <$> readSigned "i32" 31 v
  | i64, v => .int <$> readLong v
  | u64, v => .int <$> readUnsigned "u64" 64 v
  | f64, .float x => .ok (.float x)
  | f64, .int n => .ok (.float (Float.ofInt n))
  | f64, v => .error (v.unexpected "f64")
  | strings, v => do
    let items ← readSequence v
    .array <$> items.mapM fun i => .string <$> readString i
  | ints, v => do
    let items ← readSequence v
    .array <$> items.mapM fun i => .int <$> readLong i
  | intMap, .object fields =>
    .object <$> fields.mapM fun f => do
      let n ← readLong f.2
      return (f.1, .int n)
  | intMap, v => .error (v.unexpected "a map")
  | optionalString, .null => .ok .null
  | optionalString, v => .string <$> readString v
  | pair, .array items => readPair items
  | pair, v => .error (v.unexpected "a tuple of size 2")
  | unit, .null => .ok .null
  | unit, v => .error (v.unexpected "unit")

end Shape

end Reconcile
