import Reconcile.Packet.Basic

/-!
# Values for packets

Steps leave typed values in a packet. Most have a JSON form; a map whose keys are no text and
an integer that 64 bits do not hold have none.
-/

namespace Reconcile

/-- A value that a step leaves. -/
inductive Value
  /-- A value that is JSON already. -/
  | json (v : Json)
  /-- An integer of any size. -/
  | integer (n : Int)
  /-- A floating-point number. -/
  | float (x : Float)
  /-- A map whose key is a list. -/
  | mapByList
  /-- A map with one integer key. -/
  | mapByInteger (key : Int) (text : String)
  /-- A domain, or nothing. -/
  | domain (d : Option Domain)

namespace Value

/-- The JSON form, or why there is none. What is not a finite number becomes null. -/
def toJson? : Value → Except String Json
  | json v => .ok v
  | integer n => if Json.inRange n then .ok (.int n) else .error "number out of range"
  | float x => .ok (if x.isFinite then .float x else .null)
  | mapByList => .error "key must be a string"
  | mapByInteger key text => .ok (.object [(toString key, .string text)])
  | domain d =>
    .ok (match d with
      | some d => d.toJson
      | none => .null)

end Value

/-- How a stored value is read back. -/
inductive Reading
  | shape (shape : Shape)
  | domain
deriving DecidableEq, Repr

/-- Reads a stored value and gives it in normal form. -/
def Reading.read : Reading → Json → Except Mismatch Json
  | shape s, v => s.read v
  | domain, v => Domain.toJson <$> Domain.ofJson v

/-- Stores a typed value. One without a JSON form leaves the packet as it is. -/
def Packet.store (p : Packet) (key : String) (v : Value) : Except Fault Packet :=
  match v.toJson? with
  | .ok v => .ok (p.insert key v)
  | .error text => .error (Packet.valueFault key text)

end Reconcile
