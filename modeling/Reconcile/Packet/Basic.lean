import Reconcile.Data.Table
import Reconcile.Domain
import Reconcile.Fault
import Reconcile.Packet.Markers

/-!
# Packets

A packet is the context that all steps of one attempt share: the domain the attempt is about,
if it is about one, its lifecycle markers, and the values that steps leave for later ones.
Values are kept as JSON, so a step reads a value in any shape that fits.
-/

namespace Reconcile

/-- The context of an attempt. -/
structure Packet where
  domain : Option Domain
  markers : Markers
  values : Table String Json

namespace Packet

/-- A packet for an attempt that is about no particular domain. -/
def empty : Packet := ⟨none, .initial, ∅⟩

/-- A packet for an attempt on a domain. -/
def forDomain (d : Domain) : Packet := ⟨some d, .initial, ∅⟩

/-- Whether a value is stored under a key. -/
def contains (p : Packet) (key : String) : Bool := p.values.contains key

/-- Removes a value. -/
def remove (p : Packet) (key : String) : Packet := { p with values := p.values.erase key }

/-- Stores a value, replacing an earlier one. -/
def insert (p : Packet) (key : String) (value : Json) : Packet :=
  { p with values := p.values.insert key value }

/-- The fault of a value that cannot be written or read. -/
def valueFault (key text : String) : Fault :=
  .unserializable ("packet value " ++ key ++ ": " ++ text)

/-- Reads a value, if there is one, by the given reader. -/
def get? {α : Type} (p : Packet) (read : Json → Except Mismatch α) (key : String) :
    Except Fault (Option α) :=
  match p.values.get? key with
  | none => .ok none
  | some v =>
    match read v with
    | .ok a => .ok (some a)
    | .error m => .error (valueFault key m.message)

/-- Whether a value is stored that is the boolean true. -/
def flag (p : Packet) (key : String) : Bool :=
  match p.values.get? key with
  | some (.bool b) => b
  | _ => false

end Packet

end Reconcile
