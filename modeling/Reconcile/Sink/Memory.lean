import Reconcile.Event.Record

/-!
# The event store in memory

The store merges occurrences with the same event name into one entry that counts them and
holds the latest record. Entries stand in the order in which their names were first put.
-/

namespace Reconcile

/-- A merged event. -/
structure StoredEvent where
  name : String
  record : Record
  count : Nat
deriving DecidableEq, Repr

/-- The merged events, oldest name first. -/
structure EventStore where
  entries : List StoredEvent
deriving DecidableEq, Repr

namespace EventStore

/-- A store without events. -/
def empty : EventStore := ⟨[]⟩

/-- Counts one more occurrence of the entry with the given name, or enters it at the end. -/
def merge (name : String) (record : Record) : List StoredEvent → List StoredEvent
  | [] => [⟨name, record, 1⟩]
  | e :: rest =>
    if e.name = name then ⟨name, record, e.count + 1⟩ :: rest else e :: merge name record rest

/-- Stores one occurrence. -/
def put (s : EventStore) (r : Record) : EventStore := ⟨merge r.eventName r s.entries⟩

/-- The entry with a name. -/
def entry? (s : EventStore) (name : String) : Option StoredEvent :=
  s.entries.find? fun e => e.name = name

/-- The latest record of every entry of a kind. -/
def recordsFor (s : EventStore) (i : Item) : List Record :=
  (s.entries.map (·.record)).filter fun r => r.item = i

/-- The number of occurrences of a kind, repeats included. -/
def occurrences (s : EventStore) (i : Item) : Nat :=
  (s.entries.filter fun e => e.record.item = i).foldr (fun e n => e.count + n) 0

/-- Whether an event of a kind is stored. -/
def contains (s : EventStore) (i : Item) : Bool := 0 < s.occurrences i

/-- The reasons of the entries. -/
def reasons (s : EventStore) : List String := s.entries.map fun e => e.record.reason

end EventStore

end Reconcile
