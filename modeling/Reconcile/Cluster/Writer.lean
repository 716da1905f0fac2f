import Reconcile.Cluster.Call
import Reconcile.Number.Power
import Reconcile.Retry.Loop

/-!
# Writing events to the cluster

An occurrence is stored by reading the event with its name and then creating it or counting
one more occurrence. The two calls are separate, so another writer may come in between; then
the cluster refuses the second call, and the whole is tried again after a wait.
-/

namespace Reconcile.Cluster

/-- How far a try has come. -/
inductive Write
  /-- The event is to be read. -/
  | reading
  /-- There is no event, so it is to be created. -/
  | creating (time : Int)
  /-- The event was read and is to be counted. -/
  | counting (existing : Existing) (time : Int)
deriving DecidableEq, Repr

/-- The number of occurrences after one more. An event without a number counts as one
occurrence. Numbers have 32 bits and a sign; the largest is followed by the smallest. -/
def nextCount (count : Option Int) : Int :=
  Int.bmod (count.getD 1 + 1) (Number.twoTo 32)

/-- Below the largest number the next one is larger by one. -/
theorem nextCount_of_lt {count : Option Int} (low : 0 ≤ count.getD 1)
    (high : count.getD 1 + 1 < Number.twoTo 31) : nextCount count = count.getD 1 + 1 := by
  have h31 : Number.twoTo 31 = 2147483648 := rfl
  have h32 : Number.twoTo 32 = 4294967296 := rfl
  rw [h31] at high
  rw [nextCount, h32]
  exact Int.bmod_eq_of_le_mul_two (by omega) (by omega)

/-- One more occurrence of an event. -/
def increment (r : Record) (e : Existing) (time : Int) : Increment :=
  ⟨e.version, nextCount e.count, r.message, time⟩

/-- The result of a write, of which only the success matters. -/
def written : Except ApiFault Existing → Except Fault Unit
  | .ok _ => .ok ()
  | .error fault => .error (.cluster fault)

/-- One call of a write. -/
def advance {σ : Type} (api : Api σ) (now : σ → Int) (r : Record) (w : Write) (s : σ) :
    (Write ⊕ Except Fault Unit) × σ :=
  match w with
  | .reading =>
    let time := now s
    match Call.send api (.read r.ns r.eventName) s with
    | (.ok existing, s) => (.inl (.counting existing time), s)
    | (.error fault, s) =>
      if fault.isNotFound then (.inl (.creating time), s)
      else (.inr (.error (.cluster fault)), s)
  | .creating time =>
    let (result, s) := Call.send api (.create (.ofRecord r r.eventName time)) s
    (.inr (written result), s)
  | .counting existing time =>
    let (result, s) := Call.send api (.patch r.ns r.eventName (increment r existing time)) s
    (.inr (written result), s)

/-- Storing one occurrence, as an operation that can be retried. -/
def write {σ : Type} (api : Api σ) (now : σ → Int) (r : Record) :
    Retry.Operation Write Fault Unit σ :=
  ⟨.reading, advance api now r⟩

/-- The policy for calls of the cluster interface. -/
def standardPolicy : Retry.Policy Float := { Retry.Policy.standard with maxRetries := 3 }

end Reconcile.Cluster
