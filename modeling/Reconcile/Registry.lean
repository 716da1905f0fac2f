import Reconcile.Data.Table

/-!
# The registry of attempts

At most one attempt runs per domain. The registry knows, for every domain uid, the attempt
that was begun last and has not been released, and how many attempts have failed in a row.

Every attempt gets a token. Beginning a new attempt cancels the token of the one it replaces.
Whoever began an attempt holds a guard and releases it at the end; a guard only removes its
own attempt, so an attempt that was replaced leaves its successor alone.
-/

namespace Reconcile

/-- An attempt in flight. -/
structure InFlight where
  attempt : Nat
  token : Nat
deriving DecidableEq, Repr

/-- What the holder of an attempt keeps in order to release it. -/
structure Guard where
  uid : String
  attempt : Nat
  token : Nat
deriving DecidableEq, Repr

/-- Attempts in flight and failures in a row, by domain uid. -/
structure Registry where
  inFlight : Table String InFlight
  failures : Table String Nat
  /-- The number of tokens issued; the next one gets this number. -/
  issued : Nat
  /-- The tokens that have been cancelled. -/
  cancelled : List Nat

namespace Registry

/-- A registry without attempts. -/
def empty : Registry := ⟨∅, ∅, 0, []⟩

instance : Inhabited Registry := ⟨empty⟩

/-- Whether a token has been cancelled. -/
def isCancelled (r : Registry) (token : Nat) : Bool := r.cancelled.contains token

/-- Cancels a token. -/
def cancelToken (r : Registry) (token : Nat) : Registry :=
  if r.isCancelled token then r else { r with cancelled := token :: r.cancelled }

/-- Cancels the attempt in flight of a domain, if there is one. -/
def cancelInFlight (r : Registry) (uid : String) : Registry :=
  match r.inFlight.get? uid with
  | some entry => r.cancelToken entry.token
  | none => r

/-- Registers a new attempt of a domain and cancels the one it replaces. -/
def begin (r : Registry) (uid : String) (attempt : Nat) : Guard × Registry :=
  let token := r.issued
  let r := r.cancelInFlight uid
  (⟨uid, attempt, token⟩,
    { r with inFlight := r.inFlight.insert uid ⟨attempt, token⟩, issued := token + 1 })

/-- Releases a guard: its attempt is removed unless another has replaced it. -/
def release (r : Registry) (g : Guard) : Registry :=
  match r.inFlight.get? g.uid with
  | some entry =>
    if entry.attempt = g.attempt then { r with inFlight := r.inFlight.erase g.uid } else r
  | none => r

/-- Cancels the attempt in flight of a domain and says whether there was one. -/
def cancel (r : Registry) (uid : String) : Bool × Registry :=
  (r.inFlight.contains uid, r.cancelInFlight uid)

/-- Whether an attempt of the domain is in flight. -/
def isInFlight (r : Registry) (uid : String) : Bool := r.inFlight.contains uid

/-- The attempt in flight of a domain. -/
def current? (r : Registry) (uid : String) : Option Nat :=
  (r.inFlight.get? uid).map (·.attempt)

/-- The number of domains with an attempt in flight. -/
def inFlightCount (r : Registry) : Nat := r.inFlight.size

/-- The number of failures of a domain in a row. -/
def failureCount (r : Registry) (uid : String) : Nat := r.failures.getD uid 0

/-- Counts one more failure of a domain and gives the new number. -/
def recordFailure (r : Registry) (uid : String) : Nat × Registry :=
  let count := r.failureCount uid + 1
  (count, { r with failures := r.failures.insert uid count })

/-- Forgets the failures of a domain. -/
def resetFailures (r : Registry) (uid : String) : Registry :=
  { r with failures := r.failures.erase uid }

theorem failureCount_recordFailure (r : Registry) (uid x : String) :
    (r.recordFailure uid).2.failureCount x =
      if x = uid then r.failureCount uid + 1 else r.failureCount x := by
  by_cases h : x = uid <;>
    simp [recordFailure, failureCount, Table.getD, Table.get?_insert, h]

theorem failureCount_resetFailures (r : Registry) (uid x : String) :
    (r.resetFailures uid).failureCount x = if x = uid then 0 else r.failureCount x := by
  by_cases h : x = uid <;> simp [resetFailures, failureCount, Table.getD, Table.get?_erase, h]

end Registry

end Reconcile
