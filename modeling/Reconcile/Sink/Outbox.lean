import Reconcile.Fault
import Reconcile.Sink.Memory

/-!
# The outbox

The outbox is where records are handed over. It keeps every record that was handed to it, in
order, and passes on those it does not refuse. Which hand-overs are refused is not up to the
operator, so it is an arbitrary set of hand-over numbers.
-/

namespace Reconcile

/-- The records handed over so far, and what became of them. -/
structure Outbox where
  /-- All records in the order of their hand-over. -/
  handed : List Record
  /-- The hand-overs that are refused, counted from zero. -/
  refuses : Nat → Bool
  /-- The records that were not refused. -/
  store : EventStore

namespace Outbox

/-- An outbox that has received nothing. -/
def empty (refuses : Nat → Bool) : Outbox := ⟨[], refuses, .empty⟩

/-- The fault of a refused hand-over. -/
def refusal : Fault := .internal "sink" "refused"

/-- Hands a record over. -/
def put (o : Outbox) (r : Record) : Except Fault Unit × Outbox :=
  if o.refuses o.handed.length then (.error refusal, { o with handed := o.handed ++ [r] })
  else (.ok (), { o with handed := o.handed ++ [r], store := o.store.put r })

@[simp] theorem handed_put (o : Outbox) (r : Record) :
    (o.put r).2.handed = o.handed ++ [r] := by
  unfold put; split <;> rfl

@[simp] theorem refuses_put (o : Outbox) (r : Record) : (o.put r).2.refuses = o.refuses := by
  unfold put; split <;> rfl

/-- Forgets the stored events, but not how many records were handed over. -/
def clear (o : Outbox) : Outbox := { o with store := .empty }

end Outbox

end Reconcile
