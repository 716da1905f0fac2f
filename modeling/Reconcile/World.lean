import Reconcile.Engine.Run
import Reconcile.Event.Correlation
import Reconcile.Event.Counters
import Reconcile.Registry
import Reconcile.Sink.Outbox

/-!
# The world of the operator

All attempts share one world: the identity of the operator, the outbox for events, the
counters, the registries of attempts, the time, and chance. An attempt has its own packet
besides.
-/

namespace Reconcile

/-- What all attempts share. `ε` is the part that only custom actions know. -/
structure World (𝕊 ε : Type) where
  identity : Identity
  outbox : Outbox
  counters : Counters
  /-- The rules that have declined an event, in order. -/
  declined : List Rule
  /-- The registries by number; processors may share one. -/
  registries : Table Nat Registry
  /-- The identifier of the next attempt. -/
  nextAttempt : Nat
  /-- The time in milliseconds. -/
  now : Nat
  /-- The random spread of every draw. -/
  spread : Nat → 𝕊
  /-- The number of draws so far. -/
  draws : Nat
  /-- Whether the end of a wait is noticed before a cancellation at the same moment. -/
  timerFirst : Bool
  extra : ε

namespace World

variable {𝕊 ε : Type}

/-- The registry with a number. -/
def registry (w : World 𝕊 ε) (i : Nat) : Registry := w.registries.getD i .empty

/-- Replaces a registry. -/
def setRegistry (w : World 𝕊 ε) (i : Nat) (r : Registry) : World 𝕊 ε :=
  { w with registries := w.registries.insert i r }

theorem registry_setRegistry (w : World 𝕊 ε) (i j : Nat) (r : Registry) :
    (w.setRegistry i r).registry j = if j = i then r else w.registry j := by
  by_cases h : j = i <;> simp [registry, setRegistry, Table.getD, Table.get?_insert, h]

/-- Raises a counter. -/
def raise (w : World 𝕊 ε) (k : Counter) : World 𝕊 ε := { w with counters := w.counters.raise k }

/-- The next random spread. -/
def draw (w : World 𝕊 ε) : 𝕊 × World 𝕊 ε := (w.spread w.draws, { w with draws := w.draws + 1 })

/-- Lets time pass until a moment; time never goes back. -/
def sleepUntil (w : World 𝕊 ε) (deadline : Nat) : World 𝕊 ε :=
  { w with now := max w.now deadline }

/-- The surroundings of a run with its own packet, which is cancelled when `isCancelled`
says so. -/
def host (isCancelled : World 𝕊 ε → Bool) : Host 𝕊 (Packet × World 𝕊 ε) where
  now s := s.2.now
  draw s := let (x, w) := s.2.draw; (x, s.1, w)
  isCancelled s := isCancelled s.2
  countRetry s := (s.1, s.2.raise .stepRetries)
  timerFirst s := s.2.timerFirst

/-! ## Emission -/

/-- Begins an emission. An event that a rule declines is only counted. Any other leaves its
marker at once, before its record is handed over. -/
def announce (w : World 𝕊 ε) (q : Request) (p : Packet) :
    Except Fault Request.Prepared × Packet × World 𝕊 ε :=
  match q.prepare p w.identity with
  | .error fault => (.error fault, p, w)
  | .ok (.suppressed rule) =>
    (.ok (.suppressed rule), p,
      { w.raise (.suppressed q.item) with declined := w.declined ++ [rule] })
  | .ok (.record record) =>
    (.ok (.record record), { p with markers := q.marked p.markers }, w)

/-- Hands a record over. A refusal is only counted. -/
def deliver (w : World 𝕊 ε) (record : Record) : World 𝕊 ε :=
  match w.outbox.put record with
  | (.ok (), outbox) => { w with outbox := outbox }.raise (.emitted record.item)
  | (.error _, outbox) => { w with outbox := outbox }.raise (.storeFailed record.item)

/-- Emits an event: announces it and hands its record over, if there is one. -/
def emit (w : World 𝕊 ε) (q : Request) (p : Packet) :
    Except Fault Request.Prepared × Packet × World 𝕊 ε :=
  match w.announce q p with
  | (.ok (.record record), p, w) => (.ok (.record record), p, w.deliver record)
  | other => other

end World

end Reconcile
