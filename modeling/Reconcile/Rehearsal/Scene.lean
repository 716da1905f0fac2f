import Reconcile.Rehearsal.Script

/-!
# Scenes

The scene is the part of the world that only scripted actions know: how often each of them has
run, what has happened so far, the gates, and the hand-over of orders to the processors.
-/

namespace Reconcile.Rehearsal

/-- What a command or an order answers. -/
inductive Reply
  | nothing
  | done
  /-- No value is stored. -/
  | absent
  | found (value : Json)
  | flag (value : Bool)
  | number (value : Nat)
  | markers (markers : Markers)
  | domain (domain : Option Domain)
  | record (record : Record)
  /-- An event was declined before it was announced. -/
  | suppressed
  /-- An event was declined by a rule. -/
  | declined (rule : Rule)
  | emitted
  | fault (fault : Fault)
  | outcome (outcome : Outcome)
  | aborted
  /-- A delay could not be computed. -/
  | crashed
  | steps (domain : Domain) (names : List String)
  | policy (policy : Retry.Policy Float)
  /-- The end of a run and the markers that it leaves. -/
  | ran (result : Except Fault Outcome) (markers : Markers)
  /-- The replies to several commands. -/
  | several (replies : List Reply)

instance : Inhabited Reply := ⟨.nothing⟩

/-- The end of a run or an attempt as a reply. -/
def Reply.ofResult : Except Fault Outcome → Reply
  | .ok o => .outcome o
  | .error f => .fault f

/-- What is written down during a rehearsal. -/
inductive Note
  /-- A scripted action has started. -/
  | started (name : String)
  /-- A command of a scripted action has been answered. -/
  | answered (name : String) (reply : Reply)

/-! ## Gates -/

/-- A gate lets one waiter pass for every release, in the order of their arrival. A release
that nobody waits for is kept for the next one to come, but no more than one. -/
structure Gate where
  permit : Bool
  /-- The tickets of those who wait. -/
  waiting : List Nat
  /-- The tickets of those who may pass but have not done so yet. -/
  admitted : List Nat
  nextTicket : Nat
deriving Repr

namespace Gate

/-- A gate that nobody has come to. -/
def closed : Gate := ⟨false, [], [], 0⟩

/-- Arrives at the gate: passes on a kept permit, or gets a ticket. -/
def arrive (g : Gate) : Option Nat × Gate :=
  if g.permit then (none, { g with permit := false })
  else
    (some g.nextTicket,
      { g with waiting := g.waiting ++ [g.nextTicket], nextTicket := g.nextTicket + 1 })

/-- Lets the next waiter pass. -/
def release (g : Gate) : Gate :=
  match g.waiting with
  | [] => { g with permit := true }
  | ticket :: rest => { g with waiting := rest, admitted := g.admitted ++ [ticket] }

/-- Whether the holder of a ticket may pass. -/
def admits (g : Gate) (ticket : Nat) : Bool := g.admitted.contains ticket

/-- The holder of a ticket passes. -/
def pass (g : Gate) (ticket : Nat) : Gate := { g with admitted := g.admitted.erase ticket }

/-- The holder of a ticket goes away. If it could have passed, the next one may. -/
def leave (g : Gate) (ticket : Nat) : Gate :=
  if g.admits ticket then (g.pass ticket).release
  else { g with waiting := g.waiting.erase ticket }

end Gate

/-! ## The scene -/

/-- What only scripted actions know. -/
structure Scene where
  library : List (String × Script)
  /-- The number of runs of scripted actions, by name. -/
  runs : Table String Nat
  /-- What has been written down, latest first. -/
  notes : List Note
  gates : Table String Gate
  /-- Whether the rehearsed run has been cancelled. -/
  cancelled : Bool
  /-- The order that the action under way has just given. -/
  order : Option Order
  /-- The reply to the latest order. -/
  reply : Option Reply

namespace Scene

/-- A scene in which nothing has happened. -/
def initial (library : List (String × Script)) : Scene :=
  ⟨library, ∅, [], ∅, false, none, none⟩

/-- Writes something down. -/
def note (s : Scene) (n : Note) : Scene := { s with notes := n :: s.notes }

/-- Counts a run of a scripted action and gives the number of earlier ones. -/
def countRun (s : Scene) (name : String) : Nat × Scene :=
  (s.runs.getD name 0, { s with runs := s.runs.modify name 0 (· + 1) })

/-- A gate by its name. -/
def gate (s : Scene) (name : String) : Gate := s.gates.getD name .closed

/-- Replaces a gate. -/
def setGate (s : Scene) (name : String) (g : Gate) : Scene :=
  { s with gates := s.gates.insert name g }

/-- Releases a gate. -/
def releaseGate (s : Scene) (name : String) : Scene := s.setGate name (s.gate name).release

end Scene

/-- The world of a rehearsal. -/
abbrev Stage : Type := World Float Scene

/-- Changes the scene of a world. -/
def Stage.scene (w : Stage) (f : Scene → Scene) : Stage := { w with extra := f w.extra }

end Reconcile.Rehearsal
