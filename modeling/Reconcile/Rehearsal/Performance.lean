import Reconcile.Rehearsal.Schedule

/-!
# Performances

A performance starts from a setting and plays commands, a run, or a sequence of orders to
processors to the end. What can be seen afterwards is in its stage: the events, the counters,
the rules that declined, and what was written down.
-/

namespace Reconcile.Rehearsal

/-- What a performance starts from. -/
structure Setting where
  identity : Identity
  /-- The hand-overs to the outbox that are refused, counted from zero. -/
  refused : List Nat
  library : List (String × Script)

/-- A bound on the number of turns of a performance. -/
def turnLimit : Nat := 10000000

/-- The stage at the beginning. All random spreads are neutral. -/
def Setting.stage (s : Setting) : Stage where
  identity := s.identity
  outbox := .empty s.refused.contains
  counters := ∅
  declined := []
  registries := ∅
  nextAttempt := 0
  now := 0
  spread _ := 1
  draws := 0
  timerFirst := true
  extra := .initial s.library

/-- What has been written down, in order. -/
def Stage.notes (w : Stage) : List Note := w.extra.notes.reverse

/-! ## Commands -/

/-- The schedule at the beginning, without processors of its own. -/
def Setting.schedule (s : Setting) : Schedule := .initial s.stage []

/-- The end of commands that were carried out on a packet. -/
structure Commanded where
  replies : List Reply
  packet : Packet
  schedule : Schedule

/-- Carries commands out on a packet. The fault of a strict one is its reply. -/
def Schedule.command (s : Schedule) (p : Packet) (commands : List Command) : Commanded :=
  let (e, s) := s.carryOut turnLimit (.commands false p (.ofCommands commands))
  match e.reply with
  | .several replies => ⟨replies, e.packet, s⟩
  | reply => ⟨[reply], e.packet, s⟩

/-- Prepares a packet by commands. The fault of a strict one ends the preparation. -/
def Schedule.prepare (s : Schedule) (p : Packet) (commands : List Command) :
    Except Fault Packet × Schedule :=
  let (e, s) := s.carryOut turnLimit (.commands true p (.ofCommands commands))
  match e.reply with
  | .fault fault => (.error fault, s)
  | _ => (.ok e.packet, s)

/-! ## Runs -/

/-- A run to be rehearsed. -/
structure Piece where
  policy : Retry.Policy Float
  domain : Option Domain
  /-- What is done to the packet before the run. -/
  setup : List Command
  script : Script
  /-- The time from the beginning of the run after which it is cancelled. -/
  alarm : Option Nat
  /-- Whether the run is a task of its own. -/
  spawned : Bool
  /-- Whether the run can be cancelled at all. -/
  cancellable : Bool

/-- The end of a rehearsed run. -/
structure Played where
  setup : List Reply
  reply : Reply
  stage : Stage
  /-- The time that the run took. -/
  elapsed : Nat

/-- Plays a run to its end. -/
def Setting.play (setting : Setting) (piece : Piece) : Played :=
  let before := setting.schedule.command (Schedule.packetFor piece.domain) piece.setup
  let s := before.schedule
  let start := s.stage.now
  let s :=
    match piece.alarm with
    | some time => (s.spawn (.alarm (start + time))).2
    | none => s
  let frame : Frame :=
    .run piece.policy piece.cancellable false before.packet
      (.start (piece.script.plan setting.library).build)
  if piece.spawned then
    let (id, s) := s.spawn frame
    let (e, s) := s.carryOut turnLimit (.join id)
    ⟨before.replies, e.reply, s.stage, s.stage.now - start⟩
  else
    let (e, s) := s.carryOut turnLimit frame
    ⟨before.replies, e.reply, s.stage, s.stage.now - start⟩

/-! ## Orders to processors -/

/-- What can be seen after an order. -/
structure Glance where
  reply : Reply
  /-- Whether carrying the order out ended in a crash. -/
  crashed : Bool
  /-- The number of attempts in flight of every processor. -/
  inFlight : List Nat
  stored : List StoredEvent
  /-- What was written down meanwhile. -/
  notes : List Note

/-- Looks at a schedule after an order. -/
def Schedule.glance (s : Schedule) (e : Ending) : Glance :=
  ⟨e.reply, e.unwinds, s.processors.map fun p => (s.stage.registry p.registry).inFlightCount,
    s.stage.outbox.store.entries, s.stage.notes⟩

/-- Carries orders out one after the other. -/
def Schedule.performAll (s : Schedule) : List Order → List Glance × Schedule
  | [] => ([], s)
  | o :: rest =>
    let (e, s) := (s.scene fun scene => { scene with notes := [] }).perform turnLimit o
    let (later, final) := s.performAll rest
    (s.glance e :: later, final)

/-- Plays orders to processors. -/
def Setting.perform (setting : Setting) (processors : List (Processor Float Deed))
    (orders : List Order) : List Glance × Schedule :=
  (Schedule.initial setting.stage processors).performAll orders

end Reconcile.Rehearsal
