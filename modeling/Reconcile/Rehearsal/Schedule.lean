import Reconcile.Rehearsal.Frame

/-!
# The schedule of a rehearsal

Tasks take turns. The one whose turn it is goes on until it waits or ends; those that it has
woken queue up behind the others. A turn is bounded all the same: a task whose turn has led it
through many waits that were over at once pauses at the next one.

One task is in the foreground: it carries out what the rehearsal itself is asked to do. It
comes first in every round. A round ends when no other task is ready, or after a number of
turns, and then those that have paused in it queue up again. Time passes only when nobody can
move, and then up to the earliest moment that somebody waits for.

Every loop has a bound on the number of its turns, so a rehearsal without an end stops.
-/

namespace Reconcile.Rehearsal

/-- A task. -/
structure Task where
  /-- What it is doing, topmost first. -/
  frames : List Frame
  ending : Option Ending
  /-- Whether it is to be given up as soon as it waits, or else on its next turn. -/
  aborted : Bool

/-- All tasks of a rehearsal and whose turn it is. -/
structure Schedule where
  stage : Stage
  processors : List (Processor Float Deed)
  tasks : Table Nat Task
  /-- The tasks by their names. -/
  labels : Table String Nat
  nextTask : Nat
  /-- The tasks in the background that are ready, in the order of their turns. -/
  ready : List Nat
  /-- The tasks in the background that wait, in the order in which they began to. -/
  blocked : List Nat
  /-- The tasks in the background that have paused in this round, latest first. -/
  paused : List Nat

/-- The task in the foreground. -/
def foreground : Nat := 0

/-- The number of waits that a turn leads through at most. -/
def waitsPerTurn : Nat := 128

/-- The number of turns of a round, that of the foreground not counted. -/
def turnsPerRound : Nat := 61

/-- The processor that is used when none is described. -/
def standardProcessor : Processor Float Deed :=
  ⟨.standard, standardFailureLimit, 0, fun _ => .terminal⟩

namespace Schedule

/-- A schedule without tasks. -/
def initial (stage : Stage) (processors : List (Processor Float Deed)) : Schedule :=
  ⟨stage, processors, ∅, ∅, foreground + 1, [], [], []⟩

/-- The processor with a number. -/
def processor (s : Schedule) (i : Nat) : Processor Float Deed :=
  s.processors.getD i standardProcessor

/-- Changes the scene. -/
def scene (s : Schedule) (f : Scene → Scene) : Schedule := { s with stage := s.stage.scene f }

/-- How a task has ended. -/
def ended (s : Schedule) (id : Nat) : Option Ending := (s.tasks.get? id).bind (·.ending)

/-- Whether a task can go on with what it is doing. -/
def canMove (s : Schedule) (id : Nat) : Bool :=
  match s.tasks.get? id with
  | some ⟨f :: _, none, _⟩ => f.canMove (fun i => (s.ended i).isSome) s.stage
  | _ => false

/-- Whether a task is to be given up. -/
def isAborted (s : Schedule) (id : Nat) : Bool :=
  match s.tasks.get? id with
  | some ⟨_, none, aborted⟩ => aborted
  | _ => false

/-- Replaces the frames of a task. -/
def setFrames (s : Schedule) (id : Nat) (frames : List Frame) : Schedule :=
  { s with tasks := s.tasks.insert id ⟨frames, none, s.isAborted id⟩ }

/-- Ends a task. -/
def finish (s : Schedule) (id : Nat) (e : Ending) : Schedule :=
  { s with tasks := s.tasks.insert id ⟨[], some e, false⟩ }

/-- Gives frames up, topmost first. -/
def abandon (s : Schedule) (frames : List Frame) : Schedule :=
  { s with stage := frames.foldl (fun w f => f.abandon w) s.stage }

/-- A new task in the background. -/
def spawn (s : Schedule) (f : Frame) : Nat × Schedule :=
  let id := s.nextTask
  (id, { s.setFrames id [f] with nextTask := id + 1, ready := s.ready ++ [id] })

/-- Moves the tasks that can go on to the end of the queue. One that has paused does not wait
for anything, but its turn comes early if it is to be given up. -/
def wake (s : Schedule) : Schedule :=
  let (moving, still) := s.blocked.partition fun id => s.canMove id || s.isAborted id
  let (leaving, paused) := s.paused.partition s.isAborted
  { s with ready := s.ready ++ moving ++ leaving, blocked := still, paused := paused }

/-- Moves the tasks that have paused to the end of the queue, the latest first. -/
def resume (s : Schedule) : Schedule := { s with ready := s.ready ++ s.paused, paused := [] }

/-! ## Orders -/

/-- The operation that an order is about, with the body looked up in the library. -/
def operation (s : Schedule) (t : Target Script) : MakeRight Deed :=
  ⟨t.domain, t.override, t.body.map (·.plan s.stage.extra.library)⟩

/-- A frame for an operation. -/
def attemptFrame (s : Schedule) (processor : Nat) (m : MakeRight Deed) : Frame :=
  .attempt (s.processor processor) (.prepare m)

/-- A frame for a chain on a packet of its own. -/
def chainFrame (s : Schedule) (processor : Nat) (report : Bool) (packet : Packet)
    (plan : Steps Deed) : Frame :=
  .run (s.processor processor).policy false report packet (.start plan.build)

/-- The packet for a domain, or an empty one. -/
def packetFor : Option Domain → Packet
  | some d => .forDomain d
  | none => .empty

/-- Changes the registry of a processor. -/
def setRegistry (s : Schedule) (processor : Nat) (r : Registry) : Schedule :=
  { s with stage := s.stage.setRegistry (s.processor processor).registry r }

/-- The registry of a processor. -/
def registry (s : Schedule) (processor : Nat) : Registry :=
  s.stage.registry (s.processor processor).registry

/-- Cancels the attempt in flight of a domain. -/
def cancelAttempt (s : Schedule) (processor : Nat) (uid : String) : Bool × Schedule :=
  let (found, w) := (s.processor processor).cancel uid s.stage
  (found, { s with stage := w })

/-- Asks for a task to be given up. -/
def abort (s : Schedule) (id : Nat) : Schedule :=
  match s.tasks.get? id with
  | some t => { s with tasks := s.tasks.insert id { t with aborted := true } }
  | none => s

/-- Takes an order: it is answered at once, or a frame carries it out. -/
def take (s : Schedule) (o : Order) : (Frame ⊕ Reply) × Schedule :=
  match o with
  | .execute t => (.inl (s.attemptFrame t.processor (s.operation t)), s)
  | .start t label =>
    let (id, s) := s.spawn (s.attemptFrame t.processor (s.operation t))
    (.inr .nothing, { s with labels := s.labels.insert label id })
  | .steps t =>
    let failures := (s.registry t.processor).failureCount t.domain.uid
    let plan := (s.operation t).plan (s.processor t.processor).reconciler failures
    (.inr (.steps t.domain plan.build.names), s)
  | .join label =>
    match s.labels.get? label with
    | some id => (.inl (.join id), s)
    | none => (.inr .nothing, s)
  | .abort label =>
    match s.labels.get? label with
    | some id => (.inr .nothing, s.abort id)
    | none => (.inr .nothing, s)
  | .hasFinished label =>
    (.inr (.flag (((s.labels.get? label).bind s.ended).isSome)), s)
  | .release gate => (.inr .nothing, s.scene (·.releaseGate gate))
  | .wait time => (.inl (.rest (s.stage.now + time.millisUp)), s)
  | .domainDeleted processor domain =>
    let s := (s.cancelAttempt processor domain.uid).2
    (.inl (s.attemptFrame processor (.ofDeletion domain)), s)
  | .watch processor ns =>
    (.inl (s.chainFrame processor true .empty (watchPlan .namespaceWatchingStarted ns)), s)
  | .unwatch processor ns =>
    (.inl (s.chainFrame processor true .empty (watchPlan .namespaceWatchingStopped ns)), s)
  | .cancelAttempt processor uid =>
    let (found, s) := s.cancelAttempt processor uid
    (.inr (.flag found), s)
  | .recordFailure processor uid =>
    let (count, r) := (s.registry processor).recordFailure uid
    (.inr (.number count), s.setRegistry processor r)
  | .resetFailures processor uid =>
    (.inr .nothing, s.setRegistry processor ((s.registry processor).resetFailures uid))
  | .failureCount processor uid =>
    (.inr (.number ((s.registry processor).failureCount uid)), s)
  | .isInFlight processor uid => (.inr (.flag ((s.registry processor).isInFlight uid)), s)
  | .policy processor => (.inr (.policy (s.processor processor).policy), s)
  | .changeIdentity change =>
    (.inr .nothing, { s with stage.identity := change.apply s.stage.identity })
  | .clearEvents => (.inr .nothing, { s with stage.outbox := s.stage.outbox.clear })
  | .chain processor domain script =>
    (.inl (s.chainFrame processor false (packetFor domain)
      (script.plan s.stage.extra.library)), s)
  | .emit domain request =>
    let (result, _, w) := s.stage.emit request (packetFor domain)
    let s := { s with stage := w }
    match result with
    | .error fault => (.inr (.fault fault), s)
    | .ok (.suppressed _) => (.inr (.flag false), s)
    | .ok (.record _) => (.inr (.flag true), s)

/-! ## Turns -/

/-- Gives the reply to an order to the frame that has given it. -/
def answer (s : Schedule) (reply : Reply) : Schedule :=
  s.scene fun scene => { scene with reply := some reply }

/-- Takes the order that the topmost frame of a task has just given, if there is one. -/
def takeOrder (s : Schedule) (id : Nat) (frames : List Frame) : Schedule :=
  match s.stage.extra.order with
  | none => s
  | some o =>
    match (s.scene fun scene => { scene with order := none }).take o with
    | (.inl f, s) => s.setFrames id (f :: frames)
    | (.inr reply, s) => s.answer reply

/-- The topmost frame of a task has ended. -/
def frameEnded (s : Schedule) (id : Nat) (e : Ending) (below : List Frame) : Schedule :=
  if e.unwinds then (s.abandon below).finish id e
  else
    match below with
    | [] => s.finish id e
    | below => (s.setFrames id below).answer e.reply

/-- Advances a task by one step. -/
def step (s : Schedule) (id : Nat) : Schedule :=
  match s.tasks.get? id with
  | some ⟨f :: below, none, _⟩ =>
    match f.step (fun i => (s.ended i).map (·.reply)) s.stage with
    | (.inl f, w) => ({ s with stage := w }.setFrames id (f :: below)).takeOrder id (f :: below)
    | (.inr e, w) => { s with stage := w }.frameEnded id e below
  | _ => s

/-- Gives a task up. -/
def giveUp (s : Schedule) (id : Nat) : Schedule :=
  match s.tasks.get? id with
  | some ⟨frames, none, _⟩ => ((s.abandon frames).finish id (.ofReply .aborted)).wake
  | _ => s

/-- Whether a task has come to a wait that counts towards the length of its turn. -/
def inCountedWait (s : Schedule) (id : Nat) : Bool :=
  match s.tasks.get? id with
  | some ⟨f :: _, none, _⟩ => f.inCountedWait
  | _ => false

/-- The number of waits that the next step of a task leads through. -/
def stepLength (s : Schedule) (id : Nat) : Nat :=
  match s.tasks.get? id with
  | some ⟨f :: _, none, _⟩ =>
    if f.countedWaitIsOver (fun i => (s.ended i).isSome) s.stage then 1 else 0
  | _ => 0

/-- Ends the turn of a task that cannot go on. -/
def halt (s : Schedule) (id : Nat) : Schedule :=
  if s.isAborted id then s.giveUp id
  else if id = foreground || (s.ended id).isSome then s
  else { s with blocked := s.blocked ++ [id] }

/-- Ends the turn of a task that has come to a wait with no more waits left. -/
def pause (s : Schedule) (id : Nat) : Schedule :=
  if s.isAborted id then s.giveUp id
  else if id = foreground then s
  else { s with paused := id :: s.paused }

/-- Advances a task until it waits or ends, through so many waits that are over at once. One
that has been aborted meanwhile goes on for so long, and is then given up. -/
def advance : (fuel waits : Nat) → Nat → Schedule → Schedule
  | 0, _, _, s => s
  | fuel + 1, waits, id, s =>
    if waits = 0 && s.inCountedWait id then s.pause id
    else if s.canMove id then advance fuel (waits - s.stepLength id) id (s.step id).wake
    else s.halt id

/-- A turn of a task. -/
def turn (fuel : Nat) (id : Nat) (s : Schedule) : Schedule :=
  if s.isAborted id then s.giveUp id else advance fuel waitsPerTurn id s

/-- The turns of the tasks in the background in a round, `turns` at most. -/
def takeTurns (fuel : Nat) : (turns : Nat) → Schedule → Schedule
  | 0, s => s
  | turns + 1, s =>
    match s.ready with
    | [] => s
    | id :: rest => takeTurns fuel turns (turn fuel id { s with ready := rest })

/-- A round of the tasks in the background. -/
def round (fuel : Nat) (s : Schedule) : Schedule := (takeTurns fuel turnsPerRound s).resume

/-- Lets the tasks in the background take their turns until none is ready. -/
def settle : (fuel : Nat) → Schedule → Schedule
  | 0, s => s
  | fuel + 1, s =>
    if s.ready.isEmpty && s.paused.isEmpty then s else settle fuel (s.round fuel)

/-- The moment that a task waits for. -/
def deadline? (s : Schedule) (id : Nat) : Option Nat :=
  match s.tasks.get? id with
  | some ⟨f :: _, none, _⟩ => f.deadline?
  | _ => none

/-- The earliest moment that somebody waits for. -/
def earliest? (s : Schedule) : Option Nat :=
  ((foreground :: s.blocked).filterMap s.deadline?).min?

/-- Lets everybody take turns, and time pass, until the foreground has ended. -/
def play : (fuel : Nat) → Schedule → Schedule
  | 0, s => s
  | fuel + 1, s =>
    let s := if s.canMove foreground then turn fuel foreground s else s
    if (s.ended foreground).isSome then s
    else
      let s := s.round fuel
      if s.canMove foreground || !s.ready.isEmpty then play fuel s
      else
        match s.earliest? with
        | none => s
        | some deadline => play fuel { s with stage := s.stage.sleepUntil deadline }.wake

/-- Carries a frame out in the foreground. -/
def carryOut (fuel : Nat) (s : Schedule) (f : Frame) : Ending × Schedule :=
  let s := play fuel (s.setFrames foreground [f])
  ((s.ended foreground).getD (.ofReply .nothing), s)

/-- Carries an order out and lets everybody come to rest. -/
def perform (fuel : Nat) (s : Schedule) (o : Order) : Ending × Schedule :=
  match s.take o with
  | (.inr reply, s) => (.ofReply reply, settle fuel s.wake)
  | (.inl f, s) =>
    let (e, s) := carryOut fuel s f
    (e, settle fuel s)

end Schedule

end Reconcile.Rehearsal
