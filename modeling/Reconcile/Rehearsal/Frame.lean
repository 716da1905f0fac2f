import Reconcile.Rehearsal.Acting

/-!
# Frames

A task of a rehearsal is a stack of frames. The topmost frame is what the task is doing; a
frame below it has given an order and waits for the reply.
-/

namespace Reconcile.Rehearsal

/-- What a task is doing. -/
inductive Frame
  /-- An attempt. -/
  | attempt (processor : Processor Float Deed) (attempt : Attempt Deed Acting)
  /-- A run of a chain. The rehearsed run can be cancelled; of the report of a namespace watch
  only a fault matters. -/
  | run (policy : Retry.Policy Float) (cancellable report : Bool) (packet : Packet)
      (run : Run (Act Deed) (Activity Acting))
  /-- Commands outside a run. The fault of a strict one ends them if they are to halt at it;
  otherwise it is the reply. -/
  | commands (halting : Bool) (packet : Packet) (acting : Acting)
  /-- A wait for a moment in time. -/
  | rest (deadline : Nat)
  /-- A wait for the end of another task. -/
  | join (task : Nat)
  /-- A wait after which the rehearsed run is cancelled. -/
  | alarm (deadline : Nat)

/-- How a frame ended: the reply, and the packet it worked on. -/
structure Ending where
  reply : Reply
  packet : Packet
  /-- Whether a crash in the frame takes down those that wait for the reply. A frame that only
  learns of the crash of another task goes on. -/
  unwinds : Bool

/-- The end of a frame without a packet. -/
def Ending.ofReply (reply : Reply) : Ending := ⟨reply, .empty, false⟩

/-- The end of a frame in which a delay could not be computed. -/
def Ending.crash : Ending := ⟨.crashed, .empty, true⟩

/-- The surroundings of a run outside an attempt. -/
def freeHost (cancellable : Bool) : Host Float (Packet × Stage) :=
  World.host fun w => cancellable && w.extra.cancelled

/-- Whether a run can go on. -/
def runCanMove (host : Host Float (Packet × Stage)) (run : Run (Act Deed) (Activity Acting))
    (p : Packet) (w : Stage) : Bool :=
  match run.phase with
  | .acting _ _ (.custom a) => a.canMove w
  | .waiting node _ deadline => deadline ≤ w.now || Run.isStopped host node (p, w)
  | _ => true

/-- The moment that a run waits for. -/
def runDeadline? (run : Run (Act Deed) (Activity Acting)) : Option Nat :=
  match run.phase with
  | .waiting _ _ deadline => some deadline
  | .acting _ _ (.custom a) =>
    match a.waiting with
    | .time deadline => some deadline
    | _ => none
  | _ => none

/-- What remains of a run that is given up. -/
def abandonRun (run : Run (Act Deed) (Activity Acting)) (w : Stage) : Stage :=
  match run.phase with
  | .acting _ _ (.custom a) => a.abandon w
  | _ => w

/-- The reply of a run that has ended. -/
def runReply (report : Bool) (result : Except Fault Outcome) (p : Packet) : Reply :=
  match report, result with
  | true, .ok _ => .done
  | true, .error fault => .fault fault
  | false, result => .ran result p.markers

namespace Frame

/-- The run that the frame is in, with its packet and surroundings. -/
def run? : Frame → Option (Host Float (Packet × Stage) × Packet × Run (Act Deed) (Activity Acting))
  | attempt p ⟨_, .running g packet r⟩ => some (p.host g, packet, r)
  | attempt p ⟨_, .reporting g packet _ r⟩ => some (p.host g, packet, r)
  | run _ cancellable _ packet r => some (freeHost cancellable, packet, r)
  | _ => none

/-- Whether the frame can go on, given which tasks have ended. -/
def canMove (hasEnded : Nat → Bool) (w : Stage) (f : Frame) : Bool :=
  match f with
  | commands _ _ acting => acting.canMove w
  | rest deadline => deadline ≤ w.now
  | alarm deadline => deadline ≤ w.now
  | join task => hasEnded task
  | f =>
    match f.run? with
    | some (host, packet, r) => runCanMove host r packet w
    | none => true

/-- The moment that the frame waits for. -/
def deadline? (f : Frame) : Option Nat :=
  match f with
  | commands _ _ acting =>
    match acting.waiting with
    | .time deadline => some deadline
    | _ => none
  | rest deadline => some deadline
  | alarm deadline => some deadline
  | f => f.run?.bind fun r => runDeadline? r.2.2

/-- Whether the frame has come to a wait that counts towards the length of a turn: one for a
moment in time or for the end of a task. A wait at a gate does not count. -/
def inCountedWait (f : Frame) : Bool :=
  match f with
  | join _ => true
  | f => f.deadline?.isSome

/-- Whether such a wait has come to its own end. A wait that a cancellation cuts short has not. -/
def countedWaitIsOver (hasEnded : Nat → Bool) (w : Stage) (f : Frame) : Bool :=
  match f with
  | join task => hasEnded task
  | f => f.deadline?.any (· ≤ w.now)

/-- What remains of a frame that is given up: guards are released and gates are left. -/
def abandon (f : Frame) (w : Stage) : Stage :=
  let w :=
    match f with
    | commands _ _ acting => acting.abandon w
    | f =>
      match f.run? with
      | some (_, _, r) => abandonRun r w
      | none => w
  match f with
  | attempt p a => a.abandon p w
  | _ => w

/-- Advances the frame by one step, given how other tasks have ended. -/
def step (ended : Nat → Option Reply) (f : Frame) (w : Stage) : (Frame ⊕ Ending) × Stage :=
  match f with
  | attempt p a =>
    match a.stage with
    | .ended packet result => (.inr ⟨.ofResult result, packet, false⟩, w)
    | .crashed => (.inr .crash, w)
    | _ =>
      let (a, w) := a.step p Deed.behaviour w
      (.inl (attempt p a), w)
  | run policy cancellable report packet r =>
    match r.phase with
    | .ended result => (.inr ⟨runReply report result packet, packet, false⟩, w)
    | .crashed => (.inr .crash, w)
    | _ =>
      let (r, packet, w) :=
        r.step (freeHost cancellable) policy (Work.behaviour Deed.behaviour) (packet, w)
      (.inl (run policy cancellable report packet r), w)
  | commands halting packet acting =>
    match acting.rest with
    | [] => (.inr ⟨.several acting.replies.reverse, packet, false⟩, w)
    | c :: _ =>
      match acting.advance c packet w with
      | (.ok acting, packet, w) => (.inl (commands halting packet acting), w)
      | (.error fault, packet, w) =>
        if halting then (.inr ⟨.fault fault, packet, false⟩, w)
        else
          let (acting, packet, w) := acting.answered (.fault fault) packet w
          (.inl (commands halting packet acting), w)
  | rest _ => (.inr (.ofReply .nothing), w)
  | join task => (.inr (.ofReply ((ended task).getD .nothing)), w)
  | alarm _ => (.inr (.ofReply .nothing), w.scene fun s => { s with cancelled := true })

end Frame

end Reconcile.Rehearsal
