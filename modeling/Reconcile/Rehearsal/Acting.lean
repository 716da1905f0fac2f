import Reconcile.Rehearsal.Scene

/-!
# Scripted actions

A scripted action carries out its commands one by one. Most are answered at once; some wait
for the time, for a gate, or for the reply to an order.
-/

namespace Reconcile.Rehearsal

/-- What the command under way waits for. -/
inductive Wait
  /-- It has not begun. -/
  | nothing
  /-- A moment in time. -/
  | time (deadline : Nat)
  /-- A gate. -/
  | gate (ticket : Nat)
  /-- The reply to an order. -/
  | reply
deriving DecidableEq, Repr

/-- Commands that are being carried out. -/
structure Acting where
  /-- The name under which the answers are written down. -/
  name : Option String
  /-- The commands to come; the first may be waiting. -/
  rest : List Command
  waiting : Wait
  /-- The answers so far, latest first. -/
  replies : List Reply
  /-- How a scripted action returns in the end. -/
  ending : Except Fault (Directive (Act Deed))

namespace Command

/-- The reply to a request for a record. -/
def built : Except Fault (Option Record) → Reply
  | .error fault => .fault fault
  | .ok none => .suppressed
  | .ok (some record) => .record record

/-- Stores a value. -/
def performInsert (key : String) (value : Value) (strict : Bool) (p : Packet) :
    Except Fault Reply × Packet :=
  match p.store key value with
  | .ok p => (.ok (if strict then .nothing else .done), p)
  | .error fault => (if strict then .error fault else .ok (.fault fault), p)

/-- Reads a value. A strict command first insists on a string. -/
def performGet (key : String) (reading : Reading) (strict : Bool) (p : Packet) :
    Except Fault Reply := do
  if strict then
    let _ ← p.get? Json.readString key
  return match p.get? reading.read key with
    | .ok none => .absent
    | .ok (some v) => .found v
    | .error fault => .fault fault

/-- Removes a value. -/
def performRemove (key : String) (p : Packet) : Reply × Packet :=
  match p.values.get? key with
  | none => (.absent, p)
  | some v => (.found v, p.remove key)

/-- Emits an event. -/
def performEmit (q : Request) (strict : Bool) (p : Packet) (w : Stage) :
    Except Fault Reply × Packet × Stage :=
  match w.emit q p with
  | (.error fault, s) => (if strict then .error fault else .ok (.fault fault), s)
  | (.ok (.suppressed rule), s) => (.ok (if strict then .flag false else .declined rule), s)
  | (.ok (.record _), s) => (.ok (if strict then .flag true else .emitted), s)

/-- Carries a command out that is answered at once. A fault is one that fails the action. -/
def perform (c : Command) (p : Packet) (w : Stage) : Except Fault Reply × Packet × Stage :=
  match c with
  | insert key value strict =>
    let (reply, p) := performInsert key value strict p
    (reply, p, w)
  | get key reading strict => (performGet key reading strict p, p, w)
  | contains key => (.ok (.flag (p.contains key)), p, w)
  | remove key =>
    let (reply, p) := performRemove key p
    (.ok reply, p, w)
  | mark marker =>
    (.ok (.flag (p.markers.isNew marker)), { p with markers := p.markers.record marker }, w)
  | pushHistory reason => (.ok .done, { p with markers := p.markers.pushHistory reason }, w)
  | markers => (.ok (.markers p.markers), p, w)
  | domain => (.ok (.domain p.domain), p, w)
  | build request => (.ok (built (request.build p w.identity)), p, w)
  | changeIdentity change =>
    (.ok .done, p, { w with identity := change.apply w.identity })
  | cancel => (.ok .done, p, w.scene fun s => { s with cancelled := true })
  | emit request strict => performEmit request strict p w
  | sleep _ | pass _ | order _ => (.ok .nothing, p, w)

end Command

namespace Acting

/-- Commands that are carried out outside a run; nothing is written down. -/
def ofCommands (commands : List Command) : Acting :=
  ⟨none, commands, .nothing, [], .ok .proceed⟩

/-- Writes an answer down and goes on to the next command. -/
def answered (a : Acting) (reply : Reply) (p : Packet) (w : Stage) : Acting × Packet × Stage :=
  let w :=
    match a.name with
    | some name => w.scene fun s => s.note (.answered name reply)
    | none => w
  ({ a with rest := a.rest.tail, waiting := .nothing, replies := reply :: a.replies }, p, w)

/-- Whether the command under way can go on. -/
def canMove (a : Acting) (w : Stage) : Bool :=
  match a.waiting, a.rest with
  | .nothing, _ => true
  | .time deadline, _ => deadline ≤ w.now
  | .gate ticket, .pass gate :: _ => (w.extra.gate gate).admits ticket
  | .gate _, _ => true
  | .reply, _ => w.extra.reply.isSome

/-- Goes on with commands that have not all been answered. -/
def advance (a : Acting) (c : Command) (p : Packet) (w : Stage) :
    Except Fault Acting × Packet × Stage :=
  let stay (a : Acting) (w : Stage) : Except Fault Acting × Packet × Stage := (.ok a, p, w)
  let next (reply : Reply) (w : Stage) : Except Fault Acting × Packet × Stage :=
    let (a, p, w) := a.answered reply p w
    (.ok a, p, w)
  match a.waiting, c with
  | .nothing, .sleep time => stay { a with waiting := .time (w.now + time.millisUp) } w
  | .time deadline, _ => if deadline ≤ w.now then next .nothing w else stay a w
  | .nothing, .pass gate =>
    let (ticket, g) := (w.extra.gate gate).arrive
    let w := w.scene (·.setGate gate g)
    match ticket with
    | none => next .nothing w
    | some ticket => stay { a with waiting := .gate ticket } w
  | .gate ticket, .pass gate =>
    let g := w.extra.gate gate
    if g.admits ticket then next .nothing (w.scene (·.setGate gate (g.pass ticket)))
    else stay a w
  | .nothing, .order order =>
    stay { a with waiting := .reply } (w.scene fun s => { s with order := some order })
  | .reply, _ =>
    match w.extra.reply with
    | some reply => next reply (w.scene fun s => { s with reply := none })
    | none => stay a w
  | _, c =>
    match c.perform p w with
    | (.error fault, s) => (.error fault, s)
    | (.ok reply, p, w) =>
      let (a, p, w) := a.answered reply p w
      (.ok a, p, w)

/-- What remains of commands that are given up. -/
def abandon (a : Acting) (w : Stage) : Stage :=
  match a.waiting, a.rest with
  | .gate ticket, .pass gate :: _ => w.scene fun s => s.setGate gate ((s.gate gate).leave ticket)
  | _, _ => w

end Acting

/-! ## The behaviour of scripted actions -/

namespace Deed

/-- What a scripted action returns on its run number `n`, counted from zero. -/
def returned (library : List (String × Script)) (d : Deed) (n : Nat) :
    Except Fault (Directive (Act Deed)) :=
  match (d.returns[n]?).or d.returns.getLast? with
  | none | some .proceed => .ok .proceed
  | some .terminate => .ok .terminate
  | some (.retryAfter delay) => .ok (.retryAfter delay)
  | some (.insert script) => .ok (.insert (script.plan library).build)
  | some (.branch script) => .ok (.branch (script.plan library).build)
  | some (.fail fault) => .error fault

/-- Goes on with an action. -/
def resume (a : Acting) (s : Packet × Stage) :
    Progress (Act Deed) Acting × Packet × Stage :=
  match a.rest with
  | [] => (.done a.ending, s)
  | c :: _ =>
    match a.advance c s.1 s.2 with
    | (.ok a, s) => (.paused a, s)
    | (.error fault, s) => (.done (.error fault), s)

/-- What scripted actions do. -/
def behaviour : Behaviour Deed (Act Deed) Acting (Packet × Stage) where
  start d s :=
    let (n, scene) := s.2.extra.countRun d.name
    let w := s.2.scene fun _ => scene.note (.started d.name)
    resume ⟨some d.name, d.commands, .nothing, [], d.returned scene.library n⟩ (s.1, w)
  resume := resume

end Deed

end Reconcile.Rehearsal
