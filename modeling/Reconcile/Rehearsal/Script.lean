import Reconcile.Attempt.Basic
import Reconcile.Packet.Value

/-!
# Scripts

A rehearsal runs attempts whose custom actions follow a script, in a time that passes only
when everybody waits. A script says how a chain is put together, which commands its actions
carry out, and what they return on each of their runs. It may refer to other scripts by name,
also from what an action returns, so scripts can describe loops.
-/

namespace Reconcile.Rehearsal

/-- A test of the packet. -/
inductive Condition
  | constant (value : Bool)
  | negation (c : Condition)
  /-- Whether a value is stored. -/
  | has (key : String)
  /-- Whether the boolean true is stored. -/
  | flag (key : String)
  /-- Whether a marker of a kind is on record. -/
  | marked (kind : Markers.Kind)
deriving DecidableEq, Repr

/-- Whether a condition holds of a packet. -/
def Condition.holds (p : Packet) : Condition → Bool
  | constant value => value
  | negation c => !(c.holds p)
  | has key => p.contains key
  | flag key => p.flag key
  | marked kind => p.markers.has kind

/-- A change of the operator's identity; `none` leaves a field as it is. -/
structure IdentityChange where
  ns : Option (Option String)
  pod : Option (Option String)
deriving DecidableEq, Repr

/-- The identity after a change. -/
def IdentityChange.apply (c : IdentityChange) (i : Identity) : Identity :=
  ⟨c.ns.getD i.ns, c.pod.getD i.pod⟩

/-- Orders about one domain: to which processor they go, and what shall be done. -/
structure Target (σ : Type) where
  processor : Nat
  domain : Domain
  override : Option Request
  body : Option σ

mutual

/-- How a chain is put together. -/
inductive Script
  | terminal
  /-- A scripted action. Its n-th run gives the n-th return, or the last one. -/
  | action (name : String) (commands : List Command) (returns : List Return)
  | chain (parts : List Script)
  | critical (part : Script)
  | choice (name : String) (condition : Condition) (yes no : Script)
  | event (request : Request)
  | failure (reason message : String) (abort : Bool) (next : Option Script)
  /-- Another script by its name. -/
  | named (name : String)
  /-- A chain of copies. -/
  | copies (count : Nat) (part : Script)

/-- What a scripted action returns. -/
inductive Return
  | proceed
  | terminate
  | retryAfter (delay : Span)
  | insert (script : Script)
  | branch (script : Script)
  | fail (fault : Fault)

/-- What a scripted action does. The fault of a strict command fails the action. -/
inductive Command
  | insert (key : String) (value : Value) (strict : Bool)
  | get (key : String) (reading : Reading) (strict : Bool)
  | contains (key : String)
  | remove (key : String)
  | mark (marker : Markers.Marker)
  | pushHistory (reason : String)
  | markers
  | domain
  | build (request : Request)
  | changeIdentity (change : IdentityChange)
  /-- Cancels the rehearsed run. -/
  | cancel
  | emit (request : Request) (strict : Bool)
  | sleep (time : Span)
  /-- Waits until a gate lets one waiter pass. -/
  | pass (gate : String)
  /-- Gives an order to a processor and waits for its reply. -/
  | order (order : Order)

/-- What processors are ordered to do. -/
inductive Order
  /-- Executes a make-right operation. -/
  | execute (target : Target Script)
  /-- Executes a make-right operation as a task of its own. -/
  | start (target : Target Script) (task : String)
  /-- Names the steps that an operation would run. -/
  | steps (target : Target Script)
  | join (task : String)
  | abort (task : String)
  | hasFinished (task : String)
  | release (gate : String)
  | wait (time : Span)
  | domainDeleted (processor : Nat) (domain : Domain)
  | watch (processor : Nat) (ns : String)
  | unwatch (processor : Nat) (ns : String)
  | cancelAttempt (processor : Nat) (uid : String)
  | recordFailure (processor : Nat) (uid : String)
  | resetFailures (processor : Nat) (uid : String)
  | failureCount (processor : Nat) (uid : String)
  | isInFlight (processor : Nat) (uid : String)
  | policy (processor : Nat)
  | changeIdentity (change : IdentityChange)
  | clearEvents
  /-- Runs a chain on a packet of its own. -/
  | chain (processor : Nat) (domain : Option Domain) (script : Script)
  /-- Emits an event from a packet of its own. -/
  | emit (domain : Option Domain) (request : Request)

end

instance : Inhabited Script := ⟨.terminal⟩

/-- A scripted action. -/
structure Deed where
  name : String
  commands : List Command
  returns : List Return

instance : Named Deed := ⟨Deed.name⟩

namespace Script

mutual

/-- The plan that a script describes, given those of the scripts it may refer to. -/
def planWith (resolve : String → Steps Deed) : Script → Steps Deed
  | terminal => .terminal
  | action name commands returns => .act (.custom ⟨name, commands, returns⟩)
  | chain parts => .chain (plansWith resolve parts)
  | critical part => .critical (part.planWith resolve)
  | choice name condition yes no =>
    .choice name condition.holds (yes.planWith resolve) (no.planWith resolve)
  | event request => Steps.event request
  | failure reason message abort next => failurePlan reason message abort (nextPlan resolve next)
  | named name => resolve name
  | copies count part => .chain (List.replicate count (part.planWith resolve))

/-- The plans that several scripts describe. -/
def plansWith (resolve : String → Steps Deed) : List Script → List (Steps Deed)
  | [] => []
  | s :: rest => s.planWith resolve :: plansWith resolve rest

/-- The plan that may follow the report of a failure. -/
def nextPlan (resolve : String → Steps Deed) : Option Script → Option (Steps Deed)
  | none => none
  | some s => some (s.planWith resolve)

end

/-- The plan of a script by its name, when references are nested at most `depth` deep. -/
def resolve (library : List (String × Script)) : (depth : Nat) → String → Steps Deed
  | 0, _ => .terminal
  | depth + 1, name =>
    match library.find? fun entry => entry.1 = name with
    | some entry => entry.2.planWith (resolve library depth)
    | none => .terminal

/-- The plan of a script that may refer to a library. -/
def plan (library : List (String × Script)) (s : Script) : Steps Deed :=
  s.planWith (resolve library library.length)

end Script

/-- The entry of a reconciler for domains without one of their own. -/
def anyDomain : String := "*"

/-- The reconciler that runs a script by the uid of the domain, and nothing without one. -/
def reconcilerOf (library bodies : List (String × Script)) (d : Domain) : Steps Deed :=
  match (bodies.find? fun b => b.1 = d.uid).or (bodies.find? fun b => b.1 = anyDomain) with
  | some body => body.2.plan library
  | none => .terminal

end Reconcile.Rehearsal
