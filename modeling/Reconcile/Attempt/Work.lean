import Reconcile.Step.Plan
import Reconcile.World

/-!
# The work of an attempt

A step of an attempt emits an event, or it does what a reconciler wants done. An emission is
never cut short, but other attempts may act between the moment at which the event leaves its
marker and the moment at which its record has been handed over.
-/

namespace Reconcile

/-- What a step does. -/
inductive Work (β : Type)
  /-- An action of a reconciler. -/
  | custom (action : β)
  /-- The emission of an event. -/
  | event (request : Request)

instance {β : Type} [Named β] : Named (Work β) where
  name
    | .custom b => Named.name b
    | .event q => q.stepName

/-- Plans for attempts. -/
abbrev Steps (β : Type) : Type := Plan Packet (Work β)

/-- The actions of attempts. -/
abbrev Act (β : Type) : Type := Action Packet (Work β)

/-- What remains of an action under way. -/
inductive Activity (κ : Type)
  /-- A record is being handed over. -/
  | handing (record : Record)
  /-- An action of a reconciler is under way. -/
  | custom (activity : κ)

/-- The plan that emits one event. -/
def Steps.event {β : Type} (q : Request) : Steps β := .act (.event q)

namespace Work

variable {𝕊 β κ ε : Type}

/-- The progress of a reconciler's action as that of a step. -/
def embed : Progress (Act β) κ × Packet × World 𝕊 ε →
    Progress (Act β) (Activity κ) × Packet × World 𝕊 ε
  | (.paused k, s) => (.paused (.custom k), s)
  | (.done result, s) => (.done result, s)

/-- What the actions of attempts do, given what those of the reconciler do. -/
def behaviour (custom : Behaviour β (Act β) κ (Packet × World 𝕊 ε)) :
    Behaviour (Act β) (Act β) (Activity κ) (Packet × World 𝕊 ε) where
  start
    | .choice _ test yes no, (p, w) =>
      (.done (.ok (.insert (if test p then yes.build else no.build))), p, w)
    | .work (.event q), (p, w) =>
      match w.announce q p with
      | (.error fault, p, w) => (.done (.error fault), p, w)
      | (.ok (.suppressed _), p, w) => (.done (.ok .proceed), p, w)
      | (.ok (.record record), p, w) => (.paused (.handing record), p, w)
    | .work (.custom b), s => embed (custom.start b s)
  resume
    | .handing record, (p, w) => (.done (.ok .proceed), p, w.deliver record)
    | .custom k, s => embed (custom.resume k s)

end Work

end Reconcile
