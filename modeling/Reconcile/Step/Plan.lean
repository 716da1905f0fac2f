import Reconcile.Step.Chain

/-!
# Plans

A plan says how a chain is put together: from single actions and terminals by concatenation,
by marking parts as critical, and by choices. A choice is a step of its own that looks at the
context when its turn comes and inserts one of two plans.
-/

namespace Reconcile

/-- How a chain is put together from actions `α`, for contexts `π`. -/
inductive Plan (π α : Type)
  /-- A terminal. -/
  | terminal
  /-- A single action. -/
  | act (action : α)
  /-- Several plans one after the other. -/
  | chain (parts : List (Plan π α))
  /-- A plan all of whose steps are critical. -/
  | critical (part : Plan π α)
  /-- A step that inserts the first plan if the test holds of the context, else the second. -/
  | choice (name : String) (test : π → Bool) (yes no : Plan π α)

/-- The actions of a chain that a plan describes. -/
inductive Action (π α : Type)
  /-- An action of the plan. -/
  | work (action : α)
  /-- A choice between two plans. -/
  | choice (name : String) (test : π → Bool) (yes no : Plan π α)

instance {π α : Type} [Named α] : Named (Action π α) where
  name
    | .work a => Named.name a
    | .choice name .. => name

namespace Plan

variable {π α : Type}

mutual

/-- The chain that a plan describes. -/
def build : Plan π α → Chain (Action π α)
  | terminal => .terminal
  | act a => .single (.work a)
  | chain parts => .concat (buildAll parts)
  | critical part => part.build.asCritical
  | choice name test yes no => .single (.choice name test yes no)

/-- The chains that several plans describe. -/
def buildAll : List (Plan π α) → List (Chain (Action π α))
  | [] => []
  | p :: rest => p.build :: buildAll rest

end

theorem buildAll_eq_map (ps : List (Plan π α)) : buildAll ps = ps.map build := by
  induction ps with
  | nil => rfl
  | cons p rest ih => simp [buildAll, ih]

/-- One plan after another. -/
def andThen (p q : Plan π α) : Plan π α := chain [p, q]

end Plan

end Reconcile
