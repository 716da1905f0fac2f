import Reconcile.Text.Quoted

/-!
# Chains of steps

An attempt runs a chain of steps. A step performs an action, or it is a terminal, which does
nothing and ends its chain. A critical step still runs when the attempt has been cancelled.

Chains are concatenated node by node. A terminal in the middle would hide what follows it, so
concatenation keeps a terminal only at the very end.
-/

namespace Reconcile

/-- Actions and steps that have a name. -/
class Named (α : Type) where
  /-- The name. -/
  name : α → String

/-- One step of a chain. A step without an action is a terminal. -/
structure Node (α : Type) where
  action : Option α
  critical : Bool
deriving DecidableEq, Repr

/-- A chain holds at least one step. -/
structure Chain (α : Type) where
  head : Node α
  tail : List (Node α)
deriving DecidableEq, Repr

/-- The name of a terminal. -/
def terminalName : String := "terminal"

namespace Node

variable {α : Type}

/-- Whether the step is a terminal. -/
def isTerminal (n : Node α) : Bool := n.action.isNone

/-- The same step, marked as critical. -/
def asCritical (n : Node α) : Node α := { n with critical := true }

/-- The name of the action, or that of a terminal. -/
def name [Named α] (n : Node α) : String :=
  match n.action with
  | some a => Named.name a
  | none => terminalName

end Node

namespace Chain

variable {α : Type}

/-- The steps in order. -/
def nodes (c : Chain α) : List (Node α) := c.head :: c.tail

/-- The chain that consists of a terminal. -/
def terminal : Chain α := ⟨⟨none, false⟩, []⟩

/-- The chain of a single action. -/
def single (a : α) : Chain α := ⟨⟨some a, false⟩, []⟩

/-- The chain of the given steps, or a terminal if there are none. -/
def ofNodes : List (Node α) → Chain α
  | [] => terminal
  | n :: rest => ⟨n, rest⟩

/-- Drops every terminal that something follows. -/
def splice : List (Node α) → List (Node α)
  | [] => []
  | [n] => [n]
  | n :: m :: rest => if n.isTerminal then splice (m :: rest) else n :: splice (m :: rest)

/-- Concatenates chains in order. -/
def concat (cs : List (Chain α)) : Chain α := ofNodes (splice (cs.flatMap nodes))

/-- Appends a chain. -/
def append (c d : Chain α) : Chain α := concat [c, d]

/-- Marks every step as critical. -/
def asCritical (c : Chain α) : Chain α := ⟨c.head.asCritical, c.tail.map Node.asCritical⟩

/-- The number of steps. -/
def length (c : Chain α) : Nat := c.nodes.length

/-- The names of the steps. -/
def names [Named α] (c : Chain α) : List String := c.nodes.map Node.name

/-- The name of the first step. -/
def name [Named α] (c : Chain α) : String := c.head.name

/-- A description of the chain for logs. -/
def text [Named α] (c : Chain α) : String :=
  "Step \x7b chain: " ++ Text.quotedList c.names ++ " \x7d"

@[simp] theorem nodes_ofNodes_cons (n : Node α) (rest : List (Node α)) :
    (ofNodes (n :: rest)).nodes = n :: rest := rfl

@[simp] theorem ofNodes_nodes (c : Chain α) : ofNodes c.nodes = c := rfl

@[simp] theorem nodes_asCritical (c : Chain α) :
    c.asCritical.nodes = c.nodes.map Node.asCritical := rfl

end Chain

end Reconcile
