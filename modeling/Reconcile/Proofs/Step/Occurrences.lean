import Reconcile.Proofs.Step.Plans

/-!
# The actions of a plan

`Plan.occurrences` lists the actions of a plan as it is written, those of both alternatives of
every choice included.  Concatenation and criticality leave the list alone, so the steps of the
chain that a plan describes stand for the same occurrences (`Plan.occurrences_build`).

The weight of a plan is more than the number of its steps: a choice weighs more than either of the
chains that it may insert.
-/

namespace Reconcile

namespace Plan

variable {π α : Type}

mutual

/-- The actions of a plan in order.  A choice stands in front of those of its alternatives. -/
def occurrences : Plan π α → List (Action π α)
  | terminal => []
  | act a => [.work a]
  | chain parts => occurrencesAll parts
  | critical part => part.occurrences
  | choice name test yes no => .choice name test yes no :: (yes.occurrences ++ no.occurrences)

/-- The actions of several plans in order. -/
def occurrencesAll : List (Plan π α) → List (Action π α)
  | [] => []
  | p :: rest => p.occurrences ++ occurrencesAll rest

end

mutual

/-- A bound for the weight of the steps of a plan. -/
def weight : Plan π α → Nat
  | terminal => 1
  | act _ => 1
  | chain parts => 1 + weightAll parts
  | critical part => part.weight
  | choice _ _ yes no => 2 + yes.weight + no.weight

/-- The weight of several plans. -/
def weightAll : List (Plan π α) → Nat
  | [] => 0
  | p :: rest => p.weight + weightAll rest

end

end Plan

/-! ## Steps -/

section

variable {π α : Type}

/-- Whether an action is not a choice. -/
def Action.isWork : Action π α → Bool
  | .work _ => true
  | .choice .. => false

/-- The action and, if it is a choice, those of its alternatives. -/
def Action.occurrences : Action π α → List (Action π α)
  | .work a => [.work a]
  | .choice name test yes no => .choice name test yes no :: (yes.occurrences ++ no.occurrences)

def Action.weight : Action π α → Nat
  | .work _ => 1
  | .choice _ _ yes no => 2 + yes.weight + no.weight

/-- The occurrences that a step stands for. -/
def Node.occurrences (n : Node (Action π α)) : List (Action π α) :=
  match n.action with
  | none => []
  | some action => action.occurrences

def Node.weight (n : Node (Action π α)) : Nat :=
  match n.action with
  | none => 1
  | some action => action.weight

/-- The occurrences that steps stand for. -/
def occurrencesOf (ns : List (Node (Action π α))) : List (Action π α) :=
  ns.flatMap Node.occurrences

/-- The weight of steps. -/
def weightOf : List (Node (Action π α)) → Nat
  | [] => 0
  | n :: ns => n.weight + weightOf ns

@[simp] theorem occurrencesOf_nil : occurrencesOf ([] : List (Node (Action π α))) = [] := rfl

@[simp] theorem occurrencesOf_cons (n : Node (Action π α)) (ns : List (Node (Action π α))) :
    occurrencesOf (n :: ns) = n.occurrences ++ occurrencesOf ns := rfl

@[simp] theorem occurrencesOf_append (ns ms : List (Node (Action π α))) :
    occurrencesOf (ns ++ ms) = occurrencesOf ns ++ occurrencesOf ms := List.flatMap_append

@[simp] theorem weightOf_nil : weightOf ([] : List (Node (Action π α))) = 0 := rfl

@[simp] theorem weightOf_cons (n : Node (Action π α)) (ns : List (Node (Action π α))) :
    weightOf (n :: ns) = n.weight + weightOf ns := rfl

@[simp] theorem weightOf_append (ns ms : List (Node (Action π α))) :
    weightOf (ns ++ ms) = weightOf ns + weightOf ms := by
  induction ns with
  | nil => exact (Nat.zero_add _).symm
  | cons n ns ih => rw [List.cons_append, weightOf_cons, ih, weightOf_cons, Nat.add_assoc]

theorem Node.occurrences_of_terminal {n : Node (Action π α)} (h : n.isTerminal = true) :
    n.occurrences = [] := by
  rw [isTerminal, Option.isNone_iff_eq_none] at h
  simp [occurrences, h]

theorem Node.occurrences_of_action {n : Node (Action π α)} {action : Action π α}
    (h : n.action = some action) : n.occurrences = action.occurrences := by
  simp [occurrences, h]

theorem Node.weight_of_action {n : Node (Action π α)} {action : Action π α}
    (h : n.action = some action) : n.weight = action.weight := by
  simp [weight, h]

theorem Node.weight_pos (n : Node (Action π α)) : 0 < n.weight := by
  obtain ⟨action, critical⟩ := n
  match action with
  | none | some (.work _) => exact Nat.one_pos
  | some (.choice ..) =>
    show 0 < 2 + _ + _
    omega

end

/-! ## The chain of a plan -/

namespace Chain

variable {π α : Type} (ns : List (Node (Action π α)))

theorem occurrencesOf_splice : occurrencesOf (splice ns) = occurrencesOf ns := by
  induction ns with
  | nil => rfl
  | cons n ns ih =>
    cases hterminal : n.isTerminal with
    | false => rw [splice_cons hterminal, occurrencesOf_cons, ih, occurrencesOf_cons]
    | true =>
      cases ns with
      | nil => rfl
      | cons m ms =>
        rw [splice, if_pos hterminal, ih, occurrencesOf_cons n, n.occurrences_of_terminal hterminal,
          List.nil_append]

theorem weightOf_splice_le : weightOf (splice ns) ≤ weightOf ns := by
  induction ns with
  | nil => exact Nat.le_refl _
  | cons n ns ih =>
    cases hterminal : n.isTerminal with
    | false =>
      rw [splice_cons hterminal, weightOf_cons, weightOf_cons]
      omega
    | true =>
      cases ns with
      | nil => exact Nat.le_refl _
      | cons m ms =>
        rw [splice, if_pos hterminal, weightOf_cons n]
        omega

theorem occurrencesOf_concat (cs : List (Chain (Action π α))) :
    occurrencesOf (concat cs).nodes = occurrencesOf (cs.flatMap nodes) := by
  rw [← occurrencesOf_splice (cs.flatMap nodes), concat]
  cases splice (cs.flatMap nodes) <;> rfl

/-- Concatenation adds no more than a terminal. -/
theorem weightOf_concat_le (cs : List (Chain (Action π α))) :
    weightOf (concat cs).nodes ≤ 1 + weightOf (cs.flatMap nodes) := by
  have hsplice := weightOf_splice_le (cs.flatMap nodes)
  rw [concat]
  cases hnodes : splice (cs.flatMap nodes) with
  | nil => exact Nat.le_add_right 1 _
  | cons n rest =>
    rw [hnodes] at hsplice
    rw [nodes_ofNodes_cons]
    omega

theorem occurrencesOf_asCritical (c : Chain (Action π α)) :
    occurrencesOf c.asCritical.nodes = occurrencesOf c.nodes := by
  rw [nodes_asCritical, occurrencesOf, occurrencesOf, List.flatMap_map]
  rfl

theorem weightOf_asCritical (c : Chain (Action π α)) :
    weightOf c.asCritical.nodes = weightOf c.nodes := by
  rw [nodes_asCritical]
  induction c.nodes with
  | nil => rfl
  | cons n ns ih =>
    rw [List.map_cons, weightOf_cons, weightOf_cons, ih]
    rfl

end Chain

namespace Plan

variable {π α : Type}

mutual

/-- The chain of a plan stands for the actions of the plan. -/
theorem occurrences_build : (plan : Plan π α) → occurrencesOf plan.build.nodes = plan.occurrences
  | terminal => rfl
  | act _ => rfl
  | chain parts => by
    rw [build, Chain.occurrencesOf_concat, occurrences]
    exact occurrences_buildAll parts
  | critical part => by
    rw [build, Chain.occurrencesOf_asCritical, occurrences]
    exact occurrences_build part
  | choice .. => by
    rw [build, occurrences]
    exact List.append_nil _

theorem occurrences_buildAll : (parts : List (Plan π α)) →
    occurrencesOf ((buildAll parts).flatMap Chain.nodes) = occurrencesAll parts
  | [] => rfl
  | part :: rest => by
    rw [buildAll, List.flatMap_cons, occurrencesOf_append, occurrences_build part,
      occurrences_buildAll rest, occurrencesAll]

end

mutual

theorem weightOf_build_le : (plan : Plan π α) → weightOf plan.build.nodes ≤ plan.weight
  | terminal => Nat.le_refl _
  | act _ => Nat.le_refl _
  | chain parts => by
    have hparts := weightOf_buildAll_le parts
    have hconcat := Chain.weightOf_concat_le (buildAll parts)
    rw [build, weight]
    omega
  | critical part => by
    rw [build, Chain.weightOf_asCritical, weight]
    exact weightOf_build_le part
  | choice .. => Nat.le_refl _

theorem weightOf_buildAll_le : (parts : List (Plan π α)) →
    weightOf ((buildAll parts).flatMap Chain.nodes) ≤ weightAll parts
  | [] => Nat.le_refl _
  | part :: rest => by
    have hpart := weightOf_build_le part
    have hrest := weightOf_buildAll_le rest
    rw [buildAll, List.flatMap_cons, weightOf_append, weightAll]
    omega

end

end Plan

end Reconcile
