import Reconcile.Step.Plan

/-!
# The steps of a plan

Concatenation drops the terminals in the middle and adds nothing but a terminal.  So whatever
holds of all actions of a plan holds of the steps of the chain that it describes
(`Plan.Forall.build`).
-/

namespace Reconcile

/-! ## Concatenation -/

namespace Chain

variable {α : Type}

theorem splice_cons {n : Node α} (haction : n.isTerminal = false) (rest : List (Node α)) :
    splice (n :: rest) = n :: splice rest := by
  cases rest with
  | nil => rfl
  | cons m rest => rw [splice, if_neg (by simp [haction])]

theorem splice_concat (ns : List (Node α)) (n : Node α) :
    splice (ns ++ [n]) = ns.filter (fun m => !m.isTerminal) ++ [n] := by
  induction ns with
  | nil => rfl
  | cons m ns ih =>
    cases hterminal : m.isTerminal with
    | false => rw [List.cons_append, splice_cons hterminal, ih]; simp [hterminal]
    | true =>
      obtain ⟨k, rest, hrest⟩ := List.exists_cons_of_ne_nil
        (List.append_ne_nil_of_right_ne_nil ns (List.cons_ne_nil n []))
      rw [List.cons_append, hrest, splice, if_pos hterminal, ← hrest, ih]
      simp [hterminal]

theorem mem_of_mem_splice {n : Node α} {ns : List (Node α)} (h : n ∈ splice ns) : n ∈ ns := by
  induction ns with
  | nil => exact h
  | cons m ns ih =>
    cases ns with
    | nil => exact h
    | cons k rest =>
      rw [splice] at h
      split at h
      · exact List.mem_cons_of_mem _ (ih h)
      · rcases List.mem_cons.1 h with rfl | h
        · exact List.mem_cons_self
        · exact List.mem_cons_of_mem _ (ih h)

/-- Concatenation adds no steps but a terminal. -/
theorem mem_nodes_concat {n : Node α} {cs : List (Chain α)} (h : n ∈ (concat cs).nodes) :
    n.action = none ∨ ∃ c ∈ cs, n ∈ c.nodes := by
  unfold concat at h
  cases hnodes : splice (cs.flatMap nodes) with
  | nil =>
    rw [hnodes] at h
    exact .inl (congrArg Node.action (List.mem_singleton.1 h))
  | cons m rest =>
    rw [hnodes, nodes_ofNodes_cons, ← hnodes] at h
    exact .inr (List.mem_flatMap.1 (mem_of_mem_splice h))

end Chain

/-! ## Predicates on actions -/

/-- All actions of a plan, those of its choices included, satisfy a predicate. -/
inductive Plan.Forall {π α : Type} (P : α → Prop) : Plan π α → Prop
  | terminal : Forall P .terminal
  | act {a : α} : P a → Forall P (.act a)
  | chain {parts : List (Plan π α)} : (∀ part ∈ parts, Forall P part) → Forall P (.chain parts)
  | critical {part : Plan π α} : Forall P part → Forall P (.critical part)
  | choice {name : String} {test : π → Bool} {yes no : Plan π α} : Forall P yes → Forall P no →
      Forall P (.choice name test yes no)

/-- The action, or all actions that it chooses between, satisfy a predicate. -/
def Action.Forall {π α : Type} (P : α → Prop) : Action π α → Prop
  | .work a => P a
  | .choice _ _ yes no => yes.Forall P ∧ no.Forall P

/-- The action of a step, if it has one, satisfies a predicate. -/
def Node.Forall {π α : Type} (P : α → Prop) (n : Node (Action π α)) : Prop :=
  ∀ action, n.action = some action → action.Forall P

/-- What holds of all actions of a plan holds of the steps of its chain. -/
theorem Plan.Forall.build {π α : Type} {P : α → Prop} {plan : Plan π α} (h : plan.Forall P) :
    ∀ n ∈ plan.build.nodes, n.Forall P := by
  induction h with
  | terminal =>
    intro n hn action haction
    rw [List.mem_singleton.1 hn] at haction
    cases haction
  | act ha =>
    intro n hn action haction
    rw [List.mem_singleton.1 hn] at haction
    cases haction
    exact ha
  | chain _ ih =>
    intro n hn action haction
    rw [Plan.build, buildAll_eq_map] at hn
    rcases Chain.mem_nodes_concat hn with hnone | ⟨c, hc, hmem⟩
    · rw [hnone] at haction
      cases haction
    · obtain ⟨part, hpart, rfl⟩ := List.mem_map.1 hc
      exact ih part hpart n hmem action haction
  | critical _ ih =>
    intro n hn action haction
    rw [Plan.build, Chain.nodes_asCritical] at hn
    obtain ⟨n, hmem, rfl⟩ := List.mem_map.1 hn
    exact ih n hmem action haction
  | choice hyes hno _ _ =>
    intro n hn action haction
    rw [List.mem_singleton.1 hn] at haction
    cases haction
    exact ⟨hyes, hno⟩

end Reconcile
