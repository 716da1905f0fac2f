import Reconcile.Proofs.Step.Plans

/-!
# Terminals of chains

A terminal hides what follows it in its chain.  Every chain that a plan describes is proper: none
of its steps but the last is a terminal, since concatenation drops the others
(`Plan.isProper_build`).  So a proper chain consists of its working steps and at most one terminal
behind them, and a chain that is appended to it follows the working steps
(`Chain.nodes_append`).
-/

namespace Reconcile

namespace Chain

variable {α : Type} {c d : Chain α}

/-- No step but the last is a terminal. -/
def IsProper (c : Chain α) : Prop := ∀ n ∈ c.nodes.dropLast, n.isTerminal = false

/-- The steps with an action. -/
def working (c : Chain α) : List (Node α) := c.nodes.filter fun n => !n.isTerminal

theorem isTerminal_of_mem_working {n : Node α} (h : n ∈ c.working) : n.isTerminal = false := by
  have hworks := (List.mem_filter.1 h).2
  rwa [Bool.not_eq_true'] at hworks

/-- The last step of a chain, behind the others. -/
theorem exists_last (c : Chain α) : ∃ last, c.nodes = c.nodes.dropLast ++ [last] :=
  ⟨_, (List.dropLast_concat_getLast (List.cons_ne_nil c.head c.tail)).symm⟩

theorem filter_dropLast (h : c.IsProper) :
    c.nodes.dropLast.filter (fun n => !n.isTerminal) = c.nodes.dropLast := by
  rw [List.filter_eq_self]
  intro n hn
  rw [h n hn]
  rfl

/-- Behind the working steps of a proper chain stands at most one terminal. -/
theorem IsProper.nodes_eq (h : c.IsProper) :
    ∃ rest, c.nodes = c.working ++ rest ∧ (rest = [] ∨ ∃ n, rest = [n] ∧ n.action = none) := by
  obtain ⟨last, hlast⟩ := c.exists_last
  have hworking : c.working = c.nodes.dropLast ++ [last].filter fun n => !n.isTerminal := by
    rw [working, ← c.filter_dropLast h, ← List.filter_append, ← hlast]
  cases hterminal : last.isTerminal with
  | true =>
    refine ⟨[last], ?_, .inr ⟨last, rfl, Option.isNone_iff_eq_none.1 hterminal⟩⟩
    rw [hworking]
    simpa [hterminal] using hlast
  | false =>
    refine ⟨[], ?_, .inl rfl⟩
    rw [hworking]
    simpa [hterminal] using hlast

/-- A proper chain that is appended follows the working steps. -/
theorem nodes_append (c : Chain α) (hd : d.IsProper) :
    (c.append d).nodes = c.working ++ d.nodes := by
  obtain ⟨last, hlast⟩ := d.exists_last
  have hall : [c, d].flatMap nodes = (c.nodes ++ d.nodes.dropLast) ++ [last] := by
    rw [List.append_assoc, ← hlast]
    simp
  have hsplice : splice ([c, d].flatMap nodes) = c.working ++ d.nodes := by
    rw [hall, splice_concat, List.filter_append, d.filter_dropLast hd, List.append_assoc, ← hlast]
    rfl
  have hcons : ∃ n rest, c.working ++ d.nodes = n :: rest :=
    List.exists_cons_of_ne_nil (List.append_ne_nil_of_right_ne_nil _ (List.cons_ne_nil _ _))
  obtain ⟨n, rest, hnodes⟩ := hcons
  rw [append, concat, hsplice, hnodes, nodes_ofNodes_cons]

/-- Concatenation gives a proper chain. -/
theorem isProper_concat (cs : List (Chain α)) : (concat cs).IsProper := by
  unfold concat
  rcases List.eq_nil_or_concat (cs.flatMap nodes) with hnil | ⟨ns, last, hconcat⟩
  · rw [hnil]
    intro n hn
    cases hn
  · intro n hn
    have hsplice : splice (cs.flatMap nodes) = ns.filter (fun m => !m.isTerminal) ++ [last] := by
      rw [hconcat, List.concat_eq_append, splice_concat]
    have hnodes : (ofNodes (splice (cs.flatMap nodes))).nodes =
        ns.filter (fun m => !m.isTerminal) ++ [last] := by
      rw [hsplice]
      cases ns.filter fun m => !m.isTerminal <;> rfl
    rw [hnodes, List.dropLast_concat] at hn
    have hworks := (List.mem_filter.1 hn).2
    rwa [Bool.not_eq_true'] at hworks

theorem IsProper.asCritical (h : c.IsProper) : c.asCritical.IsProper := by
  intro n hn
  rw [nodes_asCritical, ← List.map_dropLast] at hn
  obtain ⟨n, hmem, rfl⟩ := List.mem_map.1 hn
  exact h n hmem

end Chain

/-- The chain of a plan is proper. -/
theorem Plan.isProper_build {π α : Type} : (plan : Plan π α) → plan.build.IsProper
  | .terminal => nofun
  | .act _ => nofun
  | .choice .. => nofun
  | .chain parts => by
    rw [build]
    exact Chain.isProper_concat _
  | .critical part => by
    rw [build]
    exact (isProper_build part).asCritical

theorem Plan.build_andThen {π α : Type} (p q : Plan π α) :
    (p.andThen q).build = p.build.append q.build := by
  rw [andThen, build, buildAll_eq_map]
  rfl

end Reconcile
