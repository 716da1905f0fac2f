import Reconcile.Proofs.Step.Terminals

/-!
# Laws of concatenation

A chain is told by its working steps and by the terminal behind them, if there is one
(`Chain.closing`).  Concatenation collects the working steps of all chains in order and takes the
terminal of the last one (`Chain.nodes_concat`).  Every law of concatenation is read off this, for
two chains are equal as soon as they have the same steps.

The laws hold of all chains, with one exception: a chain by itself is left as it is only if it hides
no steps behind a terminal.  The chains of plans never do (`Plan.isProper_build`).
-/

namespace Reconcile

namespace Chain

variable {α : Type} {c d : Chain α} {cs ds : List (Chain α)}

/-- The terminal at the end of a chain, if it ends with one. -/
def closing (c : Chain α) : List (Node α) := c.nodes.getLast?.toList.filter Node.isTerminal

/-- Chains with the same steps are equal. -/
theorem nodes_injective : Function.Injective (nodes : Chain α → List (Node α)) := by
  intro c d h
  rw [← ofNodes_nodes c, h, ofNodes_nodes]

theorem nodes_ofNodes {ns : List (Node α)} (h : ns ≠ []) : (ofNodes ns).nodes = ns := by
  obtain ⟨n, rest, rfl⟩ := List.exists_cons_of_ne_nil h
  rfl

theorem closing_of_nodes {ns : List (Node α)} {last : Node α} (h : c.nodes = ns ++ [last]) :
    c.closing = [last].filter Node.isTerminal := by
  rw [closing, h, List.getLast?_concat]
  rfl

theorem working_of_nodes {ns : List (Node α)} {last : Node α} (h : c.nodes = ns ++ [last]) :
    c.working =
      ns.filter (fun n => !n.isTerminal) ++ [last].filter fun n => !n.isTerminal := by
  rw [working, h, List.filter_append]

/-- The working steps and the terminal behind them are all there is to a proper chain. -/
theorem IsProper.nodes_eq_append (h : c.IsProper) : c.nodes = c.working ++ c.closing := by
  obtain ⟨last, hlast⟩ := c.exists_last
  rw [working_of_nodes hlast, closing_of_nodes hlast, c.filter_dropLast h, List.append_assoc]
  cases hterminal : last.isTerminal <;> simpa [hterminal] using hlast

/-! ## What a concatenation consists of -/

/-- A concatenation consists of the working steps of its parts, in order, and of the terminal at the
end of the last part. -/
theorem nodes_concat (cs : List (Chain α)) (d : Chain α) :
    (concat (cs ++ [d])).nodes = (cs ++ [d]).flatMap working ++ d.closing := by
  obtain ⟨last, hlast⟩ := d.exists_last
  have hall : (cs ++ [d]).flatMap nodes = (cs.flatMap nodes ++ d.nodes.dropLast) ++ [last] := by
    rw [List.flatMap_append, List.flatMap_singleton, List.append_assoc, ← hlast]
  have hsplice : splice ((cs ++ [d]).flatMap nodes) =
      (cs.flatMap nodes ++ d.nodes.dropLast).filter (fun n => !n.isTerminal) ++ [last] := by
    rw [hall, splice_concat]
  have hparts : (cs.flatMap nodes).filter (fun n => !n.isTerminal) = cs.flatMap working :=
    List.filter_flatMap ..
  rw [concat, nodes_ofNodes (by rw [hsplice]; simp), hsplice, List.filter_append, hparts,
    List.flatMap_append, List.flatMap_singleton, working_of_nodes hlast, closing_of_nodes hlast]
  cases hterminal : last.isTerminal <;> simp [hterminal]

theorem exists_append_of_ne_nil (h : cs ≠ []) : ∃ ds d, cs = ds ++ [d] :=
  ⟨_, _, (List.dropLast_concat_getLast h).symm⟩

theorem filter_closing (c : Chain α) : c.closing.filter (fun n => !n.isTerminal) = [] := by
  rw [List.filter_eq_nil_iff]
  intro n hn
  simp [(List.mem_filter.1 hn).2]

theorem working_concat (cs : List (Chain α)) : (concat cs).working = cs.flatMap working := by
  by_cases hnil : cs = []
  · rw [hnil]
    rfl
  · obtain ⟨ds, d, rfl⟩ := exists_append_of_ne_nil hnil
    have hworking : ((ds ++ [d]).flatMap working).filter (fun n => !n.isTerminal) =
        (ds ++ [d]).flatMap working := by
      rw [List.filter_eq_self]
      intro n hn
      obtain ⟨c, -, hc⟩ := List.mem_flatMap.1 hn
      rw [isTerminal_of_mem_working hc]
      rfl
    rw [working, nodes_concat, List.filter_append, filter_closing, List.append_nil, hworking]

theorem closing_concat (cs : List (Chain α)) (d : Chain α) :
    (concat (cs ++ [d])).closing = d.closing := by
  obtain ⟨last, hlast⟩ := d.exists_last
  have hclosing : d.closing = [last].filter Node.isTerminal := closing_of_nodes hlast
  cases hterminal : last.isTerminal with
  | true =>
    have hd : d.closing = [last] := by rw [hclosing]; simp [hterminal]
    rw [closing, nodes_concat, hd, List.getLast?_concat]
    simp [hterminal]
  | false =>
    have hd : d.closing = [] := by rw [hclosing]; simp [hterminal]
    have hworks : ∀ n ∈ (cs ++ [d]).flatMap working, n.isTerminal = false := by
      intro n hn
      obtain ⟨c, -, hc⟩ := List.mem_flatMap.1 hn
      exact isTerminal_of_mem_working hc
    rw [closing, nodes_concat, hd, List.append_nil, List.filter_eq_nil_iff]
    intro n hn
    rw [hworks n (List.mem_of_getLast? (Option.mem_toList.1 hn))]
    exact Bool.false_ne_true

/-! ## Laws -/

theorem concat_singleton (h : c.IsProper) : concat [c] = c := by
  apply nodes_injective
  have hnodes : (concat ([] ++ [c])).nodes = ([] ++ [c]).flatMap working ++ c.closing :=
    nodes_concat [] c
  rw [List.nil_append, List.flatMap_singleton] at hnodes
  rw [hnodes, ← h.nodes_eq_append]

theorem nodes_append_eq (c d : Chain α) :
    (c.append d).nodes = c.working ++ (d.working ++ d.closing) := by
  have hnodes : (concat ([c] ++ [d])).nodes = ([c] ++ [d]).flatMap working ++ d.closing :=
    nodes_concat [c] d
  simpa [append] using hnodes

/-- Concatenating in two parts comes to the same as concatenating at once. -/
theorem append_concat (cs : List (Chain α)) (hne : ds ≠ []) :
    (concat cs).append (concat ds) = concat (cs ++ ds) := by
  obtain ⟨es, e, rfl⟩ := exists_append_of_ne_nil hne
  apply nodes_injective
  rw [nodes_append_eq, working_concat, working_concat, closing_concat, ← List.append_assoc cs,
    nodes_concat]
  simp

theorem append_assoc (a b c : Chain α) : (a.append b).append c = a.append (b.append c) := by
  apply nodes_injective
  have hfirst : (a.append b).working = a.working ++ b.working := by
    simpa [append] using working_concat [a, b]
  have hsecond : (b.append c).working = b.working ++ c.working := by
    simpa [append] using working_concat [b, c]
  have hclosing : (b.append c).closing = c.closing := closing_concat [b] c
  rw [nodes_append_eq, nodes_append_eq, hfirst, hsecond, hclosing]
  simp

/-- A part without working steps can be left out, unless it is the last. -/
theorem concat_cons_of_working (hc : c.working = []) (hne : cs ≠ []) :
    concat (c :: cs) = concat cs := by
  obtain ⟨es, e, rfl⟩ := exists_append_of_ne_nil hne
  apply nodes_injective
  rw [← List.cons_append, nodes_concat, nodes_concat, List.cons_append, List.flatMap_cons, hc,
    List.nil_append]

/-! ## Critical chains -/

theorem asCritical_asCritical (c : Chain α) : c.asCritical.asCritical = c.asCritical := by
  apply nodes_injective
  simp [Node.asCritical]

theorem working_asCritical (c : Chain α) :
    c.asCritical.working = c.working.map Node.asCritical := by
  rw [working, nodes_asCritical, List.filter_map]
  rfl

theorem closing_asCritical (c : Chain α) :
    c.asCritical.closing = c.closing.map Node.asCritical := by
  rw [closing, closing, nodes_asCritical, List.getLast?_map, Option.toList_map, List.filter_map]
  rfl

theorem asCritical_concat (hne : cs ≠ []) :
    (concat cs).asCritical = concat (cs.map asCritical) := by
  obtain ⟨es, e, rfl⟩ := exists_append_of_ne_nil hne
  apply nodes_injective
  have hparts : (es ++ [e]).map asCritical = es.map asCritical ++ [e.asCritical] := by simp
  rw [hparts, nodes_asCritical, nodes_concat, nodes_concat, closing_asCritical, ← hparts,
    List.map_append, List.map_flatMap, List.flatMap_map]
  simp only [working_asCritical]

theorem names_asCritical [Named α] (c : Chain α) : c.asCritical.names = c.names := by
  rw [names, nodes_asCritical, List.map_map]
  rfl

theorem length_asCritical (c : Chain α) : c.asCritical.length = c.length := by
  rw [length, nodes_asCritical, List.length_map]
  rfl

end Chain

theorem Plan.build_chain {π α : Type} (parts : List (Plan π α)) :
    (chain parts).build = .concat (parts.map build) := by
  rw [build, buildAll_eq_map]

end Reconcile
