import Reconcile.Proofs.Engine.Passage
import Reconcile.Proofs.Engine.Remainder
import Reconcile.Proofs.Step.Assembly

/-!
# Runs of chains that plans describe

`Plan.Assembly` lists the laws of the chains that plans describe, and what they come to in a run.
When a run is in front of a terminal, nothing stands behind it, so a run that leaves a chain at a
terminal passes over no step.

That no level of a run hides a step behind a terminal is an invariant (`Run.HidesNothing`), as long
as the chains that actions name are described by plans as well (`Behaviour.Names`).
-/

namespace Reconcile

variable {𝕊 π α κ σ : Type}

/-- Whatever chain an action names, in whatever surroundings, has a property. -/
structure Behaviour.Names {β : Type} (behaviour : Behaviour β α κ σ) (P : Chain α → Prop) :
    Prop where
  start : ∀ action s c, AsksFor (behaviour.start action s).1.answer? c → P c
  resume : ∀ activity s c, AsksFor (behaviour.resume activity s).1.answer? c → P c

namespace Run

section

variable {host : Host 𝕊 σ} {policy : Retry.Policy 𝕊} {behaviour : Behaviour α α κ σ} {r : Run α κ}
  {c : Chain α} {s : σ}

/-- No level of the run hides a step behind a terminal. -/
def HidesNothing (r : Run α κ) : Prop :=
  ∀ level ∈ r.levels, ∀ n ∈ level.dropLast, n.isTerminal = false

theorem hidesNothing_start (h : c.IsProper) : (start c : Run α κ).HidesNothing := by
  intro level hlevel
  obtain rfl := List.mem_singleton.1 hlevel
  exact h

theorem hidesNothing_of_ready {rest : List (Node α)} (hphase : r.phase = .ready rest)
    (hrest : ∀ n ∈ rest.dropLast, n.isTerminal = false)
    (hpending : ∀ level ∈ r.pending, ∀ n ∈ level.dropLast, n.isTerminal = false) :
    r.HidesNothing := by
  intro level hlevel
  rw [levels, hphase] at hlevel
  rcases List.mem_cons.1 hlevel with rfl | hmem
  · exact hrest
  · exact hpending level hmem

theorem hidesNothing_of_levels_nil (h : r.levels = []) : r.HidesNothing := by
  intro level hlevel
  rw [h] at hlevel
  cases hlevel

/-- What hides nothing still hides nothing when its first step is gone. -/
theorem isTerminal_of_mem_dropLast_tail {node : Node α} {more : List (Node α)}
    (h : ∀ n ∈ (node :: more).dropLast, n.isTerminal = false) :
    ∀ n ∈ more.dropLast, n.isTerminal = false := by
  cases more with
  | nil => exact nofun
  | cons next more => exact fun n hn => h n (List.mem_cons_of_mem _ hn)

theorem mem_of_mem_kept {level more : List (Node α)} {pending : List (List (Node α))}
    (h : level ∈ kept more pending) : level = more ∨ level ∈ pending := by
  cases more with
  | nil => exact .inr h
  | cons node more => exact List.mem_cons.1 h

theorem asksFor_answer? {P : Chain α → Prop} (hnames : behaviour.Names P)
    (h : AsksFor (r.answer? host behaviour s) c) : P c := by
  have hresult : ∃ result, r.answer? host behaviour s = some result := by
    rcases h with h | h <;> exact ⟨_, h⟩
  obtain ⟨result, hanswer⟩ := hresult
  obtain ⟨node, more, begun, s', hacts⟩ := acts_of_answer hanswer
  rw [hacts.answer?_eq] at h
  generalize hx : ((.done result, s') : Progress α κ × σ) = x at hacts h
  cases hacts with
  | starts => exact hnames.start _ _ _ h
  | resumes => exact hnames.resume _ _ _ h

variable [Retry.Seconds 𝕊] [Named α]

variable (host policy s) in
/-- A step leaves nothing hidden, since a chain that an action names hides nothing either. -/
theorem HidesNothing.step (h : r.HidesNothing) (hnames : behaviour.Names Chain.IsProper) :
    (r.step host policy behaviour s).1.HidesNothing := by
  by_cases hopen : r.phase.IsFinal
  · rw [step_of_final hopen]
    exact h
  · have hshift : Shift (r.answer? host behaviour s) r (r.step host policy behaviour s).1 :=
      step_shift policy hopen
    have hproper : ∀ c, AsksFor (r.answer? host behaviour s) c → c.IsProper :=
      fun c hasks => asksFor_answer? hnames hasks
    generalize (r.step host policy behaviour s).1 = after at hshift ⊢
    cases hshift with
    | completed _ hphase | ended _ hphase | crashed hphase =>
      exact hidesNothing_of_levels_nil (by simp [levels, hphase])
    | stayed hbefore hafter =>
      rw [HidesNothing, hafter, ← hbefore]
      exact h
    | resumed hbefore hphase hpending =>
      refine hidesNothing_of_ready hphase ?_ ?_
      · exact h _ (by simp [hbefore])
      · exact fun level hlevel => h level (by simp_all)
    | closed _ hbefore hphase hpending =>
      refine hidesNothing_of_ready hphase (fun n hn => absurd hn List.not_mem_nil) ?_
      exact fun level hlevel => h level (by simp_all)
    | @proceeded node more _ hbefore hphase hpending =>
      have hcurrent := h (node :: more) (by simp [hbefore])
      refine hidesNothing_of_ready hphase (isTerminal_of_mem_dropLast_tail hcurrent) ?_
      exact fun level hlevel => h level (by simp_all)
    | @inserted node more c hanswer hbefore hphase hpending =>
      have hcurrent := h (node :: more) (by simp [hbefore])
      refine hidesNothing_of_ready hphase (hproper c (.inl hanswer)) fun level hlevel => ?_
      rcases mem_of_mem_kept (hpending ▸ hlevel) with rfl | hmem
      · exact isTerminal_of_mem_dropLast_tail hcurrent
      · exact h level (by simp [hbefore, hmem])
    | @branched node more c hanswer hbefore hphase hpending =>
      refine hidesNothing_of_ready hphase (hproper c (.inr hanswer)) fun level hlevel => ?_
      exact h level (by simp_all)

end

end Run

/-! ## Whole runs -/

namespace Passage

open Run

variable [Retry.Seconds 𝕊] [Named α]
variable {host : Host 𝕊 σ} {policy : Retry.Policy 𝕊} {behaviour : Behaviour α α κ σ}
  {x : Passage (Run.step host policy behaviour)} {c : Chain α}

theorem hidesNothing (hstart : x.first = .start c) (hc : c.IsProper)
    (hnames : behaviour.Names Chain.IsProper) (n : Nat) : (x.state n).HidesNothing := by
  induction n with
  | zero =>
    have hfirst : x.state 0 = .start c := hstart
    rw [hfirst]
    exact hidesNothing_start hc
  | succ n ih => exact ih.step host policy (x.found n) hnames

/-- Nothing stands behind a terminal that a run comes to. -/
theorem eq_nil_of_terminal (hstart : x.first = .start c) (hc : c.IsProper)
    (hnames : behaviour.Names Chain.IsProper) {n : Nat} {node : Node α} {more : List (Node α)}
    (hphase : (x.state n).phase = .ready (node :: more)) (hterminal : node.action = none) :
    more = [] := by
  cases more with
  | nil => rfl
  | cons next more =>
    have hlevel : node :: next :: more ∈ (x.state n).levels := by simp [levels, hphase]
    have hworks := x.hidesNothing hstart hc hnames n _ hlevel node List.mem_cons_self
    rw [Node.isTerminal, hterminal] at hworks
    cases hworks

end Passage

/-! ## The laws of plans -/

section

variable [Retry.Seconds 𝕊] [Named α]

/-- What is true of the chains that plans describe, and of runs of such chains. -/
structure Plan.Assembly (host : Host 𝕊 σ) (policy : Retry.Policy 𝕊)
    (behaviour : Behaviour (Action π α) (Action π α) κ σ) : Prop where
  /-- No step but the last is a terminal. -/
  proper : ∀ plan : Plan π α, ∀ n ∈ plan.build.nodes.dropLast, n.isTerminal = false
  /-- So nothing stands behind a terminal that a run comes to. -/
  linked : ∀ (x : Passage (Run.step host policy behaviour)) (plan : Plan π α),
    x.first = .start plan.build → ∀ n node more, (x.state n).phase = .ready (node :: more) →
      node.action = none → more = []
  /-- Concatenation keeps the steps with an action, in order and critical or not as they are, and
  the terminal behind the last part, if there is one. -/
  nodes : ∀ (parts : List (Plan π α)) (last : Plan π α),
    (chain (parts ++ [last])).build.nodes =
      (parts ++ [last]).flatMap (fun part => part.build.working) ++ last.build.closing
  /-- Nothing is concatenated to a terminal. -/
  empty : (chain [] : Plan π α).build = .terminal
  single : ∀ part : Plan π α, (chain [part]).build = part.build
  chain_chain : ∀ first second : List (Plan π α), second ≠ [] →
    (chain [chain first, chain second]).build = (chain (first ++ second)).build
  andThen_assoc : ∀ p q r : Plan π α,
    ((p.andThen q).andThen r).build = (p.andThen (q.andThen r)).build
  /-- A terminal in front of other parts can be left out, critical or not. -/
  leading : ∀ (first : Plan π α) (parts : List (Plan π α)), first.build.working = [] →
    parts ≠ [] → (chain (first :: parts)).build = (chain parts).build
  leading_terminal : ∀ parts : List (Plan π α),
    (chain (terminal :: parts)).build = (chain parts).build
  critical_critical : ∀ part : Plan π α, (critical (critical part)).build = (critical part).build
  critical_names : ∀ part : Plan π α, (critical part).build.names = part.build.names
  critical_length : ∀ part : Plan π α, (critical part).build.length = part.build.length
  critical_chain : ∀ parts : List (Plan π α), parts ≠ [] →
    (critical (chain parts)).build = (chain (parts.map critical)).build

/-- Plans obey the laws of concatenation, and no run of a plan hides a step behind a terminal. -/
theorem Plan.assembly {host : Host 𝕊 σ} {policy : Retry.Policy 𝕊}
    {behaviour : Behaviour (Action π α) (Action π α) κ σ}
    (hnames : behaviour.Names fun c => ∃ plan : Plan π α, c = plan.build) :
    Plan.Assembly host policy behaviour where
  proper plan := plan.isProper_build
  linked x plan hstart n node more hphase hterminal := by
    have hproper : behaviour.Names Chain.IsProper := by
      refine ⟨fun action s c hasks => ?_, fun activity s c hasks => ?_⟩
      · obtain ⟨named, rfl⟩ := hnames.start action s c hasks
        exact named.isProper_build
      · obtain ⟨named, rfl⟩ := hnames.resume activity s c hasks
        exact named.isProper_build
    exact x.eq_nil_of_terminal hstart plan.isProper_build hproper hphase hterminal
  nodes parts last := by
    rw [build_chain, List.map_append, List.map_singleton, Chain.nodes_concat]
    simp [List.flatMap_map]
  empty := build_chain []
  single part := by
    rw [build_chain]
    exact Chain.concat_singleton part.isProper_build
  chain_chain first second hne := by
    have hparts : second.map build ≠ [] := by simpa using hne
    rw [build_chain, build_chain, List.map_append, ← Chain.append_concat _ hparts]
    simp [build_chain, Chain.append]
  andThen_assoc p q r := by
    rw [build_andThen, build_andThen, build_andThen, build_andThen, Chain.append_assoc]
  leading first parts hworking hne := by
    rw [build_chain, build_chain]
    exact Chain.concat_cons_of_working hworking (by simpa using hne)
  leading_terminal parts := by
    rw [build_chain, build_chain]
    by_cases hne : parts = []
    · rw [hne]
      rfl
    · exact Chain.concat_cons_of_working rfl (by simpa using hne)
  critical_critical part := by
    rw [build, build]
    exact Chain.asCritical_asCritical _
  critical_names part := by
    rw [build]
    exact Chain.names_asCritical _
  critical_length part := by
    rw [build]
    exact Chain.length_asCritical _
  critical_chain parts hne := by
    have hcritical : (parts.map critical).map build = (parts.map build).map Chain.asCritical := by
      simp [build]
    rw [build_chain (parts.map critical), hcritical, build, build_chain]
    exact Chain.asCritical_concat (by simpa using hne)

end

/-! ### A walk with a detour -/

/-- An action that inserts a walk with a terminal behind it, and one that just goes on. -/
inductive Ramble
  | detour
  | walk

namespace Ramble

instance : Named Ramble where
  name
    | detour => "detour"
    | walk => "walk"

/-- A walk and a terminal. -/
def stretch : Plan Unit Ramble := (Plan.act walk).andThen .terminal

def behaviour : Behaviour (Action Unit Ramble) (Action Unit Ramble) Empty Nat where
  start
    | .work detour, now => (.done (.ok (.insert stretch.build)), now)
    | .work walk, now => (.done (.ok .proceed), now)
    | .choice _ test yes no, now =>
      (.done (.ok (.insert (if test () then yes.build else no.build))), now)
  resume activity := nomatch activity

theorem names : behaviour.Names fun c => ∃ plan : Plan Unit Ramble, c = plan.build where
  start action now c hasks := by
    match action with
    | .work detour =>
      rcases hasks with hinsert | hbranch
      · cases hinsert
        exact ⟨stretch, rfl⟩
      · cases hbranch
    | .work walk => rcases hasks with h | h <;> cases h
    | .choice _ test yes no =>
      rcases hasks with hinsert | hbranch
      · cases hinsert
        exact ⟨if test () then yes else no, by split <;> rfl⟩
      · cases hbranch
  resume activity := nomatch activity

/-- A detour with a terminal behind it, and then another walk.  The terminal is left out. -/
def route : Plan Unit Ramble := .chain [(Plan.act detour).andThen .terminal, stretch]

def passage : Passage (Run.step Errand.host Errand.policy behaviour) :=
  .among _ (.start route.build) 0 fun _ => id

/-- The run comes to the terminal of the inserted walk, and nothing stands behind it.  The terminal
in the middle of the route is gone, so that the walk behind it is not lost. -/
theorem route_linked :
    (∀ more, (passage.state 2).phase = .ready (⟨none, false⟩ :: more) → more = []) ∧
      (∃ more, (passage.state 2).phase = .ready (⟨none, false⟩ :: more)) ∧
      route.build.nodes =
        [⟨some (.work detour), false⟩, ⟨some (.work walk), false⟩, ⟨none, false⟩] ∧
      (passage.state 7).result? = some (.ok .completed) := by
  have hassembly : Plan.Assembly Errand.host Errand.policy behaviour := Plan.assembly names
  refine ⟨fun more hphase => ?_, ⟨[], rfl⟩, ?_, rfl⟩
  · exact hassembly.linked passage route rfl 2 ⟨none, false⟩ more hphase rfl
  · exact hassembly.nodes [(Plan.act detour).andThen .terminal] stretch

end Ramble

end Reconcile
