import Reconcile.Proofs.Engine.Interruption
import Reconcile.Proofs.Engine.Remainder
import Reconcile.Proofs.Sink.Indifference

/-!
# Runs of critical steps

The steps that a run may come to are those of its chain and, at any depth, those of the chains
that its actions name (`Behaviour.Within`).  If all of them are critical, terminals included, the
run does not look at its cancellation: it takes every step that a host takes which never cancels
anything (`Run.step_heedless`).

Two such runs in surroundings that differ only in what has been cancelled go through the same
states (`Passage.sameWith_of_critical`).  That the steps remain critical is an invariant of the
levels of a run, and that an activity belongs to the action of its step is one of its phase
(`Run.Stays`).
-/

namespace Reconcile

variable {𝕊 α κ σ : Type}

/-- What an action may come to, in whatever surroundings it is started and resumed. -/
inductive Behaviour.MayReach (behaviour : Behaviour α α κ σ) (action : α) : Progress α κ → Prop
  | starts (s : σ) : MayReach behaviour action (behaviour.start action s).1
  | resumes {activity : κ} (s : σ) : MayReach behaviour action (.paused activity) →
      MayReach behaviour action (behaviour.resume activity s).1

/-- The step belongs to a chain, or to a chain that an action of such a step may name. -/
inductive Behaviour.Within (behaviour : Behaviour α α κ σ) (c : Chain α) : Node α → Prop
  | own {node : Node α} : node ∈ c.nodes → Within behaviour c node
  | named {node other : Node α} {action : α} {result : Except Fault (Directive α)}
      {d : Chain α} : Within behaviour c node → node.action = some action →
      behaviour.MayReach action (.done result) → AsksFor (some result) d → other ∈ d.nodes →
      Within behaviour c other

/-- The same surroundings without cancellations. -/
def Host.heedless (host : Host 𝕊 σ) : Host 𝕊 σ :=
  { host.uncancelled with timerFirst := fun _ => true }

namespace Run

variable {host : Host 𝕊 σ} {policy : Retry.Policy 𝕊} {behaviour : Behaviour α α κ σ}
  {c : Chain α} {r begun : Run α κ} {node : Node α} {more : List (Node α)} {s : σ}
  {x : Progress α κ × σ}

/-! ## The steps that a run may come to -/

/-- A run has only steps in front of it that it may come to from a chain, and an activity is one
of the action of its step. -/
structure Stays (behaviour : Behaviour α α κ σ) (c : Chain α) (r : Run α κ) : Prop where
  levels : ∀ node ∈ r.levels.flatten, behaviour.Within c node
  acting : ∀ node more activity, r.phase = .acting node more activity →
    ∃ action, node.action = some action ∧ behaviour.MayReach action (.paused activity)

theorem stays_start (behaviour : Behaviour α α κ σ) (c : Chain α) :
    (start c : Run α κ).Stays behaviour c where
  levels node hnode := by
    have hnodes : (start c : Run α κ).levels.flatten = c.nodes := List.append_nil _
    rw [hnodes] at hnode
    exact .own hnode
  acting _ _ _ := nofun

theorem mem_levels_of_at (h : r.phase.At node more) : node ∈ r.levels.flatten := by
  rw [levels_of_at h]
  simp

/-- What a step of an action comes to is something that its action may come to. -/
theorem Acts.mayReach (hacts : Acts host behaviour r s node more begun x)
    (h : r.Stays behaviour c) :
    ∃ action, node.action = some action ∧ behaviour.MayReach action x.1 := by
  cases hacts with
  | starts _ haction => exact ⟨_, haction, .starts s⟩
  | resumes hphase =>
    obtain ⟨action, haction, hreach⟩ := h.acting _ _ _ hphase
    exact ⟨action, haction, .resumes s hreach⟩

theorem isStopped_heedless (host : Host 𝕊 σ) (node : Node α) (s : σ) :
    isStopped host.heedless node s = false :=
  isStopped_of_not_cancelled (host.isCancelled_uncancelled s)

variable [Retry.Seconds 𝕊] [Named α]

variable (host policy s) in
theorem Stays.step (h : r.Stays behaviour c) :
    (r.step host policy behaviour s).1.Stays behaviour c where
  levels node hnode := by
    by_cases hopen : r.phase.IsFinal
    · rw [step_of_final hopen] at hnode
      exact h.levels node hnode
    · by_contra hother
      have hold : node ∉ r.levels.flatten := fun hmem => hother (h.levels node hmem)
      refine (step_shift policy hopen).not_mem hold (fun d hasked hmem => ?_) hnode
      -- The answer that names the chain comes from the action of a step in front of the run.
      obtain ⟨result, hanswer⟩ : ∃ result, r.answer? host behaviour s = some result := by
        rcases hasked with hasked | hasked <;> exact ⟨_, hasked⟩
      obtain ⟨asker, more, begun, s', hacts⟩ := acts_of_answer hanswer
      obtain ⟨action, haction, hreach⟩ := hacts.mayReach h
      have hwithin := h.levels asker (mem_levels_of_at hacts.at_phase)
      exact hother (.named hwithin haction hreach (hanswer ▸ hasked) hmem)
  acting node more activity hphase := by
    obtain ⟨begun, s', hacts⟩ := acts_of_acting hphase
    exact hacts.mayReach h

/-! ## Runs that look at no cancellation -/

/-- A run that is not stopped does what it does when nothing is ever cancelled. -/
theorem step_heedless
    (hgo : ∀ node more, r.phase.At node more → isStopped host node s = false) :
    r.step host policy behaviour s = r.step host.heedless policy behaviour s := by
  unfold step
  cases hphase : r.phase with
  | ready rest =>
    cases rest with
    | nil => rfl
    | cons node more =>
      have hat : r.phase.At node more := hphase ▸ .ready
      simp only [hgo node more hat, isStopped_heedless]
      rfl
  | acting node more activity => rfl
  | waiting node more deadline =>
    have hat : r.phase.At node more := hphase ▸ .waiting deadline
    simp only [hgo node more hat, isStopped_heedless]
    rfl
  | ended | crashed => rfl

theorem step_heedless_ne_cancelled (h : r.result? ≠ some (.ok .cancelled)) :
    (r.step host.heedless policy behaviour s).1.result? ≠ some (.ok .cancelled) := by
  intro hcancelled
  obtain ⟨node, -, hstopped, -⟩ := stopped_of_step h hcancelled
  cases (isStopped_heedless host node s).symm.trans hstopped

end Run

/-! ## Whole runs -/

namespace Passage

open Run

variable [Retry.Seconds 𝕊] [Named α]
variable {host : Host 𝕊 σ} {policy : Retry.Policy 𝕊} {behaviour : Behaviour α α κ σ}
  {x y : Passage (Run.step host policy behaviour)} {c : Chain α}

/-- The same passage, in which the run looks at no cancellation. -/
def heedless (x : Passage (Run.step host policy behaviour)) :
    Passage (Run.step host.heedless policy behaviour) := ⟨x.first, x.found⟩

theorem stays (hstart : x.first = .start c) (n : Nat) : (x.state n).Stays behaviour c := by
  induction n with
  | zero =>
    have hfirst : x.state 0 = .start c := hstart
    rw [hfirst]
    exact stays_start behaviour c
  | succ n ih => exact ih.step host policy (x.found n)

section

variable (hstart : x.first = .start c)
  (hcritical : ∀ node, behaviour.Within c node → node.critical = true)

include hstart hcritical

/-- A run all of whose steps are critical takes the steps of one that looks at no
cancellation. -/
theorem step_of_critical (n : Nat) :
    Run.step host policy behaviour (x.state n) (x.found n) =
      Run.step host.heedless policy behaviour (x.state n) (x.found n) := by
  refine step_heedless fun node more hat => ?_
  have hnode := hcritical node ((x.stays hstart n).levels node (mem_levels_of_at hat))
  rw [isStopped, hnode]
  rfl

theorem state_heedless (n : Nat) : x.heedless.state n = x.state n := by
  induction n with
  | zero => rfl
  | succ n ih =>
    rw [state_succ, state_succ, ih, x.step_of_critical hstart hcritical n]
    rfl

theorem left_heedless (n : Nat) : x.heedless.left n = x.left n := by
  rw [left, left, x.state_heedless hstart hcritical, x.step_of_critical hstart hcritical n]
  rfl

/-- A run all of whose steps are critical is never stopped. -/
theorem ne_cancelled_of_critical (n : Nat) : (x.state n).result? ≠ some (.ok .cancelled) := by
  induction n with
  | zero =>
    have hfirst : x.state 0 = .start c := hstart
    rw [hfirst]
    exact nofun
  | succ n ih =>
    rw [state_succ, x.step_of_critical hstart hcritical n]
    exact step_heedless_ne_cancelled ih

/-- Two runs all of whose steps are critical go through the same states, if their surroundings
are alike but for what has been cancelled. -/
theorem sameWith_of_critical {Alike : σ → σ → Prop} (hhost : host.heedless.Ignores Alike)
    (hbehaviour : behaviour.Ignores Alike) (h : x.Alongside Alike y) (n : Nat) :
    SameWith Alike (x.state n, x.left n) (y.state n, y.left n) := by
  have hstart' : y.first = .start c := h.first ▸ hstart
  have hleft := x.left_heedless hstart hcritical
  have hleft' := y.left_heedless hstart' hcritical
  have halong : x.heedless.Alongside Alike y.heedless := by
    refine ⟨h.first, h.found, fun n halike => h.others n ?_⟩
    rwa [hleft, hleft'] at halike
  have hsame := halong.sameWith (fun r s s' halike => r.step_alike hhost hbehaviour policy halike) n
  rwa [x.state_heedless hstart hcritical, y.state_heedless hstart' hcritical, hleft, hleft']
    at hsame

end

end Passage

end Reconcile
