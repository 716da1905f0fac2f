import Mathlib.Data.ENat.Lattice
import Reconcile.Proofs.Engine.Passage
import Reconcile.Proofs.Retry.Delays
import Reconcile.Retry.Loop

/-!
# How often an operation is tried

An operation is called until it succeeds, and no more often than its policy permits.  What the
calls come to is given in advance, one result for each number (`Passage.Yields`), also for
calls that are never made.  Between two steps others may do what they like.

`Loop.Turn` lists what a step of a run can do.  At any moment a run agrees with what it has been
through (`Passage.Stands`): it is within a call, or in the wait after a call that has failed, or at
its end, and so far every wait has been between two calls.  That the run ends follows from what is
left of its budget (`Loop.size`).  `Passage.Tried` says what the whole run comes to.

A run that is driven alone goes through a passage as well (`Loop.driven`).
-/

namespace Reconcile.Retry

/-- What a run with retries has behind it: a call or a wait. -/
inductive Milestone (ε ρ : Type)
  | called (result : Except ε ρ)
  | waited (length : Span)

/-- Whether every delay of a policy can be computed, whatever is drawn. -/
def Policy.Affords {𝕊 σ : Type} [Seconds 𝕊] (p : Policy 𝕊) (clock : Clock 𝕊 σ) : Prop :=
  ∀ retry s, (p.delay retry .zero (clock.draw s).1).isSome

theorem Policy.affords_of_nonneg {σ : Type} {p : Policy Rat} {clock : Clock Rat σ}
    (hfactor : 0 ≤ p.factor) (hdraw : ∀ s, 0 ≤ (clock.draw s).1) : p.Affords clock :=
  fun retry s => Policy.delay_isSome hfactor retry .zero (hdraw s)

variable {𝕊 ι ε ρ σ : Type}

/-! ## What is expected of a run -/

/-- The number of the first call that succeeds, counted from one. -/
noncomputable def successAt (outcome : Nat → Except ε ρ) : ℕ∞ :=
  ⨅ k ∈ {k | (outcome k).isOk}, ((k + 1 : ℕ) : ℕ∞)

/-- A call for each wait and one more, with the waits between them, latest first. -/
def course (outcome : Nat → Except ε ρ) : (waits : List Span) → List (Milestone ε ρ)
  | [] => [.called (outcome 0)]
  | d :: waits => .called (outcome (waits.length + 1)) :: .waited d :: course outcome waits

/-- The course in front of its last call. -/
def courseBefore (outcome : Nat → Except ε ρ) : (waits : List Span) → List (Milestone ε ρ)
  | [] => []
  | d :: waits => .waited d :: course outcome waits

theorem called_courseBefore (outcome : Nat → Except ε ρ) (waits : List Span) :
    .called (outcome waits.length) :: courseBefore outcome waits = course outcome waits := by
  cases waits <;> rfl

/-- Whether a milestone is a call. -/
def Milestone.isCall : Milestone ε ρ → Bool
  | .called _ => true
  | .waited _ => false

theorem countP_course (outcome : Nat → Except ε ρ) (waits : List Span) :
    (course outcome waits).countP Milestone.isCall = waits.length + 1 := by
  induction waits with
  | nil => rfl
  | cons d waits ih => simp [course, Milestone.isCall, List.countP_cons, ih]

theorem countP_courseBefore (outcome : Nat → Except ε ρ) (waits : List Span) :
    (courseBefore outcome waits).countP Milestone.isCall = waits.length := by
  cases waits with
  | nil => rfl
  | cons d waits => simp [courseBefore, Milestone.isCall, countP_course]

theorem le_successAt {outcome : Nat → Except ε ρ} {k : Nat}
    (hfails : ∀ i < k, (outcome i).isOk = false) : ((k + 1 : ℕ) : ℕ∞) ≤ successAt outcome := by
  refine le_iInf₂ fun i hok => ?_
  have hle : k ≤ i := by
    by_contra hlt
    exact Bool.false_ne_true ((hfails i (not_le.1 hlt)).symm.trans hok)
  exact_mod_cast Nat.succ_le_succ hle

theorem successAt_eq {outcome : Nat → Except ε ρ} {k : Nat}
    (hfails : ∀ i < k, (outcome i).isOk = false) (hok : (outcome k).isOk) :
    successAt outcome = ((k + 1 : ℕ) : ℕ∞) :=
  le_antisymm (iInf₂_le k hok) (le_successAt hfails)

namespace Loop

/-! ## One step -/

/-- What a run has behind it after its next step. -/
def milestone? (clock : Clock 𝕊 σ) (op : Operation ι ε ρ σ) (l : Loop ι ε ρ) (s : σ) :
    Option (Milestone ε ρ) :=
  match l.stage with
  | .trying inner =>
    match (op.advance inner s).1 with
    | .inl _ => none
    | .inr result => some (.called result)
  | .waiting deadline => if deadline ≤ clock.now s then l.waits.head?.map .waited else none
  | .ended _ => none
  | .crashed => none

/-- The surroundings as the next step of a call leaves them. -/
def called (op : Operation ι ε ρ σ) (l : Loop ι ε ρ) (s : σ) : σ :=
  match l.stage with
  | .trying inner => (op.advance inner s).2
  | _ => s

/-- The run after a step, and what it has behind it with the step. -/
inductive Turn [Seconds 𝕊] (clock : Clock 𝕊 σ) (p : Policy 𝕊) (op : Operation ι ε ρ σ)
    (l : Loop ι ε ρ) (s : σ) : Loop ι ε ρ → Option (Milestone ε ρ) → Prop
  | goesOn {inner inner' : ι} : l.stage = .trying inner →
      Turn clock p op l s { l with stage := .trying inner' } none
  | succeeds {inner : ι} {a : ρ} : l.stage = .trying inner →
      Turn clock p op l s { l with stage := .ended (.ok a) } (some (.called (.ok a)))
  | fails {inner : ι} {e : ε} : l.stage = .trying inner → p.maxRetries ≤ l.retries →
      Turn clock p op l s { l with stage := .ended (.error e) } (some (.called (.error e)))
  | crashes {inner : ι} {e : ε} : l.stage = .trying inner → l.retries < p.maxRetries →
      p.delay (l.retries + 1) .zero (clock.draw (l.called op s)).1 = none →
      Turn clock p op l s { l with stage := .crashed } (some (.called (.error e)))
  | pauses {inner : ι} {e : ε} {d : Span} : l.stage = .trying inner →
      l.retries < p.maxRetries →
      p.delay (l.retries + 1) .zero (clock.draw (l.called op s)).1 = some d →
      Turn clock p op l s ⟨l.retries + 1, d :: l.waits,
          .waiting (clock.now (clock.draw (l.called op s)).2 + d.millisUp)⟩
        (some (.called (.error e)))
  | sleeps {deadline : Nat} : l.stage = .waiting deadline → clock.now s < deadline →
      Turn clock p op l s l none
  | wakes {deadline : Nat} : l.stage = .waiting deadline → deadline ≤ clock.now s →
      Turn clock p op l s { l with stage := .trying op.first } (l.waits.head?.map .waited)
  | rests : (∃ result, l.stage = .ended result) ∨ l.stage = .crashed → Turn clock p op l s l none

section

variable [Seconds 𝕊] (clock : Clock 𝕊 σ) (p : Policy 𝕊) (op : Operation ι ε ρ σ)
  (l : Loop ι ε ρ) (s : σ)

theorem step_turn : Turn clock p op l s (l.step clock p op s).1 (l.milestone? clock op s) := by
  cases hstage : l.stage with
  | trying inner =>
    rcases hadvance : op.advance inner s with ⟨inner' | e | a, s'⟩
    · simpa [step, milestone?, hstage, hadvance] using Turn.goesOn hstage
    · have hcalled : l.called op s = s' := by simp [called, hstage, hadvance]
      simp only [step, milestone?, hstage, hadvance, failed]
      split
      case isTrue hspent => exact .fails hstage hspent
      case isFalse hleft =>
        have hlt : l.retries < p.maxRetries := Nat.lt_of_not_le hleft
        cases hdelay : p.delay (l.retries + 1) .zero (clock.draw s').1 with
        | none => exact .crashes hstage hlt (hcalled ▸ hdelay)
        | some d =>
          rw [← hcalled] at hdelay ⊢
          exact .pauses hstage hlt hdelay
    · simpa [step, milestone?, hstage, hadvance] using Turn.succeeds hstage
  | waiting deadline =>
    by_cases hover : deadline ≤ clock.now s
    · simpa [step, milestone?, hstage, hover] using Turn.wakes hstage hover
    · simpa [step, milestone?, hstage, hover] using Turn.sleeps hstage (Nat.lt_of_not_le hover)
  | ended result => simpa [step, milestone?, hstage] using Turn.rests (.inl ⟨result, hstage⟩)
  | crashed => simpa [step, milestone?, hstage] using Turn.rests (.inr hstage)

end

/-! ## What is left of a budget -/

/-- A bound for the calls and waits that are left. -/
def size (p : Policy 𝕊) (l : Loop ι ε ρ) : Nat :=
  match l.stage with
  | .trying _ => 2 * (p.maxRetries - l.retries) + 1
  | .waiting _ => 2 * (p.maxRetries - l.retries) + 2
  | .ended _ => 0
  | .crashed => 0

section

variable [Seconds 𝕊] {clock : Clock 𝕊 σ} {p : Policy 𝕊} {op : Operation ι ε ρ σ}
  {l next : Loop ι ε ρ} {s : σ} {milestone : Option (Milestone ε ρ)}

/-- A step uses up what it has got behind itself, and anything else that changes the run in a
wait. -/
theorem Turn.size_cases (h : Turn clock p op l s next milestone) :
    next.size p < l.size p ∨
      milestone = none ∧ next.size p = l.size p ∧
        ∀ deadline, l.stage = .waiting deadline → next = l ∧ clock.now s < deadline := by
  cases h with
  | goesOn hstage => exact .inr ⟨rfl, by simp [size, hstage], by simp [hstage]⟩
  | succeeds hstage | fails hstage | crashes hstage => exact .inl (by simp [size, hstage])
  | pauses hstage hleft =>
    left
    simp only [size, hstage]
    omega
  | sleeps hstage hearly =>
    refine .inr ⟨rfl, rfl, fun deadline hwaiting => ⟨rfl, ?_⟩⟩
    obtain rfl : _ = deadline := Stage.waiting.inj (hstage.symm.trans hwaiting)
    exact hearly
  | wakes hstage => exact .inl (by simp [size, hstage])
  | rests hstage =>
    refine .inr ⟨rfl, rfl, fun deadline hwaiting => ?_⟩
    rw [hwaiting] at hstage
    obtain ⟨_, hended⟩ | hcrashed := hstage <;> contradiction

end

end Loop

end Reconcile.Retry

namespace Reconcile.Passage

open Retry

variable {𝕊 ι ε ρ σ : Type} [Seconds 𝕊]
variable {clock : Clock 𝕊 σ} {p : Policy 𝕊} {op : Operation ι ε ρ σ}
variable (x : Passage (Loop.step clock p op)) (outcome : Nat → Except ε ρ)

/-! ## The course of a run -/

/-- What a run has behind it after a step that it has not had behind it before. -/
def milestone? (n : Nat) : Option (Milestone ε ρ) :=
  (x.state n).milestone? clock op (x.found n)

/-- What a run has behind it in front of a step, latest first. -/
def milestones : Nat → List (Milestone ε ρ)
  | 0 => []
  | n + 1 => (x.milestone? n).toList ++ milestones n

/-- The number of calls that have ended in front of a step. -/
def callsBefore (n : Nat) : Nat := (x.milestones n).countP Milestone.isCall

/-- The surroundings in which the delay after a call is computed. -/
def afterCall (n : Nat) : σ := (x.state n).called op (x.found n)

/-- The results of the calls are those given in advance. -/
def Yields : Prop :=
  ∀ n result, x.milestone? n = some (.called result) → result = outcome (x.callsBefore n)

/-- Since step `m`, in which the call with index `i` has ended, a run has done nothing but wait
for the delay before the next one. -/
structure Pauses (i : Nat) (d : Span) (m n : Nat) : Prop where
  since : m < n
  called : x.milestone? m = some (.called (outcome i))
  number : x.callsBefore m = i
  computed : p.delay (i + 1) .zero (clock.draw (x.afterCall m)).1 = some d
  quiet : ∀ k, m < k → k < n → x.milestone? k = none

/-- A wait between two calls, which lasts at least for its delay. -/
structure Waits (i : Nat) (d : Span) (m n : Nat) : Prop extends x.Pauses outcome i d m n where
  elapsed : clock.now (clock.draw (x.afterCall m)).2 + d.millisUp ≤ clock.now (x.found n)
  waited : x.milestone? n = some (.waited d)

/-- The waits that a run has behind it. -/
structure HasWaited (waits : List Span) : Prop where
  length_le : waits.length ≤ p.maxRetries
  fails : ∀ i < waits.length, (outcome i).isOk = false
  waits : ∀ i d, waits.reverse[i]? = some d → ∃ m n, x.Waits outcome i d m n

/-- Where a run stands in front of a step, and what it has behind it. -/
inductive Stands (n : Nat) : Prop
  | trying {waits : List Span} {inner : ι} : x.state n = ⟨waits.length, waits, .trying inner⟩ →
      x.milestones n = courseBefore outcome waits → x.HasWaited outcome waits → Stands n
  | waiting {waits : List Span} {d : Span} {m : Nat} :
      x.state n = ⟨waits.length + 1, d :: waits,
        .waiting (clock.now (clock.draw (x.afterCall m)).2 + d.millisUp)⟩ →
      x.milestones n = course outcome waits → x.HasWaited outcome waits →
      waits.length < p.maxRetries → (outcome waits.length).isOk = false →
      x.Pauses outcome waits.length d m n → Stands n
  | ended {waits : List Span} :
      x.state n = ⟨waits.length, waits, .ended (outcome waits.length)⟩ →
      x.milestones n = course outcome waits → x.HasWaited outcome waits →
      ((outcome waits.length).isOk ∨ waits.length = p.maxRetries) → Stands n

variable {x outcome} {n : Nat}

theorem HasWaited.cons {waits : List Span} {d : Span} {m : Nat} (h : x.HasWaited outcome waits)
    (hlt : waits.length < p.maxRetries) (hfails : (outcome waits.length).isOk = false)
    (hwaits : x.Waits outcome waits.length d m n) : x.HasWaited outcome (d :: waits) := by
  refine ⟨hlt, ?_, ?_⟩
  · intro i hi
    rcases Nat.lt_succ_iff_lt_or_eq.1 hi with hi | rfl
    · exact h.fails i hi
    · exact hfails
  · intro i d' hd
    rw [List.reverse_cons, List.getElem?_append, List.length_reverse] at hd
    split at hd
    case isTrue => exact h.waits i d' hd
    case isFalse hlast =>
      rw [List.getElem?_singleton] at hd
      split at hd
      case isTrue hi =>
        obtain rfl : i = waits.length := by omega
        exact Option.some.inj hd ▸ ⟨m, n, hwaits⟩
      case isFalse => cases hd

theorem hasWaited_nil : x.HasWaited outcome [] := ⟨Nat.zero_le _, nofun, nofun⟩

theorem stands_zero (hfirst : x.first = .start op) : x.Stands outcome 0 := by
  have hstate : x.state 0 = ⟨([] : List Span).length, [], .trying op.first⟩ := hfirst
  exact .trying hstate rfl hasWaited_nil

theorem milestones_succ (x : Passage (Loop.step clock p op)) (n : Nat) :
    x.milestones (n + 1) = (x.milestone? n).toList ++ x.milestones n := rfl

variable (x n) in
theorem turn :
    Loop.Turn clock p op (x.state n) (x.found n) (x.state (n + 1)) (x.milestone? n) :=
  Loop.step_turn clock p op _ _

theorem milestones_of_none (h : x.milestone? n = none) :
    x.milestones (n + 1) = x.milestones n := by
  rw [milestones_succ, h]
  rfl

theorem milestones_of_some {milestone : Milestone ε ρ} (h : x.milestone? n = some milestone) :
    x.milestones (n + 1) = milestone :: x.milestones n := by
  rw [milestones_succ, h]
  rfl

section

variable {waits : List Span}

/-- A step within a call. -/
theorem stands_of_trying {inner : ι} (hyields : x.Yields outcome) (haffords : p.Affords clock)
    (hstate : x.state n = ⟨waits.length, waits, .trying inner⟩)
    (hbehind : x.milestones n = courseBefore outcome waits)
    (hwaited : x.HasWaited outcome waits) : x.Stands outcome (n + 1) := by
  have hnumber : x.callsBefore n = waits.length := by
    rw [callsBefore, hbehind, countP_courseBefore]
  -- A call that ends with the step is the one that the waits so far lead to.
  have hcall : ∀ result, x.milestone? n = some (.called result) →
      result = outcome waits.length ∧ x.milestones (n + 1) = course outcome waits := by
    intro result hcalled
    have hresult : result = outcome waits.length := hnumber ▸ hyields n result hcalled
    rw [milestones_of_some hcalled, hbehind, hresult, called_courseBefore]
    exact ⟨rfl, rfl⟩
  have hafter : x.afterCall n =
      Loop.called op ⟨waits.length, waits, .trying inner⟩ (x.found n) := by
    rw [afterCall, hstate]
  have hturn := x.turn n
  rw [hstate] at hturn
  generalize hnext : x.state (n + 1) = next at hturn
  generalize hmilestone : x.milestone? n = milestone at hturn
  cases hturn with
  | goesOn => exact .trying hnext ((milestones_of_none hmilestone).trans hbehind) hwaited
  | succeeds =>
    obtain ⟨hresult, hcourse⟩ := hcall _ hmilestone
    exact .ended (hresult ▸ hnext) hcourse hwaited (.inl (hresult ▸ rfl))
  | fails _ hspent =>
    obtain ⟨hresult, hcourse⟩ := hcall _ hmilestone
    exact .ended (hresult ▸ hnext) hcourse hwaited (.inr (hwaited.length_le.antisymm hspent))
  | crashes _ _ hnone => exact (Option.isSome_iff_ne_none.1 (haffords _ _) hnone).elim
  | pauses _ hleft hdelay =>
    obtain ⟨hresult, hcourse⟩ := hcall _ hmilestone
    rw [← hafter] at hdelay hnext
    refine .waiting hnext hcourse hwaited hleft (hresult ▸ rfl) ?_
    exact ⟨Nat.lt_succ_self n, hresult ▸ hmilestone, hnumber, hdelay, by omega⟩
  | sleeps hstage | wakes hstage => cases hstage
  | rests hstage => obtain ⟨_, hended⟩ | hcrashed := hstage <;> contradiction

/-- A step within a wait. -/
theorem stands_of_waiting {d : Span} {m : Nat}
    (hstate : x.state n = ⟨waits.length + 1, d :: waits,
      .waiting (clock.now (clock.draw (x.afterCall m)).2 + d.millisUp)⟩)
    (hbehind : x.milestones n = course outcome waits) (hwaited : x.HasWaited outcome waits)
    (hleft : waits.length < p.maxRetries) (hfails : (outcome waits.length).isOk = false)
    (hpauses : x.Pauses outcome waits.length d m n) : x.Stands outcome (n + 1) := by
  have hturn := x.turn n
  rw [hstate] at hturn
  generalize hnext : x.state (n + 1) = next at hturn
  generalize hmilestone : x.milestone? n = milestone at hturn
  cases hturn with
  | sleeps =>
    refine .waiting hnext ((milestones_of_none hmilestone).trans hbehind) hwaited hleft hfails ?_
    refine { hpauses with since := hpauses.since.trans (Nat.lt_succ_self n), quiet := ?_ }
    intro k hm hk
    rcases Nat.lt_succ_iff_lt_or_eq.1 hk with hk | rfl
    · exact hpauses.quiet k hm hk
    · exact hmilestone
  | wakes hstage helapsed =>
    cases hstage
    have hmore : x.HasWaited outcome (d :: waits) :=
      hwaited.cons hleft hfails ⟨hpauses, helapsed, hmilestone⟩
    have hcourse : x.milestones (n + 1) = courseBefore outcome (d :: waits) := by
      rw [milestones_of_some hmilestone, hbehind]
      rfl
    have hstate : x.state (n + 1) = ⟨(d :: waits).length, d :: waits, .trying op.first⟩ := hnext
    exact .trying hstate hcourse hmore
  | goesOn hstage | succeeds hstage | fails hstage | crashes hstage | pauses hstage =>
    cases hstage
  | rests hstage => obtain ⟨_, hended⟩ | hcrashed := hstage <;> contradiction

/-- A run at its end stays there. -/
theorem next_of_ended {retries : Nat} {result : Except ε ρ}
    (hstate : x.state n = ⟨retries, waits, .ended result⟩) :
    x.state (n + 1) = ⟨retries, waits, .ended result⟩ ∧ x.milestones (n + 1) = x.milestones n := by
  have hturn := x.turn n
  rw [hstate] at hturn
  generalize hnext : x.state (n + 1) = next at hturn ⊢
  generalize hmilestone : x.milestone? n = milestone at hturn
  cases hturn with
  | rests => exact ⟨rfl, milestones_of_none hmilestone⟩
  | goesOn hstage | succeeds hstage | fails hstage | crashes hstage | pauses hstage
  | sleeps hstage | wakes hstage => cases hstage

end

theorem Stands.step (h : x.Stands outcome n) (hyields : x.Yields outcome)
    (haffords : p.Affords clock) : x.Stands outcome (n + 1) := by
  cases h with
  | trying hstate hbehind hwaited =>
    exact stands_of_trying hyields haffords hstate hbehind hwaited
  | waiting hstate hbehind hwaited hleft hfails hpauses =>
    exact stands_of_waiting hstate hbehind hwaited hleft hfails hpauses
  | ended hstate hbehind hwaited hlast =>
    obtain ⟨hnext, hsame⟩ := next_of_ended hstate
    exact .ended hnext (hsame.trans hbehind) hwaited hlast

theorem stands (hfirst : x.first = .start op) (hyields : x.Yields outcome)
    (haffords : p.Affords clock) (n : Nat) : x.Stands outcome n := by
  induction n with
  | zero => exact stands_zero hfirst
  | succ n ih => exact ih.step hyields haffords

theorem Stands.retries_le (h : x.Stands outcome n) : (x.state n).retries ≤ p.maxRetries := by
  cases h with
  | trying hstate _ hwaited => exact hstate ▸ hwaited.length_le
  | waiting hstate _ _ hleft => exact hstate ▸ hleft
  | ended hstate _ hwaited => exact hstate ▸ hwaited.length_le

/-! ## Runs that end -/

/-- A run ends if its calls and its waits do. -/
theorem exists_stopped
    (hcalls : ∀ n inner, (x.state n).stage = .trying inner →
      ∃ k, n ≤ k ∧ ∃ result, x.milestone? k = some (.called result))
    (htime : ∀ n deadline, (x.state n).stage = .waiting deadline →
      ∃ k, n ≤ k ∧ deadline ≤ clock.now (x.found k)) :
    ∃ n, (∃ result, (x.state n).stage = .ended result) ∨ (x.state n).stage = .crashed := by
  have hsize : ∀ n, (x.state (n + 1)).size p ≤ (x.state n).size p := by
    intro n
    rcases (x.turn n).size_cases with hlt | ⟨-, heq, -⟩
    · exact Nat.le_of_lt hlt
    · exact Nat.le_of_eq heq
  apply x.exists_of_shrinks (Loop.size p) (P := fun l => (∃ result, l.stage = .ended result) ∨
    l.stage = .crashed) hsize
  intro n hopen
  cases hstage : (x.state n).stage with
  | trying inner =>
    obtain ⟨k, hk, result, hcalled⟩ := hcalls n inner hstage
    refine ⟨k, hk, ?_⟩
    rcases (x.turn k).size_cases with hlt | ⟨hnone, -⟩
    · exact hlt
    · rw [hcalled] at hnone
      cases hnone
  | waiting deadline =>
    refine x.exists_shrinks_of_rests (Loop.size p) (deadline ≤ clock.now ·) (fun k hk hsame => ?_)
      (htime n deadline hstage)
    rcases (x.turn k).size_cases with hlt | ⟨-, -, hsleeps⟩
    · exact .inl hlt
    · obtain ⟨hstays, hearly⟩ := hsleeps deadline (hsame ▸ hstage)
      exact .inr ⟨hstays, not_le.2 hearly⟩
  | ended result => exact (hopen (.inl ⟨result, hstage⟩)).elim
  | crashed => exact (hopen (.inr hstage)).elim

/-! ## The whole run -/

variable (x outcome) in
/-- What a run with retries does, whose waits are these, latest first. -/
structure Tried (waits : List Span) : Prop where
  /-- From some step on there is the result of the last call, and every wait has been between two
  calls. -/
  ends : ∃ n, ∀ k, n ≤ k → (x.state k).result? = some (outcome waits.length) ∧
    x.milestones k = course outcome waits ∧ x.callsBefore k = waits.length + 1
  /-- There are as many calls as it takes to succeed, unless the permitted number is smaller. -/
  calls : ((waits.length + 1 : ℕ) : ℕ∞) = min (successAt outcome) ((p.maxRetries + 1 : ℕ) : ℕ∞)
  /-- Every call but the last has failed. -/
  fails : ∀ i < waits.length, (outcome i).isOk = false
  /-- The last call has failed only if no retry was left. -/
  last : (outcome waits.length).isOk ∨ waits.length = p.maxRetries
  /-- Each wait follows the call with the same index, is as long as the policy says for the retry
  with the next one, and has been waited out before anything else happened. -/
  waits : ∀ i d, waits.reverse[i]? = some d → ∃ m n, x.Waits outcome i d m n
  /-- The counter of retries fits wherever the permitted number does. -/
  counter : ∀ limit, p.maxRetries ≤ limit → ∀ n, (x.state n).retries ≤ limit

theorem HasWaited.calls_eq {waits : List Span} (h : x.HasWaited outcome waits)
    (hlast : (outcome waits.length).isOk ∨ waits.length = p.maxRetries) :
    ((waits.length + 1 : ℕ) : ℕ∞) = min (successAt outcome) ((p.maxRetries + 1 : ℕ) : ℕ∞) := by
  have hle : ((waits.length + 1 : ℕ) : ℕ∞) ≤ ((p.maxRetries + 1 : ℕ) : ℕ∞) :=
    Nat.cast_le.2 (Nat.succ_le_succ h.length_le)
  rcases hlast with hok | hspent
  · rw [successAt_eq h.fails hok, min_eq_left hle]
  · rw [← hspent, min_eq_right (le_successAt h.fails)]

/-- An operation whose calls return is called until it succeeds, and at most once more than
there are retries, in a run that ends. -/
theorem tried (hfirst : x.first = .start op) (hyields : x.Yields outcome)
    (hcalls : ∀ n inner, (x.state n).stage = .trying inner →
      ∃ k, n ≤ k ∧ ∃ result, x.milestone? k = some (.called result))
    (htime : ∀ n deadline, (x.state n).stage = .waiting deadline →
      ∃ k, n ≤ k ∧ deadline ≤ clock.now (x.found k))
    (haffords : p.Affords clock) : ∃ waits, x.Tried outcome waits := by
  have hstands : ∀ n, x.Stands outcome n := stands hfirst hyields haffords
  obtain ⟨n, hstopped⟩ := exists_stopped hcalls htime
  cases hstands n with
  | trying hstate | waiting hstate => simp [hstate] at hstopped
  | @ended waits hstate hbehind hwaited hlast =>
    have hkept : ∀ k, n ≤ k → x.state k = ⟨waits.length, waits, .ended (outcome waits.length)⟩ ∧
        x.milestones k = course outcome waits := by
      intro k hk
      induction k, hk using Nat.le_induction with
      | base => exact ⟨hstate, hbehind⟩
      | succ k hk ih =>
        obtain ⟨hnext, hsame⟩ := next_of_ended ih.1
        exact ⟨hnext, hsame.trans ih.2⟩
    refine ⟨waits, ⟨n, fun k hk => ?_⟩, hwaited.calls_eq hlast, hwaited.fails, hlast,
      hwaited.waits, fun limit hlimit k => (hstands k).retries_le.trans hlimit⟩
    obtain ⟨hended, hcourse⟩ := hkept k hk
    refine ⟨by rw [hended]; rfl, hcourse, ?_⟩
    rw [callsBefore, hcourse, countP_course]

end Reconcile.Passage

/-! ## Runs that are driven -/

namespace Reconcile.Retry.Loop

variable {𝕊 ι ε ρ σ : Type} [Seconds 𝕊]
variable (clock : Clock 𝕊 σ) (sleep : Nat → σ → σ) (p : Policy 𝕊) (op : Operation ι ε ρ σ)
  (l : Loop ι ε ρ) (s : σ)

omit [Seconds 𝕊] in
/-- The surroundings in which a driven run takes its next step: in front of the end of a wait time
has passed up to its deadline. -/
def slept : σ :=
  match l.stage with
  | .waiting deadline => sleep deadline s
  | .trying _ | .ended _ | .crashed => s

theorem run_succ (fuel : Nat) : run clock sleep p op (fuel + 1) l s =
    run clock sleep p op fuel (l.step clock p op (l.slept sleep s)).1
      (l.step clock p op (l.slept sleep s)).2 := by
  cases hstage : l.stage with
  | trying | waiting => simp only [run, slept, hstage]
  | ended | crashed =>
    have hrests : ∀ fuel, run clock sleep p op fuel l s = (l, s) := by
      intro fuel
      cases fuel <;> simp only [run, hstage]
    have hstep : l.step clock p op (l.slept sleep s) = (l, s) := by
      simp only [step, slept, hstage]
    rw [hstep, hrests, hrests]

/-- One more step of a run is taken where the run has come to. -/
theorem run_succ_last (fuel : Nat) : run clock sleep p op (fuel + 1) l s =
    (run clock sleep p op fuel l s).1.step clock p op
      ((run clock sleep p op fuel l s).1.slept sleep (run clock sleep p op fuel l s).2) := by
  induction fuel generalizing l s with
  | zero => exact run_succ clock sleep p op l s 0
  | succ fuel ih => rw [run_succ, ih, ← run_succ]

/-- The passage of a run that is driven. -/
def driven : Passage (step clock p op) where
  first := l
  found n := (run clock sleep p op n l s).1.slept sleep (run clock sleep p op n l s).2

/-- A run that is driven comes to where its passage is. -/
theorem state_driven (n : Nat) :
    (driven clock sleep p op l s).state n = (run clock sleep p op n l s).1 := by
  induction n with
  | zero => rfl
  | succ n ih => rw [Passage.state_succ, ih, run_succ_last, driven]

/-- Driven runs do not wait for ever, if time passes up to any deadline. -/
theorem elapsed_driven (hsleep : ∀ deadline s, deadline ≤ clock.now (sleep deadline s)) {n : Nat}
    {deadline : Nat} (h : ((driven clock sleep p op l s).state n).stage = .waiting deadline) :
    deadline ≤ clock.now ((driven clock sleep p op l s).found n) := by
  rw [state_driven] at h
  simp only [driven, slept, h]
  exact hsleep deadline _

end Reconcile.Retry.Loop

namespace Reconcile.Retry.Latch

/-! A latch can be lifted from the first millisecond on. -/

def clock : Clock Rat Nat := ⟨id, fun now => (1, now)⟩

def policy : Policy Rat := ⟨3, .ofMillis 2, .ofSeconds 1, 2⟩

def lift : Operation Unit Unit Unit Nat :=
  ⟨(), fun _ now => (.inr (if now = 0 then .error () else .ok ()), now)⟩

/-- A millisecond goes by with each step. -/
def passage : Passage (Loop.step clock policy lift) := ⟨.start lift, id⟩

def outcome : Nat → Except Unit Unit
  | 0 => .error ()
  | _ + 1 => .ok ()

theorem milestone?_of_trying {n : Nat} (h : (passage.state n).stage = .trying ()) :
    passage.milestone? n = some (.called (if n = 0 then .error () else .ok ())) := by
  rw [Passage.milestone?, Loop.milestone?, h]
  rfl

theorem callsBefore_succ_pos (n : Nat) : 0 < passage.callsBefore (n + 1) := by
  induction n with
  | zero => exact Nat.zero_lt_one
  | succ n ih =>
    rw [Passage.callsBefore, Passage.milestones_succ, List.countP_append]
    exact Nat.add_pos_right _ ih

theorem yields_outcome : passage.Yields outcome := by
  intro n result hcalled
  have hresult : result = if n = 0 then .error () else .ok () := by
    cases hstage : (passage.state n).stage with
    | trying =>
      rw [milestone?_of_trying hstage] at hcalled
      exact (Milestone.called.inj (Option.some.inj hcalled)).symm
    | waiting | ended | crashed =>
      rw [Passage.milestone?, Loop.milestone?, hstage] at hcalled
      simp at hcalled
  cases n with
  | zero => exact hresult
  | succ n =>
    rw [hresult, ← Nat.succ_pred_eq_of_pos (callsBefore_succ_pos n)]
    rfl

/-- The latch is lifted with the second call, after one wait. -/
theorem lifted : ∃ d, passage.Tried outcome [d] := by
  have hcalls : ∀ n inner, (passage.state n).stage = .trying inner →
      ∃ k, n ≤ k ∧ ∃ result, passage.milestone? k = some (.called result) :=
    fun n _ hstage => ⟨n, le_rfl, _, milestone?_of_trying hstage⟩
  have htime : ∀ n deadline, (passage.state n).stage = .waiting deadline →
      ∃ k, n ≤ k ∧ deadline ≤ clock.now (passage.found k) :=
    fun n deadline _ => ⟨max n deadline, le_max_left _ _, le_max_right _ _⟩
  have haffords : policy.Affords clock :=
    Policy.affords_of_nonneg (by decide) fun _ => (by decide : (0 : Rat) ≤ 1)
  obtain ⟨waits, htried⟩ := Passage.tried rfl yields_outcome hcalls htime haffords
  have hsuccess : successAt outcome = ((1 + 1 : ℕ) : ℕ∞) :=
    successAt_eq (fun i hi => by obtain rfl := Nat.lt_one_iff.1 hi; rfl) rfl
  have hlength : waits.length + 1 = 2 := by
    have hcounted := htried.calls
    rw [hsuccess, min_eq_left (Nat.cast_le.2 (by decide))] at hcounted
    exact Nat.cast_inj.1 hcounted
  obtain ⟨d, rfl⟩ := List.length_eq_one_iff.1 (Nat.succ.inj hlength)
  exact ⟨d, htried⟩

end Reconcile.Retry.Latch
