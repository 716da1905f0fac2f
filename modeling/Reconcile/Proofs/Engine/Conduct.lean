import Reconcile.Proofs.Engine.Passage
import Reconcile.Proofs.Engine.Remainder
import Reconcile.Proofs.Step.Occurrences

/-!
# Runs in which only choices insert

The actions of a plan may answer anything but a chain, and each of its choices inserts one of its
two alternatives (`Behaviour.Conducts`).  Nothing else is known of the answers, which may be other
ones on every call.  `Run.Acts.conducted` is the inversion of a step in an action of such a plan.

Such a run ends in any passage in which the actions under way answer and the waits are over some
time (`Passage.exists_final`).  A chain that is inserted weighs less than the choice that it
replaces, and retries of a step are paid for by what is left of its budget, so both together become
smaller with every step that does not just linger (`Run.size`).
-/

namespace Reconcile

variable {𝕊 π α κ σ : Type}

/-- A choice inserts one of its alternatives at once, and nothing else asks for a chain. -/
structure Behaviour.Conducts (behaviour : Behaviour (Action π α) (Action π α) κ σ) : Prop where
  choice : ∀ name test yes no s, ∃ chosen s', (chosen = yes ∨ chosen = no) ∧
    behaviour.start (.choice name test yes no) s = (.done (.ok (.insert chosen.build)), s')
  work : ∀ a s c, ¬ AsksFor (behaviour.start (.work a) s).1.answer? c
  resume : ∀ activity s c, ¬ AsksFor (behaviour.resume activity s).1.answer? c

namespace Run

section

variable [Retry.Seconds 𝕊] [Named α]
variable {host : Host 𝕊 σ} {policy : Retry.Policy 𝕊} {begun : Run α κ} {node : Node α}
  {more : List (Node α)} {x : Progress α κ × σ}

/-- What a run comes to with an action that asks for no chain. -/
inductive Settles (policy : Retry.Policy 𝕊) (begun : Run α κ) (node : Node α)
    (more : List (Node α)) (answer : Option (Except Fault (Directive α))) : Run α κ → Prop
  | pauses {activity : κ} : answer = none →
      Settles policy begun node more answer { begun with phase := .acting node more activity }
  | ends {phase : Phase α κ} : phase.IsFinal →
      Settles policy begun node more answer { begun with phase := phase }
  | proceeds : Settles policy begun node more answer (begun.goTo more)
  | waits {deadline : Nat} {delay : Span} : begun.retries < policy.maxRetries →
      Settles policy begun node more answer ⟨begun.retries + 1, begun.pending,
        .waiting node more deadline, .waited node delay :: begun.journal⟩

theorem settles (h : ∀ c, ¬ AsksFor x.1.answer? c) :
    Settles policy begun node more x.1.answer? (begun.progressed host policy node more x).1 := by
  obtain ⟨progress, s⟩ := x
  match progress with
  | .paused activity => exact .pauses rfl
  | .done (.error _) | .done (.ok .terminate) => exact .ends trivial
  | .done (.ok .proceed) => exact .proceeds
  | .done (.ok (.insert c)) => exact (h c (.inl rfl)).elim
  | .done (.ok (.branch c)) => exact (h c (.inr rfl)).elim
  | .done (.ok (.retryAfter requested)) =>
    simp only [progressed, follow, retry]
    split
    case isTrue => exact .ends trivial
    case isFalse hleft =>
      split
      · exact .ends trivial
      · exact .waits (Nat.lt_of_not_le hleft)

end

variable [Retry.Seconds 𝕊] [Named α]
variable {host : Host 𝕊 σ} {policy : Retry.Policy 𝕊}
  {behaviour : Behaviour (Action π α) (Action π α) κ σ} {r begun : Run (Action π α) κ}
  {node : Node (Action π α)} {more : List (Node (Action π α))} {s : σ}
  {x : Progress (Action π α) κ × σ}

variable (policy) in
/-- A step in an action starts a choice, which is over with the step, or it settles. -/
theorem Acts.conducted (h : Acts host behaviour r s node more begun x)
    (hconducts : behaviour.Conducts) :
    (∃ name test yes no chosen, node.action = some (.choice name test yes no) ∧
      (chosen = yes ∨ chosen = no) ∧ r.phase = .ready (node :: more) ∧
      (begun.progressed host policy node more x).1 =
        ⟨0, kept more r.pending, .ready chosen.build.nodes, .invoked node :: r.journal⟩) ∨
    Settles policy begun node more x.1.answer? (begun.progressed host policy node more x).1 ∧
      (r.phase = .ready (node :: more) → ∃ a, node.action = some (.work a)) := by
  cases h with
  | @starts action hphase haction hgo =>
    cases action with
    | choice name test yes no =>
      obtain ⟨chosen, s', hchosen, hstart⟩ := hconducts.choice name test yes no s
      refine .inl ⟨name, test, yes, no, chosen, haction, hchosen, hphase, ?_⟩
      rw [hstart]
      exact keep_goTo _ more chosen.build.nodes
    | work a => exact .inr ⟨settles (hconducts.work a s), fun _ => ⟨a, haction⟩⟩
  | resumes hphase =>
    refine .inr ⟨settles (hconducts.resume _ s), fun hready => ?_⟩
    cases hphase.symm.trans hready

/-! ## What is left of a run -/

/-- The weight of levels: that of their steps, and one more for each level. -/
def weightOfLevels : List (List (Node (Action π α))) → Nat
  | [] => 0
  | level :: pending => 1 + weightOf level + weightOfLevels pending

/-- The weight of what a run may still come to. -/
def weight (r : Run (Action π α) κ) : Nat := weightOfLevels r.levels

/-- What a run may still do before it leaves the step that it is at. -/
def leeway (limit : Nat) (r : Run (Action π α) κ) : Nat :=
  match r.phase with
  | .waiting .. => 3 * (limit - r.retries) + 3
  | .ready _ => 3 * (limit - r.retries) + 2
  | .acting .. => 3 * (limit - r.retries) + 1
  | .ended _ | .crashed => 0

/-- What is left of a run. -/
def size (limit : Nat) (r : Run (Action π α) κ) : Nat :=
  r.weight * (3 * limit + 4) + r.leeway limit

section

omit [Retry.Seconds 𝕊] [Named α]

variable {limit : Nat} {r' : Run (Action π α) κ}

theorem leeway_le (r : Run (Action π α) κ) : r.leeway limit ≤ 3 * limit + 3 := by
  unfold leeway
  split <;> omega

theorem size_lt_of_weight (h : r'.weight < r.weight) : r'.size limit < r.size limit := by
  have hleeway : r'.leeway limit ≤ 3 * limit + 3 := r'.leeway_le
  have hweight : (r'.weight + 1) * (3 * limit + 4) ≤ r.weight * (3 * limit + 4) :=
    Nat.mul_le_mul_right _ h
  rw [Nat.succ_mul] at hweight
  rw [size, size]
  omega

theorem size_lt_of_leeway (hweight : r'.weight = r.weight) (h : r'.leeway limit < r.leeway limit) :
    r'.size limit < r.size limit := by
  rw [size, size, hweight]
  exact Nat.add_lt_add_left h _

theorem weight_of_levels {level : List (Node (Action π α))}
    {pending : List (List (Node (Action π α)))} (h : r.levels = level :: pending) :
    r.weight = 1 + weightOf level + weightOfLevels pending := by
  rw [weight, h, weightOfLevels]

theorem weight_of_final (h : r.phase.IsFinal) : r.weight = 0 := by
  cases hphase : r.phase with
  | ended | crashed => simp [weight, weightOfLevels, levels, hphase]
  | ready | acting | waiting =>
    rw [hphase] at h
    exact h.elim

theorem weight_pos (h : ¬ r.phase.IsFinal) : 0 < r.weight := by
  cases hphase : r.phase with
  | ended | crashed =>
    rw [hphase] at h
    exact (h trivial).elim
  | ready | acting | waiting =>
    simp only [weight, weightOfLevels, levels, hphase]
    omega

theorem size_lt_of_final (hopen : ¬ r.phase.IsFinal) (hfinal : r'.phase.IsFinal) :
    r'.size limit < r.size limit :=
  size_lt_of_weight (by rw [weight_of_final hfinal]; exact weight_pos hopen)

/-- Steps that are kept for later weigh at most one more than they do as part of their level. -/
theorem weight_kept_le (more : List (Node (Action π α)))
    (pending : List (List (Node (Action π α)))) :
    weightOfLevels (kept more pending) ≤ 1 + weightOf more + weightOfLevels pending := by
  cases more with
  | nil => exact Nat.le_add_left _ _
  | cons node more => exact Nat.le_refl _

/-- A chain that a choice inserts weighs less than the choice. -/
theorem weight_insert_lt {name : String} {test : π → Bool} {yes no chosen : Plan π α}
    (haction : node.action = some (.choice name test yes no)) (hchosen : chosen = yes ∨ chosen = no)
    (hlevels : r.levels = (node :: more) :: r.pending)
    (hafter : r'.levels = chosen.build.nodes :: kept more r.pending) : r'.weight < r.weight := by
  have hkept := weight_kept_le more r.pending
  have hbuild : weightOf chosen.build.nodes ≤ chosen.weight := chosen.weightOf_build_le
  have hnode : node.weight = 2 + yes.weight + no.weight := Node.weight_of_action haction
  have hweight : chosen.weight ≤ yes.weight + no.weight := by
    rcases hchosen with rfl | rfl <;> omega
  rw [weight_of_levels hlevels, weight_of_levels hafter, weightOf_cons]
  omega

end

/-! ## Steps that use up something -/

/-- What a run may come to with a step that uses up nothing. -/
inductive Lingers (host : Host 𝕊 σ) (behaviour : Behaviour (Action π α) (Action π α) κ σ)
    (r : Run (Action π α) κ) (s : σ) : Run (Action π α) κ → Prop
  | rests : r.phase.IsFinal → Lingers host behaviour r s r
  | pauses {node : Node (Action π α)} {more : List (Node (Action π α))} {activity activity' : κ} :
      r.phase = .acting node more activity → r.answer? host behaviour s = none →
      Lingers host behaviour r s { r with phase := .acting node more activity' }
  | sleeps {node : Node (Action π α)} {more : List (Node (Action π α))} {deadline : Nat} :
      r.phase = .waiting node more deadline → host.now s < deadline →
      Lingers host behaviour r s r

omit [Retry.Seconds 𝕊] [Named α] in
theorem Lingers.size_eq {limit : Nat} {next : Run (Action π α) κ}
    (h : Lingers host behaviour r s next) : next.size limit = r.size limit := by
  cases h with
  | rests | sleeps => rfl
  | pauses hphase => simp [size, weight, leeway, levels, hphase]

omit [Retry.Seconds 𝕊] [Named α] in
theorem Lingers.answer?_eq {next : Run (Action π α) κ} (h : Lingers host behaviour r s next) :
    r.answer? host behaviour s = none := by
  cases h with
  | pauses _ hanswer => exact hanswer
  | sleeps hphase => simp [answer?, hphase]
  | rests hfinal =>
    cases hphase : r.phase with
    | ended | crashed => simp [answer?, hphase]
    | ready | acting | waiting =>
      rw [hphase] at hfinal
      exact hfinal.elim

theorem Acts.size_lt_or_lingers (h : Acts host behaviour r s node more begun x)
    (hconducts : behaviour.Conducts) :
    (begun.progressed host policy node more x).1.size policy.maxRetries <
        r.size policy.maxRetries ∨
      Lingers host behaviour r s (begun.progressed host policy node more x).1 := by
  have hlevels : r.levels = (node :: more) :: r.pending := levels_of_at h.at_phase
  have hopen : ¬ r.phase.IsFinal := h.at_phase.not_isFinal
  obtain ⟨name, test, yes, no, chosen, haction, hchosen, -, hinserted⟩ | ⟨hsettles, -⟩ :=
    h.conducted policy hconducts
  · rw [hinserted]
    exact .inl (size_lt_of_weight (weight_insert_lt haction hchosen hlevels rfl))
  · generalize (begun.progressed host policy node more x).1 = next at hsettles ⊢
    cases hsettles with
    | pauses hanswer =>
      rw [← h.answer?_eq] at hanswer
      cases h with
      | starts hphase =>
        left
        refine size_lt_of_leeway ?_ ?_
        · simp [weight, levels, hphase]
        · simp [leeway, hphase]
      | resumes hphase => exact .inr (.pauses hphase hanswer)
    | ends hfinal => exact .inl (size_lt_of_final hopen hfinal)
    | proceeds =>
      left
      have hafter : (begun.goTo more).levels = more :: r.pending := by
        rw [← h.pending_eq]
        rfl
      have hpos : 0 < node.weight := node.weight_pos
      refine size_lt_of_weight ?_
      rw [weight_of_levels hlevels, weight_of_levels hafter, weightOf_cons]
      omega
    | @waits deadline delay hleft =>
      left
      refine size_lt_of_leeway ?_ ?_
      · rw [weight, weight, hlevels, ← h.pending_eq]
        rfl
      · rw [h.retries_eq] at hleft
        have hat := h.at_phase
        have hnotwaiting := h.not_isWaiting
        simp only [leeway, h.retries_eq]
        generalize hphase : r.phase = phase at hat
        cases hat with
        | ready | acting =>
          dsimp only
          omega
        | waiting => exact (hnotwaiting ⟨_, _, _, hphase⟩).elim

variable (r s) in
theorem step_size_lt_or_lingers (hconducts : behaviour.Conducts) :
    (r.step host policy behaviour s).1.size policy.maxRetries < r.size policy.maxRetries ∨
      Lingers host behaviour r s (r.step host policy behaviour s).1 := by
  have hturn := step_turn host policy behaviour r s
  generalize r.step host policy behaviour s = after at hturn ⊢
  cases hturn with
  | rested hfinal => exact .inr (.rests hfinal)
  | completed hphase =>
    refine .inl (size_lt_of_final (fun hfinal => ?_) trivial)
    rw [hphase] at hfinal
    exact hfinal
  | @stopped node more hphase =>
    have hat : r.phase.At node more := by
      obtain hready | ⟨deadline, hwaiting⟩ := hphase
      · exact hready ▸ .ready
      · exact hwaiting ▸ .waiting deadline
    exact .inl (size_lt_of_final hat.not_isFinal trivial)
  | @resumed rest pending hphase hpending =>
    left
    have hlevels : r.levels = [] :: r.pending := by simp [levels, hphase]
    have hafter : (⟨r.retries, pending, .ready rest, r.journal⟩ : Run (Action π α) κ).levels =
      rest :: pending := rfl
    refine size_lt_of_weight ?_
    rw [weight_of_levels hlevels, weight_of_levels hafter, hpending, weightOfLevels]
    omega
  | @closed node more hphase =>
    left
    have hlevels : r.levels = (node :: more) :: r.pending := levels_of_at (hphase ▸ .ready)
    have hafter : ({ r with phase := .ready [] } : Run (Action π α) κ).levels = [] :: r.pending :=
      rfl
    have hpos : 0 < node.weight := node.weight_pos
    refine size_lt_of_weight ?_
    rw [weight_of_levels hlevels, weight_of_levels hafter, weightOf_cons, weightOf_nil]
    omega
  | acted hacts => exact hacts.size_lt_or_lingers hconducts
  | slept hphase hearly => exact .inr (.sleeps hphase hearly)
  | woke hphase =>
    left
    refine size_lt_of_leeway ?_ ?_
    · simp [weight, levels, hphase]
    · simp [leeway, hphase]

end Run

/-! ## Runs that end -/

namespace Passage

open Run

variable [Retry.Seconds 𝕊] [Named α]
variable {host : Host 𝕊 σ} {policy : Retry.Policy 𝕊}

/-- Every action that is under way answers some time. -/
def Returns {behaviour : Behaviour (Action π α) (Action π α) κ σ}
    (x : Passage (Run.step host policy behaviour)) : Prop :=
  ∀ n node more activity, (x.state n).phase = .acting node more activity →
    ∃ k, n ≤ k ∧ ((x.state k).answer? host behaviour (x.found k)).isSome

/-- Every wait before a retry is over some time. -/
def Elapses {behaviour : Behaviour (Action π α) (Action π α) κ σ}
    (x : Passage (Run.step host policy behaviour)) : Prop :=
  ∀ n node more deadline, (x.state n).phase = .waiting node more deadline →
    ∃ k, n ≤ k ∧ deadline ≤ host.now (x.found k)

variable {behaviour : Behaviour (Action π α) (Action π α) κ σ}
  {x : Passage (Run.step host policy behaviour)}

/-- A run in which only choices insert comes to its end, wherever it begins. -/
theorem exists_final (hconducts : behaviour.Conducts) (hreturns : x.Returns)
    (helapses : x.Elapses) : ∃ n, (x.state n).phase.IsFinal := by
  have hstep : ∀ n, (x.state (n + 1)).size policy.maxRetries <
        (x.state n).size policy.maxRetries ∨
      Lingers host behaviour (x.state n) (x.found n) (x.state (n + 1)) :=
    fun n => step_size_lt_or_lingers (x.state n) (x.found n) hconducts
  have hle : ∀ n,
      (x.state (n + 1)).size policy.maxRetries ≤ (x.state n).size policy.maxRetries := by
    intro n
    rcases hstep n with hlt | hlingers
    · exact Nat.le_of_lt hlt
    · exact Nat.le_of_eq hlingers.size_eq
  refine x.exists_of_shrinks (size policy.maxRetries) (P := fun r => r.phase.IsFinal) hle ?_
  intro n hopen
  cases hphase : (x.state n).phase with
  | ready rest =>
    refine ⟨n, Nat.le_refl n, ?_⟩
    rcases hstep n with hlt | hlingers
    · exact hlt
    · generalize x.state (n + 1) = next at hlingers
      cases hlingers with
      | rests hfinal => exact (hopen hfinal).elim
      | pauses hacting => cases hphase.symm.trans hacting
      | sleeps hwaiting => cases hphase.symm.trans hwaiting
  | acting node more activity =>
    obtain ⟨k, hk, hanswer⟩ := hreturns n node more activity hphase
    refine ⟨k, hk, ?_⟩
    rcases hstep k with hlt | hlingers
    · exact hlt
    · rw [hlingers.answer?_eq] at hanswer
      cases hanswer
  | waiting node more deadline =>
    refine x.exists_shrinks_of_rests (size policy.maxRetries) (deadline ≤ host.now ·)
      (fun k hk hsame => ?_) (helapses n node more deadline hphase)
    rcases hstep k with hlt | hlingers
    · exact .inl hlt
    · right
      have hwaits : (x.state k).phase = .waiting node more deadline := hsame ▸ hphase
      generalize x.state (k + 1) = next at hlingers ⊢
      cases hlingers with
      | rests hfinal =>
        rw [hwaits] at hfinal
        exact hfinal.elim
      | pauses hacting => cases hwaits.symm.trans hacting
      | sleeps hwaiting hearly =>
        cases hwaits.symm.trans hwaiting
        exact ⟨rfl, Nat.not_le_of_lt hearly⟩
  | ended | crashed =>
    rw [hphase] at hopen
    exact (hopen trivial).elim

end Passage

end Reconcile
