import Reconcile.Proofs.Engine.Interruption
import Reconcile.Proofs.Engine.Turns

/-!
# Visits of steps

All steps of a run share one count of retries.  That each of them has the full budget all the
same is a statement about visits.  A visit of a step begins when the run comes to the step in
some other way than by a retry of the step itself (`Passage.Enters`), and lasts through all its
retries.  `Passage.Visits` follows a visit by what the action of the step answers, without a look
at the count of the run.

The count is that of the requests of the visit (`Run.Underway`), so it is zero when the visit
begins, and a run never comes to the end of a budget that another step has used up.
-/

namespace Reconcile

variable {𝕊 α κ σ : Type}

namespace Passage

variable [Retry.Seconds 𝕊] [Named α]
variable {host : Host 𝕊 σ} {policy : Retry.Policy 𝕊} {behaviour : Behaviour α α κ σ}

/-- What an action answers to the run with its next step. -/
def answer? (x : Passage (Run.step host policy behaviour)) (n : Nat) :
    Option (Except Fault (Directive α)) :=
  (x.state n).answer? host behaviour (x.found n)

/-- The run is in front of a step, and has not come there by a retry of the step. -/
def Enters (x : Passage (Run.step host policy behaviour)) (n : Nat) (node : Node α) : Prop :=
  (∃ more, (x.state n).phase = .ready (node :: more)) ∧
    ∀ m, n = m + 1 → ¬ (x.state m).phase.IsWaiting

/-- A visit of a step that has begun with step number `b` of the run is not over with step number
`n`, and its action has asked for a retry `asked` times in a row. -/
inductive Visits (x : Passage (Run.step host policy behaviour)) (node : Node α) (b : Nat) :
    (n asked : Nat) → Prop
  | enters : x.Enters b node → Visits x node b b 0
  | paused {n asked : Nat} {more : List (Node α)} {activity : κ} : Visits x node b n asked →
      (x.state (n + 1)).phase = .acting node more activity → Visits x node b (n + 1) asked
  | asks {n asked : Nat} {requested : Span} : Visits x node b n asked →
      x.answer? n = some (.ok (.retryAfter requested)) → Visits x node b (n + 1) (asked + 1)
  | waits {n asked : Nat} {more : List (Node α)} {deadline : Nat} : Visits x node b n asked →
      (x.state n).phase = .waiting node more deadline → Visits x node b (n + 1) asked

/-- The run ends with a fault that no action has answered. -/
def Raises (x : Passage (Run.step host policy behaviour)) (n : Nat) (fault : Fault) : Prop :=
  ¬ (x.state n).phase.IsFinal ∧ (x.state (n + 1)).phase = .ended (.error fault) ∧
    x.answer? n ≠ some (.error fault)

end Passage

namespace Run

/-! ## Visits -/

/-- How far a run has come in a visit of a step, `asked` requests for a retry after it had started
the actions `before`. -/
inductive Underway [Named α] (policy : Retry.Policy 𝕊) (node : Node α) (before : List (Node α))
    (asked : Nat) (r : Run α κ) : Prop
  | ready {more : List (Node α)} : r.phase = .ready (node :: more) → r.retries = asked →
      asked ≤ policy.maxRetries → r.invoked = before ++ List.replicate asked node →
      Underway policy node before asked r
  | acting {more : List (Node α)} {activity : κ} : r.phase = .acting node more activity →
      r.retries = asked → asked ≤ policy.maxRetries →
      r.invoked = before ++ List.replicate (asked + 1) node → Underway policy node before asked r
  | waiting {more : List (Node α)} {deadline : Nat} : r.phase = .waiting node more deadline →
      r.retries = asked → asked ≤ policy.maxRetries →
      r.invoked = before ++ List.replicate asked node → Underway policy node before asked r
  /-- The run has ended.  If the visit has asked once too often, it has ended for that reason. -/
  | past {invocations : Nat} : r.phase.IsFinal →
      asked ≤ policy.maxRetries ∨ asked = policy.maxRetries + 1 ∧
        r.phase = .ended (.error (.retriesExhausted node.name policy.maxRetries)) →
      invocations ≤ policy.maxRetries + 1 →
      r.invoked = before ++ List.replicate invocations node → Underway policy node before asked r

section

variable [Named α]
variable {host : Host 𝕊 σ} {policy : Retry.Policy 𝕊} {behaviour : Behaviour α α κ σ}
  {r begun : Run α κ} {node other : Node α} {more before : List (Node α)} {asked : Nat} {s : σ}
  {x : Progress α κ × σ}

/-- The action of a visit is started once more than it has asked for a retry. -/
theorem Acts.of_underway (hacts : Acts host behaviour r s other more begun x)
    (h : r.Underway policy node before asked) :
    other = node ∧ begun.retries = asked ∧ asked ≤ policy.maxRetries ∧
      begun.invoked = before ++ List.replicate (asked + 1) node := by
  cases hacts with
  | starts hphase =>
    cases h with
    | ready hready hretries hasked hinvoked =>
      cases hphase.symm.trans hready
      refine ⟨rfl, hretries, hasked, ?_⟩
      rw [invoked_cons, hinvoked, List.append_assoc, List.replicate_succ']
    | acting hacting => cases hphase.symm.trans hacting
    | waiting hwaiting => cases hphase.symm.trans hwaiting
    | past hfinal =>
      rw [hphase] at hfinal
      exact hfinal.elim
  | resumes hphase =>
    cases h with
    | ready hready => cases hphase.symm.trans hready
    | acting hacting hretries hasked hinvoked =>
      cases hphase.symm.trans hacting
      exact ⟨rfl, hretries, hasked, hinvoked⟩
    | waiting hwaiting => cases hphase.symm.trans hwaiting
    | past hfinal =>
      rw [hphase] at hfinal
      exact hfinal.elim

variable [Retry.Seconds 𝕊]

theorem Underway.asks {s' : σ} {requested : Span} (hretries : begun.retries = asked)
    (hasked : asked ≤ policy.maxRetries)
    (hinvoked : begun.invoked = before ++ List.replicate (asked + 1) node) :
    (begun.retry host policy node more requested s').1.Underway policy node before
      (asked + 1) := by
  have hstarted : (begun.retry host policy node more requested s').1.invoked =
      before ++ List.replicate (asked + 1) node :=
    (invoked_follow (.ok (.retryAfter requested))).trans hinvoked
  unfold retry at hstarted ⊢
  split at hstarted
  case isTrue hspent =>
    have hlast : asked = policy.maxRetries := by omega
    rw [if_pos hspent]
    refine .past trivial (.inr ⟨by omega, ?_⟩) (by omega) hstarted
    rw [hretries, hlast]
    rfl
  case isFalse hleft =>
    have hnext : asked + 1 ≤ policy.maxRetries := by omega
    rw [if_neg hleft]
    dsimp only at hstarted ⊢
    split at hstarted
    · exact .past trivial (.inl hnext) (by omega) hstarted
    · exact .waiting rfl (by rw [hretries]) hnext hstarted

/-- With its next step a visit does not start its action too often. -/
theorem Underway.invoked_step (h : r.Underway policy node before asked) :
    ∃ invocations ≤ policy.maxRetries + 1,
      (r.step host policy behaviour s).1.invoked =
        before ++ List.replicate invocations node := by
  have hstays : ∃ invocations ≤ policy.maxRetries + 1,
      r.invoked = before ++ List.replicate invocations node := by
    cases h with
    | ready _ _ hasked hinvoked => exact ⟨asked, by omega, hinvoked⟩
    | acting _ _ hasked hinvoked => exact ⟨asked + 1, by omega, hinvoked⟩
    | waiting _ _ hasked hinvoked => exact ⟨asked, by omega, hinvoked⟩
    | past _ _ hinvocations hinvoked => exact ⟨_, hinvocations, hinvoked⟩
  have hturn := step_turn host policy behaviour r s
  generalize r.step host policy behaviour s = after at hturn ⊢
  cases hturn with
  | rested | completed | resumed | closed | stopped | slept | woke => exact hstays
  | acted hacts =>
    obtain ⟨rfl, -, hasked, hinvoked⟩ := hacts.of_underway h
    exact ⟨asked + 1, by omega, (invoked_progressed _).trans hinvoked⟩

variable (host behaviour s) in
theorem step_retries_le (h : r.retries ≤ policy.maxRetries) :
    (r.step host policy behaviour s).1.retries ≤ policy.maxRetries := by
  have hturn := step_turn host policy behaviour r s
  generalize r.step host policy behaviour s = after at hturn ⊢
  cases hturn with
  | rested | completed | resumed | closed | stopped | slept | woke => exact h
  | @acted _ _ _ x hacts =>
    rw [← hacts.retries_eq] at h
    obtain ⟨progress, s'⟩ := x
    match progress with
    | .paused _ | .done (.error _) | .done (.ok .terminate) => exact h
    | .done (.ok .proceed) | .done (.ok (.insert _)) | .done (.ok (.branch _)) =>
      exact Nat.zero_le _
    | .done (.ok (.retryAfter requested)) =>
      simp only [progressed, follow, retry]
      split
      · exact h
      · split
        · exact h
        · exact Nat.lt_of_not_le ‹_›

end

end Run

namespace Passage

open Run

section

variable [Retry.Seconds 𝕊] [Named α]
variable {host : Host 𝕊 σ} {policy : Retry.Policy 𝕊} {behaviour : Behaviour α α κ σ}
  {x : Passage (Run.step host policy behaviour)} {c : Chain α} {node : Node α} {b n asked : Nat}

theorem isTidy (hstart : x.first = .start c) (n : Nat) : (x.state n).IsTidy := by
  induction n with
  | zero =>
    have hfirst : x.state 0 = .start c := hstart
    rw [hfirst]
    exact isTidy_start c
  | succ n ih => exact ih.step host policy behaviour (x.found n)

/-- A step that is reached, and not by its own retry, has its full budget. -/
theorem retries_of_enters (hstart : x.first = .start c) (h : x.Enters n node) :
    (x.state n).retries = 0 := by
  obtain ⟨⟨more, hready⟩, hanew⟩ := h
  cases n with
  | zero =>
    have hfirst : x.state 0 = .start c := hstart
    rw [hfirst]
    rfl
  | succ n =>
    have hidle : ¬ (x.state n).phase.IsWaiting := hanew n rfl
    have htidy := x.isTidy hstart n
    have hturn := step_turn host policy behaviour (x.state n) (x.found n)
    rw [x.state_succ] at hready ⊢
    generalize Run.step host policy behaviour (x.state n) (x.found n) = after at hturn hready ⊢
    cases hturn with
    | rested hfinal =>
      rw [hready] at hfinal
      exact hfinal.elim
    | resumed hphase => exact htidy.retries_eq_zero hphase
    | completed | closed | stopped => cases hready
    | slept hphase => exact (hidle ⟨_, _, _, hphase⟩).elim
    | woke hphase => exact (hidle ⟨_, _, _, hphase⟩).elim
    | @acted other more begun x hacts =>
      rcases progressed_phase_cases host policy begun other more x with
        hfinal | ⟨_, -, hretries⟩ | ⟨_, hacting⟩ | ⟨_, hwaiting⟩
      · rw [hready] at hfinal
        exact hfinal.elim
      · exact hretries
      · cases hready.symm.trans hacting
      · cases hready.symm.trans hwaiting

/-- The count of a run is that of the requests of its visit. -/
theorem Visits.underway (hstart : x.first = .start c) (h : x.Visits node b n asked) :
    (x.state n).Underway policy node (x.state b).invoked asked := by
  induction h with
  | enters henters =>
    obtain ⟨more, hready⟩ := henters.1
    exact .ready hready (x.retries_of_enters hstart henters) (Nat.zero_le _)
      (List.append_nil _).symm
  | @paused n asked more activity _ hacting ih =>
    obtain ⟨begun, s', hacts⟩ := acts_of_acting hacting
    obtain ⟨-, hretries, hasked, hinvoked⟩ := hacts.of_underway ih
    have hnext : x.state (n + 1) =
        (begun.progressed host policy node more (.paused activity, s')).1 :=
      congrArg Prod.fst (hacts.step_eq policy)
    rw [hnext]
    exact .acting rfl hretries hasked hinvoked
  | @asks n asked requested _ hanswer ih =>
    obtain ⟨other, more, begun, s', hacts⟩ := acts_of_answer hanswer
    obtain ⟨rfl, hretries, hasked, hinvoked⟩ := hacts.of_underway ih
    have hnext : x.state (n + 1) = (begun.retry host policy other more requested s').1 :=
      congrArg Prod.fst (hacts.step_eq policy)
    rw [hnext]
    exact .asks hretries hasked hinvoked
  | @waits n asked more deadline _ hwaiting ih =>
    cases ih with
    | ready hready => cases hwaiting.symm.trans hready
    | acting hacting => cases hwaiting.symm.trans hacting
    | past hfinal =>
      rw [hwaiting] at hfinal
      exact hfinal.elim
    | waiting hphase hretries hasked hinvoked =>
      rw [x.state_succ]
      obtain hstep | hstep | hstep := waiting_cases host policy behaviour (x.found n) hphase
      all_goals rw [hstep]
      · exact .past trivial (.inl hasked) (Nat.le_succ_of_le hasked) hinvoked
      · exact .waiting hphase hretries hasked hinvoked
      · exact .ready rfl hretries hasked hinvoked

/-- A run that comes to a step, and has not been waiting, begins a visit. -/
theorem visits_of_ready {more : List (Node α)}
    (hready : (x.state (n + 1)).phase = .ready (node :: more))
    (hidle : ¬ (x.state n).phase.IsWaiting) : x.Visits node (n + 1) (n + 1) 0 := by
  refine .enters ⟨⟨more, hready⟩, fun m hm => ?_⟩
  obtain rfl : n = m := Nat.succ.inj hm
  exact hidle

/-- After an action the run goes on with the visit of the step, or it begins another one. -/
theorem exists_visits_of_acts {begun : Run α κ} {more rest : List (Node α)} {other : Node α}
    {y : Progress α κ × σ} (hacts : Acts host behaviour (x.state n) (x.found n) node more begun y)
    (hvisits : x.Visits node b n asked) (hat : (x.state (n + 1)).phase.At other rest) :
    ∃ b asked, x.Visits other b (n + 1) asked := by
  have hanswer : x.answer? n = y.1.answer? := hacts.answer?_eq
  have hnext : x.state (n + 1) = (begun.progressed host policy node more y).1 :=
    congrArg Prod.fst (hacts.step_eq policy)
  obtain ⟨progress, s'⟩ := y
  match progress with
  | .paused activity =>
    have hacting : (x.state (n + 1)).phase = .acting node more activity := congrArg Run.phase hnext
    rw [hacting] at hat
    cases hat
    exact ⟨b, asked, hvisits.paused hacting⟩
  | .done (.error _) | .done (.ok .terminate) =>
    rw [hnext] at hat
    cases hat
  | .done (.ok .proceed) | .done (.ok (.insert _)) | .done (.ok (.branch _)) =>
    obtain ⟨front, hready⟩ : ∃ front, (x.state (n + 1)).phase = .ready front :=
      ⟨_, congrArg Run.phase hnext⟩
    rw [hready] at hat
    cases hat
    exact ⟨n + 1, 0, x.visits_of_ready hready hacts.not_isWaiting⟩
  | .done (.ok (.retryAfter requested)) =>
    simp only [progressed, follow] at hnext
    obtain ⟨_, hretry⟩ | ⟨_, hretry⟩ | ⟨_, _, _, hretry⟩ :=
      retry_cases host policy begun node more requested s'
    all_goals
      rw [hnext, hretry] at hat
      cases hat
    exact ⟨b, asked + 1, hvisits.asks hanswer⟩

/-- A run that is at a step is in a visit of the step. -/
theorem exists_visits (hstart : x.first = .start c) {more : List (Node α)}
    (hat : (x.state n).phase.At node more) : ∃ b asked, x.Visits node b n asked := by
  induction n generalizing node more with
  | zero =>
    have hready : (x.state 0).phase = .ready c.nodes := congrArg Run.phase hstart
    rw [hready] at hat
    generalize c.nodes = nodes at hready hat
    cases hat
    exact ⟨0, 0, .enters ⟨⟨more, hready⟩, fun m hm => (Nat.succ_ne_zero m hm.symm).elim⟩⟩
  | succ n ih =>
    have hnext := x.state_succ n
    have hturn := step_turn host policy behaviour (x.state n) (x.found n)
    generalize Run.step host policy behaviour (x.state n) (x.found n) = after at hturn hnext
    cases hturn with
    | rested hfinal => exact (hat.not_isFinal (hnext ▸ hfinal)).elim
    | completed | stopped | closed =>
      rw [hnext] at hat
      cases hat
    | @resumed rest _ hphase =>
      have hready : (x.state (n + 1)).phase = .ready rest := congrArg Run.phase hnext
      have hidle : ¬ (x.state n).phase.IsWaiting := by
        rintro ⟨_, _, _, hwaiting⟩
        cases hphase.symm.trans hwaiting
      rw [hready] at hat
      cases hat
      exact ⟨n + 1, 0, x.visits_of_ready hready hidle⟩
    | slept hphase =>
      rw [hnext] at hat
      obtain ⟨b, asked, hvisits⟩ := ih hat
      rw [hphase] at hat
      cases hat
      exact ⟨b, asked, hvisits.waits hphase⟩
    | @woke _ _ deadline hphase =>
      rw [hnext] at hat
      cases hat
      have hbefore : (x.state n).phase.At node more := hphase ▸ .waiting deadline
      obtain ⟨b, asked, hvisits⟩ := ih hbefore
      exact ⟨b, asked, hvisits.waits hphase⟩
    | acted hacts =>
      obtain ⟨b, asked, hvisits⟩ := ih hacts.at_phase
      exact x.exists_visits_of_acts hacts hvisits hat

/-! ## The end of a budget -/

theorem Visits.retries_le (hstart : x.first = .start c) (h : x.Visits node b n asked)
    (hopen : ¬ (x.state n).phase.IsFinal) : (x.state n).retries = asked ∧
      asked ≤ policy.maxRetries := by
  cases h.underway hstart with
  | ready _ hretries hasked => exact ⟨hretries, hasked⟩
  | acting _ hretries hasked => exact ⟨hretries, hasked⟩
  | waiting _ hretries hasked => exact ⟨hretries, hasked⟩
  | past hfinal => exact (hopen hfinal).elim

theorem raises_of_visits (hstart : x.first = .start c)
    (h : x.Visits node b (n + 1) (policy.maxRetries + 1)) :
    x.Raises n (.retriesExhausted node.name policy.maxRetries) := by
  have hended : (x.state (n + 1)).phase.IsFinal := by
    by_contra hopen
    have hle := (h.retries_le hstart hopen).2
    omega
  have hphase : (x.state (n + 1)).phase =
      .ended (.error (.retriesExhausted node.name policy.maxRetries)) := by
    cases h.underway hstart with
    | ready hready =>
      rw [hready] at hended
      exact hended.elim
    | acting hacting =>
      rw [hacting] at hended
      exact hended.elim
    | waiting hwaiting =>
      rw [hwaiting] at hended
      exact hended.elim
    | past _ hasked =>
      obtain hasked | ⟨-, hphase⟩ := hasked
      · omega
      · exact hphase
  cases h with
  | paused _ hacting =>
    rw [hacting] at hended
    exact hended.elim
  | asks _ hanswer =>
    have hanswer' : (x.state n).answer? host behaviour (x.found n) = some _ := hanswer
    refine ⟨fun hfinal => ?_, hphase, by rw [hanswer]; exact nofun⟩
    obtain ⟨_, _, _, _, hacts⟩ := acts_of_answer hanswer'
    exact hacts.at_phase.not_isFinal hfinal
  | waits hvisits hwaiting =>
    have hopen : ¬ (x.state n).phase.IsFinal := by
      rw [hwaiting]
      exact id
    have hle := (hvisits.retries_le hstart hopen).2
    omega

theorem visits_of_raises (hstart : x.first = .start c) {fault : Fault} (h : x.Raises n fault) :
    ∃ node b, x.Visits node b (n + 1) (policy.maxRetries + 1) ∧
      fault = .retriesExhausted node.name policy.maxRetries := by
  obtain ⟨hopen, hended, hown⟩ := h
  have hturn := step_turn host policy behaviour (x.state n) (x.found n)
  have hnext := x.state_succ n
  generalize Run.step host policy behaviour (x.state n) (x.found n) = after at hturn hnext
  rw [hnext] at hended
  cases hturn with
  | rested hfinal => exact (hopen hfinal).elim
  | completed | resumed | closed | stopped | woke => cases hended
  | slept hphase => cases hphase.symm.trans hended
  | @acted node more begun y hacts =>
    have hanswer : x.answer? n = y.1.answer? := hacts.answer?_eq
    obtain ⟨b, asked, hvisits⟩ := x.exists_visits hstart hacts.at_phase
    obtain ⟨progress, s'⟩ := y
    match progress with
    | .paused _ | .done (.ok .terminate) | .done (.ok .proceed) | .done (.ok (.insert _))
    | .done (.ok (.branch _)) => cases hended
    | .done (.error _) =>
      cases hended
      exact (hown hanswer).elim
    | .done (.ok (.retryAfter requested)) =>
      obtain ⟨hretries, hasked⟩ := hvisits.retries_le hstart hopen
      have hbegun : begun.retries = asked := hacts.retries_eq.trans hretries
      simp only [progressed, follow, retry] at hended
      split at hended
      case isTrue hspent =>
        have hlast : asked = policy.maxRetries := by omega
        cases hended
        refine ⟨node, b, ?_, ?_⟩
        · exact hlast ▸ hvisits.asks hanswer
        · rw [hbegun, hlast]
      case isFalse => split at hended <;> cases hended

theorem retries_le (hstart : x.first = .start c) (n : Nat) :
    (x.state n).retries ≤ policy.maxRetries := by
  induction n with
  | zero =>
    have hfirst : x.state 0 = .start c := hstart
    rw [hfirst]
    exact Nat.zero_le _
  | succ n ih => exact step_retries_le host behaviour (x.found n) ih

end

end Passage

end Reconcile
