import Reconcile.Proofs.Engine.Drive
import Reconcile.Proofs.Engine.Strides

/-!
# The turns of a run

`Run.Turn` lists what a step of a run can do, with the conditions under which it does it.  Most
of it is bookkeeping between actions.  The one turn with a further choice is that of an action,
which starts or goes on, and then pauses or answers (`Run.Acts`).

A run comes to its next step with a full budget of retries.  The part of the budget that is used
up belongs to a step with an action, in which the run is or for whose retry it waits
(`Run.IsTidy`).
-/

namespace Reconcile

variable {𝕊 α κ σ : Type}

/-- The answer of an action that has ended. -/
def Progress.answer? : Progress α κ → Option (Except Fault (Directive α))
  | .paused _ => none
  | .done result => some result

/-- A run waits for the retry of a step. -/
def Phase.IsWaiting (phase : Phase α κ) : Prop :=
  ∃ node more deadline, phase = .waiting node more deadline

/-- A run in this phase is at a step that is followed by `more`. -/
inductive Phase.At (node : Node α) (more : List (Node α)) : Phase α κ → Prop
  | ready : At node more (.ready (node :: more))
  | acting (activity : κ) : At node more (.acting node more activity)
  | waiting (deadline : Nat) : At node more (.waiting node more deadline)

namespace Phase.At

variable {phase : Phase α κ} {node : Node α} {more : List (Node α)}

theorem not_isFinal (h : phase.At node more) : ¬ phase.IsFinal := by
  intro hfinal
  cases h <;> exact hfinal

theorem ne_ready_nil (h : phase.At node more) : phase ≠ .ready [] := by
  rintro rfl
  cases h

end Phase.At

namespace Run

/-- What the action answers that a run starts or resumes with its next step, if the action ends
with it. -/
def answer? (host : Host 𝕊 σ) (behaviour : Behaviour α α κ σ) (r : Run α κ) (s : σ) :
    Option (Except Fault (Directive α)) :=
  match r.phase with
  | .ready (node :: _) =>
    if isStopped host node s then none
    else node.action.bind fun action => (behaviour.start action s).1.answer?
  | .acting _ _ activity => (behaviour.resume activity s).1.answer?
  | .ready [] | .waiting .. | .ended _ | .crashed => none

/-- The next step of a run is taken in the action of a step.  `begun` is the run in this action,
and `x` is what the action comes to. -/
inductive Acts (host : Host 𝕊 σ) (behaviour : Behaviour α α κ σ) (r : Run α κ) (s : σ) :
    Node α → List (Node α) → Run α κ → Progress α κ × σ → Prop
  | starts {node : Node α} {more : List (Node α)} {action : α} :
      r.phase = .ready (node :: more) → node.action = some action →
      isStopped host node s = false →
      Acts host behaviour r s node more { r with journal := .invoked node :: r.journal }
        (behaviour.start action s)
  | resumes {node : Node α} {more : List (Node α)} {activity : κ} :
      r.phase = .acting node more activity →
      Acts host behaviour r s node more r (behaviour.resume activity s)

/-- The run and the surroundings after a turn. -/
inductive Turn [Retry.Seconds 𝕊] [Named α] (host : Host 𝕊 σ) (policy : Retry.Policy 𝕊)
    (behaviour : Behaviour α α κ σ) (r : Run α κ) (s : σ) : Run α κ × σ → Prop
  /-- The run has come to its end before. -/
  | rested : r.phase.IsFinal → Turn host policy behaviour r s (r, s)
  | completed : r.phase = .ready [] → r.pending = [] →
      Turn host policy behaviour r s (r.finish (.ok .completed), s)
  | resumed {rest : List (Node α)} {pending : List (List (Node α))} :
      r.phase = .ready [] → r.pending = rest :: pending →
      Turn host policy behaviour r s ({ r with pending := pending, phase := .ready rest }, s)
  /-- A terminal ends the current chain. -/
  | closed {node : Node α} {more : List (Node α)} :
      r.phase = .ready (node :: more) → node.action = none →
      isStopped host node s = false →
      Turn host policy behaviour r s ({ r with phase := .ready [] }, s)
  | stopped {node : Node α} {more : List (Node α)} :
      r.phase = .ready (node :: more) ∨ (∃ deadline, r.phase = .waiting node more deadline) →
      isStopped host node s = true →
      Turn host policy behaviour r s (r.finish (.ok .cancelled), s)
  | acted {node : Node α} {more : List (Node α)} {begun : Run α κ} {x : Progress α κ × σ} :
      Acts host behaviour r s node more begun x →
      Turn host policy behaviour r s (begun.progressed host policy node more x)
  | slept {node : Node α} {more : List (Node α)} {deadline : Nat} :
      r.phase = .waiting node more deadline → host.now s < deadline →
      Turn host policy behaviour r s (r, s)
  | woke {node : Node α} {more : List (Node α)} {deadline : Nat} :
      r.phase = .waiting node more deadline → deadline ≤ host.now s →
      Turn host policy behaviour r s ({ r with phase := .ready (node :: more) }, s)

variable {host : Host 𝕊 σ} {policy : Retry.Policy 𝕊} {behaviour : Behaviour α α κ σ}
  {r begun : Run α κ} {node : Node α} {more : List (Node α)} {s : σ} {x : Progress α κ × σ}

/-! ## Steps of actions -/

namespace Acts

variable (h : Acts host behaviour r s node more begun x)

include h

theorem retries_eq : begun.retries = r.retries := by cases h <;> rfl

theorem pending_eq : begun.pending = r.pending := by cases h <;> rfl

theorem at_phase : r.phase.At node more := by
  cases h with
  | starts hphase => rw [hphase]; exact .ready
  | resumes hphase => rw [hphase]; exact .acting _

/-- A run that waits for a retry takes no step in an action. -/
theorem not_isWaiting : ¬ r.phase.IsWaiting := by
  rintro ⟨_, _, _, hwaiting⟩
  cases h with
  | starts hphase => cases hphase.symm.trans hwaiting
  | resumes hphase => cases hphase.symm.trans hwaiting

theorem answer?_eq : r.answer? host behaviour s = x.1.answer? := by
  cases h with
  | starts hphase haction hgo => simp [answer?, hphase, haction, hgo]
  | resumes hphase => simp [answer?, hphase]

theorem step_eq [Retry.Seconds 𝕊] [Named α] (policy : Retry.Policy 𝕊) :
    r.step host policy behaviour s = begun.progressed host policy node more x := by
  cases h with
  | starts hphase haction hgo => exact step_start hphase haction hgo
  | resumes hphase => exact step_acting hphase

end Acts

/-- An answer comes from the action of a step. -/
theorem acts_of_answer {result : Except Fault (Directive α)}
    (h : r.answer? host behaviour s = some result) :
    ∃ node more begun s', Acts host behaviour r s node more begun (.done result, s') := by
  have hdone : ∀ {x : Progress α κ × σ}, x.1.answer? = some result → x = (.done result, x.2) := by
    rintro ⟨_ | answer, s'⟩ hanswer
    · cases hanswer
    · cases hanswer
      rfl
  unfold answer? at h
  split at h
  case h_1 node more hphase =>
    split at h
    case isTrue => cases h
    case isFalse hgo =>
      obtain ⟨action, haction, hanswer⟩ := Option.bind_eq_some_iff.1 h
      have hacts : Acts host behaviour r s node more _ (behaviour.start action s) :=
        .starts hphase haction (Bool.not_eq_true _ ▸ hgo)
      rw [hdone hanswer] at hacts
      exact ⟨node, more, _, _, hacts⟩
  case h_2 node more activity hphase =>
    have hacts : Acts host behaviour r s node more r (behaviour.resume activity s) :=
      .resumes hphase
    rw [hdone h] at hacts
    exact ⟨node, more, r, _, hacts⟩
  all_goals cases h

/-! ## One step -/

section

variable [Retry.Seconds 𝕊] [Named α]

variable (host policy behaviour r s) in
theorem step_turn : Turn host policy behaviour r s (r.step host policy behaviour s) := by
  cases hphase : r.phase with
  | ready rest =>
    cases rest with
    | nil =>
      cases hpending : r.pending with
      | nil => simpa [step, hphase, hpending] using Turn.completed hphase hpending
      | cons rest pending => simpa [step, hphase, hpending] using Turn.resumed hphase hpending
    | cons node more =>
      cases hstopped : isStopped host node s with
      | true =>
        rw [step_stopped hphase hstopped]
        exact .stopped (.inl hphase) hstopped
      | false =>
        cases haction : node.action with
        | none => simpa [step, hphase, hstopped, haction] using Turn.closed hphase haction hstopped
        | some action =>
          have hacts : Acts host behaviour r s node more _ (behaviour.start action s) :=
            .starts hphase haction hstopped
          rw [hacts.step_eq policy]
          exact .acted hacts
  | acting node more activity =>
    have hacts : Acts host behaviour r s node more r (behaviour.resume activity s) :=
      .resumes hphase
    rw [hacts.step_eq policy]
    exact .acted hacts
  | waiting node more deadline =>
    unfold step
    simp only [hphase]
    split
    case isTrue hstopped =>
      rw [Bool.and_eq_true] at hstopped
      exact .stopped (.inr ⟨deadline, hphase⟩) hstopped.1
    case isFalse =>
      split
      case isTrue helapsed => exact .woke hphase (of_decide_eq_true helapsed)
      case isFalse hearly =>
        exact .slept hphase (Nat.lt_of_not_le fun h => hearly (decide_eq_true h))
  | ended result =>
    rw [step_of_ended hphase]
    exact .rested (hphase ▸ trivial)
  | crashed =>
    have hstep : r.step host policy behaviour s = (r, s) := by simp [step, hphase]
    rw [hstep]
    exact .rested (hphase ▸ trivial)

/-- A run at its end stays as it is. -/
theorem step_of_final (h : r.phase.IsFinal) : r.step host policy behaviour s = (r, s) := by
  unfold step
  cases hphase : r.phase with
  | ended | crashed => rfl
  | ready | acting | waiting =>
    rw [hphase] at h
    exact h.elim

variable (host policy behaviour s) in
/-- A wait is stopped, goes on or has come to its end. -/
theorem waiting_cases {deadline : Nat} (hphase : r.phase = .waiting node more deadline) :
    r.step host policy behaviour s = (r.finish (.ok .cancelled), s) ∨
      r.step host policy behaviour s = (r, s) ∨
      r.step host policy behaviour s = ({ r with phase := .ready (node :: more) }, s) := by
  unfold step
  simp only [hphase]
  split
  · exact .inl rfl
  · split
    · exact .inr (.inr rfl)
    · exact .inr (.inl rfl)

/-- A run that is in an action after a step has started or resumed it with the step. -/
theorem acts_of_acting {activity : κ}
    (h : (r.step host policy behaviour s).1.phase = .acting node more activity) :
    ∃ begun s', Acts host behaviour r s node more begun (.paused activity, s') := by
  have hturn := step_turn host policy behaviour r s
  generalize r.step host policy behaviour s = after at hturn h
  cases hturn with
  | rested hfinal =>
    rw [h] at hfinal
    exact hfinal.elim
  | completed | resumed | closed | stopped | woke => cases h
  | slept hphase =>
    rw [h] at hphase
    cases hphase
  | @acted node' more' begun x hacts =>
    obtain ⟨progress, s'⟩ := x
    cases progress with
    | paused activity' =>
      cases h
      exact ⟨begun, s', hacts⟩
    | done result =>
      have hidle : ¬ (begun.follow host policy node' more' result s').1.IsIn node :=
        follow_not_isIn begun node' more' result s' node
      exact (hidle ⟨more, activity, h⟩).elim

end

/-! ## Budgets -/

/-- Retries are used up only at steps with an action. -/
def IsTidy (r : Run α κ) : Prop :=
  r.phase.IsFinal ∨ (∃ rest, r.phase = .ready rest ∧ r.retries = 0) ∨
    ∃ node more action, r.phase.At node more ∧ node.action = some action

theorem isTidy_start (c : Chain α) : (start c : Run α κ).IsTidy := .inr (.inl ⟨c.nodes, rfl, rfl⟩)

/-- A run at the end of a chain has used up no retries. -/
theorem IsTidy.retries_eq_zero (h : r.IsTidy) (hphase : r.phase = .ready []) : r.retries = 0 := by
  rcases h with hfinal | ⟨_, -, hretries⟩ | ⟨_, _, _, hat, -⟩
  · rw [hphase] at hfinal
    exact hfinal.elim
  · exact hretries
  · exact (hat.ne_ready_nil hphase).elim

theorem Acts.exists_action (h : Acts host behaviour r s node more begun x) (htidy : r.IsTidy) :
    ∃ action, node.action = some action := by
  cases h with
  | starts _ haction => exact ⟨_, haction⟩
  | resumes hphase =>
    rcases htidy with hfinal | ⟨_, hready, -⟩ | ⟨_, _, action, hat, haction⟩
    · rw [hphase] at hfinal
      exact hfinal.elim
    · rw [hphase] at hready
      cases hready
    · rw [hphase] at hat
      cases hat
      exact ⟨action, haction⟩

variable [Retry.Seconds 𝕊] [Named α]

variable (host policy) in
/-- A step that asks for a retry has failed for good, or it waits. -/
theorem retry_cases (r : Run α κ) (node : Node α) (more : List (Node α)) (requested : Span)
    (s : σ) :
    (∃ fault, r.retry host policy node more requested s = (r.finish (.error fault), s)) ∨
      (∃ s', r.retry host policy node more requested s = ({ r with phase := .crashed }, s')) ∨
      ∃ delay deadline s', r.retry host policy node more requested s =
        (⟨r.retries + 1, r.pending, .waiting node more deadline,
          .waited node delay :: r.journal⟩, s') := by
  unfold retry
  split
  · exact .inl ⟨_, rfl⟩
  · dsimp only
    split
    · exact .inr (.inl ⟨_, rfl⟩)
    · exact .inr (.inr ⟨_, _, _, rfl⟩)

variable (host policy) in
/-- After an action the run is in it still, waits for its retry, has come to the end, or has
gone on with a full budget. -/
theorem progressed_phase_cases (begun : Run α κ) (node : Node α) (more : List (Node α))
    (x : Progress α κ × σ) :
    (begun.progressed host policy node more x).1.phase.IsFinal ∨
      (∃ rest, (begun.progressed host policy node more x).1.phase = .ready rest ∧
        (begun.progressed host policy node more x).1.retries = 0) ∨
      (∃ activity, (begun.progressed host policy node more x).1.phase =
        .acting node more activity) ∨
      ∃ deadline, (begun.progressed host policy node more x).1.phase =
        .waiting node more deadline := by
  obtain ⟨progress, s⟩ := x
  match progress with
  | .paused activity => exact .inr (.inr (.inl ⟨activity, rfl⟩))
  | .done (.error _) | .done (.ok .terminate) => exact .inl trivial
  | .done (.ok .proceed) | .done (.ok (.insert _)) | .done (.ok (.branch _)) =>
    exact .inr (.inl ⟨_, rfl, rfl⟩)
  | .done (.ok (.retryAfter requested)) =>
    simp only [progressed, follow]
    obtain ⟨_, hretry⟩ | ⟨_, hretry⟩ | ⟨_, deadline, _, hretry⟩ :=
      retry_cases host policy begun node more requested s
    · exact .inl (hretry ▸ trivial)
    · exact .inl (hretry ▸ trivial)
    · exact .inr (.inr (.inr ⟨deadline, by rw [hretry]⟩))

variable (host policy behaviour s) in
theorem IsTidy.step (h : r.IsTidy) : (r.step host policy behaviour s).1.IsTidy := by
  have hturn := step_turn host policy behaviour r s
  generalize r.step host policy behaviour s = after at hturn ⊢
  cases hturn with
  | rested | slept => exact h
  | completed | stopped => exact .inl trivial
  | resumed hphase => exact .inr (.inl ⟨_, rfl, h.retries_eq_zero hphase⟩)
  | closed hphase hterminal =>
    rcases h with hfinal | ⟨_, -, hretries⟩ | ⟨_, _, _, hat, haction⟩
    · rw [hphase] at hfinal
      exact hfinal.elim
    · exact .inr (.inl ⟨_, rfl, hretries⟩)
    · rw [hphase] at hat
      cases hat
      cases hterminal.symm.trans haction
  | woke hphase =>
    rcases h with hfinal | ⟨_, hready, -⟩ | ⟨_, _, action, hat, haction⟩
    · rw [hphase] at hfinal
      exact hfinal.elim
    · rw [hphase] at hready
      cases hready
    · rw [hphase] at hat
      cases hat
      exact .inr (.inr ⟨_, _, action, .ready, haction⟩)
  | @acted node more begun x hacts =>
    obtain ⟨action, haction⟩ := hacts.exists_action h
    rcases progressed_phase_cases host policy begun node more x with
      hfinal | hready | ⟨activity, hacting⟩ | ⟨deadline, hwaiting⟩
    · exact .inl hfinal
    · exact .inr (.inl hready)
    · exact .inr (.inr ⟨node, more, action, hacting ▸ .acting activity, haction⟩)
    · exact .inr (.inr ⟨node, more, action, hwaiting ▸ .waiting deadline, haction⟩)

end Run

end Reconcile
