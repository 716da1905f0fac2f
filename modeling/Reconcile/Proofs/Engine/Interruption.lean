import Reconcile.Proofs.Engine.Cancellation
import Reconcile.Proofs.Engine.Passage
import Reconcile.Proofs.Engine.Strides
import Reconcile.World

/-!
# Runs that are interrupted

A run looks at its cancellation in front of every step and in the wait before a retry, and
nowhere else.  The file follows a run through any passage, in which the cancellation may come at
any moment, also between two resumptions of an action, and in which others change the world as
they like.  They do not change the packet, which the run has to itself.

`Run.Interrupted` says what a cancellation does to a run and what it does not.  From then on no
action starts but those of critical steps, and a wait before a retry of any other step is the
last thing the run does, even if its timer wins against the cancellation.  An action that has
started is taken to its end, what it answers is obeyed, and the packet stays as it leaves it.
That a run has been cancelled is its result only when it was stopped at such a step.
-/

namespace Reconcile

/-! ## Actions among others -/

/-- An action that has come to `p` with step number `n` goes on with the steps that follow, one
resumption each, and ends with step number `k`. -/
inductive Behaviour.EndsAt {α κ σ : Type} (behaviour : Behaviour α α κ σ) (found : Nat → σ) :
    Progress α κ × σ → (n k : Nat) → Except Fault (Directive α) → σ → Prop
  | done {result : Except Fault (Directive α)} {s : σ} {n : Nat} :
      EndsAt behaviour found (.done result, s) n n result s
  | paused {activity : κ} {s s' : σ} {n k : Nat} {result : Except Fault (Directive α)} :
      EndsAt behaviour found (behaviour.resume activity (found (n + 1))) (n + 1) k result s' →
      EndsAt behaviour found (.paused activity, s) n k result s'

namespace Run

variable {𝕊 α κ σ : Type}

theorem isStopped_host {ε : Type} {isCancelled : World 𝕊 ε → Bool} (node : Node α)
    (s : Packet × World 𝕊 ε) :
    isStopped (World.host isCancelled) node s = (!node.critical && isCancelled s.2) := rfl

theorem invoked_cons (r : Run α κ) (node : Node α) :
    ({ r with journal := .invoked node :: r.journal } : Run α κ).invoked = r.invoked ++ [node] := by
  simp [invoked, Entry.started?]

theorem invoked_of_waits {r r' : Run α κ} {es : List (Entry α)}
    (hjournal : r'.journal = es ++ r.journal) (hwaits : ∀ e ∈ es, e.IsWait) :
    r'.invoked = r.invoked := by
  have hnone : es.reverse.filterMap Entry.started? = [] := by
    rw [List.filterMap_eq_nil_iff]
    intro e he
    cases e with
    | invoked node => exact (hwaits _ (List.mem_reverse.1 he)).elim
    | waited => rfl
  rw [invoked, hjournal, List.reverse_append, List.filterMap_append, hnone, List.append_nil]
  rfl

variable [Retry.Seconds 𝕊] [Named α]
variable {host : Host 𝕊 σ} {policy : Retry.Policy 𝕊} {behaviour : Behaviour α α κ σ}
  {r : Run α κ} {node : Node α} {more : List (Node α)} {s : σ}

/-! ## One step -/

variable (host policy behaviour r s) in
/-- The actions that a step starts are those of steps in front of which the run is not
stopped. -/
theorem invoked_step : ∃ started,
    (r.step host policy behaviour s).1.invoked = r.invoked ++ started ∧
      ∀ node ∈ started, isStopped host node s = false := by
  obtain ⟨es, hjournal, hlooked⟩ := step_journal host policy behaviour r s
  refine ⟨es.reverse.filterMap Entry.started?, ?_, ?_⟩
  · rw [invoked, hjournal, List.reverse_append, List.filterMap_append]
    rfl
  · intro node hnode
    obtain ⟨entry, hentry, hstarted⟩ := List.mem_filterMap.1 hnode
    cases entry with
    | invoked n =>
      obtain rfl : n = node := Option.some.inj hstarted
      exact hlooked n (List.mem_reverse.1 hentry)
    | waited => cases hstarted

theorem invoked_progressed (x : Progress α κ × σ) :
    (r.progressed host policy node more x).1.invoked = r.invoked := by
  obtain ⟨es, hjournal, hwaits⟩ := progressed_journal host policy r node more x
  exact invoked_of_waits hjournal hwaits

theorem invoked_follow (result : Except Fault (Directive α)) :
    (r.follow host policy node more result s).1.invoked = r.invoked := by
  obtain ⟨es, hjournal, hwaits⟩ := follow_journal host policy r node more result s
  exact invoked_of_waits hjournal hwaits

theorem result?_follow_ne_cancelled (result : Except Fault (Directive α)) :
    (r.follow host policy node more result s).1.result? ≠ some (.ok .cancelled) := by
  match result with
  | .error _ | .ok .proceed | .ok (.insert _) | .ok (.branch _) | .ok .terminate =>
    simp [follow, result?, goTo, finish]
  | .ok (.retryAfter requested) =>
    simp only [follow, retry]
    split
    · simp [result?, finish]
    · split <;> simp [result?]

theorem result?_progressed_ne_cancelled (x : Progress α κ × σ) :
    (r.progressed host policy node more x).1.result? ≠ some (.ok .cancelled) := by
  obtain ⟨_ | result, s⟩ := x
  · simp [progressed, result?]
  · exact result?_follow_ne_cancelled result

/-- The run is in front of a step, or in the wait before its retry. -/
def IsAt (r : Run α κ) (node : Node α) : Prop :=
  ∃ more, r.phase = .ready (node :: more) ∨ ∃ deadline, r.phase = .waiting node more deadline

/-- A run whose result becomes that it has been cancelled was stopped at a step. -/
theorem stopped_of_step (hopen : r.result? ≠ some (.ok .cancelled))
    (h : (r.step host policy behaviour s).1.result? = some (.ok .cancelled)) :
    ∃ node, r.IsAt node ∧ isStopped host node s = true ∧
      r.step host policy behaviour s = (r.finish (.ok .cancelled), s) := by
  unfold step at h ⊢
  cases hphase : r.phase with
  | ready rest =>
    rw [hphase] at h
    cases rest with
    | nil => cases hpending : r.pending <;> simp [hpending, finish, result?] at h
    | cons node more =>
      cases hstopped : isStopped host node s with
      | true => exact ⟨node, ⟨more, .inl hphase⟩, hstopped, by simp [hstopped]⟩
      | false =>
        simp only [hstopped] at h
        cases haction : node.action with
        | none => simp [haction, result?] at h
        | some action =>
          simp only [haction] at h
          exact (result?_progressed_ne_cancelled _ h).elim
  | acting node more activity =>
    rw [hphase] at h
    exact (result?_progressed_ne_cancelled _ h).elim
  | waiting node more deadline =>
    rw [hphase] at h
    simp only at h ⊢
    split at h
    case isTrue hstopped =>
      rw [Bool.and_eq_true] at hstopped
      exact ⟨node, ⟨more, .inr ⟨deadline, hphase⟩⟩, hstopped.1, if_pos (by simp [hstopped])⟩
    case isFalse =>
      split at h
      · simp [result?] at h
      · exact (hopen h).elim
  | ended result =>
    rw [hphase] at h
    exact (hopen h).elim
  | crashed =>
    rw [hphase] at h
    exact (hopen h).elim

theorem follow_packet {ε : Type} {isCancelled : World 𝕊 ε → Bool} (r : Run α κ) (node : Node α)
    (more : List (Node α)) (result : Except Fault (Directive α)) (s : Packet × World 𝕊 ε) :
    (r.follow (World.host isCancelled) policy node more result s).2.1 = s.1 := by
  have hsame : ∀ {s₁ s₂ s₃ : Packet × World 𝕊 ε}, s₂.1 = s₁.1 → s₃.1 = s₂.1 → s₃.1 = s₁.1 :=
    fun h₁ h₂ => h₂.trans h₁
  have hcount : ∀ s, ((World.host isCancelled).countRetry s).1 = s.1 := fun _ => rfl
  have hdraw : ∀ s, ((World.host isCancelled).draw s).2.1 = s.1 := fun _ => rfl
  exact follow_related (fun s s' => s'.1 = s.1) (fun _ => rfl) hsame hcount hdraw r node more
    result s

/-- Whoever wins in the wait before a retry, the run has ended, or it is in front of the step
again. -/
theorem step_waiting_stopped {deadline : Nat} (hphase : r.phase = .waiting node more deadline)
    (hstopped : isStopped host node s = true) :
    (r.step host policy behaviour s).1 = r.finish (.ok .cancelled) ∨
      (r.step host policy behaviour s).1 = { r with phase := .ready (node :: more) } := by
  unfold step
  simp only [hphase, hstopped]
  split
  · exact .inl rfl
  case isFalse hwins =>
    simp only [Bool.true_and, Bool.not_eq_true', Bool.not_eq_false, Bool.and_eq_true] at hwins
    exact .inr (by rw [if_pos hwins.1])

variable (host policy node more) in
/-- What follows an action does not depend on how far the action had come before. -/
theorem progressed_phase (phase : Phase α κ) (x : Progress α κ × σ) :
    progressed host policy { r with phase := phase } node more x =
      r.progressed host policy node more x := by
  obtain ⟨_ | result, s⟩ := x
  · rfl
  · match result with
    | .error _ | .ok .proceed | .ok (.branch _) | .ok .terminate => rfl
    | .ok (.insert c) =>
      simp only [progressed, follow, keep]
      split <;> rfl
    | .ok (.retryAfter requested) =>
      simp only [progressed, follow, retry]
      split
      · rfl
      · split <;> rfl

end Run

/-! ## The whole run -/

section

variable {𝕊 α κ ε : Type} [Retry.Seconds 𝕊] [Named α]
variable {isCancelled : World 𝕊 ε → Bool} {policy : Retry.Policy 𝕊}
  {behaviour : Behaviour α α κ (Packet × World 𝕊 ε)}

open Run

/-- What becomes of a run that finds itself cancelled from step number `t` on. -/
structure Run.Interrupted (x : Passage (Run.step (World.host isCancelled) policy behaviour))
    (t : Nat) : Prop where
  /-- No action of a step that is not critical starts any more. -/
  critical : ∀ n, t ≤ n → ∃ started, (x.state n).invoked = (x.state t).invoked ++ started ∧
    ∀ node ∈ started, node.critical = true
  /-- A run that waits for the retry of such a step does nothing any more. -/
  waiting : ∀ n node more deadline, t ≤ n → (x.state n).phase = .waiting node more deadline →
    node.critical = false →
    (∀ m, n ≤ m → (x.state m).journal = (x.state n).journal) ∧
      ∀ m, n + 2 ≤ m → (x.state m).result? = some (.ok .cancelled)
  /-- An action that has started goes on to its end, whenever the cancellation comes.  The run
  does what it answers, and leaves the packet as it is until another action starts. -/
  acting : ∀ n k node more action result packet w, (x.state n).phase = .ready (node :: more) →
    node.action = some action →
    isStopped (World.host isCancelled) node (x.found n) = false →
    behaviour.EndsAt x.found (behaviour.start action (x.found n)) n k result (packet, w) →
    (∀ j, n < j → j ≤ k → (x.state j).IsIn node) ∧
      x.state (k + 1) =
        (follow (World.host isCancelled) policy
          { x.state n with journal := .invoked node :: (x.state n).journal } node more result
          (packet, w)).1 ∧
      ∀ j, k < j → (x.state j).invoked = (x.state n).invoked ++ [node] → (x.found j).1 = packet
  /-- The run ends as a cancelled one only if it has been cancelled and is stopped at a step
  that is not critical.  Then it does nothing any more. -/
  cancelled : ∀ n, (x.state n).result? = some (.ok .cancelled) →
    ∃ k node, k < n ∧ (x.state k).IsAt node ∧ node.critical = false ∧
      isCancelled (x.found k).2 = true ∧
      ∀ m, k < m → x.state m = (x.state k).finish (.ok .cancelled) ∧ x.left m = x.found m

namespace Passage

variable {x : Passage (Run.step (World.host isCancelled) policy behaviour)} {n t : Nat}

/-- A run that has ended stays as it is, and leaves its surroundings alone. -/
theorem state_of_ended {r : Run α κ} {result : Except Fault Outcome} (hn : x.state n = r)
    (hended : r.phase = .ended result) {m : Nat} (hnm : n ≤ m) :
    x.state m = r ∧ x.left m = x.found m := by
  have hrests : ∀ s, ((x.state n).step (World.host isCancelled) policy behaviour s).1 = x.state n :=
    fun s => congrArg Prod.fst (step_of_ended (hn ▸ hended))
  have hstate : x.state m = r := (x.state_of_rests hrests hnm).trans hn
  refine ⟨hstate, ?_⟩
  rw [left, hstate, step_of_ended hended]

/-- Between actions a run leaves the packet alone. -/
theorem packet_of_step (hbetween : ∀ node, ¬ (x.state n).IsIn node)
    (hstarts : (x.state (n + 1)).invoked = (x.state n).invoked) :
    (x.left n).1 = (x.found n).1 ∧ ∀ node, ¬ (x.state (n + 1)).IsIn node := by
  rw [left, state_succ] at *
  have hstride : Stride (World.host isCancelled) policy behaviour (x.state n) (x.found n)
      (Run.step (World.host isCancelled) policy behaviour (x.state n) (x.found n)) :=
    step_stride _ _
  generalize Run.step (World.host isCancelled) policy behaviour (x.state n) (x.found n) = after
    at hstarts hstride ⊢
  cases hstride with
  | silent _ hidle => exact ⟨rfl, hidle⟩
  | @start node more action =>
    rw [invoked_progressed, invoked_cons] at hstarts
    simp at hstarts
  | resume hphase => exact (hbetween _ ⟨_, _, hphase⟩).elim

/-- What a run has started it does not take back. -/
theorem invoked_prefix {m : Nat} (hnm : n ≤ m) :
    (x.state n).invoked <+: (x.state m).invoked := by
  induction m, hnm using Nat.le_induction with
  | base => exact List.prefix_refl _
  | succ m _ ih =>
    obtain ⟨started, hgrows, -⟩ :=
      invoked_step (World.host isCancelled) policy behaviour (x.state m) (x.found m)
    have hnext : (x.state m).invoked <+: (x.state (m + 1)).invoked := ⟨started, hgrows.symm⟩
    exact ih.trans hnext

/-- As long as no other action starts, the packet stays as an action has left it. -/
theorem packet_of_invoked (hown : ∀ n, (x.found (n + 1)).1 = (x.left n).1)
    (hbetween : ∀ node, ¬ (x.state (n + 1)).IsIn node) {m : Nat} (hnm : n + 1 ≤ m)
    (hstarts : (x.state m).invoked = (x.state (n + 1)).invoked) :
    (x.found m).1 = (x.left n).1 ∧ ∀ node, ¬ (x.state m).IsIn node := by
  induction m, hnm using Nat.le_induction with
  | base => exact ⟨hown n, hbetween⟩
  | succ m hnm ih =>
    have hbefore : (x.state m).invoked = (x.state (n + 1)).invoked := by
      have hlater : (x.state m).invoked <+: (x.state (m + 1)).invoked :=
        x.invoked_prefix (Nat.le_succ m)
      have hlength := (x.invoked_prefix hnm).length_le
      rw [hstarts] at hlater
      exact hlater.eq_of_length (Nat.le_antisymm hlater.length_le hlength)
    obtain ⟨hpacket, hidle⟩ := ih hbefore
    obtain ⟨hleft, hstill⟩ := x.packet_of_step hidle (hstarts.trans hbefore.symm)
    exact ⟨(hown m).trans (hleft.trans hpacket), hstill⟩

/-- An action that has started is taken to its end. -/
theorem step_of_endsAt {r : Run α κ} {node : Node α} {more : List (Node α)}
    {p : Progress α κ × Packet × World 𝕊 ε} {k : Nat} {result : Except Fault (Directive α)}
    {s : Packet × World 𝕊 ε} (h : behaviour.EndsAt x.found p n k result s)
    (hstep : Run.step (World.host isCancelled) policy behaviour (x.state n) (x.found n) =
      r.progressed (World.host isCancelled) policy node more p) :
    (∀ j, n < j → j ≤ k → (x.state j).IsIn node) ∧
      Run.step (World.host isCancelled) policy behaviour (x.state k) (x.found k) =
        r.follow (World.host isCancelled) policy node more result s := by
  induction h with
  | done => exact ⟨fun j hj hjn => absurd hj (Nat.not_lt.2 hjn), hstep⟩
  | @paused activity s s' n k result hrest ih =>
    have hphase : x.state (n + 1) = { r with phase := .acting node more activity } := by
      rw [state_succ, hstep]
      rfl
    have hresumed : Run.step (World.host isCancelled) policy behaviour (x.state (n + 1))
        (x.found (n + 1)) = r.progressed (World.host isCancelled) policy node more
          (behaviour.resume activity (x.found (n + 1))) := by
      rw [hphase, step_acting rfl, progressed_phase]
    obtain ⟨hin, hend⟩ := ih hresumed
    refine ⟨fun j hj hjk => ?_, hend⟩
    rcases Nat.eq_or_lt_of_le (Nat.succ_le_of_lt hj) with hnow | hlater
    · rw [← hnow, hphase]
      exact ⟨more, activity, rfl⟩
    · exact hin j hlater hjk

/-- A run that is cancelled starts no actions but those of critical steps. -/
theorem started_critical (hcancelled : ∀ n, t ≤ n → isCancelled (x.found n).2 = true)
    (hn : t ≤ n) : ∃ started, (x.state n).invoked = (x.state t).invoked ++ started ∧
      ∀ node ∈ started, node.critical = true := by
  induction n, hn using Nat.le_induction with
  | base => exact ⟨[], (List.append_nil _).symm, by simp⟩
  | succ n hn ih =>
    obtain ⟨before, hbefore, hcritical⟩ := ih
    obtain ⟨started, hgrows, hlooked⟩ :=
      invoked_step (World.host isCancelled) policy behaviour (x.state n) (x.found n)
    refine ⟨before ++ started, ?_, fun node hnode => ?_⟩
    · rw [state_succ, hgrows, hbefore, List.append_assoc]
    · rcases List.mem_append.1 hnode with hold | hnew
      · exact hcritical node hold
      · have hgo := hlooked node hnew
        rw [isStopped_host, hcancelled n hn, Bool.and_true] at hgo
        simpa using hgo

/-- A run that waits for the retry of a step in front of which it is stopped has come to its end
two steps later, and has done nothing until then. -/
theorem state_of_waiting {node : Node α} {more : List (Node α)} {deadline : Nat}
    (hphase : (x.state n).phase = .waiting node more deadline)
    (hstops : ∀ k, n ≤ k → isStopped (World.host isCancelled) node (x.found k) = true) :
    (x.state (n + 1)).journal = (x.state n).journal ∧
      ∀ m, n + 2 ≤ m → x.state m = (x.state n).finish (.ok .cancelled) := by
  -- The timer can only bring the run in front of the step, where it is stopped all the same.
  have hnext : x.state (n + 1) = (x.state n).finish (.ok .cancelled) ∨
      x.state (n + 1) = { x.state n with phase := .ready (node :: more) } :=
    step_waiting_stopped hphase (hstops n (Nat.le_refl n))
  rcases hnext with hended | hready
  · refine ⟨by rw [hended]; rfl, fun m hm => ?_⟩
    exact (x.state_of_ended hended rfl (Nat.le_of_succ_le hm)).1
  · have htwo : x.state (n + 2) = (x.state n).finish (.ok .cancelled) := by
      rw [state_succ, hready, step_stopped rfl (hstops (n + 1) (Nat.le_succ n))]
      rfl
    exact ⟨by rw [hready], fun m hm => (x.state_of_ended htwo rfl hm).1⟩

/-- Before a run has ended as a cancelled one, it has been stopped at a step. -/
theorem stopped_of_cancelled (hopen : (x.state 0).result? ≠ some (.ok .cancelled))
    (hn : (x.state n).result? = some (.ok .cancelled)) :
    ∃ k node, k < n ∧ (x.state k).IsAt node ∧
      isStopped (World.host isCancelled) node (x.found k) = true ∧
      x.state (k + 1) = (x.state k).finish (.ok .cancelled) := by
  induction n with
  | zero => exact (hopen hn).elim
  | succ n ih =>
    by_cases hbefore : (x.state n).result? = some (.ok .cancelled)
    · obtain ⟨k, node, hk, hrest⟩ := ih hbefore
      exact ⟨k, node, Nat.lt_succ_of_lt hk, hrest⟩
    · obtain ⟨node, hat, hstopped, hend⟩ := stopped_of_step hbefore hn
      exact ⟨n, node, Nat.lt_succ_self n, hat, hstopped, congrArg Prod.fst hend⟩

/-! ## What a cancellation does -/

/-- However a run goes on, and whenever it is cancelled: before it begins, in an action, or in the
wait before a retry, at the end of which the timer may win or not.  Nothing starts after that
but actions of critical steps, and nothing that has started is lost. -/
theorem interrupted_of_cancelled {c : Chain α} (hstart : x.first = .start c)
    (hown : ∀ n, (x.found (n + 1)).1 = (x.left n).1)
    (hcancelled : ∀ n, t ≤ n → isCancelled (x.found n).2 = true) :
    Run.Interrupted x t where
  critical n hn := x.started_critical hcancelled hn
  waiting n node more deadline hn hphase hcritical := by
    have hstops : ∀ k, n ≤ k → isStopped (World.host isCancelled) node (x.found k) = true := by
      intro k hk
      rw [isStopped_host, hcritical, hcancelled k (hn.trans hk)]
      rfl
    obtain ⟨hjournal, hlater⟩ := x.state_of_waiting hphase hstops
    refine ⟨fun m hm => ?_, fun m hm => ?_⟩
    · have hcases : m = n ∨ m = n + 1 ∨ n + 2 ≤ m := by omega
      rcases hcases with rfl | rfl | hm
      · rfl
      · exact hjournal
      · rw [hlater m hm]
        rfl
    · rw [hlater m hm]
      rfl
  acting n k node more action result packet w hphase haction hgo hends := by
    obtain ⟨hin, hend⟩ := x.step_of_endsAt hends (step_start hphase haction hgo)
    have hfollow : x.state (k + 1) =
        (follow (World.host isCancelled) policy
          { x.state n with journal := .invoked node :: (x.state n).journal } node more result
          (packet, w)).1 := congrArg Prod.fst hend
    refine ⟨hin, hfollow, fun j hj hstarts => ?_⟩
    have hbetween : ∀ other, ¬ (x.state (k + 1)).IsIn other := by
      rw [hfollow]
      exact follow_not_isIn _ node more result _
    have hbegun : (x.state (k + 1)).invoked = (x.state n).invoked ++ [node] := by
      rw [hfollow, invoked_follow, invoked_cons]
    have hkept : (x.left k).1 = packet := by
      rw [left, hend]
      exact follow_packet _ node more result _
    have hpacket := (x.packet_of_invoked hown hbetween hj (hstarts.trans hbegun.symm)).1
    exact hpacket.trans hkept
  cancelled n hn := by
    have hopen : (x.state 0).result? ≠ some (.ok .cancelled) := by
      have hfirst : x.state 0 = .start c := hstart
      rw [hfirst]
      intro hended
      cases hended
    obtain ⟨k, node, hk, hat, hstopped, hend⟩ := x.stopped_of_cancelled hopen hn
    rw [isStopped, Bool.and_eq_true, Bool.not_eq_true'] at hstopped
    refine ⟨k, node, hk, hat, hstopped.1, hstopped.2, fun m hm => ?_⟩
    exact x.state_of_ended hend rfl hm

end Passage

end

/-! ### A wait that is interrupted -/

/-- Actions of a run that is cancelled in the wait before a retry. -/
inductive Vigil
  | knock
  | report

namespace Vigil

instance : Named Vigil where
  name
    | knock => "knock"
    | report => "report"

/-- A knock pauses once, leaves a value in the packet, and asks for a retry. -/
def behaviour : Behaviour Vigil Vigil Unit (Packet × World Rat Bool) where
  start
    | knock, s => (.paused (), s)
    | report, s => (.done (.ok .proceed), s)
  resume _ s := (.done (.ok (.retryAfter .zero)), s.1.insert "knocked" (.bool true), s.2)

/-- A world that knows whether the run has been cancelled. -/
def world : World Rat Bool where
  identity := ⟨none, none⟩
  outbox := .empty fun _ => false
  counters := default
  declined := []
  registries := ∅
  nextAttempt := 0
  now := 0
  spread _ := 1
  draws := 0
  timerFirst := true
  extra := false

def knocking : Node Vigil := ⟨some knock, false⟩

def reporting : Node Vigil := ⟨some report, true⟩

/-- In the wait after the second step a second passes, and the run is cancelled. -/
def others (n : Nat) (s : Packet × World Rat Bool) : Packet × World Rat Bool :=
  (s.1, { s.2 with now := 1000 * n, extra := decide (1 ≤ n) })

def passage : Passage (Run.step (World.host World.extra) Errand.policy behaviour) :=
  .among _ (.start ⟨knocking, [reporting]⟩) (.empty, world) others

theorem own (n : Nat) : (passage.found (n + 1)).1 = (passage.left n).1 := by
  rw [passage, Passage.found_among_succ]
  rfl

theorem cancelled (n : Nat) (hn : 2 ≤ n) : (passage.found n).2.extra = true := by
  obtain ⟨k, rfl⟩ := Nat.exists_eq_add_of_le' hn
  rw [passage, Passage.found_among_succ]
  simp [others]

/-- The run in the wait before the retry. -/
def waits : Run Vigil Unit :=
  ⟨1, [], .waiting knocking [reporting] 2,
    [.waited knocking (.ofMillis 2), .invoked knocking]⟩

/-- The knock ends, and the wait begins. -/
theorem step_knock :
    Run.step (World.host World.extra) Errand.policy behaviour (passage.state 1)
        (passage.found 1) =
      (waits, Packet.empty.insert "knocked" (.bool true),
        { world.raise .stepRetries with draws := 1 }) := by
  have hstate : passage.state 1 =
      ⟨0, [], .acting knocking [reporting] (), [.invoked knocking]⟩ := rfl
  have hfound : passage.found 1 = (.empty, world) := rfl
  have hdelay : Errand.policy.delay (0 + 1) .zero 1 = some (.ofMillis 2) := Errand.policy_delay_one
  rw [hstate, hfound, Run.step_acting rfl]
  simp only [behaviour, Run.progressed, Run.follow, Run.retry, World.host, World.draw, World.raise,
    world]
  rw [if_neg (by decide), hdelay]
  rfl

theorem found_two : passage.found 2 =
    (Packet.empty.insert "knocked" (.bool true),
      { world.raise .stepRetries with draws := 1, now := 1000, extra := true }) := by
  rw [passage, Passage.found_among_succ, Passage.left]
  exact congrArg (fun after => others 1 after.2) step_knock

theorem state_three : passage.state 3 = { waits with phase := .ready [knocking, reporting] } := by
  have hwaits : passage.state 2 = waits := congrArg Prod.fst step_knock
  rw [Passage.state_succ, hwaits, found_two]
  rfl

/-- The timer of the wait and the cancellation are there at the same moment, and the timer wins.
The knock is not repeated, and the critical step behind it is not reached.  What the knock has
left in the packet stays there. -/
theorem knock_not_repeated :
    (passage.state 2).phase = .waiting knocking [reporting] 2 ∧
      (passage.state 3).phase = .ready [knocking, reporting] ∧
      (∀ m, 2 ≤ m → (passage.state m).invoked = [knocking]) ∧
      (passage.state 4).result? = some (.ok .cancelled) ∧
      ∀ m, 2 ≤ m → (passage.found m).1 = Packet.empty.insert "knocked" (.bool true) := by
  have hwaits : passage.state 2 = waits := congrArg Prod.fst step_knock
  have hphase : (passage.state 2).phase = .waiting knocking [reporting] 2 := by
    rw [hwaits]
    rfl
  have hready : (passage.state 3).phase = .ready [knocking, reporting] := by
    rw [state_three]
  obtain ⟨-, hwaiting, hacting, -⟩ := Passage.interrupted_of_cancelled rfl own cancelled
  obtain ⟨hjournal, hends⟩ := hwaiting 2 knocking [reporting] 2 (Nat.le_refl 2) hphase rfl
  have hinvoked : ∀ m, 2 ≤ m → (passage.state m).invoked = [knocking] := by
    intro m hm
    rw [Run.invoked, hjournal m hm, hwaits]
    rfl
  have hknock : behaviour.EndsAt passage.found (behaviour.start knock (passage.found 0)) 0 1
      (.ok (.retryAfter .zero)) ((passage.found 1).1.insert "knocked" (.bool true),
        (passage.found 1).2) := .paused .done
  obtain ⟨-, -, hkept⟩ := hacting 0 1 knocking [reporting] knock _ _ _ rfl rfl rfl hknock
  exact ⟨hphase, hready, hinvoked, hends 4 (Nat.le_refl 4), fun m hm => hkept m hm (hinvoked m hm)⟩

end Vigil

end Reconcile
