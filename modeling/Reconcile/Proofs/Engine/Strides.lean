import Reconcile.Engine.Run

/-!
# What one step of a run does

A step starts an action, resumes one, or leaves its surroundings alone (`Run.step_stride`).
Everything else here follows from that.

A step acts on its surroundings in four ways only: it counts a retry, draws a random spread,
and starts or resumes an action.  So whatever relation between the surroundings before and
after each of these keep, every step keeps as well (`Run.step_related`).

The journal only grows.  A step that enters a start of an action has looked at the
cancellation before (`Run.step_journal`), and a run in the middle of an action has either just
started it or been in it already (`Run.step_isIn`).
-/

namespace Reconcile

variable {𝕊 α κ σ : Type}

namespace Run

/-- The entries of a journal that an earlier one of the same run does not have yet. -/
def news (before after : Run α κ) : List (Entry α) :=
  after.journal.take (after.journal.length - before.journal.length)

theorem news_of_append {before after : Run α κ} {es : List (Entry α)}
    (h : after.journal = es ++ before.journal) : before.news after = es := by
  simp [news, h]

/-- Whether a run is in the middle of the action of a step. -/
def IsIn (r : Run α κ) (node : Node α) : Prop :=
  ∃ more activity, r.phase = .acting node more activity

end Run

/-- Whether an entry says that a wait has begun. -/
def Entry.IsWait : Entry α → Prop
  | .invoked _ => False
  | .waited .. => True

namespace Run

variable [Retry.Seconds 𝕊] [Named α]
variable {host : Host 𝕊 σ} {policy : Retry.Policy 𝕊} {behaviour : Behaviour α α κ σ}

/-! ## The ways to step -/

/-- The run and the surroundings after a step. -/
inductive Stride (host : Host 𝕊 σ) (policy : Retry.Policy 𝕊) (behaviour : Behaviour α α κ σ)
    (r : Run α κ) (s : σ) : Run α κ × σ → Prop
  /-- The run moves on between actions, waits, or has ended. -/
  | silent {r' : Run α κ} : r'.journal = r.journal → (∀ node, ¬ r'.IsIn node) →
      Stride host policy behaviour r s (r', s)
  /-- The run starts the action of the next step, since it is not stopped in front of it. -/
  | start {node : Node α} {more : List (Node α)} {action : α} :
      node.action = some action → isStopped host node s = false →
      Stride host policy behaviour r s
        (progressed host policy { r with journal := .invoked node :: r.journal } node more
          (behaviour.start action s))
  /-- The run goes on with an action that has paused. -/
  | resume {node : Node α} {more : List (Node α)} {activity : κ} :
      r.phase = .acting node more activity →
      Stride host policy behaviour r s
        (r.progressed host policy node more (behaviour.resume activity s))

theorem step_stride (r : Run α κ) (s : σ) :
    Stride host policy behaviour r s (r.step host policy behaviour s) := by
  obtain ⟨retries, pending, phase, journal⟩ := r
  cases phase with
  | ready rest =>
    cases rest with
    | nil =>
      cases pending with
      | nil => exact .silent rfl (by simp [IsIn, finish])
      | cons rest pending => exact .silent rfl (by simp [IsIn])
    | cons node more =>
      simp only [step]
      cases hstopped : isStopped host node s with
      | true => exact .silent rfl (by simp [IsIn, finish])
      | false =>
        cases haction : node.action with
        | none => exact .silent rfl (by simp [IsIn])
        | some action => exact .start haction hstopped
  | acting node more activity => exact .resume rfl
  | waiting node more deadline =>
    simp only [step]
    split
    · exact .silent rfl (by simp [IsIn, finish])
    · split
      · exact .silent rfl (by simp [IsIn])
      · exact .silent rfl (by simp [IsIn])
  | ended result => exact .silent rfl (by simp [IsIn])
  | crashed => exact .silent rfl (by simp [IsIn])

/-! ## Steps in a known phase -/

section

variable {r : Run α κ} {node : Node α} {more : List (Node α)} {s : σ}

theorem step_of_ended {result : Except Fault Outcome} (h : r.phase = .ended result) :
    r.step host policy behaviour s = (r, s) := by
  unfold step
  rw [h]

theorem step_stopped (hphase : r.phase = .ready (node :: more))
    (hstopped : isStopped host node s = true) :
    r.step host policy behaviour s = (r.finish (.ok .cancelled), s) := by
  unfold step
  simp [hphase, hstopped]

theorem step_acting {activity : κ} (hphase : r.phase = .acting node more activity) :
    r.step host policy behaviour s =
      r.progressed host policy node more (behaviour.resume activity s) := by
  unfold step
  rw [hphase]

theorem step_start {action : α} (hphase : r.phase = .ready (node :: more))
    (haction : node.action = some action) (hgo : isStopped host node s = false) :
    r.step host policy behaviour s =
      progressed host policy { r with journal := .invoked node :: r.journal } node more
        (behaviour.start action s) := by
  unfold step
  simp [hphase, hgo, haction]

/-- A wait that is not stopped lasts until its deadline. -/
theorem step_waiting {deadline : Nat} (hphase : r.phase = .waiting node more deadline)
    (hgo : isStopped host node s = false) :
    r.step host policy behaviour s =
      (if deadline ≤ host.now s then { r with phase := .ready (node :: more) } else r, s) := by
  unfold step
  simp only [hphase, hgo, Bool.false_and, Bool.false_eq_true, if_false, decide_eq_true_eq]
  split <;> rfl

end

/-! ## The surroundings -/

section

variable (Related : σ → σ → Prop) (hrefl : ∀ s, Related s s)
  (htrans : ∀ {s₁ s₂ s₃}, Related s₁ s₂ → Related s₂ s₃ → Related s₁ s₃)
  (hcount : ∀ s, Related s (host.countRetry s)) (hdraw : ∀ s, Related s (host.draw s).2)

include hrefl htrans hcount hdraw in
theorem follow_related (r : Run α κ) (node : Node α) (more : List (Node α))
    (result : Except Fault (Directive α)) (s : σ) :
    Related s (r.follow host policy node more result s).2 := by
  match result with
  | .error _ | .ok .proceed | .ok (.insert _) | .ok (.branch _) | .ok .terminate => exact hrefl s
  | .ok (.retryAfter requested) =>
    have hdrawn := htrans (hcount s) (hdraw (host.countRetry s))
    simp only [follow, retry]
    split
    · exact hrefl s
    · split <;> exact hdrawn

include hrefl htrans hcount hdraw in
theorem progressed_related (r : Run α κ) (node : Node α) (more : List (Node α))
    (x : Progress α κ × σ) : Related x.2 (r.progressed host policy node more x).2 := by
  obtain ⟨_ | _, s⟩ := x
  · exact hrefl s
  · exact follow_related Related hrefl htrans hcount hdraw r node more _ s

include hrefl htrans hcount hdraw in
/-- What every single act on the surroundings keeps, a step of a run keeps. -/
theorem step_related (hstart : ∀ action s, Related s (behaviour.start action s).2)
    (hresume : ∀ activity s, Related s (behaviour.resume activity s).2) (r : Run α κ) (s : σ) :
    Related s (r.step host policy behaviour s).2 := by
  have hstride : Stride host policy behaviour r s (r.step host policy behaviour s) :=
    step_stride r s
  generalize r.step host policy behaviour s = after at hstride ⊢
  cases hstride with
  | silent => exact hrefl s
  | start =>
    exact htrans (hstart _ s) (progressed_related Related hrefl htrans hcount hdraw _ _ _ _)
  | resume =>
    exact htrans (hresume _ s) (progressed_related Related hrefl htrans hcount hdraw _ _ _ _)

/-- A part of the surroundings that no single act changes is the same after a step. -/
theorem step_keeps {τ : Type} (part : σ → τ) (hcount : ∀ s, part (host.countRetry s) = part s)
    (hdraw : ∀ s, part (host.draw s).2 = part s)
    (hstart : ∀ action s, part (behaviour.start action s).2 = part s)
    (hresume : ∀ activity s, part (behaviour.resume activity s).2 = part s) (r : Run α κ) (s : σ) :
    part (r.step host policy behaviour s).2 = part s := by
  have htrans : ∀ {s₁ s₂ s₃ : σ}, part s₂ = part s₁ → part s₃ = part s₂ → part s₃ = part s₁ :=
    fun hfirst hsecond => hsecond.trans hfirst
  exact step_related (fun s s' => part s' = part s) (fun _ => rfl) htrans hcount hdraw hstart
    hresume r s

end

/-! ## The journal -/

variable (host policy) in
theorem follow_journal (r : Run α κ) (node : Node α) (more : List (Node α))
    (result : Except Fault (Directive α)) (s : σ) :
    ∃ es, (r.follow host policy node more result s).1.journal = es ++ r.journal ∧
      ∀ e ∈ es, e.IsWait := by
  match result with
  | .error _ | .ok .proceed | .ok (.branch _) | .ok .terminate => exact ⟨[], rfl, by simp⟩
  | .ok (.insert c) =>
    refine ⟨[], ?_, by simp⟩
    simp only [follow, keep]
    split <;> rfl
  | .ok (.retryAfter requested) =>
    simp only [follow, retry]
    split
    · exact ⟨[], rfl, by simp⟩
    · split
      · exact ⟨[], rfl, by simp⟩
      · exact ⟨[.waited node _], rfl, by simp [Entry.IsWait]⟩

variable (host policy) in
theorem progressed_journal (r : Run α κ) (node : Node α) (more : List (Node α))
    (x : Progress α κ × σ) :
    ∃ es, (r.progressed host policy node more x).1.journal = es ++ r.journal ∧
      ∀ e ∈ es, e.IsWait := by
  obtain ⟨_ | result, s⟩ := x
  · exact ⟨[], rfl, by simp⟩
  · exact follow_journal host policy r node more result s

variable (host policy behaviour) in
/-- A step adds to the journal.  If it starts an action, it has found its run not to be
stopped in front of it. -/
theorem step_journal (r : Run α κ) (s : σ) :
    ∃ es, (r.step host policy behaviour s).1.journal = es ++ r.journal ∧
      ∀ node, .invoked node ∈ es → isStopped host node s = false := by
  have hstride : Stride host policy behaviour r s (r.step host policy behaviour s) :=
    step_stride r s
  generalize r.step host policy behaviour s = after at hstride ⊢
  cases hstride with
  | silent hjournal => exact ⟨[], hjournal, by simp⟩
  | @start node more action _ hstopped =>
    obtain ⟨es, hjournal, hwaits⟩ := progressed_journal host policy
      { r with journal := .invoked node :: r.journal } node more (behaviour.start action s)
    refine ⟨es ++ [.invoked node], by simpa using hjournal, fun started hstarted => ?_⟩
    rcases List.mem_append.1 hstarted with hmem | hmem
    · exact (hwaits _ hmem).elim
    · obtain rfl : started = node := by simpa using hmem
      exact hstopped
  | resume =>
    obtain ⟨es, hjournal, hwaits⟩ := progressed_journal host policy r _ _ (behaviour.resume _ s)
    exact ⟨es, hjournal, fun started hstarted => (hwaits _ hstarted).elim⟩

/-! ## Actions under way -/

theorem follow_not_isIn (r : Run α κ) (node : Node α) (more : List (Node α))
    (result : Except Fault (Directive α)) (s : σ) (other : Node α) :
    ¬ (r.follow host policy node more result s).1.IsIn other := by
  match result with
  | .error _ | .ok .proceed | .ok (.branch _) | .ok .terminate | .ok (.insert _) =>
    simp [IsIn, follow, goTo, finish]
  | .ok (.retryAfter requested) =>
    simp only [follow, retry]
    split
    · simp [IsIn, finish]
    · split <;> simp [IsIn]

theorem progressed_isIn {r : Run α κ} {node other : Node α} {more : List (Node α)}
    {x : Progress α κ × σ} (h : (r.progressed host policy node more x).1.IsIn other) :
    other = node ∧ (r.progressed host policy node more x).1.journal = r.journal := by
  obtain ⟨activity | result, s⟩ := x
  · obtain ⟨more', activity', hphase⟩ := h
    simp only [progressed, Phase.acting.injEq] at hphase
    exact ⟨hphase.1.symm, rfl⟩
  · exact (follow_not_isIn r node more result s other h).elim

/-- A run in an action has started it with its last step, or has been in it before. -/
theorem step_isIn {r : Run α κ} {s : σ} {node : Node α}
    (h : (r.step host policy behaviour s).1.IsIn node) :
    (r.step host policy behaviour s).1.journal = .invoked node :: r.journal ∨
      (r.step host policy behaviour s).1.journal = r.journal ∧ r.IsIn node := by
  have hstride : Stride host policy behaviour r s (r.step host policy behaviour s) :=
    step_stride r s
  generalize r.step host policy behaviour s = after at hstride h ⊢
  cases hstride with
  | silent _ hbetween => exact (hbetween node h).elim
  | start =>
    obtain ⟨rfl, hjournal⟩ := progressed_isIn h
    exact .inl hjournal
  | resume hphase =>
    obtain ⟨rfl, hjournal⟩ := progressed_isIn h
    exact .inr ⟨hjournal, _, _, hphase⟩

end Run

end Reconcile
