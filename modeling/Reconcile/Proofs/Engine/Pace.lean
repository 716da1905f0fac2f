import Reconcile.Proofs.Engine.Critical
import Reconcile.Proofs.Sink.Indifference

/-!
# Runs that wait for different lengths of time

How long a run waits before a retry depends on the time at which the wait begins, and on chance.
Two runs that differ in nothing else are at the same place (`Run.Like`).  As long as neither of
them is cancelled, they stay together, if one leaves the steps out of the account in which a run
does nothing but wait: a run that does not sleep takes the same step as the other
(`Run.step_like`), and one that sleeps takes none (`Run.step_asleep`).
-/

namespace Reconcile

variable {𝕊 α κ σ : Type}

open Passage (SameWith)

/-- Two phases that differ at most in the moment until which they wait. -/
inductive Phase.Like : Phase α κ → Phase α κ → Prop
  | same (phase : Phase α κ) : Like phase phase
  | waiting (node : Node α) (more : List (Node α)) (deadline deadline' : Nat) :
      Like (.waiting node more deadline) (.waiting node more deadline')

/-- Whether a run in this phase waits for a moment that has not come. -/
def Phase.isAsleep (now : Nat) : Phase α κ → Bool
  | .waiting _ _ deadline => now < deadline
  | _ => false

/-- Two runs at the same place, which may have waited for different lengths of time. -/
structure Run.Like (r r' : Run α κ) : Prop where
  retries : r.retries = r'.retries
  pending : r.pending = r'.pending
  phase : r.phase.Like r'.phase

/-- Surroundings in which a run fares the same but for the lengths of its waits.  Whether a delay
can be computed at all does not depend on the draw. -/
structure Host.Paces [Retry.Seconds 𝕊] (host : Host 𝕊 σ) (policy : Retry.Policy 𝕊)
    (Alike : σ → σ → Prop) : Prop where
  countRetry : ∀ {s s'}, Alike s s' → Alike (host.countRetry s) (host.countRetry s')
  draw : ∀ {s s'}, Alike s s' → Alike (host.draw s).2 (host.draw s').2
  delay : ∀ {s s'}, Alike s s' → ∀ retry requested,
    (policy.delay retry requested (host.draw s).1).isSome =
      (policy.delay retry requested (host.draw s').1).isSome

namespace Phase

variable {phase phase' : Phase α κ}

theorem Like.symm (h : phase.Like phase') : phase'.Like phase := by
  cases h with
  | same => exact .same phase
  | waiting node more deadline deadline' => exact .waiting node more deadline' deadline

/-- Both wait, or they are the same and neither does. -/
theorem Like.cases_waiting (h : phase.Like phase') :
    (∃ node more deadline deadline', phase = .waiting node more deadline ∧
      phase' = .waiting node more deadline') ∨
      phase' = phase ∧ ∀ node more deadline, phase ≠ .waiting node more deadline := by
  cases h with
  | waiting node more deadline deadline' => exact .inl ⟨node, more, deadline, deadline', rfl, rfl⟩
  | same =>
    cases phase with
    | waiting node more deadline => exact .inl ⟨node, more, deadline, deadline, rfl, rfl⟩
    | ready | acting | ended | crashed => exact .inr ⟨rfl, nofun⟩

theorem Like.isFinal_iff (h : phase.Like phase') : phase.IsFinal ↔ phase'.IsFinal := by
  cases h <;> exact Iff.rfl

theorem Like.eq_of_isFinal (h : phase.Like phase') (hfinal : phase.IsFinal) : phase' = phase := by
  cases h with
  | same => rfl
  | waiting => exact hfinal.elim

theorem not_isAsleep_iff {node : Node α} {more : List (Node α)} {now deadline : Nat}
    (hphase : phase = .waiting node more deadline) :
    phase.isAsleep now = false ↔ deadline ≤ now := by
  rw [hphase, isAsleep, decide_eq_false_iff_not, Nat.not_lt]

end Phase

namespace Run

variable {r r' : Run α κ}

theorem Like.symm (h : r.Like r') : r'.Like r :=
  ⟨h.retries.symm, h.pending.symm, h.phase.symm⟩

theorem Like.refl (r : Run α κ) : r.Like r := ⟨rfl, rfl, .same r.phase⟩

/-- Two runs and their surroundings are at the same place. -/
def LikeWith (Alike : σ → σ → Prop) (x y : Run α κ × σ) : Prop := x.1.Like y.1 ∧ Alike x.2 y.2

variable [Retry.Seconds 𝕊] [Named α]
variable {host : Host 𝕊 σ} {policy : Retry.Policy 𝕊} {behaviour : Behaviour α α κ σ}
  {Alike : σ → σ → Prop} {s s' : σ}

/-- A step asks to be run again: both runs wait, or neither does. -/
theorem retry_like (hhost : host.Paces policy Alike) (hretries : r.retries = r'.retries)
    (hpending : r.pending = r'.pending) (node : Node α) (more : List (Node α)) (requested : Span)
    (h : Alike s s') :
    LikeWith Alike (r.retry host policy node more requested s)
      (r'.retry host policy node more requested s') := by
  have hdrawn := hhost.draw (hhost.countRetry h)
  have hdelay := hhost.delay (hhost.countRetry h) (r'.retries + 1) requested
  simp only [retry, hretries]
  split
  · exact ⟨⟨hretries, hpending, .same _⟩, h⟩
  · generalize policy.delay (r'.retries + 1) requested (host.draw (host.countRetry s)).1 = left
      at hdelay ⊢
    generalize policy.delay (r'.retries + 1) requested (host.draw (host.countRetry s')).1 = right
      at hdelay ⊢
    cases left with
    | none =>
      obtain rfl : right = none := Option.not_isSome_iff_eq_none.1 (by simp [← hdelay])
      exact ⟨⟨rfl, hpending, .same _⟩, hdrawn⟩
    | some delay =>
      obtain ⟨delay', rfl⟩ := Option.isSome_iff_exists.1 hdelay.symm
      exact ⟨⟨rfl, hpending, .waiting _ _ _ _⟩, hdrawn⟩

theorem progressed_like (hhost : host.Paces policy Alike) (hretries : r.retries = r'.retries)
    (hpending : r.pending = r'.pending) (node : Node α) (more : List (Node α))
    {x y : Progress α κ × σ} (h : SameWith Alike x y) :
    LikeWith Alike (r.progressed host policy node more x)
      (r'.progressed host policy node more y) := by
  obtain ⟨progress, s⟩ := x
  obtain ⟨progress', s'⟩ := y
  obtain ⟨hprogress, halike⟩ := h
  obtain rfl : progress = progress' := hprogress
  match progress with
  | .paused _ | .done (.error _) | .done (.ok .terminate) =>
    exact ⟨⟨hretries, hpending, .same _⟩, halike⟩
  | .done (.ok .proceed) | .done (.ok (.branch _)) => exact ⟨⟨rfl, hpending, .same _⟩, halike⟩
  | .done (.ok (.insert c)) =>
    refine ⟨⟨rfl, ?_, .same _⟩, halike⟩
    simp only [progressed, follow, goTo, keep]
    split
    · exact hpending
    · exact congrArg (more :: ·) hpending
  | .done (.ok (.retryAfter requested)) =>
    exact retry_like hhost hretries hpending node more requested halike

/-- Two runs at the same place, neither of which sleeps, take the same step. -/
theorem step_like (hhost : host.heedless.Paces policy Alike) (hbehaviour : behaviour.Ignores Alike)
    (h : r.Like r') (hs : Alike s s') (hawake : r.phase.isAsleep (host.now s) = false)
    (hawake' : r'.phase.isAsleep (host.now s') = false) :
    LikeWith Alike (r.step host.heedless policy behaviour s)
      (r'.step host.heedless policy behaviour s') := by
  rcases h.phase.cases_waiting with ⟨node, more, deadline, deadline', hphase, hphase'⟩ |
    ⟨hsame, hnever⟩
  · have hwoken : deadline ≤ host.heedless.now s := (Phase.not_isAsleep_iff hphase).1 hawake
    have hwoken' : deadline' ≤ host.heedless.now s' := (Phase.not_isAsleep_iff hphase').1 hawake'
    rw [step_waiting hphase (isStopped_heedless host node s), if_pos hwoken,
      step_waiting hphase' (isStopped_heedless host node s'), if_pos hwoken']
    exact ⟨⟨h.retries, h.pending, .same _⟩, hs⟩
  cases hphase : r.phase with
  | waiting node more deadline => exact (hnever node more deadline hphase).elim
  | acting node more activity =>
    rw [step_acting hphase, step_acting (hsame.trans hphase)]
    exact progressed_like hhost h.retries h.pending node more (hbehaviour.resume activity hs)
  | ready rest =>
    have hphase' : r'.phase = .ready rest := hsame.trans hphase
    cases rest with
    | nil =>
      simp only [step, hphase, hphase', ← h.pending]
      cases r.pending with
      | nil => exact ⟨⟨h.retries, h.pending, .same _⟩, hs⟩
      | cons rest pending => exact ⟨⟨h.retries, rfl, .same _⟩, hs⟩
    | cons node more =>
      have hgo := isStopped_heedless host node s
      have hgo' := isStopped_heedless host node s'
      cases haction : node.action with
      | some action =>
        rw [step_start hphase haction hgo, step_start hphase' haction hgo']
        refine progressed_like hhost ?_ ?_ node more (hbehaviour.start action hs)
        · exact h.retries
        · exact h.pending
      | none =>
        simp only [step, hphase, hphase', hgo, hgo', haction]
        exact ⟨⟨h.retries, h.pending, .same _⟩, hs⟩
  | ended | crashed =>
    simp only [step, hphase, hsame.trans hphase]
    exact ⟨h, hs⟩

/-- A run that sleeps and is not stopped stays as it is. -/
theorem step_asleep (hasleep : r.phase.isAsleep (host.now s) = true)
    (hgo : ∀ node : Node α, isStopped host node s = false) :
    r.step host policy behaviour s = (r, s) := by
  unfold Phase.isAsleep at hasleep
  split at hasleep
  case h_1 node more deadline hphase =>
    rw [step_waiting hphase (hgo node), if_neg (Nat.not_le.2 (of_decide_eq_true hasleep))]
  case h_2 => cases hasleep

end Run

end Reconcile
