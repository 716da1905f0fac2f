import Reconcile.Proofs.Engine.Remainder

/-!
# Runs in front of more

A run takes the same steps when more chains are pending behind it, and when it has done something
before (`Run.step_amid`).  The one step that tells is that at the very end.

In the same way a run does not look behind the step that it is at.  `Run.onto` puts more steps
behind the current chain.
-/

namespace Reconcile

variable {𝕊 α κ σ : Type}

/-- The surroundings in which a run takes its next step when it is driven alone. -/
def Phase.slept (sleep : Nat → σ → σ) (phase : Phase α κ) (s : σ) : σ :=
  match phase with
  | .waiting _ _ deadline => sleep deadline s
  | _ => s

/-- A run at the same place, with more steps behind it in the current chain. -/
def Phase.onto (tail : List (Node α)) : Phase α κ → Phase α κ
  | .ready rest => .ready (rest ++ tail)
  | .acting node more activity => .acting node (more ++ tail) activity
  | .waiting node more deadline => .waiting node (more ++ tail) deadline
  | .ended result => .ended result
  | .crashed => .crashed

theorem Phase.slept_onto (sleep : Nat → σ → σ) (tail : List (Node α)) (phase : Phase α κ)
    (s : σ) : (phase.onto tail).slept sleep s = phase.slept sleep s := by
  cases phase <;> rfl

namespace Run

/-- A run with more steps behind it in the current chain. -/
def onto (tail : List (Node α)) (r : Run α κ) : Run α κ := { r with phase := r.phase.onto tail }

/-- A run with more chains to be resumed behind its own, which has done something before. -/
def amid (outer : List (List (Node α))) (earlier : List (Entry α)) (r : Run α κ) : Run α κ :=
  { r with pending := r.pending ++ outer, journal := r.journal ++ earlier }

variable {host : Host 𝕊 σ} {policy : Retry.Policy 𝕊} {behaviour : Behaviour α α κ σ}
  {r begun : Run α κ} {node : Node α} {more : List (Node α)} {s : σ} {x : Progress α κ × σ}
  {outer : List (List (Node α))} {earlier : List (Entry α)}

/-- An action does not look behind its step. -/
theorem Acts.onto (h : Acts host behaviour r s node more begun x) (tail : List (Node α)) :
    Acts host behaviour (r.onto tail) s node (more ++ tail) (begun.onto tail) x := by
  cases h with
  | starts hphase haction hgo =>
    exact .starts (by rw [Run.onto, hphase]; rfl) haction hgo
  | resumes hphase => exact .resumes (by rw [Run.onto, hphase]; rfl)

theorem answer?_slept {host : Host 𝕊 σ} {behaviour : Behaviour α α κ σ} (sleep : Nat → σ → σ)
    (r : Run α κ) (s : σ) :
    r.answer? host behaviour (r.phase.slept sleep s) = r.answer? host behaviour s := by
  unfold answer?
  cases hphase : r.phase <;> rfl

variable [Retry.Seconds 𝕊] [Named α]

theorem tick_eq_step (sleep : Nat → σ → σ) (r : Run α κ) (s : σ) :
    tick host sleep policy behaviour (r, s) =
      r.step host policy behaviour (r.phase.slept sleep s) := by
  unfold tick
  cases hphase : r.phase <;> rfl

variable (host policy node more outer earlier) in
theorem progressed_amid (begun : Run α κ) (x : Progress α κ × σ) :
    (begun.amid outer earlier).progressed host policy node more x =
      ((begun.progressed host policy node more x).1.amid outer earlier,
        (begun.progressed host policy node more x).2) := by
  obtain ⟨progress, s⟩ := x
  match progress with
  | .paused _ | .done (.error _) | .done (.ok .terminate) | .done (.ok .proceed)
  | .done (.ok (.branch _)) => rfl
  | .done (.ok (.insert c)) => cases more <;> rfl
  | .done (.ok (.retryAfter requested)) =>
    have hretries : (begun.amid outer earlier).retries = begun.retries := rfl
    simp only [progressed, follow, retry, hretries]
    split
    · rfl
    · split <;> rfl

/-- A step of a run is the same with more chains behind it, unless the run is at its end. -/
theorem step_amid (hmore : r.phase = .ready [] → r.pending = [] → outer = []) (s : σ) :
    (r.amid outer earlier).step host policy behaviour s =
      ((r.step host policy behaviour s).1.amid outer earlier,
        (r.step host policy behaviour s).2) := by
  have hsame : (r.amid outer earlier).phase = r.phase := rfl
  unfold step
  rw [hsame]
  cases hphase : r.phase with
  | ready rest =>
    cases rest with
    | nil =>
      cases hpending : r.pending with
      | nil =>
        have hnil : outer = [] := hmore hphase hpending
        simp [amid, hpending, hnil, finish]
      | cons rest pending => simp [amid, hpending]
    | cons node more =>
      simp only
      split
      · rfl
      · cases node.action with
        | none => rfl
        | some action =>
          exact progressed_amid host policy node more outer earlier
            ⟨r.retries, r.pending, .ready (node :: more), .invoked node :: r.journal⟩ _
  | acting node more activity => exact progressed_amid host policy node more outer earlier r _
  | waiting node more deadline =>
    simp only
    split
    · rfl
    · split <;> rfl
  | ended | crashed => rfl

section

variable (host policy)

theorem retry_onto (tail : List (Node α)) (r : Run α κ) (node : Node α) (more : List (Node α))
    (requested : Span) (s : σ) :
    (r.onto tail).retry host policy node (more ++ tail) requested s =
      ((r.retry host policy node more requested s).1.onto tail,
        (r.retry host policy node more requested s).2) := by
  have hretries : (r.onto tail).retries = r.retries := rfl
  unfold retry
  rw [hretries]
  split
  · rfl
  · dsimp only
    split <;> rfl

end

/-- The last move of a run that is driven alone. -/
theorem drive_succ_eq_tick (host : Host 𝕊 σ) (sleep : Nat → σ → σ) (policy : Retry.Policy 𝕊)
    (behaviour : Behaviour α α κ σ) (n : Nat) (r : Run α κ) (s : σ) :
    drive host sleep policy behaviour (n + 1) r s =
      tick host sleep policy behaviour (drive host sleep policy behaviour n r s) := by
  rw [drive_add, drive_succ]
  rfl

theorem drive_of_le {sleep : Nat → σ → σ} {m n : Nat}
    (hfinal : (drive host sleep policy behaviour m r s).1.phase.IsFinal) (hle : m ≤ n) :
    drive host sleep policy behaviour n r s = drive host sleep policy behaviour m r s := by
  obtain ⟨k, rfl⟩ := Nat.exists_eq_add_of_le hle
  rw [drive_add, drive_of_final hfinal]

theorem IsTidy.drive {sleep : Nat → σ → σ} (h : r.IsTidy) (n : Nat) (s : σ) :
    (Run.drive host sleep policy behaviour n r s).1.IsTidy := by
  induction n with
  | zero => exact h
  | succ n ih =>
    rw [drive_succ_eq_tick, tick_eq_step]
    exact ih.step host policy behaviour _

/-- A run that is driven alone does the same after it has done something before. -/
theorem drive_amid (host : Host 𝕊 σ) (sleep : Nat → σ → σ) (policy : Retry.Policy 𝕊)
    (behaviour : Behaviour α α κ σ) (earlier : List (Entry α)) (n : Nat) (r : Run α κ) (s : σ) :
    drive host sleep policy behaviour n (r.amid [] earlier) s =
      ((drive host sleep policy behaviour n r s).1.amid [] earlier,
        (drive host sleep policy behaviour n r s).2) := by
  induction n generalizing r s with
  | zero => rfl
  | succ n ih =>
    have hphase : (r.amid [] earlier).phase = r.phase := rfl
    have hmove : (r.amid [] earlier).step host policy behaviour (r.phase.slept sleep s) =
        ((r.step host policy behaviour (r.phase.slept sleep s)).1.amid [] earlier,
          (r.step host policy behaviour (r.phase.slept sleep s)).2) := step_amid (fun _ _ => rfl) _
    rw [drive_succ, drive_succ, tick_eq_step, tick_eq_step, hphase, hmove]
    exact ih _ _

end Run

end Reconcile
