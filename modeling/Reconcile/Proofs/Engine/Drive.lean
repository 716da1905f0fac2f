import Reconcile.Engine.Run

/-!
# Driving a run alone

`Run.drive` advances a run by single moves (`Run.tick`) until it has ended or its fuel is used
up.  Moves compose (`drive_add`), a run that has ended stays as it is (`drive_of_final`), and so
whatever a run comes to is as far from the end as the fuel that is left (`exists_less_fuel`).
-/

namespace Reconcile

/-- Whether a phase is final. -/
def Phase.IsFinal {α κ : Type} : Phase α κ → Prop
  | .ended _ => True
  | .crashed => True
  | _ => False

theorem Phase.not_isFinal_of_ready {α κ : Type} {phase : Phase α κ} {rest : List (Node α)}
    (h : phase = .ready rest) : ¬ phase.IsFinal := by
  rw [h]
  exact id

theorem Phase.not_isFinal_of_acting {α κ : Type} {phase : Phase α κ} {node : Node α}
    {more : List (Node α)} {activity : κ} (h : phase = .acting node more activity) :
    ¬ phase.IsFinal := by
  rw [h]
  exact id

/-- Whether every delay of a policy can be computed, whatever is requested and drawn. -/
def Host.Affords {𝕊 σ : Type} [Retry.Seconds 𝕊] (host : Host 𝕊 σ) (policy : Retry.Policy 𝕊) :
    Prop :=
  ∀ retry requested s, (policy.delay retry requested (host.draw s).1).isSome

namespace Run

variable {𝕊 α κ σ : Type} [Retry.Seconds 𝕊] [Named α]
variable {host : Host 𝕊 σ} {sleep : Nat → σ → σ} {policy : Retry.Policy 𝕊}
  {behaviour : Behaviour α α κ σ}

variable (host sleep policy behaviour) in
/-- One move of a run that is driven alone: a wait is slept through. -/
def tick (x : Run α κ × σ) : Run α κ × σ :=
  match x.1.phase with
  | .waiting _ _ deadline => step host policy behaviour x.1 (sleep deadline x.2)
  | _ => step host policy behaviour x.1 x.2

theorem drive_of_final {r : Run α κ} (h : r.phase.IsFinal) (fuel : Nat) (s : σ) :
    drive host sleep policy behaviour fuel r s = (r, s) := by
  cases fuel with
  | zero => rfl
  | succ fuel =>
    unfold drive
    split <;> simp_all [Phase.IsFinal]

theorem tick_of_final {r : Run α κ} (h : r.phase.IsFinal) (s : σ) :
    tick host sleep policy behaviour (r, s) = (r, s) := by
  unfold tick step
  cases hp : r.phase <;> simp_all [Phase.IsFinal]

theorem drive_succ (fuel : Nat) (r : Run α κ) (s : σ) :
    drive host sleep policy behaviour (fuel + 1) r s =
      drive host sleep policy behaviour fuel (tick host sleep policy behaviour (r, s)).1
        (tick host sleep policy behaviour (r, s)).2 := by
  by_cases h : r.phase.IsFinal
  · rw [tick_of_final h, drive_of_final h, drive_of_final h]
  · rw [drive, tick]
    cases hp : r.phase with
    | ready rest => rfl
    | acting node more activity => rfl
    | waiting node more deadline => rfl
    | ended result => simp [hp, Phase.IsFinal] at h
    | crashed => simp [hp, Phase.IsFinal] at h

theorem drive_add (m n : Nat) (r : Run α κ) (s : σ) :
    drive host sleep policy behaviour (m + n) r s =
      drive host sleep policy behaviour n (drive host sleep policy behaviour m r s).1
        (drive host sleep policy behaviour m r s).2 := by
  induction m generalizing r s with
  | zero => rw [Nat.zero_add]; rfl
  | succ m ih => rw [Nat.succ_add, drive_succ, drive_succ, ih]

/-- A run that ends has what is left of its fuel at every state it comes to. -/
theorem drive_sub {n k : Nat} {r : Run α κ} {s : σ} {y : Run α κ × σ}
    (hfinal : (drive host sleep policy behaviour n r s).1.phase.IsFinal)
    (hy : drive host sleep policy behaviour k r s = y) :
    drive host sleep policy behaviour (n - k) y.1 y.2 =
      drive host sleep policy behaviour n r s := by
  rcases Nat.le_total k n with hkn | hnk
  · obtain ⟨m, rfl⟩ := Nat.exists_eq_add_of_le hkn
    rw [Nat.add_sub_cancel_left, drive_add, hy]
  · obtain ⟨m, rfl⟩ := Nat.exists_eq_add_of_le hnk
    rw [drive_add, drive_of_final hfinal] at hy
    rw [← hy, drive_of_final hfinal]

/-! ## Passing through states -/

variable (host sleep policy behaviour) in
/-- A run that is driven alone comes from one state to another. -/
def Reaches (x y : Run α κ × σ) : Prop :=
  ∃ fuel, drive host sleep policy behaviour fuel x.1 x.2 = y

theorem Reaches.refl (x : Run α κ × σ) : Reaches host sleep policy behaviour x x := ⟨0, rfl⟩

theorem Reaches.trans {x y z : Run α κ × σ} (hxy : Reaches host sleep policy behaviour x y)
    (hyz : Reaches host sleep policy behaviour y z) : Reaches host sleep policy behaviour x z := by
  obtain ⟨m, hm⟩ := hxy
  obtain ⟨n, hn⟩ := hyz
  exact ⟨m + n, by rw [drive_add, hm, hn]⟩

theorem Reaches.of_tick {x y z : Run α κ × σ} (htick : tick host sleep policy behaviour x = y)
    (h : Reaches host sleep policy behaviour y z) : Reaches host sleep policy behaviour x z := by
  obtain ⟨n, hn⟩ := h
  exact ⟨n + 1, by rw [drive_succ, htick, hn]⟩

/-- From a state that is not final, a run that ends needs less fuel for the rest. -/
theorem exists_less_fuel {n : Nat} {x y : Run α κ × σ} (hopen : ¬ x.1.phase.IsFinal)
    (hfinal : (drive host sleep policy behaviour n x.1 x.2).1.phase.IsFinal)
    (h : Reaches host sleep policy behaviour (tick host sleep policy behaviour x) y) :
    ∃ m < n, drive host sleep policy behaviour m y.1 y.2 =
      drive host sleep policy behaviour n x.1 x.2 := by
  obtain ⟨k, hk⟩ := h
  cases n with
  | zero => exact absurd hfinal hopen
  | succ n =>
    rw [drive_succ] at hfinal ⊢
    exact ⟨n - k, by omega, drive_sub hfinal hk⟩

/-- A run has only one end. -/
theorem Reaches.final_unique {x y z : Run α κ × σ} (hy : Reaches host sleep policy behaviour x y)
    (hyfinal : y.1.phase.IsFinal) (hz : Reaches host sleep policy behaviour x z)
    (hzfinal : z.1.phase.IsFinal) : y = z := by
  obtain ⟨m, hm⟩ := hy
  obtain ⟨n, hn⟩ := hz
  have hmn : drive host sleep policy behaviour (m + n) x.1 x.2 = y := by
    rw [drive_add, hm, drive_of_final hyfinal]
  have hnm : drive host sleep policy behaviour (m + n) x.1 x.2 = z := by
    rw [Nat.add_comm, drive_add, hn, drive_of_final hzfinal]
  exact hmn.symm.trans hnm

/-! ## Runs that do not crash -/

/-- Nothing that follows an action crashes a run if all delays can be computed. -/
theorem follow_phase_ne_crashed (hdelays : host.Affords policy) (r : Run α κ) (node : Node α)
    (more : List (Node α)) (result : Except Fault (Directive α)) (s : σ) :
    (follow host policy r node more result s).1.phase ≠ .crashed := by
  match result with
  | .error _ => simp [follow, finish]
  | .ok .proceed => simp [follow, goTo]
  | .ok (.insert _) => simp [follow, goTo]
  | .ok (.branch _) => simp [follow, goTo]
  | .ok .terminate => simp [follow, finish]
  | .ok (.retryAfter requested) =>
    obtain ⟨delay, hdelay⟩ := Option.isSome_iff_exists.1
      (hdelays (r.retries + 1) requested (host.countRetry s))
    by_cases hspent : policy.maxRetries ≤ r.retries
    · simp [follow, retry, hspent, finish]
    · simp [follow, retry, hspent, hdelay]

theorem progressed_phase_ne_crashed (hdelays : host.Affords policy) (r : Run α κ)
    (node : Node α) (more : List (Node α)) (x : Progress α κ × σ) :
    (progressed host policy r node more x).1.phase ≠ .crashed := by
  obtain ⟨progress, s⟩ := x
  cases progress with
  | paused activity => simp [progressed]
  | done result => exact follow_phase_ne_crashed hdelays r node more result s

theorem step_phase_ne_crashed (hdelays : host.Affords policy) {r : Run α κ}
    (h : r.phase ≠ .crashed) (s : σ) : (step host policy behaviour r s).1.phase ≠ .crashed := by
  unfold step
  cases hp : r.phase with
  | ready rest =>
    cases rest with
    | nil => cases hpending : r.pending <;> simp [finish, hpending]
    | cons node more =>
      by_cases hstopped : isStopped host node s
      · simp [hstopped, finish]
      · cases haction : node.action with
        | none => simp [hstopped, haction]
        | some action =>
          simpa [hstopped, haction] using progressed_phase_ne_crashed hdelays _ node more _
  | acting node more activity => exact progressed_phase_ne_crashed hdelays r node more _
  | waiting node more deadline =>
    dsimp only
    split
    · simp [finish]
    · split
      · simp
      · exact h
  | ended result => exact h
  | crashed => exact absurd hp h

/-- A run never crashes if all delays can be computed. -/
theorem drive_phase_ne_crashed (hdelays : host.Affords policy) (fuel : Nat) {r : Run α κ}
    (h : r.phase ≠ .crashed) (s : σ) :
    (drive host sleep policy behaviour fuel r s).1.phase ≠ .crashed := by
  induction fuel generalizing r s with
  | zero => exact h
  | succ fuel ih =>
    rw [drive_succ]
    refine ih ?_ _
    unfold tick
    split <;> exact step_phase_ne_crashed hdelays h _

end Run
end Reconcile
