/-!
# Machines among others

A machine takes its steps in surroundings that it shares with others.  A passage says what the
machine finds at each of its steps, and where that leads follows (`Passage.state`,
`Passage.left`).  Between two steps anything may happen to the surroundings.  What others leave
alone there is a premise about what is found, never a part of the passage; `Passage.among` is
the passage for a given schedule of what they do.

A passage goes on for ever, since a machine at its end takes steps that do nothing.  So "from
some step on" needs no case for a machine that has ended.
-/

namespace Reconcile

/-- A machine in front of its first step, and what it finds at each of its steps. -/
structure Passage {τ σ : Type} (step : τ → σ → τ × σ) where
  first : τ
  found : Nat → σ

namespace Passage

variable {τ σ : Type} {step : τ → σ → τ × σ}

/-- The machine in front of a step. -/
def state (x : Passage step) : Nat → τ
  | 0 => x.first
  | n + 1 => (step (state x n) (x.found n)).1

/-- The surroundings as a step leaves them. -/
def left (x : Passage step) (n : Nat) : σ := (step (x.state n) (x.found n)).2

theorem state_succ (x : Passage step) (n : Nat) :
    x.state (n + 1) = (step (x.state n) (x.found n)).1 := rfl

/-- A machine that nothing moves any more stays where it is. -/
theorem state_of_rests (x : Passage step) {n m : Nat}
    (hrests : ∀ s, (step (x.state n) s).1 = x.state n) (hnm : n ≤ m) : x.state m = x.state n := by
  induction hnm with
  | refl => rfl
  | step _ ih => rw [state_succ, ih, hrests]

/-- A machine gets somewhere if its size never grows and shrinks again and again until then. -/
theorem exists_of_shrinks (x : Passage step) (size : τ → Nat) {P : τ → Prop}
    (hle : ∀ n, size (x.state (n + 1)) ≤ size (x.state n))
    (hlt : ∀ n, ¬ P (x.state n) → ∃ k, n ≤ k ∧ size (x.state (k + 1)) < size (x.state k)) :
    ∃ n, P (x.state n) := by
  have hmono : ∀ {n k}, n ≤ k → size (x.state k) ≤ size (x.state n) := by
    intro n k hk
    induction hk with
    | refl => exact Nat.le_refl _
    | step _ ih => exact Nat.le_trans (hle _) ih
  have hreach : ∀ bound n, size (x.state n) < bound → ∃ n, P (x.state n) := by
    intro bound
    induction bound with
    | zero => exact fun _ hsize => absurd hsize (Nat.not_lt_zero _)
    | succ bound ih =>
      intro n hsize
      by_cases hgoal : P (x.state n)
      · exact ⟨n, hgoal⟩
      · obtain ⟨k, hk, hshrinks⟩ := hlt n hgoal
        have hbefore : size (x.state k) ≤ size (x.state n) := hmono hk
        exact ih (k + 1) (by omega)
  exact hreach _ 0 (Nat.lt_succ_self _)

/-- A machine that rests until something happens shrinks in the end, if nothing else can move it. -/
theorem exists_shrinks_of_rests (x : Passage step) (size : τ → Nat) (Over : σ → Prop)
    {n : Nat}
    (hrests : ∀ k, n ≤ k → x.state k = x.state n → size (x.state (k + 1)) < size (x.state k) ∨
      x.state (k + 1) = x.state k ∧ ¬ Over (x.found k))
    (hover : ∃ k, n ≤ k ∧ Over (x.found k)) :
    ∃ k, n ≤ k ∧ size (x.state (k + 1)) < size (x.state k) := by
  obtain ⟨k, hk, hover⟩ := hover
  apply Classical.byContradiction
  intro hstuck
  have hstays : ∀ j, n ≤ j → x.state j = x.state n → x.state (j + 1) = x.state j ∧
      ¬ Over (x.found j) := by
    intro j hj hsame
    rcases hrests j hj hsame with hshrinks | hrest
    · exact (hstuck ⟨j, hj, hshrinks⟩).elim
    · exact hrest
  have hsame : ∀ {j}, n ≤ j → x.state j = x.state n := by
    intro j hj
    induction hj with
    | refl => rfl
    | @step j hj ih => exact (hstays j hj ih).1.trans ih
  exact (hstays k hk (hsame hk)).2 hover

/-! ## Schedules of others -/

/-- The machine and its surroundings in front of a step, when others act after each step. -/
def scene (step : τ → σ → τ × σ) (first : τ) (s : σ) (others : Nat → σ → σ) : Nat → τ × σ
  | 0 => (first, s)
  | n + 1 =>
    let now := scene step first s others n
    let next := step now.1 now.2
    (next.1, others n next.2)

/-- The passage of a machine after each step of which others do what a schedule says. -/
def among (step : τ → σ → τ × σ) (first : τ) (s : σ) (others : Nat → σ → σ) : Passage step :=
  ⟨first, fun n => (scene step first s others n).2⟩

variable (first : τ) (s : σ) (others : Nat → σ → σ)

theorem state_among (n : Nat) :
    (among step first s others).state n = (scene step first s others n).1 := by
  induction n with
  | zero => rfl
  | succ n ih =>
    rw [state_succ, ih]
    rfl

theorem found_among_succ (n : Nat) :
    (among step first s others).found (n + 1) =
      others n ((among step first s others).left n) := by
  rw [left, state_among]
  rfl

/-! ## Two passages -/

/-- Machines are in the same state, and their surroundings are alike. -/
def SameWith (Alike : σ → σ → Prop) (x y : τ × σ) : Prop := x.1 = y.1 ∧ Alike x.2 y.2

/-- A machine passes twice.  Its surroundings are alike when it begins, and others keep them
alike. -/
structure Alongside (Alike : σ → σ → Prop) (x y : Passage step) : Prop where
  first : x.first = y.first
  found : Alike (x.found 0) (y.found 0)
  others : ∀ n, Alike (x.left n) (y.left n) → Alike (x.found (n + 1)) (y.found (n + 1))

/-- A machine that cannot tell surroundings apart, and leaves them as much alike as it has found
them, goes through the same states. -/
theorem Alongside.sameWith {Alike : σ → σ → Prop} {x y : Passage step} (h : Alongside Alike x y)
    (hstep : ∀ a s s', Alike s s' → SameWith Alike (step a s) (step a s')) (n : Nat) :
    SameWith Alike (x.state n, x.left n) (y.state n, y.left n) := by
  have hmet : x.state n = y.state n ∧ Alike (x.found n) (y.found n) := by
    induction n with
    | zero => exact ⟨h.first, h.found⟩
    | succ n ih =>
      obtain ⟨hstate, hfound⟩ := ih
      obtain ⟨hnext, hleft⟩ := hstep (x.state n) _ _ hfound
      have hothers : Alike (x.left n) (y.left n) → Alike (x.found (n + 1)) (y.found (n + 1)) :=
        h.others n
      rw [left, left, ← hstate] at hothers
      refine ⟨?_, hothers hleft⟩
      rw [state_succ, state_succ, ← hstate]
      exact hnext
  obtain ⟨hstate, hfound⟩ := hmet
  refine ⟨hstate, ?_⟩
  show Alike (x.left n) (y.left n)
  rw [left, left, ← hstate]
  exact (hstep (x.state n) _ _ hfound).2

end Passage

end Reconcile
