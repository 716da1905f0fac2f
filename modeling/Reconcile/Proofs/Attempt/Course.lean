import Reconcile.Proofs.Attempt.Change

/-!
# The course of an attempt

An attempt takes its steps in a world that it shares, and between two of them anything may
happen there: others cancel it, count failures, change the identity of the operator or hand
records over.  A course is a sequence of steps of one attempt with such changes in between
(`Attempt.Course`).  It counts the steps and lists the records that the attempt itself hands
over.  What may be said of the world at the moments of the steps is a parameter.

What every step keeps, together with the records so far, a course keeps (`Course.invariant`).
That an attempt ends, whatever else happens, is `Attempt.EndsWithin`.
-/

namespace Reconcile

variable {𝕊 β κ ε : Type}

/-- The records that have been handed over since the world was another one. -/
def World.handedSince (before after : World 𝕊 ε) : List Record :=
  after.outbox.handed.drop before.outbox.handed.length

theorem World.handedSince_of_append {before after : World 𝕊 ε} {rs : List Record}
    (h : after.outbox.handed = before.outbox.handed ++ rs) : before.handedSince after = rs := by
  simp [World.handedSince, h]

theorem World.handedSince_of_eq {before after : World 𝕊 ε}
    (h : after.outbox.handed = before.outbox.handed) : before.handedSince after = [] :=
  World.handedSince_of_append (by rw [h, List.append_nil])

namespace Attempt

variable [Retry.Seconds 𝕊] [Named β]
variable (p : Processor 𝕊 β) (custom : Behaviour β (Act β) κ (Packet × World 𝕊 ε))

/-- An attempt comes from one state to another in a number of steps of its own, in which it
hands records over.  Every step is taken in a world that is allowed. -/
inductive Course (Allowed : World 𝕊 ε → Prop) :
    Attempt β κ × World 𝕊 ε → Nat → List Record → Attempt β κ × World 𝕊 ε → Prop
  | refl (x : Attempt β κ × World 𝕊 ε) : Course Allowed x 0 [] x
  | step {a : Attempt β κ} {w : World 𝕊 ε} {n : Nat} {rs : List Record}
      {y : Attempt β κ × World 𝕊 ε} : Allowed w → Course Allowed (a.step p custom w) n rs y →
      Course Allowed (a, w) (n + 1) (w.handedSince (a.step p custom w).2 ++ rs) y
  /-- Something else happens in the world. -/
  | elapse {a : Attempt β κ} {w w' : World 𝕊 ε} {n : Nat} {rs : List Record}
      {y : Attempt β κ × World 𝕊 ε} : Course Allowed (a, w') n rs y →
      Course Allowed (a, w) n rs y

/-- Steps of an attempt without anything in between, and the records that it hands over. -/
def walk : Nat → Attempt β κ × World 𝕊 ε → List Record × Attempt β κ × World 𝕊 ε
  | 0, x => ([], x)
  | n + 1, x =>
    let next := x.1.step p custom x.2
    let (rs, y) := walk n next
    (x.2.handedSince next.2 ++ rs, y)

/-- The attempt ends with a result after at most some number of its steps, whatever else
happens in the world. -/
def EndsWithin (k : Nat) (a : Attempt β κ) (result : Except Fault Outcome) : Prop :=
  ∀ w n rs y, Course p custom (fun _ => True) (a, w) n rs y → k ≤ n → y.1.result? = some result

variable {p custom}

namespace Course

variable {Allowed : World 𝕊 ε → Prop} {x y : Attempt β κ × World 𝕊 ε} {n : Nat}
  {rs : List Record}

theorem of_walk (n : Nat) (x : Attempt β κ × World 𝕊 ε)
    (hallowed : ∀ k < n, Allowed (walk p custom k x).2.2) :
    Course p custom Allowed x n (walk p custom n x).1 (walk p custom n x).2 := by
  induction n generalizing x with
  | zero => exact .refl x
  | succ n ih =>
    refine .step (hallowed 0 (Nat.succ_pos n)) (ih _ fun k hk => ?_)
    exact hallowed (k + 1) (Nat.succ_lt_succ hk)

/-- What the steps of an attempt keep of it and of its records, a course keeps. -/
theorem invariant (h : Course p custom Allowed x n rs y) (Kept : List Record → Attempt β κ → Prop)
    (hstep : ∀ rs a w, Kept rs a → Allowed w →
      Kept (rs ++ w.handedSince (a.step p custom w).2) (a.step p custom w).1)
    (before : List Record) (hx : Kept before x.1) : Kept (before ++ rs) y.1 := by
  induction h generalizing before with
  | refl x => rwa [List.append_nil]
  | step hallowed _ ih =>
    rw [← List.append_assoc]
    exact ih _ (hstep _ _ _ hx hallowed)
  | elapse _ ih => exact ih before hx

/-- The operation of an attempt stays the same. -/
theorem operation_eq (h : Course p custom Allowed x n rs y) : y.1.operation = x.1.operation :=
  h.invariant (fun _ a => a.operation = x.1.operation)
    (fun _ a w ha _ => (a.step_operation p custom w).trans ha) [] rfl

end Course

/-! ## Ends -/

namespace EndsWithin

variable {a : Attempt β κ} {result : Except Fault Outcome} {j k : Nat}

theorem ended {m : MakeRight β} {packet : Packet} :
    EndsWithin p custom 0 ⟨m, .ended packet result⟩ result := by
  intro w n rs y hcourse _
  refine hcourse.invariant (fun _ a => a.result? = some result) ?_ [] rfl
  intro rs a w ha _
  obtain ⟨operation, stage⟩ := a
  cases stage with
  | ended => exact ha
  | prepared | running | reporting | crashed => cases ha

theorem mono (hjk : j ≤ k) (h : EndsWithin p custom j a result) :
    EndsWithin p custom k a result :=
  fun w n rs y hcourse hn => h w n rs y hcourse (Nat.le_trans hjk hn)

/-- An attempt that ends in time after its next step ends with one step more. -/
theorem step (h : ∀ w, EndsWithin p custom k (a.step p custom w).1 result) :
    EndsWithin p custom (k + 1) a result := by
  intro w n rs y hcourse hn
  generalize hx : (a, w) = x at hcourse
  induction hcourse generalizing w with
  | refl => cases hn
  | step _ hrest =>
    cases hx
    exact h _ _ _ _ _ hrest (Nat.le_of_succ_le_succ hn)
  | elapse _ ih =>
    cases hx
    exact ih _ hn rfl

theorem next (h : EndsWithin p custom k a result) (w : World 𝕊 ε) :
    EndsWithin p custom k (a.step p custom w).1 result := by
  intro w' n rs y hcourse hn
  exact h w (n + 1) _ y (.step trivial (.elapse hcourse)) (Nat.le_succ_of_le hn)

end EndsWithin

/-! ## Guards -/

/-- An attempt that holds a guard holds that of its own domain. -/
def OwnsGuard (a : Attempt β κ) : Prop := ∀ g, a.guard? = some g → g.uid = a.operation.domain.uid

theorem OwnsGuard.step {a : Attempt β κ} (h : a.OwnsGuard) (w : World 𝕊 ε) :
    (a.step p custom w).1.OwnsGuard := by
  intro g hg
  have hchange := a.step_change p custom w
  rw [a.step_operation p custom w]
  generalize a.step p custom w = after at hchange hg
  cases hchange with
  | begun _ _ hguard' =>
    obtain rfl := Option.some.inj (hguard'.symm.trans hg)
    rfl
  | stepped hguard _ hguard' => exact h g (hguard.trans (hguard'.symm.trans hg))
  | turned hguard _ _ hguard' => exact h g (hguard.trans (hguard'.symm.trans hg))
  | released _ _ _ hguard' =>
    rw [hguard'] at hg
    cases hg
  | idle hguard =>
    rw [hguard] at hg
    cases hg

end Attempt

end Reconcile
