import Reconcile.Proofs.Attempt.Completion
import Reconcile.Proofs.Engine.Budget
import Reconcile.Proofs.Engine.Shares
import Reconcile.Proofs.Engine.Terminals

/-!
# The work of a plan

A plan says how much work a run of it can be.  Its actions may go on, end the run, fail or ask for
retries, as they like and each time anew, as long as they do not ask for chains of their own.  Then
a run in any passage comes to its end, and what it has done until then is bounded by the actions
that stand in the plan (`Steps.Workload`).

The bounds hold of any actions that one picks.  So they tell the occurrences of an action apart as
soon as the actions of the plan are different, for instance since each of them is marked.
-/

namespace Reconcile

variable {𝕊 α β κ ε : Type}

/-! ## Counting what a run has done -/

namespace Run

theorem countP_invoked (r : Run α κ) (picked : α → Bool) :
    r.invoked.countP (fun node => node.action.any picked) =
      r.journal.reverse.countP fun e => e.isStart && e.concerns picked := by
  rw [invoked, List.countP_filterMap]
  congr 1
  funext e
  cases e <;> rfl

theorem countP_waits (r : Run α κ) (picked : α → Bool) :
    r.waits.countP (fun wait => wait.1.action.any picked) =
      r.journal.reverse.countP fun e => e.isPause && e.concerns picked := by
  rw [waits, List.countP_filterMap]
  congr 1
  funext e
  cases e <;> rfl

end Run

namespace IsDivided

variable {π : Type} {limit : Nat} {actions : List (Action π α)} {r : Run (Action π α) κ}
  (h : IsDivided limit actions r.journal.reverse) (picked : Action π α → Bool)

include h

theorem countP_invoked_work_le :
    r.invoked.countP (fun node => node.action.any fun a => a.isWork && picked a) ≤
      actions.countP (fun a => a.isWork && picked a) * (limit + 1) := by
  rw [r.countP_invoked]
  refine (h.countP_le Entry.isStart _ (fun _ => true) (limit + 1) fun action share hshare hpicked =>
    ?_).trans_eq ?_
  · cases action with
    | work a => exact hshare.starts
    | choice => cases hpicked
  · simp

theorem countP_invoked_choice_le :
    r.invoked.countP (fun node => node.action.any fun a => !a.isWork && picked a) ≤
      actions.countP fun a => !a.isWork && picked a := by
  rw [r.countP_invoked]
  refine (h.countP_le Entry.isStart _ (fun _ => true) 1 fun action share hshare hpicked =>
    ?_).trans_eq ?_
  · cases action with
    | work a => cases hpicked
    | choice => exact hshare.starts
  · simp

theorem countP_waits_le :
    r.waits.countP (fun wait => wait.1.action.any picked) ≤
      actions.countP (fun a => a.isWork && picked a) * limit := by
  rw [r.countP_waits]
  refine h.countP_le Entry.isPause picked Action.isWork limit fun action share hshare _ => ?_
  cases action with
  | work a => exact hshare.pauses
  | choice => exact hshare.pauses

/-- Every wait is for a retry of an action. -/
theorem length_waits_le : r.waits.length ≤ actions.countP Action.isWork * limit := by
  have hall : r.waits.countP (fun wait => wait.1.action.any fun _ => true) = r.waits.length := by
    rw [List.countP_eq_length]
    intro wait hwait
    obtain ⟨e, he, hwaits⟩ := List.mem_filterMap.1 hwait
    obtain ⟨action, haction⟩ := h.exists_action he
    cases e with
    | invoked => cases hwaits
    | waited node delay =>
      cases hwaits
      show node.action.any _ = true
      rw [show node.action = some action from haction]
      rfl
  have hle := h.countP_waits_le fun _ => true
  rw [hall] at hle
  simpa using hle

end IsDivided

/-! ## The actions of attempts -/

theorem Work.embed_answer? (x : Progress (Act β) κ × Packet × World 𝕊 ε) :
    (Work.embed x).1.answer? = x.1.answer? := by
  obtain ⟨_ | _, _⟩ := x <;> rfl

/-- In the work of an attempt only choices ask for chains, if the actions of the reconciler do
not. -/
theorem Work.conducts {custom : Behaviour β (Act β) κ (Packet × World 𝕊 ε)}
    (hcustom : custom.Names fun _ => False) : (Work.behaviour custom).Conducts where
  choice name test yes no s := by
    refine ⟨if test s.1 then yes else no, s, ?_, ?_⟩
    · split
      · exact .inl rfl
      · exact .inr rfl
    · simp only [behaviour]
      split <;> rfl
  work a s c := by
    cases a with
    | event q => exact Attempt.not_asksFor_event q s c
    | custom b =>
      rintro hasks
      refine hcustom.start b s c ?_
      rwa [← embed_answer?]
  resume activity s c := by
    cases activity with
    | handing record => simp [behaviour, AsksFor, Progress.answer?]
    | custom k =>
      rintro hasks
      refine hcustom.resume k s c ?_
      rwa [← embed_answer?]

/-! ## Whole runs -/

section

variable [Retry.Seconds 𝕊] [Named β]
variable {isCancelled : World 𝕊 ε → Bool} {policy : Retry.Policy 𝕊}
  {custom : Behaviour β (Act β) κ (Packet × World 𝕊 ε)}

/-- What a run of a plan comes to. -/
structure Steps.Workload (plan : Steps β)
    (x : Passage (Run.step (World.host isCancelled) policy (Work.behaviour custom))) : Prop where
  /-- The run ends, if its actions answer and its waits are over some time. -/
  ends : x.Returns → x.Elapses → ∃ n, ∀ k, n ≤ k → (x.state k).phase.IsFinal
  /-- It ends with a result, if all delays can be computed. -/
  result : x.Returns → x.Elapses → (∀ n, (x.left n).2.Affords policy) →
    ∃ n result, ∀ k, n ≤ k → (x.state k).result? = some result
  /-- What it has done falls into a share for each occurrence of an action in the plan, in order.  A
  share holds no more starts than there may be tries, and one start if the action is a choice. -/
  shares : ∀ n, IsDivided policy.maxRetries plan.occurrences (x.state n).journal.reverse
  /-- So whichever actions are picked, they are started at most once for each of their occurrences
  and each retry of it, and once more. -/
  started : ∀ n (picked : Act β → Bool),
    ((x.state n).invoked.countP fun node => node.action.any fun a => a.isWork && picked a) ≤
      plan.occurrences.countP (fun a => a.isWork && picked a) * (policy.maxRetries + 1)
  chosen : ∀ n (picked : Act β → Bool),
    ((x.state n).invoked.countP fun node => node.action.any fun a => !a.isWork && picked a) ≤
      plan.occurrences.countP fun a => !a.isWork && picked a
  waited : ∀ n (picked : Act β → Bool),
    ((x.state n).waits.countP fun wait => wait.1.action.any picked) ≤
      plan.occurrences.countP (fun a => a.isWork && picked a) * policy.maxRetries
  starts : ∀ n, ((x.state n).invoked.countP fun node => node.action.any Action.isWork) ≤
    plan.occurrences.countP Action.isWork * (policy.maxRetries + 1)
  waits : ∀ n, (x.state n).waits.length ≤
    plan.occurrences.countP Action.isWork * policy.maxRetries

/-- A run of a plan ends, and its work is bounded by the occurrences of the actions in the plan,
however they answer and whenever the run is cancelled. -/
theorem Steps.workload (hcustom : custom.Names fun _ => False) (plan : Steps β)
    {x : Passage (Run.step (World.host isCancelled) policy (Work.behaviour custom))}
    (hstart : x.first = .start plan.build) : Steps.Workload plan x := by
  have hconducts : (Work.behaviour custom).Conducts := Work.conducts hcustom
  have hshares := x.isDivided hstart hconducts
  have hends : x.Returns → x.Elapses →
      ∃ n, (x.state n).phase.IsFinal ∧ ∀ k, n ≤ k → x.state k = x.state n := by
    intro hreturns helapses
    obtain ⟨n, hfinal⟩ := x.exists_final hconducts hreturns helapses
    exact ⟨n, hfinal, fun k hk =>
      x.state_of_rests (fun s => congrArg Prod.fst (Run.step_of_final hfinal)) hk⟩
  refine ⟨?_, ?_, hshares, fun n => (hshares n).countP_invoked_work_le,
    fun n => (hshares n).countP_invoked_choice_le, fun n => (hshares n).countP_waits_le, ?_,
    fun n => (hshares n).length_waits_le⟩
  · intro hreturns helapses
    obtain ⟨n, hfinal, hrests⟩ := hends hreturns helapses
    exact ⟨n, fun k hk => hrests k hk ▸ hfinal⟩
  · intro hreturns helapses hdelays
    obtain ⟨n, hfinal, hrests⟩ := hends hreturns helapses
    have hopen : (x.state n).phase ≠ .crashed := x.ne_crashed hstart hdelays n
    cases hphase : (x.state n).phase with
    | ended result =>
      refine ⟨n, result, fun k hk => ?_⟩
      rw [hrests k hk, Run.result?, hphase]
    | crashed => exact (hopen hphase).elim
    | ready | acting | waiting =>
      rw [hphase] at hfinal
      exact hfinal.elim
  · intro n
    simpa using (hshares n).countP_invoked_work_le fun _ => true

end

/-! ### A doorbell -/

/-- Somebody rings at a door, and asks for a retry until it is four milliseconds past. -/
inductive Doorbell
  | ring

namespace Doorbell

instance : Named Doorbell := ⟨fun _ => "ring"⟩

def behaviour : Behaviour Doorbell (Act Doorbell) Empty (Packet × World Rat Bool) where
  start _ s := (.done (.ok (if s.2.now < 4 then .retryAfter .zero else .proceed)), s)
  resume activity := nomatch activity

theorem names : behaviour.Names fun _ => False where
  start _ s c hasks := by
    simp only [behaviour] at hasks
    split at hasks <;> rcases hasks with h | h <;> cases h
  resume activity := nomatch activity

/-- One ring if somebody is expected, and another in any case. -/
def plan : Steps Doorbell :=
  .chain [.choice "expected" (fun _ => true) (.act (.custom ring)) .terminal,
    .critical (.act (.custom ring))]

/-- With each step a millisecond passes. -/
def passage : Passage (Run.step (World.host fun _ => false) Asker.policy
    (Work.behaviour behaviour)) :=
  ⟨.start plan.build, fun n => (.empty, { Vigil.world with now := n })⟩

theorem returns : passage.Returns := by
  intro n node more activity hphase
  cases activity with
  | custom k => cases k
  | handing record =>
    refine ⟨n, le_rfl, ?_⟩
    rw [Run.answer?, hphase]
    rfl

theorem elapses : passage.Elapses :=
  fun n _ _ deadline _ => ⟨max n deadline, le_max_left _ _, le_max_right _ _⟩

/-- The run ends, and has not rung more than four times nor waited more than twice: in fact it has
rung three times and waited once. -/
theorem rings_bounded :
    (∃ n, ∀ k, n ≤ k → (passage.state k).phase.IsFinal) ∧
      (∀ n, ((passage.state n).invoked.countP fun node => node.action.any Action.isWork) ≤ 4) ∧
      (∀ n, (passage.state n).waits.length ≤ 2) ∧
      (passage.state 8).result? = some (.ok .completed) ∧
      (passage.state 8).invoked.length = 4 ∧ (passage.state 8).waits.length = 1 := by
  have hworkload : Steps.Workload plan passage := Steps.workload names plan rfl
  refine ⟨hworkload.ends returns elapses, hworkload.starts, hworkload.waits, ?_, ?_, ?_⟩ <;>
    decide +kernel

end Doorbell

end Reconcile
