import Reconcile.Proofs.Attempt.Report
import Reconcile.Proofs.Engine.Budget
import Reconcile.Proofs.Engine.Critical

/-!
# Runs that a cancellation does not disturb

`World.SameApart` holds of two worlds that differ at most in what has been cancelled.  A run of
critical steps goes through the same states in both, whatever is cancelled in the one or the other
and at whatever moment: it starts the same actions, waits until the same deadlines, leaves the
same packet and has the same result (`Run.Undisturbed`).

The report of a failure that nothing follows is such a run, for any reason and message.  It ends
when every event has been requested, unless an event cannot be prepared.
-/

namespace Reconcile

variable {𝕊 α β κ ε : Type}

open Passage (SameWith)

/-! ## Worlds that differ in their cancellations -/

/-- A registry in which nothing has been cancelled. -/
def Registry.uncancelled (r : Registry) : Registry := { r with cancelled := [] }

namespace World

/-- Two worlds that differ at most in what has been cancelled.  What only custom actions know may
also tell of cancellations, and is the same but for them. -/
structure Apart (Same : ε → ε → Prop) (v w : World 𝕊 ε) : Prop where
  identity : v.identity = w.identity
  outbox : v.outbox = w.outbox
  counters : v.counters = w.counters
  declined : v.declined = w.declined
  registries : ∀ i, (v.registry i).uncancelled = (w.registry i).uncancelled
  nextAttempt : v.nextAttempt = w.nextAttempt
  now : v.now = w.now
  spread : v.spread = w.spread
  draws : v.draws = w.draws
  extra : Same v.extra w.extra

/-- The same packet, in worlds that differ at most in what has been cancelled. -/
def SameApart (Same : ε → ε → Prop) (s s' : Packet × World 𝕊 ε) : Prop :=
  s.1 = s'.1 ∧ s.2.Apart Same s'.2

/-- Without its cancellations a run is told the same. -/
theorem host_heedless_ignores (isCancelled : World 𝕊 ε → Bool) (Same : ε → ε → Prop) :
    (World.host isCancelled).heedless.Ignores (SameApart Same) where
  now h := h.2.now
  draw {s s'} h := by
    have hdraw : s.2.spread s.2.draws = s'.2.spread s'.2.draws := by rw [h.2.spread, h.2.draws]
    exact ⟨hdraw, h.1, { h.2 with draws := congrArg (· + 1) h.2.draws }⟩
  isCancelled _ := rfl
  countRetry h :=
    ⟨h.1, { h.2 with counters := congrArg (fun c => c.raise .stepRetries) h.2.counters }⟩
  timerFirst _ := rfl

end World

/-! ## Requests that are made in a row -/

/-- Actions that emit an event name no chain. -/
theorem Work.mayReach_event {custom : Behaviour β (Act β) κ (Packet × World 𝕊 ε)} {q : Request}
    {progress : Progress (Act β) (Activity κ)}
    (h : (Work.behaviour custom).MayReach (.work (.event q)) progress) :
    (∃ fault, progress = .done (.error fault)) ∨ progress = .done (.ok .proceed) ∨
      ∃ record, progress = .paused (.handing record) := by
  induction h with
  | starts s =>
    simp only [Work.behaviour]
    split
    · exact .inl ⟨_, rfl⟩
    · exact .inr (.inl rfl)
    · exact .inr (.inr ⟨_, rfl⟩)
  | resumes s _ ih =>
    obtain ⟨_, hdone⟩ | hdone | ⟨record, hpaused⟩ := ih
    · cases hdone
    · cases hdone
    · cases hpaused
      exact .inr (.inl rfl)

/-- A chain of emissions has no other steps. -/
theorem Work.mem_of_within {custom : Behaviour β (Act β) κ (Packet × World 𝕊 ε)}
    {c : Chain (Act β)} {qs : List Request}
    (hnodes : c.nodes = qs.map (Node.emitting true)) {node : Node (Act β)}
    (h : (Work.behaviour custom).Within c node) : ∃ q ∈ qs, node = Node.emitting true q := by
  induction h with
  | own hmem =>
    rw [hnodes, List.mem_map] at hmem
    obtain ⟨q, hq, rfl⟩ := hmem
    exact ⟨q, hq, rfl⟩
  | named _ haction hreach hasked _ ih =>
    obtain ⟨q, -, rfl⟩ := ih
    cases haction
    obtain ⟨_, hdone⟩ | hdone | ⟨_, hpaused⟩ := Work.mayReach_event hreach
    · cases hdone
      rcases hasked with hasked | hasked <;> cases hasked
    · cases hdone
      rcases hasked with hasked | hasked <;> cases hasked
    · cases hpaused

/-- The requests that report a failure. -/
def failureRequests (reason message : String) (abort : Bool) : List Request :=
  ((Request.of .processingFailed).withReason reason).withMessage message ::
    if abort then [.of .processingAborted] else []

theorem nodes_failurePlan (reason message : String) (abort : Bool) :
    (failurePlan reason message abort none : Steps β).build.nodes =
      (failureRequests reason message abort).map (Node.emitting true) := by
  unfold failurePlan failureRequests
  cases abort <;> rfl

section

variable [Retry.Seconds 𝕊]

/-- How a run that requests some events ends: it has requested all of them, or one of them could
not be prepared. -/
def Run.RequestsAll [Named β] {isCancelled : World 𝕊 ε → Bool} {policy : Retry.Policy 𝕊}
    {custom : Behaviour β (Act β) κ (Packet × World 𝕊 ε)}
    (x : Passage (Run.step (World.host isCancelled) policy (Work.behaviour custom)))
    (qs : List Request) (n k : Nat) : Prop :=
  (x.state k).result? = some (.ok .completed) ∧
      (x.state k).invoked = (x.state n).invoked ++ qs.map (Node.emitting true) ∨
    ∃ q ∈ qs, ∃ m < k, ∃ fault, q.prepare (x.found m).1 (x.found m).2.identity = .error fault ∧
      (x.state k).result? = some (.error fault)

variable [Named β] {isCancelled : World 𝕊 ε → Bool} {policy : Retry.Policy 𝕊}
  {custom : Behaviour β (Act β) κ (Packet × World 𝕊 ε)}

open Run

theorem Run.RequestsAll.cons
    {x : Passage (Run.step (World.host isCancelled) policy (Work.behaviour custom))} {q : Request}
    {qs : List Request} {n m k : Nat} (h : Run.RequestsAll x qs m k)
    (hsofar : (x.state m).invoked = (x.state n).invoked ++ [.emitting true q]) :
    Run.RequestsAll x (q :: qs) n k := by
  obtain ⟨hresult, hall⟩ | ⟨q', hq', l, hl, fault, hfault⟩ := h
  · left
    rw [hall, hsofar, List.append_assoc]
    exact ⟨hresult, rfl⟩
  · exact .inr ⟨q', List.mem_cons_of_mem _ hq', l, hl, fault, hfault⟩

/-- Critical steps that emit events are taken one after the other. -/
theorem Passage.requestsAll
    (x : Passage (Run.step (World.host isCancelled) policy (Work.behaviour custom)))
    {qs : List Request} {n : Nat} (hpending : (x.state n).pending = [])
    (hphase : (x.state n).phase = .ready (qs.map (Node.emitting true))) :
    ∃ k ≤ n + 2 * qs.length + 1, Run.RequestsAll x qs n k := by
  induction qs generalizing n with
  | nil =>
    have hstep : x.state (n + 1) = (x.state n).finish (.ok .completed) := by
      have hend : (x.state n).phase = .ready [] := hphase
      rw [x.state_succ]
      simp [Run.step, hend, hpending]
    refine ⟨n + 1, by omega, .inl ⟨?_, ?_⟩⟩
    · rw [hstep]
      rfl
    · rw [hstep, List.map_nil, List.append_nil]
      rfl
  | cons q qs ih =>
    have hgo : isStopped (World.host isCancelled) (Node.emitting (β := β) true q) (x.found n) =
      false := rfl
    have hinvoked : (x.state (n + 1)).invoked = (x.state n).invoked ++ [.emitting true q] := by
      rw [x.state_succ, step_start hphase rfl hgo, invoked_progressed, invoked_cons]
    have hannounced := step_emitting policy custom hphase hgo
    -- What follows the request is followed by the rest, one or two steps later.
    have hlater : ∀ m ≤ n + 2, (x.state m).pending = [] →
        (x.state m).phase = .ready (qs.map (Node.emitting true)) →
        (x.state m).invoked = (x.state n).invoked ++ [.emitting true q] →
        ∃ k ≤ n + 2 * (q :: qs).length + 1, Run.RequestsAll x (q :: qs) n k := by
      intro m hle hpending hphase hsofar
      obtain ⟨k, hk, hend⟩ := ih hpending hphase
      exact ⟨k, by simp only [List.length_cons]; omega, hend.cons hsofar⟩
    have hnext := x.state_succ n
    generalize Run.step (World.host isCancelled) policy (Work.behaviour custom)
      (x.state n) (x.found n) = after at hannounced hnext
    cases hannounced with
    | fault hprepare hended _ =>
      refine ⟨n + 1, by omega, .inr ⟨q, List.mem_cons_self, n, by omega, _, hprepare, ?_⟩⟩
      rw [hnext, result?, hended]
    | suppressed _ hready hkept _ _ =>
      refine hlater (n + 1) (by omega) ?_ ?_ hinvoked
      · rw [hnext]
        exact hkept.trans hpending
      · rw [hnext]
        exact hready
    | @record run record _ hacting hkept =>
      have hhanding : (x.state (n + 1)).phase = .acting (.emitting true q)
          (qs.map (Node.emitting true)) (.handing record) := by
        rw [hnext]
        exact hacting
      have hhanded : x.state (n + 2) = (x.state (n + 1)).goTo (qs.map (Node.emitting true)) :=
        congrArg Prod.fst (step_handing hhanding)
      refine hlater (n + 2) (Nat.le_refl _) ?_ ?_ ?_
      · rw [hhanded, hnext]
        exact hkept.trans hpending
      · rw [hhanded]
        rfl
      · rw [hhanded]
        exact hinvoked

end

/-! ## Two runs -/

section

variable [Retry.Seconds 𝕊]

/-- Two runs that have nothing but cancellations apart are the same, and neither is stopped. -/
structure Run.Undisturbed [Named α] {isCancelled : World 𝕊 ε → Bool} {policy : Retry.Policy 𝕊}
    {behaviour : Behaviour α α κ (Packet × World 𝕊 ε)} (Same : ε → ε → Prop)
    (x y : Passage (Run.step (World.host isCancelled) policy behaviour)) : Prop where
  /-- The same actions have been started, the same waits begun, and the same result reached. -/
  state : ∀ n, x.state n = y.state n
  packet : ∀ n, (x.left n).1 = (y.left n).1
  world : ∀ n, (x.left n).2.Apart Same (y.left n).2
  /-- A wait lasts until its deadline, and is followed by the retry. -/
  waits : ∀ n node more deadline, (x.state n).phase = .waiting node more deadline →
    x.state (n + 1) = if deadline ≤ (x.found n).2.now
      then { x.state n with phase := .ready (node :: more) } else x.state n
  result : ∀ n, (x.state n).result? ≠ some (.ok .cancelled)

open Run World

theorem Passage.waits_of_critical [Named α] {isCancelled : World 𝕊 ε → Bool}
    {policy : Retry.Policy 𝕊} {behaviour : Behaviour α α κ (Packet × World 𝕊 ε)} {c : Chain α}
    {x : Passage (Run.step (World.host isCancelled) policy behaviour)} (hstart : x.first = .start c)
    (hcritical : ∀ node, behaviour.Within c node → node.critical = true) {n deadline : Nat}
    {node : Node α} {more : List (Node α)}
    (hphase : (x.state n).phase = .waiting node more deadline) :
    x.state (n + 1) = if deadline ≤ (x.found n).2.now
      then { x.state n with phase := .ready (node :: more) } else x.state n := by
  rw [x.state_succ, x.step_of_critical hstart hcritical n,
    step_waiting hphase (isStopped_heedless _ _ _)]
  rfl

/-- A run all of whose steps are critical is the same whatever is cancelled and when, and its
result is never that it has been cancelled.  The report of a failure that nothing follows is such
a run: it ends by itself, and not before it has requested every event that can be prepared. -/
theorem Passage.undisturbed_of_critical :
    (∀ [Named α] (isCancelled : World 𝕊 ε → Bool) (policy : Retry.Policy 𝕊)
      (behaviour : Behaviour α α κ (Packet × World 𝕊 ε)) (Same : ε → ε → Prop) (c : Chain α),
      (∀ node, behaviour.Within c node → node.critical = true) →
      behaviour.Ignores (World.SameApart Same) →
      ∀ x y : Passage (Run.step (World.host isCancelled) policy behaviour),
        x.first = .start c → x.Alongside (World.SameApart Same) y → Run.Undisturbed Same x y) ∧
    ∀ [Named β] (isCancelled : World 𝕊 ε → Bool) (policy : Retry.Policy 𝕊)
      (custom : Behaviour β (Act β) κ (Packet × World 𝕊 ε)) (reason message : String)
      (abort : Bool)
      (x : Passage (Run.step (World.host isCancelled) policy (Work.behaviour custom))),
      x.first = .start (failurePlan reason message abort none).build →
      (∀ node, (Work.behaviour custom).Within (failurePlan reason message abort none).build node →
        node.critical = true) ∧
      (∀ n, (x.state n).result? ≠ some (.ok .cancelled)) ∧
      ∃ k ≤ 5, Run.RequestsAll x (failureRequests reason message abort) 0 k := by
  constructor
  · intro _ isCancelled policy behaviour Same c hcritical hignores x y hstart halong
    have hsame := x.sameWith_of_critical hstart hcritical (host_heedless_ignores isCancelled Same)
      hignores halong
    exact {
      state := fun n => (hsame n).1
      packet := fun n => (hsame n).2.1
      world := fun n => (hsame n).2.2
      waits := fun n node more deadline hphase => x.waits_of_critical hstart hcritical hphase
      result := x.ne_cancelled_of_critical hstart hcritical }
  · intro _ isCancelled policy custom reason message abort x hstart
    have hnodes := nodes_failurePlan (β := β) reason message abort
    have hcritical : ∀ node, (Work.behaviour custom).Within
        (failurePlan reason message abort none).build node → node.critical = true := by
      intro node hwithin
      obtain ⟨q, -, rfl⟩ := Work.mem_of_within hnodes hwithin
      rfl
    refine ⟨hcritical, x.ne_cancelled_of_critical hstart hcritical, ?_⟩
    have hfirst : x.state 0 = .start (failurePlan reason message abort none).build := hstart
    have hpending : (x.state 0).pending = [] := by
      rw [hfirst]
      rfl
    have hphase : (x.state 0).phase =
        .ready ((failureRequests reason message abort).map (Node.emitting true)) := by
      rw [hfirst, ← hnodes]
      rfl
    obtain ⟨k, hk, hend⟩ := x.requestsAll hpending hphase
    have hlength : (failureRequests reason message abort).length ≤ 2 := by
      cases abort <;> simp [failureRequests]
    exact ⟨k, by omega, hend⟩

end

/-! ### A vigil that is kept -/

namespace Vigil

/-- The knock and the report, both critical. -/
def keeping : Chain Vigil := ⟨knocking.asCritical, [reporting]⟩

/-- After each step a second passes. -/
def passing (_ : Nat) (s : Packet × World Rat Bool) : Packet × World Rat Bool :=
  (s.1, { s.2 with now := s.2.now + 1000 })

/-- A run with a single retry, which has been cancelled from the start or is never cancelled. -/
def kept (cancelled : Bool) :
    Passage (Run.step (World.host World.extra) Asker.policy behaviour) :=
  .among _ (.start keeping) (.empty, { world with extra := cancelled }) passing

/-- Neither action looks at the cancellation. -/
theorem ignores : behaviour.Ignores (World.SameApart fun _ _ => True) where
  start action s s' h := by cases action <;> exact ⟨rfl, h⟩
  resume _ s s' h := ⟨rfl, congrArg (fun p => p.insert "knocked" (.bool true)) h.1, h.2⟩

/-- Neither action names a chain. -/
theorem not_asksFor {action : Vigil} {progress : Progress Vigil Unit}
    (h : behaviour.MayReach action progress) (d : Chain Vigil) : ¬ AsksFor progress.answer? d := by
  rintro (hanswer | hanswer) <;> cases h with
  | starts => cases action <;> cases hanswer
  | resumes => cases hanswer

theorem critical (node : Node Vigil) (h : behaviour.Within keeping node) :
    node.critical = true := by
  cases h with
  | own hmem =>
    have hall : ∀ node ∈ keeping.nodes, node.critical = true := by simp [keeping, Chain.nodes,
      knocking, reporting, Node.asCritical]
    exact hall node hmem
  | named _ _ hreach hasked => exact (not_asksFor hreach _ hasked).elim

/-- Nothing in the run cancels it, or takes a cancellation back. -/
theorem extra_found (cancelled : Bool) (n : Nat) :
    ((kept cancelled).found n).2.extra = cancelled := by
  have hstart : ∀ action s, (behaviour.start action s).2.2.extra = s.2.extra := by
    intro action s
    cases action <;> rfl
  have hstep : ∀ r s, (Run.step (World.host World.extra) Asker.policy behaviour r s).2.2.extra =
      s.2.extra :=
    Run.step_keeps (fun s : Packet × World Rat Bool => s.2.extra) (fun _ => rfl) (fun _ => rfl)
      hstart (fun _ _ => rfl)
  induction n with
  | zero => rfl
  | succ n ih =>
    rw [kept, Passage.found_among_succ]
    exact (hstep _ _).trans ih

/-- The report of a failure, run although it has been cancelled from the start. -/
def reported : Passage (Run.step (World.host fun _ => true) Asker.policy
    (Work.behaviour Handover.behaviour)) :=
  .among _ (.start (failurePlan "Kubernetes" "boom" true none).build)
    (.forDomain (.named "uid" "ns"), Handover.world) fun _ => id

/-- The knock is repeated although the run has been cancelled from the start, just as it is when
nothing is ever cancelled.  A report, too, is complete. -/
theorem kept_anyway :
    (∀ n, ((kept true).found n).2.extra = true ∧ ((kept false).found n).2.extra = false) ∧
      (∀ n, (kept true).state n = (kept false).state n) ∧
      ((kept true).state 5).result? = some (.error (.retriesExhausted "knock" 1)) ∧
      (reported.state 5).result? = some (.ok .completed) ∧
      ∃ k ≤ 5, Run.RequestsAll reported (failureRequests "Kubernetes" "boom" true) 0 k := by
  have halong : (kept true).Alongside (World.SameApart fun _ _ => True) (kept false) := by
    refine ⟨rfl, ⟨rfl, ?_⟩, fun n h => ?_⟩
    · exact ⟨rfl, rfl, rfl, rfl, fun _ => rfl, rfl, rfl, rfl, rfl, trivial⟩
    · rw [kept, kept, Passage.found_among_succ, Passage.found_among_succ]
      exact ⟨h.1, { h.2 with now := congrArg (· + 1000) h.2.now }⟩
  obtain ⟨hkept, -⟩ := Passage.undisturbed_of_critical (𝕊 := Rat) (α := Vigil) (β := Empty)
    (κ := Unit) (ε := Bool)
  obtain ⟨-, hreport⟩ := Passage.undisturbed_of_critical (𝕊 := Rat) (α := Vigil) (β := Empty)
    (κ := Empty) (ε := Unit)
  obtain ⟨hstate, -, -, -, -⟩ := hkept World.extra Asker.policy behaviour (fun _ _ => True) keeping
    critical ignores (kept true) (kept false) rfl halong
  obtain ⟨-, -, hcomplete⟩ := hreport (fun _ => true) Asker.policy Handover.behaviour "Kubernetes"
    "boom" true reported rfl
  exact ⟨fun n => ⟨extra_found true n, extra_found false n⟩, hstate, by decide +kernel,
    by decide +kernel, hcomplete⟩

end Vigil

end Reconcile
