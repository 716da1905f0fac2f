import Mathlib.Data.List.TakeWhile
import Reconcile.Proofs.Engine.Flattening

/-!
# Runs that are cancelled

A chain all of whose actions let it go on is cancelled at some moment, before it runs or while
one of its actions is under way.  The steps up to that moment are run as if nothing had
happened (`CancelledAfter`).  Behind it a run goes on as long as the next step is critical and
has an action (`Node.isVital`), and stops in front of the first that is not.

So nothing but critical steps is run after a cancellation, but a critical step is run only if no
other step stands between it and the cancellation: a run does not pass over a step in order to
come to a critical one behind it.  `Run.invoked_of_cancelled` says which steps are run, and
exactly when no critical step is lost.
-/

namespace Reconcile

variable {𝕊 α κ σ : Type}

/-- Whether a step has an action that runs even when the run has been cancelled. -/
def Node.isVital (n : Node α) : Bool := n.critical && !n.isTerminal

theorem takeWhile_eq_filter_iff {p : α → Bool} {xs : List α} :
    xs.takeWhile p = xs.filter p ↔ ∀ x ∈ xs.dropWhile p, p x = false := by
  induction xs with
  | nil => simp
  | cons x xs ih =>
    cases hx : p x with
    | true => simp [hx, ih]
    | false =>
      rw [List.takeWhile_cons_of_neg (by simp [hx]), eq_comm, List.filter_eq_nil_iff]
      simp [hx]

/-! ## The moment of a cancellation -/

/-- The actions of some steps are run one after the other and let the run go on.  The run is not
cancelled when any of them starts, but it is when all have been run: the cancellation falls into
the last of them or, if there are none, has been there before. -/
inductive CancelledAfter (host : Host 𝕊 σ) (behaviour : Behaviour α α κ σ) :
    List (Node α) → σ → σ → Prop
  | now {s : σ} : host.isCancelled s = true → CancelledAfter host behaviour [] s s
  | later {node : Node α} {action : α} {done : List (Node α)} {s s₁ s' : σ} :
      host.isCancelled s = false → node.action = some action →
      behaviour.Returns (behaviour.start action s) (.ok .proceed) s₁ →
      CancelledAfter host behaviour done s₁ s' →
      CancelledAfter host behaviour (node :: done) s s'

/-- A cancellation is never taken back by an action. -/
structure Behaviour.KeepsCancelled (behaviour : Behaviour α α κ σ) (host : Host 𝕊 σ) : Prop where
  start : ∀ action s, host.isCancelled s = true →
    host.isCancelled (behaviour.start action s).2 = true
  resume : ∀ activity s, host.isCancelled s = true →
    host.isCancelled (behaviour.resume activity s).2 = true

theorem Behaviour.KeepsCancelled.returns {behaviour : Behaviour α α κ σ} {host : Host 𝕊 σ}
    (hkeeps : behaviour.KeepsCancelled host) {x : Progress α κ × σ}
    {result : Except Fault (Directive α)} {s : σ} (h : behaviour.Returns x result s)
    (hx : host.isCancelled x.2 = true) : host.isCancelled s = true := by
  induction h with
  | done => exact hx
  | paused _ ih => exact ih (hkeeps.resume _ _ hx)

/-! ## What is run -/

/-- The step whose action has been started, according to an entry. -/
def Entry.started? : Entry α → Option (Node α)
  | .invoked node => some node
  | .waited .. => none

namespace Run

/-- The steps whose actions a run has started, in order. -/
def invoked (r : Run α κ) : List (Node α) := r.journal.reverse.filterMap Entry.started?

theorem invoked_of_journal {r : Run α κ} {ns : List (Node α)}
    (h : r.journal = (ns.map Entry.invoked).reverse) : r.invoked = ns := by
  rw [invoked, h, List.reverse_reverse, List.filterMap_map]
  exact List.filterMap_some

/-- How a run ends that stands in front of some steps, has been cancelled, and starts none of
them. -/
def outcomeAt : List (Node α) → Outcome
  | [] => .completed
  | node :: _ => if node.critical then .completed else .cancelled

variable [Retry.Seconds 𝕊] [Named α]
variable {host : Host 𝕊 σ} {sleep : Nat → σ → σ} {policy : Retry.Policy 𝕊}
  {behaviour : Behaviour α α κ σ}

/-- A step that is not stopped, and whose action lets the run go on, is followed by the next. -/
theorem reaches_next {node : Node α} {action : α} {s s' : σ} (haction : node.action = some action)
    (hgo : isStopped host node s = false)
    (hreturns : behaviour.Returns (behaviour.start action s) (.ok .proceed) s')
    (pending : List (List (Node α))) (more : List (Node α)) (journal : List (Entry α)) :
    Reaches host sleep policy behaviour (⟨0, pending, .ready (node :: more), journal⟩, s)
      (⟨0, pending, .ready more, .invoked node :: journal⟩, s') :=
  .of_tick (tick_invoked haction hgo 0 pending more journal)
    (returns_reaches host sleep policy hreturns _ node more)

variable (sleep policy) in
/-- The steps up to the cancellation are run. -/
theorem reaches_cancelled {done : List (Node α)} {s s' : σ}
    (hmoment : CancelledAfter host behaviour done s s') (rest : List (Node α))
    (journal : List (Entry α)) :
    host.isCancelled s' = true ∧
      Reaches host sleep policy behaviour (⟨0, [], .ready (done ++ rest), journal⟩, s)
        (⟨0, [], .ready rest, (done.map Entry.invoked).reverse ++ journal⟩, s') := by
  induction hmoment generalizing journal with
  | now hcancelled => exact ⟨hcancelled, .refl _⟩
  | @later node action done s s₁ s' hfree haction hreturns _ ih =>
    obtain ⟨hcancelled, hrest⟩ := ih (.invoked node :: journal)
    refine ⟨hcancelled, ?_⟩
    have hgo : isStopped host node s = false := isStopped_of_not_cancelled hfree
    simpa using (reaches_next haction hgo hreturns [] (done ++ rest) journal).trans hrest

variable (sleep policy) in
/-- After the cancellation a run goes on to the first step that is not vital. -/
theorem reaches_end {rest : List (Node α)} (hkeeps : behaviour.KeepsCancelled host)
    (hproceed : ∀ node ∈ rest, ∀ action, node.action = some action → ∀ s,
      ∃ s', behaviour.Returns (behaviour.start action s) (.ok .proceed) s')
    {s : σ} (hcancelled : host.isCancelled s = true) (journal : List (Entry α)) :
    ∃ r s', Reaches host sleep policy behaviour (⟨0, [], .ready rest, journal⟩, s) (r, s') ∧
      r.phase = .ended (.ok (outcomeAt (rest.dropWhile Node.isVital))) ∧
      r.journal = ((rest.takeWhile Node.isVital).map Entry.invoked).reverse ++ journal := by
  induction rest generalizing s journal with
  | nil => exact ⟨_, s, .of_tick rfl (.refl _), rfl, rfl⟩
  | cons node rest ih =>
    cases hcritical : node.critical with
    | false =>
      have hvital : node.isVital = false := by simp [Node.isVital, hcritical]
      refine ⟨⟨0, [], .ended (.ok .cancelled), journal⟩, s, .of_tick ?_ (.refl _), ?_, ?_⟩
      · simp [tick, step, isStopped, hcritical, hcancelled, finish]
      · simp [hvital, outcomeAt, hcritical]
      · simp [hvital]
    | true =>
      have hgo : ∀ s, isStopped host node s = false := fun s => by simp [isStopped, hcritical]
      cases haction : node.action with
      | none =>
        -- A step without an action leaves its chain, and no other chain is pending.
        have hvital : node.isVital = false := by simp [Node.isVital, Node.isTerminal, haction]
        refine ⟨⟨0, [], .ended (.ok .completed), journal⟩, s,
          .of_tick (y := (⟨0, [], .ready [], journal⟩, s)) ?_ (.of_tick rfl (.refl _)), ?_, ?_⟩
        · simp [tick, step, hgo, haction]
        · simp [hvital, outcomeAt, hcritical]
        · simp [hvital]
      | some action =>
        have hvital : node.isVital = true := by
          simp [Node.isVital, Node.isTerminal, haction, hcritical]
        obtain ⟨s₁, hreturns⟩ := hproceed node List.mem_cons_self action haction s
        have hstill := hkeeps.returns hreturns (hkeeps.start action s hcancelled)
        obtain ⟨r, s', hreach, hphase, hjournal⟩ :=
          ih (fun n hn => hproceed n (List.mem_cons_of_mem _ hn)) hstill (.invoked node :: journal)
        refine ⟨r, s', (reaches_next haction (hgo s) hreturns [] rest journal).trans hreach, ?_, ?_⟩
        · simpa [hvital] using hphase
        · simpa [hvital] using hjournal

variable (sleep policy) in
/-- A chain whose actions let it go on is cancelled after the steps `done`.  Then the critical
steps that follow at once are run, each once and in order, and no other step is.  No critical
step is lost exactly if none stands behind a step at which the run stops. -/
theorem invoked_of_cancelled {c : Chain α} {done rest : List (Node α)} {s s' : σ}
    (hnodes : c.nodes = done ++ rest) (hmoment : CancelledAfter host behaviour done s s')
    (hkeeps : behaviour.KeepsCancelled host)
    (hproceed : ∀ node ∈ rest, ∀ action, node.action = some action → ∀ s,
      ∃ s', behaviour.Returns (behaviour.start action s) (.ok .proceed) s') :
    ∃ fuel r s'', drive host sleep policy behaviour fuel (start c) s = (r, s'') ∧
      r.phase = .ended (.ok (outcomeAt (rest.dropWhile Node.isVital))) ∧
      (∃ after, r.invoked = done ++ after ∧ after = rest.takeWhile Node.isVital ∧
        ∀ node ∈ after, node.critical = true) ∧
      (r.invoked = done ++ rest.filter Node.isVital ↔
        ∀ node ∈ rest.dropWhile Node.isVital, node.isVital = false) := by
  obtain ⟨hcancelled, hbefore⟩ := reaches_cancelled sleep policy hmoment rest []
  obtain ⟨r, s'', hafter, hphase, hjournal⟩ := reaches_end sleep policy hkeeps hproceed hcancelled
    ((done.map Entry.invoked).reverse ++ [])
  have hinvoked : r.invoked = done ++ rest.takeWhile Node.isVital :=
    invoked_of_journal (by simpa using hjournal)
  have hcritical : ∀ node ∈ rest.takeWhile Node.isVital, node.critical = true := by
    intro node hnode
    have hvital := List.mem_takeWhile_imp hnode
    simp only [Node.isVital, Bool.and_eq_true] at hvital
    exact hvital.1
  obtain ⟨fuel, hdrive⟩ := hbefore.trans hafter
  rw [← hnodes] at hdrive
  refine ⟨fuel, r, s'', hdrive, hphase, ⟨_, hinvoked, rfl, hcritical⟩, ?_⟩
  rw [hinvoked, List.append_cancel_left_eq]
  exact takeWhile_eq_filter_iff

end Run

/-! ### A report behind the cancellation -/

/-- Actions that all let the run go on.  One of them cancels it. -/
inductive Chore
  | cancel
  | tidy
  | report
deriving DecidableEq

namespace Chore

open Run

instance : Named Chore where
  name
    | cancel => "cancel"
    | tidy => "tidy"
    | report => "report"

/-- What the actions do, given whether the run has been cancelled. -/
def behaviour : Behaviour Chore Chore Empty Bool where
  start chore cancelled := (.done (.ok .proceed), chore = cancel || cancelled)
  resume activity := nomatch activity

/-- Surroundings that say only whether the run has been cancelled. -/
def host : Host Rat Bool where
  now _ := 0
  draw s := (1, s)
  isCancelled := id
  countRetry := id
  timerFirst _ := true

def cancelling : Node Chore := ⟨some cancel, false⟩

def tidying : Node Chore := ⟨some tidy, false⟩

def reporting : Node Chore := ⟨some report, true⟩

theorem returns (chore : Chore) (cancelled : Bool) : behaviour.Returns
    (behaviour.start chore cancelled) (.ok .proceed) (chore = cancel || cancelled) := .done

theorem cancelledAfter : CancelledAfter host behaviour [cancelling] false true :=
  .later rfl rfl (returns cancel false) (.now rfl)

theorem keepsCancelled : behaviour.KeepsCancelled host where
  start chore cancelled h := by
    have hcancelled : cancelled = true := h
    simp [behaviour, host, hcancelled]
  resume activity := nomatch activity

/-- A critical step right behind the cancellation is run. -/
theorem report_run : ∃ fuel r s,
    drive host (fun _ s => s) Errand.policy behaviour fuel
        (start ⟨cancelling, [reporting, tidying]⟩) false = (r, s) ∧
      r.phase = .ended (.ok .cancelled) ∧ r.invoked = [cancelling, reporting] := by
  have hnodes : (⟨cancelling, [reporting, tidying]⟩ : Chain Chore).nodes =
      [cancelling] ++ [reporting, tidying] := rfl
  obtain ⟨fuel, r, s, hdrive, hphase, -, hkept⟩ :=
    invoked_of_cancelled (fun _ s => s) Errand.policy hnodes cancelledAfter keepsCancelled
      fun _ _ action _ s => ⟨_, returns action s⟩
  exact ⟨fuel, r, s, hdrive, hphase, hkept.2 (by decide)⟩

/-- A critical step behind one that is not critical is lost, although it comes after the
cancellation. -/
theorem report_lost :
    CancelledAfter host behaviour [cancelling] false true ∧
      (∀ chore s, ∃ s', behaviour.Returns (behaviour.start chore s) (.ok .proceed) s') ∧
      reporting ∈ [tidying, reporting].filter Node.isVital ∧
      ∀ fuel, reporting ∉ (drive host (fun _ s => s) Errand.policy behaviour fuel
        (start ⟨cancelling, [tidying, reporting]⟩) false).1.invoked := by
  refine ⟨cancelledAfter, fun chore s => ⟨_, returns chore s⟩, by decide, fun fuel => ?_⟩
  rcases fuel with _ | _ | fuel
  · decide
  · decide
  · have hended : (drive host (fun _ s => s) Errand.policy behaviour 2
        (start ⟨cancelling, [tidying, reporting]⟩) false).1.phase.IsFinal := trivial
    rw [show fuel + 1 + 1 = 2 + fuel by omega, drive_add, drive_of_final hended]
    decide

end Chore

end Reconcile
