import Reconcile.Proofs.Attempt.Report
import Reconcile.Proofs.Engine.Passage

/-!
# What the sink answers does not matter

Two worlds are alike (`World.Alike`) if they differ at most in the sink: in which hand-overs it
refuses, in what it has stored, and in how the records handed over are divided between those
counted as emitted and those counted as refused.  Everything else is the same in both, also the
list of all records that have been handed over.

A step cannot tell such worlds apart, and leaves them alike: a step of a run (`Run.step_alike`),
since a run only asks for the time, for chance and for its cancellation, and the step of an
attempt (`Attempt.step_alike`).  The actions of a reconciler could look at the sink, so that they
do not is a premise (`Behaviour.IgnoresSink`).  Two passages that are given the same by others
then go through the same states, step by step.
-/

namespace Reconcile

variable {𝕊 α β κ σ ε : Type}

open Passage (SameWith)

/-! ## Runs in surroundings alike -/

/-- A run is told the same in surroundings that are alike. -/
structure Host.Ignores (host : Host 𝕊 σ) (Alike : σ → σ → Prop) : Prop where
  now : ∀ {s s'}, Alike s s' → host.now s = host.now s'
  draw : ∀ {s s'}, Alike s s' → SameWith Alike (host.draw s) (host.draw s')
  isCancelled : ∀ {s s'}, Alike s s' → host.isCancelled s = host.isCancelled s'
  countRetry : ∀ {s s'}, Alike s s' → Alike (host.countRetry s) (host.countRetry s')
  timerFirst : ∀ {s s'}, Alike s s' → host.timerFirst s = host.timerFirst s'

/-- Actions do the same in surroundings that are alike. -/
structure Behaviour.Ignores (behaviour : Behaviour β α κ σ) (Alike : σ → σ → Prop) : Prop where
  start : ∀ b {s s'}, Alike s s' → SameWith Alike (behaviour.start b s) (behaviour.start b s')
  resume : ∀ k {s s'}, Alike s s' → SameWith Alike (behaviour.resume k s) (behaviour.resume k s')

namespace Run

variable [Retry.Seconds 𝕊] [Named α]
variable {host : Host 𝕊 σ} {behaviour : Behaviour α α κ σ} {Alike : σ → σ → Prop}

theorem follow_alike (hhost : host.Ignores Alike) (policy : Retry.Policy 𝕊) (r : Run α κ)
    (node : Node α) (more : List (Node α)) (result : Except Fault (Directive α)) {s s' : σ}
    (h : Alike s s') :
    SameWith Alike (r.follow host policy node more result s)
      (r.follow host policy node more result s') := by
  match result with
  | .error _ | .ok .proceed | .ok (.insert _) | .ok (.branch _) | .ok .terminate => exact ⟨rfl, h⟩
  | .ok (.retryAfter requested) =>
    obtain ⟨hspread, hdrawn⟩ := hhost.draw (hhost.countRetry h)
    have hnow := hhost.now hdrawn
    simp only [follow, retry]
    split
    · exact ⟨rfl, h⟩
    · rw [hspread, hnow]
      cases policy.delay (r.retries + 1) requested (host.draw (host.countRetry s')).1 with
      | none => exact ⟨rfl, hdrawn⟩
      | some delay => exact ⟨rfl, hdrawn⟩

theorem progressed_alike (hhost : host.Ignores Alike) (policy : Retry.Policy 𝕊) (r : Run α κ)
    (node : Node α) (more : List (Node α)) {x y : Progress α κ × σ} (h : SameWith Alike x y) :
    SameWith Alike (r.progressed host policy node more x)
      (r.progressed host policy node more y) := by
  obtain ⟨progress, s⟩ := x
  obtain ⟨progress', s'⟩ := y
  obtain ⟨hprogress, halike⟩ := h
  obtain rfl : progress = progress' := hprogress
  cases progress with
  | paused activity => exact ⟨rfl, halike⟩
  | done result => exact follow_alike hhost policy r node more result halike

/-- A step does the same in surroundings that are alike, and leaves them alike. -/
theorem step_alike (hhost : host.Ignores Alike) (hbehaviour : behaviour.Ignores Alike)
    (policy : Retry.Policy 𝕊) (r : Run α κ) {s s' : σ} (h : Alike s s') :
    SameWith Alike (r.step host policy behaviour s) (r.step host policy behaviour s') := by
  have hstopped : ∀ node : Node α, isStopped host node s = isStopped host node s' := by
    intro node
    rw [isStopped, isStopped, hhost.isCancelled h]
  unfold step
  cases r.phase with
  | ready rest =>
    cases rest with
    | nil => cases r.pending <;> exact ⟨rfl, h⟩
    | cons node more =>
      simp only [hstopped node]
      split
      · exact ⟨rfl, h⟩
      · cases node.action with
        | none => exact ⟨rfl, h⟩
        | some action => exact progressed_alike hhost policy _ node more (hbehaviour.start action h)
  | acting node more activity =>
    exact progressed_alike hhost policy r node more (hbehaviour.resume activity h)
  | waiting node more deadline =>
    simp only [hstopped node, hhost.now h, hhost.timerFirst h]
    split
    · exact ⟨rfl, h⟩
    · split <;> exact ⟨rfl, h⟩
  | ended result => exact ⟨rfl, h⟩
  | crashed => exact ⟨rfl, h⟩

end Run

/-! ## Worlds that differ in the sink -/

/-- The kind of record of which a counter says how the sink has answered it. -/
def Counter.receipt? : Counter → Option Item
  | .emitted i | .storeFailed i => some i
  | .attempts _ | .durations _ | .stepRetries | .suppressed _ => none

/-- The number of records of a kind that the sink has answered, one way or the other. -/
def Counters.answered (c : Counters) (i : Item) : Nat :=
  c.value (.emitted i) + c.value (.storeFailed i)

theorem Counters.answered_raise (c : Counters) (k : Counter) (i : Item) :
    (c.raise k).answered i = if k.receipt? = some i then c.answered i + 1 else c.answered i := by
  simp only [answered, value_raise]
  cases k with
  | emitted j =>
    by_cases hij : i = j
    · subst hij
      simp [Counter.receipt?]
      omega
    · simp [Counter.receipt?, hij, Ne.symm hij]
  | storeFailed j =>
    by_cases hij : i = j
    · subst hij
      simp [Counter.receipt?]
      omega
    · simp [Counter.receipt?, hij, Ne.symm hij]
  | attempts | durations | stepRetries | suppressed => simp [Counter.receipt?]

namespace World

/-- Two worlds that differ at most in the sink and in what it has answered. -/
structure Alike (v w : World 𝕊 ε) : Prop where
  identity : v.identity = w.identity
  /-- The same records have been handed over, in the same order. -/
  handed : v.outbox.handed = w.outbox.handed
  declined : v.declined = w.declined
  registries : v.registries = w.registries
  nextAttempt : v.nextAttempt = w.nextAttempt
  now : v.now = w.now
  spread : v.spread = w.spread
  draws : v.draws = w.draws
  timerFirst : v.timerFirst = w.timerFirst
  extra : v.extra = w.extra
  counters : ∀ k, k.receipt? = none → v.counters.value k = w.counters.value k
  answered : ∀ i, v.counters.answered i = w.counters.answered i

namespace Alike

variable {v w : World 𝕊 ε}

theorem registry (h : v.Alike w) (i : Nat) : v.registry i = w.registry i := by
  rw [World.registry, World.registry, h.registries]

theorem setRegistry (h : v.Alike w) (i : Nat) (r : Registry) :
    (v.setRegistry i r).Alike (w.setRegistry i r) :=
  { h with registries := congrArg (fun t => t.insert i r) h.registries }

theorem raise (h : v.Alike w) {j k : Counter} (hreceipt : j.receipt? = k.receipt?)
    (hsame : j.receipt? = none → j = k) : (v.raise j).Alike (w.raise k) := by
  refine { h with counters := fun x hx => ?counters, answered := fun i => ?answered }
  case counters =>
    simp only [World.raise, Counters.value_raise]
    by_cases hj : x = j
    · obtain rfl : j = k := hsame (hj ▸ hx)
      rw [if_pos hj, if_pos hj, ← hj, h.counters x hx]
    · have hk : x ≠ k := by
        rintro rfl
        exact hj (hsame (hreceipt.trans hx)).symm
      rw [if_neg hj, if_neg hk, h.counters x hx]
  case answered =>
    simp only [World.raise, Counters.answered_raise, hreceipt, h.answered i]

theorem raiseAttempt (h : v.Alike w) (r : AttemptResult) :
    World.Alike { v with counters := v.counters.raiseAttempt r }
      { w with counters := w.counters.raiseAttempt r } := by
  have hattempts : (v.raise (.attempts r)).Alike (w.raise (.attempts r)) := h.raise rfl fun _ => rfl
  exact hattempts.raise rfl fun _ => rfl

theorem draw (h : v.Alike w) : SameWith Alike v.draw w.draw := by
  refine ⟨?_, { h with draws := congrArg (· + 1) h.draws }⟩
  simp only [World.draw, h.spread, h.draws]

/-- An emission begins the same in both worlds: the answers to earlier ones leave no trace. -/
theorem announce (h : v.Alike w) (q : Request) (p : Packet) :
    (v.announce q p).1 = (w.announce q p).1 ∧ (v.announce q p).2.1 = (w.announce q p).2.1 ∧
      (v.announce q p).2.2.Alike (w.announce q p).2.2 := by
  unfold World.announce
  rw [h.identity]
  cases q.prepare p w.identity with
  | error fault => exact ⟨rfl, rfl, h⟩
  | ok prepared =>
    cases prepared with
    | record record => exact ⟨rfl, rfl, h⟩
    | suppressed rule =>
      have hraised : (v.raise (.suppressed q.item)).Alike (w.raise (.suppressed q.item)) :=
        h.raise rfl fun _ => rfl
      exact ⟨rfl, rfl, { hraised with declined := congrArg (· ++ [rule]) h.declined }⟩

/-- Whatever the two sinks answer to a record, it has been handed over and answered in both. -/
theorem deliver (h : v.Alike w) (record : Record) :
    (v.deliver record).Alike (w.deliver record) := by
  have hanswer : ∀ u : World 𝕊 ε, ∃ k : Counter, k.receipt? = some record.item ∧
      u.deliver record = { u with outbox := (u.outbox.put record).2 }.raise k := by
    intro u
    unfold World.deliver
    split
    case h_1 hput => exact ⟨.emitted record.item, rfl, by rw [hput]⟩
    case h_2 hput => exact ⟨.storeFailed record.item, rfl, by rw [hput]⟩
  obtain ⟨j, hj, hv⟩ := hanswer v
  obtain ⟨k, hk, hw⟩ := hanswer w
  have hhanded : World.Alike { v with outbox := (v.outbox.put record).2 }
      { w with outbox := (w.outbox.put record).2 } := by
    refine { h with handed := ?_ }
    rw [Outbox.handed_put, Outbox.handed_put, h.handed]
  rw [hv, hw]
  refine hhanded.raise (hj.trans hk.symm) fun hnone => ?_
  rw [hj] at hnone
  cases hnone

end Alike

end World

/-! ## The work of attempts -/

/-- The same packet, in worlds that differ at most in the sink. -/
def World.SameScene (s s' : Packet × World 𝕊 ε) : Prop := s.1 = s'.1 ∧ s.2.Alike s'.2

theorem World.host_ignores {isCancelled : World 𝕊 ε → Bool}
    (hcancelled : ∀ v w : World 𝕊 ε, v.Alike w → isCancelled v = isCancelled w) :
    (World.host isCancelled).Ignores World.SameScene where
  now h := h.2.now
  draw h := ⟨h.2.draw.1, h.1, h.2.draw.2⟩
  isCancelled h := hcancelled _ _ h.2
  countRetry h := ⟨h.1, h.2.raise rfl fun _ => rfl⟩
  timerFirst h := h.2.timerFirst

/-- The actions of a reconciler do not look at the sink. -/
abbrev Behaviour.IgnoresSink (custom : Behaviour β (Act β) κ (Packet × World 𝕊 ε)) : Prop :=
  custom.Ignores World.SameScene

namespace Work

variable {custom : Behaviour β (Act β) κ (Packet × World 𝕊 ε)}

section

variable {Same : World 𝕊 ε → World 𝕊 ε → Prop}

theorem embed_alike {x y : Progress (Act β) κ × Packet × World 𝕊 ε}
    (h : SameWith (fun s s' => s.1 = s'.1 ∧ Same s.2 s'.2) x y) :
    SameWith (fun s s' => s.1 = s'.1 ∧ Same s.2 s'.2) (embed x) (embed y) := by
  obtain ⟨progress, s⟩ := x
  obtain ⟨progress', s'⟩ := y
  obtain ⟨hprogress, halike⟩ := h
  obtain rfl : progress = progress' := hprogress
  cases progress <;> exact ⟨rfl, halike⟩

/-- Steps do the same in worlds that are the same to emissions and to the actions of a
reconciler. -/
theorem behaviour_ignores_of
    (hannounce : ∀ v w q p, Same v w → (v.announce q p).1 = (w.announce q p).1 ∧
      (v.announce q p).2.1 = (w.announce q p).2.1 ∧
      Same (v.announce q p).2.2 (w.announce q p).2.2)
    (hdeliver : ∀ v w record, Same v w → Same (v.deliver record) (w.deliver record))
    (hcustom : custom.Ignores fun s s' => s.1 = s'.1 ∧ Same s.2 s'.2) :
    (behaviour custom).Ignores fun s s' => s.1 = s'.1 ∧ Same s.2 s'.2 where
  start action s s' h := by
    obtain ⟨p, v⟩ := s
    obtain ⟨p', w⟩ := s'
    obtain ⟨hpacket, hsame⟩ := h
    obtain rfl : p = p' := hpacket
    match action with
    | .choice _ test yes no => exact ⟨rfl, rfl, hsame⟩
    | .work (.custom b) => exact embed_alike (hcustom.start b ⟨rfl, hsame⟩)
    | .work (.event q) =>
      obtain ⟨hprepared, hpacket, hworld⟩ := hannounce v w q p hsame
      simp only [behaviour]
      generalize v.announce q p = x at hprepared hpacket hworld ⊢
      generalize w.announce q p = y at hprepared hpacket hworld ⊢
      obtain ⟨prepared, packet, v'⟩ := x
      obtain ⟨prepared', packet', w'⟩ := y
      obtain rfl : prepared = prepared' := hprepared
      rcases prepared with _ | (_ | _) <;> exact ⟨rfl, hpacket, hworld⟩
  resume activity s s' h := by
    cases activity with
    | handing record => exact ⟨rfl, h.1, hdeliver s.2 s'.2 record h.2⟩
    | custom k => exact embed_alike (hcustom.resume k h)

end

theorem behaviour_ignores (hcustom : custom.IgnoresSink) :
    (behaviour custom).Ignores World.SameScene :=
  behaviour_ignores_of (fun _ _ q p h => h.announce q p) (fun _ _ record h => h.deliver record)
    hcustom

end Work

/-! ## Attempts -/

namespace Attempt

variable {v w : World 𝕊 ε}

theorem release_alike (h : v.Alike w) (p : Processor 𝕊 β) (g : Guard) :
    (p.release g v).Alike (p.release g w) := by
  rw [Processor.release, Processor.release, h.registry]
  exact h.setRegistry _ _

theorem conclude_alike (h : v.Alike w) (p : Processor 𝕊 β) (a : Attempt β κ) (g : Guard)
    (packet : Packet) (result : Except Fault Outcome) :
    SameWith World.Alike (a.conclude p g packet result v) (a.conclude p g packet result w) := by
  have hcounted := h.raiseAttempt (.of result)
  unfold conclude
  match result with
  | .ok .cancelled => exact ⟨rfl, release_alike hcounted p g⟩
  | .ok .completed | .ok .terminated =>
    simp only [hcounted.registry]
    exact ⟨rfl, release_alike (hcounted.setRegistry _ _) p g⟩
  | .error fault =>
    simp only [hcounted.registry]
    split
    · exact ⟨rfl, release_alike hcounted p g⟩
    · exact ⟨rfl, hcounted.setRegistry _ _⟩

variable [Retry.Seconds 𝕊] [Named β]
variable {custom : Behaviour β (Act β) κ (Packet × World 𝕊 ε)}

/-- A step of an attempt does the same, whatever the sink has answered so far. -/
theorem step_alike (hcustom : custom.IgnoresSink) (p : Processor 𝕊 β) (a : Attempt β κ)
    (h : v.Alike w) : SameWith World.Alike (a.step p custom v) (a.step p custom w) := by
  have hcancelled : ∀ g : Guard, ∀ v w : World 𝕊 ε, v.Alike w →
      (v.registry p.registry).isCancelled g.token =
        (w.registry p.registry).isCancelled g.token := by
    intro g v w h
    rw [h.registry]
  have hrun : ∀ (g : Guard) (packet : Packet) (run : Run (Act β) (Activity κ)),
      SameWith World.SameScene
        (run.step (p.host g) p.policy (Work.behaviour custom) (packet, v))
        (run.step (p.host g) p.policy (Work.behaviour custom) (packet, w)) :=
    fun g packet run => Run.step_alike (World.host_ignores (hcancelled g))
      (Work.behaviour_ignores hcustom) p.policy run ⟨rfl, h⟩
  obtain ⟨operation, stage⟩ := a
  unfold step
  cases stage with
  | prepared =>
    simp only [register, h.registry, h.nextAttempt]
    exact ⟨rfl, { h.setRegistry p.registry _ with nextAttempt := rfl }⟩
  | running g packet run =>
    obtain ⟨hstate, hpacket, hworld⟩ := hrun g packet run
    simp only
    split
    · exact conclude_alike h p _ g packet _
    · exact ⟨rfl, release_alike h p g⟩
    · exact ⟨by rw [hstate, hpacket], hworld⟩
  | reporting g packet fault run =>
    obtain ⟨hstate, hpacket, hworld⟩ := hrun g packet run
    simp only
    split
    · exact ⟨rfl, release_alike h p g⟩
    · exact ⟨rfl, release_alike h p g⟩
    · exact ⟨by rw [hstate, hpacket], hworld⟩
  | ended packet result => exact ⟨rfl, h⟩
  | crashed => exact ⟨rfl, h⟩

end Attempt

/-! ## Two passages -/

section

variable [Retry.Seconds 𝕊] [Named β]
variable {custom : Behaviour β (Act β) κ (Packet × World 𝕊 ε)}

/-- An attempt, or a run with a packet of its own, goes through the same states in two worlds that
differ at most in the sink, and leaves the same behind but for what the sink has answered. -/
theorem Passage.alongside_of_sinks (hcustom : custom.IgnoresSink) :
    (∀ (p : Processor 𝕊 β) (x y : Passage (Attempt.step p custom)), x.Alongside World.Alike y →
      ∀ n, x.state n = y.state n ∧ (x.left n).Alike (y.left n)) ∧
    ∀ (policy : Retry.Policy 𝕊) (isCancelled : World 𝕊 ε → Bool),
      (∀ v w : World 𝕊 ε, v.Alike w → isCancelled v = isCancelled w) →
      ∀ x y : Passage (Run.step (World.host isCancelled) policy (Work.behaviour custom)),
      x.Alongside World.SameScene y →
      ∀ n, x.state n = y.state n ∧ (x.left n).1 = (y.left n).1 ∧
        (x.left n).2.Alike (y.left n).2 := by
  constructor
  · intro p x y halongside n
    exact halongside.sameWith (fun a v w h => a.step_alike hcustom p h) n
  · intro policy isCancelled hcancelled x y halongside n
    have hhost : (World.host isCancelled).Ignores World.SameScene := World.host_ignores hcancelled
    have hwork : (Work.behaviour custom).Ignores World.SameScene := Work.behaviour_ignores hcustom
    exact halongside.sameWith (fun r s s' h => r.step_alike hhost hwork policy h) n

end

/-! ### A sink that refuses everything -/

namespace Handover

/-- The same world with a sink that refuses everything. -/
def deafWorld : World Rat Unit := { world with outbox := .empty fun _ => true }

theorem alike_deafWorld : world.Alike deafWorld :=
  ⟨rfl, rfl, rfl, rfl, rfl, rfl, rfl, rfl, rfl, rfl, fun _ _ => rfl, fun _ => rfl⟩

theorem ignoresSink : behaviour.IgnoresSink where
  start action := nomatch action
  resume activity := nomatch activity

/-- An attempt that nobody disturbs. -/
def undisturbed (w : World Rat Unit) : Passage (Attempt.step processor behaviour) :=
  .among _ (.prepare (.of (.named "uid" "ns"))) w fun _ => id

/-- The chain of that attempt, run by itself. -/
def bareRun (w : World Rat Unit) :
    Passage (Run.step (World.host fun _ => false) processor.policy (Work.behaviour behaviour)) :=
  .among _ (.start (Steps.event (.of .processingStarting) : Steps Empty).build)
    (.forDomain (.named "uid" "ns"), w) fun _ => id

/-- The sink refuses both records of an attempt, and the attempt is completed all the same. -/
theorem completes_unheard :
    ((undisturbed deafWorld).state 10).result? = some (.ok .completed) ∧
      ((undisturbed deafWorld).left 10).outbox.handed =
        ((undisturbed world).left 10).outbox.handed ∧
      ((undisturbed deafWorld).left 10).counters.value (.emitted .processingCompleted) = 0 ∧
      ((undisturbed world).left 10).counters.value (.emitted .processingCompleted) = 1 ∧
      ((bareRun deafWorld).left 3).1.markers = ((bareRun world).left 3).1.markers := by
  obtain ⟨hattempts, hruns⟩ := Passage.alongside_of_sinks ignoresSink
  have hundisturbed : (undisturbed world).Alongside World.Alike (undisturbed deafWorld) := by
    refine ⟨rfl, alike_deafWorld, fun n h => ?_⟩
    rw [undisturbed, undisturbed, Passage.found_among_succ, Passage.found_among_succ]
    exact h
  have hbare : (bareRun world).Alongside World.SameScene (bareRun deafWorld) := by
    refine ⟨rfl, ⟨rfl, alike_deafWorld⟩, fun n h => ?_⟩
    rw [bareRun, bareRun, Passage.found_among_succ, Passage.found_among_succ]
    exact h
  obtain ⟨hstate, hleft⟩ := hattempts processor _ _ hundisturbed 10
  obtain ⟨-, hpacket, -⟩ := hruns processor.policy (fun _ => false) (fun _ _ _ => rfl) _ _ hbare 3
  have hcompleted : ((undisturbed world).state 10).result? = some (.ok .completed) := rfl
  rw [hstate] at hcompleted
  exact ⟨hcompleted, hleft.handed.symm, by decide, by decide, by rw [hpacket]⟩

end Handover

end Reconcile
