import Reconcile.Proofs.Attempt.Story
import Reconcile.Proofs.Engine.Pace
import Reconcile.Proofs.Registry.Holding
import Reconcile.Proofs.Sink.Merging

/-!
# Attempts in unison

An attempt serves its domain (`World.Serves`): what it does to the registry is on account of this
domain, it hands over the records of its own events, and it changes neither who the operator is nor
what chance has in store.  For the actions of a reconciler that is a premise: they act on the
packet of their attempt alone (`Behaviour.KeepsToPacket`).

Two attempts at the same operation, each in a world of its own, are in unison (`Attempt.InUnison`)
if they are at the same place with the same packet, their domain has failed as often in both
worlds, and neither is cancelled there.  When neither sleeps they take the same step
(`InUnison.step`).  What is done on account of other domains does not disturb that
(`InUnison.elsewhere`).
-/

namespace Reconcile

variable {𝕊 β κ ε : Type}

open Passage (SameWith)

/-! ## Worlds -/

/-- The actions of a reconciler act on nothing but the packet of their attempt, and look at nothing
else. -/
structure Behaviour.KeepsToPacket (custom : Behaviour β (Act β) κ (Packet × World 𝕊 ε)) : Prop where
  start : ∀ b packet v w, custom.start b (packet, w) =
    ((custom.start b (packet, v)).1, (custom.start b (packet, v)).2.1, w)
  resume : ∀ k packet v w, custom.resume k (packet, w) =
    ((custom.resume k (packet, v)).1, (custom.resume k (packet, v)).2.1, w)

namespace World

/-- Two worlds in which the operator is the same, and in which it does not depend on chance whether
the delay before a retry can be computed. -/
structure Kindred [Retry.Seconds 𝕊] (policy : Retry.Policy 𝕊) (v w : World 𝕊 ε) : Prop where
  identity : v.identity = w.identity
  delays : ∀ retry requested i j, (policy.delay retry requested (v.spread i)).isSome =
    (policy.delay retry requested (w.spread j)).isSome

/-- Records have been handed over.  Apart from that the worlds differ at most in what is counted,
in the draws, and in what only custom actions know. -/
structure HandsOver (rs : List Record) (w w' : World 𝕊 ε) : Prop where
  registries : w'.registries = w.registries
  identity : w'.identity = w.identity
  spread : w'.spread = w.spread
  outbox : w'.outbox = w.outbox.putAll rs

/-- Something has been done to the registry on account of a domain, and records have been handed
over. -/
structure Serves (p : Processor 𝕊 β) (uid : String) (rs : List Record) (w w' : World 𝕊 ε) :
    Prop where
  registry : (w.registry p.registry).Undergoes (· = uid) (w'.registry p.registry)
  identity : w'.identity = w.identity
  spread : w'.spread = w.spread
  outbox : w'.outbox = w.outbox.putAll rs

namespace Kindred

variable [Retry.Seconds 𝕊] {policy : Retry.Policy 𝕊} {u v w : World 𝕊 ε}

theorem symm (h : v.Kindred policy w) : w.Kindred policy v :=
  ⟨h.identity.symm, fun retry requested i j => (h.delays retry requested j i).symm⟩

theorem trans (h : u.Kindred policy v) (h' : v.Kindred policy w) : u.Kindred policy w :=
  ⟨h.identity.trans h'.identity, fun retry requested i j =>
    (h.delays retry requested i 0).trans (h'.delays retry requested 0 j)⟩

theorem of_eq (h : v.Kindred policy w) (hidentity : u.identity = v.identity)
    (hspread : u.spread = v.spread) : u.Kindred policy w := by
  refine ⟨hidentity.trans h.identity, fun retry requested i j => ?_⟩
  rw [hspread]
  exact h.delays retry requested i j

end Kindred

theorem HandsOver.undergoes {w w' : World 𝕊 ε} {rs : List Record} (h : w.HandsOver rs w') (i : Nat)
    (On : String → Prop) : (w.registry i).Undergoes On (w'.registry i) := by
  rw [World.registry, World.registry, h.registries]
  exact .refl _

namespace Serves

variable {p : Processor 𝕊 β} {uid : String} {rs rs' : List Record} {w w₁ w₂ w₃ : World 𝕊 ε}

theorem of_handsOver (h : w₁.HandsOver rs w₂) : w₁.Serves p uid rs w₂ :=
  ⟨h.undergoes p.registry _, h.identity, h.spread, h.outbox⟩

theorem trans (h : w₁.Serves p uid rs w₂) (h' : w₂.Serves p uid rs' w₃) :
    w₁.Serves p uid (rs ++ rs') w₃ where
  registry := h.registry.trans h'.registry
  identity := h'.identity.trans h.identity
  spread := h'.spread.trans h.spread
  outbox := by rw [h'.outbox, h.outbox, Outbox.putAll_append]

theorem handedSince_eq (h : w₁.Serves p uid rs w₂) : w₁.handedSince w₂ = rs :=
  World.handedSince_of_append (by rw [h.outbox, Outbox.handed_putAll])

theorem operation (op : Registry.Operation) (hop : op.uid = uid) (w : World 𝕊 ε) :
    w.Serves p uid [] (w.setRegistry p.registry ((w.registry p.registry).apply op)) := by
  refine ⟨?_, rfl, rfl, rfl⟩
  rw [World.registry_setRegistry, if_pos rfl]
  exact .single op hop

theorem release {g : Guard} (hguard : g.uid = uid) (w : World 𝕊 ε) :
    w.Serves p uid [] (p.release g w) :=
  .operation (.drop g) hguard w

end Serves

theorem HandsOver.trans {w₁ w₂ w₃ : World 𝕊 ε} {rs rs' : List Record} (h : w₁.HandsOver rs w₂)
    (h' : w₂.HandsOver rs' w₃) : w₁.HandsOver (rs ++ rs') w₃ where
  registries := h'.registries.trans h.registries
  identity := h'.identity.trans h.identity
  spread := h'.spread.trans h.spread
  outbox := by rw [h'.outbox, h.outbox, Outbox.putAll_append]

theorem deliver_handsOver (w : World 𝕊 ε) (record : Record) :
    w.HandsOver [record] (w.deliver record) := by
  have hput : w.outbox.putAll [record] = (w.outbox.put record).2 := rfl
  refine ⟨w.registries_deliver record, ?_, ?_, ?_⟩
  · unfold deliver
    split <;> rfl
  · unfold deliver
    split <;> rfl
  · rw [hput]
    unfold deliver
    split <;> rename_i hanswer <;> rw [hanswer] <;> rfl

end World

/-! ## The work of an attempt -/

/-- The record that a run is handing over. -/
def Run.handing (r : Run (Act β) (Activity κ)) : List Record :=
  match r.phase with
  | .acting _ _ (.handing record) => [record]
  | _ => []

namespace Work

variable {custom : Behaviour β (Act β) κ (Packet × World 𝕊 ε)}

/-- An action starts without a trace in what attempts share, but for what it counts. -/
theorem start_handsOver (hcustom : custom.KeepsToPacket) (action : Act β) (packet : Packet)
    (w : World 𝕊 ε) : w.HandsOver [] ((behaviour custom).start action (packet, w)).2.2 := by
  cases action with
  | choice => exact ⟨rfl, rfl, rfl, rfl⟩
  | work work =>
    cases work with
    | custom b =>
      simp only [behaviour, embed_snd]
      rw [hcustom.start b packet w w]
      exact ⟨rfl, rfl, rfl, rfl⟩
    | event q =>
      simp only [behaviour, World.announce]
      rcases q.prepare packet w.identity with _ | (_ | _) <;> exact ⟨rfl, rfl, rfl, rfl⟩

variable [Retry.Seconds 𝕊]

/-- Actions do the same in kindred worlds. -/
theorem behaviour_ignores_kindred (hcustom : custom.KeepsToPacket) (policy : Retry.Policy 𝕊) :
    (behaviour custom).Ignores fun s s' => s.1 = s'.1 ∧ s.2.Kindred policy s'.2 := by
  refine behaviour_ignores_of (fun v w q packet h => ?announce) (fun v w record h => ?deliver)
    ⟨fun b {s s'} h => ?start, fun k {s s'} h => ?resume⟩
  case announce =>
    unfold World.announce
    rw [h.identity]
    match q.prepare packet w.identity with
    | .error _ | .ok (.suppressed _) | .ok (.record _) =>
      exact ⟨rfl, rfl, h.identity, h.delays⟩
  case deliver =>
    have hv := v.deliver_handsOver record
    have hw := w.deliver_handsOver record
    exact ((h.of_eq hv.identity hv.spread).symm.of_eq hw.identity hw.spread).symm
  case start =>
    obtain ⟨packet, v⟩ := s
    obtain ⟨packet', w⟩ := s'
    obtain ⟨rfl, hkindred⟩ : packet = packet' ∧ v.Kindred policy w := h
    rw [hcustom.start b packet v v, hcustom.start b packet v w]
    exact ⟨rfl, rfl, hkindred⟩
  case resume =>
    obtain ⟨packet, v⟩ := s
    obtain ⟨packet', w⟩ := s'
    obtain ⟨rfl, hkindred⟩ : packet = packet' ∧ v.Kindred policy w := h
    rw [hcustom.resume k packet v v, hcustom.resume k packet v w]
    exact ⟨rfl, rfl, hkindred⟩

variable [Named β]

/-- A step of a run hands over the record that it was handing over. -/
theorem step_handsOver (hcustom : custom.KeepsToPacket) (p : Processor 𝕊 β) (g : Guard)
    (run : Run (Act β) (Activity κ)) (packet : Packet) (w : World 𝕊 ε) :
    w.HandsOver run.handing
      (run.step (p.host g) p.policy (behaviour custom) (packet, w)).2.2 := by
  by_cases hhanding : ∃ node more record, run.phase = .acting node more (.handing record)
  · obtain ⟨node, more, record, hphase⟩ := hhanding
    have hrecord : run.handing = [record] := by rw [Run.handing, hphase]
    rw [Run.step_handing hphase, hrecord]
    exact w.deliver_handsOver record
  · have hnone : run.handing = [] := by
      unfold Run.handing
      split
      case h_1 hphase => exact (hhanding ⟨_, _, _, hphase⟩).elim
      case h_2 => rfl
    -- What follows an action is counted and drawn at most.
    have hprogressed : ∀ (r : Run (Act β) (Activity κ)) node more
        (x : Progress (Act β) (Activity κ) × Packet × World 𝕊 ε),
        x.2.2.HandsOver [] (r.progressed (p.host g) p.policy node more x).2.2 := by
      intro r node more x
      have htrans : ∀ {s₁ s₂ s₃ : Packet × World 𝕊 ε}, s₁.2.HandsOver [] s₂.2 →
          s₂.2.HandsOver [] s₃.2 → s₁.2.HandsOver [] s₃.2 := fun h h' => h.trans h'
      exact Run.progressed_related (fun s s' : Packet × World 𝕊 ε => s.2.HandsOver [] s'.2)
        (fun _ => ⟨rfl, rfl, rfl, rfl⟩) htrans (fun _ => ⟨rfl, rfl, rfl, rfl⟩)
        (fun _ => ⟨rfl, rfl, rfl, rfl⟩) r node more x
    have hstride : Run.Stride (p.host g) p.policy (behaviour custom) run (packet, w)
        (run.step (p.host g) p.policy (behaviour custom) (packet, w)) := Run.step_stride run _
    rw [hnone]
    generalize run.step (p.host g) p.policy (behaviour custom) (packet, w) = after at hstride ⊢
    cases hstride with
    | silent => exact ⟨rfl, rfl, rfl, rfl⟩
    | start => exact (start_handsOver hcustom _ packet w).trans (hprogressed _ _ _ _)
    | @resume node more activity hphase =>
      cases activity with
      | handing record => exact (hhanding ⟨_, _, _, hphase⟩).elim
      | custom k =>
        have hresumed : w.HandsOver []
            ((behaviour custom).resume (.custom k) (packet, w)).2.2 := by
          simp only [behaviour, embed_snd]
          rw [hcustom.resume k packet w w]
          exact ⟨rfl, rfl, rfl, rfl⟩
        exact hresumed.trans (hprogressed _ _ _ _)

/-- Two runs at the same place, neither of which is cancelled or asleep, take the same step in
kindred worlds. -/
theorem step_like (hcustom : custom.KeepsToPacket) (p : Processor 𝕊 β) {g g' : Guard}
    {run run' : Run (Act β) (Activity κ)} (h : run.Like run') (packet : Packet)
    {v w : World 𝕊 ε} (hkindred : v.Kindred p.policy w)
    (hlive : (v.registry p.registry).isCancelled g.token = false)
    (hlive' : (w.registry p.registry).isCancelled g'.token = false)
    (hawake : run.phase.isAsleep v.now = false) (hawake' : run'.phase.isAsleep w.now = false) :
    Run.LikeWith (fun s s' => s.1 = s'.1 ∧ s.2.Kindred p.policy s'.2)
      (run.step (p.host g) p.policy (behaviour custom) (packet, v))
      (run'.step (p.host g') p.policy (behaviour custom) (packet, w)) := by
  have hpaces : (p.host g : Host 𝕊 (Packet × World 𝕊 ε)).heedless.Paces p.policy
      fun s s' => s.1 = s'.1 ∧ s.2.Kindred p.policy s'.2 :=
    ⟨fun h => ⟨h.1, h.2.identity, h.2.delays⟩, fun h => ⟨h.1, h.2.identity, h.2.delays⟩,
      fun h retry requested => h.2.delays retry requested _ _⟩
  have hleft : run.step (p.host g) p.policy (behaviour custom) (packet, v) =
      run.step (p.host g).heedless p.policy (behaviour custom) (packet, v) :=
    Run.step_heedless fun _ _ _ => Run.isStopped_of_not_cancelled hlive
  have hright : run'.step (p.host g') p.policy (behaviour custom) (packet, w) =
      run'.step (p.host g).heedless p.policy (behaviour custom) (packet, w) :=
    Run.step_heedless fun _ _ _ => Run.isStopped_of_not_cancelled hlive'
  rw [hleft, hright]
  exact Run.step_like hpaces (behaviour_ignores_kindred hcustom p.policy) h ⟨rfl, hkindred⟩ hawake
    hawake'

end Work

/-! ## Attempts -/

namespace Attempt

/-- The record that an attempt is handing over. -/
def handing (a : Attempt β κ) : List Record :=
  match a.run? with
  | some run => run.handing
  | none => []

/-- Whether an attempt waits for a moment that has not come. -/
def isAsleep (a : Attempt β κ) (now : Nat) : Bool :=
  match a.run? with
  | some run => run.phase.isAsleep now
  | none => false

/-- The attempt has ended, or it has crashed. -/
def IsOver (a : Attempt β κ) : Prop :=
  match a.stage with
  | .ended .. | .crashed => True
  | _ => False

/-- The packet of an attempt, once it has begun. -/
def packet? (a : Attempt β κ) : Option Packet :=
  match a.stage with
  | .running _ packet _ | .reporting _ packet _ _ | .ended packet _ => some packet
  | .prepared | .crashed => none

theorem IsOver.guard?_eq {a : Attempt β κ} (h : a.IsOver) : a.guard? = none := by
  obtain ⟨m, stage⟩ := a
  cases stage with
  | prepared | running | reporting => exact h.elim
  | ended | crashed => rfl

theorem handing_of_isAsleep {a : Attempt β κ} {now : Nat} (h : a.isAsleep now = true) :
    a.handing = [] := by
  unfold isAsleep at h
  unfold handing
  cases hrun : a.run? with
  | none => rfl
  | some run =>
    rw [hrun] at h
    change run.phase.isAsleep now = true at h
    cases hphase : run.phase with
    | waiting => simp [Run.handing, hphase]
    | ready | acting | ended | crashed =>
      rw [hphase] at h
      cases h

variable {custom : Behaviour β (Act β) κ (Packet × World 𝕊 ε)} {p : Processor 𝕊 β}
  {a : Attempt β κ} {uid : String}

/-- An attempt in a world in which nobody else acts on account of its domain: as long as it is
under way it holds its place and is not cancelled, and once it is over none is in flight. -/
structure IsSettled (p : Processor 𝕊 β) (a : Attempt β κ) (w : World 𝕊 ε) : Prop where
  sound : (w.registry p.registry).IsSound
  owns : a.OwnsGuard
  holds : ∀ g, a.guard? = some g → (w.registry p.registry).Holds g
  idle : a.IsOver → (w.registry p.registry).isInFlight a.operation.domain.uid = false

namespace IsSettled

variable {w w' : World 𝕊 ε}

theorem prepare (hsound : (w.registry p.registry).IsSound) (m : MakeRight β) :
    IsSettled p (Attempt.prepare m : Attempt β κ) w where
  sound := hsound
  owns _ hg := nomatch hg
  holds _ hg := nomatch hg
  idle hover := hover.elim

/-- Operations on other domains do not unsettle an attempt. -/
theorem elsewhere (h : a.IsSettled p w)
    (hother : (w.registry p.registry).Undergoes (· ≠ a.operation.domain.uid)
      (w'.registry p.registry)) : a.IsSettled p w' where
  sound := hother.isSound h.sound
  owns := h.owns
  holds g hg := by
    have huid : g.uid = a.operation.domain.uid := h.owns g hg
    exact Registry.Undergoes.holds (huid ▸ hother) h.sound (h.holds g hg)
  idle hover := hother.not_isInFlight (h.idle hover)

end IsSettled

/-! ### One step -/

theorem conclude_serves {g : Guard} (hguard : g.uid = uid) (packet : Packet)
    (result : Except Fault Outcome) (w : World 𝕊 ε) :
    w.Serves p uid [] (a.conclude p g packet result w).2 := by
  have hcounted : w.Serves p uid []
      { w with counters := w.counters.raiseAttempt (.of result) } :=
    .of_handsOver ⟨rfl, rfl, rfl, rfl⟩
  unfold conclude
  match result with
  | .ok .cancelled => exact hcounted.trans (.release hguard _)
  | .ok .completed | .ok .terminated =>
    exact hcounted.trans (.trans (.operation (.resetFailures g.uid) hguard _) (.release hguard _))
  | .error fault =>
    simp only
    split
    · exact hcounted.trans (.release hguard _)
    · exact hcounted.trans (.operation (.recordFailure g.uid) hguard _)

variable [Retry.Seconds 𝕊] [Named β]

section

variable {m : MakeRight β} {g : Guard} {packet : Packet} {run : Run (Act β) (Activity κ)}
  {w : World 𝕊 ε}

theorem step_concluding {result : Except Fault Outcome} (hphase : run.phase = .ended result) :
    step p custom ⟨m, .running g packet run⟩ w =
      conclude p ⟨m, .running g packet run⟩ g packet result w := by
  simp [step, hphase]

theorem step_crashing (hphase : run.phase = .crashed) :
    step p custom ⟨m, .running g packet run⟩ w = (⟨m, .crashed⟩, p.release g w) := by
  simp [step, hphase]

theorem step_report_crashing {fault : Fault} (hphase : run.phase = .crashed) :
    step p custom ⟨m, .reporting g packet fault run⟩ w = (⟨m, .crashed⟩, p.release g w) := by
  simp [step, hphase]

end

/-- A step of an attempt serves its domain. -/
theorem step_serves (hcustom : custom.KeepsToPacket) (howns : a.OwnsGuard) (w : World 𝕊 ε) :
    w.Serves p a.operation.domain.uid a.handing (a.step p custom w).2 := by
  have hidle : ∀ {run : Run (Act β) (Activity κ)}, run.phase.IsFinal → run.handing = [] := by
    intro run hfinal
    cases hphase : run.phase with
    | ended | crashed => rw [Run.handing, hphase]
    | ready | acting | waiting =>
      rw [hphase] at hfinal
      exact hfinal.elim
  obtain ⟨m, stage⟩ := a
  cases stage with
  | prepared =>
    have hbegun := World.Serves.operation (p := p) (.begin m.domain.uid w.nextAttempt) rfl w
    exact ⟨hbegun.registry, rfl, rfl, rfl⟩
  | running g packet run =>
    have huid : g.uid = m.domain.uid := howns g rfl
    change w.Serves p m.domain.uid run.handing _
    cases hphase : run.phase with
    | ended result =>
      rw [hidle (hphase ▸ trivial), step_concluding hphase]
      exact conclude_serves huid packet result w
    | crashed =>
      rw [hidle (hphase ▸ trivial), step_crashing hphase]
      exact .release huid w
    | ready | acting | waiting =>
      rw [step_running (hphase ▸ id) rfl]
      exact .of_handsOver (Work.step_handsOver hcustom p g run packet w)
  | reporting g packet fault run =>
    have huid : g.uid = m.domain.uid := howns g rfl
    change w.Serves p m.domain.uid run.handing _
    cases hphase : run.phase with
    | ended result =>
      rw [hidle (hphase ▸ trivial), step_reported hphase]
      exact .release huid w
    | crashed =>
      rw [hidle (hphase ▸ trivial), step_report_crashing hphase]
      exact .release huid w
    | ready | acting | waiting =>
      rw [step_reporting (hphase ▸ id) rfl]
      exact .of_handsOver (Work.step_handsOver hcustom p g run packet w)
  | ended | crashed => exact .of_handsOver ⟨rfl, rfl, rfl, rfl⟩

namespace IsSettled

variable {w : World 𝕊 ε}

theorem step (h : a.IsSettled p w) (hcustom : custom.KeepsToPacket) :
    (a.step p custom w).1.IsSettled p (a.step p custom w).2 := by
  have hserves := step_serves (p := p) hcustom h.owns w
  have howns : (a.step p custom w).1.OwnsGuard := h.owns.step w
  have hoperation := a.step_operation p custom w
  have hchange := a.step_change p custom w
  have hsound := hserves.registry.isSound h.sound
  generalize a.step p custom w = after at hserves howns hoperation hchange hsound ⊢
  -- Whoever holds a guard is not over.
  have hbusy : ∀ {g}, after.1.guard? = some g → ¬ after.1.IsOver := by
    intro g hg hover
    rw [hover.guard?_eq] at hg
    cases hg
  cases hchange with
  | begun _ _ hguard' _ _ hregistry =>
    refine ⟨hsound, howns, fun g hg => ?_, fun hover => (hbusy hguard' hover).elim⟩
    obtain rfl := Option.some.inj (hguard'.symm.trans hg)
    rw [hregistry]
    exact h.sound.holds_begin _ _
  | @stepped a' g packet run hguard _ hguard' _ =>
    refine ⟨hsound, howns, fun g' hg => ?_, fun hover => (hbusy hguard' hover).elim⟩
    obtain rfl := Option.some.inj (hguard'.symm.trans hg)
    have hregistries := (Work.step_handsOver hcustom p g run packet w).registries
    simp only [World.registry, hregistries]
    exact h.holds g hguard
  | @turned a' w' g _ _ hguard _ _ hguard' _ _ _ hspares =>
    refine ⟨hsound, howns, fun g' hg => ?_, fun hover => (hbusy hguard' hover).elim⟩
    obtain rfl := Option.some.inj (hguard'.symm.trans hg)
    exact (h.holds g hguard).of_eq hspares.inFlight hspares.cancelled
  | @released a' w₁ g _ hguard _ _ hguard' _ hspares =>
    refine ⟨hsound, howns, fun g' hg => ?_, fun _ => ?_⟩
    · rw [hguard'] at hg
      cases hg
    · have hholds := (h.holds g hguard).of_eq hspares.inFlight hspares.cancelled
      rw [hoperation, ← h.owns g hguard, Processor.release, World.registry_setRegistry, if_pos rfl]
      exact hholds.not_isInFlight_release
  | idle => exact h

end IsSettled

end Attempt

/-! ## Two attempts -/

theorem Run.Like.handing_eq {run run' : Run (Act β) (Activity κ)} (h : run.Like run') :
    run.handing = run'.handing := by
  unfold Run.handing
  rcases h.phase.cases_waiting with ⟨node, more, deadline, deadline', hphase, hphase'⟩ | ⟨hsame, -⟩
  · rw [hphase, hphase']
  · rw [hsame]

namespace Attempt

/-- Two attempts at the same operation that are at the same place, with the same packet.  The
guards are those of two worlds, and the runs may have waited for different lengths of time. -/
inductive Like : Attempt β κ → Attempt β κ → Prop
  | prepared (m : MakeRight β) : Like ⟨m, .prepared⟩ ⟨m, .prepared⟩
  | running {run run' : Run (Act β) (Activity κ)} (m : MakeRight β) (g g' : Guard)
      (packet : Packet) : run.Like run' →
      Like ⟨m, .running g packet run⟩ ⟨m, .running g' packet run'⟩
  | reporting {run run' : Run (Act β) (Activity κ)} (m : MakeRight β) (g g' : Guard)
      (packet : Packet) (fault : Fault) : run.Like run' →
      Like ⟨m, .reporting g packet fault run⟩ ⟨m, .reporting g' packet fault run'⟩
  | ended (m : MakeRight β) (packet : Packet) (result : Except Fault Outcome) :
      Like ⟨m, .ended packet result⟩ ⟨m, .ended packet result⟩
  | crashed (m : MakeRight β) : Like ⟨m, .crashed⟩ ⟨m, .crashed⟩

namespace Like

variable {a b : Attempt β κ}

theorem symm (h : a.Like b) : b.Like a := by
  cases h with
  | prepared m => exact .prepared m
  | running m g g' packet hrun => exact .running m g' g packet hrun.symm
  | reporting m g g' packet fault hrun => exact .reporting m g' g packet fault hrun.symm
  | ended m packet result => exact .ended m packet result
  | crashed m => exact .crashed m

theorem operation_eq (h : a.Like b) : a.operation = b.operation := by cases h <;> rfl

theorem result?_eq (h : a.Like b) : a.result? = b.result? := by cases h <;> rfl

theorem packet?_eq (h : a.Like b) : a.packet? = b.packet? := by cases h <;> rfl

theorem isOver_iff (h : a.Like b) : a.IsOver ↔ b.IsOver := by cases h <;> exact Iff.rfl

theorem handing_eq (h : a.Like b) : a.handing = b.handing := by
  cases h with
  | prepared | ended | crashed => rfl
  | running m g g' packet hrun => exact hrun.handing_eq
  | reporting m g g' packet fault hrun => exact hrun.handing_eq

end Like

/-- Two attempts, each in a world of its own, are in unison. -/
structure InUnison [Retry.Seconds 𝕊] (p : Processor 𝕊 β) (x y : Attempt β κ × World 𝕊 ε) :
    Prop where
  like : x.1.Like y.1
  left : x.1.IsSettled p x.2
  right : y.1.IsSettled p y.2
  kindred : x.2.Kindred p.policy y.2
  failures : (x.2.registry p.registry).failureCount x.1.operation.domain.uid =
    (y.2.registry p.registry).failureCount x.1.operation.domain.uid

namespace InUnison

variable [Retry.Seconds 𝕊] {p : Processor 𝕊 β} {x y : Attempt β κ × World 𝕊 ε} {w : World 𝕊 ε}

theorem symm (h : InUnison p x y) : InUnison p y x := by
  refine ⟨h.like.symm, h.right, h.left, h.kindred.symm, ?_⟩
  rw [← h.like.operation_eq]
  exact h.failures.symm

/-- What is done on account of other domains does not disturb attempts in unison. -/
theorem elsewhere (h : InUnison p x y) (hkindred : w.Kindred p.policy x.2)
    (hother : (x.2.registry p.registry).Undergoes (· ≠ x.1.operation.domain.uid)
      (w.registry p.registry)) : InUnison p (x.1, w) y where
  like := h.like
  left := h.left.elsewhere hother
  right := h.right
  kindred := hkindred.trans h.kindred
  failures := hother.failureCount_eq.trans h.failures

end InUnison

/-- An attempt begins in the same way if its domain has failed as often in both worlds. -/
theorem register_like (p : Processor 𝕊 β) (m : MakeRight β) {v w : World 𝕊 ε}
    (hfailures : (v.registry p.registry).failureCount m.domain.uid =
      (w.registry p.registry).failureCount m.domain.uid) :
    (register p (⟨m, .prepared⟩ : Attempt β κ) v).1.Like (register p ⟨m, .prepared⟩ w).1 ∧
      ((register p (⟨m, .prepared⟩ : Attempt β κ) v).2.registry p.registry).failureCount
          m.domain.uid =
        ((register p (⟨m, .prepared⟩ : Attempt β κ) w).2.registry p.registry).failureCount
          m.domain.uid := by
  have hbegun : ∀ u : World 𝕊 ε, ((u.registry p.registry).begin m.domain.uid
      u.nextAttempt).2.failureCount m.domain.uid =
        (u.registry p.registry).failureCount m.domain.uid :=
    fun u => Registry.failureCount_begin
  constructor
  · simp only [register, hbegun]
    rw [hfailures]
    exact .running m _ _ _ (.refl _)
  · rw [registry_register, registry_register, hbegun, hbegun]
    exact hfailures

/-- What follows the same end of a chain is the same, if the domain has failed as often in both
worlds. -/
theorem conclude_like {p : Processor 𝕊 β} {m : MakeRight β} {stage stage' : AttemptStage β κ}
    {g g' : Guard} {v w : World 𝕊 ε} (hguard : g'.uid = g.uid)
    (hfailures : (v.registry p.registry).failureCount g.uid =
      (w.registry p.registry).failureCount g.uid)
    (packet : Packet) (result : Except Fault Outcome) :
    (conclude p ⟨m, stage⟩ g packet result v).1.Like
        (conclude p ⟨m, stage'⟩ g' packet result w).1 ∧
      ((conclude p ⟨m, stage⟩ g packet result v).2.registry p.registry).failureCount g.uid =
        ((conclude p ⟨m, stage'⟩ g' packet result w).2.registry p.registry).failureCount g.uid := by
  unfold conclude
  match result with
  | .ok .cancelled =>
    refine ⟨.ended m packet _, ?_⟩
    rw [p.failureCount_release, p.failureCount_release]
    exact hfailures
  | .ok .completed | .ok .terminated =>
    refine ⟨.ended m packet _, ?_⟩
    rw [p.failureCount_release, p.failureCount_release, World.registry_setRegistry, if_pos rfl,
      World.registry_setRegistry, if_pos rfl, Registry.failureCount_resetFailures, if_pos rfl,
      Registry.failureCount_resetFailures, hguard, if_pos rfl]
  | .error fault =>
    simp only
    split
    · refine ⟨.ended m packet _, ?_⟩
      rw [p.failureCount_release, p.failureCount_release]
      exact hfailures
    · have hcount : (v.registry p.registry).failureCount g.uid + 1 =
          (w.registry p.registry).failureCount g'.uid + 1 := by rw [hguard, hfailures]
      constructor
      · have hreport : p.report (β := β) fault ((v.registry p.registry).failureCount g.uid + 1) =
            p.report fault ((w.registry p.registry).failureCount g'.uid + 1) := by rw [hcount]
        change Like ⟨m, .reporting g packet fault (.start (p.report fault
            ((v.registry p.registry).failureCount g.uid + 1)).build)⟩ _
        rw [hreport]
        exact .reporting m g g' packet fault (.refl _)
      · rw [World.registry_setRegistry, if_pos rfl, World.registry_setRegistry, if_pos rfl,
          Registry.failureCount_recordFailure, if_pos rfl, Registry.failureCount_recordFailure,
          hguard, if_pos rfl]
        exact congrArg (· + 1) hfailures

variable [Retry.Seconds 𝕊] [Named β] {p : Processor 𝕊 β}
  {custom : Behaviour β (Act β) κ (Packet × World 𝕊 ε)}

/-- Runs of attempts in unison take the same step, and leave the counts of failures alone. -/
theorem runs_like (hcustom : custom.KeepsToPacket) {g g' : Guard}
    {run run' : Run (Act β) (Activity κ)} (hrun : run.Like run') (packet : Packet)
    {v w : World 𝕊 ε} (hkindred : v.Kindred p.policy w) (hholds : (v.registry p.registry).Holds g)
    (hholds' : (w.registry p.registry).Holds g') {uid : String}
    (hfailures : (v.registry p.registry).failureCount uid =
      (w.registry p.registry).failureCount uid)
    (hawake : run.phase.isAsleep v.now = false) (hawake' : run'.phase.isAsleep w.now = false) :
    ∃ next next' packet' v' w',
      run.step (p.host g) p.policy (Work.behaviour custom) (packet, v) = (next, packet', v') ∧
      run'.step (p.host g') p.policy (Work.behaviour custom) (packet, w) = (next', packet', w') ∧
      next.Like next' ∧ (v'.registry p.registry).failureCount uid =
        (w'.registry p.registry).failureCount uid := by
  obtain ⟨hnext, hpacket, -⟩ :=
    Work.step_like hcustom p hrun packet hkindred hholds.live hholds'.live hawake hawake'
  have hregistries := (Work.step_handsOver hcustom p g run packet v).registries
  have hregistries' := (Work.step_handsOver hcustom p g' run' packet w).registries
  generalize run.step (p.host g) p.policy (Work.behaviour custom) (packet, v) = x
    at hnext hpacket hregistries ⊢
  generalize run'.step (p.host g') p.policy (Work.behaviour custom) (packet, w) = y
    at hnext hpacket hregistries' ⊢
  obtain ⟨next, packet', v'⟩ := x
  obtain ⟨next', packet'', w'⟩ := y
  obtain rfl : packet' = packet'' := hpacket
  have hv : v'.registries = v.registries := hregistries
  have hw : w'.registries = w.registries := hregistries'
  refine ⟨next, next', packet', v', w', rfl, rfl, hnext, ?_⟩
  simp only [World.registry, hv, hw] at hfailures ⊢
  exact hfailures

theorem step_like (hcustom : custom.KeepsToPacket) {a b : Attempt β κ} {v w : World 𝕊 ε}
    (h : InUnison p (a, v) (b, w)) (hawake : a.isAsleep v.now = false)
    (hawake' : b.isAsleep w.now = false) :
    (a.step p custom v).1.Like (b.step p custom w).1 ∧
      ((a.step p custom v).2.registry p.registry).failureCount a.operation.domain.uid =
        ((b.step p custom w).2.registry p.registry).failureCount a.operation.domain.uid := by
  obtain ⟨hlike, hleft, hright, hkindred, hfailures⟩ := h
  cases hlike with
  | prepared m => exact register_like p m hfailures
  | @running run run' m g g' packet hrun =>
    have huid : g.uid = m.domain.uid := hleft.owns g rfl
    have hguard : g'.uid = g.uid := (hright.owns g' rfl).trans huid.symm
    cases hphase : run.phase with
    | ended result =>
      have hphase' : run'.phase = .ended result :=
        (hrun.phase.eq_of_isFinal (hphase ▸ trivial)).trans hphase
      rw [step_concluding hphase, step_concluding hphase']
      exact huid ▸ conclude_like hguard (huid.symm ▸ hfailures) packet result
    | crashed =>
      have hphase' : run'.phase = .crashed :=
        (hrun.phase.eq_of_isFinal (hphase ▸ trivial)).trans hphase
      rw [step_crashing hphase, step_crashing hphase', p.failureCount_release,
        p.failureCount_release]
      exact ⟨.crashed m, hfailures⟩
    | ready | acting | waiting =>
      have hopen : ¬ run.phase.IsFinal := hphase ▸ id
      obtain ⟨next, next', packet', v', w', hstep, hstep', hnext, hcount⟩ :=
        runs_like hcustom hrun packet hkindred (hleft.holds g rfl) (hright.holds g' rfl) hfailures
          hawake hawake'
      rw [step_running hopen hstep, step_running (mt hrun.phase.isFinal_iff.2 hopen) hstep']
      exact ⟨.running m g g' packet' hnext, hcount⟩
  | @reporting run run' m g g' packet fault hrun =>
    cases hphase : run.phase with
    | ended result =>
      have hphase' : run'.phase = .ended result :=
        (hrun.phase.eq_of_isFinal (hphase ▸ trivial)).trans hphase
      rw [step_reported hphase, step_reported hphase', p.failureCount_release,
        p.failureCount_release]
      exact ⟨.ended m packet _, hfailures⟩
    | crashed =>
      have hphase' : run'.phase = .crashed :=
        (hrun.phase.eq_of_isFinal (hphase ▸ trivial)).trans hphase
      rw [step_report_crashing hphase, step_report_crashing hphase', p.failureCount_release,
        p.failureCount_release]
      exact ⟨.crashed m, hfailures⟩
    | ready | acting | waiting =>
      have hopen : ¬ run.phase.IsFinal := hphase ▸ id
      obtain ⟨next, next', packet', v', w', hstep, hstep', hnext, hcount⟩ :=
        runs_like hcustom hrun packet hkindred (hleft.holds g rfl) (hright.holds g' rfl) hfailures
          hawake hawake'
      rw [step_reporting hopen hstep, step_reporting (mt hrun.phase.isFinal_iff.2 hopen) hstep']
      exact ⟨.reporting m g g' packet' fault hnext, hcount⟩
  | ended m packet result => exact ⟨.ended m packet result, hfailures⟩
  | crashed m => exact ⟨.crashed m, hfailures⟩

/-- Attempts in unison take the same step, unless one of them sleeps. -/
theorem InUnison.step {x y : Attempt β κ × World 𝕊 ε} (h : InUnison p x y)
    (hcustom : custom.KeepsToPacket) (hawake : x.1.isAsleep x.2.now = false)
    (hawake' : y.1.isAsleep y.2.now = false) :
    InUnison p (x.1.step p custom x.2) (y.1.step p custom y.2) := by
  obtain ⟨hlike, hfailures⟩ := step_like hcustom h hawake hawake'
  have hleft := step_serves (p := p) hcustom h.left.owns x.2
  have hright := step_serves (p := p) hcustom h.right.owns y.2
  have hkindred := h.kindred.of_eq hleft.identity hleft.spread
  refine ⟨hlike, h.left.step hcustom, h.right.step hcustom,
    (hkindred.symm.of_eq hright.identity hright.spread).symm, ?_⟩
  rw [x.1.step_operation p custom x.2]
  exact hfailures

/-- An attempt that sleeps stays as it is, and so does the world. -/
theorem IsSettled.step_asleep {a : Attempt β κ} {w : World 𝕊 ε} (h : a.IsSettled p w)
    (hasleep : a.isAsleep w.now = true) : a.step p custom w = (a, w) := by
  have hgo : ∀ {g}, a.guard? = some g → ∀ packet (node : Node (Act β)),
      Run.isStopped (p.host g) node (packet, w) = false :=
    fun hg packet node => Run.isStopped_of_not_cancelled (h.holds _ hg).live
  have hopen : ∀ {run : Run (Act β) (Activity κ)}, run.phase.isAsleep w.now = true →
      ¬ run.phase.IsFinal := by
    intro run hrun hfinal
    cases hphase : run.phase with
    | ended | crashed =>
      rw [hphase] at hrun
      cases hrun
    | ready | acting | waiting =>
      rw [hphase] at hfinal
      exact hfinal.elim
  obtain ⟨m, stage⟩ := a
  cases stage with
  | running g packet run =>
    exact step_running (hopen hasleep) (Run.step_asleep hasleep (hgo rfl packet))
  | reporting g packet fault run =>
    exact step_reporting (hopen hasleep) (Run.step_asleep hasleep (hgo rfl packet))
  | prepared | ended | crashed => cases hasleep

end Attempt

end Reconcile
