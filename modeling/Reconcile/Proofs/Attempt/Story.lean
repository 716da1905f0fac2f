import Mathlib.Computability.RegularExpressions
import Reconcile.Proofs.Attempt.Body

/-!
# The story of an attempt

The records that an attempt hands over tell its story: perhaps a retry, the start, and then the
completion or a failure, which may be final.  Every story may break off, but none goes another
way (`lifecycleWords`).

An attempt at an operation with a discreet body tells the reports it begins with, then says
nothing while the body runs, and then either reports the completion or, in a chain of its own, a
failure.  `Told` says where it stands for what it has told so far, and every step keeps to that
(`Told.step`).  What an attempt has told also says how it is going to end: one that has reported
the completion completes, and one that has reported a failure returns a fault, which is not one of
the configuration.
-/

namespace Reconcile

variable {𝕊 β κ ε : Type}

/-! ## Words -/

/-- The stories that an attempt may tell, as words of reasons. -/
def lifecycleWords : RegularExpression String :=
  let tell (item : Item) : RegularExpression String := .char item.reason
  (1 + tell .processingRetrying) * (1 + tell .processingStarting *
    (1 + (tell .processingCompleted + tell .processingFailed * (1 + tell .processingAborted))))

/-- The reports with which an operation begins after a number of failures. -/
def leads (failures : Nat) : List Item :=
  if 0 < failures then [.processingRetrying, .processingStarting] else [.processingStarting]

/-- What the report of a failure may have told. -/
def failureStories : List (List Item) :=
  [[], [.processingFailed], [.processingFailed, .processingAborted]]

theorem mem_failureStories_of_append {told rest : List Item} (h : told ++ rest ∈ failureStories) :
    told ∈ failureStories := by
  have hclosed : ∀ story ∈ failureStories, ∀ told ∈ story.inits, told ∈ failureStories := by
    decide
  exact hclosed _ h _ ((List.mem_inits ..).2 (List.prefix_append ..))

/-- What an attempt may have told. -/
def stories (failures : Nat) : List (List Item) :=
  (leads failures).inits ++ (leads failures ++ [.processingCompleted]) ::
    failureStories.map (leads failures ++ ·)

theorem stories_spec (failures : Nat) : ∀ told ∈ stories failures,
    told.map Item.reason ∈ lifecycleWords.matches' ∧
      (.processingRetrying ∈ told → 0 < failures) ∧
      (0 < failures → .processingStarting ∈ told → .processingRetrying ∈ told) ∧
      ¬ (.processingCompleted ∈ told ∧ .processingFailed ∈ told) := by
  unfold stories leads
  by_cases hfailures : 0 < failures
  · simp only [hfailures, if_true]
    decide
  · simp only [hfailures, if_false]
    decide

/-- A report that an operation begins with is admissible when its turn comes. -/
theorem admissible_lead {failures : Nat} {told rest : List Item} {item : Item}
    (h : told ++ item :: rest = leads failures) :
    item.scope = .domain ∧ (Request.of item).Admissible (told.map .of) := by
  unfold leads at h
  split at h
  · rcases told with _ | ⟨first, _ | ⟨second, told⟩⟩
    · obtain ⟨rfl, -⟩ := List.cons.inj h
      exact ⟨rfl, trivial⟩
    · obtain ⟨rfl, hrest⟩ := List.cons.inj h
      obtain ⟨rfl, -⟩ := List.cons.inj hrest
      exact ⟨rfl, by simp [Request.Admissible, Request.of]⟩
    · simp at h
  · rcases told with _ | ⟨first, told⟩
    · obtain ⟨rfl, -⟩ := List.cons.inj h
      exact ⟨rfl, by simp [Request.Admissible, Request.of]⟩
    · simp at h

theorem completed_not_mem_leads (failures : Nat) : .processingCompleted ∉ leads failures := by
  unfold leads
  split <;> decide

theorem failed_not_mem_leads (failures : Nat) : .processingFailed ∉ leads failures := by
  unfold leads
  split <;> decide

theorem latestFailure_leads (failures : Nat) :
    latestFailure ((leads failures).map .of) = none := by
  unfold leads
  split <;> rfl

/-- The reports that an operation begins with are neither declined nor without a target, so
nothing but the configuration can stand in their way. -/
theorem prepare_lead {failures : Nat} {told rest : List Item} {item : Item} {packet : Packet}
    {d : Domain} (hleads : told ++ item :: rest = leads failures)
    (htracks : Markers.Tracks (told.map .of) packet.markers) (hdomain : packet.domain = some d)
    (i : Identity) :
    (∃ fault, (Request.of item).prepare packet i = .error fault ∧ fault.isConfiguration = true) ∨
      ∃ record, (Request.of item).prepare packet i = .ok (.record record) := by
  obtain ⟨hscope, hadmissible⟩ := admissible_lead hleads
  obtain ⟨text, hdecision⟩ := (htracks.decision_iff _).2 hadmissible
  have hpreparation := (Request.of item).preparation packet i
  generalize (Request.of item).prepare packet i = answer at hpreparation ⊢
  cases hpreparation with
  | untargeted hmissing => cases (Request.target_of_domain hdomain hscope).symm.trans hmissing
  | declined _ hdeclined => cases hdecision.symm.trans hdeclined
  | anonymous _ _ hidentity =>
    exact .inl ⟨_, rfl, Identity.isConfiguration_of_resolve hidentity⟩
  | emitted => exact .inr ⟨_, rfl⟩

/-! ## The chain of an operation -/

/-- The step that an operation begins with in order to report something. -/
def Node.lead (item : Item) : Node (Act β) := .emitting false (.of item)

theorem MakeRight.nodes_plan {m : MakeRight β} (hoverride : m.override = none)
    (reconciler : Domain → Steps β) (failures : Nat) :
    (m.plan reconciler failures).build.nodes =
      (leads failures).map Node.lead ++
        Chain.splice ((m.body.getD (reconciler m.domain)).build.nodes ++ [.completing]) := by
  have hlead : ∀ (item : Item) (ns : List (Node (Act β))),
      Chain.splice (.lead item :: ns) = .lead item :: Chain.splice ns :=
    fun item ns => Chain.splice_cons rfl ns
  unfold MakeRight.plan
  rw [hoverride]
  simp only [Plan.build, Plan.buildAll_eq_map, Chain.concat]
  unfold retrying leads
  split
  · show (Chain.ofNodes (Chain.splice (.lead .processingRetrying :: .lead .processingStarting ::
      ((m.body.getD (reconciler m.domain)).build.nodes ++ [.completing])))).nodes = _
    rw [hlead, hlead]
    rfl
  · show (Chain.ofNodes (Chain.splice (.lead .processingStarting ::
      ((m.body.getD (reconciler m.domain)).build.nodes ++ [.completing])))).nodes = _
    rw [hlead]
    rfl

/-! ## What comes of the report of a failure -/

/-- A failure that is the first one is reported, if anything is. -/
theorem Emits.map_item_mem {P : Identity → Prop} {fault : Fault} {abort : Bool}
    {packet packet' : Packet} {rs : List Record} (hfresh : packet.markers.failure = none)
    (h : Emits P (fault.requests abort) packet rs packet') :
    rs.map Record.item ∈ failureStories := by
  unfold failureStories
  cases h with
  | fault => simp
  | suppressed _ hprepare =>
    obtain ⟨record, hrecord⟩ := (Request.decision_of_prepare hprepare).2
      ⟨_, (fault.decision_failed _).trans (if_neg (by simp [hfresh]))⟩
    cases hrecord
  | @record _ _ _ _ _ failed _ _ hprepare hrest =>
    have hfailed : failed.item = .processingFailed := Request.item_of_prepare hprepare
    cases abort with
    | false =>
      cases hrest
      simp [hfailed]
    | true =>
      rw [if_pos rfl] at hrest
      cases hrest with
      | fault => simp [hfailed]
      | suppressed _ _ hnil =>
        cases hnil
        simp [hfailed]
      | @record _ _ _ _ _ aborted _ _ hprepare' hnil =>
        have haborted : aborted.item = .processingAborted :=
          Request.item_of_prepare hprepare'
        cases hnil
        simp [hfailed, haborted]

namespace Attempt

/-! ## Attempts that have told everything -/

/-- An attempt that hands over nothing any more. -/
inductive IsSpent : Attempt β κ → Prop
  | finishing {m : MakeRight β} {g : Guard} {packet : Packet} {run : Run (Act β) (Activity κ)} :
      run.pending = [] → run.phase = .ready [] → IsSpent ⟨m, .running g packet run⟩
  | finished {m : MakeRight β} {g : Guard} {packet : Packet} {run : Run (Act β) (Activity κ)}
      {outcome : Outcome} :
      run.phase = .ended (.ok outcome) → IsSpent ⟨m, .running g packet run⟩
  /-- A fault of the configuration is not reported. -/
  | misconfigured {m : MakeRight β} {g : Guard} {packet : Packet}
      {run : Run (Act β) (Activity κ)} {fault : Fault} : run.phase = .ended (.error fault) →
      fault.isConfiguration = true → IsSpent ⟨m, .running g packet run⟩
  | ended {m : MakeRight β} {packet : Packet} {result : Except Fault Outcome} :
      IsSpent ⟨m, .ended packet result⟩
  | crashed {m : MakeRight β} : IsSpent ⟨m, .crashed⟩

variable [Retry.Seconds 𝕊] [Named β]
variable {p : Processor 𝕊 β} {custom : Behaviour β (Act β) κ (Packet × World 𝕊 ε)}
  {m : MakeRight β} {fault : Fault} {g : Guard} {packet : Packet}
  {run : Run (Act β) (Activity κ)} {w : World 𝕊 ε} {a : Attempt β κ}

theorem step_running (hopen : ¬ run.phase.IsFinal) {run' : Run (Act β) (Activity κ)}
    {packet' : Packet} {w' : World 𝕊 ε}
    (hstep : run.step (p.host g) p.policy (Work.behaviour custom) (packet, w) =
      (run', packet', w')) :
    step p custom ⟨m, .running g packet run⟩ w = (⟨m, .running g packet' run'⟩, w') := by
  unfold step
  cases hphase : run.phase with
  | ended => exact (hopen (hphase ▸ trivial)).elim
  | crashed => exact (hopen (hphase ▸ trivial)).elim
  | ready | acting | waiting => simp [hphase, hstep]

theorem step_finishing (hpending : run.pending = []) (hphase : run.phase = .ready []) :
    step p custom ⟨m, .running g packet run⟩ w =
      (⟨m, .running g packet (run.finish (.ok .completed))⟩, w) :=
  step_running (Phase.not_isFinal_of_ready hphase) (by simp [Run.step, hphase, hpending])

variable (p custom m g packet w) in
theorem step_finished {outcome : Outcome} (hphase : run.phase = .ended (.ok outcome)) :
    (step p custom ⟨m, .running g packet run⟩ w).1 = ⟨m, .ended packet (.ok outcome)⟩ ∧
      (step p custom ⟨m, .running g packet run⟩ w).2.outbox = w.outbox := by
  cases outcome <;> simp [step, hphase, conclude, Processor.release, World.setRegistry]

variable (p custom w) in
theorem IsSpent.step (h : a.IsSpent) :
    (a.step p custom w).1.IsSpent ∧ w.handedSince (a.step p custom w).2 = [] := by
  cases h with
  | finishing hpending hphase =>
    rw [step_finishing hpending hphase]
    exact ⟨.finished rfl, World.handedSince_of_eq rfl⟩
  | @finished m g packet run outcome hphase =>
    obtain ⟨hended, houtbox⟩ := step_finished p custom m g packet w hphase
    rw [hended]
    exact ⟨.ended, World.handedSince_of_eq (by rw [houtbox])⟩
  | misconfigured hphase hconfiguration =>
    rw [step_configuration hphase hconfiguration]
    exact ⟨.ended, World.handedSince_of_eq rfl⟩
  | ended => exact ⟨.ended, World.handedSince_of_eq rfl⟩
  | crashed => exact ⟨.crashed, World.handedSince_of_eq rfl⟩

theorem endsWithin_of_finishing (hpending : run.pending = []) (hphase : run.phase = .ready []) :
    EndsWithin p custom 2 ⟨m, .running g packet run⟩ (.ok .completed) := by
  refine .step fun w => ?_
  rw [step_finishing hpending hphase]
  refine .step fun w => ?_
  rw [(step_finished p custom m g packet w rfl).1]
  exact .ended

/-! ## Where an attempt stands for what it has told -/

/-- Where an attempt at an operation with a discreet body may stand after it has told
something. -/
inductive Told (p : Processor 𝕊 β) (custom : Behaviour β (Act β) κ (Packet × World 𝕊 ε))
    (m : MakeRight β) (failures : Nat) : List Item → Attempt β κ → Prop
  /-- In front of a report that it begins with. -/
  | leading {told rest : List Item} {item : Item} {g : Guard} {packet : Packet}
      {run : Run (Act β) (Activity κ)} {body : List (Node (Act β))} :
      told ++ item :: rest = leads failures → run.pending = [] →
      run.phase = .ready (.lead item :: (rest.map .lead ++ body)) → FitsBody body →
      Markers.Tracks (told.map .of) packet.markers → packet.domain = some m.domain →
      Told p custom m failures told ⟨m, .running g packet run⟩
  /-- About to hand such a report over. -/
  | handing {told rest : List Item} {g : Guard} {packet : Packet} {node : Node (Act β)}
      {run : Run (Act β) (Activity κ)} {body : List (Node (Act β))} {record : Record} :
      told ++ record.item :: rest = leads failures → run.pending = [] →
      run.phase = .acting node (rest.map .lead ++ body) (.handing record) → FitsBody body →
      Markers.Tracks ((told ++ [record.item]).map .of) packet.markers →
      packet.domain = some m.domain → Told p custom m failures told ⟨m, .running g packet run⟩
  /-- In the body, or at the end of its chain. -/
  | body {g : Guard} {packet : Packet} {run : Run (Act β) (Activity κ)} : run.IsInBody →
      Markers.Tracks ((leads failures).map .of) packet.markers →
      Told p custom m failures (leads failures) ⟨m, .running g packet run⟩
  /-- About to hand the report of the completion over. -/
  | completing {g : Guard} {packet : Packet} {run : Run (Act β) (Activity κ)}
      {node : Node (Act β)} {record : Record} : run.pending = [] →
      run.phase = .acting node [] (.handing record) → record.item = .processingCompleted →
      Told p custom m failures (leads failures) ⟨m, .running g packet run⟩
  | completed {a : Attempt β κ} {left : Nat} : a.IsSpent →
      EndsWithin p custom left a (.ok .completed) →
      Told p custom m failures (leads failures ++ [.processingCompleted]) a
  /-- In the report of a failure. -/
  | failed {a : Attempt β κ} {fault : Fault} {abort : Bool} {begun : Packet} {left : Nat}
      {rs : List Record} : fault.isConfiguration = false → begun.markers.failure = none →
      Reporting (fun _ => True) m fault (fault.requests abort) begun left rs a →
      Told p custom m failures (leads failures ++ rs.map Record.item) a
  /-- Broken off before the body, or ended without a report. -/
  | spent {a : Attempt β κ} {told : List Item} : told <+: leads failures → a.IsSpent →
      Told p custom m failures told a

namespace Told

variable {failures : Nat} {told : List Item}

/-- An attempt that has told the reports it begins with is in the body. -/
theorem of_leads {rest : List Item} {body : List (Node (Act β))}
    (hleads : told ++ rest = leads failures) (hpending : run.pending = [])
    (hphase : run.phase = .ready (rest.map .lead ++ body)) (hbody : FitsBody body)
    (htracks : Markers.Tracks (told.map .of) packet.markers)
    (hdomain : packet.domain = some m.domain) :
    Told p custom m failures told ⟨m, .running g packet run⟩ := by
  cases rest with
  | nil =>
    rw [List.append_nil] at hleads
    subst hleads
    refine .body ⟨by simp [hpending], ?_⟩ htracks
    rw [hphase, hpending]
    simpa [Phase.IsInBody] using hbody
  | cons item rest => exact .leading hleads hpending hphase hbody htracks hdomain

theorem begin (p : Processor 𝕊 β) (custom : Behaviour β (Act β) κ (Packet × World 𝕊 ε))
    (hoverride : m.override = none)
    (hbody : (m.body.getD (p.reconciler m.domain)).Forall Work.IsCustom) (w : World 𝕊 ε) :
    Told p custom m ((w.registry p.registry).failureCount m.domain.uid) []
      ((prepare m).step p custom w).1 := by
  have hcount : ((w.registry p.registry).begin m.domain.uid w.nextAttempt).2.failureCount
      m.domain.uid = (w.registry p.registry).failureCount m.domain.uid :=
    Registry.failureCount_begin
  refine of_leads (List.nil_append _) rfl ?_ (FitsBody.splice hbody.build) .initial rfl
  rw [← hcount]
  exact congrArg Phase.ready (m.nodes_plan hoverride p.reconciler _)

theorem step_leading {rest : List Item} {item : Item} {body : List (Node (Act β))}
    (hleads : told ++ item :: rest = leads failures) (hpending : run.pending = [])
    (hphase : run.phase = .ready (.lead item :: (rest.map .lead ++ body))) (hbody : FitsBody body)
    (htracks : Markers.Tracks (told.map .of) packet.markers)
    (hdomain : packet.domain = some m.domain) :
    Told p custom m failures told (step p custom ⟨m, .running g packet run⟩ w).1 ∧
      w.handedSince (step p custom ⟨m, .running g packet run⟩ w).2 = [] := by
  have hopen := Phase.not_isFinal_of_ready hphase
  have hbegun : told <+: leads failures := ⟨_, hleads⟩
  cases hstopped : Run.isStopped (p.host g) (Node.lead (β := β) item) (packet, w) with
  | true =>
    have hstep : run.step (p.host g) p.policy (Work.behaviour custom) (packet, w) =
        (run.finish (.ok .cancelled), packet, w) := by
      simp [Run.step, hphase, hstopped]
    rw [step_running hopen hstep]
    exact ⟨.spent hbegun (.finished rfl), World.handedSince_of_eq rfl⟩
  | false =>
    have hannounced := Run.step_emitting p.policy custom hphase hstopped
    generalize hstep : run.step (p.host g) p.policy (Work.behaviour custom) (packet, w) = after
      at hannounced
    have hprepared := prepare_lead hleads htracks hdomain w.identity
    cases hannounced with
    | @fault run' fault hprepare hended =>
      -- A fault can only be one of the configuration, of which there is no report.
      rw [step_running hopen hstep]
      refine ⟨.spent hbegun (.misconfigured hended ?_), World.handedSince_of_eq rfl⟩
      rcases hprepared with ⟨_, hfault, hconfiguration⟩ | ⟨_, hrecord⟩
      · cases hfault.symm.trans hprepare
        exact hconfiguration
      · cases hrecord.symm.trans hprepare
    | suppressed hprepare =>
      rcases hprepared with ⟨_, hfault, -⟩ | ⟨_, hrecord⟩
      · cases hfault.symm.trans hprepare
      · cases hrecord.symm.trans hprepare
    | @record run' record hprepare hacting hkept =>
      rw [step_running hopen hstep]
      have hitem : record.item = item := Request.item_of_prepare hprepare
      refine ⟨.handing (hitem ▸ hleads) (hkept.trans hpending) hacting hbody ?_ hdomain,
        World.handedSince_of_eq rfl⟩
      rw [hitem, List.map_append]
      exact htracks.concat _

/-- At the end of its chain an attempt has told what it has to tell, or it reports a failure. -/
theorem step_ended {result : Except Fault Outcome} (hphase : run.phase = .ended result)
    (htracks : Markers.Tracks ((leads failures).map .of) packet.markers) :
    Told p custom m failures (leads failures) (step p custom ⟨m, .running g packet run⟩ w).1 ∧
      w.handedSince (step p custom ⟨m, .running g packet run⟩ w).2 = [] := by
  cases result with
  | ok outcome =>
    have hspent : IsSpent (⟨m, .running g packet run⟩ : Attempt β κ) := .finished hphase
    obtain ⟨hnext, hquiet⟩ := hspent.step p custom w
    exact ⟨.spent (List.prefix_refl _) hnext, hquiet⟩
  | error fault =>
    cases hconfiguration : fault.isConfiguration with
    | true =>
      rw [step_configuration hphase hconfiguration]
      exact ⟨.spent (List.prefix_refl _) .ended, World.handedSince_of_eq rfl⟩
    | false =>
      rw [step_failed hphase hconfiguration]
      have hfresh := htracks.failure.trans (latestFailure_leads failures)
      have hstart := Reporting.start (κ := κ) (fun _ => True) p m fault
        ((w.registry p.registry).failureCount g.uid + 1) g packet
      exact ⟨List.append_nil (leads failures) ▸ .failed hconfiguration hfresh hstart,
        World.handedSince_of_eq rfl⟩

theorem step_completion (hphase : run.phase = .ready [.completing]) (hpending : run.pending = [])
    (hgo : Run.isStopped (p.host g) (Node.completing (β := β)) (packet, w) = false)
    (htracks : Markers.Tracks ((leads failures).map .of) packet.markers) :
    Told p custom m failures (leads failures) (step p custom ⟨m, .running g packet run⟩ w).1 ∧
      w.handedSince (step p custom ⟨m, .running g packet run⟩ w).2 = [] := by
  have hopen := Phase.not_isFinal_of_ready hphase
  have hannounced := Run.step_emitting p.policy custom hphase hgo
  generalize hstep : run.step (p.host g) p.policy (Work.behaviour custom) (packet, w) = after
    at hannounced
  cases hannounced with
  | @fault run' fault hprepare hended hkept =>
    rw [step_running hopen hstep]
    have hbody : run'.IsInBody := ⟨by simp [hkept, hpending], by rw [hended]; trivial⟩
    exact ⟨.body hbody htracks, World.handedSince_of_eq rfl⟩
  | @suppressed run' w' rule hprepare hready hkept houtbox =>
    -- A declined completion leaves an empty chain, which is still one of the body.
    rw [step_running hopen hstep]
    have hnone := hkept.trans hpending
    have hbody : run'.IsInBody := ⟨by simp [hnone], by rw [hready, hnone]; exact .nil⟩
    exact ⟨.body hbody htracks, World.handedSince_of_eq (by rw [houtbox])⟩
  | record hprepare hacting hkept =>
    rw [step_running hopen hstep]
    exact ⟨.completing (hkept.trans hpending) hacting (Request.item_of_prepare hprepare),
      World.handedSince_of_eq rfl⟩

theorem step_body (hcustom : custom.IsDiscreet) (hrun : run.IsInBody)
    (htracks : Markers.Tracks ((leads failures).map .of) packet.markers) :
    Told p custom m failures (leads failures) (step p custom ⟨m, .running g packet run⟩ w).1 ∧
      w.handedSince (step p custom ⟨m, .running g packet run⟩ w).2 = [] := by
  cases hphase : run.phase with
  | ended result => exact step_ended hphase htracks
  | crashed =>
    have hstep : step p custom ⟨m, .running g packet run⟩ w = (⟨m, .crashed⟩, p.release g w) := by
      simp [step, hphase]
    rw [hstep]
    exact ⟨.spent (List.prefix_refl _) .crashed, World.handedSince_of_eq rfl⟩
  | ready | acting | waiting =>
    have hopen : ¬ run.phase.IsFinal := by simp [hphase, Phase.IsFinal]
    rcases hrun.step p g p.policy hcustom (packet, w) with
      ⟨hstays, hquiet⟩ | ⟨hready, hpending, hgo⟩
    · rw [step_running hopen rfl]
      exact ⟨.body hstays (hquiet.markers ▸ htracks), World.handedSince_of_eq hquiet.handed⟩
    · exact step_completion hready hpending hgo htracks

/-- Every step of an attempt carries its story on. -/
theorem step (h : Told p custom m failures told a) (hcustom : custom.IsDiscreet) (w : World 𝕊 ε) :
    Told p custom m failures
      (told ++ (w.handedSince (a.step p custom w).2).map Record.item)
      (a.step p custom w).1 := by
  -- A step that hands nothing over leaves what has been told as it is.
  have hsilent : ∀ {told a}, Told p custom m failures told (Attempt.step p custom a w).1 ∧
      w.handedSince (Attempt.step p custom a w).2 = [] → Told p custom m failures
        (told ++ (w.handedSince (Attempt.step p custom a w).2).map Record.item)
        (Attempt.step p custom a w).1 := by
    intro told a ⟨hnext, hnone⟩
    rwa [hnone, List.map_nil, List.append_nil]
  cases h with
  | leading hleads hpending hphase hbody htracks hdomain =>
    exact hsilent (step_leading hleads hpending hphase hbody htracks hdomain)
  | @handing told rest g packet node run body record hleads hpending hphase hbody htracks
      hdomain =>
    rw [step_running (Phase.not_isFinal_of_acting hphase) (Run.step_handing hphase),
      World.handedSince_of_append (w.handed_deliver record)]
    exact of_leads (by simpa using hleads) hpending rfl hbody htracks hdomain
  | body hrun htracks => exact hsilent (step_body hcustom hrun htracks)
  | @completing g packet run node record hpending hphase hitem =>
    rw [step_running (Phase.not_isFinal_of_acting hphase) (Run.step_handing hphase),
      World.handedSince_of_append (w.handed_deliver record), List.map_singleton, hitem]
    exact .completed (.finishing hpending rfl) (endsWithin_of_finishing hpending rfl)
  | completed hspent hends =>
    obtain ⟨hnext, hnone⟩ := hspent.step p custom w
    exact hsilent ⟨.completed hnext (hends.next w), hnone⟩
  | failed hconfiguration hfresh hreporting =>
    rw [List.append_assoc, ← List.map_append]
    exact .failed hconfiguration hfresh (hreporting.step (w := w) trivial).1
  | spent hbegun hspent =>
    obtain ⟨hnext, hnone⟩ := hspent.step p custom w
    exact hsilent ⟨.spent hbegun hnext, hnone⟩

/-- What has been told says how the attempt ends. -/
theorem ends (h : Told p custom m failures told a) :
    told <+: leads failures ∨
      (told = leads failures ++ [.processingCompleted] ∧
        ∃ left, EndsWithin p custom left a (.ok .completed)) ∨
      ∃ fault report, fault.isConfiguration = false ∧
        report ∈ failureStories ∧ told = leads failures ++ report ∧
        ∃ left, EndsWithin p custom left a (.error fault) := by
  cases h with
  | leading hleads => exact .inl ⟨_, hleads⟩
  | handing hleads => exact .inl ⟨_, hleads⟩
  | body => exact .inl (List.prefix_refl _)
  | completing => exact .inl (List.prefix_refl _)
  | completed _ hends => exact .inr (.inl ⟨rfl, _, hends⟩)
  | @failed _ fault abort begun left rs hconfiguration hfresh hreporting =>
    refine .inr (.inr ⟨fault, _, hconfiguration, ?_, rfl, left, hreporting.endsWithin⟩)
    obtain ⟨rs', packet', hemits⟩ := hreporting.exists_emits (i := default) trivial
    have hall := hemits.map_item_mem hfresh
    rw [List.map_append] at hall
    exact mem_failureStories_of_append hall
  | spent hbegun => exact .inl hbegun

theorem mem_stories (h : Told p custom m failures told a) : told ∈ stories failures := by
  unfold stories
  rcases h.ends with hbegun | ⟨rfl, -⟩ | ⟨_, report, -, hreport, rfl, -⟩
  · exact List.mem_append_left _ ((List.mem_inits ..).2 hbegun)
  · exact List.mem_append_right _ List.mem_cons_self
  · exact List.mem_append_right _ (List.mem_cons_of_mem _ (List.mem_map_of_mem hreport))

theorem reported (h : Told p custom m failures told a) (hmem : .processingCompleted ∈ told) :
    told = leads failures ++ [.processingCompleted] ∧
      ∃ left, EndsWithin p custom left a (.ok .completed) := by
  rcases h.ends with hbegun | hreported | ⟨_, report, -, hreport, rfl, -⟩
  · exact (completed_not_mem_leads failures (hbegun.subset hmem)).elim
  · exact hreported
  · have habsent : ∀ report ∈ failureStories, Item.processingCompleted ∉ report := by decide
    rcases List.mem_append.1 hmem with hlead | hlast
    · exact (completed_not_mem_leads failures hlead).elim
    · exact (habsent report hreport hlast).elim

theorem fails (h : Told p custom m failures told a) (hmem : .processingFailed ∈ told) :
    ∃ fault left, fault.isConfiguration = false ∧ EndsWithin p custom left a (.error fault) := by
  rcases h.ends with hbegun | ⟨rfl, -⟩ | ⟨fault, _, hconfiguration, -, -, left, hends⟩
  · exact (failed_not_mem_leads failures (hbegun.subset hmem)).elim
  · rcases List.mem_append.1 hmem with hlead | hlast
    · exact (failed_not_mem_leads failures hlead).elim
    · cases List.mem_singleton.1 hlast
  · exact ⟨fault, left, hconfiguration, hends⟩

end Told

/-! ## Stories -/

/-- The records that an attempt has handed over tell a story that fits the number of failures
before it, and the attempt ends as its story says. -/
structure Story (p : Processor 𝕊 β) (custom : Behaviour β (Act β) κ (Packet × World 𝕊 ε))
    (failures : Nat) (rs : List Record) (a : Attempt β κ) : Prop where
  word : rs.map Record.reason ∈ lifecycleWords.matches'
  retrying : .processingRetrying ∈ rs.map Record.item → 0 < failures
  starting : 0 < failures → .processingStarting ∈ rs.map Record.item →
    .processingRetrying ∈ rs.map Record.item
  exclusive : ¬ (.processingCompleted ∈ rs.map Record.item ∧
    .processingFailed ∈ rs.map Record.item)
  completed : .processingCompleted ∈ rs.map Record.item →
    ∃ left, EndsWithin p custom left a (.ok .completed)
  failed : .processingFailed ∈ rs.map Record.item →
    ∃ fault left, fault.isConfiguration = false ∧ EndsWithin p custom left a (.error fault)

/-- An attempt at the default chain of an operation, with a body that leaves the lifecycle
alone, tells a story, whatever the body does, whenever the attempt is cancelled, and however
the identity of the operator, the sink and the registry change in between. -/
theorem story_of_course {n : Nat} {rs : List Record} {y : Attempt β κ × World 𝕊 ε}
    (hoverride : m.override = none)
    (hbody : (m.body.getD (p.reconciler m.domain)).Forall Work.IsCustom)
    (hcustom : custom.IsDiscreet)
    (h : Course p custom (fun _ => True) ((prepare m).step p custom w) n rs y) :
    Story p custom ((w.registry p.registry).failureCount m.domain.uid) rs y.1 := by
  have htold : Told p custom m ((w.registry p.registry).failureCount m.domain.uid)
      (([] ++ rs).map Record.item) y.1 := by
    refine h.invariant (fun rs a => Told p custom m _ (rs.map Record.item) a) ?_ []
      (Told.begin p custom hoverride hbody w)
    intro rs a w ha _
    rw [List.map_append]
    exact ha.step hcustom w
  rw [List.nil_append] at htold
  obtain ⟨hword, hretrying, hstarting, hexclusive⟩ := stories_spec _ _ htold.mem_stories
  rw [List.map_map] at hword
  exact ⟨hword, hretrying, hstarting, hexclusive, fun hmem => (htold.reported hmem).2,
    htold.fails⟩

end Attempt

/-! ### A body that fails for good -/

namespace Collapse

inductive Act
  | collapse

instance : Named Act := ⟨fun _ => "collapse"⟩

/-- The action fails, and is not worth another attempt. -/
def behaviour : Behaviour Act (Reconcile.Act Act) Empty (Packet × World Rat Unit) where
  start _ s := (.done (.error (.step "collapse" "it has collapsed" false)), s)
  resume activity := nomatch activity

/-- A processor whose body is the action. -/
def processor : Processor Rat Act :=
  ⟨Handover.processor.policy, 5, 0, fun _ => .act (.custom .collapse)⟩

/-- A world in which an attempt has failed before. -/
def world : World Rat Unit := Handover.world.setRegistry 0 (Registry.empty.recordFailure "uid").2

theorem discreet : behaviour.IsDiscreet where
  start _ s := by
    refine ⟨.refl s, fun _ hinsert => ?_, fun _ hbranch => ?_⟩
    · cases hinsert
    · cases hbranch
  resume activity := nomatch activity

def begun : Attempt Act Empty × World Rat Unit :=
  (Attempt.prepare (.of (.named "uid" "ns"))).step processor behaviour world

/-- What it hands over, and where that leaves it. -/
def course : List Record × Attempt Act Empty × World Rat Unit :=
  Attempt.walk processor behaviour 12 begun

/-- The attempt reports the retry, the start, the failure, and that it is the last. -/
theorem story_course :
    course.1.map Record.item =
        [.processingRetrying, .processingStarting, .processingFailed, .processingAborted] ∧
      Attempt.Story processor behaviour 1 course.1 course.2.1 := by
  have hcourse : Attempt.Course processor behaviour (fun _ => True) begun 12 course.1 course.2 :=
    .of_walk 12 _ fun _ _ => trivial
  exact ⟨rfl, Attempt.story_of_course rfl (.act trivial) discreet hcourse⟩

end Collapse

end Reconcile
