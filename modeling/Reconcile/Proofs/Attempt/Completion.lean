import Reconcile.Proofs.Attempt.Story
import Reconcile.Proofs.Engine.Passage
import Reconcile.Proofs.Engine.Remainder

/-!
# Whether a completion is reported

The body of an operation runs in one chain with the reports, so a branch that is taken in the body
itself, and not in a chain that one of its actions inserts, replaces the report of the completion
along with the rest of the body (`Attempt.BranchesOff`).  Nothing else can keep an attempt that
completes from reporting it.

`Way` follows an attempt with a discreet body to its end: the report is still in front of it, or
has been handed over, or a branch has dropped it.  Which of these it is decides what an attempt has
told when it has completed (`Passage.completion`).
-/

namespace Reconcile

variable {𝕊 β κ ε : Type}

namespace Attempt

variable {custom : Behaviour β (Act β) κ (Packet × World 𝕊 ε)} {m : MakeRight β} {g : Guard}
  {packet : Packet} {run : Run (Act β) (Activity κ)} {w : World 𝕊 ε} {a : Attempt β κ}

/-! ## Chains that an action asks for -/

theorem not_asksFor_event (q : Request) (s : Packet × World 𝕊 ε) (c : Chain (Act β)) :
    ¬ AsksFor ((Work.behaviour custom).start (.work (.event q)) s).1.answer? c := by
  obtain ⟨packet, w⟩ := s
  simp only [Work.behaviour]
  split <;> simp [AsksFor, Progress.answer?]

/-- A chain that is asked for in a discreet body is discreet as well. -/
theorem isCustom_of_asksFor {host : Host 𝕊 (Packet × World 𝕊 ε)} (hcustom : custom.IsDiscreet)
    (hrun : run.IsInBody) {s : Packet × World 𝕊 ε} {c : Chain (Act β)}
    (hasks : AsksFor (run.answer? host (Work.behaviour custom) s) c) :
    ∀ n ∈ c.nodes, n.Forall Work.IsCustom := by
  have hdiscreet : ∀ {x : Progress (Act β) (Activity κ) × Packet × World 𝕊 ε}, IsDiscreet s x →
      AsksFor x.1.answer? c → ∀ n ∈ c.nodes, n.Forall Work.IsCustom := by
    rintro ⟨_ | result, s'⟩ hx hasks
    · simp [AsksFor, Progress.answer?] at hasks
    · rcases hasks with hinsert | hbranch
      · exact hx.insert c (congrArg Progress.done (Option.some.inj hinsert))
      · exact hx.branch c (congrArg Progress.done (Option.some.inj hbranch))
  have hnone : ¬ AsksFor (none : Option (Except Fault (Directive (Act β)))) c := by
    simp [AsksFor]
  obtain ⟨retries, pending, phase, journal⟩ := run
  obtain ⟨-, hphase⟩ := hrun
  cases phase with
  | ready rest =>
    cases rest with
    | nil => exact (hnone hasks).elim
    | cons node more =>
      simp only [Run.answer?] at hasks
      split at hasks
      · exact (hnone hasks).elim
      · cases haction : node.action with
        | none =>
          rw [haction] at hasks
          exact (hnone hasks).elim
        | some action =>
          rw [haction] at hasks
          rcases FitsBody.next hphase with ⟨hnode, -⟩ | ⟨rfl, -⟩
          · exact hdiscreet (Work.start_discreet hcustom (hnode action haction) s).1 hasks
          · cases haction
            exact (not_asksFor_event _ s c hasks).elim
  | acting node more activity =>
    cases activity with
    | handing record => exact hphase.elim
    | custom k => exact hdiscreet (Work.embed_discreet (hcustom.resume k s)).1 hasks
  | waiting | ended | crashed => exact (hnone hasks).elim

theorem IsSpent.not_asksFor {host : Host 𝕊 (Packet × World 𝕊 ε)}
    (h : IsSpent (⟨m, .running g packet run⟩ : Attempt β κ)) {s : Packet × World 𝕊 ε}
    (c : Chain (Act β)) : ¬ AsksFor (run.answer? host (Work.behaviour custom) s) c := by
  cases h with
  | finishing _ hphase | finished hphase | misconfigured hphase =>
    simp [Run.answer?, hphase, AsksFor]

theorem completing_not_mem {ns : List (Node (Act β))} (h : ∀ n ∈ ns, n.Forall Work.IsCustom) :
    .completing ∉ ns :=
  fun hmem => h _ hmem _ rfl

/-! ## Branches in the chain of the operation -/

variable {p : Processor 𝕊 β}

/-- With its next step an attempt takes a branch in the chain of its operation itself. -/
def BranchesOff (p : Processor 𝕊 β) (custom : Behaviour β (Act β) κ (Packet × World 𝕊 ε))
    (a : Attempt β κ) (w : World 𝕊 ε) : Prop :=
  ∃ g packet run c, a.stage = .running g packet run ∧ run.pending = [] ∧
    run.answer? (p.host g) (Work.behaviour custom) (packet, w) = some (.ok (.branch c))

theorem not_branchesOff
    (h : ∀ c, ¬ AsksFor (run.answer? (p.host g) (Work.behaviour custom) (packet, w)) c) :
    ¬ BranchesOff p custom ⟨m, .running g packet run⟩ w := by
  rintro ⟨_, _, _, c, hstage, -, hanswer⟩
  cases hstage
  exact h c (.inr hanswer)

theorem IsSpent.not_branchesOff (h : a.IsSpent) : ¬ a.BranchesOff p custom w := by
  rintro ⟨g, packet, run, c, hstage, -, hanswer⟩
  obtain ⟨m, stage⟩ := a
  obtain rfl : stage = .running g packet run := hstage
  exact h.not_asksFor c (.inr hanswer)

/-! ## Attempts that do not complete -/

/-- An attempt that is not going to complete any more. -/
inductive IsLost : Attempt β κ → Prop
  | crashing {m : MakeRight β} {g : Guard} {packet : Packet} {run : Run (Act β) (Activity κ)} :
      run.phase = .crashed → IsLost ⟨m, .running g packet run⟩
  | ending {m : MakeRight β} {g : Guard} {packet : Packet} {run : Run (Act β) (Activity κ)}
      {result : Except Fault Outcome} : run.phase = .ended result → result ≠ .ok .completed →
      IsLost ⟨m, .running g packet run⟩
  | reporting {m : MakeRight β} {g : Guard} {packet : Packet} {fault : Fault}
      {run : Run (Act β) (Activity κ)} : IsLost ⟨m, .reporting g packet fault run⟩
  | ended {m : MakeRight β} {packet : Packet} {result : Except Fault Outcome} :
      result ≠ .ok .completed → IsLost ⟨m, .ended packet result⟩
  | crashed {m : MakeRight β} : IsLost ⟨m, .crashed⟩

theorem IsLost.result?_ne (h : a.IsLost) : a.result? ≠ some (.ok .completed) := by
  cases h with
  | ended hresult => simpa [result?] using hresult
  | crashing | ending | reporting | crashed => simp [result?]

/-! ## The way to the end -/

/-- Where an attempt with a discreet body may stand after it has told something, and whether a
branch has dropped the report of the completion by then. -/
inductive Way (m : MakeRight β) (failures : Nat) (told : List Item) (dropped : Prop) :
    Attempt β κ → Prop
  /-- The report is in front of the attempt. -/
  | ahead {g : Guard} {packet : Packet} {run : Run (Act β) (Activity κ)} :
      ¬ dropped → Run.LeadsTo .completing run.levels →
      (run.levels = [[.completing]] → run.phase = .ready [.completing]) →
      Way m failures told dropped ⟨m, .running g packet run⟩
  /-- The report is about to be handed over. -/
  | handing {g : Guard} {packet : Packet} {run : Run (Act β) (Activity κ)}
      {node : Node (Act β)} {record : Record} : ¬ dropped → run.pending = [] →
      run.phase = .acting node [] (.handing record) → record.item = .processingCompleted →
      Way m failures told dropped ⟨m, .running g packet run⟩
  | reported {a : Attempt β κ} : ¬ dropped → .processingCompleted ∈ told → a.IsSpent →
      Way m failures told dropped a
  /-- The report has been dropped, and the body goes on. -/
  | astray {g : Guard} {packet : Packet} {run : Run (Act β) (Activity κ)} :
      dropped → told = leads failures → run.IsInBody → .completing ∉ run.levels.flatten →
      Way m failures told dropped ⟨m, .running g packet run⟩
  | unreported {packet : Packet} : dropped → told = leads failures →
      Way m failures told dropped ⟨m, .ended packet (.ok .completed)⟩
  | lost {a : Attempt β κ} : a.IsLost → Way m failures told dropped a

variable [Retry.Seconds 𝕊] [Named β]

theorem IsLost.step (h : a.IsLost) (w : World 𝕊 ε) : (a.step p custom w).1.IsLost := by
  cases h with
  | crashing hphase =>
    simp only [Attempt.step, hphase]
    exact .crashed
  | @ending m g packet run result hphase hresult =>
    cases result with
    | error fault =>
      cases hconfiguration : fault.isConfiguration with
      | true =>
        rw [step_configuration hphase hconfiguration]
        exact .ended hresult
      | false =>
        rw [step_failed hphase hconfiguration]
        exact .reporting
    | ok outcome =>
      rw [(step_finished p custom m g packet w hphase).1]
      exact .ended hresult
  | @reporting m g packet fault run =>
    simp only [Attempt.step]
    split
    · exact .ended (by simp)
    · exact .crashed
    · exact .reporting
  | ended hresult => exact .ended hresult
  | crashed => exact .crashed

namespace Told

variable {failures : Nat} {told : List Item}

/-- Only the actions of the body ask for chains. -/
theorem body_of_asksFor (h : Told p custom m failures told ⟨m, .running g packet run⟩)
    {c : Chain (Act β)}
    (hasks : AsksFor (run.answer? (p.host g) (Work.behaviour custom) (packet, w)) c) :
    told = leads failures ∧ run.IsInBody := by
  have hhanding : ∀ {node more record}, run.phase = .acting node more (.handing record) →
      False := by
    intro node more record hphase
    simp [Run.answer?, hphase, Work.behaviour, AsksFor, Progress.answer?] at hasks
  cases h with
  | @leading _ rest item _ _ _ body _ _ hphase =>
    simp only [Run.answer?, hphase] at hasks
    split at hasks
    · simp [AsksFor] at hasks
    · exact (not_asksFor_event _ _ c hasks).elim
  | handing _ _ hphase => exact (hhanding hphase).elim
  | body hrun => exact ⟨rfl, hrun⟩
  | completing _ hphase => exact (hhanding hphase).elim
  | completed hspent | spent _ hspent => exact (hspent.not_asksFor c hasks).elim
  | failed _ _ hreporting => cases hreporting

/-- In front of the report of the completion the markers are those of the start. -/
theorem tracks_of_completing (h : Told p custom m failures told ⟨m, .running g packet run⟩)
    (hphase : run.phase = .ready [.completing]) :
    Markers.Tracks ((leads failures).map .of) packet.markers := by
  have hspent : ¬ IsSpent (⟨m, .running g packet run⟩ : Attempt β κ) := by
    intro hspent
    cases hspent <;> simp_all
  cases h with
  | @leading _ rest item _ _ _ body hleads _ hlead =>
    have hitem : item = .processingCompleted := by
      rw [hphase] at hlead
      injection hlead with hlead
      injection hlead with hnode
      injection hnode with haction
      cases haction
      rfl
    have hmem : item ∈ leads failures := hleads ▸ List.mem_append_right _ List.mem_cons_self
    exact (completed_not_mem_leads failures (hitem ▸ hmem)).elim
  | handing _ _ hacting => cases hphase.symm.trans hacting
  | body _ htracks => exact htracks
  | completing _ hacting => cases hphase.symm.trans hacting
  | completed hends | spent _ hends => exact (hspent hends).elim
  | failed _ _ hreporting => cases hreporting

end Told

namespace Way

variable {failures : Nat} {told : List Item} {dropped : Prop}

theorem step_completing (hdropped : ¬ dropped) (hpending : run.pending = [])
    (hphase : run.phase = .ready [.completing])
    (htracks : Markers.Tracks ((leads failures).map .of) packet.markers) (told : List Item) :
    Way m failures told dropped (step p custom ⟨m, .running g packet run⟩ w).1 := by
  have hopen := Phase.not_isFinal_of_ready hphase
  cases hstopped : Run.isStopped (p.host g) (Node.completing (β := β)) (packet, w) with
  | true =>
    rw [step_running hopen (Run.step_stopped hphase hstopped)]
    exact .lost (.ending rfl nofun)
  | false =>
    have hannounced := Run.step_emitting p.policy custom hphase hstopped
    generalize hstep : run.step (p.host g) p.policy (Work.behaviour custom) (packet, w) = after
      at hannounced
    cases hannounced with
    | fault hprepare hended =>
      rw [step_running hopen hstep]
      exact .lost (.ending hended nofun)
    | suppressed hprepare =>
      -- The start has been reported and the completion has not, so no rule declines it.
      have hadmissible :
          (Request.of .processingCompleted).Admissible ((leads failures).map .of) := by
        unfold leads
        split <;> simp [Request.Admissible, Request.of]
      obtain ⟨record, hrecord⟩ := (Request.decision_of_prepare hprepare).2
        ((htracks.decision_iff _).2 hadmissible)
      cases hrecord
    | record hprepare hacting hkept =>
      rw [step_running hopen hstep]
      exact .handing hdropped (hkept.trans hpending) hacting (Request.item_of_prepare hprepare)

theorem step_ahead (hcustom : custom.IsDiscreet)
    (htold : Told p custom m failures told ⟨m, .running g packet run⟩)
    (hdropped : ¬ dropped) (hleads : Run.LeadsTo .completing run.levels)
    (hnext : run.levels = [[.completing]] → run.phase = .ready [.completing]) :
    Way m failures
      (told ++ (w.handedSince (step p custom ⟨m, .running g packet run⟩ w).2).map Record.item)
      (dropped ∨ BranchesOff p custom ⟨m, .running g packet run⟩ w)
      (step p custom ⟨m, .running g packet run⟩ w).1 := by
  by_cases hlast : run.levels = [[.completing]]
  case pos =>
    have hphase := hnext hlast
    have hpending : run.pending = [] := by
      rw [Run.levels, hphase] at hlast
      exact (List.cons.inj hlast).2
    have hstays : ¬ (dropped ∨ BranchesOff p custom ⟨m, .running g packet run⟩ w) := by
      refine not_or.2 ⟨hdropped, not_branchesOff fun c => ?_⟩
      simp only [Run.answer?, hphase]
      split
      · simp [AsksFor]
      · exact not_asksFor_event _ _ c
    exact step_completing hstays hpending hphase (htold.tracks_of_completing hphase) _
  case neg =>
    have hopen := hleads.not_isFinal
    by_cases hoff : BranchesOff p custom ⟨m, .running g packet run⟩ w
    case pos =>
      obtain ⟨_, _, _, c, hstage, hpending, hanswer⟩ := id hoff
      cases hstage
      obtain ⟨htold', hbody⟩ := htold.body_of_asksFor (.inr hanswer)
      have hfresh := completing_not_mem (isCustom_of_asksFor hcustom hbody (.inr hanswer))
      have hdrops : .completing ∉
          (run.step (p.host g) p.policy (Work.behaviour custom) (packet, w)).1.levels.flatten := by
        obtain ⟨begun, node, more, s', hkept, hstep⟩ := Run.step_of_answer p.policy hanswer
        rw [hstep]
        show .completing ∉ (c.nodes :: begun.pending).flatten
        simpa [hkept, hpending] using hfresh
      rcases hbody.step p g p.policy hcustom (packet, w) with ⟨hstays, hquiet⟩ | ⟨hphase, -, -⟩
      · generalize hstep : run.step (p.host g) p.policy (Work.behaviour custom) (packet, w) = after
          at hdrops hstays hquiet
        rw [step_running hopen hstep, World.handedSince_of_eq hquiet.handed, List.map_nil,
          List.append_nil]
        exact .astray (.inr hoff) htold' hstays hdrops
      · exact (hlast (by rw [Run.levels, hphase, hpending])).elim
    case neg =>
      have hstays : ¬ (dropped ∨ BranchesOff p custom ⟨m, .running g packet run⟩ w) :=
        not_or.2 ⟨hdropped, hoff⟩
      have hchain : ∀ c, AsksFor (run.answer? (p.host g) (Work.behaviour custom) (packet, w)) c →
          .completing ∉ c.nodes := fun c hasks =>
        completing_not_mem (isCustom_of_asksFor hcustom (htold.body_of_asksFor hasks).2 hasks)
      have hbranch : run.pending = [] → ∀ c,
          run.answer? (p.host g) (Work.behaviour custom) (packet, w) ≠ some (.ok (.branch c)) :=
        fun hpending c hanswer => hoff ⟨g, packet, run, c, rfl, hpending, hanswer⟩
      rw [step_running hopen rfl]
      rcases hleads.shift (Run.step_shift p.policy hopen) rfl hlast hchain hbranch with
        hcrashed | ⟨result, hended, hresult⟩ | ⟨hleads', hnext'⟩
      · exact .lost (.crashing hcrashed)
      · exact .lost (.ending hended hresult)
      · exact .ahead hstays hleads' hnext'

theorem step_astray (hcustom : custom.IsDiscreet) (hdropped : dropped)
    (htold : told = leads failures) (hbody : run.IsInBody)
    (habsent : .completing ∉ run.levels.flatten) :
    Way m failures
      (told ++ (w.handedSince (step p custom ⟨m, .running g packet run⟩ w).2).map Record.item)
      dropped (step p custom ⟨m, .running g packet run⟩ w).1 := by
  cases hphase : run.phase with
  | ended result =>
    by_cases hresult : result = .ok .completed
    · rw [hresult] at hphase
      obtain ⟨hended, houtbox⟩ := step_finished p custom m g packet w hphase
      rw [hended, World.handedSince_of_eq (by rw [houtbox]), List.map_nil, List.append_nil]
      exact .unreported hdropped htold
    · have hlost : IsLost (⟨m, .running g packet run⟩ : Attempt β κ) := .ending hphase hresult
      exact .lost (hlost.step w)
  | crashed =>
    have hlost : IsLost (⟨m, .running g packet run⟩ : Attempt β κ) := .crashing hphase
    exact .lost (hlost.step w)
  | ready | acting | waiting =>
    have hopen : ¬ run.phase.IsFinal := by simp [hphase, Phase.IsFinal]
    have hdropped' : .completing ∉
        (run.step (p.host g) p.policy (Work.behaviour custom) (packet, w)).1.levels.flatten := by
      refine (Run.step_shift p.policy hopen).not_mem habsent fun c hasks => ?_
      exact completing_not_mem (isCustom_of_asksFor hcustom hbody hasks)
    rcases hbody.step p g p.policy hcustom (packet, w) with ⟨hstays, hquiet⟩ | ⟨hready, -, -⟩
    · generalize hstep : run.step (p.host g) p.policy (Work.behaviour custom) (packet, w) = after
        at hdropped' hstays hquiet
      rw [step_running hopen hstep, World.handedSince_of_eq hquiet.handed, List.map_nil,
        List.append_nil]
      exact .astray hdropped htold hstays hdropped'
    · exact (habsent (by simp [Run.levels, hready])).elim

theorem begin (hoverride : m.override = none)
    (hbody : (m.body.getD (p.reconciler m.domain)).Forall Work.IsCustom) (hdropped : ¬ dropped)
    (w : World 𝕊 ε) : Way m failures told dropped ((prepare m).step p custom w).1 := by
  let count := ((w.registry p.registry).begin m.domain.uid w.nextAttempt).2.failureCount
    m.domain.uid
  let body : List (Node (Act β)) := (m.body.getD (p.reconciler m.domain)).build.nodes
  let outer := (leads count).map Node.lead ++ body.filter fun n => !n.isTerminal
  have hnodes : (m.plan p.reconciler count).build.nodes = outer ++ [.completing] := by
    rw [m.nodes_plan hoverride, Chain.splice_concat, List.append_assoc]
  have hfresh : .completing ∉ outer := by
    intro hmem
    rcases List.mem_append.1 hmem with hlead | hmem
    · obtain ⟨item, hitem, hnode⟩ := List.mem_map.1 hlead
      cases hnode
      exact completed_not_mem_leads count hitem
    · exact completing_not_mem hbody.build (List.mem_filter.1 hmem).1
  have hterminal : ∀ n ∈ outer, n.isTerminal = false := by
    intro n hn
    rcases List.mem_append.1 hn with hlead | hn
    · obtain ⟨item, -, rfl⟩ := List.mem_map.1 hlead
      rfl
    · simpa using (List.mem_filter.1 hn).2
  refine .ahead hdropped ?_ fun hone => ?_
  · show Run.LeadsTo .completing [(m.plan p.reconciler count).build.nodes]
    rw [hnodes]
    exact .outermost hfresh hterminal
  · exact congrArg Phase.ready (List.cons.inj hone).1

/-- Every step of an attempt keeps to the way. -/
theorem step (h : Way m failures told dropped a) (hcustom : custom.IsDiscreet)
    (htold : Told p custom m failures told a) (w : World 𝕊 ε) :
    Way m failures (told ++ (w.handedSince (a.step p custom w).2).map Record.item)
      (dropped ∨ a.BranchesOff p custom w) (a.step p custom w).1 := by
  cases h with
  | ahead hdropped hleads hnext => exact step_ahead hcustom htold hdropped hleads hnext
  | @handing g packet run node record hdropped hpending hphase hitem =>
    have hstays : ¬ (dropped ∨ BranchesOff p custom ⟨m, .running g packet run⟩ w) := by
      refine not_or.2 ⟨hdropped, not_branchesOff fun c => ?_⟩
      simp [Run.answer?, hphase, Work.behaviour, AsksFor, Progress.answer?]
    rw [step_running (Phase.not_isFinal_of_acting hphase) (Run.step_handing hphase),
      World.handedSince_of_append (w.handed_deliver record), List.map_singleton, hitem]
    exact .reported hstays (by simp) (.finishing hpending rfl)
  | reported hdropped hreported hspent =>
    have hstays : ¬ (dropped ∨ a.BranchesOff p custom w) :=
      not_or.2 ⟨hdropped, hspent.not_branchesOff⟩
    exact .reported hstays (List.mem_append_left _ hreported) (hspent.step p custom w).1
  | astray hdropped hleads hbody habsent =>
    exact step_astray hcustom (.inl hdropped) hleads hbody habsent
  | @unreported packet hdropped hleads =>
    rw [show Attempt.step p custom _ w = (_, w) from rfl, World.handedSince_of_eq rfl,
      List.map_nil, List.append_nil]
    exact .unreported (.inl hdropped) hleads
  | lost hlost => exact .lost (hlost.step w)

end Way

end Attempt

/-! ## Whole attempts -/

namespace Passage

variable [Retry.Seconds 𝕊] [Named β]
variable {p : Processor 𝕊 β} {custom : Behaviour β (Act β) κ (Packet × World 𝕊 ε)}
  {m : MakeRight β} {x : Passage (Attempt.step p custom)} {n : Nat}

/-- The records that an attempt hands over in its first steps. -/
def records (x : Passage (Attempt.step p custom)) (n : Nat) : List Record :=
  (List.range n).flatMap fun k => (x.found k).handedSince (x.left k)

theorem records_succ (x : Passage (Attempt.step p custom)) (n : Nat) :
    x.records (n + 1) = x.records n ++ (x.found n).handedSince (x.left n) := by
  simp [records, List.range_succ]

/-- Whether an attempt has taken a branch in the chain of its operation itself. -/
def HasBranched (x : Passage (Attempt.step p custom)) (n : Nat) : Prop :=
  ∃ k < n, (x.state k).BranchesOff p custom (x.found k)

theorem hasBranched_succ (x : Passage (Attempt.step p custom)) (n : Nat) :
    x.HasBranched (n + 1) = (x.HasBranched n ∨ (x.state n).BranchesOff p custom (x.found n)) :=
  propext Nat.exists_lt_succ_right

/-- After its first step an attempt is on its way, and has told what belongs to that. -/
theorem told_way (hfirst : x.first = .prepare m) (hoverride : m.override = none)
    (hbody : (m.body.getD (p.reconciler m.domain)).Forall Work.IsCustom)
    (hcustom : custom.IsDiscreet) {failures : Nat}
    (hfailures : ((x.found 0).registry p.registry).failureCount m.domain.uid = failures) (n : Nat) :
    Attempt.Told p custom m failures ((x.records (n + 1)).map Record.item) (x.state (n + 1)) ∧
      Attempt.Way m failures ((x.records (n + 1)).map Record.item) (x.HasBranched (n + 1))
        (x.state (n + 1)) := by
  induction n with
  | zero =>
    obtain ⟨first, found⟩ := x
    obtain rfl : first = .prepare m := hfirst
    let x : Passage (Attempt.step p custom) := ⟨.prepare m, found⟩
    have hsilent : x.records 1 = [] := by
      have hhanded : (x.left 0).outbox.handed = (x.found 0).outbox.handed := rfl
      rw [records_succ, World.handedSince_of_eq hhanded]
      rfl
    have hstraight : ¬ x.HasBranched 1 := by
      rintro ⟨k, hk, g, packet, run, c, hstage, -⟩
      obtain rfl : k = 0 := Nat.lt_one_iff.1 hk
      cases hstage
    rw [hsilent, ← hfailures]
    exact ⟨Attempt.Told.begin p custom hoverride hbody (found 0),
      Attempt.Way.begin hoverride hbody hstraight (found 0)⟩
  | succ n ih =>
    obtain ⟨htold, hway⟩ := ih
    rw [records_succ, hasBranched_succ, List.map_append]
    exact ⟨htold.step hcustom _, hway.step hcustom htold _⟩

/-- An attempt that completes has reported what it begins with, and then the completion, once.
Only if it has taken a branch in the chain of its operation itself, it completes without saying
so. -/
theorem completion (hfirst : x.first = .prepare m) (hoverride : m.override = none)
    (hbody : (m.body.getD (p.reconciler m.domain)).Forall Work.IsCustom)
    (hcustom : custom.IsDiscreet) (hcompleted : (x.state n).result? = some (.ok .completed)) :
    (¬ x.HasBranched n ∧ (x.records n).map Record.item =
        leads (((x.found 0).registry p.registry).failureCount m.domain.uid) ++
          [.processingCompleted]) ∨
      x.HasBranched n ∧ (x.records n).map Record.item =
        leads (((x.found 0).registry p.registry).failureCount m.domain.uid) := by
  cases n with
  | zero =>
    have hunbegun : (x.state 0).result? = none := by
      show x.first.result? = none
      rw [hfirst]
      rfl
    cases hunbegun.symm.trans hcompleted
  | succ n =>
    obtain ⟨htold, hway⟩ := x.told_way hfirst hoverride hbody hcustom rfl n
    generalize x.state (n + 1) = a at htold hway hcompleted
    cases hway with
    | ahead | handing | astray => cases hcompleted
    | reported hstraight hmem _ => exact .inl ⟨hstraight, (htold.reported hmem).1⟩
    | unreported hdropped hleads => exact .inr ⟨hdropped, hleads⟩
    | lost hlost => exact (hlost.result?_ne hcompleted).elim

end Passage

/-! ### A body that branches -/

/-- Actions of bodies that go elsewhere, for good or for a while. -/
inductive Detour
  | branch
  | insert
  | elsewhere

namespace Detour

instance : Named Detour where
  name
    | branch => "branch"
    | insert => "insert"
    | elsewhere => "elsewhere"

def behaviour : Behaviour Detour (Act Detour) Empty (Packet × World Rat Unit) where
  start
    | branch, s => (.done (.ok (.branch (.single (.work (.custom elsewhere))))), s)
    | insert, s => (.done (.ok (.insert (.single (.work (.custom elsewhere))))), s)
    | elsewhere, s => (.done (.ok .proceed), s)
  resume activity := nomatch activity

theorem discreet : behaviour.IsDiscreet where
  start action s := by
    have helsewhere : ∀ n ∈ (Chain.single (.work (.custom elsewhere)) : Chain (Act Detour)).nodes,
        n.Forall Work.IsCustom := by
      intro n hn action haction
      obtain rfl := List.mem_singleton.1 hn
      cases haction
      trivial
    cases action with
    | branch =>
      refine ⟨.refl s, fun c hinsert => ?_, fun c hbranch => ?_⟩
      · cases hinsert
      · cases hbranch
        exact helsewhere
    | insert =>
      refine ⟨.refl s, fun c hinsert => ?_, fun c hbranch => ?_⟩
      · cases hinsert
        exact helsewhere
      · cases hbranch
    | elsewhere =>
      refine ⟨.refl s, fun c hinsert => ?_, fun c hbranch => ?_⟩
      · cases hinsert
      · cases hbranch
  resume activity := nomatch activity

/-- A processor whose reconciler does nothing. -/
def processor : Processor Rat Detour := ⟨Handover.processor.policy, 5, 0, fun _ => .chain []⟩

/-- The attempt with a body of one action, which nobody disturbs. -/
def passage (action : Detour) : Passage (Attempt.step processor behaviour) :=
  .among _ (.prepare ⟨.named "uid" "ns", none, some (.act (.custom action))⟩) Handover.world
    fun _ => id

theorem body_custom (action : Detour) :
    (Plan.act (.custom action) : Steps Detour).Forall Work.IsCustom := .act trivial

/-- An attempt whose body inserts a chain completes and says so.  If the body branches to the same
chain, the attempt completes as well, and a branch is what it has taken. -/
theorem insert_reported :
    ((passage insert).state 12).result? = some (.ok .completed) ∧
      ((passage insert).records 12).map Record.item = [.processingStarting, .processingCompleted] ∧
      ¬ (passage insert).HasBranched 12 ∧ (passage branch).HasBranched 12 := by
  have hinsert : ((passage insert).state 12).result? = some (.ok .completed) := rfl
  have hbranch : ((passage branch).state 12).result? = some (.ok .completed) := rfl
  refine ⟨hinsert, rfl, ?_, ?_⟩
  · rcases Passage.completion rfl rfl (body_custom insert) discreet hinsert with
      ⟨hstraight, -⟩ | ⟨-, hitems⟩
    · exact hstraight
    · cases hitems
  · rcases Passage.completion rfl rfl (body_custom branch) discreet hbranch with
      ⟨-, hitems⟩ | ⟨hbranched, -⟩
    · cases hitems
    · exact hbranched

/-- An attempt with a discreet body completes and reports nothing but the start. -/
theorem branch_unreported :
    behaviour.IsDiscreet ∧ (Plan.act (.custom branch) : Steps Detour).Forall Work.IsCustom ∧
      ((passage branch).state 12).result? = some (.ok .completed) ∧
      ((passage branch).records 12).map Record.item = [.processingStarting] :=
  ⟨discreet, body_custom branch, rfl, rfl⟩

end Detour

end Reconcile
