import Reconcile.Proofs.Engine.Framing
import Reconcile.Proofs.Step.Terminals

/-!
# Runs of concatenated chains

A chain that is followed by another is run as if it were alone, and the other is run when it has
completed (`Run.drive_andThen`).  The two runs, of the concatenation and of the first chain alone,
keep abreast (`Run.Abreast`): they are at the same step, and differ only in what is behind the
first chain.  They part when the first chain is over or when a step of the chain itself branches
off.  After a branch they are the same, since a branch drops whatever is behind it.  An inserted
chain may branch as it likes, since that drops nothing but its own remainder.

When the second chain is reached, the run is like one that starts there, with a full budget of
retries; only its journal tells what has been done before.
-/

namespace Reconcile

variable {𝕊 α κ σ : Type}

namespace Run

/-- The next step of a run is one of the outermost chain, and its action answers with a branch. -/
def BranchesOff (host : Host 𝕊 σ) (behaviour : Behaviour α α κ σ) (r : Run α κ) (s : σ) : Prop :=
  r.pending = [] ∧ ∃ c, r.answer? host behaviour s = some (.ok (.branch c))

theorem branchesOff_slept {host : Host 𝕊 σ} {behaviour : Behaviour α α κ σ}
    (sleep : Nat → σ → σ) (r : Run α κ) (s : σ) :
    r.BranchesOff host behaviour (r.phase.slept sleep s) ↔ r.BranchesOff host behaviour s := by
  rw [BranchesOff, BranchesOff, answer?_slept]

/-! ## Two runs at the same step -/

/-- Two runs at the same step of a chain or of one that was inserted into it.  What remains of the
chain consists of working steps, and is followed by `u` in the one run and by `t` in the other. -/
inductive Abreast (t u : List (Node α)) (x y : Run α κ) : Prop
  /-- At a step of the chain itself. -/
  | own {r : Run α κ} {node : Node α} {more : List (Node α)} : r.pending = [] →
      r.phase.At node more → (∀ n ∈ node :: more, n.isTerminal = false) →
      x = r.onto u → y = r.onto t → Abreast t u x y
  /-- In an inserted chain. -/
  | inner {r : Run α κ} {rest : List (Node α)} : ¬ r.phase.IsFinal →
      (∀ n ∈ rest, n.isTerminal = false) → x = r.amid [rest ++ u] [] →
      y = r.amid (kept (rest ++ t) []) [] → Abreast t u x y

/-- Two runs have ended in the same way, in front of the end of their chains. -/
structure Concluded (x y : Run α κ) : Prop where
  journal : x.journal = y.journal
  phase : x.phase = y.phase
  final : x.phase.IsFinal
  early : x.phase ≠ .ended (.ok .completed)

/-- The one run has come to `u`, with a full budget.  The other has come to `t`, or to its end. -/
structure Arrived (t u : List (Node α)) (x y : Run α κ) : Prop where
  front : x = ⟨0, [], .ready u, x.journal⟩
  journal : x.journal = y.journal
  through : y.pending = [] ∧ y.phase = .ready t ∨ y.phase = .ended (.ok .completed)

/-- What becomes of two runs abreast with a step, given whether the step branches off. -/
inductive Next (t u : List (Node α)) (branches : Prop) (x y : Run α κ × σ) : Prop
  | abreast : x.2 = y.2 → Abreast t u x.1 y.1 → Next t u branches x y
  | concluded : x.2 = y.2 → Concluded x.1 y.1 → Next t u branches x y
  | arrived : x.2 = y.2 → Arrived t u x.1 y.1 → Next t u branches x y
  | branched : branches → x = y → Next t u branches x y

variable {host : Host 𝕊 σ} {policy : Retry.Policy 𝕊} {behaviour : Behaviour α α κ σ}
  {t u : List (Node α)} {r x y begun : Run α κ} {node : Node α} {more rest : List (Node α)}
  {s : σ}

namespace Abreast

theorem journal_eq (h : Abreast t u x y) : x.journal = y.journal := by
  cases h with
  | own _ _ _ hx hy => rw [hx, hy]; rfl
  | inner _ _ hx hy => rw [hx, hy]; rfl

theorem not_isFinal (h : Abreast t u x y) : ¬ x.phase.IsFinal ∧ ¬ y.phase.IsFinal := by
  cases h with
  | @own r node more _ hat _ hx hy =>
    have honto : ∀ tail, ¬ (r.onto tail).phase.IsFinal := by
      intro tail
      rw [onto]
      generalize r.phase = phase at hat
      cases hat <;> exact id
    rw [hx, hy]
    exact ⟨honto u, honto t⟩
  | inner hopen _ hx hy =>
    rw [hx, hy]
    exact ⟨hopen, hopen⟩

theorem slept_eq (h : Abreast t u x y) (sleep : Nat → σ → σ) (s : σ) :
    x.phase.slept sleep s = y.phase.slept sleep s := by
  cases h with
  | own _ _ _ hx hy =>
    rw [hx, hy]
    exact (Phase.slept_onto sleep u _ s).trans (Phase.slept_onto sleep t _ s).symm
  | inner _ _ hx hy => rw [hx, hy]; rfl

/-- A run that is abreast has not come to `u` yet. -/
theorem levels_ne (h : Abreast t u x y) : x.levels ≠ [u] := by
  cases h with
  | @own r node more _ hat _ hx _ =>
    intro hlevels
    have hlevel : node :: more ++ u = u := by
      rw [hx, levels, onto] at hlevels
      generalize r.phase = phase at hat hlevels
      cases hat <;> exact (List.cons.inj hlevels).1
    have hlength := congrArg List.length hlevel
    simp at hlength
    omega
  | @inner r rest hopen _ hx _ =>
    intro hlevels
    have hlength := congrArg List.length hlevels
    rw [hx, levels, amid] at hlength
    cases hphase : r.phase with
    | ready | acting | waiting => simp [hphase] at hlength
    | ended | crashed =>
      rw [hphase] at hopen
      exact hopen trivial

end Abreast

theorem kept_of_ne_nil (hmore : more ≠ []) (pending : List (List (Node α))) :
    kept more pending = more :: pending := by
  cases more with
  | nil => exact (hmore rfl).elim
  | cons => rfl

/-- The concatenation of two chains, and the first of them alone, are run abreast at first. -/
theorem begin_abreast {a b : Chain α} (ha : a.IsProper) (hb : b.IsProper) :
    ∃ t, (t = [] ∨ ∃ n, t = [n] ∧ n.action = none) ∧
      (Abreast t b.nodes (start (a.append b) : Run α κ) (start a) ∨
        Arrived t b.nodes (start (a.append b) : Run α κ) (start a)) := by
  obtain ⟨t, hnodes, ht⟩ := ha.nodes_eq
  refine ⟨t, ht, ?_⟩
  have hboth : (start (a.append b) : Run α κ) = ⟨0, [], .ready (a.working ++ b.nodes), []⟩ := by
    rw [start, Chain.nodes_append a hb]
  have halone : (start a : Run α κ) = ⟨0, [], .ready (a.working ++ t), []⟩ := by
    rw [start, ← hnodes]
  rw [hboth, halone]
  cases hworking : a.working with
  | nil => exact .inr ⟨rfl, rfl, .inl ⟨rfl, rfl⟩⟩
  | cons node more =>
    have hfront : ∀ n ∈ node :: more, n.isTerminal = false := fun n hn =>
      Chain.isTerminal_of_mem_working (hworking ▸ hn)
    let ready : Run α κ := ⟨0, [], .ready (node :: more), []⟩
    have hat : ready.phase.At node more := .ready
    exact .inl (.own rfl hat hfront rfl rfl)

/-- Two runs have done the same so far, in the same surroundings, and with the same result. -/
structure SameCourse (x y : Run α κ × σ) : Prop where
  journal : x.1.journal = y.1.journal
  surroundings : x.2 = y.2
  result : x.1.result? = y.1.result?
  crashed : x.1.phase = .crashed ↔ y.1.phase = .crashed

theorem SameCourse.refl (x : Run α κ × σ) : SameCourse x x := ⟨rfl, rfl, rfl, .rfl⟩

theorem result?_of_open (h : ¬ r.phase.IsFinal) : r.result? = none ∧ r.phase ≠ .crashed := by
  unfold result?
  cases hphase : r.phase with
  | ready | acting | waiting => exact ⟨rfl, nofun⟩
  | ended | crashed =>
    rw [hphase] at h
    exact (h trivial).elim

theorem Abreast.sameCourse {v w : Run α κ × σ} (h : Abreast t u v.1 w.1) (hsame : v.2 = w.2) :
    SameCourse v w := by
  obtain ⟨hv, hw⟩ := h.not_isFinal
  obtain ⟨hvresult, hvcrashed⟩ := result?_of_open hv
  obtain ⟨hwresult, hwcrashed⟩ := result?_of_open hw
  exact ⟨h.journal_eq, hsame, hvresult.trans hwresult.symm,
    ⟨fun h => (hvcrashed h).elim, fun h => (hwcrashed h).elim⟩⟩

theorem Concluded.sameCourse {v w : Run α κ × σ} (h : Concluded v.1 w.1) (hsame : v.2 = w.2) :
    SameCourse v w := by
  refine ⟨h.journal, hsame, ?_, by rw [h.phase]⟩
  rw [result?, result?, h.phase]

variable (behaviour) in
/-- At a step with an action a run starts or resumes the action, or it waits for its retry. -/
theorem acts_or_waits (hfree : ∀ s, host.isCancelled s = false) (hat : r.phase.At node more)
    (hworks : node.isTerminal = false) (s : σ) :
    (∃ begun x, Acts host behaviour r s node more begun x) ∨
      ∃ deadline, r.phase = .waiting node more deadline := by
  generalize hphase : r.phase = phase at hat
  cases hat with
  | ready =>
    obtain ⟨action, haction⟩ : ∃ action, node.action = some action := by
      rw [Node.isTerminal, Option.isNone_eq_false_iff] at hworks
      exact Option.isSome_iff_exists.1 hworks
    exact .inl ⟨_, _, .starts hphase haction (isStopped_of_not_cancelled (hfree s))⟩
  | acting activity => exact .inl ⟨_, _, .resumes hphase⟩
  | waiting deadline => exact .inr ⟨deadline, rfl⟩

variable [Retry.Seconds 𝕊] [Named α]

/-! ## One step -/

/-- A run completes only at the end of its chains. -/
theorem at_end_of_completed (hopen : ¬ r.phase.IsFinal)
    (h : (r.step host policy behaviour s).1.phase = .ended (.ok .completed)) :
    r.phase = .ready [] ∧ r.pending = [] := by
  have hturn := step_turn host policy behaviour r s
  generalize r.step host policy behaviour s = after at hturn h
  cases hturn with
  | rested hfinal => exact (hopen hfinal).elim
  | completed hphase hpending => exact ⟨hphase, hpending⟩
  | resumed | closed | stopped | woke => cases h
  | slept hphase => cases hphase.symm.trans h
  | @acted node more begun x hacts =>
    obtain ⟨progress, s'⟩ := x
    match progress with
    | .paused _ | .done (.error _) | .done (.ok .terminate) | .done (.ok .proceed)
    | .done (.ok (.insert _)) | .done (.ok (.branch _)) => cases h
    | .done (.ok (.retryAfter requested)) =>
      simp only [progressed, follow] at h
      obtain ⟨_, hretry⟩ | ⟨_, hretry⟩ | ⟨_, _, _, hretry⟩ :=
        retry_cases host policy begun node more requested s'
      all_goals
        rw [hretry] at h
        cases h

/-- What follows an action of the chain itself. -/
theorem Acts.next {x : Progress α κ × σ} {branches : Prop}
    (hacts : Acts host behaviour r s node more begun x) (hpending : r.pending = [])
    (hfront : ∀ n ∈ node :: more, n.isTerminal = false) (hu : u ≠ [])
    (hbranches : ∀ c, x.1.answer? = some (.ok (.branch c)) → branches) :
    Next t u branches ((begun.onto u).progressed host policy node (more ++ u) x)
      ((begun.onto t).progressed host policy node (more ++ t) x) := by
  have hkept : begun.pending = [] := hacts.pending_eq.trans hpending
  obtain ⟨retries, pending, phase, journal⟩ := begun
  obtain rfl : pending = [] := hkept
  obtain ⟨progress, s'⟩ := x
  match progress with
  | .paused activity =>
    let paused : Run α κ := ⟨retries, [], .acting node more activity, journal⟩
    have hat : paused.phase.At node more := .acting activity
    exact .abreast rfl (.own rfl hat hfront rfl rfl)
  | .done (.error _) | .done (.ok .terminate) => exact .concluded rfl ⟨rfl, rfl, trivial, nofun⟩
  | .done (.ok .proceed) =>
    cases more with
    | nil => exact .arrived rfl ⟨rfl, rfl, .inl ⟨rfl, rfl⟩⟩
    | cons other more =>
      let ready : Run α κ := ⟨0, [], .ready (other :: more), journal⟩
      have hat : ready.phase.At other more := .ready
      exact .abreast rfl (.own rfl hat (fun n hn => hfront n (List.mem_cons_of_mem _ hn)) rfl rfl)
  | .done (.ok (.insert c)) =>
    have hmore : more ++ u ≠ [] := List.append_ne_nil_of_right_ne_nil more hu
    let inserted : Run α κ := ⟨0, [], .ready c.nodes, journal⟩
    refine .abreast rfl (.inner (r := inserted) id
      (fun n hn => hfront n (List.mem_cons_of_mem _ hn)) ?_ ?_)
    · show ((Run.onto u _).keep (more ++ u)).goTo c.nodes = _
      rw [keep_goTo]
      simp [Run.onto, amid, inserted, kept_of_ne_nil hmore]
    · show ((Run.onto t _).keep (more ++ t)).goTo c.nodes = _
      rw [keep_goTo]
      simp [Run.onto, amid, inserted]
  | .done (.ok (.branch c)) => exact .branched (hbranches c rfl) rfl
  | .done (.ok (.retryAfter requested)) =>
    simp only [progressed, follow]
    rw [retry_onto, retry_onto]
    obtain ⟨fault, hretry⟩ | ⟨s'', hretry⟩ | ⟨delay, deadline, s'', hretry⟩ :=
      retry_cases host policy ⟨retries, [], phase, journal⟩ node more requested s'
    · rw [hretry]
      exact .concluded rfl ⟨rfl, rfl, trivial, fun hended => by cases hended⟩
    · rw [hretry]
      exact .concluded rfl ⟨rfl, rfl, trivial, fun hended => by cases hended⟩
    · rw [hretry]
      let waits : Run α κ :=
        ⟨retries + 1, [], .waiting node more deadline, .waited node delay :: journal⟩
      have hat : waits.phase.At node more := .waiting deadline
      exact .abreast rfl (.own rfl hat hfront rfl rfl)

theorem own_next (hfree : ∀ s, host.isCancelled s = false) (hpending : r.pending = [])
    (hat : r.phase.At node more) (hfront : ∀ n ∈ node :: more, n.isTerminal = false)
    (hu : u ≠ []) (s : σ) :
    Next t u ((r.onto u).BranchesOff host behaviour s)
      ((r.onto u).step host policy behaviour s) ((r.onto t).step host policy behaviour s) := by
  obtain ⟨begun, x, hacts⟩ | ⟨deadline, hphase⟩ :=
    acts_or_waits behaviour hfree hat (hfront node List.mem_cons_self) s
  · rw [(hacts.onto u).step_eq policy, (hacts.onto t).step_eq policy]
    refine hacts.next hpending hfront hu fun c hanswer => ⟨hpending, c, ?_⟩
    rw [(hacts.onto u).answer?_eq, hanswer]
  · have hwaits : ∀ tail, (r.onto tail).phase = .waiting node (more ++ tail) deadline := by
      intro tail
      rw [onto, hphase]
      rfl
    have hgo : isStopped host node s = false := isStopped_of_not_cancelled (hfree s)
    rw [step_waiting (hwaits u) hgo, step_waiting (hwaits t) hgo]
    by_cases hover : deadline ≤ host.now s
    · rw [if_pos hover, if_pos hover]
      let ready : Run α κ := { r with phase := .ready (node :: more) }
      have hready : ready.phase.At node more := .ready
      exact .abreast rfl (.own (r := ready) hpending hready hfront rfl rfl)
    · rw [if_neg hover, if_neg hover]
      exact .abreast rfl (.own hpending hat hfront rfl rfl)

theorem inner_next {branches : Prop} (hopen : ¬ r.phase.IsFinal)
    (hrest : ∀ n ∈ rest, n.isTerminal = false)
    (hfresh : r.phase = .ready [] → r.retries = 0) (s : σ) :
    Next t u branches ((r.amid [rest ++ u] []).step host policy behaviour s)
      ((r.amid (kept (rest ++ t) []) []).step host policy behaviour s) := by
  by_cases hend : r.phase = .ready [] ∧ r.pending = []
  · -- The inserted chains are over, so the run goes on with what remains of the outermost one.
    obtain ⟨hphase, hpending⟩ := hend
    have hretries := hfresh hphase
    obtain ⟨retries, pending, phase, journal⟩ := r
    obtain rfl : retries = 0 := hretries
    obtain rfl : pending = [] := hpending
    obtain rfl : phase = .ready [] := hphase
    cases rest with
    | nil =>
      refine .arrived ?_ ⟨rfl, ?_, ?_⟩
      · cases t <;> rfl
      · cases t <;> rfl
      · cases t with
        | nil => exact .inr rfl
        | cons => exact .inl ⟨rfl, rfl⟩
    | cons node more =>
      let ready : Run α κ := ⟨0, [], .ready (node :: more), journal ++ []⟩
      have hat : ready.phase.At node more := .ready
      exact .abreast rfl (.own rfl hat hrest rfl rfl)
  · have hmore : ∀ outer : List (List (Node α)), r.phase = .ready [] → r.pending = [] →
        outer = [] := fun _ hphase hpending => (hend ⟨hphase, hpending⟩).elim
    rw [step_amid (hmore _), step_amid (hmore _)]
    by_cases hfinal : (r.step host policy behaviour s).1.phase.IsFinal
    · exact .concluded rfl ⟨rfl, rfl, hfinal, fun h => hend (at_end_of_completed hopen h)⟩
    · exact .abreast rfl (.inner hfinal hrest rfl rfl)

/-- Two runs abreast remain so, or they part. -/
theorem Abreast.next (h : Abreast t u x y) (hfree : ∀ s, host.isCancelled s = false)
    (htidy : x.IsTidy) (hu : u ≠ []) (s : σ) :
    Next t u (x.BranchesOff host behaviour s) (x.step host policy behaviour s)
      (y.step host policy behaviour s) := by
  cases h with
  | own hpending hat hfront hx hy =>
    rw [hx, hy]
    exact own_next hfree hpending hat hfront hu s
  | inner hopen hrest hx hy =>
    have hfresh := fun hphase : x.phase = .ready [] => htidy.retries_eq_zero hphase
    rw [hx] at hfresh ⊢
    rw [hy]
    exact inner_next hopen hrest hfresh s

/-- After a branch two runs abreast are the same. -/
theorem Abreast.eq_of_branchesOff (h : Abreast t u x y) (hfree : ∀ s, host.isCancelled s = false)
    (hbranches : x.BranchesOff host behaviour s) :
    x.step host policy behaviour s = y.step host policy behaviour s := by
  obtain ⟨houter, c, hanswer⟩ := hbranches
  cases h with
  | inner _ _ hx _ =>
    rw [hx, amid] at houter
    cases (List.append_eq_nil_iff.1 houter).2
  | @own r node more hpending hat hfront hx hy =>
    rw [hx] at hanswer ⊢
    rw [hy]
    obtain ⟨begun, ⟨progress, s'⟩, hacts⟩ | ⟨deadline, hphase⟩ :=
      acts_or_waits behaviour hfree hat (hfront node List.mem_cons_self) s
    · rw [(hacts.onto u).answer?_eq] at hanswer
      cases progress with
      | paused => cases hanswer
      | done =>
        cases hanswer
        rw [(hacts.onto u).step_eq policy, (hacts.onto t).step_eq policy]
        rfl
    · simp [answer?, onto, hphase, Phase.onto] at hanswer

/-! ## One move -/

variable (sleep : Nat → σ → σ)

variable (policy behaviour) in
theorem Abreast.tick_next (h : Abreast t u x y) (hfree : ∀ s, host.isCancelled s = false)
    (htidy : x.IsTidy) (hu : u ≠ []) (s : σ) :
    Next t u (x.BranchesOff host behaviour s) (tick host sleep policy behaviour (x, s))
      (tick host sleep policy behaviour (y, s)) := by
  rw [tick_eq_step, tick_eq_step, ← h.slept_eq sleep s]
  have hnext : Next t u (x.BranchesOff host behaviour (x.phase.slept sleep s))
      (x.step host policy behaviour (x.phase.slept sleep s))
      (y.step host policy behaviour (x.phase.slept sleep s)) := h.next hfree htidy hu _
  cases hnext with
  | abreast hsame h => exact .abreast hsame h
  | concluded hsame h => exact .concluded hsame h
  | arrived hsame h => exact .arrived hsame h
  | branched hbranches heq => exact .branched ((branchesOff_slept sleep x s).1 hbranches) heq

variable (policy) in
theorem Abreast.tick_eq (h : Abreast t u x y) (hfree : ∀ s, host.isCancelled s = false)
    (hbranches : x.BranchesOff host behaviour s) :
    tick host sleep policy behaviour (x, s) = tick host sleep policy behaviour (y, s) := by
  rw [tick_eq_step, tick_eq_step, ← h.slept_eq sleep s]
  exact h.eq_of_branchesOff hfree ((branchesOff_slept sleep x s).2 hbranches)

/-! ## Whole runs -/

section

variable (host : Host 𝕊 σ) (sleep : Nat → σ → σ) (policy : Retry.Policy 𝕊)
  (behaviour : Behaviour α α κ σ)

/-- A step of the outermost chain branches off before the run of `c` has come to `u`. -/
def BranchesBefore (c : Chain α) (u : List (Node α)) (s : σ) : Prop :=
  ∃ n, (∀ m ≤ n, (drive host sleep policy behaviour m (start c) s).1.levels ≠ [u]) ∧
    (drive host sleep policy behaviour n (start c) s).1.BranchesOff host behaviour
      (drive host sleep policy behaviour n (start c) s).2

end

variable {sleep}

variable (sleep policy behaviour) in
/-- The run that has arrived at nothing but a terminal completes, and does nothing more. -/
theorem Arrived.completes (h : Arrived t u x y) (hfree : ∀ s, host.isCancelled s = false)
    (ht : t = [] ∨ ∃ n, t = [n] ∧ n.action = none) (s : σ) :
    ∃ k, (drive host sleep policy behaviour k y s).1.phase = .ended (.ok .completed) ∧
      (drive host sleep policy behaviour k y s).1.journal = y.journal ∧
      (drive host sleep policy behaviour k y s).2 = s := by
  obtain ⟨hpending, hready⟩ | hended := h.through
  · obtain ⟨retries, pending, phase, journal⟩ := y
    obtain rfl : pending = [] := hpending
    obtain rfl : phase = .ready t := hready
    obtain rfl | ⟨n, rfl, hterminal⟩ := ht
    · exact ⟨1, rfl, rfl, rfl⟩
    · refine ⟨2, ?_⟩
      rw [drive_succ, tick_terminal hfree hterminal]
      exact ⟨rfl, rfl, rfl⟩
  · exact ⟨0, hended, rfl, rfl⟩

/-- How two runs stand to each other after `n` moves, when they have been abreast until they
parted. -/
inductive Met (host : Host 𝕊 σ) (behaviour : Behaviour α α κ σ) (t u : List (Node α))
    (v w : Nat → Run α κ × σ) (n : Nat) : Prop
  | abreast : (∀ i ≤ n, Abreast t u (v i).1 (w i).1) → (v n).2 = (w n).2 →
      Met host behaviour t u v w n
  | concluded {m : Nat} : m ≤ n → Concluded (v m).1 (w m).1 → (v m).2 = (w m).2 →
      Met host behaviour t u v w n
  | arrived {m : Nat} : m ≤ n → Arrived t u (v m).1 (w m).1 → (v m).2 = (w m).2 →
      Met host behaviour t u v w n
  | branched {m : Nat} : m < n → (∀ i ≤ m, Abreast t u (v i).1 (w i).1) →
      (v m).1.BranchesOff host behaviour (v m).2 → v (m + 1) = w (m + 1) →
      Met host behaviour t u v w n

variable {a b : Run α κ}

variable (sleep policy behaviour) in
/-- Two runs that begin abreast, or with one of them arrived, part at most once. -/
theorem met (hfree : ∀ s, host.isCancelled s = false) (htidy : a.IsTidy) (hu : u ≠ [])
    (hbegin : Abreast t u a b ∨ Arrived t u a b) (s : σ) (n : Nat) :
    Met host behaviour t u (fun n => drive host sleep policy behaviour n a s)
      (fun n => drive host sleep policy behaviour n b s) n := by
  induction n with
  | zero =>
    obtain habreast | harrived := hbegin
    · refine .abreast (fun i hi => ?_) rfl
      obtain rfl : i = 0 := Nat.le_zero.1 hi
      exact habreast
    · exact .arrived (Nat.le_refl 0) harrived rfl
  | succ n ih =>
    cases ih with
    | concluded hm hconcluded hsame => exact .concluded (Nat.le_succ_of_le hm) hconcluded hsame
    | arrived hm harrived hsame => exact .arrived (Nat.le_succ_of_le hm) harrived hsame
    | branched hm hbefore hbranches heq =>
      exact .branched (Nat.lt_succ_of_lt hm) hbefore hbranches heq
    | abreast hbefore hsame =>
      have hnext := (hbefore n (Nat.le_refl n)).tick_next policy behaviour sleep hfree
        (htidy.drive n s) hu (drive host sleep policy behaviour n a s).2
      have hother : tick host sleep policy behaviour ((drive host sleep policy behaviour n b s).1,
          (drive host sleep policy behaviour n a s).2) =
          drive host sleep policy behaviour (n + 1) b s := by
        rw [hsame, drive_succ_eq_tick]
      rw [hother] at hnext
      have hthis := drive_succ_eq_tick host sleep policy behaviour n a s
      rw [← hthis] at hnext
      cases hnext with
      | abreast hsame habreast =>
        refine .abreast (fun i hi => ?_) hsame
        obtain hi | rfl := Nat.lt_or_eq_of_le hi
        · exact hbefore i (Nat.le_of_lt_succ hi)
        · exact habreast
      | concluded hsame hconcluded => exact .concluded (Nat.le_refl _) hconcluded hsame
      | arrived hsame harrived => exact .arrived (Nat.le_refl _) harrived hsame
      | branched hbranches heq => exact .branched (Nat.lt_succ_self n) hbefore hbranches heq

theorem Concluded.sameCourse_of_le {m n : Nat}
    (h : Concluded (drive host sleep policy behaviour m a s).1
      (drive host sleep policy behaviour m b s).1)
    (hsame : (drive host sleep policy behaviour m a s).2 =
      (drive host sleep policy behaviour m b s).2) (hle : m ≤ n) :
    SameCourse (drive host sleep policy behaviour n a s)
      (drive host sleep policy behaviour n b s) := by
  rw [drive_of_le h.final hle, drive_of_le (h.phase ▸ h.final) hle]
  exact h.sameCourse hsame

theorem sameCourse_of_eq {m n : Nat} (heq : drive host sleep policy behaviour m a s =
      drive host sleep policy behaviour m b s) (hle : m ≤ n) :
    SameCourse (drive host sleep policy behaviour n a s)
      (drive host sleep policy behaviour n b s) := by
  obtain ⟨k, rfl⟩ := Nat.exists_eq_add_of_le hle
  rw [drive_add, drive_add, heq]
  exact .refl _

/-- Unless one of the runs has arrived, they have done the same after `n` moves. -/
theorem Met.sameCourse {n : Nat} (h : Met host behaviour t u
      (fun n => drive host sleep policy behaviour n a s)
      (fun n => drive host sleep policy behaviour n b s) n)
    (hway : ∀ m ≤ n, Arrived t u (drive host sleep policy behaviour m a s).1
      (drive host sleep policy behaviour m b s).1 → False) :
    SameCourse (drive host sleep policy behaviour n a s)
      (drive host sleep policy behaviour n b s) := by
  cases h with
  | abreast hbefore hsame => exact (hbefore n (Nat.le_refl n)).sameCourse hsame
  | concluded hm hconcluded hsame => exact hconcluded.sameCourse_of_le hsame hm
  | arrived hm harrived => exact (hway _ hm harrived).elim
  | branched hm _ _ heq => exact sameCourse_of_eq heq hm

section

variable {a b : Chain α} (ha : a.IsProper) (hb : b.IsProper)
  (hfree : ∀ s, host.isCancelled s = false)

include ha hb hfree

/-- After a branch nothing remains of the second chain. -/
theorem sameCourse_of_branchesBefore
    (h : BranchesBefore host sleep policy behaviour (a.append b) b.nodes s) (n : Nat) :
    SameCourse (drive host sleep policy behaviour n (start (a.append b)) s)
      (drive host sleep policy behaviour n (start a) s) := by
  obtain ⟨t, -, hbegin⟩ := begin_abreast (κ := κ) ha hb
  obtain ⟨m, hbefore, hbranches⟩ := h
  have hmet : ∀ n, Met host behaviour t b.nodes
      (fun n => drive host sleep policy behaviour n (start (a.append b)) s)
      (fun n => drive host sleep policy behaviour n (start a) s) n :=
    met policy behaviour sleep hfree (isTidy_start _) (List.cons_ne_nil _ _) hbegin s
  have hway : ∀ i ≤ m, Arrived t b.nodes
      (drive host sleep policy behaviour i (start (a.append b)) s).1
      (drive host sleep policy behaviour i (start a) s).1 → False := by
    intro i hi harrived
    refine hbefore i hi ?_
    rw [harrived.front]
    rfl
  rcases Nat.lt_or_ge m n with hlt | hle
  · cases hmet m with
    | abreast habreast hsame =>
      have hmove := (habreast m (Nat.le_refl m)).tick_eq policy sleep hfree hbranches
      have hsame' : (drive host sleep policy behaviour m (start (a.append b)) s).2 =
        (drive host sleep policy behaviour m (start a) s).2 := hsame
      refine sameCourse_of_eq (m := m + 1) ?_ hlt
      rw [drive_succ_eq_tick, drive_succ_eq_tick]
      exact hmove.trans (by rw [hsame'])
    | concluded hi hconcluded hsame =>
      exact hconcluded.sameCourse_of_le hsame (Nat.le_trans hi (Nat.le_of_lt hlt))
    | arrived hi harrived => exact (hway _ hi harrived).elim
    | branched hi _ _ heq => exact sameCourse_of_eq heq (Nat.le_trans hi (Nat.le_of_lt hlt))
  · exact (hmet n).sameCourse fun i hi => hway i (Nat.le_trans hi hle)

/-- A chain that does not branch off, and does not complete, is all that is run. -/
theorem sameCourse_of_not_completed
    (hopen : ∀ n, (drive host sleep policy behaviour n (start a) s).1.phase ≠
      .ended (.ok .completed)) (n : Nat) :
    SameCourse (drive host sleep policy behaviour n (start (a.append b)) s)
      (drive host sleep policy behaviour n (start a) s) := by
  obtain ⟨t, ht, hbegin⟩ := begin_abreast (κ := κ) ha hb
  have hmet := met policy behaviour sleep hfree (isTidy_start _) (List.cons_ne_nil _ _) hbegin s n
  refine hmet.sameCourse fun m _ harrived => ?_
  obtain ⟨k, hcompleted, -⟩ := harrived.completes policy behaviour sleep hfree ht
    (drive host sleep policy behaviour m (start a) s).2
  refine hopen (m + k) ?_
  rw [drive_add]
  exact hcompleted

/-- When the first chain has completed without branching off, the second is run as if it had
begun there. -/
theorem drive_of_completed
    (hnever : ¬ BranchesBefore host sleep policy behaviour (a.append b) b.nodes s) {n : Nat}
    {r : Run α κ} {s₁ : σ} (hend : drive host sleep policy behaviour n (start a) s = (r, s₁))
    (hcompleted : r.phase = .ended (.ok .completed)) :
    ∃ m, ∀ k, drive host sleep policy behaviour (m + k) (start (a.append b)) s =
      ((drive host sleep policy behaviour k (start b) s₁).1.amid [] r.journal,
        (drive host sleep policy behaviour k (start b) s₁).2) := by
  obtain ⟨t, ht, hbegin⟩ := begin_abreast (κ := κ) ha hb
  have hfinal : (drive host sleep policy behaviour n (start a) s).1.phase.IsFinal := by
    rw [hend, hcompleted]
    trivial
  cases met policy behaviour sleep hfree (isTidy_start _) (List.cons_ne_nil _ _) hbegin s n with
  | abreast hbefore => exact ((hbefore n (Nat.le_refl n)).not_isFinal.2 hfinal).elim
  | @concluded m hm hconcluded =>
    have hphase : (drive host sleep policy behaviour m (start (a.append b)) s).1.phase =
      (drive host sleep policy behaviour m (start a) s).1.phase := hconcluded.phase
    have hlast := drive_of_le (hphase ▸ hconcluded.final) hm
    rw [← hlast, hend] at hphase
    exact (hconcluded.early (hphase.trans hcompleted)).elim
  | branched _ hbefore hbranches =>
    exact (hnever ⟨_, fun i hi => (hbefore i hi).levels_ne, hbranches⟩).elim
  | @arrived m hm harrived hsame =>
    obtain ⟨k, hcomplete, hjournal, hsurroundings⟩ := harrived.completes policy behaviour sleep
      hfree ht (drive host sleep policy behaviour m (start a) s).2
    have hend' : drive host sleep policy behaviour (m + k) (start a) s = (r, s₁) := by
      have hover : (drive host sleep policy behaviour (m + k) (start a) s).1.phase.IsFinal := by
        rw [drive_add, hcomplete]
        trivial
      have hreaches : ∀ n, Reaches host sleep policy behaviour (start a, s)
          (drive host sleep policy behaviour n (start a) s) := fun n => ⟨n, rfl⟩
      rw [← hend]
      exact (hreaches (m + k)).final_unique hover (hreaches n) hfinal
    rw [drive_add] at hend'
    rw [hend'] at hjournal hsurroundings
    have hseam : drive host sleep policy behaviour m (start (a.append b)) s =
        ((start b : Run α κ).amid [] r.journal, s₁) := by
      have hfront : (drive host sleep policy behaviour m (start (a.append b)) s).1 =
          ⟨0, [], .ready b.nodes, r.journal⟩ := by
        rw [hjournal]
        exact harrived.front.trans (congrArg (Run.mk 0 [] (.ready b.nodes)) harrived.journal)
      exact Prod.ext hfront (hsame.trans hsurroundings.symm)
    exact ⟨m, fun k => by rw [drive_add, hseam, drive_amid]⟩

end

/-! ## Plans -/

/-- A plan that is followed by another, in a run that is never cancelled.  If a step of the first
plan itself branches off, the run is the same as that of the first plan alone.  If none does, it is
the same as long as the first plan has not completed, and from then on like a run of the second
plan that begins there. -/
theorem drive_andThen {π β : Type} [Named β] {host : Host 𝕊 σ} (sleep : Nat → σ → σ)
    (policy : Retry.Policy 𝕊) (behaviour : Behaviour (Action π β) (Action π β) κ σ)
    (hfree : ∀ s, host.isCancelled s = false) (p q : Plan π β) (s : σ) :
    (BranchesBefore host sleep policy behaviour (p.andThen q).build q.build.nodes s → ∀ n,
      SameCourse (drive host sleep policy behaviour n (start (p.andThen q).build) s)
        (drive host sleep policy behaviour n (start p.build) s)) ∧
    (¬ BranchesBefore host sleep policy behaviour (p.andThen q).build q.build.nodes s →
      ((∀ n, (drive host sleep policy behaviour n (start p.build) s).1.phase ≠
          .ended (.ok .completed)) → ∀ n,
        SameCourse (drive host sleep policy behaviour n (start (p.andThen q).build) s)
          (drive host sleep policy behaviour n (start p.build) s)) ∧
      ∀ n r s₁, drive host sleep policy behaviour n (start p.build) s = (r, s₁) →
        r.phase = .ended (.ok .completed) → ∃ m, ∀ k,
          drive host sleep policy behaviour (m + k) (start (p.andThen q).build) s =
            ((drive host sleep policy behaviour k (start q.build) s₁).1.amid [] r.journal,
              (drive host sleep policy behaviour k (start q.build) s₁).2)) := by
  have hp := p.isProper_build
  have hq := q.isProper_build
  rw [Plan.build_andThen]
  refine ⟨fun h n => sameCourse_of_branchesBefore hp hq hfree h n, fun hnever => ⟨?_, ?_⟩⟩
  · exact fun hopen n => sameCourse_of_not_completed hp hq hfree hopen n
  · exact fun n r s₁ hend hcompleted => drive_of_completed hp hq hfree hnever hend hcompleted

end Run

/-! ### A walk with a detour -/

/-- Actions that let a run go on, branch to a stride, or insert a branch. -/
inductive Walk
  | stride
  | turn
  | detour

namespace Walk

open Run

instance : Named Walk where
  name
    | stride => "stride"
    | turn => "turn"
    | detour => "detour"

/-- What the actions do, given the number of actions so far. -/
def behaviour : Behaviour (Action Unit Walk) (Action Unit Walk) Empty Nat where
  start
    | .work stride, taken => (.done (.ok .proceed), taken + 1)
    | .work turn, taken => (.done (.ok (.branch (.single (.work stride)))), taken + 1)
    | .work detour, taken => (.done (.ok (.insert (.single (.work turn)))), taken + 1)
    | .choice .., taken => (.done (.ok .proceed), taken)
  resume activity := nomatch activity

/-- The run of a plan, driven alone from the start. -/
def walk (p : Plan Unit Walk) (n : Nat) : Run (Action Unit Walk) Empty × Nat :=
  drive Errand.host (fun _ taken => taken) Errand.policy behaviour n (start p.build) 0

/-- The turn of a detour is taken in an inserted chain. -/
theorem not_branchesBefore : ¬ BranchesBefore Errand.host (fun _ taken => taken) Errand.policy
    behaviour ((Plan.act detour).andThen (.act stride)).build
    (Plan.act stride : Plan Unit Walk).build.nodes 0 := by
  rintro ⟨n, hbefore, hpending, c, hanswer⟩
  rcases n with _ | _ | _ | _ | n
  · cases hanswer
  · cases hpending
  · cases hpending
  · cases hpending
  · exact hbefore 4 (by omega) rfl

/-- A detour is followed by the stride behind it, and a turn is not. -/
theorem stride_after_detour :
    (∃ r, walk (.act detour) 4 = (r, 3) ∧ r.phase = .ended (.ok .completed) ∧
      ∃ m, ∀ k, walk ((Plan.act detour).andThen (.act stride)) (m + k) =
        ((drive Errand.host (fun _ taken => taken) Errand.policy behaviour k
            (start (Plan.act stride).build) 3).1.amid [] r.journal,
          (drive Errand.host (fun _ taken => taken) Errand.policy behaviour k
            (start (Plan.act stride).build) 3).2)) ∧
      ∀ n, SameCourse (walk ((Plan.act turn).andThen (.act stride)) n) (walk (.act turn) n) := by
  have hfree : ∀ taken, Errand.host.isCancelled taken = false := fun _ => rfl
  obtain ⟨-, hdetour⟩ := drive_andThen (fun _ taken => taken) Errand.policy behaviour hfree
    (.act detour) (.act stride) 0
  obtain ⟨hturn, -⟩ := drive_andThen (fun _ taken => taken) Errand.policy behaviour hfree
    (.act turn) (.act stride) 0
  refine ⟨⟨_, rfl, rfl, (hdetour not_branchesBefore).2 4 _ 3 rfl rfl⟩, hturn ⟨0, ?_, rfl, _, rfl⟩⟩
  intro m hm hlevels
  obtain rfl : m = 0 := Nat.le_zero.1 hm
  cases hlevels

end Walk

end Reconcile
