import Reconcile.Proofs.Engine.Flattening
import Reconcile.Proofs.Engine.Turns

/-!
# What remains of the chains of a run

The steps that a run still has to take lie in levels: what remains of the current chain, and
behind it what remains of the chains that it was inserted into.  `Run.Shift` says how a step
changes the levels, given what an action has answered.

A step that stands last in the outermost chain stays there until it is taken itself.  Inserted
chains come before it, a terminal only ends an inserted chain, and a branch drops no level but
the one that it is taken from.  So only a branch in the outermost chain itself can drop the step
(`Run.LeadsTo.shift`).
-/

namespace Reconcile

variable {𝕊 α κ σ : Type}

/-- An answer asks for a chain, to be run before what remains or instead of it. -/
def AsksFor (answer : Option (Except Fault (Directive α))) (c : Chain α) : Prop :=
  answer = some (.ok (.insert c)) ∨ answer = some (.ok (.branch c))

namespace Run

/-- What remains of the chains of a run, the current one first.  A step remains while its action
is under way and while it waits for its retry. -/
def levels (r : Run α κ) : List (List (Node α)) :=
  match r.phase with
  | .ready rest => rest :: r.pending
  | .acting node more _ | .waiting node more _ => (node :: more) :: r.pending
  | .ended _ | .crashed => []

theorem levels_of_at {r : Run α κ} {node : Node α} {more : List (Node α)}
    (h : r.phase.At node more) : r.levels = (node :: more) :: r.pending := by
  generalize hphase : r.phase = phase at h
  cases h <;> simp [levels, hphase]

/-! ## How a step changes the levels -/

/-- How a step changes the levels of a run, given what an action has answered. -/
inductive Shift (answer : Option (Except Fault (Directive α))) (before after : Run α κ) : Prop
  /-- The run has come to the end of its chains. -/
  | completed : before.levels = [[]] → after.phase = .ended (.ok .completed) →
      Shift answer before after
  /-- The run ends in front of the end of its chains. -/
  | ended {result : Except Fault Outcome} : result ≠ .ok .completed →
      after.phase = .ended result → Shift answer before after
  | crashed : after.phase = .crashed → Shift answer before after
  /-- The step remains. -/
  | stayed {level : List (Node α)} : before.levels = level :: before.pending →
      after.levels = level :: before.pending → Shift answer before after
  /-- The run goes on with a chain into which the current one was inserted. -/
  | resumed {rest : List (Node α)} {pending : List (List (Node α))} :
      before.levels = [] :: rest :: pending → after.phase = .ready rest →
      after.pending = pending → Shift answer before after
  /-- A terminal ends the current chain. -/
  | closed {node : Node α} {more : List (Node α)} : node.isTerminal = true →
      before.levels = (node :: more) :: before.pending → after.phase = .ready [] →
      after.pending = before.pending → Shift answer before after
  | proceeded {node : Node α} {more : List (Node α)} : answer = some (.ok .proceed) →
      before.levels = (node :: more) :: before.pending → after.phase = .ready more →
      after.pending = before.pending → Shift answer before after
  | inserted {node : Node α} {more : List (Node α)} {c : Chain α} :
      answer = some (.ok (.insert c)) → before.levels = (node :: more) :: before.pending →
      after.phase = .ready c.nodes → after.pending = kept more before.pending →
      Shift answer before after
  | branched {node : Node α} {more : List (Node α)} {c : Chain α} :
      answer = some (.ok (.branch c)) → before.levels = (node :: more) :: before.pending →
      after.phase = .ready c.nodes → after.pending = before.pending → Shift answer before after

section

variable [Retry.Seconds 𝕊] [Named α]
variable {host : Host 𝕊 σ} {policy : Retry.Policy 𝕊} {behaviour : Behaviour α α κ σ}
  {r : Run α κ} {node : Node α} {more : List (Node α)} {s : σ}

theorem progressed_shift {begun : Run α κ} {x : Progress α κ × σ}
    (hlevels : r.levels = (node :: more) :: r.pending) (hpending : begun.pending = r.pending) :
    Shift x.1.answer? r (begun.progressed host policy node more x).1 := by
  obtain ⟨progress, s⟩ := x
  match progress with
  | .paused activity => exact .stayed hlevels (by rw [← hpending]; rfl)
  | .done (.error fault) => exact .ended (by simp) rfl
  | .done (.ok .proceed) => exact .proceeded rfl hlevels rfl hpending
  | .done (.ok (.insert c)) =>
    refine .inserted rfl hlevels ?_ ?_
    · rfl
    · rw [← hpending]
      show ((begun.keep more).goTo c.nodes).pending = kept more begun.pending
      rw [keep_goTo]
  | .done (.ok (.branch c)) => exact .branched rfl hlevels rfl hpending
  | .done (.ok .terminate) => exact .ended (by simp) rfl
  | .done (.ok (.retryAfter requested)) =>
    simp only [progressed, follow, retry]
    split
    · exact .ended (by simp) rfl
    · split
      · exact .crashed rfl
      · exact .stayed hlevels (by rw [← hpending]; rfl)

variable (policy) in
/-- A run does what an action answers. -/
theorem step_of_answer {result : Except Fault (Directive α)}
    (h : r.answer? host behaviour s = some result) :
    ∃ (begun : Run α κ) (node : Node α) (more : List (Node α)) (s' : σ),
      begun.pending = r.pending ∧
        r.step host policy behaviour s = begun.follow host policy node more result s' := by
  obtain ⟨node, more, begun, s', hacts⟩ := acts_of_answer h
  exact ⟨begun, node, more, s', hacts.pending_eq, hacts.step_eq policy⟩

variable (policy) in
/-- What a step does to the levels of a run that has not ended. -/
theorem step_shift (hopen : ¬ r.phase.IsFinal) :
    Shift (r.answer? host behaviour s) r (r.step host policy behaviour s).1 := by
  have hcancelled : (.ok .cancelled : Except Fault Outcome) ≠ .ok .completed := nofun
  have hturn := step_turn host policy behaviour r s
  generalize r.step host policy behaviour s = after at hturn ⊢
  cases hturn with
  | rested hfinal => exact (hopen hfinal).elim
  | completed hphase hpending => exact .completed (by simp [levels, hphase, hpending]) rfl
  | resumed hphase hpending => exact .resumed (by simp [levels, hphase, hpending]) rfl rfl
  | @closed node more hphase haction =>
    have hterminal : node.isTerminal = true := by simp [Node.isTerminal, haction]
    have hat : r.phase.At node more := hphase ▸ .ready
    exact .closed hterminal (levels_of_at hat) rfl rfl
  | stopped => exact .ended hcancelled rfl
  | acted hacts =>
    rw [hacts.answer?_eq]
    exact progressed_shift (levels_of_at hacts.at_phase) hacts.pending_eq
  | @slept node more deadline hphase =>
    have hat : r.phase.At node more := hphase ▸ .waiting deadline
    exact .stayed (levels_of_at hat) (levels_of_at hat)
  | @woke node more deadline hphase =>
    have hat : r.phase.At node more := hphase ▸ .waiting deadline
    exact .stayed (levels_of_at hat) rfl

end

/-- A step that does not remain does not come back, unless a chain brings it. -/
theorem Shift.not_mem {answer : Option (Except Fault (Directive α))} {r r' : Run α κ}
    {n : Node α} (h : Shift answer r r') (hn : n ∉ r.levels.flatten)
    (hchain : ∀ c, AsksFor answer c → n ∉ c.nodes) : n ∉ r'.levels.flatten := by
  cases h with
  | completed _ hphase | ended _ hphase | crashed hphase => simp [levels, hphase]
  | stayed hbefore hafter => rwa [hafter, ← hbefore]
  | resumed hbefore hphase hpending =>
    rw [hbefore] at hn
    simpa [levels, hphase, hpending] using hn
  | closed _ hbefore hphase hpending | proceeded _ hbefore hphase hpending =>
    rw [hbefore] at hn
    simp only [List.flatten_cons, List.cons_append, List.mem_cons, List.mem_append] at hn
    simp only [levels, hphase, hpending, List.flatten_cons, List.mem_append, List.not_mem_nil]
    tauto
  | @inserted node more c hanswer hbefore hphase hpending =>
    have hfresh : n ∉ c.nodes := hchain c (.inl hanswer)
    rw [hbefore] at hn
    simp only [List.flatten_cons, List.cons_append, List.mem_cons, List.mem_append] at hn
    simp only [levels, hphase, hpending, List.flatten_cons, flatten_kept, List.mem_append]
    tauto
  | @branched node more c hanswer hbefore hphase hpending =>
    have hfresh : n ∉ c.nodes := hchain c (.inr hanswer)
    rw [hbefore] at hn
    simp only [List.flatten_cons, List.cons_append, List.mem_cons, List.mem_append] at hn
    simp only [levels, hphase, hpending, List.flatten_cons, List.mem_append]
    tauto

/-! ## The last step of the outermost chain -/

/-- A step is the last of the outermost level.  Nothing in front of it there is a terminal, and
it does not occur anywhere else. -/
inductive LeadsTo (last : Node α) : List (List (Node α)) → Prop
  | outermost {outer : List (Node α)} : last ∉ outer → (∀ n ∈ outer, n.isTerminal = false) →
      LeadsTo last [outer ++ [last]]
  | inner {level : List (Node α)} {levels : List (List (Node α))} : last ∉ level →
      LeadsTo last levels → LeadsTo last (level :: levels)

namespace LeadsTo

variable {last : Node α} {node : Node α} {level more : List (Node α)}
  {pending : List (List (Node α))}

theorem of_cons (h : LeadsTo last (level :: pending)) :
    (pending = [] ∧ ∃ outer, level = outer ++ [last] ∧ last ∉ outer ∧
        ∀ n ∈ outer, n.isTerminal = false) ∨
      last ∉ level ∧ LeadsTo last pending := by
  generalize hlevels : level :: pending = levels at h
  cases h with
  | outermost hfresh hterminal =>
    obtain ⟨rfl, rfl⟩ := List.cons.inj hlevels
    exact .inl ⟨rfl, _, rfl, hfresh, hterminal⟩
  | inner hfresh hrest =>
    obtain ⟨rfl, rfl⟩ := List.cons.inj hlevels
    exact .inr ⟨hfresh, hrest⟩

theorem not_isFinal {r : Run α κ} (h : LeadsTo last r.levels) : ¬ r.phase.IsFinal := by
  intro hfinal
  unfold levels at h
  split at h
  case h_4 | h_5 => cases h
  all_goals simp_all [Phase.IsFinal]

/-- A level at its end is not the outermost one. -/
theorem of_nil (h : LeadsTo last ([] :: pending)) : LeadsTo last pending := by
  rcases h.of_cons with ⟨-, outer, hnil, -⟩ | ⟨-, hrest⟩
  · simp at hnil
  · exact hrest

/-- A terminal is in front of the end of an inserted chain. -/
theorem of_terminal (hlast : last.isTerminal = false) (hnode : node.isTerminal = true)
    (h : LeadsTo last ((node :: more) :: pending)) : LeadsTo last pending := by
  rcases h.of_cons with ⟨-, outer, hsplit, -, hterminal⟩ | ⟨-, hrest⟩
  · have hmem : node ∈ outer ++ [last] := hsplit ▸ List.mem_cons_self
    rcases List.mem_append.1 hmem with houter | hend
    · cases hnode.symm.trans (hterminal node houter)
    · cases hnode.symm.trans (List.mem_singleton.1 hend ▸ hlast)
  · exact hrest

theorem tail (h : LeadsTo last ((node :: more) :: pending))
    (hnext : (node :: more) :: pending ≠ [[last]]) : LeadsTo last (more :: pending) := by
  rcases h.of_cons with ⟨rfl, outer, hsplit, hfresh, hterminal⟩ | ⟨hfresh, hrest⟩
  · cases outer with
    | nil => exact (hnext (by rw [hsplit]; rfl)).elim
    | cons first outer =>
      obtain ⟨rfl, rfl⟩ := List.cons.inj hsplit
      exact .outermost (fun hmem => hfresh (List.mem_cons_of_mem _ hmem))
        fun n hn => hterminal n (List.mem_cons_of_mem _ hn)
  · exact .inner (fun hmem => hfresh (List.mem_cons_of_mem _ hmem)) hrest

theorem kept (h : LeadsTo last (more :: pending)) : LeadsTo last (Run.kept more pending) := by
  cases more with
  | nil => exact h.of_nil
  | cons node more => exact h

/-- The step remains the last, unless it is the next one, or a branch drops it. -/
theorem shift {answer : Option (Except Fault (Directive α))} {r r' : Run α κ}
    (h : LeadsTo last r.levels) (hshift : Shift answer r r') (hlast : last.isTerminal = false)
    (hnext : r.levels ≠ [[last]])
    (hchain : ∀ c, AsksFor answer c → last ∉ c.nodes)
    (hbranch : r.pending = [] → ∀ c, answer ≠ some (.ok (.branch c))) :
    r'.phase = .crashed ∨ (∃ result, r'.phase = .ended result ∧ result ≠ .ok .completed) ∨
      LeadsTo last r'.levels ∧ (r'.levels = [[last]] → r'.phase = .ready [last]) := by
  have hready : ∀ {rest pending}, r'.phase = .ready rest → r'.pending = pending →
      LeadsTo last (rest :: pending) →
      LeadsTo last r'.levels ∧ (r'.levels = [[last]] → r'.phase = .ready [last]) := by
    intro rest pending hphase hpending hleads
    have hlevels : r'.levels = rest :: pending := by rw [levels, hphase, hpending]
    refine ⟨hlevels ▸ hleads, fun hone => ?_⟩
    rw [hlevels] at hone
    rw [hphase, (List.cons.inj hone).1]
  cases hshift with
  | completed hempty =>
    rw [hempty] at h
    cases h.of_nil
  | ended hresult hended => exact .inr (.inl ⟨_, hended, hresult⟩)
  | crashed hcrashed => exact .inl hcrashed
  | stayed hbefore hafter =>
    have hsame : r'.levels = r.levels := hafter.trans hbefore.symm
    refine .inr (.inr ⟨hsame ▸ h, fun hone => ?_⟩)
    exact (hnext (hsame.symm.trans hone)).elim
  | resumed hbefore hphase hpending =>
    rw [hbefore] at h
    exact .inr (.inr (hready hphase hpending h.of_nil))
  | closed hclosed hbefore hphase hpending =>
    rw [hbefore] at h
    exact .inr (.inr (hready hphase hpending (.inner (by simp) (h.of_terminal hlast hclosed))))
  | proceeded _ hbefore hphase hpending =>
    rw [hbefore] at h hnext
    exact .inr (.inr (hready hphase hpending (h.tail hnext)))
  | @inserted node more c hanswer hbefore hphase hpending =>
    rw [hbefore] at h hnext
    have hfresh : last ∉ c.nodes := hchain c (.inl hanswer)
    exact .inr (.inr (hready hphase hpending (.inner hfresh (h.tail hnext).kept)))
  | @branched node more c hanswer hbefore hphase hpending =>
    rw [hbefore] at h
    have hfresh : last ∉ c.nodes := hchain c (.inr hanswer)
    rcases h.of_cons with ⟨hnone, -⟩ | ⟨-, hrest⟩
    · exact (hbranch hnone c hanswer).elim
    · exact .inr (.inr (hready hphase hpending (.inner hfresh hrest)))

end LeadsTo

end Run

end Reconcile
