import Mathlib.Data.List.Forall2
import Reconcile.Proofs.Engine.Conduct

/-!
# The shares of the actions of a plan

What a run has done falls into shares, one for each action of its plan in the order in which the
plan is written (`IsDivided`).  An action that the run has not come to has an empty share.  The
share of a choice is a single start, and that of any other action holds at most one start more than
there are retries, and a wait for each retry.

The run divides its journal as it goes along (`Run.Divides`): the shares of the actions behind it
are complete, the share of the step that it is at is as large as its count of retries says, and the
actions in front of it follow later in the plan.
-/

namespace Reconcile

variable {𝕊 π α κ σ : Type}

/-! ## Entries -/

namespace Entry

variable {α : Type}

/-- The step that an entry is about. -/
def node : Entry α → Node α
  | .invoked node => node
  | .waited node _ => node

/-- Whether an entry is the start of an action. -/
def isStart : Entry α → Bool
  | .invoked _ => true
  | .waited .. => false

/-- Whether an entry is a wait. -/
def isPause : Entry α → Bool
  | .invoked _ => false
  | .waited .. => true

/-- Whether an entry is about an action that is picked. -/
def concerns (picked : α → Bool) (e : Entry α) : Bool := e.node.action.any picked

end Entry

/-! ## Shares -/

namespace Action

/-- How often an action of a plan may be started. -/
def starts (limit : Nat) : Action π α → Nat
  | .work _ => limit + 1
  | .choice .. => 1

/-- How often a run may wait for a retry of an action. -/
def pauses (limit : Nat) : Action π α → Nat
  | .work _ => limit
  | .choice .. => 0

/-- These entries are all about an action, and among them are so many starts and waits. -/
structure IsVisit (action : Action π α) (starts pauses : Nat)
    (share : List (Entry (Action π α))) : Prop where
  about : ∀ e ∈ share, e.node.action = some action
  starts : share.countP Entry.isStart = starts
  pauses : share.countP Entry.isPause = pauses

/-- No more has been done about an action than may be. -/
structure IsShare (limit : Nat) (action : Action π α) (share : List (Entry (Action π α))) :
    Prop where
  about : ∀ e ∈ share, e.node.action = some action
  starts : share.countP Entry.isStart ≤ action.starts limit
  pauses : share.countP Entry.isPause ≤ action.pauses limit

variable {limit : Nat} {action : Action π α} {share : List (Entry (Action π α))}

theorem isShare_nil : action.IsShare limit [] :=
  ⟨nofun, Nat.zero_le _, Nat.zero_le _⟩

theorem IsVisit.nil : action.IsVisit 0 0 [] := ⟨nofun, rfl, rfl⟩

section

variable {starts pauses : Nat} {node : Node (Action π α)}

theorem IsVisit.invoked (h : action.IsVisit starts pauses share)
    (haction : node.action = some action) :
    action.IsVisit (starts + 1) pauses (share ++ [.invoked node]) where
  about e he := by
    rcases List.mem_append.1 he with he | he
    · exact h.about e he
    · rw [List.mem_singleton.1 he]
      exact haction
  starts := by rw [List.countP_append, h.starts]; rfl
  pauses := by rw [List.countP_append, h.pauses]; rfl

theorem IsVisit.waited (h : action.IsVisit starts pauses share)
    (haction : node.action = some action) (delay : Span) :
    action.IsVisit starts (pauses + 1) (share ++ [.waited node delay]) where
  about e he := by
    rcases List.mem_append.1 he with he | he
    · exact h.about e he
    · rw [List.mem_singleton.1 he]
      exact haction
  starts := by rw [List.countP_append, h.starts]; rfl
  pauses := by rw [List.countP_append, h.pauses]; rfl

theorem IsVisit.isShare (h : action.IsVisit starts pauses share)
    (hstarts : starts ≤ action.starts limit) (hpauses : pauses ≤ action.pauses limit) :
    action.IsShare limit share :=
  ⟨h.about, h.starts.trans_le hstarts, h.pauses.trans_le hpauses⟩

end

/-- What is counted in a share is all about the same action. -/
theorem IsShare.countP_eq (h : action.IsShare limit share)
    (counts : Entry (Action π α) → Bool) (picked : Action π α → Bool) :
    share.countP (fun e => counts e && e.concerns picked) =
      if picked action then share.countP counts else 0 := by
  have hsame : ∀ e ∈ share, (counts e && e.concerns picked) = (counts e && picked action) := by
    intro e he
    rw [Entry.concerns, h.about e he]
    rfl
  rw [List.countP_congr fun e he => by rw [hsame e he]]
  cases picked action <;> simp

end Action

/-- The entries fall into a share for each of these actions, in order. -/
def IsDivided (limit : Nat) (actions : List (Action π α)) (entries : List (Entry (Action π α))) :
    Prop :=
  ∃ shares, entries = shares.flatten ∧ List.Forall₂ (Action.IsShare limit) actions shares

namespace IsDivided

variable {limit : Nat} {actions : List (Action π α)} {entries : List (Entry (Action π α))}

theorem nil : IsDivided limit ([] : List (Action π α)) [] := ⟨[], rfl, .nil⟩

theorem concat (h : IsDivided limit actions entries) {action : Action π α}
    {share : List (Entry (Action π α))} (hshare : action.IsShare limit share) :
    IsDivided limit (actions ++ [action]) (entries ++ share) := by
  obtain ⟨shares, rfl, hshares⟩ := h
  refine ⟨shares ++ [share], by simp, ?_⟩
  exact List.rel_append hshares (.cons hshare .nil)

/-- Actions in between may have empty shares. -/
theorem of_sublist (h : IsDivided limit actions entries) {all : List (Action π α)}
    (hsublist : actions.Sublist all) : IsDivided limit all entries := by
  obtain ⟨shares, hentries, hshares⟩ := h
  induction hsublist generalizing entries shares with
  | slnil => exact ⟨shares, hentries, hshares⟩
  | cons action _ ih =>
    obtain ⟨shares, hentries, hshares⟩ := ih shares hentries hshares
    exact ⟨[] :: shares, hentries, .cons Action.isShare_nil hshares⟩
  | cons_cons action _ ih =>
    cases hshares with
    | cons hshare hshares =>
      obtain ⟨rest, hrest, hdivided⟩ := ih _ rfl hshares
      refine ⟨_ :: rest, ?_, .cons hshare hdivided⟩
      rw [hentries, List.flatten_cons, List.flatten_cons, hrest]

/-- Every entry is about an action. -/
theorem exists_action (h : IsDivided limit actions entries) {e : Entry (Action π α)}
    (he : e ∈ entries) : ∃ action, e.node.action = some action := by
  obtain ⟨shares, rfl, hshares⟩ := h
  induction hshares with
  | nil => cases he
  | @cons action share _ _ h _ ih =>
    rw [List.flatten_cons, List.mem_append] at he
    rcases he with he | he
    · exact ⟨action, h.about e he⟩
    · exact ih he

/-- What the shares hold of something, all together, if each holds no more of it than that. -/
theorem countP_le (h : IsDivided limit actions entries) (counts : Entry (Action π α) → Bool)
    (picked within : Action π α → Bool) (bound : Nat)
    (hshare : ∀ action share, Action.IsShare limit action share → picked action = true →
      share.countP counts ≤ if within action then bound else 0) :
    entries.countP (fun e => counts e && e.concerns picked) ≤
      actions.countP (fun action => within action && picked action) * bound := by
  obtain ⟨shares, rfl, hshares⟩ := h
  induction hshares with
  | nil => exact Nat.zero_le _
  | @cons action share actions shares h _ ih =>
    rw [List.flatten_cons, List.countP_append, h.countP_eq, List.countP_cons, Nat.add_mul,
      Nat.add_comm]
    refine Nat.add_le_add ih ?_
    cases hpicked : picked action with
    | false => simp
    | true =>
      have hle := hshare action share h hpicked
      cases hwithin : within action with
      | false => simpa [hwithin] using hle
      | true => simpa [hwithin] using hle

end IsDivided

namespace Run

/-! ## The shares of a run -/

/-- The actions that a run still has in front of it, those of the step that it is at included. -/
def ahead (r : Run (Action π α) κ) : List (Action π α) := occurrencesOf r.levels.flatten

/-- The calls of the action of the present step that are under way. -/
def underway (r : Run α κ) : Nat :=
  match r.phase with
  | .acting .. => 1
  | .ready _ | .waiting .. | .ended _ | .crashed => 0

/-- How what a run has done is divided among the actions of its plan. -/
inductive Divides (limit : Nat) (all : List (Action π α)) (r : Run (Action π α) κ) : Prop
  /-- The run has come to the next step, if there is one. -/
  | fresh {rest : List (Node (Action π α))} {passed : List (Action π α)} :
      r.phase = .ready rest → r.retries = 0 → IsDivided limit passed r.journal.reverse →
      (passed ++ r.ahead).Sublist all → Divides limit all r
  /-- The run is at a step that it has started. -/
  | visiting {node : Node (Action π α)} {more : List (Node (Action π α))} {a : α}
      {passed : List (Action π α)} {entries share : List (Entry (Action π α))} :
      r.phase.At node more → node.action = some (.work a) → r.retries ≤ limit →
      IsDivided limit passed entries → r.journal.reverse = entries ++ share →
      Action.IsVisit (.work a) (r.retries + r.underway) r.retries share →
      (passed ++ r.ahead).Sublist all → Divides limit all r
  | past : r.phase.IsFinal → IsDivided limit all r.journal.reverse → Divides limit all r

variable {limit : Nat} {all : List (Action π α)} {r : Run (Action π α) κ}

theorem divides_start (plan : Plan π α) :
    (start plan.build : Run (Action π α) κ).Divides limit plan.occurrences := by
  refine .fresh rfl rfl .nil ?_
  rw [ahead, levels]
  show (occurrencesOf (plan.build.nodes ++ [])).Sublist _
  rw [List.append_nil, plan.occurrences_build]

theorem ahead_of_levels {level : List (Node (Action π α))}
    {pending : List (List (Node (Action π α)))} (h : r.levels = level :: pending) :
    r.ahead = occurrencesOf level ++ occurrencesOf pending.flatten := by
  rw [ahead, h, List.flatten_cons, occurrencesOf_append]

theorem ahead_of_at {node : Node (Action π α)} {more : List (Node (Action π α))}
    {action : Action π α} (hat : r.phase.At node more) (haction : node.action = some action) :
    r.ahead = action.occurrences ++ (occurrencesOf more ++ occurrencesOf r.pending.flatten) := by
  rw [ahead_of_levels (levels_of_at hat), occurrencesOf_cons, Node.occurrences_of_action haction,
    List.append_assoc]

/-- What a run has done is divided among all actions of its plan. -/
theorem Divides.isDivided (h : r.Divides limit all) : IsDivided limit all r.journal.reverse := by
  cases h with
  | fresh _ _ hdivided hsublist =>
    exact hdivided.of_sublist ((List.sublist_append_left _ _).trans hsublist)
  | past _ hdivided => exact hdivided
  | @visiting node more a passed entries share hat haction hretries hdivided hjournal hvisit
      hsublist =>
    have hshare : Action.IsShare limit (.work a) share := by
      refine hvisit.isShare (Nat.add_le_add hretries ?_) hretries
      unfold underway
      split <;> omega
    rw [hjournal]
    refine (hdivided.concat hshare).of_sublist (List.Sublist.trans ?_ hsublist)
    rw [ahead_of_at hat haction]
    exact (List.sublist_append_left _ _).append_left passed

/-! ## One step -/

section

variable {host : Host 𝕊 σ} {behaviour : Behaviour (Action π α) (Action π α) κ σ}
  {begun : Run (Action π α) κ} {node : Node (Action π α)} {more : List (Node (Action π α))} {s : σ}
  {x : Progress (Action π α) κ × σ}

/-- A run that starts or resumes an action is in the share of the action. -/
theorem Divides.acts (h : r.Divides limit all) (hacts : Acts host behaviour r s node more begun x)
    (hwork : r.phase = .ready (node :: more) → ∃ a, node.action = some (.work a)) :
    ∃ a passed entries share, node.action = some (.work a) ∧ r.retries ≤ limit ∧
      IsDivided limit passed entries ∧ begun.journal.reverse = entries ++ share ∧
      Action.IsVisit (.work a) (r.retries + 1) r.retries share ∧
      (passed ++ r.ahead).Sublist all := by
  cases hacts with
  | @starts action hphase haction hgo =>
    obtain ⟨a, hwork⟩ := hwork hphase
    cases h with
    | @fresh rest passed _ hretries hdivided hsublist =>
      refine ⟨a, passed, _, [.invoked node], hwork, ?_, hdivided, List.reverse_cons, ?_, hsublist⟩
      · rw [hretries]
        exact Nat.zero_le _
      · rw [hretries]
        exact Action.IsVisit.nil.invoked hwork
    | @visiting _ _ b passed entries share hat haction' hretries hdivided hjournal hvisit
        hsublist =>
      rw [underway, hphase] at hvisit
      rw [hphase] at hat
      cases hat
      refine ⟨b, passed, entries, share ++ [.invoked node], haction', hretries, hdivided, ?_, ?_,
        hsublist⟩
      · rw [List.reverse_cons, hjournal, List.append_assoc]
      · exact hvisit.invoked haction'
    | past hfinal =>
      rw [hphase] at hfinal
      exact hfinal.elim
  | @resumes activity hphase =>
    cases h with
    | fresh hready => cases hphase.symm.trans hready
    | @visiting _ _ b passed entries share hat haction' hretries hdivided hjournal hvisit
        hsublist =>
      rw [underway, hphase] at hvisit
      rw [hphase] at hat
      cases hat
      exact ⟨b, passed, entries, share, haction', hretries, hdivided, hjournal, hvisit, hsublist⟩
    | past hfinal =>
      rw [hphase] at hfinal
      exact hfinal.elim

/-- A choice has its share with the step that starts it, and what it inserts stands for one of its
alternatives. -/
theorem Divides.chooses (h : r.Divides limit all) {name : String} {test : π → Bool}
    {yes no chosen : Plan π α} (hphase : r.phase = .ready (node :: more))
    (haction : node.action = some (.choice name test yes no))
    (hchosen : chosen = yes ∨ chosen = no) :
    (⟨0, kept more r.pending, .ready chosen.build.nodes, .invoked node :: r.journal⟩ :
      Run (Action π α) κ).Divides limit all := by
  have hat : r.phase.At node more := hphase ▸ .ready
  cases h with
  | @fresh rest passed _ hretries hdivided hsublist =>
    have hvisit : (Action.choice name test yes no).IsVisit 1 0 [.invoked node] :=
      Action.IsVisit.nil.invoked haction
    have hstarted : IsDivided limit (passed ++ [.choice name test yes no])
        (.invoked node :: r.journal).reverse := by
      rw [List.reverse_cons]
      exact hdivided.concat (hvisit.isShare (Nat.le_refl _) (Nat.le_refl _))
    have halternative : chosen.occurrences.Sublist (yes.occurrences ++ no.occurrences) := by
      rcases hchosen with rfl | rfl
      · exact List.sublist_append_left _ _
      · exact List.sublist_append_right _ _
    refine .fresh rfl rfl hstarted (List.Sublist.trans ?_ hsublist)
    rw [ahead_of_levels rfl, flatten_kept, chosen.occurrences_build, occurrencesOf_append,
      ahead_of_at hat haction, List.append_assoc]
    exact ((halternative.append_right _).cons_cons _).append_left passed
  | @visiting _ _ a _ _ _ hat' hwork =>
    rw [hphase] at hat'
    cases hat'
    cases haction.symm.trans hwork
  | past hfinal =>
    rw [hphase] at hfinal
    exact hfinal.elim

variable [Retry.Seconds 𝕊] [Named α] {policy : Retry.Policy 𝕊}

omit [Retry.Seconds 𝕊] [Named α] in
/-- What an action settles is in its share. -/
theorem Divides.settles (h : r.Divides policy.maxRetries all)
    (hacts : Acts host behaviour r s node more begun x)
    (hwork : r.phase = .ready (node :: more) → ∃ a, node.action = some (.work a))
    {next : Run (Action π α) κ} (hsettles : Settles policy begun node more x.1.answer? next) :
    next.Divides policy.maxRetries all := by
  obtain ⟨a, passed, entries, share, haction, hretries, hdivided, hjournal, hvisit, hsublist⟩ :=
    h.acts hacts hwork
  have hshare : Action.IsShare policy.maxRetries (.work a) share :=
    hvisit.isShare (Nat.add_le_add_right hretries 1) hretries
  have hahead := ahead_of_at hacts.at_phase haction
  have hbegun := hacts.retries_eq
  cases hsettles with
  | @pauses activity _ =>
    refine .visiting (.acting activity) haction (hbegun ▸ hretries) hdivided hjournal ?_ ?_
    · rw [← hbegun] at hvisit
      exact hvisit
    · rwa [ahead_of_at (.acting activity) haction, hacts.pending_eq, ← hahead]
  | ends hfinal =>
    refine .past hfinal ?_
    rw [hjournal]
    refine (hdivided.concat hshare).of_sublist (List.Sublist.trans ?_ hsublist)
    rw [hahead]
    exact (List.sublist_append_left _ _).append_left passed
  | proceeds =>
    have hdone : IsDivided policy.maxRetries (passed ++ [.work a]) begun.journal.reverse :=
      hjournal ▸ hdivided.concat hshare
    have hsame : passed ++ [.work a] ++ (begun.goTo more).ahead = passed ++ r.ahead := by
      rw [ahead_of_levels rfl, hahead, ← hacts.pending_eq, List.append_assoc]
      rfl
    exact .fresh rfl rfl hdone (by rwa [hsame])
  | @waits deadline delay hleft =>
    rw [hbegun] at hleft ⊢
    have hwaited : (Action.work a).IsVisit (r.retries + 1 + 0) (r.retries + 1)
      (share ++ [.waited node delay]) := hvisit.waited haction delay
    refine .visiting (.waiting deadline) haction hleft hdivided ?_ hwaited ?_
    · rw [List.reverse_cons, hjournal, List.append_assoc]
    · rwa [ahead_of_at (.waiting deadline) haction, hacts.pending_eq, ← hahead]

variable (host s) in
theorem Divides.step (h : r.Divides policy.maxRetries all) (hconducts : behaviour.Conducts) :
    (r.step host policy behaviour s).1.Divides policy.maxRetries all := by
  have hturn := step_turn host policy behaviour r s
  generalize r.step host policy behaviour s = after at hturn ⊢
  cases hturn with
  | rested | slept => exact h
  | completed | stopped => exact .past trivial h.isDivided
  | @resumed rest pending hphase hpending =>
    have hlevels : r.levels = [] :: r.pending := by simp [levels, hphase]
    cases h with
    | fresh _ hretries hdivided hsublist =>
      refine .fresh rfl hretries hdivided ?_
      rw [ahead_of_levels hlevels, hpending] at hsublist
      rwa [ahead_of_levels rfl, ← occurrencesOf_append]
    | visiting hat =>
      rw [hphase] at hat
      cases hat
    | past hfinal =>
      rw [hphase] at hfinal
      exact hfinal.elim
  | @closed node more hphase hterminal =>
    have hat : r.phase.At node more := hphase ▸ .ready
    cases h with
    | @fresh rest passed _ hretries hdivided hsublist =>
      refine .fresh rfl hretries hdivided (List.Sublist.trans ?_ hsublist)
      rw [ahead_of_levels rfl, ahead_of_levels (levels_of_at hat)]
      exact ((List.nil_sublist _).append_right _).append_left passed
    | visiting hat' haction =>
      rw [hphase] at hat'
      cases hat'
      cases hterminal.symm.trans haction
    | past hfinal => exact (hat.not_isFinal hfinal).elim
  | @acted node more begun x hacts =>
    obtain ⟨name, test, yes, no, chosen, haction, hchosen, hphase, hinserted⟩ |
      ⟨hsettles, hwork⟩ := hacts.conducted policy hconducts
    · rw [hinserted]
      exact h.chooses hphase haction hchosen
    · exact h.settles hacts hwork hsettles
  | @woke node more deadline hphase =>
    have hlevels : r.levels = (node :: more) :: r.pending := by simp [levels, hphase]
    cases h with
    | fresh hready => cases hphase.symm.trans hready
    | visiting hat haction hretries hdivided hjournal hvisit hsublist =>
      rw [underway, hphase] at hvisit
      rw [hphase] at hat
      cases hat
      refine .visiting .ready haction hretries hdivided hjournal hvisit ?_
      rw [ahead_of_levels hlevels] at hsublist
      rwa [ahead_of_levels rfl]
    | past hfinal =>
      rw [hphase] at hfinal
      exact hfinal.elim

end

end Run

/-! ## Whole runs -/

namespace Passage

variable [Retry.Seconds 𝕊] [Named α]
variable {host : Host 𝕊 σ} {policy : Retry.Policy 𝕊}
  {behaviour : Behaviour (Action π α) (Action π α) κ σ}
  {x : Passage (Run.step host policy behaviour)} {plan : Plan π α}

theorem divides (hstart : x.first = .start plan.build) (hconducts : behaviour.Conducts) (n : Nat) :
    (x.state n).Divides policy.maxRetries plan.occurrences := by
  induction n with
  | zero =>
    have hfirst : x.state 0 = .start plan.build := hstart
    rw [hfirst]
    exact Run.divides_start plan
  | succ n ih => exact ih.step host (x.found n) hconducts

/-- At any moment, what a run of a plan has done falls into a share for each of its actions. -/
theorem isDivided (hstart : x.first = .start plan.build) (hconducts : behaviour.Conducts)
    (n : Nat) : IsDivided policy.maxRetries plan.occurrences (x.state n).journal.reverse :=
  (x.divides hstart hconducts n).isDivided

end Passage

end Reconcile
