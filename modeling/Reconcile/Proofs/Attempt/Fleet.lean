import Reconcile.Proofs.Attempt.Change
import Reconcile.Proofs.Attempt.Succession
import Reconcile.Proofs.Data.Places
import Reconcile.Proofs.Step.Plans

/-!
# Attempts side by side

A fleet is any number of attempts of one processor that share a world.  A move launches an
attempt, advances one by a step, cancels the attempt in flight of a domain, or changes the
world in some way that spares the registry of the processor (`Fleet.Move`).  An action that
itself cancels or begins attempts pauses, and these are moves of their own.

The history of a fleet is read off the attempts: an attempt has begun when it has received its
guard, it has started what its journal says, and it has reported the record it was handing over.

The main statement is that whoever starts a step that is not critical is the attempt begun last
on its domain, and not cancelled.  It follows from the invariant `Fleet.Orderly`, which joins the
succession of the guards to what the attempts are doing.
-/

namespace Reconcile

variable {𝕊 β κ ε : Type}

/-! ## The history of an attempt -/

namespace Occurrence

/-- Whether the occurrence is the start of a step by an attempt. -/
def IsStartBy (i : Nat) : Occurrence β → Prop
  | started j _ => j = i
  | _ => False

/-- The occurrence that an entry of a journal stands for. -/
def ofEntry (i : Nat) : Entry (Act β) → Option (Occurrence β)
  | .invoked node => some (started i node)
  | .waited .. => none

end Occurrence

namespace Attempt

/-- The records that the next step of an attempt hands over. -/
def reports (i : Nat) (a : Attempt β κ) : List (Occurrence β) :=
  match a.run? with
  | some ⟨_, _, .acting node _ (.handing record), _⟩ => [.reported i node record]
  | _ => []

/-- The steps that an attempt has started since it was another one. -/
def starts (i : Nat) (before after : Attempt β κ) : List (Occurrence β) :=
  match before.run?, after.run? with
  | some run, some run' => (run.news run').filterMap (Occurrence.ofEntry i)
  | _, _ => []

/-- Whether an attempt has begun since it was another one. -/
def begins (i : Nat) (before after : Attempt β κ) : List (Occurrence β) :=
  match before.guard?, after.guard? with
  | none, some g => [.began i g.uid]
  | _, _ => []

/-- What has happened to an attempt since it was another one, latest first. -/
def occurrences (i : Nat) (before after : Attempt β κ) : List (Occurrence β) :=
  starts i before after ++ before.reports i ++ begins i before after

end Attempt

/-! ## The fleet -/

/-- Attempts, known by their number, in a shared world, and what has happened, latest first. -/
structure Fleet (𝕊 β κ ε : Type) where
  attempts : List (Attempt β κ)
  world : World 𝕊 ε
  history : List (Occurrence β)

namespace Fleet

/-- The guards that the attempts hold. -/
def guards (f : Fleet 𝕊 β κ ε) (i : Nat) : Option Guard := f.attempts[i]?.bind Attempt.guard?

/-- Adds an attempt at an operation. -/
def launch (f : Fleet 𝕊 β κ ε) (m : MakeRight β) : Fleet 𝕊 β κ ε :=
  { f with attempts := f.attempts ++ [.prepare m] }

/-- Cancels the attempt in flight of a domain. -/
def cancel (p : Processor 𝕊 β) (f : Fleet 𝕊 β κ ε) (uid : String) : Fleet 𝕊 β κ ε :=
  { f with world := (p.cancel uid f.world).2, history := .cancelled uid :: f.history }

variable [Retry.Seconds 𝕊] [Named β]
variable (p : Processor 𝕊 β) (custom : Behaviour β (Act β) κ (Packet × World 𝕊 ε))

/-- Advances one of the attempts by a step. -/
def advance (f : Fleet 𝕊 β κ ε) (i : Nat) : Fleet 𝕊 β κ ε :=
  match f.attempts[i]? with
  | none => f
  | some a =>
    let (a', w) := a.step p custom f.world
    ⟨f.attempts.set i a', w, a.occurrences i a' ++ f.history⟩

/-- What can happen to a fleet. -/
inductive Move (f : Fleet 𝕊 β κ ε) : Fleet 𝕊 β κ ε → Prop
  | launch (m : MakeRight β) : Move f (f.launch m)
  | advance (i : Nat) : Move f (f.advance p custom i)
  | cancel (uid : String) : Move f (f.cancel p uid)
  | elapse {w : World 𝕊 ε} : f.world.Spares p.registry w → Move f { f with world := w }

/-- The fleets that come about from a world without attempts. -/
inductive Reachable : Fleet 𝕊 β κ ε → Prop
  | initial {w : World 𝕊 ε} : (∀ uid, (w.registry p.registry).isInFlight uid = false) →
      Reachable ⟨[], w, []⟩
  | move {f f' : Fleet 𝕊 β κ ε} : Reachable f → Move p custom f f' → Reachable f'

end Fleet

/-! ## Justified histories -/

/-- The step is the one that the attempt has started last. -/
def StartedLast (history : List (Occurrence β)) (i : Nat) (node : Node (Act β)) : Prop :=
  ∃ later earlier, history = later ++ .started i node :: earlier ∧
    ∀ e ∈ later, ¬ e.IsStartBy i

theorem StartedLast.append {history es : List (Occurrence β)} {i : Nat} {node : Node (Act β)}
    (h : StartedLast history i node) (hes : ∀ e ∈ es, ¬ e.IsStartBy i) :
    StartedLast (es ++ history) i node := by
  obtain ⟨later, earlier, rfl, hlater⟩ := h
  refine ⟨es ++ later, earlier, (List.append_assoc ..).symm, fun e he => ?_⟩
  exact (List.mem_append.1 he).elim (hes e) (hlater e)

/-- What must have gone before an occurrence.  A step that is not critical is only started by
whoever is current, and what is reported comes from the step under way. -/
def Occurrence.IsJustified (earlier : List (Occurrence β)) : Occurrence β → Prop
  | .started i node => node.critical = false → ∃ uid, IsCurrent earlier i uid
  | .reported i node _ => StartedLast earlier i node
  | .began .. => True
  | .cancelled _ => True

/-- Every occurrence was justified when it took place. -/
def Justified : List (Occurrence β) → Prop
  | [] => True
  | e :: earlier => e.IsJustified earlier ∧ Justified earlier

theorem Justified.split {later earlier : List (Occurrence β)} {e : Occurrence β}
    (h : Justified (later ++ e :: earlier)) : e.IsJustified earlier ∧ Justified earlier := by
  induction later with
  | nil => exact h
  | cons _ later ih => exact ih h.2

/-! ## What an attempt contributes -/

namespace Attempt

variable {a a' : Attempt β κ} {run run' : Run (Act β) (Activity κ)} {i : Nat}
  {history : List (Occurrence β)}

theorem reports_of_between (hrun : a.run? = some run) (hbetween : ∀ node, ¬ run.IsIn node) :
    a.reports i = [] := by
  obtain ⟨retries, pending, phase, journal⟩ := run
  unfold reports
  rw [hrun]
  split
  case h_1 hacting =>
    rw [Option.some.injEq, Run.mk.injEq] at hacting
    exact (hbetween _ ⟨_, _, hacting.2.2.1⟩).elim
  case h_2 => rfl

theorem occurrences_of_begun {g : Guard} (hguard : a.guard? = none) (hrun : a.run? = none)
    (hguard' : a'.guard? = some g) : a.occurrences i a' = [.began i g.uid] := by
  simp [occurrences, starts, reports, begins, hguard, hrun, hguard']

theorem occurrences_of_stepped {g : Guard} (hguard : a.guard? = some g)
    (hrun : a.run? = some run) (hrun' : a'.run? = some run') :
    a.occurrences i a' = (run.news run').filterMap (Occurrence.ofEntry i) ++ a.reports i := by
  simp [occurrences, starts, begins, hguard, hrun, hrun']

theorem occurrences_of_turned {g : Guard} (hguard : a.guard? = some g)
    (hrun : a.run? = some run) (hbetween : ∀ node, ¬ run.IsIn node)
    (hrun' : a'.run? = some run') (hjournal : run'.journal = []) : a.occurrences i a' = [] := by
  rw [occurrences_of_stepped hguard hrun hrun', reports_of_between hrun hbetween]
  simp [Run.news, hjournal]

theorem occurrences_of_released {g : Guard} (hguard : a.guard? = some g)
    (hrun : a.run? = some run) (hbetween : ∀ node, ¬ run.IsIn node) (hrun' : a'.run? = none) :
    a.occurrences i a' = [] := by
  simp [occurrences, starts, begins, hguard, hrun, hrun', reports_of_between hrun hbetween]

theorem occurrences_of_idle (hguard : a.guard? = none) (hrun : a.run? = none) :
    a.occurrences i a = [] := by
  simp [occurrences, starts, reports, begins, hguard, hrun]

theorem eq_reported_of_mem {e : Occurrence β} (he : e ∈ a.reports i) :
    ∃ node record, e = .reported i node record := by
  unfold reports at he
  split at he
  · exact ⟨_, _, List.mem_singleton.1 he⟩
  · cases he

theorem eq_started_of_mem {e : Occurrence β} {es : List (Entry (Act β))}
    (he : e ∈ es.filterMap (Occurrence.ofEntry i)) :
    ∃ node, .invoked node ∈ es ∧ e = .started i node := by
  obtain ⟨entry, hentry, hof⟩ := List.mem_filterMap.1 he
  cases entry with
  | invoked node => exact ⟨node, hentry, (Option.some.inj hof).symm⟩
  | waited node delay => cases hof

theorem justified_reports
    (hacting : ∀ node, run.IsIn node → StartedLast history i node) (hrun : a.run? = some run)
    (h : Justified history) : Justified (a.reports i ++ history) := by
  unfold reports
  split
  case h_1 node more record _ hphase =>
    rw [hrun, Option.some.injEq] at hphase
    exact ⟨hacting node (hphase ▸ ⟨_, _, rfl⟩), h⟩
  case h_2 => exact h

theorem justified_starts {es : List (Entry (Act β))}
    (hcurrent : ∀ node, .invoked node ∈ es → node.critical = false →
      ∃ uid, IsCurrent history i uid)
    (h : Justified history) : Justified (es.filterMap (Occurrence.ofEntry i) ++ history) := by
  induction es with
  | nil => exact h
  | cons entry es ih =>
    have hrest := ih fun node hnode => hcurrent node (List.mem_cons_of_mem _ hnode)
    cases entry with
    | waited node delay => exact hrest
    | invoked node =>
      refine ⟨fun hcritical => ?_, hrest⟩
      obtain ⟨uid, hcurrent⟩ := hcurrent node List.mem_cons_self hcritical
      refine ⟨uid, hcurrent.append fun e he => ?_⟩
      obtain ⟨_, -, rfl⟩ := eq_started_of_mem he
      exact id

end Attempt

/-! ## The invariant -/

namespace Fleet

theorem guards_launch (f : Fleet 𝕊 β κ ε) (m : MakeRight β) (i : Nat) :
    (f.launch m).guards i = f.guards i := by
  simp only [guards, launch, List.getElem?_append]
  split
  · rfl
  case isFalse hlength =>
    rw [List.getElem?_eq_none (Nat.le_of_not_lt hlength)]
    rcases hindex : i - f.attempts.length with _ | n <;> rfl

/-- The guards, the registry and the history are in agreement, and so are the attempts with
what the history says about them. -/
structure Orderly (p : Processor 𝕊 β) (f : Fleet 𝕊 β κ ε) : Prop where
  succession : Succession f.guards (f.world.registry p.registry) f.world.nextAttempt f.history
  /-- Attempts begin on their own domain. -/
  begun : ∀ {i uid}, .began i uid ∈ f.history →
    ∃ a, f.attempts[i]? = some a ∧ a.operation.domain.uid = uid
  /-- An attempt in an action has started it last. -/
  acting : ∀ {i a run node}, f.attempts[i]? = some a → a.run? = some run → run.IsIn node →
    StartedLast f.history i node
  justified : Justified f.history

namespace Orderly

variable {p : Processor 𝕊 β} {f : Fleet 𝕊 β κ ε}

theorem initial {w : World 𝕊 ε} (hidle : ∀ uid, (w.registry p.registry).isInFlight uid = false) :
    Orderly p (⟨[], w, []⟩ : Fleet 𝕊 β κ ε) where
  succession := .initial (fun _ => rfl) hidle
  begun h := nomatch h
  acting h := nomatch h
  justified := trivial

theorem launch (h : Orderly p f) (m : MakeRight β) : Orderly p (f.launch m) where
  succession := h.succession.spare (guards_launch f m) rfl rfl (Nat.le_refl _) [] (by simp)
  begun hbegan := by
    obtain ⟨a, hattempt, huid⟩ := h.begun hbegan
    have hlength := (List.getElem?_eq_some_iff.1 hattempt).1
    exact ⟨a, (List.getElem?_append_left hlength).trans hattempt, huid⟩
  acting {i a run node} hattempt hrun hin := by
    rcases Places.eq_or_of_join hattempt with hold | ⟨-, hnew⟩
    · exact h.acting hold hrun hin
    · rw [hnew] at hrun
      cases hrun
  justified := h.justified

theorem cancel (h : Orderly p f) (uid : String) : Orderly p (f.cancel p uid) where
  succession := by
    have hregistry : ((p.cancel uid f.world).2).registry p.registry =
        ((f.world.registry p.registry).cancel uid).2 :=
      (World.registry_setRegistry f.world p.registry p.registry _).trans (if_pos rfl)
    rw [Fleet.cancel, hregistry]
    exact h.succession.cancel
  begun hbegan := h.begun (by simpa [Fleet.cancel] using hbegan)
  acting {i a run node} hattempt hrun hin := by
    have hother : ∀ e ∈ [Occurrence.cancelled (β := β) uid], ¬ e.IsStartBy i := by
      simp [Occurrence.IsStartBy]
    exact (h.acting hattempt hrun hin).append hother
  justified := ⟨trivial, h.justified⟩

theorem elapse (h : Orderly p f) {w : World 𝕊 ε} (hspares : f.world.Spares p.registry w) :
    Orderly p { f with world := w } where
  succession := h.succession.spare (fun _ => rfl) hspares.inFlight hspares.cancelled
    hspares.nextAttempt [] (by simp)
  begun := h.begun
  acting := h.acting
  justified := h.justified

/-! ### One attempt moves on -/

section

variable {i : Nat} {a a' : Attempt β κ} {w : World 𝕊 ε} {es : List (Occurrence β)}

/-- What the other attempts need from the attempt that moves on. -/
theorem replace (h : Orderly p f) (hattempt : f.attempts[i]? = some a)
    (hoperation : a'.operation = a.operation)
    (hsucc : Succession (⟨f.attempts.set i a', w, es ++ f.history⟩ : Fleet 𝕊 β κ ε).guards
      (w.registry p.registry) w.nextAttempt (es ++ f.history))
    (hbegun : ∀ j uid, .began j uid ∈ es → j = i ∧ uid = a.operation.domain.uid)
    (hstarted : ∀ j node, .started j node ∈ es → j = i)
    (hacting : ∀ run node, a'.run? = some run → run.IsIn node →
      StartedLast (es ++ f.history) i node)
    (hjustified : Justified (es ++ f.history)) :
    Orderly p ⟨f.attempts.set i a', w, es ++ f.history⟩ where
  succession := hsucc
  begun {j uid} hbegan := by
    rcases List.mem_append.1 hbegan with hnew | hold
    · obtain ⟨rfl, rfl⟩ := hbegun j uid hnew
      have hlength := (List.getElem?_eq_some_iff.1 hattempt).1
      exact ⟨a', List.getElem?_set_self hlength, by rw [hoperation]⟩
    · obtain ⟨b, hother, huid⟩ := h.begun hold
      rcases Places.replaced_or_kept hattempt hother a' with ⟨-, rfl, hown⟩ | ⟨-, hkept⟩
      · exact ⟨a', hown, by rw [hoperation, huid]⟩
      · exact ⟨b, hkept, huid⟩
  acting {j b run node} hother hrun hin := by
    rcases Places.eq_or_of_replace hother with ⟨rfl, rfl⟩ | ⟨hj, hother⟩
    · exact hacting run node hrun hin
    · refine (h.acting hother hrun hin).append fun e he => ?_
      cases e with
      | started k node' => exact fun hk => hj (hk.symm.trans (hstarted k node' he))
      | began | cancelled | reported => exact id
  justified := hjustified

/-- The guards after one of the attempts has been replaced. -/
theorem guards_replace (hattempt : f.attempts[i]? = some a) :
    (⟨f.attempts.set i a', w, es⟩ : Fleet 𝕊 β κ ε).guards i = a'.guard? ∧
      ∀ j, j ≠ i → (⟨f.attempts.set i a', w, es⟩ : Fleet 𝕊 β κ ε).guards j = f.guards j := by
  have hlength := (List.getElem?_eq_some_iff.1 hattempt).1
  refine ⟨?_, fun j hj => ?_⟩
  · simp [guards, List.getElem?_set_self hlength]
  · simp [guards, List.getElem?_set_ne (Ne.symm hj)]

/-- An attempt that keeps its guard leaves all guards as they are. -/
theorem guards_of_kept (hattempt : f.attempts[i]? = some a) {g : Guard}
    (hguard : a.guard? = some g) (hguard' : a'.guard? = some g) (j : Nat) :
    (⟨f.attempts.set i a', w, es⟩ : Fleet 𝕊 β κ ε).guards j = f.guards j := by
  by_cases hj : j = i
  · subst hj
    rw [(guards_replace hattempt).1, hguard']
    simp [guards, hattempt, hguard]
  · exact (guards_replace hattempt).2 j hj

theorem begun_replace (h : Orderly p f) (hattempt : f.attempts[i]? = some a)
    {run : Run (Act β) (Activity κ)} (hoperation : a'.operation = a.operation)
    (hguard : a.guard? = none)
    (hguard' : a'.guard? = some
      ((f.world.registry p.registry).begin a.operation.domain.uid f.world.nextAttempt).1)
    (hrun' : a'.run? = some run) (hbetween : ∀ node, ¬ run.IsIn node)
    (hregistry : w.registry p.registry =
      ((f.world.registry p.registry).begin a.operation.domain.uid f.world.nextAttempt).2)
    (hnext : w.nextAttempt = f.world.nextAttempt + 1) :
    Orderly p ⟨f.attempts.set i a', w, [.began i a.operation.domain.uid] ++ f.history⟩ := by
  have hfresh : f.guards i = none := by simp [guards, hattempt, hguard]
  refine h.replace hattempt hoperation ?_ ?_ ?_ ?_ ⟨trivial, h.justified⟩
  · rw [hregistry, hnext]
    exact h.succession.begin hfresh ((guards_replace hattempt).1.trans hguard')
      (guards_replace hattempt).2
  · intro j uid hbegan
    simpa using hbegan
  · intro j node hstarted
    simp at hstarted
  · intro run' node hrun hin
    rw [hrun', Option.some.injEq] at hrun
    exact (hbetween node (hrun ▸ hin)).elim

theorem turned_replace (h : Orderly p f) (hattempt : f.attempts[i]? = some a) {g : Guard}
    {run' : Run (Act β) (Activity κ)} (hoperation : a'.operation = a.operation)
    (hguard : a.guard? = some g) (hguard' : a'.guard? = some g) (hrun' : a'.run? = some run')
    (hbetween' : ∀ node, ¬ run'.IsIn node) (hspares : f.world.Spares p.registry w) :
    Orderly p ⟨f.attempts.set i a', w, [] ++ f.history⟩ := by
  refine h.replace hattempt hoperation ?_ (by simp) (by simp) ?_ h.justified
  · exact h.succession.spare (guards_of_kept hattempt hguard hguard') hspares.inFlight
      hspares.cancelled hspares.nextAttempt [] (by simp)
  · intro run node hrun hin
    rw [hrun', Option.some.injEq] at hrun
    exact (hbetween' node (hrun ▸ hin)).elim

theorem released_replace (h : Orderly p f) (hattempt : f.attempts[i]? = some a) {g : Guard}
    (hoperation : a'.operation = a.operation) (hguard : a.guard? = some g)
    (hguard' : a'.guard? = none) (hrun' : a'.run? = none)
    (hspares : f.world.Spares p.registry w) :
    Orderly p ⟨f.attempts.set i a', p.release g w, [] ++ f.history⟩ := by
  refine h.replace hattempt hoperation ?_ (by simp) (by simp) ?_ h.justified
  · have hregistry : (p.release g w).registry p.registry = (w.registry p.registry).release g :=
      (World.registry_setRegistry w p.registry p.registry _).trans (if_pos rfl)
    have hspared : Succession f.guards (w.registry p.registry) w.nextAttempt f.history :=
      h.succession.spare (fun _ => rfl) hspares.inFlight hspares.cancelled
        hspares.nextAttempt [] (by simp)
    have hown : f.guards i = some g := by simp [guards, hattempt, hguard]
    rw [hregistry]
    exact hspared.release hown ((guards_replace hattempt).1.trans hguard')
      (guards_replace hattempt).2
  · intro run node hrun
    rw [hrun'] at hrun
    cases hrun

variable [Retry.Seconds 𝕊] [Named β] {custom : Behaviour β (Act β) κ (Packet × World 𝕊 ε)}

theorem stepped_replace (h : Orderly p f) (hcustom : custom.Spares p.registry)
    (hattempt : f.attempts[i]? = some a) {g : Guard} {packet : Packet}
    {run : Run (Act β) (Activity κ)} (hoperation : a'.operation = a.operation)
    (hguard : a.guard? = some g) (hrun : a.run? = some run) (hguard' : a'.guard? = some g)
    (hrun' : a'.run? =
      some (run.step (p.host g) p.policy (Work.behaviour custom) (packet, f.world)).1) :
    Orderly p ⟨f.attempts.set i a',
      (run.step (p.host g) p.policy (Work.behaviour custom) (packet, f.world)).2.2,
      a.occurrences i a' ++ f.history⟩ := by
  have hspares := Work.step_spares hcustom p g run (packet, f.world)
  obtain ⟨entries, hjournal, hlooked⟩ :=
    Run.step_journal (p.host g) p.policy (Work.behaviour custom) run (packet, f.world)
  rw [Attempt.occurrences_of_stepped hguard hrun hrun', Run.news_of_append hjournal]
  have hown : f.guards i = some g := by simp [guards, hattempt, hguard]
  have hin : ∀ node, run.IsIn node → StartedLast f.history i node :=
    fun node hin => h.acting hattempt hrun hin
  -- What is reported, and what is started after it.
  have hreported : Justified (a.reports i ++ f.history) :=
    Attempt.justified_reports hin hrun h.justified
  have hcurrent : ∀ node, .invoked node ∈ entries → node.critical = false →
      ∃ uid, IsCurrent (a.reports i ++ f.history) i uid := by
    intro node hnode hcritical
    have hlive : (f.world.registry p.registry).isCancelled g.token = false := by
      have hstopped := hlooked node hnode
      rw [Run.isStopped, hcritical] at hstopped
      exact hstopped
    refine ⟨g.uid, (h.succession.current hown hlive).1.append fun e he => ?_⟩
    obtain ⟨_, _, rfl⟩ := Attempt.eq_reported_of_mem he
    exact id
  have hkind : ∀ e ∈ entries.filterMap (Occurrence.ofEntry i) ++ a.reports i,
      (∃ node, e = .started i node) ∨ ∃ node record, e = .reported i node record := by
    intro e he
    rcases List.mem_append.1 he with hstart | hreport
    · obtain ⟨node, -, rfl⟩ := Attempt.eq_started_of_mem hstart
      exact .inl ⟨node, rfl⟩
    · exact .inr (Attempt.eq_reported_of_mem hreport)
  refine h.replace hattempt hoperation ?succession ?began ?started ?acting ?justified
  case succession =>
    refine h.succession.spare (guards_of_kept hattempt hguard hguard') hspares.inFlight
      hspares.cancelled hspares.nextAttempt _ fun uid e he => ?_
    rcases hkind e he with ⟨_, rfl⟩ | ⟨_, _, rfl⟩ <;> exact id
  case began =>
    intro j uid hbegan
    rcases hkind _ hbegan with ⟨_, hstart⟩ | ⟨_, _, hreport⟩
    · cases hstart
    · cases hreport
  case started =>
    intro j node hstarted
    rcases hkind _ hstarted with ⟨_, hstart⟩ | ⟨_, _, hreport⟩
    · injection hstart
    · cases hreport
  case acting =>
    -- The attempt has just started the step it is in, or it was in the step before.
    intro run' node hafter hnode
    rw [hrun', Option.some.injEq] at hafter
    subst hafter
    have hquiet : ∀ e ∈ a.reports i, ¬ e.IsStartBy i := by
      intro e he
      obtain ⟨_, _, rfl⟩ := Attempt.eq_reported_of_mem he
      exact id
    rcases Run.step_isIn hnode with hstart | ⟨hsame, hbefore⟩
    · obtain rfl : entries = [.invoked node] :=
        List.append_cancel_right (hjournal.symm.trans hstart)
      exact ⟨[], a.reports i ++ f.history, rfl, by simp⟩
    · obtain rfl : entries = [] := List.append_cancel_right (hjournal.symm.trans hsame)
      exact (hin node hbefore).append hquiet
  case justified =>
    rw [List.append_assoc]
    exact Attempt.justified_starts hcurrent hreported

theorem advance (h : Orderly p f) (hcustom : custom.Spares p.registry) (i : Nat) :
    Orderly p (f.advance p custom i) := by
  unfold Fleet.advance
  cases hattempt : f.attempts[i]? with
  | none => exact h
  | some a =>
    have hoperation := a.step_operation p custom f.world
    have hchange := a.step_change p custom f.world
    simp only
    generalize a.step p custom f.world = after at hoperation hchange ⊢
    cases hchange with
    | begun hguard hrun hguard' hrun' hbetween hregistry hnext =>
      rw [Attempt.occurrences_of_begun hguard hrun hguard']
      exact h.begun_replace hattempt hoperation hguard hguard' hrun' hbetween hregistry hnext
    | stepped hguard hrun hguard' hrun' =>
      exact h.stepped_replace hcustom hattempt hoperation hguard hrun hguard' hrun'
    | turned hguard hrun hbetween hguard' hrun' hjournal hbetween' hspares =>
      rw [Attempt.occurrences_of_turned hguard hrun hbetween hrun' hjournal]
      exact h.turned_replace hattempt hoperation hguard hguard' hrun' hbetween' hspares
    | released hguard hrun hbetween hguard' hrun' hspares =>
      rw [Attempt.occurrences_of_released hguard hrun hbetween hrun']
      exact h.released_replace hattempt hoperation hguard hguard' hrun' hspares
    | idle hguard hrun =>
      have hsame : f.attempts.set i a = f.attempts := by
        obtain ⟨_, rfl⟩ := List.getElem?_eq_some_iff.1 hattempt
        exact List.set_getElem_self _
      rw [Attempt.occurrences_of_idle hguard hrun, hsame]
      exact h

end

/-- A move keeps a fleet orderly. -/
theorem move [Retry.Seconds 𝕊] [Named β] {custom : Behaviour β (Act β) κ (Packet × World 𝕊 ε)}
    {f' : Fleet 𝕊 β κ ε} (h : Orderly p f) (hcustom : custom.Spares p.registry)
    (hmove : Move p custom f f') : Orderly p f' := by
  cases hmove with
  | launch m => exact h.launch m
  | advance i => exact h.advance hcustom i
  | cancel uid => exact h.cancel uid
  | elapse hspares => exact h.elapse hspares

end Orderly

end Fleet

/-! ## The last step of an operation -/

theorem Chain.getLast?_splice {α : Type} (ns : List (Node α)) (n : Node α) :
    (splice (ns ++ [n])).getLast? = some n := by
  rw [splice_concat, List.getLast?_concat]

theorem Chain.getLast?_concat {α : Type} (cs : List (Chain α)) (n : Node α) :
    (concat (cs ++ [⟨n, []⟩])).nodes.getLast? = some n := by
  have hlast : (splice (cs.flatMap nodes ++ [n])).getLast? = some n := getLast?_splice _ n
  rw [concat, List.flatMap_append]
  change (ofNodes (splice (cs.flatMap nodes ++ [n]))).nodes.getLast? = some n
  cases hnodes : splice (cs.flatMap nodes ++ [n]) with
  | nil => rw [hnodes] at hlast; cases hlast
  | cons m rest => rw [nodes_ofNodes_cons, ← hnodes]; exact hlast

namespace Fleet

section

variable [Retry.Seconds 𝕊] [Named β]
variable {p : Processor 𝕊 β} {custom : Behaviour β (Act β) κ (Packet × World 𝕊 ε)}
  {f : Fleet 𝕊 β κ ε}

theorem Reachable.foldl_advance (hreach : Reachable p custom f) (is : List Nat) :
    Reachable p custom (is.foldl (fun f i => f.advance p custom i) f) := by
  induction is generalizing f with
  | nil => exact hreach
  | cons i is ih => exact ih (hreach.move (.advance i))

end

end Fleet

/-! ### A handover -/

namespace Handover

instance : Named Empty where
  name action := nomatch action

/-- There are no actions but those that emit events. -/
def behaviour : Behaviour Empty (Act Empty) Empty (Packet × World Rat Unit) where
  start action := nomatch action
  resume activity := nomatch activity

/-- A processor whose body does nothing. -/
def processor : Processor Rat Empty := ⟨⟨3, .ofMillis 2, .ofSeconds 1, 2⟩, 5, 0, fun _ => .chain []⟩

/-- A world in which nothing has happened. -/
def world : World Rat Unit where
  identity := ⟨some "operators", some "pod"⟩
  outbox := .empty fun _ => false
  counters := default
  declined := []
  registries := ∅
  nextAttempt := 0
  now := 0
  spread _ := 1
  draws := 0
  timerFirst := true
  extra := ()

/-- Two attempts on one domain.  Both begin before the older one does anything else. -/
def fleet : Fleet Rat Empty Empty Unit :=
  let operation : MakeRight Empty := .of (.named "uid" "ns")
  let launched : Fleet Rat Empty Empty Unit :=
    ((⟨[], world, []⟩ : Fleet Rat Empty Empty Unit).launch operation).launch operation
  [0, 1, 0, 0, 1, 1, 1, 1, 1, 1].foldl (fun f i => f.advance processor behaviour i) launched

/-- The step that reports the completion. -/
def completing : Node (Act Empty) := ⟨some (.work (.event (.of .processingCompleted))), false⟩

theorem reachable : Fleet.Reachable processor behaviour fleet := by
  refine .foldl_advance (.move (.move (.initial fun _ => rfl) (.launch _)) (.launch _)) _

end Handover

end Reconcile
