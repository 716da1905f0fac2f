import Reconcile.Proofs.Attempt.Streak
import Reconcile.Proofs.Event.Bookkeeping

/-!
# What attempts emit

What the actions of a reconciler do is not known, but if they emit events, they do it like
everybody else.  An account of the actions says what they emit (`Behaviour.Account`), and from it
follows what the steps of a run emit (`Run.emissions`), be they those of the reconciler or those
that emit the events of the lifecycle.

An attempt emits what its run emits.  Besides, it is counted when its chain has ended, before its
failure is reported (`Attempt.Speaks`).
-/

namespace Reconcile

variable {𝕊 α β κ ε : Type}

/-! ## What actions emit -/

/-- The record that an action which has paused is handing over. -/
def Progress.pending? (pending : κ → Option Record) : Progress α κ → Option Record
  | .paused activity => pending activity
  | .done _ => none

/-- What actions emit, as they start and as they go on. -/
structure Behaviour.Account (behaviour : Behaviour β α κ (Packet × World 𝕊 ε)) where
  /-- The record that an activity is handing over. -/
  pending : κ → Option Record
  started : β → Packet × World 𝕊 ε → List (Emission 𝕊 ε)
  resumed : κ → Packet × World 𝕊 ε → List (Emission 𝕊 ε)
  start : ∀ b s, Utters none s (started b s) ((behaviour.start b s).1.pending? pending)
    (behaviour.start b s).2
  resume : ∀ k s, Utters (pending k) s (resumed k s) ((behaviour.resume k s).1.pending? pending)
    (behaviour.resume k s).2

namespace Work

variable {custom : Behaviour β (Act β) κ (Packet × World 𝕊 ε)}

theorem pending_embed (pending : κ → Option Record) (pending' : Activity κ → Option Record)
    (h : ∀ k, pending' (.custom k) = pending k) (x : Progress (Act β) κ × Packet × World 𝕊 ε) :
    (embed x).1.pending? pending' = x.1.pending? pending := by
  obtain ⟨_ | _, s⟩ := x
  · exact h _
  · rfl

/-- What the actions of attempts emit. -/
def account (A : custom.Account) : (behaviour custom).Account where
  pending
    | .handing record => some record
    | .custom k => A.pending k
  started
    | .choice .., _ => []
    | .work (.event q), s => [⟨q, s.1, s.2⟩]
    | .work (.custom b), s => A.started b s
  resumed
    | .handing _, _ => []
    | .custom k, s => A.resumed k s
  start
    | .choice .., s => .refl _ s
    | .work (.custom b), s => by
      simp only [behaviour, embed_snd]
      rw [pending_embed A.pending _ fun _ => rfl]
      exact A.start b s
    | .work (.event q), (p, w) => by
      rcases hanswer : w.announce q p with ⟨answer, p', w'⟩
      simp only [behaviour, hanswer]
      match answer with
      | .error _ | .ok (.suppressed _) | .ok (.record _) => exact .of_announce hanswer
  resume
    | .handing record, s => .hand record
    | .custom k, s => by
      simp only [behaviour, embed_snd]
      rw [pending_embed A.pending _ fun _ => rfl]
      exact A.resume k s

end Work

/-! ## What a run emits -/

namespace Run

variable [Retry.Seconds 𝕊] [Named α] {behaviour : Behaviour α α κ (Packet × World 𝕊 ε)}
variable (A : behaviour.Account) (isCancelled : World 𝕊 ε → Bool) (policy : Retry.Policy 𝕊)

/-- The record that is being handed over. -/
def pendingRecord (r : Run α κ) : Option Record :=
  match r.phase with
  | .acting _ _ activity => A.pending activity
  | _ => none

/-- The calls that the next step makes. -/
def emissions (r : Run α κ) (s : Packet × World 𝕊 ε) : List (Emission 𝕊 ε) :=
  match r.phase with
  | .ready (node :: _) =>
    if isStopped (World.host isCancelled) node s then []
    else
      match node.action with
      | some action => A.started action s
      | none => []
  | .acting _ _ activity => A.resumed activity s
  | _ => []

/-- What follows the end of an action emits nothing. -/
theorem utters_follow (r : Run α κ) (node : Node α) (more : List (Node α))
    (result : Except Fault (Directive α)) {before : Option Record} {s s' : Packet × World 𝕊 ε}
    {log : List (Emission 𝕊 ε)} (h : Utters before s log none s') :
    Utters before s log
      ((r.follow (World.host isCancelled) policy node more result s').1.pendingRecord A)
      (r.follow (World.host isCancelled) policy node more result s').2 := by
  have hdrawn : ∀ w : World 𝕊 ε, w.SameBooks (w.raise .stepRetries).draw.2 :=
    fun w => (World.SameBooks.raise_stepRetries w).trans (.of_eq rfl rfl)
  match result with
  | .error _ | .ok .proceed | .ok (.insert _) | .ok (.branch _) | .ok .terminate => exact h
  | .ok (.retryAfter requested) =>
    simp only [follow, retry]
    split
    · exact h
    · split
      · exact h.thenSilent (hdrawn s'.2)
      · exact h.thenSilent (hdrawn s'.2)

theorem utters_progressed (r : Run α κ) (node : Node α) (more : List (Node α))
    {before : Option Record} {s : Packet × World 𝕊 ε} {log : List (Emission 𝕊 ε)}
    {x : Progress α κ × Packet × World 𝕊 ε}
    (h : Utters before s log (x.1.pending? A.pending) x.2) :
    Utters before s log
      ((r.progressed (World.host isCancelled) policy node more x).1.pendingRecord A)
      (r.progressed (World.host isCancelled) policy node more x).2 := by
  obtain ⟨_ | result, s'⟩ := x
  · exact h
  · exact utters_follow A isCancelled policy r node more result h

/-- A step of a run emits what it is said to emit. -/
theorem utters_step (r : Run α κ) (s : Packet × World 𝕊 ε) :
    Utters (r.pendingRecord A) s (r.emissions A isCancelled s)
      ((r.step (World.host isCancelled) policy behaviour s).1.pendingRecord A)
      (r.step (World.host isCancelled) policy behaviour s).2 := by
  obtain ⟨retries, pending, phase, journal⟩ := r
  cases phase with
  | ready rest =>
    cases rest with
    | nil => cases pending <;> exact .refl _ s
    | cons node more =>
      simp only [pendingRecord, emissions, step]
      split
      · exact .refl _ s
      · cases node.action with
        | none => exact .refl _ s
        | some action => exact utters_progressed A isCancelled policy _ node more (A.start action s)
  | acting node more activity =>
    exact utters_progressed A isCancelled policy _ node more (A.resume activity s)
  | waiting node more deadline =>
    simp only [step]
    split
    · exact .refl _ s
    · split <;> exact .refl _ s
  | ended | crashed => exact .refl _ s

end Run

/-! ## What an attempt emits -/

namespace Attempt

variable {custom : Behaviour β (Act β) κ (Packet × World 𝕊 ε)} (A : custom.Account)

/-- The record that is being handed over. -/
def pendingRecord (a : Attempt β κ) : Option Record :=
  match a.stage with
  | .running _ _ run | .reporting _ _ _ run => run.pendingRecord (Work.account A)
  | _ => none

/-- How the attempt is counted, once its chain has ended. -/
def label? (a : Attempt β κ) : Option AttemptResult := a.decided?.map .of

/-- Whether no delay could be computed. -/
def HasCrashed (a : Attempt β κ) : Prop := a.stage = .crashed

variable [Retry.Seconds 𝕊] [Named β] (p : Processor 𝕊 β)

/-- The calls that the next step makes. -/
def emissions (a : Attempt β κ) (w : World 𝕊 ε) : List (Emission 𝕊 ε) :=
  match a.stage with
  | .running g packet run | .reporting g packet _ run =>
    run.emissions (Work.account A) (fun w => (w.registry p.registry).isCancelled g.token)
      (packet, w)
  | _ => []

/-- What an attempt does to the books with a step. -/
inductive Speaks (a : Attempt β κ) (w : World 𝕊 ε) (log : List (Emission 𝕊 ε)) :
    Attempt β κ × World 𝕊 ε → Prop
  | goesOn {a' : Attempt β κ} {w' : World 𝕊 ε} {packet packet' : Packet} :
      Utters (a.pendingRecord A) (packet, w) log (a'.pendingRecord A) (packet', w') →
      a'.label? = a.label? → Speaks a w log (a', w')
  /-- Its chain has ended, and it is counted. -/
  | concludes {a' : Attempt β κ} {w' : World 𝕊 ε} {r : AttemptResult} :
      a.pendingRecord A = none → a'.pendingRecord A = none → log = [] → a.label? = none →
      a'.label? = some r →
      World.SameBooks { w with counters := w.counters.raiseAttempt r } w' →
      Speaks a w log (a', w')
  | crashes {a' : Attempt β κ} {w' : World 𝕊 ε} : a'.HasCrashed → Speaks a w log (a', w')

omit [Retry.Seconds 𝕊] [Named β] in
theorem conclude_speaks (m : MakeRight β) (g : Guard) (packet : Packet)
    {run : Run (Act β) (Activity κ)} {result : Except Fault Outcome}
    (hphase : run.phase = .ended result) (w : World 𝕊 ε) :
    Speaks A ⟨m, .running g packet run⟩ w []
      (conclude p ⟨m, .running g packet run⟩ g packet result w) := by
  have hpending : pendingRecord A (⟨m, .running g packet run⟩ : Attempt β κ) = none := by
    simp only [pendingRecord, Run.pendingRecord, hphase]
  match result with
  | .ok .completed | .ok .terminated | .ok .cancelled =>
    exact .concludes hpending rfl rfl rfl rfl (.of_eq rfl rfl)
  | .error fault =>
    simp only [conclude]
    split
    · exact .concludes hpending rfl rfl rfl rfl (.of_eq rfl rfl)
    · exact .concludes hpending rfl rfl rfl rfl (.of_eq rfl rfl)

/-- A step of an attempt emits what it is said to emit, and counts the attempt if its chain has
ended. -/
theorem step_speaks (a : Attempt β κ) (w : World 𝕊 ε) :
    Speaks A a w (a.emissions A p w) (a.step p custom w) := by
  obtain ⟨m, stage⟩ := a
  cases stage with
  | prepared =>
    have hregistered : Utters none (Packet.empty, w) [] none
        (Packet.empty, ((⟨m, .prepared⟩ : Attempt β κ).register p w).2) := .silent (.of_eq rfl rfl)
    exact .goesOn hregistered rfl
  | running g packet run =>
    simp only [emissions, step]
    split
    case h_1 result hphase =>
      have hnone : run.emissions (Work.account A)
          (fun w => (w.registry p.registry).isCancelled g.token) (packet, w) = [] := by
        simp only [Run.emissions, hphase]
      rw [hnone]
      exact conclude_speaks A p m g packet hphase w
    case h_2 => exact .crashes rfl
    case h_3 => exact .goesOn (Run.utters_step (Work.account A) _ p.policy run (packet, w)) rfl
  | reporting g packet fault run =>
    simp only [emissions, step]
    split
    case h_1 result hphase =>
      -- The attempt has been counted when the report began.
      have hquiet : Utters (run.pendingRecord (Work.account A)) (packet, w)
          (run.emissions (Work.account A)
            (fun w => (w.registry p.registry).isCancelled g.token) (packet, w))
          none (packet, p.release g w) := by
        simp only [Run.pendingRecord, Run.emissions, hphase]
        exact .silent (.of_eq rfl rfl)
      exact .goesOn hquiet rfl
    case h_2 => exact .crashes rfl
    case h_3 => exact .goesOn (Run.utters_step (Work.account A) _ p.policy run (packet, w)) rfl
  | ended packet result => exact .goesOn (.refl none (packet, w)) rfl
  | crashed => exact .crashes rfl

end Attempt

end Reconcile
