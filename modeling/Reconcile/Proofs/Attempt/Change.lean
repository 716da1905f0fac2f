import Reconcile.Attempt.Basic
import Reconcile.Proofs.Engine.Strides

/-!
# What one step of an attempt does

A change of the world spares a registry if no attempt is begun, released or cancelled there
(`World.Spares`).  Emitting an event does, and so do the counts, draws and waits of a run.
What the actions of a reconciler do is not known, so that they spare it is a premise
(`Behaviour.Spares`).

Then an attempt has five ways to step (`Attempt.step_change`), and only two of them do anything
to the registry: it takes the place of its domain when it begins, and it releases its guard when
it ends.
-/

namespace Reconcile

variable {𝕊 β κ ε : Type}

/-! ## Sparing the registry -/

/-- A change of the world that leaves the attempts in flight and the cancellations of a
registry alone.  Identifiers of attempts are never given twice. -/
structure World.Spares (i : Nat) (w w' : World 𝕊 ε) : Prop where
  inFlight : (w'.registry i).inFlight = (w.registry i).inFlight
  cancelled : (w'.registry i).cancelled = (w.registry i).cancelled
  nextAttempt : w.nextAttempt ≤ w'.nextAttempt

namespace World.Spares

variable {i : Nat} {w w₁ w₂ w₃ : World 𝕊 ε}

theorem refl (w : World 𝕊 ε) : w.Spares i w := ⟨rfl, rfl, Nat.le_refl _⟩

theorem trans (h₁ : w₁.Spares i w₂) (h₂ : w₂.Spares i w₃) : w₁.Spares i w₃ :=
  ⟨h₂.inFlight.trans h₁.inFlight, h₂.cancelled.trans h₁.cancelled,
    Nat.le_trans h₁.nextAttempt h₂.nextAttempt⟩

theorem announce (w : World 𝕊 ε) (q : Request) (p : Packet) :
    w.Spares i (w.announce q p).2.2 := by
  unfold World.announce
  split <;> exact ⟨rfl, rfl, Nat.le_refl _⟩

theorem deliver (w : World 𝕊 ε) (record : Record) : w.Spares i (w.deliver record) := by
  unfold World.deliver
  split <;> exact ⟨rfl, rfl, Nat.le_refl _⟩

/-- The registry is replaced by one with the same attempts and cancellations. -/
theorem setRegistry {r : Registry} (hinFlight : r.inFlight = (w.registry i).inFlight)
    (hcancelled : r.cancelled = (w.registry i).cancelled) : w.Spares i (w.setRegistry i r) := by
  refine ⟨?_, ?_, Nat.le_refl _⟩
  · rw [World.registry_setRegistry, if_pos rfl, hinFlight]
  · rw [World.registry_setRegistry, if_pos rfl, hcancelled]

end World.Spares

/-- The actions of a reconciler spare a registry. -/
structure Behaviour.Spares (custom : Behaviour β (Act β) κ (Packet × World 𝕊 ε)) (i : Nat) :
    Prop where
  start : ∀ b p w, World.Spares i w (custom.start b (p, w)).2.2
  resume : ∀ k p w, World.Spares i w (custom.resume k (p, w)).2.2

namespace Work

variable {custom : Behaviour β (Act β) κ (Packet × World 𝕊 ε)} {i : Nat}

theorem embed_snd (x : Progress (Act β) κ × Packet × World 𝕊 ε) : (embed x).2 = x.2 := by
  obtain ⟨_ | _, _⟩ := x <;> rfl

/-- What every single act on the world keeps, a step of the run of an attempt keeps. -/
theorem step_related [Retry.Seconds 𝕊] [Named β] (Related : World 𝕊 ε → World 𝕊 ε → Prop)
    (hrefl : ∀ w, Related w w)
    (htrans : ∀ {w₁ w₂ w₃}, Related w₁ w₂ → Related w₂ w₃ → Related w₁ w₃)
    (hcount : ∀ w, Related w (w.raise .stepRetries)) (hdraw : ∀ w, Related w w.draw.2)
    (hannounce : ∀ w q p, Related w (w.announce q p).2.2)
    (hdeliver : ∀ w record, Related w (w.deliver record))
    (hstart : ∀ b p w, Related w (custom.start b (p, w)).2.2)
    (hresume : ∀ k p w, Related w (custom.resume k (p, w)).2.2)
    (p : Processor 𝕊 β) (g : Guard) (run : Run (Act β) (Activity κ)) (s : Packet × World 𝕊 ε) :
    Related s.2 (run.step (p.host g) p.policy (behaviour custom) s).2.2 := by
  have hstarted : ∀ (action : Act β) (s : Packet × World 𝕊 ε),
      Related s.2 ((behaviour custom).start action s).2.2 := by
    rintro action ⟨packet, w⟩
    match action with
    | .choice _ test yes no => exact hrefl w
    | .work (.custom b) =>
      simp only [behaviour, embed_snd]
      exact hstart b packet w
    | .work (.event q) =>
      have hannounced := hannounce w q packet
      simp only [behaviour]
      split <;> rename_i heq <;> rw [heq] at hannounced <;> exact hannounced
  have hresumed : ∀ (activity : Activity κ) (s : Packet × World 𝕊 ε),
      Related s.2 ((behaviour custom).resume activity s).2.2 := by
    rintro activity ⟨packet, w⟩
    match activity with
    | .handing record => exact hdeliver w record
    | .custom k =>
      simp only [behaviour, embed_snd]
      exact hresume k packet w
  have hdrawn : ∀ s : Packet × World 𝕊 ε, Related s.2 ((p.host g).draw s).2.2 :=
    fun s => hdraw s.2
  exact Run.step_related (fun s s' => Related s.2 s'.2) (fun s => hrefl s.2) htrans
    (fun s => hcount s.2) hdrawn hstarted hresumed run s

/-- A step of the run of an attempt spares the registry. -/
theorem step_spares [Retry.Seconds 𝕊] [Named β] (hcustom : custom.Spares i)
    (p : Processor 𝕊 β) (g : Guard) (run : Run (Act β) (Activity κ)) (s : Packet × World 𝕊 ε) :
    s.2.Spares i (run.step (p.host g) p.policy (behaviour custom) s).2.2 :=
  step_related (World.Spares i) .refl .trans (fun _ => ⟨rfl, rfl, Nat.le_refl _⟩)
    (fun _ => ⟨rfl, rfl, Nat.le_refl _⟩) .announce .deliver hcustom.start hcustom.resume p g run s

end Work

/-! ## What one step of an attempt does -/

namespace Attempt

/-- The run of an attempt that is under way. -/
def run? (a : Attempt β κ) : Option (Run (Act β) (Activity κ)) :=
  match a.stage with
  | .running _ _ run => some run
  | .reporting _ _ _ run => some run
  | _ => none

theorem registry_register (p : Processor 𝕊 β) (a : Attempt β κ) (w : World 𝕊 ε) :
    (register p a w).2.registry p.registry =
      ((w.registry p.registry).begin a.operation.domain.uid w.nextAttempt).2 :=
  (World.registry_setRegistry w p.registry p.registry _).trans (if_pos rfl)

variable [Retry.Seconds 𝕊] [Named β]

/-- The ways for an attempt to step. -/
inductive Change (p : Processor 𝕊 β) (custom : Behaviour β (Act β) κ (Packet × World 𝕊 ε))
    (a : Attempt β κ) (w : World 𝕊 ε) : Attempt β κ × World 𝕊 ε → Prop
  /-- It begins. -/
  | begun {a' : Attempt β κ} {w' : World 𝕊 ε} {run : Run (Act β) (Activity κ)} :
      a.guard? = none → a.run? = none →
      a'.guard? = some ((w.registry p.registry).begin a.operation.domain.uid w.nextAttempt).1 →
      a'.run? = some run → (∀ node, ¬ run.IsIn node) →
      w'.registry p.registry =
        ((w.registry p.registry).begin a.operation.domain.uid w.nextAttempt).2 →
      w'.nextAttempt = w.nextAttempt + 1 → Change p custom a w (a', w')
  /-- Its run steps. -/
  | stepped {a' : Attempt β κ} {g : Guard} {packet : Packet} {run : Run (Act β) (Activity κ)} :
      a.guard? = some g → a.run? = some run → a'.guard? = some g →
      a'.run? = some (run.step (p.host g) p.policy (Work.behaviour custom) (packet, w)).1 →
      Change p custom a w
        (a', (run.step (p.host g) p.policy (Work.behaviour custom) (packet, w)).2.2)
  /-- It goes on to report a failure. -/
  | turned {a' : Attempt β κ} {w' : World 𝕊 ε} {g : Guard} {run run' : Run (Act β) (Activity κ)} :
      a.guard? = some g → a.run? = some run → (∀ node, ¬ run.IsIn node) → a'.guard? = some g →
      a'.run? = some run' → run'.journal = [] → (∀ node, ¬ run'.IsIn node) →
      w.Spares p.registry w' → Change p custom a w (a', w')
  /-- It ends and releases its guard. -/
  | released {a' : Attempt β κ} {w₁ : World 𝕊 ε} {g : Guard} {run : Run (Act β) (Activity κ)} :
      a.guard? = some g → a.run? = some run → (∀ node, ¬ run.IsIn node) → a'.guard? = none →
      a'.run? = none → w.Spares p.registry w₁ → Change p custom a w (a', p.release g w₁)
  /-- It has ended before. -/
  | idle : a.guard? = none → a.run? = none → Change p custom a w (a, w)

theorem conclude_change {p : Processor 𝕊 β}
    {custom : Behaviour β (Act β) κ (Packet × World 𝕊 ε)} {a : Attempt β κ} {g : Guard}
    {packet : Packet} {run : Run (Act β) (Activity κ)} (hguard : a.guard? = some g)
    (hrun : a.run? = some run) (hbetween : ∀ node, ¬ run.IsIn node)
    (result : Except Fault Outcome) (w : World 𝕊 ε) :
    Change p custom a w (a.conclude p g packet result w) := by
  have hcounted : w.Spares p.registry
      { w with counters := w.counters.raiseAttempt (.of result) } :=
    ⟨rfl, rfl, Nat.le_refl _⟩
  unfold conclude
  match result with
  | .ok .cancelled => exact .released hguard hrun hbetween rfl rfl hcounted
  | .ok .completed | .ok .terminated =>
    exact .released hguard hrun hbetween rfl rfl (hcounted.trans (.setRegistry rfl rfl))
  | .error fault =>
    simp only
    split
    · exact .released hguard hrun hbetween rfl rfl hcounted
    · exact .turned hguard hrun hbetween rfl rfl rfl (by simp [Run.IsIn, Run.start])
        (hcounted.trans (.setRegistry rfl rfl))

theorem step_change (p : Processor 𝕊 β)
    (custom : Behaviour β (Act β) κ (Packet × World 𝕊 ε)) (a : Attempt β κ) (w : World 𝕊 ε) :
    Change p custom a w (a.step p custom w) := by
  obtain ⟨operation, stage⟩ := a
  cases stage with
  | prepared =>
    exact .begun rfl rfl rfl rfl (by simp [Run.IsIn, Run.start]) (registry_register p _ w) rfl
  | running g packet run =>
    simp only [step]
    split
    case h_1 result hphase =>
      exact conclude_change rfl rfl (by simp [Run.IsIn, hphase]) result w
    case h_2 hphase => exact .released rfl rfl (by simp [Run.IsIn, hphase]) rfl rfl (.refl w)
    case h_3 => exact .stepped rfl rfl rfl rfl
  | reporting g packet fault run =>
    simp only [step]
    split
    case h_1 result hphase =>
      exact .released rfl rfl (by simp [Run.IsIn, hphase]) rfl rfl (.refl w)
    case h_2 hphase => exact .released rfl rfl (by simp [Run.IsIn, hphase]) rfl rfl (.refl w)
    case h_3 => exact .stepped rfl rfl rfl rfl
  | ended packet result => exact .idle rfl rfl
  | crashed => exact .idle rfl rfl

theorem step_operation (p : Processor 𝕊 β)
    (custom : Behaviour β (Act β) κ (Packet × World 𝕊 ε)) (a : Attempt β κ) (w : World 𝕊 ε) :
    (a.step p custom w).1.operation = a.operation := by
  obtain ⟨operation, stage⟩ := a
  unfold step register conclude
  grind

end Attempt

end Reconcile
