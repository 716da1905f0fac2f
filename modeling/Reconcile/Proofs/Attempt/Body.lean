import Reconcile.Proofs.Attempt.Report
import Reconcile.Proofs.Engine.Flattening
import Reconcile.Proofs.Step.Plans

/-!
# Bodies that leave the lifecycle alone

The default chain of an operation reports a retry and the start, runs the body, and reports the
completion.  A body is discreet if none of its actions emits an event, not even in a chain that
it inserts, branches to or chooses, and if none of them touches the markers or hands a record
over.  Apart from that it may do what it likes.

The steps that a run has in front of it are the rest of the current chain followed by all that
is pending.  While a discreet body runs, they are steps of discreet bodies, and at the very end
of them stands the report of the completion, unless a branch has dropped it (`FitsBody`).  This
is what a step in the body keeps, together with the markers and the records
(`Run.IsInBody.step`).
-/

namespace Reconcile

variable {𝕊 β κ ε : Type}

/-! ## Discreet actions -/

/-- Whether an action is one of a reconciler, and not the emission of an event. -/
def Work.IsCustom : Work β → Prop
  | .custom _ => True
  | .event _ => False

/-- A change of a packet and the world that leaves the markers and the records alone. -/
structure Quiet (before after : Packet × World 𝕊 ε) : Prop where
  markers : after.1.markers = before.1.markers
  handed : after.2.outbox.handed = before.2.outbox.handed

theorem Quiet.refl (s : Packet × World 𝕊 ε) : Quiet s s := ⟨rfl, rfl⟩

theorem Quiet.trans {s₁ s₂ s₃ : Packet × World 𝕊 ε} (h₁ : Quiet s₁ s₂) (h₂ : Quiet s₂ s₃) :
    Quiet s₁ s₃ := ⟨h₂.markers.trans h₁.markers, h₂.handed.trans h₁.handed⟩

/-- What an action has come to is discreet: it has left the lifecycle alone, and so will the
chain that it inserts or branches to. -/
structure IsDiscreet {γ : Type} (before : Packet × World 𝕊 ε)
    (x : Progress (Act β) γ × Packet × World 𝕊 ε) : Prop where
  quiet : Quiet before x.2
  insert : ∀ c, x.1 = .done (.ok (.insert c)) → ∀ n ∈ c.nodes, n.Forall Work.IsCustom
  branch : ∀ c, x.1 = .done (.ok (.branch c)) → ∀ n ∈ c.nodes, n.Forall Work.IsCustom

/-- The actions of a reconciler are discreet. -/
structure Behaviour.IsDiscreet (custom : Behaviour β (Act β) κ (Packet × World 𝕊 ε)) : Prop where
  start : ∀ b s, Reconcile.IsDiscreet s (custom.start b s)
  resume : ∀ k s, Reconcile.IsDiscreet s (custom.resume k s)

namespace Work

variable {custom : Behaviour β (Act β) κ (Packet × World 𝕊 ε)}

theorem embed_discreet {s : Packet × World 𝕊 ε} {x : Progress (Act β) κ × Packet × World 𝕊 ε}
    (h : IsDiscreet s x) : IsDiscreet s (embed x) ∧
      ∀ activity, (embed x).1 = .paused activity → ∃ k, activity = .custom k := by
  obtain ⟨progress, s'⟩ := x
  cases progress with
  | paused k =>
    refine ⟨⟨h.quiet, fun c hc => ?_, fun c hc => ?_⟩, fun activity hactivity => ⟨k, ?_⟩⟩
    · cases hc
    · cases hc
    · cases hactivity
      rfl
  | done result =>
    refine ⟨⟨h.quiet, fun c hc => h.insert c ?_, fun c hc => h.branch c ?_⟩, ?_⟩
    · cases hc
      rfl
    · cases hc
      rfl
    · intro activity hactivity
      cases hactivity

theorem start_discreet (hcustom : custom.IsDiscreet) {action : Act β}
    (haction : action.Forall IsCustom) (s : Packet × World 𝕊 ε) :
    IsDiscreet s ((behaviour custom).start action s) ∧
      ∀ activity, ((behaviour custom).start action s).1 = .paused activity →
        ∃ k, activity = .custom k := by
  obtain ⟨packet, w⟩ := s
  cases action with
  | choice name test yes no =>
    refine ⟨⟨.refl _, fun c hc n hn => ?_, fun c hc => ?_⟩, fun activity hactivity => ?_⟩
    · cases hc
      split at hn
      · exact haction.1.build n hn
      · exact haction.2.build n hn
    · cases hc
    · cases hactivity
  | work work =>
    cases work with
    | custom b => exact embed_discreet (hcustom.start b (packet, w))
    | event q => exact haction.elim

end Work

/-! ## The steps in front of a run -/

/-- The step that reports the completion. -/
def Node.completing : Node (Act β) := .emitting false (.of .processingCompleted)

/-- Steps of discreet bodies, at the end of which the completion may be reported. -/
inductive FitsBody : List (Node (Act β)) → Prop
  | nil : FitsBody []
  | completing : FitsBody [.completing]
  | cons {n : Node (Act β)} {rest : List (Node (Act β))} : n.Forall Work.IsCustom →
      FitsBody rest → FitsBody (n :: rest)

namespace FitsBody

variable {ns rest : List (Node (Act β))}

theorem append (hns : ∀ n ∈ ns, n.Forall Work.IsCustom) (hrest : FitsBody rest) :
    FitsBody (ns ++ rest) := by
  induction ns with
  | nil => exact hrest
  | cons n ns ih =>
    exact .cons (hns n List.mem_cons_self) (ih fun m hm => hns m (List.mem_cons_of_mem _ hm))

/-- The next step is one of a body, or it is the last and reports the completion. -/
theorem next {n : Node (Act β)} (h : FitsBody (n :: rest)) :
    n.Forall Work.IsCustom ∧ FitsBody rest ∨ n = .completing ∧ rest = [] := by
  cases h with
  | completing => exact .inr ⟨rfl, rfl⟩
  | cons hn hrest => exact .inl ⟨hn, hrest⟩

theorem of_append (h : FitsBody (ns ++ rest)) : FitsBody rest := by
  induction ns with
  | nil => exact h
  | cons n ns ih =>
    rcases FitsBody.next h with ⟨-, hrest⟩ | ⟨-, hnil⟩
    · exact ih hrest
    · obtain ⟨-, rfl⟩ := List.append_eq_nil_iff.1 hnil
      exact .nil

end FitsBody

/-- The chain of a discreet body, followed by the report of the completion. -/
theorem FitsBody.splice {ns : List (Node (Act β))} (hns : ∀ n ∈ ns, n.Forall Work.IsCustom) :
    FitsBody (Chain.splice (ns ++ [.completing])) := by
  rw [Chain.splice_concat]
  exact .append (fun n hn => hns n (List.mem_filter.1 hn).1) .completing

/-- Whether a phase is one in a discreet body, or the end of a run there. -/
def Phase.IsInBody (pending : List (List (Node (Act β)))) : Phase (Act β) (Activity κ) → Prop
  | .ready rest => FitsBody (rest ++ pending.flatten)
  | .acting node more (.custom _) =>
    node.Forall Work.IsCustom ∧ FitsBody (more ++ pending.flatten)
  | .acting _ _ (.handing _) => False
  | .waiting node more _ => node.Forall Work.IsCustom ∧ FitsBody (more ++ pending.flatten)
  | .ended _ => True
  | .crashed => True

namespace Run

/-- A run is in a discreet body, or has ended there. -/
structure IsInBody (r : Run (Act β) (Activity κ)) : Prop where
  pending : [] ∉ r.pending
  phase : r.phase.IsInBody r.pending

variable [Retry.Seconds 𝕊] [Named β]
variable {p : Processor 𝕊 β} {custom : Behaviour β (Act β) κ (Packet × World 𝕊 ε)}
  {g : Guard} {policy : Retry.Policy 𝕊} {r : Run (Act β) (Activity κ)} {node : Node (Act β)}
  {more : List (Node (Act β))}

theorem follow_quiet (node : Node (Act β)) (more : List (Node (Act β)))
    (result : Except Fault (Directive (Act β))) (s : Packet × World 𝕊 ε) :
    Quiet s (r.follow (p.host g) policy node more result s).2 :=
  follow_related Quiet .refl .trans (fun _ => ⟨rfl, rfl⟩) (fun _ => ⟨rfl, rfl⟩) r node more result s

namespace IsInBody

theorem progressed (hpending : [] ∉ r.pending) (hnode : node.Forall Work.IsCustom)
    (hfits : FitsBody (more ++ r.pending.flatten)) {before : Packet × World 𝕊 ε}
    {x : Progress (Act β) (Activity κ) × Packet × World 𝕊 ε} (hx : IsDiscreet before x)
    (hpaused : ∀ activity, x.1 = .paused activity → ∃ k, activity = .custom k) :
    (r.progressed (p.host g) policy node more x).1.IsInBody ∧
      Quiet before (r.progressed (p.host g) policy node more x).2 := by
  obtain ⟨progress, s⟩ := x
  cases progress with
  | paused activity =>
    obtain ⟨k, rfl⟩ := hpaused activity rfl
    exact ⟨⟨hpending, hnode, hfits⟩, hx.quiet⟩
  | done result =>
    refine ⟨?_, hx.quiet.trans (follow_quiet node more result s)⟩
    cases result with
    | error fault => exact ⟨hpending, trivial⟩
    | ok directive =>
      cases directive with
      | proceed => exact ⟨hpending, hfits⟩
      | insert c =>
        have hchain := hx.insert c rfl
        simp only [Run.progressed, follow, keep_goTo]
        refine ⟨not_mem_kept hpending, ?_⟩
        show FitsBody (c.nodes ++ (kept more r.pending).flatten)
        rw [flatten_kept]
        exact .append hchain hfits
      | branch c => exact ⟨hpending, .append (hx.branch c rfl) hfits.of_append⟩
      | terminate => exact ⟨hpending, trivial⟩
      | retryAfter requested =>
        simp only [Run.progressed, follow, retry]
        split
        · exact ⟨hpending, trivial⟩
        · split
          · exact ⟨hpending, trivial⟩
          · exact ⟨hpending, hnode, hfits⟩

variable (p g policy) in
/-- A step in a discreet body stays there and leaves the lifecycle alone, unless it is about to
report the completion, which is the last thing to do. -/
theorem step (h : r.IsInBody) (hcustom : custom.IsDiscreet) (s : Packet × World 𝕊 ε) :
    ((r.step (p.host g) policy (Work.behaviour custom) s).1.IsInBody ∧
        Quiet s (r.step (p.host g) policy (Work.behaviour custom) s).2) ∨
      r.phase = .ready [.completing] ∧ r.pending = [] ∧
        isStopped (p.host g) (Node.completing (β := β)) s = false := by
  obtain ⟨retries, pending, phase, journal⟩ := r
  obtain ⟨hpending, hphase⟩ := h
  cases phase with
  | ready rest =>
    cases rest with
    | nil =>
      cases pending with
      | nil => exact .inl ⟨⟨hpending, trivial⟩, .refl s⟩
      | cons rest pending =>
        exact .inl ⟨⟨fun hmem => hpending (List.mem_cons_of_mem _ hmem), hphase⟩, .refl s⟩
    | cons node more =>
      simp only [Run.step]
      cases hstopped : isStopped (p.host g) node s with
      | true => exact .inl ⟨⟨hpending, trivial⟩, .refl s⟩
      | false =>
        rcases FitsBody.next hphase with ⟨hnode, hrest⟩ | ⟨rfl, hnil⟩
        · left
          cases haction : node.action with
          | none => exact ⟨⟨hpending, hrest.of_append⟩, .refl s⟩
          | some action =>
            obtain ⟨hdiscreet, hpaused⟩ := Work.start_discreet hcustom (hnode action haction) s
            let started : Run (Act β) (Activity κ) :=
              ⟨retries, pending, .ready (node :: more), .invoked node :: journal⟩
            exact progressed (r := started) hpending hnode hrest hdiscreet hpaused
        · -- No empty level is pending, so there is nothing behind the report at all.
          obtain ⟨rfl, hflatten⟩ := List.append_eq_nil_iff.1 hnil
          have hnone : pending = [] := by
            cases pending with
            | nil => rfl
            | cons rest pending =>
              obtain ⟨rfl, -⟩ := List.append_eq_nil_iff.1 hflatten
              exact (hpending List.mem_cons_self).elim
          exact .inr ⟨rfl, hnone, hstopped⟩
  | acting node more activity =>
    cases activity with
    | handing record => exact hphase.elim
    | custom k =>
      obtain ⟨hdiscreet, hpaused⟩ := Work.embed_discreet (hcustom.resume k s)
      exact .inl (progressed hpending hphase.1 hphase.2 hdiscreet hpaused)
  | waiting node more deadline =>
    simp only [Run.step]
    split
    · exact .inl ⟨⟨hpending, trivial⟩, .refl s⟩
    · split
      · exact .inl ⟨⟨hpending, .cons hphase.1 hphase.2⟩, .refl s⟩
      · exact .inl ⟨⟨hpending, hphase⟩, .refl s⟩
  | ended result => exact .inl ⟨⟨hpending, trivial⟩, .refl s⟩
  | crashed => exact .inl ⟨⟨hpending, trivial⟩, .refl s⟩

end IsInBody

end Run

end Reconcile
