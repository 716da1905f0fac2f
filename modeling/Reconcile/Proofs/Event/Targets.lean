import Reconcile.Proofs.Event.Lifecycle

/-!
# What an event points at

A request about a domain points at the domain of the attempt, whatever its overrides say, and where
there is none at the domain that its overrides name.  A request about a namespace points at what its
overrides name, whatever the domain of the attempt is.

Faults tell what is missing.  A request is invalid exactly if it does not say what the event points
at (`Request.prepare_invalid_iff`), and it asks for a setting of the operator only if nothing else
is in its way.
-/

namespace Reconcile

namespace Request

variable {q : Request} {packet : Packet} {d : Domain} {t : Target}

/-! ## Targets -/

theorem target_of_domain (hdomain : packet.domain = some d) (hscope : q.item.scope = .domain) :
    q.target packet.domain = .ok d.target := by
  simp [target, hscope, hdomain]

/-- Without a domain the overrides name one, and both are needed. -/
theorem target_of_overrides (hscope : q.item.scope = .domain) :
    q.target none = .ok t ↔
      ∃ uid ns, q.resourceName = some uid ∧ q.ns = some ns ∧ t = .ofUid uid ns := by
  simp only [target, hscope]
  cases q.resourceName <;> cases q.ns <;> simp [eq_comm]

/-- The name of a namespace stands for the name of the resource, if there is none. -/
theorem target_of_watch (hscope : q.item.scope = .watch) (domain : Option Domain) :
    q.target domain = .ok t ↔
      ∃ ns, q.ns = some ns ∧ t = .ofNamespace (q.resourceName.getD ns) ns := by
  simp only [target, hscope]
  cases q.ns <;> simp [eq_comm]

/-- An event is kept in the namespace of its object. -/
theorem ns_of_target {domain : Option Domain} (h : q.target domain = .ok t) :
    t.ns = t.object.ns := by
  unfold target at h
  split at h
  · split at h
    · cases h
      rfl
    · split at h <;> cases h
      rfl
  · split at h <;> cases h
    rfl

theorem invalid_of_target {domain : Option Domain} {fault : Fault}
    (h : q.target domain = .error fault) : ∃ message, fault = .invalid message := by
  unfold target at h
  split at h
  · split at h
    · cases h
    · split at h <;> cases h <;> exact ⟨_, rfl⟩
  · split at h <;> cases h
    exact ⟨_, rfl⟩

end Request

/-! ## Settings -/

theorem isConfiguration_of_requireSetting {key : String} {value : Option String} {fault : Fault}
    (h : requireSetting key value = .error fault) : fault.isConfiguration = true := by
  unfold requireSetting at h
  grind [Fault.isConfiguration]

theorem Identity.isConfiguration_of_resolve {i : Identity} {fault : Fault}
    (h : i.resolve = .error fault) : fault.isConfiguration = true := by
  unfold resolve at h
  cases hns : requireSetting namespaceSetting i.ns with
  | error missing =>
    rw [hns] at h
    cases h
    exact isConfiguration_of_requireSetting hns
  | ok ns =>
    cases hpod : requireSetting podSetting i.pod with
    | error missing =>
      rw [hns, hpod] at h
      cases h
      exact isConfiguration_of_requireSetting hpod
    | ok pod =>
      rw [hns, hpod] at h
      cases h

/-! ## Faults -/

/-- A request is invalid exactly if it does not say what the event points at. -/
theorem Request.prepare_invalid_iff {q : Request} {p : Packet} {i : Identity} :
    (∃ message, q.prepare p i = .error (.invalid message)) ↔ ∀ t, q.target p.domain ≠ .ok t := by
  constructor
  · rintro ⟨message, hinvalid⟩ t htarget
    cases preparation_of_eq hinvalid with
    | untargeted hmissing => cases htarget.symm.trans hmissing
    | anonymous _ _ hidentity => cases Identity.isConfiguration_of_resolve hidentity
  · intro hnone
    have hpreparation := q.preparation p i
    generalize q.prepare p i = answer at hpreparation ⊢
    cases hpreparation with
    | untargeted hmissing =>
      obtain ⟨message, rfl⟩ := invalid_of_target hmissing
      exact ⟨message, rfl⟩
    | declined htarget | anonymous htarget | emitted htarget => exact (hnone _ htarget).elim

end Reconcile
