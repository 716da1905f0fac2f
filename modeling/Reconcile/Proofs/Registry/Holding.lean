import Reconcile.Proofs.Registry.Account

/-!
# Domains that share a registry

A registry is used on account of many domains, and every operation is about one of them.  What
the others have there does not change: their counts of failures, whether an attempt of theirs is
in flight, and the place of that attempt (`Registry.Holds`).  The last of these takes that tokens
are numbered in the order in which they are issued (`Registry.IsSound`), for two domains must not
have the same one.

A registry undergoes any number of operations in between (`Registry.Undergoes`), and what one of
them keeps, all of them keep.
-/

namespace Reconcile.Registry

variable {r r' r₁ r₂ r₃ : Registry} {uid x : String} {attempt : Nat} {op : Operation} {g : Guard}

/-- A registry after an operation. -/
def apply (r : Registry) : Operation → Registry
  | .begin uid attempt => (r.begin uid attempt).2
  | .drop g => r.release g
  | .cancel uid => (r.cancel uid).2
  | .recordFailure uid => (r.recordFailure uid).2
  | .resetFailures uid => r.resetFailures uid

/-- Only tokens that have been issued are cancelled or in flight. -/
structure IsSound (r : Registry) : Prop where
  cancelled : ∀ {token}, r.isCancelled token = true → token < r.issued
  inFlight : ∀ {uid entry}, r.inFlight.get? uid = some entry → entry.token < r.issued

/-- The attempt of a guard is in flight and has not been cancelled, and no other domain has its
token. -/
structure Holds (r : Registry) (g : Guard) : Prop where
  entry : r.inFlight.get? g.uid = some ⟨g.attempt, g.token⟩
  live : r.isCancelled g.token = false
  own : ∀ {uid entry}, r.inFlight.get? uid = some entry → entry.token = g.token → uid = g.uid

/-! ## One operation -/

theorem isSound_empty : empty.IsSound where
  cancelled h := nomatch h
  inFlight h := nomatch h

namespace IsSound

theorem lt_of_cancelInFlight (h : r.IsSound) {token : Nat}
    (ht : (r.cancelInFlight uid).isCancelled token = true) : token < r.issued := by
  rcases isCancelled_cancelInFlight_iff.1 ht with ⟨entry, hentry, rfl⟩ | hold
  · exact h.inFlight hentry
  · exact h.cancelled hold

theorem apply (h : r.IsSound) (op : Operation) : (r.apply op).IsSound := by
  cases op with
  | begin uid attempt =>
    refine ⟨fun ht => Nat.lt_succ_of_lt (h.lt_of_cancelInFlight ht), fun {x entry} hentry => ?_⟩
    change (r.begin uid attempt).2.inFlight.get? x = some entry at hentry
    rw [get?_begin] at hentry
    split at hentry
    · cases hentry
      exact Nat.lt_succ_self _
    · exact Nat.lt_succ_of_lt (h.inFlight hentry)
  | drop g =>
    refine ⟨fun ht => ?_, fun hentry => ?_⟩
    · simp only [Registry.apply, isCancelled_release, issued_release] at ht ⊢
      exact h.cancelled ht
    · simp only [Registry.apply, issued_release, get?_release] at hentry ⊢
      exact h.inFlight hentry.1
  | cancel uid =>
    refine ⟨fun ht => ?_, fun hentry => ?_⟩
    · simp only [Registry.apply, cancel, issued_cancelInFlight] at ht ⊢
      exact h.lt_of_cancelInFlight ht
    · simp only [Registry.apply, cancel, issued_cancelInFlight, inFlight_cancelInFlight]
        at hentry ⊢
      exact h.inFlight hentry
  | recordFailure uid => exact ⟨h.cancelled, h.inFlight⟩
  | resetFailures uid => exact ⟨h.cancelled, h.inFlight⟩

/-- Whoever begins holds its place. -/
theorem holds_begin (h : r.IsSound) (uid : String) (attempt : Nat) :
    (r.begin uid attempt).2.Holds (r.begin uid attempt).1 where
  entry := by
    rw [get?_begin]
    exact if_pos rfl
  live := by
    rw [← Bool.not_eq_true]
    exact fun ht => Nat.lt_irrefl _ (h.lt_of_cancelInFlight ht)
  own {x entry} hentry htoken := by
    rw [get?_begin] at hentry
    split at hentry
    case isTrue hx => exact hx
    case isFalse => exact absurd htoken (Nat.ne_of_lt (h.inFlight hentry))

end IsSound

namespace Holds

/-- A place does not depend on counts, nor on what is to be issued. -/
theorem of_eq (h : r.Holds g) (hinFlight : r'.inFlight = r.inFlight)
    (hcancelled : r'.cancelled = r.cancelled) : r'.Holds g where
  entry := hinFlight ▸ h.entry
  live := by
    rw [isCancelled, hcancelled]
    exact h.live
  own hentry := h.own (hinFlight ▸ hentry)

/-- A cancellation of another domain is one of another token. -/
theorem live_of_cancelInFlight (h : r.Holds g) (huid : uid ≠ g.uid) :
    (r.cancelInFlight uid).isCancelled g.token = false := by
  rw [← Bool.not_eq_true, isCancelled_cancelInFlight_iff]
  rintro (⟨entry, hentry, htoken⟩ | hcancelled)
  · exact huid (h.own hentry htoken)
  · rw [h.live] at hcancelled
    cases hcancelled

/-- An operation on another domain. -/
theorem apply (h : r.Holds g) (hsound : r.IsSound) (huid : op.uid ≠ g.uid) :
    (r.apply op).Holds g := by
  cases op with
  | begin uid attempt =>
    have hother : g.uid ≠ uid := Ne.symm huid
    refine ⟨?_, h.live_of_cancelInFlight huid, fun {x entry} hentry htoken => ?_⟩
    · change (r.begin uid attempt).2.inFlight.get? g.uid = _
      rw [get?_begin, if_neg hother]
      exact h.entry
    · change (r.begin uid attempt).2.inFlight.get? x = some entry at hentry
      rw [get?_begin] at hentry
      split at hentry
      · cases hentry
        exact absurd htoken.symm (Nat.ne_of_lt (hsound.inFlight h.entry))
      · exact h.own hentry htoken
  | drop g' =>
    refine ⟨get?_release.2 ⟨h.entry, fun hown => huid hown.1.symm⟩, ?_, fun hentry => ?_⟩
    · simp only [Registry.apply, isCancelled_release]
      exact h.live
    · exact h.own (get?_release.1 hentry).1
  | cancel uid =>
    refine ⟨?_, h.live_of_cancelInFlight huid, fun hentry => ?_⟩
    · simp only [Registry.apply, cancel, inFlight_cancelInFlight]
      exact h.entry
    · simp only [Registry.apply, cancel, inFlight_cancelInFlight] at hentry
      exact h.own hentry
  | recordFailure uid => exact h.of_eq rfl rfl
  | resetFailures uid => exact h.of_eq rfl rfl

/-- Whoever gives its place up leaves nobody in flight. -/
theorem not_isInFlight_release (h : r.Holds g) : (r.release g).isInFlight g.uid = false := by
  have hnone : (r.release g).inFlight.get? g.uid = none := by
    refine Option.eq_none_iff_forall_ne_some.2 fun entry hentry => ?_
    obtain ⟨hold, hother⟩ := get?_release.1 hentry
    rw [h.entry] at hold
    cases hold
    exact hother ⟨rfl, rfl⟩
  rw [isInFlight, Table.contains, hnone]
  rfl

end Holds

theorem failureCount_apply (huid : op.uid ≠ x) :
    (r.apply op).failureCount x = r.failureCount x := by
  cases op with
  | begin => exact failureCount_begin
  | drop => exact failureCount_release
  | cancel => exact failureCount_cancelInFlight
  | recordFailure uid => exact (failureCount_recordFailure r uid x).trans (if_neg (Ne.symm huid))
  | resetFailures uid => exact (failureCount_resetFailures r uid x).trans (if_neg (Ne.symm huid))

theorem not_isInFlight_apply (huid : op.uid ≠ x) (h : r.isInFlight x = false) :
    (r.apply op).isInFlight x = false := by
  have hnone : ∀ {r : Registry}, r.isInFlight x = false ↔ r.inFlight.get? x = none := by
    simp [isInFlight, Table.contains]
  rw [hnone] at h ⊢
  cases op with
  | begin uid attempt => exact get?_begin.trans ((if_neg (Ne.symm huid)).trans h)
  | drop g =>
    refine Option.eq_none_iff_forall_ne_some.2 fun entry hentry => ?_
    cases h.symm.trans (get?_release.1 hentry).1
  | cancel uid =>
    simp only [apply, cancel, inFlight_cancelInFlight]
    exact h
  | recordFailure | resetFailures => exact h

/-! ## Any number of operations -/

/-- One registry has become the other by operations on certain domains. -/
def Undergoes (r : Registry) (On : String → Prop) (r' : Registry) : Prop :=
  ∃ ops : List Operation, (∀ op ∈ ops, On op.uid) ∧ r' = ops.foldl apply r

namespace Undergoes

variable {On On' : String → Prop}

theorem refl (r : Registry) : r.Undergoes On r := ⟨[], nofun, rfl⟩

theorem single (op : Operation) (hop : On op.uid) : r.Undergoes On (r.apply op) :=
  ⟨[op], by simpa using hop, rfl⟩

theorem trans (h : r₁.Undergoes On r₂) (h' : r₂.Undergoes On r₃) : r₁.Undergoes On r₃ := by
  obtain ⟨ops, hops, rfl⟩ := h
  obtain ⟨ops', hops', rfl⟩ := h'
  refine ⟨ops ++ ops', fun op hop => ?_, (List.foldl_append ..).symm⟩
  exact (List.mem_append.1 hop).elim (hops op) (hops' op)

theorem mono (h : r.Undergoes On r') (hon : ∀ uid, On uid → On' uid) : r.Undergoes On' r' := by
  obtain ⟨ops, hops, rfl⟩ := h
  exact ⟨ops, fun op hop => hon _ (hops op hop), rfl⟩

/-- What one operation keeps, any number of them keep. -/
theorem keeps (h : r.Undergoes On r') (Kept : Registry → Prop)
    (hop : ∀ r op, On op.uid → Kept r → Kept (r.apply op)) (hr : Kept r) : Kept r' := by
  obtain ⟨ops, hops, rfl⟩ := h
  induction ops generalizing r with
  | nil => exact hr
  | cons op ops ih =>
    have hnext : Kept (r.apply op) := hop r op (hops op List.mem_cons_self) hr
    exact ih hnext fun op' hop' => hops op' (List.mem_cons_of_mem _ hop')

theorem isSound (h : r.Undergoes On r') (hsound : r.IsSound) : r'.IsSound :=
  h.keeps IsSound (fun _ op _ hr => hr.apply op) hsound

/-- Operations on other domains do not touch the place of a guard. -/
theorem holds (h : r.Undergoes (· ≠ g.uid) r') (hsound : r.IsSound) (hholds : r.Holds g) :
    r'.Holds g := by
  have hboth : r'.IsSound ∧ r'.Holds g :=
    h.keeps (fun r => r.IsSound ∧ r.Holds g)
      (fun _ op huid hr => ⟨hr.1.apply op, hr.2.apply hr.1 huid⟩) ⟨hsound, hholds⟩
  exact hboth.2

theorem failureCount_eq (h : r.Undergoes (· ≠ x) r') : r'.failureCount x = r.failureCount x :=
  h.keeps (fun r' => r'.failureCount x = r.failureCount x)
    (fun _ _ huid hr => (failureCount_apply huid).trans hr) rfl

theorem not_isInFlight (h : r.Undergoes (· ≠ x) r') (hnone : r.isInFlight x = false) :
    r'.isInFlight x = false :=
  h.keeps (fun r' => r'.isInFlight x = false)
    (fun _ _ huid hr => not_isInFlight_apply huid hr) hnone

end Undergoes

end Reconcile.Registry
