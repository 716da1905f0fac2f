import Reconcile.Attempt.Basic

/-!
# The succession of attempts

The attempts of a domain succeed one another: whoever begins takes the place in the registry,
and whoever held it before is cancelled.  This file keeps to the guards, the registry and a
history of what has happened, whatever the attempts do while they hold their guards.

`Succession` is the invariant.  An attempt whose token is not cancelled is the one begun last,
nobody has asked for its cancellation since, and the registry has its entry.  So a guard that
is released either finds its own entry or leaves the entry of another guard alone.  The
invariant is kept by beginning (`Succession.begin`), releasing (`Succession.release`),
cancelling (`Succession.cancel`), and by everything that spares the registry
(`Succession.spare`).
-/

namespace Reconcile

variable {𝕊 β κ ε : Type}

/-! ## The registry -/

namespace Registry

variable {r : Registry} {uid x : String} {entry : InFlight} {token t : Nat} {g : Guard}

@[simp] theorem inFlight_cancelToken : (r.cancelToken t).inFlight = r.inFlight := by
  unfold cancelToken
  split <;> rfl

@[simp] theorem inFlight_cancelInFlight : (r.cancelInFlight uid).inFlight = r.inFlight := by
  unfold cancelInFlight
  split
  · exact inFlight_cancelToken
  · rfl

theorem isCancelled_cancelToken :
    (r.cancelToken t).isCancelled token = (token == t || r.isCancelled token) := by
  unfold cancelToken
  split
  case isTrue hdone =>
    by_cases htoken : token = t
    · simp [htoken, hdone]
    · simp [htoken]
  case isFalse => rw [isCancelled, List.contains_cons, isCancelled]

/-- A cancellation reaches the attempt that the registry has in flight. -/
theorem isCancelled_cancelInFlight (hentry : r.inFlight.get? uid = some entry) :
    (r.cancelInFlight uid).isCancelled entry.token = true := by
  simp [cancelInFlight, hentry, isCancelled_cancelToken]

/-- A cancelled token stays cancelled. -/
theorem isCancelled_of_cancelInFlight (h : (r.cancelInFlight uid).isCancelled token = false) :
    r.isCancelled token = false := by
  unfold cancelInFlight at h
  split at h
  · rw [isCancelled_cancelToken, Bool.or_eq_false_iff] at h
    exact h.2
  · exact h

@[simp] theorem failureCount_cancelInFlight :
    (r.cancelInFlight uid).failureCount x = r.failureCount x := by
  unfold cancelInFlight cancelToken
  split
  · split <;> rfl
  · rfl

@[simp] theorem isCancelled_begin {attempt : Nat} :
    (r.begin uid attempt).2.isCancelled token = (r.cancelInFlight uid).isCancelled token := rfl

@[simp] theorem failureCount_begin {attempt : Nat} :
    (r.begin uid attempt).2.failureCount x = r.failureCount x := failureCount_cancelInFlight

theorem get?_begin {attempt : Nat} :
    (r.begin uid attempt).2.inFlight.get? x =
      if x = uid then some ⟨attempt, r.issued⟩ else r.inFlight.get? x := by
  simp only [begin, Table.get?_insert, inFlight_cancelInFlight]

@[simp] theorem isCancelled_release : (r.release g).isCancelled token = r.isCancelled token := by
  unfold release
  split
  · split <;> rfl
  · rfl

@[simp] theorem failureCount_release : (r.release g).failureCount x = r.failureCount x := by
  unfold release
  split
  · split <;> rfl
  · rfl

/-- A guard removes nothing but its own attempt. -/
theorem get?_release :
    (r.release g).inFlight.get? x = some entry ↔
      r.inFlight.get? x = some entry ∧ ¬ (x = g.uid ∧ entry.attempt = g.attempt) := by
  unfold release
  split
  case h_1 found hfound =>
    split
    case isTrue hown =>
      by_cases hx : x = g.uid
      · subst hx
        simp only [Table.get?_erase, if_true, hfound, Option.some.injEq, reduceCtorEq, false_iff]
        rintro ⟨rfl, hother⟩
        exact hother ⟨trivial, hown⟩
      · simp [Table.get?_erase, hx]
    case isFalse hother =>
      refine ⟨fun h => ⟨h, ?_⟩, And.left⟩
      rintro ⟨rfl, hattempt⟩
      rw [hfound, Option.some.injEq] at h
      exact hother (h ▸ hattempt)
  case h_2 hnone =>
    refine ⟨fun h => ⟨h, ?_⟩, And.left⟩
    rintro ⟨rfl, -⟩
    rw [hnone] at h
    cases h

end Registry

/-! ## What has happened -/

/-- Something that has happened.  Attempts are known by their number. -/
inductive Occurrence (β : Type)
  /-- An attempt has begun on a domain. -/
  | began (i : Nat) (uid : String)
  /-- Somebody has asked to cancel the attempt in flight of a domain. -/
  | cancelled (uid : String)
  /-- An attempt has started the action of a step. -/
  | started (i : Nat) (node : Node (Act β))
  /-- An attempt has handed over the record that one of its steps emits. -/
  | reported (i : Nat) (node : Node (Act β)) (record : Record)

namespace Occurrence

/-- Whether an occurrence is the end of whoever has been processing a domain. -/
def Displaces (uid : String) : Occurrence β → Prop
  | began _ x => x = uid
  | cancelled x => x = uid
  | started .. => False
  | reported .. => False

end Occurrence

/-- The attempt is the one begun last on the domain, and nobody has cancelled it.  Histories
list what has happened latest first. -/
def IsCurrent (history : List (Occurrence β)) (i : Nat) (uid : String) : Prop :=
  ∃ later earlier, history = later ++ .began i uid :: earlier ∧ ∀ e ∈ later, ¬ e.Displaces uid

namespace IsCurrent

variable {history : List (Occurrence β)} {i : Nat} {uid : String}

theorem of_began : IsCurrent (.began i uid :: history) i uid :=
  ⟨[], history, rfl, by simp⟩

theorem append (h : IsCurrent history i uid) {es : List (Occurrence β)}
    (hes : ∀ e ∈ es, ¬ e.Displaces uid) : IsCurrent (es ++ history) i uid := by
  obtain ⟨later, earlier, rfl, hlater⟩ := h
  refine ⟨es ++ later, earlier, (List.append_assoc ..).symm, fun e he => ?_⟩
  exact (List.mem_append.1 he).elim (hes e) (hlater e)

theorem cons (h : IsCurrent history i uid) {e : Occurrence β} (he : ¬ e.Displaces uid) :
    IsCurrent (e :: history) i uid := by
  have hes : ∀ e' ∈ [e], ¬ e'.Displaces uid := by simpa using he
  exact h.append hes

end IsCurrent

/-! ## The invariant -/

/-- How the guards that attempts hold, by the number of the attempt, agree with the registry
and the history. -/
structure Succession (guards : Nat → Option Guard) (r : Registry) (next : Nat)
    (history : List (Occurrence β)) : Prop where
  /-- No guard carries an identifier that is still to be given. -/
  older : ∀ {i g}, guards i = some g → g.attempt < next
  /-- No two guards carry the same identifier. -/
  distinct : ∀ {i j g h}, guards i = some g → guards j = some h → g.attempt = h.attempt → i = j
  /-- Every entry of the registry is that of a guard, which will release it. -/
  owned : ∀ {uid entry}, r.inFlight.get? uid = some entry →
    ∃ i g, guards i = some g ∧ g.uid = uid ∧ g.attempt = entry.attempt
  /-- Whoever is not cancelled is the one begun last, and has its entry. -/
  current : ∀ {i g}, guards i = some g → r.isCancelled g.token = false →
    IsCurrent history i g.uid ∧ r.inFlight.get? g.uid = some ⟨g.attempt, g.token⟩

namespace Succession

variable {guards guards' : Nat → Option Guard} {r r' : Registry} {next next' : Nat}
  {history : List (Occurrence β)} {i : Nat} {uid : String} {g : Guard}

/-- Nobody holds a guard, and no attempt is in flight. -/
theorem initial (hguards : ∀ i, guards i = none) (hidle : ∀ uid, r.isInFlight uid = false) :
    Succession guards r next history where
  older h := by simp [hguards] at h
  distinct h := by simp [hguards] at h
  owned {uid entry} h := by
    have hnone := hidle uid
    rw [Registry.isInFlight, Table.contains, h] at hnone
    cases hnone
  current h := by simp [hguards] at h

/-- An attempt begins. -/
theorem begin (hsucc : Succession guards r next history) (hfresh : guards i = none)
    (hself : guards' i = some (r.begin uid next).1)
    (hothers : ∀ j, j ≠ i → guards' j = guards j) :
    Succession guards' (r.begin uid next).2 (next + 1) (.began i uid :: history) where
  older {j g} hg := by
    by_cases hj : j = i
    · subst hj
      rw [hself, Option.some.injEq] at hg
      subst hg
      exact Nat.lt_succ_self next
    · rw [hothers j hj] at hg
      exact Nat.lt_succ_of_lt (hsucc.older hg)
  distinct {j k g h} hg hh hsame := by
    by_cases hj : j = i <;> by_cases hk : k = i
    · rw [hj, hk]
    · rw [hj, hself, Option.some.injEq] at hg
      rw [hothers k hk] at hh
      have hold := hsucc.older hh
      have hnew : next = h.attempt := by rw [← hsame, ← hg]; rfl
      omega
    · rw [hothers j hj] at hg
      rw [hk, hself, Option.some.injEq] at hh
      have hold := hsucc.older hg
      have hnew : g.attempt = next := by rw [hsame, ← hh]; rfl
      omega
    · rw [hothers j hj] at hg
      rw [hothers k hk] at hh
      exact hsucc.distinct hg hh hsame
  owned {x entry} hentry := by
    rw [Registry.get?_begin] at hentry
    split at hentry
    case isTrue hx =>
      rw [Option.some.injEq] at hentry
      exact ⟨i, _, hself, hx.symm, by rw [← hentry]; rfl⟩
    case isFalse =>
      obtain ⟨j, g, hg, huid, hattempt⟩ := hsucc.owned hentry
      have hj : j ≠ i := by
        rintro rfl
        rw [hfresh] at hg
        cases hg
      exact ⟨j, g, (hothers j hj).trans hg, huid, hattempt⟩
  current {j g} hg hlive := by
    rw [Registry.isCancelled_begin] at hlive
    by_cases hj : j = i
    · subst hj
      rw [hself, Option.some.injEq] at hg
      subst hg
      exact ⟨.of_began, by rw [Registry.get?_begin]; exact if_pos rfl⟩
    · rw [hothers j hj] at hg
      obtain ⟨hcurrent, hentry⟩ :=
        hsucc.current hg (Registry.isCancelled_of_cancelInFlight hlive)
      -- An attempt of the same domain would have been in flight, and so be cancelled now.
      have hother : g.uid ≠ uid := by
        intro hsame
        rw [hsame] at hentry
        rw [Registry.isCancelled_cancelInFlight hentry] at hlive
        cases hlive
      refine ⟨hcurrent.cons fun hdisplaces => hother hdisplaces.symm, ?_⟩
      rw [Registry.get?_begin, if_neg hother]
      exact hentry

/-- An attempt releases its guard. -/
theorem release (hsucc : Succession guards r next history) (hguard : guards i = some g)
    (hself : guards' i = none) (hothers : ∀ j, j ≠ i → guards' j = guards j) :
    Succession guards' (r.release g) next history := by
  have hstill : ∀ {j h}, guards' j = some h → j ≠ i ∧ guards j = some h := by
    intro j h hh
    have hj : j ≠ i := by
      rintro rfl
      rw [hself] at hh
      cases hh
    exact ⟨hj, (hothers j hj).symm.trans hh⟩
  refine ⟨fun hh => hsucc.older (hstill hh).2,
    fun hh hk => hsucc.distinct (hstill hh).2 (hstill hk).2, ?_, ?_⟩
  · intro uid entry hentry
    obtain ⟨hentry, hkept⟩ := Registry.get?_release.1 hentry
    obtain ⟨j, h, hh, huid, hattempt⟩ := hsucc.owned hentry
    have hj : j ≠ i := by
      rintro rfl
      obtain rfl : g = h := Option.some.inj (hguard.symm.trans hh)
      exact hkept ⟨huid.symm, hattempt.symm⟩
    exact ⟨j, h, (hothers j hj).trans hh, huid, hattempt⟩
  · intro j h hh hlive
    obtain ⟨hj, hh⟩ := hstill hh
    rw [Registry.isCancelled_release] at hlive
    obtain ⟨hcurrent, hentry⟩ := hsucc.current hh hlive
    refine ⟨hcurrent, Registry.get?_release.2 ⟨hentry, fun hown => ?_⟩⟩
    exact hj (hsucc.distinct hh hguard hown.2)

/-- Somebody cancels the attempt in flight of a domain. -/
theorem cancel (hsucc : Succession guards r next history) :
    Succession guards (r.cancel uid).2 next (.cancelled uid :: history) where
  older := hsucc.older
  distinct := hsucc.distinct
  owned hentry := by
    simp only [Registry.cancel, Registry.inFlight_cancelInFlight] at hentry
    exact hsucc.owned hentry
  current {j g} hg hlive := by
    simp only [Registry.cancel, Registry.inFlight_cancelInFlight] at hlive ⊢
    obtain ⟨hcurrent, hentry⟩ :=
      hsucc.current hg (Registry.isCancelled_of_cancelInFlight hlive)
    refine ⟨hcurrent.cons fun hdisplaces => ?_, hentry⟩
    rw [← show uid = g.uid from hdisplaces] at hentry
    rw [Registry.isCancelled_cancelInFlight hentry] at hlive
    cases hlive

/-- Something happens that neither touches the guards nor displaces anybody. -/
theorem spare (hsucc : Succession guards r next history)
    (hguards : ∀ i, guards' i = guards i) (hinFlight : r'.inFlight = r.inFlight)
    (hcancelled : r'.cancelled = r.cancelled) (hnext : next ≤ next') (es : List (Occurrence β))
    (hes : ∀ uid, ∀ e ∈ es, ¬ e.Displaces uid) :
    Succession guards' r' next' (es ++ history) where
  older hg := Nat.lt_of_lt_of_le (hsucc.older ((hguards _).symm.trans hg)) hnext
  distinct hg hh :=
    hsucc.distinct ((hguards _).symm.trans hg) ((hguards _).symm.trans hh)
  owned hentry := by
    obtain ⟨i, g, hg, hrest⟩ := hsucc.owned (hinFlight ▸ hentry)
    exact ⟨i, g, (hguards i).trans hg, hrest⟩
  current {i g} hg hlive := by
    have hbefore : r.isCancelled g.token = false := by
      rw [Registry.isCancelled, ← hcancelled]
      exact hlive
    obtain ⟨hcurrent, hentry⟩ := hsucc.current ((hguards i).symm.trans hg) hbefore
    exact ⟨hcurrent.append (hes g.uid), hinFlight ▸ hentry⟩

/-- Once nobody holds a guard, no attempt is in flight. -/
theorem not_isInFlight (hsucc : Succession guards r next history)
    (hguards : ∀ i, guards i = none) (uid : String) : r.isInFlight uid = false := by
  cases hentry : r.inFlight.get? uid with
  | none => rw [Registry.isInFlight, Table.contains, hentry]; rfl
  | some entry =>
    obtain ⟨i, g, hg, -⟩ := hsucc.owned hentry
    rw [hguards i] at hg
    cases hg

end Succession

end Reconcile
