import Mathlib.Data.Set.Card
import Reconcile.Proofs.Attempt.Succession

/-!
# What a registry knows

A registry keeps tables and tokens.  This file says what they mean in terms of what has been
asked of the registry so far, in any order and over any domains: `Registry.Account` has no
mention of tables, tokens issued or entries.

A `Desk` is a registry in use, with the guards it has handed out and the operations on record.
Only two things are asked of its users (`Desk.Permits`): no identifier is given to two attempts,
and a guard is dropped once.  The invariant `Desk.Tracks` joins the tables to the record, one
lemma per operation, and the account of a desk follows from it (`Desk.Reachable.account`).

Counts are natural numbers here, so no number of failures is too large to be counted.
-/

namespace Reconcile.Registry

/-! ## Operations on record -/

/-- Something that is asked of a registry. -/
inductive Operation
  | begin (uid : String) (attempt : Nat)
  | drop (guard : Guard)
  | cancel (uid : String)
  | recordFailure (uid : String)
  | resetFailures (uid : String)
deriving DecidableEq

/-- The domain that an operation is about. -/
def Operation.uid : Operation → String
  | begin uid _ | cancel uid | recordFailure uid | resetFailures uid => uid
  | drop g => g.uid

/-- Whether an operation is the end of whoever is registered for a domain. -/
def Operation.Displaces (uid : String) : Operation → Prop
  | begin x _ | cancel x => x = uid
  | _ => False

/-- The attempt begun last on a domain.  Records list the operations latest first. -/
def lastBegun? (uid : String) : List Operation → Option Nat
  | [] => none
  | .begin x attempt :: earlier => if x = uid then some attempt else lastBegun? uid earlier
  | _ :: earlier => lastBegun? uid earlier

/-- The attempt is the one begun last on the domain, and its guard has not been dropped. -/
def IsRegistered (history : List Operation) (uid : String) (attempt : Nat) : Prop :=
  lastBegun? uid history = some attempt ∧ ∀ g, .drop g ∈ history → g.attempt ≠ attempt

/-- While the attempt of a guard was registered, its domain was cancelled, or a newer attempt
began there. -/
def WasDisplaced (history : List Operation) (g : Guard) : Prop :=
  ∃ later op earlier, history = later ++ op :: earlier ∧ op.Displaces g.uid ∧
    IsRegistered earlier g.uid g.attempt

/-- How often a failure of the domain has been recorded since its failures were reset last. -/
def failuresSinceReset (uid : String) (history : List Operation) : Nat :=
  (history.takeWhile (· ≠ .resetFailures uid)).count (.recordFailure uid)

section

variable {history : List Operation} {op : Operation} {uid x : String} {attempt : Nat} {g : Guard}

theorem mem_of_lastBegun? (h : lastBegun? uid history = some attempt) :
    .begin uid attempt ∈ history := by
  induction history with
  | nil => cases h
  | cons op earlier ih =>
    cases op with
    | begin x id =>
      rw [lastBegun?] at h
      split at h
      · rename_i hx
        rw [hx, Option.some.inj h]
        exact List.mem_cons_self
      · exact List.mem_cons_of_mem _ (ih h)
    | drop | cancel | recordFailure | resetFailures => exact List.mem_cons_of_mem _ (ih h)

/-- Neither cancelling nor counting changes who is registered. -/
theorem isRegistered_cons (hbegin : ∀ x id, op ≠ .begin x id) (hdrop : ∀ g, op ≠ .drop g) :
    IsRegistered (op :: history) uid attempt ↔ IsRegistered history uid attempt := by
  cases op with
  | begin x id => exact (hbegin x id rfl).elim
  | drop g => exact (hdrop g rfl).elim
  | cancel | recordFailure | resetFailures => simp [IsRegistered, lastBegun?]

theorem isRegistered_begin (hfresh : ∀ g, .drop g ∈ history → g.attempt ≠ attempt) {id : Nat} :
    IsRegistered (.begin x attempt :: history) uid id ↔
      if uid = x then id = attempt else IsRegistered history uid id := by
  by_cases hx : uid = x
  · subst hx
    simp only [IsRegistered, lastBegun?, if_true, Option.some.injEq]
    constructor
    · intro h
      exact h.1.symm
    · rintro rfl
      refine ⟨rfl, fun g hg => hfresh g ?_⟩
      simpa using hg
  · simp [IsRegistered, lastBegun?, hx, Ne.symm hx]

theorem isRegistered_drop :
    IsRegistered (.drop g :: history) uid attempt ↔
      IsRegistered history uid attempt ∧ g.attempt ≠ attempt := by
  simp only [IsRegistered, lastBegun?, List.mem_cons, Operation.drop.injEq, forall_eq_or_imp]
  tauto

theorem wasDisplaced_cons :
    WasDisplaced (op :: history) g ↔
      (op.Displaces g.uid ∧ IsRegistered history g.uid g.attempt) ∨ WasDisplaced history g := by
  constructor
  · rintro ⟨later, op', earlier, hsplit, hdisplaces, hregistered⟩
    cases later with
    | nil =>
      obtain ⟨rfl, rfl⟩ := List.cons.inj hsplit
      exact .inl ⟨hdisplaces, hregistered⟩
    | cons op'' later =>
      exact .inr ⟨later, op', earlier, (List.cons.inj hsplit).2, hdisplaces, hregistered⟩
  · rintro (⟨hdisplaces, hregistered⟩ | ⟨later, op', earlier, rfl, hdisplaces, hregistered⟩)
    · exact ⟨[], op, history, rfl, hdisplaces, hregistered⟩
    · exact ⟨op :: later, op', earlier, rfl, hdisplaces, hregistered⟩

theorem mem_of_wasDisplaced (h : WasDisplaced history g) :
    .begin g.uid g.attempt ∈ history := by
  obtain ⟨later, op, earlier, rfl, -, hregistered⟩ := h
  have hbegan := mem_of_lastBegun? hregistered.1
  exact List.mem_append_right _ (List.mem_cons_of_mem _ hbegan)

theorem failuresSinceReset_cons :
    failuresSinceReset uid (op :: history) =
      if op = .resetFailures uid then 0
      else if op = .recordFailure uid then failuresSinceReset uid history + 1
      else failuresSinceReset uid history := by
  unfold failuresSinceReset
  by_cases hreset : op = .resetFailures uid
  · simp [hreset]
  · rw [List.takeWhile_cons_of_pos (by simpa using hreset), List.count_cons, if_neg hreset]
    by_cases hrecord : op = .recordFailure uid <;> simp [hrecord]

end

/-! ## Fields that operations leave alone -/

section

variable {r : Registry} {uid x : String} {attempt token : Nat} {g : Guard}

theorem isCancelled_cancelInFlight_iff :
    (r.cancelInFlight uid).isCancelled token = true ↔
      (∃ entry, r.inFlight.get? uid = some entry ∧ entry.token = token) ∨
        r.isCancelled token = true := by
  unfold cancelInFlight
  cases hentry : r.inFlight.get? uid with
  | none => simp
  | some entry => simp [isCancelled_cancelToken, @eq_comm Nat token]

@[simp] theorem issued_cancelInFlight : (r.cancelInFlight uid).issued = r.issued := by
  unfold cancelInFlight cancelToken
  split
  · split <;> rfl
  · rfl

@[simp] theorem issued_release : (r.release g).issued = r.issued := by
  unfold release
  split
  · split <;> rfl
  · rfl

end

/-! ## A registry in use -/

/-- A registry in use, with every guard it has handed out and every operation so far, both
latest first. -/
structure Desk where
  registry : Registry
  guards : List Guard
  history : List Operation

namespace Desk

/-- A registry that has not been used. -/
def initial : Desk := ⟨.empty, [], []⟩

/-- The guard has been handed out and has not been dropped. -/
def IsHeld (d : Desk) (g : Guard) : Prop := g ∈ d.guards ∧ .drop g ∉ d.history

/-- Performs an operation and puts it on record. -/
def perform (d : Desk) (op : Operation) : Desk :=
  let history := op :: d.history
  match op with
  | .begin uid attempt =>
    let (g, r) := d.registry.begin uid attempt
    ⟨r, g :: d.guards, history⟩
  | .drop g => ⟨d.registry.release g, d.guards, history⟩
  | .cancel uid => ⟨(d.registry.cancel uid).2, d.guards, history⟩
  | .recordFailure uid => ⟨(d.registry.recordFailure uid).2, d.guards, history⟩
  | .resetFailures uid => ⟨d.registry.resetFailures uid, d.guards, history⟩

@[simp] theorem history_perform (d : Desk) (op : Operation) :
    (d.perform op).history = op :: d.history := by
  cases op <;> rfl

/-- No identifier is given to two attempts, and no guard is dropped but one that is held. -/
def Permits (d : Desk) : Operation → Prop
  | .begin _ attempt => ∀ uid, .begin uid attempt ∉ d.history
  | .drop g => d.IsHeld g
  | _ => True

/-- The desks that any sequence of operations leads to. -/
inductive Reachable : Desk → Prop
  | initial : Reachable initial
  | perform {d : Desk} {op : Operation} : Reachable d → d.Permits op → Reachable (d.perform op)

/-- What the tables, the tokens and the record of a desk have to do with one another. -/
structure Tracks (d : Desk) : Prop where
  /-- Tokens and cancellations are of tokens that have been issued. -/
  issued : ∀ g ∈ d.guards, g.token < d.registry.issued
  cancelledIssued : ∀ t, d.registry.isCancelled t = true → t < d.registry.issued
  /-- A guard is known by its token, and by its attempt. -/
  token : ∀ g ∈ d.guards, ∀ h ∈ d.guards, g.token = h.token → g = h
  attempt : ∀ g ∈ d.guards, ∀ h ∈ d.guards, g.attempt = h.attempt → g = h
  /-- The guards are those of the attempts on record. -/
  begun : ∀ uid attempt, .begin uid attempt ∈ d.history ↔
    ∃ g ∈ d.guards, g.uid = uid ∧ g.attempt = attempt
  dropped : ∀ g, .drop g ∈ d.history → g ∈ d.guards
  inFlight : ∀ uid entry, d.registry.inFlight.get? uid = some entry ↔
    ∃ g ∈ d.guards, g.uid = uid ∧ entry = ⟨g.attempt, g.token⟩ ∧
      IsRegistered d.history uid g.attempt
  cancelled : ∀ g ∈ d.guards, d.registry.isCancelled g.token = true ↔ WasDisplaced d.history g
  /-- Whoever holds a guard and has not been displaced is still registered. -/
  held : ∀ g, d.IsHeld g → ¬ WasDisplaced d.history g → IsRegistered d.history g.uid g.attempt
  failureCount : ∀ uid, d.registry.failureCount uid = failuresSinceReset uid d.history

namespace Tracks

variable {d : Desk} {g : Guard} {uid : String} {attempt : Nat}

theorem initial : Tracks Desk.initial where
  issued g hg := by cases hg
  cancelledIssued t ht := by cases ht
  token g hg := by cases hg
  attempt g hg := by cases hg
  begun uid attempt := by simp [Desk.initial]
  dropped g hg := by cases hg
  inFlight uid entry := by simp [Desk.initial, Registry.empty]
  cancelled g hg := by cases hg
  held g hg := by cases hg.1
  failureCount uid := rfl

theorem begin_mem (h : Tracks d) (hregistered : IsRegistered d.history uid attempt) :
    ∃ g ∈ d.guards, g.uid = uid ∧ g.attempt = attempt :=
  (h.begun uid attempt).1 (mem_of_lastBegun? hregistered.1)

/-- The registry finds the attempt that is registered according to the record. -/
theorem current?_eq_some_iff (h : Tracks d) :
    d.registry.current? uid = some attempt ↔ IsRegistered d.history uid attempt := by
  rw [current?, Option.map_eq_some_iff]
  constructor
  · rintro ⟨entry, hentry, rfl⟩
    obtain ⟨g, -, -, rfl, hregistered⟩ := (h.inFlight uid entry).1 hentry
    exact hregistered
  · intro hregistered
    obtain ⟨g, hg, huid, rfl⟩ := h.begin_mem hregistered
    exact ⟨⟨g.attempt, g.token⟩, (h.inFlight uid _).2 ⟨g, hg, huid, rfl, hregistered⟩, rfl⟩

/-- The token in the entry of a domain is that of the guard whose attempt is registered. -/
theorem entry_token_iff (h : Tracks d) (hg : g ∈ d.guards) :
    (∃ entry, d.registry.inFlight.get? uid = some entry ∧ entry.token = g.token) ↔
      uid = g.uid ∧ IsRegistered d.history g.uid g.attempt := by
  constructor
  · rintro ⟨entry, hentry, htoken⟩
    obtain ⟨g', hg', rfl, rfl, hregistered⟩ := (h.inFlight uid entry).1 hentry
    obtain rfl : g' = g := h.token g' hg' g hg htoken
    exact ⟨rfl, hregistered⟩
  · rintro ⟨rfl, hregistered⟩
    exact ⟨⟨g.attempt, g.token⟩, (h.inFlight _ _).2 ⟨g, hg, rfl, rfl, hregistered⟩, rfl⟩

/-- Whoever displaces the registered attempt cancels its token and no other. -/
theorem cancelInFlight_iff (h : Tracks d) (hg : g ∈ d.guards) (op : Operation)
    (hop : op.Displaces g.uid ↔ uid = g.uid) :
    (d.registry.cancelInFlight uid).isCancelled g.token = true ↔
      WasDisplaced (op :: d.history) g := by
  rw [isCancelled_cancelInFlight_iff, h.entry_token_iff hg, h.cancelled g hg, wasDisplaced_cons,
    hop, or_comm]

theorem lt_issued_of_cancelInFlight (h : Tracks d) {t : Nat}
    (ht : (d.registry.cancelInFlight uid).isCancelled t = true) : t < d.registry.issued := by
  rcases isCancelled_cancelInFlight_iff.1 ht with ⟨entry, hentry, rfl⟩ | hold
  · obtain ⟨g, hg, -, rfl, -⟩ := (h.inFlight uid entry).1 hentry
    exact h.issued g hg
  · exact h.cancelledIssued t hold

/-- An operation that neither begins an attempt nor drops a guard. -/
theorem keep (h : Tracks d) {op : Operation} {r : Registry} (hbegin : ∀ x id, op ≠ .begin x id)
    (hdrop : ∀ g, op ≠ .drop g) (hinFlight : r.inFlight = d.registry.inFlight)
    (hissued : r.issued = d.registry.issued)
    (hcancelledIssued : ∀ t, r.isCancelled t = true → t < d.registry.issued)
    (hcancelled : ∀ g ∈ d.guards, r.isCancelled g.token = true ↔ WasDisplaced (op :: d.history) g)
    (hfailures : ∀ uid, r.failureCount uid = failuresSinceReset uid (op :: d.history)) :
    Tracks ⟨r, d.guards, op :: d.history⟩ where
  issued g hg := by
    have hold := h.issued g hg
    simpa [hissued] using hold
  cancelledIssued t ht := by
    have hold := hcancelledIssued t ht
    simpa [hissued] using hold
  token := h.token
  attempt := h.attempt
  begun uid attempt := by
    rw [← h.begun, List.mem_cons]
    constructor
    · rintro (hop | hold)
      · exact (hbegin _ _ hop.symm).elim
      · exact hold
    · exact .inr
  dropped g hg := by
    rcases List.mem_cons.1 hg with hop | hold
    · exact (hdrop g hop.symm).elim
    · exact h.dropped g hold
  inFlight uid entry := by
    rw [hinFlight, h.inFlight]
    simp only [isRegistered_cons hbegin hdrop]
  cancelled := hcancelled
  held g hg hkept := by
    have hheld : d.IsHeld g := ⟨hg.1, fun hold => hg.2 (List.mem_cons_of_mem _ hold)⟩
    have hold : ¬ WasDisplaced d.history g := fun hold => hkept (wasDisplaced_cons.2 (.inr hold))
    exact (isRegistered_cons hbegin hdrop).2 (h.held g hheld hold)
  failureCount := hfailures

theorem cancel (h : Tracks d) (uid : String) : Tracks (d.perform (.cancel uid)) := by
  refine h.keep (by simp) (by simp) inFlight_cancelInFlight issued_cancelInFlight ?_ ?_ ?_
  · intro t ht
    exact h.lt_issued_of_cancelInFlight ht
  · intro g hg
    exact h.cancelInFlight_iff hg (.cancel uid) Iff.rfl
  · intro x
    rw [failuresSinceReset_cons, if_neg (by simp), if_neg (by simp), ← h.failureCount]
    exact failureCount_cancelInFlight

theorem not_displaced {op : Operation} (hop : ∀ uid, ¬ op.Displaces uid) :
    WasDisplaced (op :: d.history) g ↔ WasDisplaced d.history g := by
  rw [wasDisplaced_cons]
  constructor
  · rintro (⟨hdisplaces, -⟩ | hold)
    · exact (hop _ hdisplaces).elim
    · exact hold
  · exact .inr

theorem recordFailure (h : Tracks d) (uid : String) :
    Tracks (d.perform (.recordFailure uid)) := by
  refine h.keep (by simp) (by simp) rfl rfl h.cancelledIssued ?_ ?_
  · intro g hg
    rw [not_displaced fun _ => id]
    exact h.cancelled g hg
  · intro x
    rw [failuresSinceReset_cons, if_neg (by simp), failureCount_recordFailure, ← h.failureCount]
    simp only [Operation.recordFailure.injEq, @eq_comm _ x]
    split
    · rename_i hx
      rw [hx]
    · rfl

theorem resetFailures (h : Tracks d) (uid : String) :
    Tracks (d.perform (.resetFailures uid)) := by
  refine h.keep (by simp) (by simp) rfl rfl h.cancelledIssued ?_ ?_
  · intro g hg
    rw [not_displaced fun _ => id]
    exact h.cancelled g hg
  · intro x
    rw [failuresSinceReset_cons, failureCount_resetFailures, ← h.failureCount]
    simp [@eq_comm _ x]

/-- An identifier that has not been given belongs to no guard. -/
theorem attempt_ne_of_fresh (h : Tracks d) (hfresh : ∀ x, .begin x attempt ∉ d.history)
    (hg : g ∈ d.guards) : g.attempt ≠ attempt := by
  rintro rfl
  exact hfresh g.uid ((h.begun _ _).2 ⟨g, hg, rfl, rfl⟩)

theorem attempt_ne_of_dropped (h : Tracks d) (hfresh : ∀ x, .begin x attempt ∉ d.history)
    (g : Guard) (hg : .drop g ∈ d.history) : g.attempt ≠ attempt :=
  h.attempt_ne_of_fresh hfresh (h.dropped g hg)

/-- A new attempt cancels the one that it replaces, and takes its entry. -/
theorem begin (h : Tracks d) (hfresh : ∀ x, .begin x attempt ∉ d.history) :
    Tracks (d.perform (.begin uid attempt)) where
  issued g hg := by
    rcases List.mem_cons.1 hg with rfl | hold
    · exact Nat.lt_succ_self _
    · exact Nat.lt_succ_of_lt (h.issued g hold)
  cancelledIssued t ht := Nat.lt_succ_of_lt (h.lt_issued_of_cancelInFlight ht)
  token g hg g' hg' htoken := by
    rcases List.mem_cons.1 hg with rfl | hold <;> rcases List.mem_cons.1 hg' with rfl | hold'
    · rfl
    · have hlt := h.issued g' hold'
      exact absurd htoken.symm (Nat.ne_of_lt hlt)
    · have hlt := h.issued g hold
      exact absurd htoken (Nat.ne_of_lt hlt)
    · exact h.token g hold g' hold' htoken
  attempt g hg g' hg' hattempt := by
    rcases List.mem_cons.1 hg with rfl | hold <;> rcases List.mem_cons.1 hg' with rfl | hold'
    · rfl
    · exact absurd hattempt.symm (h.attempt_ne_of_fresh hfresh hold')
    · exact absurd hattempt (h.attempt_ne_of_fresh hfresh hold)
    · exact h.attempt g hold g' hold' hattempt
  begun x id := by
    change .begin x id ∈ .begin uid attempt :: d.history ↔
      ∃ g ∈ (d.registry.begin uid attempt).1 :: d.guards, g.uid = x ∧ g.attempt = id
    rw [List.mem_cons, h.begun]
    simp [Registry.begin, eq_comm]
  dropped g hg := by
    rcases List.mem_cons.1 hg with hop | hold
    · cases hop
    · exact List.mem_cons_of_mem _ (h.dropped g hold)
  inFlight x entry := by
    change (d.registry.begin uid attempt).2.inFlight.get? x = some entry ↔
      ∃ g ∈ (d.registry.begin uid attempt).1 :: d.guards, g.uid = x ∧
        entry = ⟨g.attempt, g.token⟩ ∧ IsRegistered (.begin uid attempt :: d.history) x g.attempt
    simp only [get?_begin, isRegistered_begin (h.attempt_ne_of_dropped hfresh)]
    by_cases hx : x = uid
    · simp only [hx, if_true, Option.some.injEq]
      constructor
      · rintro rfl
        exact ⟨_, List.mem_cons_self, rfl, rfl, rfl⟩
      · rintro ⟨g, hg, -, rfl, hattempt⟩
        rcases List.mem_cons.1 hg with rfl | hold
        · rfl
        · exact absurd hattempt (h.attempt_ne_of_fresh hfresh hold)
    · simp only [hx, if_false, h.inFlight]
      constructor
      · rintro ⟨g, hg, hrest⟩
        exact ⟨g, List.mem_cons_of_mem _ hg, hrest⟩
      · rintro ⟨g, hg, huid, hrest⟩
        rcases List.mem_cons.1 hg with rfl | hold
        · exact absurd huid.symm hx
        · exact ⟨g, hold, huid, hrest⟩
  cancelled g hg := by
    rcases List.mem_cons.1 hg with rfl | hold
    · -- The token of the new attempt is new, and nothing could displace the attempt so far.
      constructor
      · intro hcancelled
        exact absurd (h.lt_issued_of_cancelInFlight hcancelled) (Nat.lt_irrefl _)
      · intro hdisplaced
        rcases wasDisplaced_cons.1 hdisplaced with ⟨-, hregistered⟩ | hold
        · exact (hfresh _ (mem_of_lastBegun? hregistered.1)).elim
        · exact (hfresh _ (mem_of_wasDisplaced hold)).elim
    · exact h.cancelInFlight_iff hold (.begin uid attempt) Iff.rfl
  held g hg hkept := by
    apply (isRegistered_begin (h.attempt_ne_of_dropped hfresh)).2
    rcases List.mem_cons.1 hg.1 with rfl | hold
    · exact (if_pos rfl).mpr rfl
    · have hheld : d.IsHeld g := ⟨hold, fun hdrop => hg.2 (List.mem_cons_of_mem _ hdrop)⟩
      rw [history_perform, wasDisplaced_cons, not_or] at hkept
      have hregistered := h.held g hheld hkept.2
      have huid : g.uid ≠ uid := fun huid => hkept.1 ⟨huid.symm, hregistered⟩
      rw [if_neg huid]
      exact hregistered
  failureCount x := by
    change (d.registry.begin uid attempt).2.failureCount x =
      failuresSinceReset x (.begin uid attempt :: d.history)
    rw [failuresSinceReset_cons, if_neg (by simp), if_neg (by simp), ← h.failureCount]
    exact failureCount_begin

/-- A guard that is dropped takes nothing but its own attempt off the registry. -/
theorem drop (h : Tracks d) (hheld : d.IsHeld g) : Tracks (d.perform (.drop g)) where
  issued g' hg' := by
    have hold := h.issued g' hg'
    simpa [Desk.perform] using hold
  cancelledIssued t ht := by
    have hold := h.cancelledIssued t (by simpa [Desk.perform] using ht)
    simpa [Desk.perform] using hold
  token := h.token
  attempt := h.attempt
  begun x id := by
    have hold := h.begun x id
    simpa [Desk.perform] using hold
  dropped g' hg' := by
    rcases List.mem_cons.1 hg' with hop | hold
    · rw [Operation.drop.inj hop]
      exact hheld.1
    · exact h.dropped g' hold
  inFlight x entry := by
    change (d.registry.release g).inFlight.get? x = some entry ↔ ∃ g' ∈ d.guards, g'.uid = x ∧
      entry = ⟨g'.attempt, g'.token⟩ ∧ IsRegistered (.drop g :: d.history) x g'.attempt
    simp only [get?_release, isRegistered_drop, h.inFlight]
    constructor
    · rintro ⟨⟨g', hg', rfl, rfl, hregistered⟩, hother⟩
      refine ⟨g', hg', rfl, rfl, hregistered, fun hattempt => ?_⟩
      obtain rfl : g = g' := h.attempt g hheld.1 g' hg' hattempt
      exact hother ⟨rfl, rfl⟩
    · rintro ⟨g', hg', rfl, rfl, hregistered, hattempt⟩
      exact ⟨⟨g', hg', rfl, rfl, hregistered⟩, fun hown => hattempt hown.2.symm⟩
  cancelled g' hg' := by
    change (d.registry.release g).isCancelled g'.token = true ↔
      WasDisplaced (.drop g :: d.history) g'
    rw [isCancelled_release, not_displaced fun _ => id]
    exact h.cancelled g' hg'
  held g' hg' hkept := by
    have hheld' : d.IsHeld g' := ⟨hg'.1, fun hdrop => hg'.2 (List.mem_cons_of_mem _ hdrop)⟩
    have hregistered := h.held g' hheld' (mt (not_displaced fun _ => id).2 hkept)
    refine isRegistered_drop.2 ⟨hregistered, fun hattempt => ?_⟩
    obtain rfl : g = g' := h.attempt g hheld.1 g' hg'.1 hattempt
    exact hg'.2 List.mem_cons_self
  failureCount x := by
    change (d.registry.release g).failureCount x = failuresSinceReset x (.drop g :: d.history)
    rw [failuresSinceReset_cons, if_neg (by simp), if_neg (by simp), failureCount_release]
    exact h.failureCount x

theorem perform (h : Tracks d) {op : Operation} (hpermits : d.Permits op) :
    Tracks (d.perform op) := by
  cases op with
  | begin uid attempt => exact h.begin hpermits
  | drop g => exact h.drop hpermits
  | cancel uid => exact h.cancel uid
  | recordFailure uid => exact h.recordFailure uid
  | resetFailures uid => exact h.resetFailures uid

end Tracks

/-! ## The account -/

/-- What a desk can tell, in terms of the operations on its record. -/
structure Account (d : Desk) : Prop where
  /-- The current attempt is the one begun last, as long as its guard is held. -/
  current : ∀ uid attempt,
    d.registry.current? uid = some attempt ↔ IsRegistered d.history uid attempt
  /-- Of the guards held for a domain, only that of the current attempt can be uncancelled. -/
  live : ∀ g, d.IsHeld g → d.registry.isCancelled g.token = false →
    d.registry.current? g.uid = some g.attempt
  unique : ∀ g h, d.IsHeld g → d.IsHeld h → g.uid = h.uid →
    d.registry.isCancelled g.token = false → d.registry.isCancelled h.token = false → g = h
  /-- A token is cancelled if its attempt was displaced while it was registered. -/
  cancelled : ∀ g ∈ d.guards,
    d.registry.isCancelled g.token = true ↔ WasDisplaced d.history g
  /-- A cancellation finds an attempt if one is registered. -/
  cancel : ∀ uid, (d.registry.cancel uid).1 = true ↔ ∃ attempt, IsRegistered d.history uid attempt
  /-- The attempts in flight are counted by domain. -/
  inFlightCount :
    d.registry.inFlightCount = {uid | ∃ attempt, IsRegistered d.history uid attempt}.ncard
  /-- Failures are counted from the last reset. -/
  failureCount : ∀ uid, d.registry.failureCount uid = failuresSinceReset uid d.history
  /-- An operation leaves all domains alone but its own. -/
  others : ∀ op, d.Permits op → ∀ uid, uid ≠ op.uid →
    (d.perform op).registry.current? uid = d.registry.current? uid ∧
    ((d.perform op).registry.cancel uid).1 = (d.registry.cancel uid).1 ∧
    (d.perform op).registry.failureCount uid = d.registry.failureCount uid ∧
    ∀ g ∈ d.guards, g.uid = uid →
      (d.perform op).registry.isCancelled g.token = d.registry.isCancelled g.token

namespace Tracks

variable {d : Desk} {uid : String}

theorem cancel_iff (h : Tracks d) :
    (d.registry.cancel uid).1 = true ↔ ∃ attempt, IsRegistered d.history uid attempt := by
  simp only [← h.current?_eq_some_iff, ← Option.isSome_iff_exists, Registry.current?,
    Option.isSome_map]
  rfl

/-- An operation changes who is registered for its own domain only. -/
theorem isRegistered_of_ne (h : Tracks d) {op : Operation} (hpermits : d.Permits op)
    (huid : uid ≠ op.uid) (attempt : Nat) :
    IsRegistered (op :: d.history) uid attempt ↔ IsRegistered d.history uid attempt := by
  cases op with
  | begin x id =>
    have hx : uid ≠ x := huid
    rw [isRegistered_begin (h.attempt_ne_of_dropped hpermits), if_neg hx]
  | drop g =>
    rw [isRegistered_drop, and_iff_left_iff_imp]
    intro hregistered hattempt
    obtain ⟨g', hg', rfl, rfl⟩ := h.begin_mem hregistered
    obtain rfl : g = g' := h.attempt g hpermits.1 g' hg' hattempt
    exact huid rfl
  | cancel | recordFailure | resetFailures => exact isRegistered_cons (by simp) (by simp)

theorem others (h : Tracks d) {op : Operation} (hpermits : d.Permits op) (huid : uid ≠ op.uid) :
    (d.perform op).registry.current? uid = d.registry.current? uid ∧
    ((d.perform op).registry.cancel uid).1 = (d.registry.cancel uid).1 ∧
    (d.perform op).registry.failureCount uid = d.registry.failureCount uid ∧
    ∀ g ∈ d.guards, g.uid = uid →
      (d.perform op).registry.isCancelled g.token = d.registry.isCancelled g.token := by
  have hafter := h.perform hpermits
  refine ⟨?current, ?cancel, ?failureCount, ?cancelled⟩
  case current =>
    apply Option.ext
    intro attempt
    rw [hafter.current?_eq_some_iff, h.current?_eq_some_iff, history_perform]
    exact h.isRegistered_of_ne hpermits huid attempt
  case cancel =>
    rw [Bool.eq_iff_iff, hafter.cancel_iff, h.cancel_iff, history_perform]
    exact exists_congr (h.isRegistered_of_ne hpermits huid)
  case failureCount =>
    rw [hafter.failureCount, h.failureCount, history_perform, failuresSinceReset_cons]
    have hreset : op ≠ .resetFailures uid := by
      rintro rfl
      exact huid rfl
    have hrecord : op ≠ .recordFailure uid := by
      rintro rfl
      exact huid rfl
    rw [if_neg hreset, if_neg hrecord]
  case cancelled =>
    rintro g hg rfl
    have hg' : g ∈ (d.perform op).guards := by
      cases op with
      | begin => exact List.mem_cons_of_mem _ hg
      | drop | cancel | recordFailure | resetFailures => exact hg
    rw [Bool.eq_iff_iff, hafter.cancelled g hg', h.cancelled g hg, history_perform,
      wasDisplaced_cons]
    have hop : ¬ op.Displaces g.uid := by
      intro hdisplaces
      cases op with
      | begin | cancel => exact huid hdisplaces.symm
      | drop | recordFailure | resetFailures => exact hdisplaces
    constructor
    · rintro (⟨hdisplaces, -⟩ | hold)
      · exact (hop hdisplaces).elim
      · exact hold
    · exact .inr

end Tracks

theorem Reachable.tracks {d : Desk} (h : Reachable d) : Tracks d := by
  induction h with
  | initial => exact .initial
  | perform _ hpermits ih => exact ih.perform hpermits

end Desk

/-! ### A desk of two domains -/

namespace Rota

/-- The first attempt on the domain `a`, which the second replaces. -/
def older : Guard := ⟨"a", 1, 0⟩

/-- Two attempts on `a` and one on `b`, which is cancelled.  Then the older attempt on `a` ends
and fails, and the reset between two failures leaves one to be counted. -/
def operations : List Operation :=
  [.begin "a" 1, .begin "a" 2, .begin "b" 3, .cancel "b", .recordFailure "a", .resetFailures "a",
    .drop older, .recordFailure "a"]

end Rota

end Reconcile.Registry
