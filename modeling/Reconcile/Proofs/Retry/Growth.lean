import Reconcile.Proofs.Retry.Delays

/-!
# The growth of the backoff

The backoff follows the exponent of the factor: with a factor of at least one, a greater exponent
never makes it shorter (`Policy.keepsUp_of_exponent`).  The exponent is one less than the retry
number, but it is read as a signed number of 32 bits.  So it falls to the least such number with
the retry after `2 ^ 31`, and the delays start over from there.

`Policy.Climbs` says what this comes to.  The backoff sets out from the initial delay, stays below
the ceiling and grows on either side of that fall.  It never shrinks at all exactly when the retry
after the fall waits as long as the one before it.
-/

namespace Reconcile.Retry

namespace Policy

/-- The backoff of one retry is not longer than the backoff of another. -/
def KeepsUp (p : Policy Rat) (retry later : Nat) : Prop :=
  ∃ a b, p.backoff retry = some a ∧ p.backoff later = some b ∧ a ≤ b

/-- How the backoff goes on from retry to retry, as far as retries can be counted in 32 bits. -/
structure Climbs (p : Policy Rat) : Prop where
  /-- It sets out from the initial delay, or from the ceiling if that is lower. -/
  first : p.backoff 1 = some (p.initial.min p.ceiling)
  /-- There is a backoff for every retry, and it does not exceed the ceiling. -/
  capped : ∀ retry, ∃ d, p.backoff retry = some d ∧ d ≤ p.ceiling
  /-- It does not shrink as long as the exponent is not negative. -/
  ascends : ∀ r s, r ≤ s → s ≤ 2 ^ 31 → p.KeepsUp r s
  /-- Nor does it shrink among the retries with a negative exponent. -/
  ascendsAgain : ∀ r s, 2 ^ 31 < r → r ≤ s → s < 2 ^ 32 → p.KeepsUp r s
  /-- But none of these waits longer than any retry before them. -/
  falls : ∀ r s, r ≤ 2 ^ 31 → 2 ^ 31 < s → s < 2 ^ 32 → p.KeepsUp s r
  /-- So it never shrinks exactly when nothing is lost where the exponent becomes negative. -/
  steady : (∀ r s, 1 ≤ r → r ≤ s → s < 2 ^ 32 → p.KeepsUp r s) ↔
    p.backoff (2 ^ 31 + 1) = p.backoff (2 ^ 31)

variable {p : Policy Rat} {r s t : Nat}

/-! ## Exponents -/

theorem exponent_of_le (h : r ≤ 2 ^ 31) : exponent r = ((r - 1 : Nat) : Int) := by
  have hmodulus : Number.twoTo 32 = 4294967296 := rfl
  rw [exponent, Int.bmod_def, hmodulus]
  omega

theorem exponent_of_lt (h : 2 ^ 31 < r) (hfits : r < 2 ^ 32) :
    exponent r = ((r - 1 : Nat) : Int) - 2 ^ 32 := by
  have hmodulus : Number.twoTo 32 = 4294967296 := rfl
  rw [exponent, Int.bmod_def, hmodulus]
  omega

/-! ## One retry -/

theorem backoff_one (hfactor : 0 ≤ p.factor) : p.backoff 1 = some (p.initial.min p.ceiling) := by
  have hexponent : exponent 1 = 0 := exponent_of_le (by decide)
  rw [backoff_eq hfactor, hexponent, zpow_zero, stretched_eq, mul_one, ← ofSpan_min,
    Span.nearest_ofSpan]

theorem backoff_capped (hfactor : 0 ≤ p.factor) (retry : Nat) :
    ∃ d, p.backoff retry = some d ∧ d ≤ p.ceiling := by
  have hpower : 0 ≤ p.factor ^ exponent retry := zpow_nonneg hfactor _
  exact ⟨_, backoff_eq hfactor retry, le_ceiling_of_toSpan? (p.toSpan?_stretched _ hpower)⟩

/-! ## Two retries -/

theorem keepsUp_of_eq (hfactor : 0 ≤ p.factor) (h : p.backoff s = p.backoff r) :
    p.KeepsUp r s := by
  obtain ⟨d, hd, -⟩ := backoff_capped hfactor r
  exact ⟨d, d, hd, h.trans hd, Nat.le_refl _⟩

theorem KeepsUp.le (h : p.KeepsUp r s) {a b : Span} (ha : p.backoff r = some a)
    (hb : p.backoff s = some b) : a ≤ b := by
  obtain ⟨a', b', ha', hb', hle⟩ := h
  obtain rfl : a' = a := Option.some.inj (ha'.symm.trans ha)
  obtain rfl : b' = b := Option.some.inj (hb'.symm.trans hb)
  exact hle

theorem KeepsUp.trans (hrs : p.KeepsUp r s) (hst : p.KeepsUp s t) : p.KeepsUp r t := by
  obtain ⟨a, b, ha, hb, hab⟩ := hrs
  have ⟨_, c, _, hc, _⟩ := hst
  exact ⟨a, c, ha, hc, Nat.le_trans hab (hst.le hb hc)⟩

theorem KeepsUp.antisymm (hrs : p.KeepsUp r s) (hsr : p.KeepsUp s r) :
    p.backoff s = p.backoff r := by
  obtain ⟨a, b, ha, hb, hab⟩ := hrs
  rw [ha, hb, Span.le_antisymm hab (hsr.le hb ha)]

variable (hfactor : 1 ≤ p.factor)

include hfactor

/-- A greater exponent does not make the backoff shorter. -/
theorem keepsUp_of_exponent (h : exponent r ≤ exponent s) : p.KeepsUp r s := by
  have hnonneg : 0 ≤ p.factor := zero_le_one.trans hfactor
  have hpower : p.factor ^ exponent r ≤ p.factor ^ exponent s := zpow_le_zpow_right₀ hfactor h
  exact ⟨_, _, backoff_eq hnonneg r, backoff_eq hnonneg s,
    Span.nearest_mono (stretched_mono p.initial hpower)⟩

theorem keepsUp_before (hrs : r ≤ s) (hs : s ≤ 2 ^ 31) : p.KeepsUp r s := by
  refine keepsUp_of_exponent hfactor ?_
  rw [exponent_of_le hs, exponent_of_le (hrs.trans hs)]
  omega

theorem keepsUp_after (hr : 2 ^ 31 < r) (hrs : r ≤ s) (hs : s < 2 ^ 32) : p.KeepsUp r s := by
  refine keepsUp_of_exponent hfactor ?_
  rw [exponent_of_lt hr (by omega), exponent_of_lt (by omega) hs]
  omega

theorem keepsUp_across (hr : r ≤ 2 ^ 31) (hs : 2 ^ 31 < s) (hfits : s < 2 ^ 32) :
    p.KeepsUp s r := by
  refine keepsUp_of_exponent hfactor ?_
  rw [exponent_of_le hr, exponent_of_lt hs hfits]
  omega

/-- The backoff of a policy with a factor of at least one grows up to its ceiling, and does so once
more from the retry on at which the exponent becomes negative. -/
theorem climbs : p.Climbs where
  first := backoff_one (zero_le_one.trans hfactor)
  capped := backoff_capped (zero_le_one.trans hfactor)
  ascends _ _ := keepsUp_before hfactor
  ascendsAgain _ _ := keepsUp_after hfactor
  falls _ _ := keepsUp_across hfactor
  steady := by
    have hfall : p.KeepsUp (2 ^ 31 + 1) (2 ^ 31) :=
      keepsUp_across hfactor le_rfl (by omega) (by omega)
    constructor
    · intro hsteady
      exact (hsteady (2 ^ 31) (2 ^ 31 + 1) (by omega) (by omega) (by omega)).antisymm hfall
    · intro hsame r s _ hrs hs
      have hlevel : p.KeepsUp (2 ^ 31) (2 ^ 31 + 1) :=
        keepsUp_of_eq (zero_le_one.trans hfactor) hsame
      rcases le_or_gt s (2 ^ 31) with hbefore | hafter
      · exact keepsUp_before hfactor hrs hbefore
      rcases le_or_gt r (2 ^ 31) with hcrosses | hr
      · exact (keepsUp_before hfactor hcrosses le_rfl).trans
          (hlevel.trans (keepsUp_after hfactor (by omega) hafter hs))
      · exact keepsUp_after hfactor hr hrs hs

end Policy

/-! ### A marathon -/

namespace Marathon

/-- The standard delays with as many retries as can be counted. -/
def policy : Policy Rat := ⟨2 ^ 32 - 1, .ofMillis 200, .ofSeconds 30, 2⟩

/-- The backoff doubles until it has come to the ceiling, and begins to grow anew after it has
fallen. -/
theorem doubles : 1 ≤ policy.factor ∧
    policy.backoff 1 = some (.ofMillis 200) ∧
    policy.KeepsUp 2 (2 ^ 31) ∧
    policy.KeepsUp (2 ^ 31 + 1) (2 ^ 32 - 1) ∧
    policy.KeepsUp (2 ^ 32 - 1) 1 ∧
    ∃ d, policy.backoff (2 ^ 32 - 1) = some d ∧ d ≤ .ofSeconds 30 := by
  have hfactor : 1 ≤ policy.factor := by decide
  obtain ⟨hfirst, hcapped, hascends, hagain, hfalls, -⟩ := Policy.climbs hfactor
  exact ⟨hfactor, hfirst, hascends 2 _ (by decide) le_rfl,
    hagain _ _ (by decide) (by decide) (by decide),
    hfalls 1 _ (by decide) (by decide) (by decide), hcapped _⟩

/-- The ninth retry waits for thirty seconds, as every later one up to the fall does. -/
theorem backoff_highest : policy.backoff (2 ^ 31) = some (.ofSeconds 30) := by
  have hninth : policy.backoff 9 = some (.ofSeconds 30) := by decide +kernel
  have hkeepsUp : policy.KeepsUp 9 (2 ^ 31) :=
    Policy.keepsUp_before (by decide) (by decide) le_rfl
  obtain ⟨d, hd, hcapped⟩ := Policy.backoff_capped (p := policy) (by decide) (2 ^ 31)
  exact hd.trans (congrArg some (Span.le_antisymm hcapped (hkeepsUp.le hninth hd)))

/-- After the fall the delays are too short to be measured. -/
theorem backoff_lowest : policy.backoff (2 ^ 31 + 1) = some .zero := by
  have hlater : policy.backoff (2 ^ 32 - 64) = some .zero := by decide +kernel
  have hkeepsUp : policy.KeepsUp (2 ^ 31 + 1) (2 ^ 32 - 64) :=
    Policy.keepsUp_after (by decide) (by decide) (by decide) (by decide)
  obtain ⟨d, hd, -⟩ := Policy.backoff_capped (p := policy) (by decide) (2 ^ 31 + 1)
  exact hd.trans (congrArg some (Span.le_antisymm (hkeepsUp.le hd hlater) (Nat.zero_le _)))

/-- The backoff shrinks from thirty seconds to none. -/
theorem starts_over : 1 ≤ policy.factor ∧ 1 ≤ 2 ^ 31 ∧ 2 ^ 31 ≤ 2 ^ 31 + 1 ∧ 2 ^ 31 + 1 < 2 ^ 32 ∧
    policy.backoff (2 ^ 31) = some (.ofSeconds 30) ∧
    policy.backoff (2 ^ 31 + 1) = some .zero ∧ ¬ policy.KeepsUp (2 ^ 31) (2 ^ 31 + 1) := by
  refine ⟨by decide, by decide, by decide, by decide, backoff_highest, backoff_lowest, ?_⟩
  intro hkeepsUp
  exact absurd (hkeepsUp.le backoff_highest backoff_lowest) (by decide)

end Marathon

end Reconcile.Retry
