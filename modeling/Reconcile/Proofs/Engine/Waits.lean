import Mathlib.Algebra.Order.BigOperators.Group.List
import Reconcile.Proofs.Engine.Budget
import Reconcile.Proofs.Retry.Spread

/-!
# How long a run waits

A step of a run begins one wait at most, and that is as long as the policy says for some retry, a
request and a draw (`Run.step_waits`).  So every wait of a run in any passage is a delay of its
policy (`Passage.isDelay_of_mem_waits`), and what bounds the delays bounds the waits.

`Policy.BoundsDelays` says what a policy promises of the single delay, and of all the waits of a
run taken together.
-/

namespace Reconcile

variable {𝕊 α κ σ : Type}

/-- A policy makes a step wait for this long before one of its retries. -/
def Retry.Policy.IsDelay [Retry.Seconds 𝕊] (p : Retry.Policy 𝕊) (d : Span) : Prop :=
  ∃ retry requested draw, p.delay retry requested draw = some d

namespace Run

/-- The nanoseconds of all the waits that a run has begun. -/
def timeWaited (r : Run α κ) : Nat := (r.waits.map fun wait => wait.2.nanos).sum

theorem timeWaited_le {r : Run α κ} {limit : Span} (h : ∀ wait ∈ r.waits, wait.2 ≤ limit) :
    r.timeWaited ≤ r.waits.length * limit.nanos := by
  have hnanos : ∀ n ∈ r.waits.map fun wait => wait.2.nanos, n ≤ limit.nanos := by
    intro n hn
    obtain ⟨wait, hwait, rfl⟩ := List.mem_map.1 hn
    exact h wait hwait
  have hsum := List.sum_le_card_nsmul _ _ hnanos
  rwa [List.length_map, Nat.nsmul_eq_mul] at hsum

/-! ## One step -/

section

variable [Retry.Seconds 𝕊] [Named α]
variable (host : Host 𝕊 σ) (policy : Retry.Policy 𝕊) (behaviour : Behaviour α α κ σ)

/-- What follows an action begins a wait of the length that the policy says, or none. -/
theorem progressed_waits (begun : Run α κ) (node : Node α) (more : List (Node α))
    (x : Progress α κ × σ) :
    (begun.progressed host policy node more x).1.waits = begun.waits ∨
      ∃ delay, policy.IsDelay delay ∧
        (begun.progressed host policy node more x).1.waits = begun.waits ++ [(node, delay)] := by
  obtain ⟨progress, s⟩ := x
  match progress with
  | .paused _ | .done (.error _) | .done (.ok .terminate) | .done (.ok .proceed)
  | .done (.ok (.branch _)) => exact .inl rfl
  | .done (.ok (.insert c)) => exact .inl (waits_goTo_keep begun more c.nodes)
  | .done (.ok (.retryAfter requested)) =>
    simp only [progressed, follow, retry]
    split
    case isTrue => exact .inl rfl
    case isFalse =>
      split
      case h_1 => exact .inl rfl
      case h_2 delay hdelay => exact .inr ⟨delay, ⟨_, _, _, hdelay⟩, waits_waited ..⟩

theorem step_waits (r : Run α κ) (s : σ) :
    (r.step host policy behaviour s).1.waits = r.waits ∨
      ∃ node delay, policy.IsDelay delay ∧
        (r.step host policy behaviour s).1.waits = r.waits ++ [(node, delay)] := by
  have hturn := step_turn host policy behaviour r s
  generalize r.step host policy behaviour s = after at hturn ⊢
  cases hturn with
  | rested | completed | resumed | closed | stopped | slept | woke => exact .inl rfl
  | @acted node more begun x hacts =>
    obtain ⟨-, hwaits⟩ := hacts.enacted_eq
    rw [← hwaits]
    exact (progressed_waits host policy begun node more x).imp_right fun ⟨delay, h⟩ =>
      ⟨node, delay, h⟩

end

end Run

/-! ## Whole runs -/

section

variable [Retry.Seconds 𝕊] [Named α]
variable {host : Host 𝕊 σ} {policy : Retry.Policy 𝕊} {behaviour : Behaviour α α κ σ}
  {x : Passage (Run.step host policy behaviour)} {c : Chain α}

theorem Passage.isDelay_of_mem_waits (hstart : x.first = .start c) (n : Nat) :
    ∀ wait ∈ (x.state n).waits, policy.IsDelay wait.2 := by
  induction n with
  | zero =>
    have hfirst : x.state 0 = .start c := hstart
    rw [hfirst]
    exact nofun
  | succ n ih =>
    rw [state_succ]
    rcases Run.step_waits host policy behaviour (x.state n) (x.found n) with
      hsame | ⟨node, delay, hdelay, hmore⟩
    · rwa [hsame]
    · rw [hmore]
      intro wait hwait
      rcases List.mem_append.1 hwait with hbefore | hnew
      · exact ih wait hbefore
      · obtain rfl := List.mem_singleton.1 hnew
        exact hdelay

end

namespace Retry.Policy

/-- What a policy promises of the delays before retries. -/
structure BoundsDelays (p : Policy Rat) : Prop where
  /-- Every delay can be computed, and it does not exceed the ceiling.  Before it is rounded it is
  at least half the longer of the request and the backoff, unless the ceiling is lower. -/
  computed : ∀ retry requested draw, IsSpread draw → ∃ backoff d,
    p.backoff retry = some backoff ∧ p.delay retry requested draw = some d ∧
      Seconds.toSpan? (p.stretched (requested.max backoff) draw) = some d ∧
      min (Seconds.ofSpan p.ceiling)
          (max (Seconds.ofSpan requested) (Seconds.ofSpan backoff) / 2) ≤
        p.stretched (requested.max backoff) draw ∧
      d ≤ p.ceiling
  /-- A longer request does not make it shorter, if nothing else is drawn. -/
  monotone : ∀ retry requested longer draw, IsSpread draw → requested ≤ longer → ∃ d d',
    p.delay retry requested draw = some d ∧ p.delay retry longer draw = some d' ∧ d ≤ d'
  /-- A request of twice the ceiling comes to the ceiling, whatever is drawn. -/
  saturated : ∀ retry requested draw, IsSpread draw → 2 * p.ceiling.nanos ≤ requested.nanos →
    p.delay retry requested draw = some p.ceiling
  /-- A run waits for the ceiling at most, taken as often as it waits. -/
  waited : ∀ {α κ σ : Type} [Named α] {host : Host Rat σ} {behaviour : Behaviour α α κ σ}
    (x : Passage (Run.step host p behaviour)) (c : Chain α), x.first = .start c →
      ∀ n, (x.state n).timeWaited ≤ (x.state n).waits.length * p.ceiling.nanos

/-- The delays of a policy with a positive factor are bounded by its ceiling, and from below by
half of what has been asked for. -/
theorem boundsDelays {p : Policy Rat} (hfactor : 0 < p.factor) : p.BoundsDelays where
  computed retry requested draw hdraw := by
    obtain ⟨backoff, hbackoff⟩ := Option.isSome_iff_exists.1 (backoff_isSome hfactor.le retry)
    obtain ⟨d, hdelay⟩ := Option.isSome_iff_exists.1
      (delay_isSome hfactor.le retry requested hdraw.nonneg)
    refine ⟨backoff, d, hbackoff, hdelay, ?_, le_stretched_of_isSpread hdraw requested backoff,
      delay_le_ceiling hdelay⟩
    rw [← delay_eq_toSpan? hbackoff, hdelay]
  monotone retry _ _ _ hdraw := delay_mono hfactor.le hdraw.nonneg retry
  saturated retry _ _ hdraw := delay_of_long hfactor.le hdraw retry
  waited x c hstart n := by
    refine Run.timeWaited_le fun wait hwait => ?_
    obtain ⟨_, _, _, hdelay⟩ := x.isDelay_of_mem_waits hstart n wait hwait
    exact delay_le_ceiling hdelay

end Retry.Policy

/-! ### A sleeper -/

/-- Somebody asks to be woken again in seven tenths of a second, as often as that is granted. -/
inductive Sleeper
  | snooze

namespace Sleeper

instance : Named Sleeper := ⟨fun _ => "snooze"⟩

def behaviour : Behaviour Sleeper Sleeper Empty (Packet × World Rat Bool) where
  start _ s := (.done (.ok (.retryAfter (.ofMillis 700))), s)
  resume activity := nomatch activity

def policy : Retry.Policy Rat := ⟨3, .ofMillis 200, .ofSeconds 1, 2⟩

/-- The first wait is halved by its draw, and the third made longer. -/
def draw : Nat → Rat
  | 0 => 1 / 2
  | 4 => 5 / 4
  | _ => 1

/-- With each step a second passes. -/
def passage : Passage (Run.step (World.host fun _ => false) policy behaviour) :=
  ⟨.start ⟨⟨some snooze, false⟩, []⟩,
    fun n => (.empty, { Vigil.world with now := 1000 * n, spread := fun _ => draw n })⟩

/-- The three waits are at most as long as the ceiling, and the last one is cut off there. -/
theorem snoozes_bounded : 0 < policy.factor ∧
    Retry.IsSpread (1 / 2) ∧
    (∃ backoff d, policy.backoff 1 = some backoff ∧
      policy.delay 1 (.ofMillis 700) (1 / 2) = some d ∧ d ≤ .ofSeconds 1) ∧
    policy.delay 3 (.ofSeconds 2) (1 / 2) = some (.ofSeconds 1) ∧
    (passage.state 7).waits.map Prod.snd = [.ofMillis 350, .ofMillis 700, .ofSeconds 1] ∧
    (passage.state 7).timeWaited ≤ 3 * (Span.ofSeconds 1).nanos := by
  have hfactor : 0 < policy.factor := by decide
  have hdraw : Retry.IsSpread (1 / 2) := ⟨le_rfl, by decide +kernel⟩
  have hwaits : (passage.state 7).waits.map Prod.snd =
      [.ofMillis 350, .ofMillis 700, .ofSeconds 1] := by decide +kernel
  obtain ⟨hcomputed, -, hsaturated, hwaited⟩ := Retry.Policy.boundsDelays hfactor
  obtain ⟨backoff, d, hbackoff, hdelay, -, -, hcapped⟩ := hcomputed 1 (.ofMillis 700) _ hdraw
  refine ⟨hfactor, hdraw, ⟨backoff, d, hbackoff, hdelay, hcapped⟩,
    hsaturated 3 (.ofSeconds 2) _ hdraw (by decide), hwaits, ?_⟩
  have hlength : (passage.state 7).waits.length = 3 := by
    rw [← List.length_map (f := Prod.snd), hwaits]
    rfl
  have hbound := hwaited passage _ rfl 7
  rwa [hlength] at hbound

end Sleeper

end Reconcile
