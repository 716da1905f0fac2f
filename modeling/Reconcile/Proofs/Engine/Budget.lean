import Reconcile.Proofs.Engine.Visits

/-!
# The budget of retries

`Run.Budgeted` lists what the visits of a run come to, in any passage and however the run is
cancelled.  No step suffers from the retries of another, and a run fails of itself exactly when a
visit asks once too often.

The counter of retries is raised once for every wait that begins, and for nothing else.  What an
action does to the counter on its own account is set apart by `Run.enacted`.
-/

namespace Reconcile

variable {𝕊 α κ σ ε : Type}

/-- The wait that an entry of a journal stands for. -/
def Entry.wait? : Entry α → Option (Node α × Span)
  | .invoked _ => none
  | .waited node delay => some (node, delay)

/-- The waits before retries that a run has begun, oldest first. -/
def Run.waits (r : Run α κ) : List (Node α × Span) := r.journal.reverse.filterMap Entry.wait?

/-- The surroundings as an action leaves them to the run, if the next step of the run is taken in
an action. -/
def Run.enacted (host : Host 𝕊 σ) (behaviour : Behaviour α α κ σ) (r : Run α κ) (s : σ) : σ :=
  match r.phase with
  | .ready (node :: _) =>
    if isStopped host node s then s
    else
      match node.action with
      | none => s
      | some action => (behaviour.start action s).2
  | .acting _ _ activity => (behaviour.resume activity s).2
  | _ => s

/-- Whether every delay of a policy can be computed with the draws of a world. -/
def World.Affords [Retry.Seconds 𝕊] (w : World 𝕊 ε) (policy : Retry.Policy 𝕊) : Prop :=
  ∀ retry requested i, (policy.delay retry requested (w.spread i)).isSome

/-! ## The count of retries -/

namespace World

/-- How many retries have been counted. -/
def retriesCounted (w : World 𝕊 ε) : Nat := w.counters.value .stepRetries

theorem retriesCounted_raise (w : World 𝕊 ε) :
    (w.raise .stepRetries).retriesCounted = w.retriesCounted + 1 := by
  rw [retriesCounted, raise, Counters.value_raise, if_pos rfl]
  rfl

end World

namespace Run

theorem waits_invoked (r : Run α κ) (node : Node α) :
    ({ r with journal := .invoked node :: r.journal } : Run α κ).waits = r.waits := by
  simp [waits, Entry.wait?]

theorem waits_of_journal {r r' : Run α κ} (h : r'.journal = r.journal) : r'.waits = r.waits := by
  rw [waits, waits, h]

theorem waits_goTo_keep (r : Run α κ) (more rest : List (Node α)) :
    ((r.keep more).goTo rest).waits = r.waits := by
  refine waits_of_journal ?_
  rw [keep]
  split <;> rfl

theorem waits_waited (r : Run α κ) (retries : Nat) (phase : Phase α κ) (node : Node α)
    (delay : Span) :
    ({ r with
        retries := retries
        phase := phase
        journal := .waited node delay :: r.journal } : Run α κ).waits =
      r.waits ++ [(node, delay)] := by
  simp [waits, Entry.wait?]

variable [Retry.Seconds 𝕊] [Named α]
variable {isCancelled : World 𝕊 ε → Bool} {policy : Retry.Policy 𝕊}
  {behaviour : Behaviour α α κ (Packet × World 𝕊 ε)} {r begun : Run α κ} {node : Node α}
  {more : List (Node α)} {s : Packet × World 𝕊 ε} {x : Progress α κ × (Packet × World 𝕊 ε)}

omit [Retry.Seconds 𝕊] [Named α] in
theorem Acts.enacted_eq {host : Host 𝕊 σ} {behaviour : Behaviour α α κ σ} {s : σ}
    {x : Progress α κ × σ} (h : Acts host behaviour r s node more begun x) :
    r.enacted host behaviour s = x.2 ∧ begun.waits = r.waits := by
  cases h with
  | starts hphase haction hgo =>
    refine ⟨by simp [enacted, hphase, haction, hgo], waits_invoked r node⟩
  | resumes hphase => exact ⟨by simp [enacted, hphase], rfl⟩

omit [Retry.Seconds 𝕊] [Named α] in
/-- What no action changes is the same when it has been enacted. -/
theorem enacted_related {host : Host 𝕊 σ} {behaviour : Behaviour α α κ σ}
    (Related : σ → σ → Prop) (hrefl : ∀ s, Related s s)
    (hstart : ∀ action s, Related s (behaviour.start action s).2)
    (hresume : ∀ activity s, Related s (behaviour.resume activity s).2) (r : Run α κ) (s : σ) :
    Related s (r.enacted host behaviour s) := by
  unfold enacted
  split
  · split
    · exact hrefl s
    · split
      · exact hrefl s
      · exact hstart _ s
  · exact hresume _ s
  · exact hrefl s

/-- What follows an action counts a retry exactly when it begins a wait. -/
theorem progressed_counted
    (hopen : (begun.progressed (World.host isCancelled) policy node more x).1.phase ≠ .crashed) :
    (begun.progressed (World.host isCancelled) policy node more x).2.2.retriesCounted +
        begun.waits.length =
      x.2.2.retriesCounted +
        (begun.progressed (World.host isCancelled) policy node more x).1.waits.length := by
  obtain ⟨progress, s⟩ := x
  match progress with
  | .paused _ | .done (.error _) | .done (.ok .terminate) | .done (.ok .proceed)
  | .done (.ok (.branch _)) => rfl
  | .done (.ok (.insert c)) =>
    have hwaits := waits_goTo_keep begun more c.nodes
    exact congrArg (s.2.retriesCounted + List.length ·) hwaits.symm
  | .done (.ok (.retryAfter requested)) =>
    simp only [progressed, follow, retry] at hopen ⊢
    split
    case isTrue => rfl
    case isFalse hleft =>
      rw [if_neg hleft] at hopen
      split
      case h_1 hdelay =>
        simp only [hdelay] at hopen
        exact (hopen rfl).elim
      case h_2 delay hdelay =>
        rw [waits_waited, List.length_append]
        have hraised := World.retriesCounted_raise s.2
        show (s.2.raise .stepRetries).retriesCounted + begun.waits.length =
          s.2.retriesCounted + (begun.waits.length + 1)
        omega

theorem step_counted
    (hopen : (r.step (World.host isCancelled) policy behaviour s).1.phase ≠ .crashed) :
    (r.step (World.host isCancelled) policy behaviour s).2.2.retriesCounted + r.waits.length =
      (r.enacted (World.host isCancelled) behaviour s).2.retriesCounted +
        (r.step (World.host isCancelled) policy behaviour s).1.waits.length := by
  have hturn := step_turn (World.host isCancelled) policy behaviour r s
  generalize r.step (World.host isCancelled) policy behaviour s = after at hturn hopen ⊢
  cases hturn with
  | rested hfinal =>
    have hidle : r.enacted (World.host isCancelled) behaviour s = s := by
      cases hphase : r.phase with
      | ready | acting | waiting =>
        rw [hphase] at hfinal
        exact hfinal.elim
      | ended | crashed => simp [enacted, hphase]
    rw [hidle]
  | slept hphase => simp only [enacted, hphase]
  | completed hphase | resumed hphase | woke hphase =>
    simp only [enacted, hphase]
    rfl
  | closed hphase hterminal hgo =>
    simp only [enacted, hphase, hterminal, ite_self]
    rfl
  | stopped hat hstopped =>
    have hidle : r.enacted (World.host isCancelled) behaviour s = s := by
      obtain hphase | ⟨_, hphase⟩ := hat
      · simp [enacted, hphase, hstopped]
      · simp [enacted, hphase]
    rw [hidle]
    rfl
  | acted hacts =>
    obtain ⟨henacted, hwaits⟩ := hacts.enacted_eq
    rw [henacted, ← hwaits]
    exact progressed_counted hopen

theorem step_ne_crashed (hopen : r.phase ≠ .crashed)
    (hdelays : (r.step (World.host isCancelled) policy behaviour s).2.2.Affords policy) :
    (r.step (World.host isCancelled) policy behaviour s).1.phase ≠ .crashed := by
  have hturn := step_turn (World.host isCancelled) policy behaviour r s
  generalize r.step (World.host isCancelled) policy behaviour s = after at hturn hdelays ⊢
  cases hturn with
  | rested | slept => exact hopen
  | completed | resumed | closed | stopped | woke => exact nofun
  | @acted node more begun y hacts =>
    obtain ⟨progress, s'⟩ := y
    match progress with
    | .paused _ | .done (.error _) | .done (.ok .terminate) | .done (.ok .proceed)
    | .done (.ok (.insert _)) | .done (.ok (.branch _)) => exact nofun
    | .done (.ok (.retryAfter requested)) =>
      simp only [progressed, follow, retry] at hdelays ⊢
      split
      case isTrue =>
        intro hcrashed
        cases hcrashed
      case isFalse hleft =>
        rw [if_neg hleft] at hdelays
        split
        case h_1 hdelay =>
          simp only [hdelay] at hdelays
          have hsome : (policy.delay (begun.retries + 1) requested
              ((s'.2.raise .stepRetries).spread (s'.2.raise .stepRetries).draws)).isSome :=
            hdelays _ _ _
          have hnone : policy.delay (begun.retries + 1) requested
              ((s'.2.raise .stepRetries).spread (s'.2.raise .stepRetries).draws) = none := hdelay
          rw [hnone] at hsome
          cases hsome
        case h_2 =>
          intro hcrashed
          cases hcrashed

end Run

/-! ## Whole runs -/

section

variable [Retry.Seconds 𝕊] [Named α]
variable {isCancelled : World 𝕊 ε → Bool} {policy : Retry.Policy 𝕊}
  {behaviour : Behaviour α α κ (Packet × World 𝕊 ε)}

/-- How the retries of a run are spent and counted. -/
structure Run.Budgeted (x : Passage (Run.step (World.host isCancelled) policy behaviour)) :
    Prop where
  /-- A step that is reached, and not by its own retry, has its full budget. -/
  fresh : ∀ n node, x.Enters n node → (x.state n).retries = 0
  /-- A run in front of a step, in its action or in the wait before its retry is in a visit of
  the step. -/
  visited : ∀ n node more, (x.state n).phase.At node more → ∃ b asked, x.Visits node b n asked
  /-- The action of a visit is started at most once more than there are retries. -/
  invoked : ∀ node b n asked, x.Visits node b n asked → ∃ invocations ≤ policy.maxRetries + 1,
    (x.state (n + 1)).invoked = (x.state b).invoked ++ List.replicate invocations node
  /-- The run fails of itself exactly when a visit asks for a retry once too often. -/
  raised : ∀ n fault, x.Raises n fault ↔
    ∃ node b, x.Visits node b (n + 1) (policy.maxRetries + 1) ∧
      fault = .retriesExhausted node.name policy.maxRetries
  retries : ∀ n, (x.state n).retries ≤ policy.maxRetries
  /-- Apart from what an action does to the counter, a step raises it once for a wait that
  begins. -/
  counted : (∀ n, (x.left n).2.Affords policy) → ∀ n,
    (x.left n).2.retriesCounted + (x.state n).waits.length =
      ((x.state n).enacted (World.host isCancelled) behaviour (x.found n)).2.retriesCounted +
        (x.state (n + 1)).waits.length
  /-- When neither actions nor others touch the counter, it tells how many waits have begun. -/
  total : (∀ n, (x.left n).2.Affords policy) →
    (∀ n, ((x.state n).enacted (World.host isCancelled) behaviour (x.found n)).2.retriesCounted =
      (x.found n).2.retriesCounted) →
    (∀ n, (x.found (n + 1)).2.retriesCounted = (x.left n).2.retriesCounted) →
    ∀ n, (x.found n).2.retriesCounted = (x.found 0).2.retriesCounted + (x.state n).waits.length
  /-- The run does not crash if all delays can be computed. -/
  sound : (∀ n, (x.left n).2.Affords policy) → ∀ n, (x.state n).phase ≠ .crashed

namespace Passage

open Run

variable {x : Passage (Run.step (World.host isCancelled) policy behaviour)} {c : Chain α}

theorem ne_crashed (hstart : x.first = .start c) (hdelays : ∀ n, (x.left n).2.Affords policy)
    (n : Nat) : (x.state n).phase ≠ .crashed := by
  induction n with
  | zero =>
    have hfirst : x.state 0 = .start c := hstart
    rw [hfirst]
    exact nofun
  | succ n ih => exact step_ne_crashed ih (hdelays n)

/-- Every run has a full budget at every step that it comes to, however its actions answer and
whenever it is cancelled. -/
theorem budgeted (hstart : x.first = .start c) : Run.Budgeted x where
  fresh n node h := x.retries_of_enters hstart h
  visited n node more hat := x.exists_visits hstart hat
  invoked node b n asked h := (h.underway hstart).invoked_step
  raised n fault := by
    refine ⟨fun h => x.visits_of_raises hstart h, ?_⟩
    rintro ⟨node, b, hvisits, rfl⟩
    exact x.raises_of_visits hstart hvisits
  retries n := x.retries_le hstart n
  counted hdelays n := step_counted (x.ne_crashed hstart hdelays (n + 1))
  total hdelays hactions hothers n := by
    induction n with
    | zero =>
      have hfirst : x.state 0 = .start c := hstart
      rw [hfirst]
      rfl
    | succ n ih =>
      have hcounted := step_counted (x.ne_crashed hstart hdelays (n + 1))
      have hleft : (x.left n).2.retriesCounted + (x.state n).waits.length =
        ((x.state n).enacted (World.host isCancelled) behaviour (x.found n)).2.retriesCounted +
          (x.state (n + 1)).waits.length := hcounted
      rw [hactions n] at hleft
      rw [hothers n]
      omega
  sound hdelays n := x.ne_crashed hstart hdelays n

end Passage

end

/-! ### Two askers -/

/-- An action that asks for a retry once, and one that always does. -/
inductive Asker
  | modest
  | stubborn

namespace Asker

instance : Named Asker where
  name
    | modest => "modest"
    | stubborn => "stubborn"

/-- The world remembers that the modest action has asked. -/
def behaviour : Behaviour Asker Asker Empty (Packet × World Rat Bool) where
  start
    | modest, (packet, world) =>
      if world.extra then (.done (.ok .proceed), packet, world)
      else (.done (.ok (.retryAfter .zero)), packet, { world with extra := true })
    | stubborn, s => (.done (.ok (.retryAfter .zero)), s)
  resume activity := nomatch activity

/-- A single retry. -/
def policy : Retry.Policy Rat := ⟨1, .ofMillis 2, .ofSeconds 1, 2⟩

def modestly : Node Asker := ⟨some modest, false⟩

def stubbornly : Node Asker := ⟨some stubborn, false⟩

/-- After each step a second passes. -/
def others (_ : Nat) (s : Packet × World Rat Bool) : Packet × World Rat Bool :=
  (s.1, { s.2 with now := s.2.now + 1000 })

/-- The run in front of a step, and its surroundings. -/
def scene : Nat → Run Asker Empty × Packet × World Rat Bool :=
  Passage.scene (Run.step (World.host fun _ => false) policy behaviour)
    (.start ⟨modestly, [stubbornly]⟩) (.empty, Vigil.world) others

def passage : Passage (Run.step (World.host fun _ => false) policy behaviour) :=
  .among _ (.start ⟨modestly, [stubbornly]⟩) (.empty, Vigil.world) others

/-- A run in the wait before the first retry of a step. -/
def waits (node : Node Asker) (more : List (Node Asker)) (deadline : Nat)
    (journal : List (Entry Asker)) : Run Asker Empty :=
  ⟨1, [], .waiting node more deadline, .waited node (.ofMillis 2) :: .invoked node :: journal⟩

/-- The surroundings after a retry has been counted. -/
def counted (s : Packet × World Rat Bool) : Packet × World Rat Bool :=
  (s.1, (s.2.raise .stepRetries).draw.2)

/-- The first request of a step is granted. -/
theorem step_asks {asker : Asker} {node : Node Asker} (more : List (Node Asker))
    (journal : List (Entry Asker)) {s s' : Packet × World Rat Bool}
    (haction : node.action = some asker)
    (hanswer : behaviour.start asker s = (.done (.ok (.retryAfter .zero)), s'))
    (hspread : s'.2.spread = fun _ => 1) :
    Run.step (World.host fun _ => false) policy behaviour
        ⟨0, [], .ready (node :: more), journal⟩ s =
      (waits node more (s'.2.now + 2) journal, counted s') := by
  have hone : policy.delay (0 + 1) .zero 1 = some (.ofMillis 2) := by decide +kernel
  have hdelay : policy.delay (0 + 1) .zero (s'.2.spread s'.2.draws) = some (.ofMillis 2) := by
    rw [hspread]
    exact hone
  have hgo : Run.isStopped (World.host fun _ : World Rat Bool => false) node s = false := by
    simp [Run.isStopped, World.host]
  rw [Run.step_start rfl haction hgo, hanswer]
  simp only [Run.progressed, Run.follow, Run.retry, World.host, World.draw, World.raise, hdelay]
  rfl

theorem scene_one : scene 1 = (waits modestly [stubbornly] 2 [],
    others 0 (counted (.empty, { Vigil.world with extra := true }))) := by
  have hanswer : behaviour.start modest (.empty, Vigil.world) =
      (.done (.ok (.retryAfter .zero)), .empty, { Vigil.world with extra := true }) := rfl
  have haction : modestly.action = some modest := rfl
  have hstep := step_asks [stubbornly] [] haction hanswer rfl
  exact congrArg (fun next => (next.1, others 0 next.2)) hstep

theorem scene_three : scene 3 =
    (⟨0, [], .ready [stubbornly], .invoked modestly :: (waits modestly [] 2 []).journal⟩,
      others 2 (others 1 (scene 1).2)) := by
  rw [scene, Passage.scene, Passage.scene, ← scene, scene_one]
  rfl

theorem scene_four : scene 4 =
    (waits stubbornly [] 3002 (scene 3).1.journal, others 3 (counted (scene 3).2)) := by
  rw [scene, Passage.scene, ← scene, scene_three, scene_one]
  have hanswer : behaviour.start stubborn (scene 3).2 =
      (.done (.ok (.retryAfter .zero)), (scene 3).2) := rfl
  have haction : stubbornly.action = some stubborn := rfl
  have hspread : (scene 3).2.2.spread = fun _ => 1 := by
    rw [scene_three, scene_one]
    rfl
  have hstep := step_asks [] (.invoked modestly :: (waits modestly [] 2 []).journal) haction hanswer
    hspread
  rw [scene_three, scene_one] at hstep
  exact congrArg (fun next => (next.1, others 3 next.2)) hstep

theorem scene_five : scene 5 =
    ({ (scene 4).1 with phase := .ready [stubbornly] }, others 4 (scene 4).2) := by
  rw [scene, Passage.scene, ← scene, scene_four, scene_three, scene_one]
  rfl

theorem state_eq (n : Nat) : passage.state n = (scene n).1 := Passage.state_among ..

/-- Neither of the actions touches the draws or the count of retries. -/
theorem start_keeps (asker : Asker) (s : Packet × World Rat Bool) :
    (behaviour.start asker s).2.2.spread = s.2.spread ∧
      (behaviour.start asker s).2.2.retriesCounted = s.2.retriesCounted := by
  cases asker with
  | modest =>
    simp only [behaviour]
    split <;> exact ⟨rfl, rfl⟩
  | stubborn => exact ⟨rfl, rfl⟩

theorem spread_left (n : Nat) : (passage.left n).2.spread = (passage.found n).2.spread :=
  Run.step_keeps (fun s : Packet × World Rat Bool => s.2.spread) (fun _ => rfl) (fun _ => rfl)
    (fun a s => (start_keeps a s).1) (fun activity => nomatch activity) _ _

theorem spread_found (n : Nat) : (passage.found n).2.spread = fun _ => 1 := by
  induction n with
  | zero => rfl
  | succ n ih => rw [passage, Passage.found_among_succ, ← ih, ← spread_left]; rfl

theorem affords (n : Nat) : (passage.left n).2.Affords policy := by
  intro retry requested i
  have hdraw : (0 : Rat) ≤ 1 := by decide
  rw [spread_left, spread_found]
  exact Retry.Policy.delay_isSome (by decide) retry requested hdraw

theorem answer_stubborn {n : Nat} (hphase : (passage.state n).phase = .ready [stubbornly]) :
    passage.answer? n = some (.ok (.retryAfter .zero)) := by
  rw [Passage.answer?, Run.answer?, hphase]
  rfl

/-- The stubborn step has a retry of its own, although the modest one has used one up.  It fails
with its second request, and two retries have been counted. -/
theorem stubborn_fails :
    (passage.state 3).retries = 0 ∧
      passage.Raises 5 (.retriesExhausted "stubborn" 1) ∧
      (passage.found 6).2.retriesCounted = 2 := by
  obtain ⟨hfresh, -, -, hraised, -, -, htotal, -⟩ := passage.budgeted rfl
  have hthree : (passage.state 3).phase = .ready [stubbornly] := by
    rw [state_eq, scene_three]
  have hfour : (passage.state 4).phase = .waiting stubbornly [] 3002 := by
    rw [state_eq, scene_four]
    rfl
  have hfive : (passage.state 5).phase = .ready [stubbornly] := by
    rw [state_eq, scene_five]
  have henters : passage.Enters 3 stubbornly := by
    refine ⟨⟨[], hthree⟩, fun m hm => ?_⟩
    obtain rfl : m = 2 := by omega
    rintro ⟨node, more, deadline, hwaiting⟩
    rw [state_eq, scene, Passage.scene, ← scene, scene_one] at hwaiting
    cases hwaiting
  have hvisits : passage.Visits stubbornly 3 6 2 :=
    .asks (.waits (.asks (.enters henters) (answer_stubborn hthree)) hfour) (answer_stubborn hfive)
  have hactions : ∀ n, ((passage.state n).enacted (World.host fun _ => false) behaviour
      (passage.found n)).2.retriesCounted = (passage.found n).2.retriesCounted := fun n =>
    Run.enacted_related (fun s s' => s'.2.retriesCounted = s.2.retriesCounted) (fun _ => rfl)
      (fun a s => (start_keeps a s).2) (fun activity => nomatch activity) _ _
  have hothers : ∀ n, (passage.found (n + 1)).2.retriesCounted =
      (passage.left n).2.retriesCounted := by
    intro n
    rw [passage, Passage.found_among_succ]
    rfl
  refine ⟨hfresh 3 stubbornly henters, (hraised 5 _).2 ⟨stubbornly, 3, hvisits, rfl⟩, ?_⟩
  rw [htotal affords hactions hothers 6, state_eq, scene, Passage.scene, ← scene, scene_five,
    scene_four, scene_three, scene_one]
  rfl

end Asker

end Reconcile
