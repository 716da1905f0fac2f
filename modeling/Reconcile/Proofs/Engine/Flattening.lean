import Reconcile.Proofs.Engine.Drive
import Reconcile.Proofs.Engine.Levels
import Reconcile.Proofs.Retry.Delays

/-!
# The list of pending chains is the nesting of levels

A run keeps the rest of a level in its list of pending chains while an inserted chain runs, and
keeps nothing when nothing is left.  `level_reaches` follows a structured level through the
machine, for any list of pending chains: a level that completes leaves the list as it found it,
with nothing ready in front of it, and any other end is the end of the run.  `exists_level` goes
the other way, by induction on the fuel of a run that ends.
-/

namespace Reconcile

/-- The same surroundings, in which nobody cancels the run. -/
def Host.uncancelled {𝕊 σ : Type} (host : Host 𝕊 σ) : Host 𝕊 σ :=
  { host with isCancelled := fun _ => false }

theorem Host.isCancelled_uncancelled {𝕊 σ : Type} (host : Host 𝕊 σ) (s : σ) :
    host.uncancelled.isCancelled s = false := rfl

namespace Run

variable {𝕊 α κ σ : Type}

/-- The pending chains while an inserted chain runs in front of `more`. -/
def kept (more : List (Node α)) (pending : List (List (Node α))) : List (List (Node α)) :=
  if more.isEmpty then pending else more :: pending

theorem not_mem_kept {more : List (Node α)} {pending : List (List (Node α))}
    (h : [] ∉ pending) : [] ∉ kept more pending := by
  cases more with
  | nil => exact h
  | cons node more => simpa [kept] using h

theorem flatten_kept (more : List (Node α)) (pending : List (List (Node α))) :
    (kept more pending).flatten = more ++ pending.flatten := by
  cases more <;> rfl

theorem keep_goTo (r : Run α κ) (more rest : List (Node α)) :
    (r.keep more).goTo rest = ⟨0, kept more r.pending, .ready rest, r.journal⟩ := by
  cases more <;> rfl

/-- Where a level leaves the machine: a level that completes leaves nothing ready in front of
the pending chains, and with any other result the run has ended. -/
def IsLeft (pending : List (List (Node α))) (journal : List (Entry α))
    (result : Except Fault Outcome) (r : Run α κ) : Prop :=
  (result = .ok .completed ∧ r = ⟨0, pending, .ready [], journal⟩) ∨
    (result ≠ .ok .completed ∧ r.phase = .ended result ∧ r.journal = journal)

theorem IsLeft.of_completed {pending : List (List (Node α))} {journal : List (Entry α)}
    {r : Run α κ} (h : IsLeft pending journal (.ok .completed) r) :
    r = ⟨0, pending, .ready [], journal⟩ := by
  rcases h with ⟨-, hr⟩ | ⟨hne, -⟩
  · exact hr
  · exact absurd rfl hne

/-- With a result other than completion it does not matter what is pending. -/
theorem IsLeft.of_not_completed {pending pending' : List (List (Node α))}
    {journal : List (Entry α)} {result : Except Fault Outcome} {r : Run α κ}
    (hne : result ≠ .ok .completed) (h : IsLeft pending journal result r) :
    IsLeft pending' journal result r := by
  rcases h with ⟨heq, -⟩ | hr
  · exact absurd heq hne
  · exact .inr hr

theorem isStopped_of_not_cancelled {host : Host 𝕊 σ} {node : Node α} {s : σ}
    (h : host.isCancelled s = false) : isStopped host node s = false := by
  simp [isStopped, h]

variable [Retry.Seconds 𝕊] [Named α]
variable {host : Host 𝕊 σ} {sleep : Nat → σ → σ} {policy : Retry.Policy 𝕊}
  {behaviour : Behaviour α α κ σ}

/-! ## Single moves -/

/-- What follows an action does not depend on the phase in which its end was noticed. -/
theorem follow_phase (r : Run α κ) (phase : Phase α κ) (node : Node α) (more : List (Node α))
    (result : Except Fault (Directive α)) (s : σ) :
    follow host policy { r with phase := phase } node more result s =
      follow host policy r node more result s := by
  match result with
  | .error _ => rfl
  | .ok .proceed => rfl
  | .ok (.insert _) => cases more <;> rfl
  | .ok (.branch _) => rfl
  | .ok .terminate => rfl
  | .ok (.retryAfter _) => simp only [follow, retry, finish]

theorem tick_invoked {node : Node α} {action : α} {s : σ} (haction : node.action = some action)
    (hgo : isStopped host node s = false) (retries : Nat) (pending : List (List (Node α)))
    (more : List (Node α)) (journal : List (Entry α)) :
    tick host sleep policy behaviour (⟨retries, pending, .ready (node :: more), journal⟩, s) =
      progressed host policy ⟨retries, pending, .ready (node :: more), .invoked node :: journal⟩
        node more (behaviour.start action s) := by
  simp [tick, step, hgo, haction]

section

variable (hfree : ∀ s, host.isCancelled s = false)

include hfree

theorem tick_action {node : Node α} {action : α} (haction : node.action = some action)
    (retries : Nat) (pending : List (List (Node α))) (more : List (Node α))
    (journal : List (Entry α)) (s : σ) :
    tick host sleep policy behaviour (⟨retries, pending, .ready (node :: more), journal⟩, s) =
      progressed host policy ⟨retries, pending, .ready (node :: more), .invoked node :: journal⟩
        node more (behaviour.start action s) :=
  tick_invoked haction (isStopped_of_not_cancelled (hfree s)) retries pending more journal

theorem tick_terminal {node : Node α} (hterminal : node.action = none) (retries : Nat)
    (pending : List (List (Node α))) (more : List (Node α)) (journal : List (Entry α)) (s : σ) :
    tick host sleep policy behaviour
        ((⟨retries, pending, .ready (node :: more), journal⟩ : Run α κ), s) =
      (⟨retries, pending, .ready [], journal⟩, s) := by
  simp [tick, step, isStopped_of_not_cancelled (hfree _), hterminal]

theorem tick_waiting (htime : ∀ d s, d ≤ host.now (sleep d s)) (retries : Nat)
    (pending : List (List (Node α))) (node : Node α) (more : List (Node α)) (deadline : Nat)
    (journal : List (Entry α)) (s : σ) :
    tick host sleep policy behaviour
        ((⟨retries, pending, .waiting node more deadline, journal⟩ : Run α κ), s) =
      (⟨retries, pending, .ready (node :: more), journal⟩, sleep deadline s) := by
  simp [tick, step, isStopped_of_not_cancelled (hfree _), htime]

end

/-- When nothing is ready, the innermost pending chain is resumed. -/
theorem reaches_resumed (more : List (Node α)) (pending : List (List (Node α)))
    (journal : List (Entry α)) (s : σ) :
    Reaches host sleep policy behaviour
      ((⟨0, kept more pending, .ready [], journal⟩ : Run α κ), s)
      (⟨0, pending, .ready more, journal⟩, s) := by
  cases more with
  | nil => exact Reaches.refl _
  | cons node more => exact Reaches.of_tick rfl (Reaches.refl _)

/-! ## From levels to the machine -/

variable (host sleep policy) in
/-- An action that returns is followed by what its result says. -/
theorem returns_reaches {x : Progress α κ × σ} {result : Except Fault (Directive α)} {s' : σ}
    (h : behaviour.Returns x result s') (r : Run α κ) (node : Node α) (more : List (Node α)) :
    Reaches host sleep policy behaviour (progressed host policy r node more x)
      (follow host policy r node more result s') := by
  induction h generalizing r with
  | done => exact Reaches.refl _
  | @paused activity s s' result _ ih =>
    refine Reaches.of_tick rfl ?_
    rw [← follow_phase r (.acting node more activity)]
    exact ih _

theorem retry_of_exhausted {retries : Nat} (h : policy.maxRetries ≤ retries)
    (pending : List (List (Node α))) (phase : Phase α κ) (journal : List (Entry α))
    (node : Node α) (more : List (Node α)) (requested : Span) (s : σ) :
    follow host policy ⟨retries, pending, phase, journal⟩ node more
        (.ok (.retryAfter requested)) s =
      follow host policy ⟨retries, pending, phase, journal⟩ node more
        (.error (.retriesExhausted node.name retries)) s := by
  simp [follow, retry, h]

theorem retry_of_no_delay {retries : Nat} {requested : Span} {s : σ}
    (h : retries < policy.maxRetries)
    (hdelay : policy.delay (retries + 1) requested (host.draw (host.countRetry s)).1 = none)
    (pending : List (List (Node α))) (phase : Phase α κ) (journal : List (Entry α))
    (node : Node α) (more : List (Node α)) :
    follow host policy ⟨retries, pending, phase, journal⟩ node more
        (.ok (.retryAfter requested)) s =
      (⟨retries, pending, .crashed, journal⟩, drawn host.toClock host.countRetry s) := by
  have hlt : ¬ policy.maxRetries ≤ retries := by omega
  simp [follow, retry, hlt, hdelay, drawn]

theorem retry_of_lt {retries : Nat} {delay requested : Span} {s : σ}
    (h : retries < policy.maxRetries)
    (hdelay : policy.delay (retries + 1) requested (host.draw (host.countRetry s)).1 = some delay)
    (pending : List (List (Node α))) (phase : Phase α κ) (journal : List (Entry α))
    (node : Node α) (more : List (Node α)) :
    follow host policy ⟨retries, pending, phase, journal⟩ node more
        (.ok (.retryAfter requested)) s =
      (⟨retries + 1, pending,
        .waiting node more (host.now (drawn host.toClock host.countRetry s) + delay.millisUp),
        .waited node delay :: journal⟩, drawn host.toClock host.countRetry s) := by
  have hlt : ¬ policy.maxRetries ≤ retries := by omega
  simp [follow, retry, hlt, hdelay, drawn]

section

variable (hfree : ∀ s, host.isCancelled s = false) (htime : ∀ d s, d ≤ host.now (sleep d s))

include hfree htime

/-- A visit comes to its result with the pending chains as they were. -/
theorem visit_reaches {node : Node α} {action : α} {retries : Nat} {s s' : σ}
    {trace : List (Entry α)} {result : Except Fault (Directive α)}
    (haction : node.action = some action)
    (h : Visit host.toClock host.countRetry sleep policy behaviour node action retries s trace
      result s')
    (pending : List (List (Node α))) (more : List (Node α)) (journal : List (Entry α)) :
    ∃ retries' phase, Reaches host sleep policy behaviour
      (progressed host policy
        ⟨retries, pending, .ready (node :: more), .invoked node :: journal⟩ node more
        (behaviour.start action s))
      (follow host policy ⟨retries', pending, phase, trace.reverse ++ journal⟩ node more
        result s') := by
  induction h generalizing journal with
  | settled hreturns _ => exact ⟨_, _, returns_reaches _ _ _ hreturns _ node more⟩
  | @exhausted retries s s' requested hreturns hspent =>
    refine ⟨retries, .ready (node :: more), ?_⟩
    have hreach := returns_reaches host sleep policy hreturns
      ⟨retries, pending, .ready (node :: more), .invoked node :: journal⟩ node more
    rwa [retry_of_exhausted hspent] at hreach
  | @retried retries s s₁ s' requested delay trace result hreturns hlt hdelay _ ih =>
    obtain ⟨retries', phase, hrest⟩ := ih (.waited node delay :: .invoked node :: journal)
    refine ⟨retries', phase, ?_⟩
    have hwait := returns_reaches host sleep policy hreturns
      ⟨retries, pending, .ready (node :: more), .invoked node :: journal⟩ node more
    rw [retry_of_lt hlt hdelay] at hwait
    have hagain := (Reaches.of_tick (tick_waiting hfree htime _ _ _ _ _ _ _)
      (Reaches.of_tick (tick_action hfree haction _ _ _ _ _) hrest))
    simpa using hwait.trans hagain

/-- A step that is reached comes to the result of its visit. -/
theorem ready_reaches {node : Node α} {action : α} {s s' : σ} {trace : List (Entry α)}
    {result : Except Fault (Directive α)} (haction : node.action = some action)
    (h : Visit host.toClock host.countRetry sleep policy behaviour node action 0 s trace result s')
    (pending : List (List (Node α))) (more : List (Node α)) (journal : List (Entry α)) :
    ∃ retries phase, Reaches host sleep policy behaviour
      (tick host sleep policy behaviour (⟨0, pending, .ready (node :: more), journal⟩, s))
      (follow host policy ⟨retries, pending, phase, trace.reverse ++ journal⟩ node more
        result s') := by
  rw [tick_action hfree haction]
  exact visit_reaches hfree htime haction h pending more journal

/-- A level runs through the machine in front of any pending chains. -/
theorem level_reaches {nodes : List (Node α)} {s s' : σ} {trace : List (Entry α)}
    {result : Except Fault Outcome}
    (h : Level host.toClock host.countRetry sleep policy behaviour nodes s trace result s')
    (pending : List (List (Node α))) (journal : List (Entry α)) :
    ∃ r, IsLeft pending (trace.reverse ++ journal) result r ∧
      Reaches host sleep policy behaviour (⟨0, pending, .ready nodes, journal⟩, s) (r, s') := by
  induction h generalizing pending journal with
  | empty => exact ⟨_, .inl ⟨rfl, rfl⟩, Reaches.refl _⟩
  | terminal hterminal =>
    exact ⟨_, .inl ⟨rfl, rfl⟩,
      Reaches.of_tick (tick_terminal hfree hterminal _ _ _ _ _) (Reaches.refl _)⟩
  | @proceed node more action s s₁ s₂ trace trace₁ result haction hvisit _ ih =>
    obtain ⟨retries, phase, hreach⟩ :=
      ready_reaches hfree htime haction hvisit pending more journal
    obtain ⟨r, hleft, hrest⟩ := ih pending (trace.reverse ++ journal)
    refine ⟨r, by simpa using hleft, ?_⟩
    exact Reaches.of_tick rfl (hreach.trans hrest)
  | @insert node more action c s s₁ s₂ s₃ trace trace₁ trace₂ result haction hvisit _ _ ih₁ ih₂ =>
    obtain ⟨retries, phase, hreach⟩ :=
      ready_reaches hfree htime haction hvisit pending more journal
    -- the inserted chain runs in front of the rest of its level, which is then resumed
    obtain ⟨r₁, hleft₁, hsub⟩ := ih₁ (kept more pending) (trace.reverse ++ journal)
    obtain rfl := hleft₁.of_completed
    obtain ⟨r₂, hleft₂, hrest⟩ := ih₂ pending (trace₁.reverse ++ (trace.reverse ++ journal))
    refine ⟨r₂, by simpa using hleft₂, ?_⟩
    refine Reaches.of_tick rfl (hreach.trans ?_)
    rw [follow, keep_goTo]
    exact hsub.trans ((reaches_resumed _ _ _ _).trans hrest)
  | @insertLast node more action c s s₁ s₂ trace trace₁ result haction hvisit _ hne ih =>
    obtain ⟨retries, phase, hreach⟩ :=
      ready_reaches hfree htime haction hvisit pending more journal
    obtain ⟨r, hleft, hsub⟩ := ih (kept more pending) (trace.reverse ++ journal)
    refine ⟨r, by simpa using hleft.of_not_completed hne, ?_⟩
    refine Reaches.of_tick rfl (hreach.trans ?_)
    rw [follow, keep_goTo]
    exact hsub
  | @branch node more action c s s₁ s₂ trace trace₁ result haction hvisit _ ih =>
    obtain ⟨retries, phase, hreach⟩ :=
      ready_reaches hfree htime haction hvisit pending more journal
    obtain ⟨r, hleft, hsub⟩ := ih pending (trace.reverse ++ journal)
    refine ⟨r, by simpa using hleft, ?_⟩
    exact Reaches.of_tick rfl (hreach.trans hsub)
  | @terminate node more action s s₁ trace haction hvisit =>
    obtain ⟨retries, phase, hreach⟩ :=
      ready_reaches hfree htime haction hvisit pending more journal
    refine ⟨_, ?_, Reaches.of_tick rfl hreach⟩
    exact .inr ⟨by simp, rfl, rfl⟩
  | @fault node more action fault s s₁ trace haction hvisit =>
    obtain ⟨retries, phase, hreach⟩ :=
      ready_reaches hfree htime haction hvisit pending more journal
    refine ⟨_, ?_, Reaches.of_tick rfl hreach⟩
    exact .inr ⟨by simp, rfl, rfl⟩

/-- The level of a whole chain runs to the end of the run. -/
theorem level_reaches_end {c : Chain α} {s s' : σ} {trace : List (Entry α)}
    {result : Except Fault Outcome}
    (h : Level host.toClock host.countRetry sleep policy behaviour c.nodes s trace result s') :
    ∃ r, r.phase = .ended result ∧ r.journal = trace.reverse ∧
      Reaches host sleep policy behaviour (start c, s) (r, s') := by
  obtain ⟨r, hleft, hreach⟩ := level_reaches hfree htime h [] []
  rw [List.append_nil] at hleft
  rcases hleft with ⟨rfl, rfl⟩ | ⟨-, hended, hjournal⟩
  · exact ⟨_, rfl, rfl, hreach.trans (Reaches.of_tick rfl (Reaches.refl _))⟩
  · exact ⟨r, hended, hjournal, hreach⟩

/-! ## From the machine to levels -/

omit hfree htime in
/-- An action in a run that ends returns. -/
theorem exists_returns {n : Nat} {x : Progress α κ × σ} {r : Run α κ} {node : Node α}
    {more : List (Node α)}
    (hfinal : (drive host sleep policy behaviour n (progressed host policy r node more x).1
      (progressed host policy r node more x).2).1.phase.IsFinal) :
    ∃ result s', behaviour.Returns x result s' := by
  induction n generalizing x r with
  | zero =>
    obtain ⟨progress, s⟩ := x
    cases progress with
    | paused activity => exact absurd hfinal (by simp [drive, progressed, Phase.IsFinal])
    | done result => exact ⟨result, s, .done⟩
  | succ n ih =>
    obtain ⟨progress, s⟩ := x
    cases progress with
    | paused activity =>
      rw [drive_succ] at hfinal
      obtain ⟨result, s', hreturns⟩ := ih hfinal
      exact ⟨result, s', .paused hreturns⟩
    | done result => exact ⟨result, s, .done⟩

/-- A step that is reached in a run that ends has a visit. -/
theorem exists_visit {n retries : Nat} {pending : List (List (Node α))} {node : Node α}
    {more : List (Node α)} {journal : List (Entry α)} {s : σ} {action : α}
    {last : Except Fault Outcome} (haction : node.action = some action)
    (hend : (drive host sleep policy behaviour n
      ⟨retries, pending, .ready (node :: more), journal⟩ s).1.phase = .ended last) :
    ∃ trace result s', Visit host.toClock host.countRetry sleep policy behaviour node action
      retries s trace result s' := by
  -- The induction is on the fuel, of which a wait and the move after it leave less.
  induction n using Nat.strongRecOn generalizing retries journal s with
  | ind n ih =>
    have hfinal : (drive host sleep policy behaviour n
        ⟨retries, pending, .ready (node :: more), journal⟩ s).1.phase.IsFinal := by
      rw [hend]; trivial
    obtain ⟨result, s₁, hreturns⟩ : ∃ result s', behaviour.Returns (behaviour.start action s)
        result s' := by
      cases n with
      | zero => exact absurd hfinal (by simp [drive, Phase.IsFinal])
      | succ n =>
        rw [drive_succ, tick_action hfree haction] at hfinal
        exact exists_returns hfinal
    by_cases hask : AsksForRetry result
    · obtain ⟨requested, rfl⟩ := exists_of_asksForRetry hask
      have hreach : Reaches host sleep policy behaviour
          (tick host sleep policy behaviour (⟨retries, pending, .ready (node :: more), journal⟩, s))
          (follow host policy ⟨retries, pending, .ready (node :: more), .invoked node :: journal⟩
            node more (.ok (.retryAfter requested)) s₁) := by
        rw [tick_action hfree haction]
        exact returns_reaches host sleep policy hreturns _ node more
      rcases Nat.lt_or_ge retries policy.maxRetries with hlt | hspent
      · cases hdelay : policy.delay (retries + 1) requested (host.draw (host.countRetry s₁)).1 with
        | none =>
          rw [retry_of_no_delay hlt hdelay] at hreach
          have hcrash := (Reaches.of_tick rfl hreach).final_unique trivial ⟨n, rfl⟩ hfinal
          rw [← hcrash] at hend
          cases hend
        | some delay =>
          rw [retry_of_lt hlt hdelay] at hreach
          have hagain := hreach.trans
            (Reaches.of_tick (tick_waiting hfree htime _ _ _ _ _ _ _) (Reaches.refl _))
          obtain ⟨m, hm, hdrive⟩ := exists_less_fuel (Phase.not_isFinal_of_ready rfl) hfinal hagain
          obtain ⟨trace, result, s', hvisit⟩ := ih m hm (by rw [hdrive]; exact hend)
          exact ⟨_, _, _, .retried hreturns hlt hdelay hvisit⟩
      · exact ⟨_, _, _, .exhausted hreturns hspent⟩
    · exact ⟨_, _, _, .settled hreturns hask⟩

/-- A level in front of the pending chains of a run that ends has an end of its own. -/
theorem exists_level {n : Nat} {pending : List (List (Node α))} {nodes : List (Node α)}
    {journal : List (Entry α)} {s : σ} {last : Except Fault Outcome}
    (hend : (drive host sleep policy behaviour n ⟨0, pending, .ready nodes, journal⟩ s).1.phase =
      .ended last) :
    ∃ trace result s',
      Level host.toClock host.countRetry sleep policy behaviour nodes s trace result s' := by
  induction n using Nat.strongRecOn generalizing pending nodes journal s with
  | ind n ih =>
    cases nodes with
    | nil => exact ⟨_, _, _, .empty⟩
    | cons node more =>
      cases haction : node.action with
      | none => exact ⟨_, _, _, .terminal haction⟩
      | some action =>
        have hfinal : (drive host sleep policy behaviour n
            ⟨0, pending, .ready (node :: more), journal⟩ s).1.phase.IsFinal := by
          rw [hend]; trivial
        obtain ⟨trace, result, s₁, hvisit⟩ := exists_visit hfree htime haction hend
        obtain ⟨retries, phase, hreach⟩ :=
          ready_reaches hfree htime haction hvisit pending more journal
        -- whatever becomes ready after the visit ends with less fuel
        have hrest : ∀ {pending' : List (List (Node α))} {rest : List (Node α)}
            {journal' : List (Entry α)} {s₂ : σ},
            Reaches host sleep policy behaviour
              (tick host sleep policy behaviour
                (⟨0, pending, .ready (node :: more), journal⟩, s))
              (⟨0, pending', .ready rest, journal'⟩, s₂) →
            ∃ trace result s',
              Level host.toClock host.countRetry sleep policy behaviour rest s₂ trace result s' := by
          intro pending' rest journal' s₂ hnext
          obtain ⟨m, hm, hdrive⟩ :=
            exists_less_fuel (Phase.not_isFinal_of_ready rfl) hfinal hnext
          exact ih m hm (by rw [hdrive]; exact hend)
        cases result with
        | error fault => exact ⟨_, _, _, .fault haction hvisit⟩
        | ok directive =>
          cases directive with
          | proceed =>
            obtain ⟨trace₁, last₁, s₂, hlevel⟩ := hrest hreach
            exact ⟨_, _, _, .proceed haction hvisit hlevel⟩
          | insert c =>
            rw [follow, keep_goTo] at hreach
            obtain ⟨trace₁, last₁, s₂, hsub⟩ := hrest hreach
            by_cases hcompleted : last₁ = .ok .completed
            · subst hcompleted
              obtain ⟨r, hleft, hpassed⟩ := level_reaches hfree htime hsub (kept more pending)
                (trace.reverse ++ journal)
              obtain rfl := hleft.of_completed
              obtain ⟨trace₂, last₂, s₃, hlevel⟩ :=
                hrest (hreach.trans (hpassed.trans (reaches_resumed _ _ _ _)))
              exact ⟨_, _, _, .insert haction hvisit hsub hlevel⟩
            · exact ⟨_, _, _, .insertLast haction hvisit hsub hcompleted⟩
          | branch c =>
            obtain ⟨trace₁, last₁, s₂, hsub⟩ := hrest hreach
            exact ⟨_, _, _, .branch haction hvisit hsub⟩
          | terminate => exact ⟨_, _, _, .terminate haction hvisit⟩
          | retryAfter requested => exact absurd trivial hvisit.not_asksForRetry

end

/-! ## The loop and the recursion -/

/-- A move of a wait leaves the surroundings as they are after the sleep. -/
theorem tick_waiting_snd (retries : Nat) (pending : List (List (Node α))) (node : Node α)
    (more : List (Node α)) (deadline : Nat) (journal : List (Entry α)) (s : σ) :
    (tick host sleep policy behaviour
      (⟨retries, pending, .waiting node more deadline, journal⟩, s)).2 = sleep deadline s := by
  simp only [tick, step]
  split
  · rfl
  · split <;> rfl

theorem tick_uncancelled {r : Run α κ} {s : σ} (hbefore : host.isCancelled s = false)
    (hafter : host.isCancelled (tick host sleep policy behaviour (r, s)).2 = false) :
    tick host sleep policy behaviour (r, s) =
      tick host.uncancelled sleep policy behaviour (r, s) := by
  obtain ⟨retries, pending, phase, journal⟩ := r
  cases phase with
  | ready rest =>
    cases rest with
    | nil => rfl
    | cons node more =>
      simp only [tick, step, isStopped_of_not_cancelled hbefore,
        isStopped_of_not_cancelled (host.isCancelled_uncancelled s)]
      rfl
  | acting node more activity => rfl
  | waiting node more deadline =>
    rw [tick_waiting_snd] at hafter
    simp only [tick, step, isStopped_of_not_cancelled hafter,
      isStopped_of_not_cancelled (host.isCancelled_uncancelled _)]
    rfl
  | ended result => rfl
  | crashed => rfl

/-- A run that is not cancelled on its way does not notice whether it could have been. -/
theorem drive_uncancelled {n : Nat} {r : Run α κ} {s : σ}
    (hfree : ∀ fuel, host.isCancelled (drive host sleep policy behaviour fuel r s).2 = false) :
    drive host sleep policy behaviour n r s =
      drive host.uncancelled sleep policy behaviour n r s := by
  induction n generalizing r s with
  | zero => rfl
  | succ n ih =>
    have hlater : ∀ fuel, host.isCancelled (drive host sleep policy behaviour fuel
        (tick host sleep policy behaviour (r, s)).1
        (tick host sleep policy behaviour (r, s)).2).2 = false := by
      intro fuel
      rw [← drive_succ]
      exact hfree (fuel + 1)
    have hmove := tick_uncancelled (hfree 0) (hlater 0)
    rw [drive_succ, drive_succ, ih hlater]
    exact congrArg (fun x => drive host.uncancelled sleep policy behaviour n x.1 x.2) hmove

/-- The loop over pending chains is the recursion over nested levels.  A run that is not
cancelled on its way ends exactly when the level of its chain does, and then with the same
result, in the same surroundings and with the same journal of invocations and waits.  It does
not crash if all delays can be computed, as they can in exact arithmetic for a factor and draws
that are not negative (`Retry.Policy.delay_isSome`). -/
theorem drive_ended_iff_level (htime : ∀ d s, d ≤ host.now (sleep d s)) (c : Chain α) (s : σ)
    (hfree : ∀ fuel,
      host.isCancelled (drive host sleep policy behaviour fuel (start c) s).2 = false) :
    (∀ trace result s',
      (∃ fuel r, drive host sleep policy behaviour fuel (start c) s = (r, s') ∧
        r.phase = .ended result ∧ r.journal = trace.reverse) ↔
      Level host.toClock host.countRetry sleep policy behaviour c.nodes s trace result s') ∧
    (host.Affords policy →
      ∀ fuel, (drive host sleep policy behaviour fuel (start c) s).1.phase ≠ .crashed) := by
  refine ⟨fun trace result s' => ⟨?_, fun hlevel => ?_⟩, fun hdelays fuel => ?_⟩
  · rintro ⟨fuel, r, hdrive, hended, hjournal⟩
    rw [drive_uncancelled hfree] at hdrive
    have hend : (drive host.uncancelled sleep policy behaviour fuel
        ⟨0, [], .ready c.nodes, []⟩ s).1.phase = .ended result := by
      rw [← hended, ← congrArg (·.1.phase) hdrive]; rfl
    obtain ⟨trace', result', s'', hlevel⟩ :=
      exists_level host.isCancelled_uncancelled htime hend
    obtain ⟨r', hended', hjournal', hreach⟩ :=
      level_reaches_end host.isCancelled_uncancelled htime hlevel
    have hsame : (r, s') = (r', s'') :=
      Reaches.final_unique ⟨fuel, hdrive⟩ (by rw [hended]; trivial) hreach
        (by rw [hended']; trivial)
    cases hsame
    cases hended.symm.trans hended'
    obtain rfl : trace = trace' := List.reverse_inj.1 (hjournal.symm.trans hjournal')
    exact hlevel
  · obtain ⟨r, hended, hjournal, fuel, hdrive⟩ :=
      level_reaches_end host.isCancelled_uncancelled htime hlevel
    exact ⟨fuel, r, by rw [drive_uncancelled hfree]; exact hdrive, hended, hjournal⟩
  · exact drive_phase_ne_crashed hdelays fuel (by simp [start]) s

end Run

/-! ### An errand -/

/-- An action that inserts a knock, and a knock, which is repeated until the fifth
millisecond. -/
inductive Errand
  | detour
  | knock

namespace Errand

instance : Named Errand where
  name
    | detour => "detour"
    | knock => "knock"

/-- What the two actions do, given the time. -/
def behaviour : Behaviour Errand Errand Empty Nat where
  start
    | detour, now => (.done (.ok (.insert (.single knock))), now)
    | knock, now => (.done (.ok (if now < 5 then .retryAfter .zero else .proceed)), now)
  resume activity := nomatch activity

/-- Surroundings that consist of the time. -/
def host : Host Rat Nat where
  now := id
  draw now := (1, now)
  isCancelled _ := false
  countRetry := id
  timerFirst _ := true

/-- Three retries, after two milliseconds and then twice as long each time. -/
def policy : Retry.Policy Rat := ⟨3, .ofMillis 2, .ofSeconds 1, 2⟩

theorem policy_delay_one : policy.delay 1 .zero 1 = some (.ofMillis 2) := by decide +kernel

theorem policy_delay_two : policy.delay 2 .zero 1 = some (.ofMillis 4) := by decide +kernel

theorem rested_two : Run.rested host.toClock host.countRetry max (.ofMillis 2) 0 = 2 := by
  decide +kernel

theorem rested_four : Run.rested host.toClock host.countRetry max (.ofMillis 4) 2 = 6 := by
  decide +kernel

theorem returns_knock {now : Nat} (hearly : now < 5) :
    behaviour.Returns (behaviour.start knock now) (.ok (.retryAfter .zero)) now := by
  have hstart : behaviour.start knock now = (.done (.ok (.retryAfter .zero)), now) := by
    simp [behaviour, hearly]
  rw [hstart]
  exact .done

/-- The errand and a terminal behind it. -/
def chain : Chain Errand := ⟨⟨some detour, false⟩, [⟨none, false⟩]⟩

/-- What the errand does: the detour, and three knocks with two waits between them. -/
def trace : List (Entry Errand) :=
  [.invoked ⟨some detour, false⟩, .invoked ⟨some knock, false⟩,
    .waited ⟨some knock, false⟩ (.ofMillis 2), .invoked ⟨some knock, false⟩,
    .waited ⟨some knock, false⟩ (.ofMillis 4), .invoked ⟨some knock, false⟩]

open Run in
/-- An errand that begins at time zero ends six milliseconds later. -/
theorem drive_ended :
    (∃ fuel r, drive host max policy behaviour fuel (start chain) 0 = (r, 6) ∧
        r.phase = .ended (.ok .completed) ∧ r.journal = trace.reverse) ∧
      ∀ fuel, (drive host max policy behaviour fuel (start chain) 0).1.phase ≠ .crashed := by
  have htime : ∀ d s, d ≤ host.now (max d s) := fun d s => Nat.le_max_left d s
  have hfree : ∀ fuel, host.isCancelled
      (drive host max policy behaviour fuel (start chain) 0).2 = false := fun _ => rfl
  obtain ⟨hends, hcrash⟩ := drive_ended_iff_level htime chain 0 hfree
  refine ⟨(hends trace _ 6).2 ?_, hcrash fun retry requested _ => ?_⟩
  · have hdetour : Visit host.toClock host.countRetry max policy behaviour
        ⟨some detour, false⟩ detour 0 0 [.invoked ⟨some detour, false⟩]
        (.ok (.insert (.single knock))) 0 := .settled .done id
    have hlast : Visit host.toClock host.countRetry max policy behaviour
        ⟨some knock, false⟩ knock 2 6 [.invoked ⟨some knock, false⟩] (.ok .proceed) 6 :=
      .settled .done id
    have hsecond : Visit host.toClock host.countRetry max policy behaviour
        ⟨some knock, false⟩ knock 1 2 (trace.drop 3) (.ok .proceed) 6 := by
      refine .retried (returns_knock (by decide)) (by decide) policy_delay_two ?_
      rw [rested_four]
      exact hlast
    have hknock : Visit host.toClock host.countRetry max policy behaviour
        ⟨some knock, false⟩ knock 0 0 trace.tail (.ok .proceed) 6 := by
      refine .retried (returns_knock (by decide)) (by decide) policy_delay_one ?_
      rw [rested_two]
      exact hsecond
    exact .insert rfl hdetour (.proceed rfl hknock .empty) (.terminal rfl)
  · have hdraw : (0 : Rat) ≤ 1 := by decide
    exact Retry.Policy.delay_isSome (by decide) retry requested hdraw

end Errand

end Reconcile
