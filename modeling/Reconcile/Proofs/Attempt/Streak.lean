import Reconcile.Proofs.Attempt.Report
import Reconcile.Proofs.Data.Places
import Reconcile.Proofs.Engine.Remainder

/-!
# Failures in a row

Any number of attempts share a registry, each with a processor and an operation of its own, and
they take their steps in any order.  An attempt ends when its chain has ended: what it returns is
decided then, its failure is counted, and at most the report of the failure is left to do.  A
chronicle lists the ends as they come (`Chronicle.ends`), read off the attempts, with what the
report is going to request.

The registry does not know this list, it has a number for each domain.  The number is always that
of the failures of the domain since its last success, as the list has them: a fault of the
configuration, a cancellation and the ends of other domains leave it as it is.  Whether a failure
is reported as the last one is decided by the number that counts the failure itself.

Between the steps anything else may happen, as long as it does not touch the counts of failures.
An attempt that is given up from outside takes no more steps, so it never ends.
That holds for the actions of the reconcilers as well (`Behaviour.SparesFailures`).  The main
statement is `Chronicle.failureCount_of_reachable`, which follows from the invariant
`Chronicle.Faithful`.
-/

namespace Reconcile

variable {𝕊 β κ ε : Type}

/-! ## Ends -/

/-- How an attempt has ended, and what it is going to request in order to report that. -/
structure Ending where
  attempt : Nat
  uid : String
  result : Except Fault Outcome
  report : List Request

namespace Ending

/-- Whether the attempt has been completed or terminated. -/
def isSuccess (e : Ending) : Bool :=
  match e.result with
  | .ok .completed | .ok .terminated => true
  | .ok .cancelled | .error _ => false

/-- Whether the attempt has failed, and not because of the configuration. -/
def isFailure (e : Ending) : Bool :=
  match e.result with
  | .error fault => !fault.isConfiguration
  | .ok _ => false

/-- The number of failures of a domain in a row after an end. -/
def count (e : Ending) (uid : String) (failures : Nat) : Nat :=
  if uid = e.uid then
    if e.isSuccess then 0 else if e.isFailure then failures + 1 else failures
  else failures

end Ending

/-- The number of failures of a domain since its last success, given the ends, latest first. -/
def failuresInARow (uid : String) (ends : List Ending) : Nat :=
  ((ends.filter (·.uid = uid)).takeWhile (!·.isSuccess)).countP (·.isFailure)

theorem failuresInARow_cons (uid : String) (e : Ending) (ends : List Ending) :
    failuresInARow uid (e :: ends) = e.count uid (failuresInARow uid ends) := by
  unfold failuresInARow Ending.count
  by_cases huid : uid = e.uid
  · rw [List.filter_cons_of_pos (by simp [huid]), if_pos huid]
    cases hsuccess : e.isSuccess with
    | true => simp [hsuccess]
    | false =>
      rw [List.takeWhile_cons_of_pos (by simp [hsuccess]), List.countP_cons]
      cases e.isFailure <;> simp
  · rw [List.filter_cons_of_neg (by simpa using Ne.symm huid), if_neg huid]

/-- What an attempt requests after its end, given the failures in a row. -/
def Processor.afterwards (p : Processor 𝕊 β) (result : Except Fault Outcome) (failures : Nat) :
    List Request :=
  match result with
  | .error fault => if fault.isConfiguration then [] else fault.requests (p.aborts fault failures)
  | .ok _ => []

/-- The event that a step emits. -/
def Node.request? : Node (Act β) → Option Request
  | ⟨some (.work (.event q)), _⟩ => some q
  | _ => none

namespace Attempt

/-- What an attempt still has to request in the report of its failure. -/
def report (a : Attempt β κ) : List Request :=
  match a.stage with
  | .reporting _ _ _ run => run.levels.flatten.filterMap Node.request?
  | _ => []

/-- The end of an attempt, if it has ended since it was another one. -/
def ending? (i : Nat) (before after : Attempt β κ) : Option Ending :=
  match before.stage with
  | .running _ _ run =>
    run.result?.map fun result => ⟨i, before.operation.domain.uid, result, after.report⟩
  | _ => none

/-- Whether the chain of an attempt has not ended. -/
def IsUndecided (a : Attempt β κ) : Prop :=
  match a.stage with
  | .prepared | .running .. => True
  | .reporting .. | .ended .. | .crashed => False

/-- What an attempt returns, once its chain has ended. -/
def decided? (a : Attempt β κ) : Option (Except Fault Outcome) :=
  match a.stage with
  | .reporting _ _ fault _ => some (.error fault)
  | .ended _ result => some result
  | .prepared | .running .. | .crashed => none

end Attempt

theorem Attempt.decided_of_result {a : Attempt β κ} {result : Except Fault Outcome}
    (h : a.result? = some result) : a.decided? = some result := by
  unfold Attempt.result? at h
  unfold Attempt.decided?
  split at h <;> simp_all

/-- Two worlds in which all domains have the same failures in a row. -/
def World.SameFailures (i : Nat) (w w' : World 𝕊 ε) : Prop :=
  ∀ uid, (w'.registry i).failureCount uid = (w.registry i).failureCount uid

theorem World.SameFailures.of_registries {i : Nat} {w w' : World 𝕊 ε}
    (h : w'.registries = w.registries) : w.SameFailures i w' := by
  intro uid
  rw [World.registry, World.registry, h]

/-- The actions of a reconciler leave the counts of failures alone. -/
structure Behaviour.SparesFailures (custom : Behaviour β (Act β) κ (Packet × World 𝕊 ε))
    (i : Nat) : Prop where
  start : ∀ b p w, World.SameFailures i w (custom.start b (p, w)).2.2
  resume : ∀ k p w, World.SameFailures i w (custom.resume k (p, w)).2.2

theorem Work.step_sameFailures [Retry.Seconds 𝕊] [Named β] {i : Nat}
    {custom : Behaviour β (Act β) κ (Packet × World 𝕊 ε)} (hcustom : custom.SparesFailures i)
    (p : Processor 𝕊 β) (g : Guard) (run : Run (Act β) (Activity κ)) (s : Packet × World 𝕊 ε) :
    s.2.SameFailures i (run.step (p.host g) p.policy (Work.behaviour custom) s).2.2 := by
  have htrans : ∀ {w₁ w₂ w₃ : World 𝕊 ε}, w₁.SameFailures i w₂ → w₂.SameFailures i w₃ →
      w₁.SameFailures i w₃ := fun h₁ h₂ uid => (h₂ uid).trans (h₁ uid)
  have hannounce : ∀ (w : World 𝕊 ε) q p, w.SameFailures i (w.announce q p).2.2 := by
    intro w q p
    unfold World.announce
    split <;> exact fun _ => rfl
  exact step_related (World.SameFailures i) (fun _ _ => rfl) htrans (fun _ _ => rfl)
    (fun _ _ => rfl) hannounce (fun w record => .of_registries (w.registries_deliver record))
    hcustom.start hcustom.resume p g run s

namespace Attempt

/-! ## One step -/

theorem report_start (m : MakeRight β) (p : Processor 𝕊 β) (fault : Fault) (failures : Nat)
    (g : Guard) (packet : Packet) :
    report (⟨m, .reporting g packet fault (.start (p.report fault failures).build)⟩ :
      Attempt β κ) = fault.requests (p.aborts fault failures) := by
  have hlevels : ((Run.start (p.report fault failures).build :
      Run (Act β) (Activity κ)).levels).flatten = (p.report fault failures).build.nodes := by
    simp [Run.levels, Run.start]
  have hrequests : ∀ qs : List Request,
      (qs.map (Node.emitting (β := β) true)).filterMap Node.request? = qs := by
    intro qs
    rw [List.filterMap_map]
    exact List.filterMap_some
  simp only [report]
  rw [hlevels, p.nodes_report, hrequests]

variable {p : Processor 𝕊 β} {m : MakeRight β} {g : Guard} {a : Attempt β κ}

/-- What the end of a chain does to the counts of failures. -/
theorem conclude_count (p : Processor 𝕊 β) (packet : Packet) (result : Except Fault Outcome)
    (w : World 𝕊 ε) (hguard : g.uid = a.operation.domain.uid) (k : Nat)
    (requests : List Request) (uid : String) :
    ((a.conclude p g packet result w).2.registry p.registry).failureCount uid =
      Ending.count ⟨k, a.operation.domain.uid, result, requests⟩ uid
        ((w.registry p.registry).failureCount uid) := by
  unfold conclude Ending.count
  rw [← hguard]
  match result with
  | .ok .cancelled =>
    rw [p.failureCount_release]
    simp [Ending.isSuccess, Ending.isFailure, World.registry]
  | .ok .completed | .ok .terminated =>
    rw [p.failureCount_release, World.registry_setRegistry, if_pos rfl,
      Registry.failureCount_resetFailures]
    rfl
  | .error fault =>
    cases hconfiguration : fault.isConfiguration with
    | true =>
      simp only [hconfiguration, if_true]
      rw [p.failureCount_release]
      simp [hconfiguration, Ending.isSuccess, Ending.isFailure, World.registry]
    | false =>
      simp only [hconfiguration, Bool.false_eq_true, if_false]
      rw [World.registry_setRegistry, if_pos rfl, Registry.failureCount_recordFailure]
      simp only [Ending.isSuccess, Ending.isFailure, hconfiguration, Bool.false_eq_true, if_false,
        Bool.not_false, if_true]
      by_cases huid : uid = g.uid
      · rw [if_pos huid, if_pos huid, huid]
        rfl
      · rw [if_neg huid, if_neg huid]
        rfl

theorem conclude_fst (p : Processor 𝕊 β) (m : MakeRight β) (g : Guard) (packet : Packet)
    (run : Run (Act β) (Activity κ)) (result : Except Fault Outcome) (w : World 𝕊 ε) :
    ((conclude p ⟨m, .running g packet run⟩ g packet result w).1 = ⟨m, .ended packet result⟩ ∧
        ∀ failures, p.afterwards result failures = []) ∨
      ∃ fault, result = .error fault ∧ fault.isConfiguration = false ∧
        (conclude p ⟨m, .running g packet run⟩ g packet result w).1 =
          ⟨m, .reporting g packet fault
            (.start (p.report fault ((w.registry p.registry).failureCount g.uid + 1)).build)⟩ := by
  match result with
  | .ok .completed | .ok .terminated | .ok .cancelled => exact .inl ⟨rfl, fun _ => rfl⟩
  | .error fault =>
    cases hconfiguration : fault.isConfiguration with
    | true =>
      refine .inl ⟨?_, fun _ => if_pos hconfiguration⟩
      simp [conclude, hconfiguration]
    | false =>
      refine .inr ⟨fault, rfl, hconfiguration, ?_⟩
      simp only [conclude, hconfiguration]
      rfl

variable [Retry.Seconds 𝕊] [Named β]
variable {custom : Behaviour β (Act β) κ (Packet × World 𝕊 ε)}

/-- A step with which an attempt does not end. -/
structure GoesOn (i : Nat) (before after : Attempt β κ × World 𝕊 ε) : Prop where
  failures : before.2.SameFailures i after.2
  undecided : after.1.IsUndecided → before.1.IsUndecided
  decided : ∀ result, after.1.decided? = some result → before.1.decided? = some result

/-- A step with which an attempt ends. -/
structure Ends (p : Processor 𝕊 β) (custom : Behaviour β (Act β) κ (Packet × World 𝕊 ε))
    (before after : Attempt β κ × World 𝕊 ε) (e : Ending) : Prop where
  uid : e.uid = before.1.operation.domain.uid
  failures : ∀ uid, (after.2.registry p.registry).failureCount uid =
    e.count uid ((before.2.registry p.registry).failureCount uid)
  undecided : before.1.IsUndecided
  decided : ¬ after.1.IsUndecided ∧ after.1.decided? = some e.result
  report : e.report = p.afterwards e.result
    (e.count e.uid ((before.2.registry p.registry).failureCount e.uid))
  reporting : ∀ fault, e.result = .error fault → fault.isConfiguration = false →
    ∀ P, ∃ packet, Reporting P before.1.operation fault e.report packet 6 [] after.1
  returns : ∃ left, EndsWithin p custom left after.1 e.result

theorem conclude_ends (p : Processor 𝕊 β)
    (custom : Behaviour β (Act β) κ (Packet × World 𝕊 ε)) (run : Run (Act β) (Activity κ))
    (packet : Packet) (result : Except Fault Outcome) (w : World 𝕊 ε)
    (hguard : g.uid = m.domain.uid) (k : Nat) :
    Ends p custom (⟨m, .running g packet run⟩, w)
      (conclude p ⟨m, .running g packet run⟩ g packet result w)
      ⟨k, m.domain.uid, result,
        (conclude p ⟨m, .running g packet run⟩ g packet result w).1.report⟩ := by
  let before : Attempt β κ := ⟨m, .running g packet run⟩
  have hfailures := conclude_count (a := before) p packet result w hguard k
    (before.conclude p g packet result w).1.report
  rcases conclude_fst p m g packet run result w with
    ⟨hended, hsilent⟩ | ⟨fault, rfl, hconfiguration, hreporting⟩
  · have hreport : (before.conclude p g packet result w).1.report = [] := by rw [hended]; rfl
    refine ⟨rfl, hfailures, trivial, ?_, ?_, ?_, 0, ?_⟩
    · rw [hended]
      exact ⟨id, rfl⟩
    · exact hreport.trans (hsilent _).symm
    · rintro fault rfl hconfiguration
      have hfailed := hsilent 0
      simp [Processor.afterwards, hconfiguration, Fault.requests] at hfailed
    · rw [hended]
      exact .ended
  · have hreport := report_start (κ := κ) m p fault
      ((w.registry p.registry).failureCount g.uid + 1) g packet
    have hstart := fun P => Reporting.start (κ := κ) P p m fault
      ((w.registry p.registry).failureCount g.uid + 1) g packet
    refine ⟨rfl, hfailures, trivial, ?_, ?_, ?_, 6, ?_⟩
    · rw [hreporting]
      exact ⟨id, rfl⟩
    · rw [hreporting, hreport]
      simp [Processor.afterwards, hconfiguration, Ending.count, Ending.isSuccess,
        Ending.isFailure, hguard]
    · rintro _ ⟨⟩ - P
      rw [hreporting, hreport]
      exact ⟨packet, hstart P⟩
    · rw [hreporting]
      exact (hstart fun _ => True).endsWithin

/-- The end of its chain is the only way for an attempt to touch the counts of failures. -/
theorem step_ends (hcustom : custom.SparesFailures p.registry) (howns : a.OwnsGuard) (k : Nat)
    (w : World 𝕊 ε) :
    (a.ending? k (a.step p custom w).1 = none ∧ GoesOn p.registry (a, w) (a.step p custom w)) ∨
      ∃ e, a.ending? k (a.step p custom w).1 = some e ∧ e.attempt = k ∧
        Ends p custom (a, w) (a.step p custom w) e := by
  have hrun : ∀ (g : Guard) (packet : Packet) (run : Run (Act β) (Activity κ)),
      w.SameFailures p.registry
        (run.step (p.host g) p.policy (Work.behaviour custom) (packet, w)).2.2 :=
    fun g packet run => Work.step_sameFailures hcustom p g run (packet, w)
  obtain ⟨m, stage⟩ := a
  cases stage with
  | prepared =>
    refine .inl ⟨rfl, fun uid => ?_, fun _ => trivial, fun _ hdecided => by cases hdecided⟩
    have hregistry : ((step p custom ⟨m, .prepared⟩ w).2.registry p.registry) =
        ((w.registry p.registry).begin m.domain.uid w.nextAttempt).2 := registry_register p _ w
    rw [hregistry]
    exact Registry.failureCount_begin
  | running g packet run =>
    simp only [step]
    split
    case h_1 result hphase =>
      have hresult : run.result? = some result := by simp [Run.result?, hphase]
      refine .inr ⟨_, by simp only [ending?, hresult]; rfl, rfl, ?_⟩
      exact conclude_ends p custom run packet result w (howns g rfl) k
    case h_2 hphase =>
      have hresult : run.result? = none := by simp [Run.result?, hphase]
      refine .inl ⟨by simp [ending?, hresult], p.failureCount_release g w, fun _ => trivial, ?_⟩
      exact fun _ hdecided => by cases hdecided
    case h_3 hended _ =>
      have hresult : run.result? = none := by
        unfold Run.result?
        split
        · exact (hended _ (by assumption)).elim
        · rfl
      refine .inl ⟨by simp [ending?, hresult], hrun g packet run, fun _ => trivial, ?_⟩
      exact fun _ hdecided => by cases hdecided
  | reporting g packet fault run =>
    simp only [step]
    split
    · exact .inl ⟨rfl, p.failureCount_release g w, id, fun _ => id⟩
    · exact .inl ⟨rfl, p.failureCount_release g w, id, fun _ hdecided => by cases hdecided⟩
    · exact .inl ⟨rfl, hrun g packet run, id, fun _ => id⟩
  | ended packet result => exact .inl ⟨rfl, fun _ => rfl, id, fun _ => id⟩
  | crashed => exact .inl ⟨rfl, fun _ => rfl, id, fun _ => id⟩

end Attempt

/-! ## Chronicles -/

/-- Attempts, known by their number, in a shared world, and how those that have ended did,
latest first. -/
structure Chronicle (𝕊 β κ ε : Type) where
  attempts : List (Processor 𝕊 β × Attempt β κ)
  world : World 𝕊 ε
  ends : List Ending

namespace Chronicle

/-- Adds an attempt at an operation. -/
def launch (c : Chronicle 𝕊 β κ ε) (p : Processor 𝕊 β) (m : MakeRight β) : Chronicle 𝕊 β κ ε :=
  { c with attempts := c.attempts ++ [(p, .prepare m)] }

variable [Retry.Seconds 𝕊] [Named β]
variable (custom : Behaviour β (Act β) κ (Packet × World 𝕊 ε)) (i : Nat)

/-- Advances one of the attempts by a step. -/
def advance (c : Chronicle 𝕊 β κ ε) (k : Nat) : Chronicle 𝕊 β κ ε :=
  match c.attempts[k]? with
  | none => c
  | some (p, a) =>
    let (a', w) := a.step p custom c.world
    ⟨c.attempts.set k (p, a'), w, (a.ending? k a').toList ++ c.ends⟩

/-- How an attempt can be advanced. -/
inductive Advanced (c : Chronicle 𝕊 β κ ε) (k : Nat) : Chronicle 𝕊 β κ ε → Prop
  | absent : c.attempts[k]? = none → Advanced c k c
  | goesOn {p : Processor 𝕊 β} {a a' : Attempt β κ} {w : World 𝕊 ε} :
      c.attempts[k]? = some (p, a) → a.step p custom c.world = (a', w) →
      Attempt.GoesOn p.registry (a, c.world) (a', w) →
      Advanced c k ⟨c.attempts.set k (p, a'), w, c.ends⟩
  | ends {p : Processor 𝕊 β} {a a' : Attempt β κ} {w : World 𝕊 ε} {e : Ending} :
      c.attempts[k]? = some (p, a) → a.step p custom c.world = (a', w) → e.attempt = k →
      Attempt.Ends p custom (a, c.world) (a', w) e →
      Advanced c k ⟨c.attempts.set k (p, a'), w, e :: c.ends⟩

/-- What can happen to attempts that share a registry. -/
inductive Move (c : Chronicle 𝕊 β κ ε) : Chronicle 𝕊 β κ ε → Prop
  | launch {p : Processor 𝕊 β} (m : MakeRight β) : p.registry = i → Move c (c.launch p m)
  | advance (k : Nat) : Move c (c.advance custom k)
  | elapse {w : World 𝕊 ε} : c.world.SameFailures i w → Move c { c with world := w }

/-- The chronicles that begin without attempts and without failures. -/
inductive Reachable : Chronicle 𝕊 β κ ε → Prop
  | initial {w : World 𝕊 ε} : (∀ uid, (w.registry i).failureCount uid = 0) → Reachable ⟨[], w, []⟩
  | move {c c' : Chronicle 𝕊 β κ ε} : Reachable c → Move custom i c c' → Reachable c'

/-- An end has decided on its report by the count that includes itself, and belongs to an attempt
that returns its result. -/
def IsBorneOut (c : Chronicle 𝕊 β κ ε) (e : Ending) (earlier : List Ending) : Prop :=
  ∃ p a left, c.attempts[e.attempt]? = some (p, a) ∧ a.operation.domain.uid = e.uid ∧
    a.EndsWithin p custom left e.result ∧
    e.report = p.afterwards e.result (failuresInARow e.uid (e :: earlier))

/-- The registry, the ends and the attempts are in agreement. -/
structure Faithful (c : Chronicle 𝕊 β κ ε) : Prop where
  failureCount : ∀ uid, (c.world.registry i).failureCount uid = failuresInARow uid c.ends
  borneOut : ∀ later e earlier, c.ends = later ++ e :: earlier → c.IsBorneOut custom e earlier
  once : (c.ends.map Ending.attempt).Nodup
  owned : ∀ {k : Nat} {p : Processor 𝕊 β} {a : Attempt β κ}, c.attempts[k]? = some (p, a) →
    p.registry = i ∧ a.OwnsGuard
  undecided : ∀ {k : Nat} {p : Processor 𝕊 β} {a : Attempt β κ}, c.attempts[k]? = some (p, a) →
    a.IsUndecided → k ∉ c.ends.map Ending.attempt
  decided : ∀ {k : Nat} {p : Processor 𝕊 β} {a : Attempt β κ} {result : Except Fault Outcome},
    c.attempts[k]? = some (p, a) → a.decided? = some result →
    ∃ e ∈ c.ends, e.attempt = k ∧ e.result = result

variable {custom i}

theorem IsBorneOut.replace {c : Chronicle 𝕊 β κ ε} {p : Processor 𝕊 β} {a a' : Attempt β κ}
    {k : Nat} {w : World 𝕊 ε} {ends earlier : List Ending} {e : Ending}
    (h : c.IsBorneOut custom e earlier) (hattempt : c.attempts[k]? = some (p, a))
    (hstep : a.step p custom c.world = (a', w)) :
    IsBorneOut custom ⟨c.attempts.set k (p, a'), w, ends⟩ e earlier := by
  obtain ⟨q, b, left, hother, huid, hleft, hreport⟩ := h
  rcases Places.replaced_or_kept hattempt hother (p, a') with ⟨-, ⟨⟩, hown⟩ | ⟨-, hkept⟩
  · have hoperation := a.step_operation p custom c.world
    have hnext := hleft.next c.world
    rw [hstep] at hoperation hnext
    exact ⟨p, a', left, hown, by rw [hoperation, huid], hnext, hreport⟩
  · exact ⟨q, b, left, hkept, huid, hleft, hreport⟩

namespace Faithful

variable {c c' : Chronicle 𝕊 β κ ε} {p : Processor 𝕊 β} {a : Attempt β κ} {k : Nat}

theorem initial {w : World 𝕊 ε} (hnone : ∀ uid, (w.registry i).failureCount uid = 0) :
    Faithful custom i (⟨[], w, []⟩ : Chronicle 𝕊 β κ ε) where
  failureCount := hnone
  borneOut later e earlier hsplit := by simp at hsplit
  once := List.nodup_nil
  owned h := nomatch h
  undecided h := nomatch h
  decided h := nomatch h

/-- The attempt of an end exists. -/
theorem lt_length (h : Faithful custom i c) {e : Ending} (he : e ∈ c.ends) :
    e.attempt < c.attempts.length := by
  obtain ⟨later, earlier, hsplit⟩ := List.append_of_mem he
  obtain ⟨_, _, _, hattempt, -⟩ := h.borneOut later e earlier hsplit
  exact (List.getElem?_eq_some_iff.1 hattempt).1

theorem launch (h : Faithful custom i c) (hp : p.registry = i) (m : MakeRight β) :
    Faithful custom i (c.launch p m) where
  failureCount := h.failureCount
  borneOut later e earlier hsplit := by
    obtain ⟨q, b, left, hattempt, hrest⟩ := h.borneOut later e earlier hsplit
    have hlength := (List.getElem?_eq_some_iff.1 hattempt).1
    exact ⟨q, b, left, (List.getElem?_append_left hlength).trans hattempt, hrest⟩
  once := h.once
  owned {k q b} hattempt := by
    rcases Places.eq_or_of_join hattempt with hold | ⟨-, ⟨⟩⟩
    · exact h.owned hold
    · exact ⟨hp, fun _ hguard => nomatch hguard⟩
  undecided {k q b} hattempt hundecided := by
    rcases Places.eq_or_of_join hattempt with hold | ⟨rfl, -⟩
    · exact h.undecided hold hundecided
    · intro hmem
      obtain ⟨e, he, hlength⟩ := List.mem_map.1 hmem
      exact Nat.lt_irrefl _ (hlength ▸ h.lt_length he)
  decided {k q b result} hattempt hdecided := by
    rcases Places.eq_or_of_join hattempt with hold | ⟨-, ⟨⟩⟩
    · exact h.decided hold hdecided
    · cases hdecided

theorem elapse (h : Faithful custom i c) {w : World 𝕊 ε} (hsame : c.world.SameFailures i w) :
    Faithful custom i { c with world := w } where
  failureCount uid := (hsame uid).trans (h.failureCount uid)
  borneOut := h.borneOut
  once := h.once
  owned := h.owned
  undecided := h.undecided
  decided := h.decided

section

variable {a' : Attempt β κ} {w : World 𝕊 ε} {e : Ending}

theorem owned_replace (h : Faithful custom i c) (hattempt : c.attempts[k]? = some (p, a))
    (hstep : a.step p custom c.world = (a', w)) {j : Nat} {q : Processor 𝕊 β} {b : Attempt β κ}
    (hother : (c.attempts.set k (p, a'))[j]? = some (q, b)) : q.registry = i ∧ b.OwnsGuard := by
  rcases Places.eq_or_of_replace hother with ⟨-, ⟨⟩⟩ | ⟨-, hother⟩
  · obtain ⟨hregistry, howns⟩ := h.owned hattempt
    have hnext : (a.step p custom c.world).1.OwnsGuard := howns.step c.world
    rw [hstep] at hnext
    exact ⟨hregistry, hnext⟩
  · exact h.owned hother

/-- An attempt that goes on without an end. -/
theorem goesOn_replace (h : Faithful custom p.registry c) (hattempt : c.attempts[k]? = some (p, a))
    (hstep : a.step p custom c.world = (a', w))
    (hgoes : Attempt.GoesOn p.registry (a, c.world) (a', w)) :
    Faithful custom p.registry ⟨c.attempts.set k (p, a'), w, c.ends⟩ where
  failureCount uid := (hgoes.failures uid).trans (h.failureCount uid)
  borneOut later e earlier hsplit :=
    (h.borneOut later e earlier hsplit).replace hattempt hstep
  once := h.once
  owned := h.owned_replace hattempt hstep
  undecided {j q b} hother hundecided := by
    rcases Places.eq_or_of_replace hother with ⟨rfl, ⟨⟩⟩ | ⟨-, hother⟩
    · exact h.undecided hattempt (hgoes.undecided hundecided)
    · exact h.undecided hother hundecided
  decided {j q b result} hother hdecided := by
    rcases Places.eq_or_of_replace hother with ⟨rfl, ⟨⟩⟩ | ⟨-, hother⟩
    · exact h.decided hattempt (hgoes.decided result hdecided)
    · exact h.decided hother hdecided

/-- An attempt that ends. -/
theorem ends_replace (h : Faithful custom p.registry c) (hattempt : c.attempts[k]? = some (p, a))
    (hstep : a.step p custom c.world = (a', w))
    (hown : e.attempt = k) (hends : Attempt.Ends p custom (a, c.world) (a', w) e) :
    Faithful custom p.registry ⟨c.attempts.set k (p, a'), w, e :: c.ends⟩ where
  failureCount uid := by
    rw [failuresInARow_cons, ← h.failureCount]
    exact hends.failures uid
  borneOut later e' earlier hsplit := by
    -- The new end is borne out by its own step, an older one by the attempts as they were.
    cases later with
    | nil =>
      obtain ⟨rfl, rfl⟩ := List.cons.inj hsplit
      obtain ⟨left, hleft⟩ := hends.returns
      have hlength := (List.getElem?_eq_some_iff.1 hattempt).1
      refine ⟨p, a', left, ?_, ?_, hleft, ?_⟩
      · rw [hown]
        exact List.getElem?_set_self hlength
      · have hoperation := a.step_operation p custom c.world
        rw [hstep] at hoperation
        exact (congrArg (·.domain.uid) hoperation).trans hends.uid.symm
      · rw [failuresInARow_cons, ← h.failureCount]
        exact hends.report
    | cons _ later =>
      obtain ⟨-, hrest⟩ := List.cons.inj hsplit
      exact (h.borneOut later e' earlier hrest).replace hattempt hstep
  once := by
    -- The chain of the attempt had not ended before the step, so the list does not have it yet.
    have hfresh : e.attempt ∉ c.ends.map Ending.attempt :=
      hown ▸ h.undecided hattempt hends.undecided
    exact List.nodup_cons.2 ⟨hfresh, h.once⟩
  owned := h.owned_replace hattempt hstep
  undecided {j q b} hother hundecided := by
    rcases Places.eq_or_of_replace hother with ⟨rfl, ⟨⟩⟩ | ⟨hj, hother⟩
    · exact (hends.decided.1 hundecided).elim
    · rintro (_ | ⟨_, hmem⟩)
      · exact hj hown
      · exact h.undecided hother hundecided hmem
  decided {j q b result} hother hdecided := by
    rcases Places.eq_or_of_replace hother with ⟨rfl, ⟨⟩⟩ | ⟨-, hother⟩
    · have hresult : e.result = result :=
        Option.some.inj (hends.decided.2.symm.trans hdecided)
      exact ⟨e, List.mem_cons_self, hown, hresult⟩
    · obtain ⟨e', he', hrest⟩ := h.decided hother hdecided
      exact ⟨e', List.mem_cons_of_mem _ he', hrest⟩

end

theorem advanced (h : Faithful custom i c) (hcustom : custom.SparesFailures i) (k : Nat) :
    c.Advanced custom k (c.advance custom k) := by
  unfold Chronicle.advance
  cases hattempt : c.attempts[k]? with
  | none => exact .absent hattempt
  | some pa =>
    obtain ⟨p, a⟩ := pa
    obtain ⟨rfl, howns⟩ := h.owned hattempt
    rcases Attempt.step_ends hcustom howns k c.world with
      ⟨hnone, hgoes⟩ | ⟨e, hending, hown, hends⟩
    · simp only [hnone]
      exact .goesOn hattempt rfl hgoes
    · simp only [hending]
      exact .ends hattempt rfl hown hends

theorem advance (h : Faithful custom i c) (hcustom : custom.SparesFailures i) (k : Nat) :
    Faithful custom i (c.advance custom k) := by
  have hadvanced := h.advanced hcustom k
  generalize c.advance custom k = c' at hadvanced ⊢
  cases hadvanced with
  | absent => exact h
  | @goesOn p a a' w hattempt hstep hgoes =>
    obtain ⟨rfl, -⟩ := h.owned hattempt
    exact h.goesOn_replace hattempt hstep hgoes
  | @ends p a a' w e hattempt hstep hown hends =>
    obtain ⟨rfl, -⟩ := h.owned hattempt
    exact h.ends_replace hattempt hstep hown hends

theorem move (h : Faithful custom i c) (hcustom : custom.SparesFailures i)
    (hmove : Move custom i c c') : Faithful custom i c' := by
  cases hmove with
  | launch m hp => exact h.launch hp m
  | advance k => exact h.advance hcustom k
  | elapse hsame => exact h.elapse hsame

/-- With a move either nobody ends, or one attempt does. -/
theorem ends_of_move (h : Faithful custom i c) (hcustom : custom.SparesFailures i)
    (hmove : Move custom i c c') :
    (c'.ends = c.ends ∧ c.world.SameFailures i c'.world) ∨
      ∃ e p a a', c'.ends = e :: c.ends ∧ c.attempts[e.attempt]? = some (p, a) ∧
        p.registry = i ∧ c'.attempts[e.attempt]? = some (p, a') ∧
        Attempt.Ends p custom (a, c.world) (a', c'.world) e := by
  cases hmove with
  | launch => exact .inl ⟨rfl, fun _ => rfl⟩
  | elapse hsame => exact .inl ⟨rfl, hsame⟩
  | advance k =>
    have hadvanced := h.advanced hcustom k
    generalize c.advance custom k = c' at hadvanced ⊢
    cases hadvanced with
    | absent => exact .inl ⟨rfl, fun _ => rfl⟩
    | goesOn hattempt _ hgoes =>
      obtain ⟨rfl, -⟩ := h.owned hattempt
      exact .inl ⟨rfl, hgoes.failures⟩
    | @ends p a a' w e hattempt _ hown hends =>
      subst hown
      have hlength := (List.getElem?_eq_some_iff.1 hattempt).1
      exact .inr ⟨e, p, a, a', rfl, hattempt, (h.owned hattempt).1,
        List.getElem?_set_self hlength, hends⟩

end Faithful

namespace Reachable

variable {c : Chronicle 𝕊 β κ ε}

theorem faithful (h : Reachable custom i c) (hcustom : custom.SparesFailures i) :
    Faithful custom i c := by
  induction h with
  | initial hnone => exact .initial hnone
  | move _ hmove ih => exact ih.move hcustom hmove

theorem foldl_advance (h : Reachable custom i c) (ks : List Nat) :
    Reachable custom i (ks.foldl (fun c k => c.advance custom k) c) := by
  induction ks generalizing c with
  | nil => exact h
  | cons k ks ih => exact ih (h.move (.advance k))

end Reachable

end Chronicle

/-! ### A relapse -/

namespace Relapse

inductive Act
  | relapse

instance : Named Act := ⟨fun _ => "relapse"⟩

def fault : Fault := .step "relapse" "it has come back" true

/-- The action fails, and would be worth another attempt. -/
def behaviour : Behaviour Act (Reconcile.Act Act) Empty (Packet × World Rat Unit) where
  start _ s := (.done (.error fault), s)
  resume activity := nomatch activity

/-- A processor whose body is the action, and which gives a domain up after two failures. -/
def processor : Processor Rat Act :=
  ⟨Handover.processor.policy, 2, 0, fun _ => .act (.custom .relapse)⟩

/-- Two attempts on one domain, one after the other, and one on another domain besides. -/
def chronicle : Chronicle Rat Act Empty Unit :=
  let first := ((⟨[], Handover.world, []⟩ : Chronicle Rat Act Empty Unit).launch processor
    (.of (.named "uid" "ns"))).launch processor (.ofDeletion (.named "other" "ns"))
  let between := (List.replicate 12 [0, 1]).flatten.foldl (fun c k => c.advance behaviour k) first
  (List.replicate 13 2).foldl (fun c k => c.advance behaviour k)
    (between.launch processor (.of (.named "uid" "ns")))

theorem reachable : Chronicle.Reachable behaviour 0 chronicle :=
  have hinitial : Chronicle.Reachable behaviour 0 ⟨[], Handover.world, []⟩ := .initial fun _ => rfl
  have hfirst := (hinitial.move (.launch _ rfl)).move (.launch _ rfl)
  ((hfirst.foldl_advance _).move (.launch _ rfl)).foldl_advance _

end Relapse

end Reconcile
