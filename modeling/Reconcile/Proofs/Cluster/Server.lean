import Reconcile.Cluster.Writer

/-!
# What a cluster promises

The cluster interface is a parameter of everything that writes to it.  This file says what can
be seen of the events that a cluster keeps (`View`), and what an interface promises about them
(`View.Faithful`).  An event is only created if there is none of its name, and only patched by
somebody who names its current version.  Every write gives the event a version that no event
has had before, and a call that fails has done nothing.

`Api.logged` is an interface that keeps a list of the calls and of the answers to them.  On
such an interface a put that steps has three ways to do so (`step_turn`): nothing is written, the
event is created, or an occurrence is counted by somebody who has named the current version.
-/

namespace Reconcile.Cluster

/-- Where an event is kept: its namespace and its name. -/
abbrev Place : Type := String × String

/-- The place of the event that a record is merged into. -/
def placeOf (r : Record) : Place := (r.ns, r.eventName)

/-- The place that a call is about. -/
def Call.place : Call → Place
  | .read ns name => (ns, name)
  | .create event => (event.ns, event.name)
  | .patch ns name _ => (ns, name)

/-- An event as the cluster keeps it. -/
structure Kept where
  version : String
  count : Option Int
  message : String
deriving DecidableEq, Repr

/-- The number of occurrences that a place stands for.  An event without a number counts as
one occurrence. -/
def tally : Option Kept → Int
  | none => 0
  | some e => e.count.getD 1

/-! ## The promises -/

/-- What can be seen of the events in the surroundings `σ`. -/
structure View (σ : Type) where
  /-- The event at a place. -/
  event : σ → Place → Option Kept
  /-- The versions that have been given so far. -/
  given : σ → String → Prop

namespace View

variable {σ : Type} (v : View σ)

/-- No event is written. -/
structure Keeps (s s' : σ) : Prop where
  event : v.event s' = v.event s
  given : ∀ version, v.given s version → v.given s' version

/-- One event is written, and it gets a new version. -/
structure Writes (place : Place) (count : Int) (message : String) (s s' : σ) : Prop where
  event : ∃ version, ¬ v.given s version ∧
    v.event s' place = some ⟨version, some count, message⟩
  others : ∀ other, other ≠ place → v.event s' other = v.event s other
  given : ∀ version, v.given s version → v.given s' version

/-- The interface keeps the promises. -/
structure Faithful (api : Api σ) : Prop where
  /-- The versions of the events have been given. -/
  current : ∀ {s place e}, v.event s place = some e → v.given s e.version
  /-- A call that fails has no effect. -/
  failed : ∀ {call s fault s'}, api call s = (.error fault, s') → v.Keeps s s'
  /-- Reading has no effect and tells the version and the number of occurrences. -/
  read : ∀ {ns name s existing s'}, api (.read ns name) s = (.ok existing, s') →
    v.Keeps s s' ∧
      ∃ e, v.event s (ns, name) = some e ∧ existing = ⟨some e.version, e.count⟩
  /-- What exists is not created again. -/
  create : ∀ {event s existing s'}, api (.create event) s = (.ok existing, s') →
    v.event s (event.ns, event.name) = none ∧
      v.Writes (event.ns, event.name) event.count event.message s s'
  /-- A version that is named must be the current one. -/
  patch : ∀ {ns name change s existing s'}, api (.patch ns name change) s = (.ok existing, s') →
    ∃ e, v.event s (ns, name) = some e ∧
      (∀ version, change.version = some version → version = e.version) ∧
      v.Writes (ns, name) change.count change.message s s'

variable {v}

theorem Keeps.refl (s : σ) : v.Keeps s s := ⟨rfl, fun _ h => h⟩

theorem Keeps.trans {s₁ s₂ s₃ : σ} (h₁ : v.Keeps s₁ s₂) (h₂ : v.Keeps s₂ s₃) : v.Keeps s₁ s₃ :=
  ⟨h₂.event.trans h₁.event, fun version h => h₂.given version (h₁.given version h)⟩

end View

/-! ## Calls on record -/

/-- A call that a put has made, and the answer. -/
structure Deed where
  put : Nat
  call : Call
  answer : Except ApiFault Existing

namespace Deed

/-- Whether the call is a write that has been accepted. -/
def isAccepted (d : Deed) : Bool :=
  match d.call, d.answer with
  | .create _, .ok _ => true
  | .patch .., .ok _ => true
  | _, _ => false

theorem isAccepted_read (k : Nat) (ns name : String) (answer : Except ApiFault Existing) :
    (Deed.mk k (.read ns name) answer).isAccepted = false := rfl

theorem isAccepted_error (k : Nat) (call : Call) (fault : ApiFault) :
    (Deed.mk k call (.error fault)).isAccepted = false := by
  cases call <;> rfl

/-- The text that the call writes. -/
def message (d : Deed) : String :=
  match d.call with
  | .read .. => ""
  | .create event => event.message
  | .patch _ _ change => change.message

end Deed

/-- The interface that puts the calls of one put on record, latest first. -/
def Api.logged {σ : Type} (api : Api σ) (k : Nat) : Api (σ × List Deed) := fun call x =>
  let (answer, s) := api call x.1
  (answer, s, ⟨k, call, answer⟩ :: x.2)

/-- Time and chance beside a record of calls. -/
def loggedClock {𝕊 σ : Type} (clock : Retry.Clock 𝕊 σ) : Retry.Clock 𝕊 (σ × List Deed) where
  now x := clock.now x.1
  draw x := ((clock.draw x.1).1, (clock.draw x.1).2, x.2)

/-! ## One call of a put -/

/-- What a step of a put does: it writes its event and has returned, or nothing is written. -/
inductive Turn {σ : Type} (v : View σ) (k : Nat) (r : Record)
    (before : Retry.Stage Write Fault Unit) (s : σ) (deeds : List Deed) :
    Retry.Stage Write Fault Unit → σ → List Deed → Prop
  | kept {after : Retry.Stage Write Fault Unit} {s' : σ} {calls : List Deed} :
      v.Keeps s s' → (∀ d ∈ calls, d.isAccepted = false) →
      (after = .ended (.ok ()) ↔ before = .ended (.ok ())) →
      (∀ existing time, after = .trying (.counting existing time) → after = before ∨
        ∃ e, v.event s' (placeOf r) = some e ∧ existing = ⟨some e.version, e.count⟩) →
      Turn v k r before s deeds after s' (calls ++ deeds)
  | created {d : Deed} {s' : σ} {inner : Write} :
      before = .trying inner → d.isAccepted = true → d.put = k → d.call.place = placeOf r →
      d.message = r.message → v.event s (placeOf r) = none →
      v.Writes (placeOf r) 1 r.message s s' →
      Turn v k r before s deeds (.ended (.ok ())) s' (d :: deeds)
  | counted {d : Deed} {s' : σ} {existing : Existing} {time : Int} {e : Kept} :
      before = .trying (.counting existing time) → d.isAccepted = true → d.put = k →
      d.call.place = placeOf r → d.message = r.message → v.event s (placeOf r) = some e →
      (∀ version, existing.version = some version → version = e.version) →
      v.Writes (placeOf r) (nextCount existing.count) r.message s s' →
      Turn v k r before s deeds (.ended (.ok ())) s' (d :: deeds)

namespace Turn

variable {σ : Type} {v : View σ} {k : Nat} {r : Record}
  {before after : Retry.Stage Write Fault Unit} {s s₁ s₂ : σ} {deeds : List Deed}

/-- Nothing is written, and the put neither has the event in hand nor has returned. -/
theorem idle (calls : List Deed) (hkeeps : v.Keeps s s₁)
    (hcalls : ∀ d ∈ calls, d.isAccepted = false) (hbefore : before ≠ .ended (.ok ()))
    (hafter : after ≠ .ended (.ok ()))
    (hcounting : ∀ existing time, after ≠ .trying (.counting existing time)) :
    Turn v k r before s deeds after s₁ (calls ++ deeds) :=
  .kept hkeeps hcalls ⟨fun h => (hafter h).elim, fun h => (hbefore h).elim⟩
    fun existing time h => (hcounting existing time h).elim

end Turn

section

variable {𝕊 σ : Type} {v : View σ} {api : Api σ} {clock : Retry.Clock 𝕊 σ}

theorem send_logged (api : Api σ) (k : Nat) (call : Call) (s : σ) (deeds : List Deed) :
    Call.send (api.logged k) call (s, deeds) = (.error .unaddressable, s, deeds) ∨
      Call.send (api.logged k) call (s, deeds) =
        ((api call s).1, (api call s).2, ⟨k, call, (api call s).1⟩ :: deeds) := by
  unfold Call.send
  split
  · exact .inr rfl
  · exact .inl rfl

variable [Retry.Seconds 𝕊]

/-- A try that fails is followed by a wait or by the end. -/
theorem failed_turn (hdraw : ∀ s, v.Keeps s (clock.draw s).2) {k : Nat} {r : Record}
    {policy : Retry.Policy 𝕊} {retries : Nat} {waits : List Span} {inner : Write}
    {deeds : List Deed} (fault : Fault) {s s' : σ} (calls : List Deed) (hkeeps : v.Keeps s s')
    (hcalls : ∀ d ∈ calls, d.isAccepted = false) {x : Retry.Loop Write Fault Unit × σ × List Deed}
    (hx : Retry.Loop.failed (loggedClock clock) policy ⟨retries, waits, .trying inner⟩ fault
      (s', calls ++ deeds) = x) :
    Turn v k r (.trying inner) s deeds x.1.stage x.2.1 x.2.2 := by
  have hdrawn : v.Keeps s (clock.draw s').2 := hkeeps.trans (hdraw s')
  subst hx
  unfold Retry.Loop.failed
  split
  · exact .idle calls hkeeps hcalls (by simp) (by simp) (by simp)
  · simp only [loggedClock]
    split
    · exact .idle calls hdrawn hcalls (by simp) (by simp) (by simp)
    · exact .idle calls hdrawn hcalls (by simp) (by simp) (by simp)

/-- One step of a put, on an interface that keeps its promises. -/
theorem step_turn (hfaithful : v.Faithful api) (hdraw : ∀ s, v.Keeps s (clock.draw s).2)
    (now : σ → Int) (k : Nat) (r : Record) (policy : Retry.Policy 𝕊)
    (l : Retry.Loop Write Fault Unit) (s : σ) (deeds : List Deed) :
    Turn v k r l.stage s deeds
      (l.step (loggedClock clock) policy (write (api.logged k) (fun x => now x.1) r)
        (s, deeds)).1.stage
      (l.step (loggedClock clock) policy (write (api.logged k) (fun x => now x.1) r)
        (s, deeds)).2.1
      (l.step (loggedClock clock) policy (write (api.logged k) (fun x => now x.1) r)
        (s, deeds)).2.2 := by
  have hnone : ∀ d ∈ ([] : List Deed), d.isAccepted = false := by simp
  have hone : ∀ d : Deed, d.isAccepted = false → ∀ d' ∈ [d], d'.isAccepted = false := by
    intro d hd d' hd'
    rw [List.mem_singleton.1 hd', hd]
  obtain ⟨retries, waits, stage⟩ := l
  cases stage with
  | ended result => exact .kept (.refl s) hnone Iff.rfl fun _ _ _ => .inl rfl
  | crashed => exact .kept (.refl s) hnone Iff.rfl fun _ _ _ => .inl rfl
  | waiting deadline =>
    simp only [Retry.Loop.step]
    split
    · exact .idle [] (.refl s) hnone (by simp) (by simp) (by simp [write])
    · exact .idle [] (.refl s) hnone (by simp) (by simp) (by simp)
  | trying inner =>
    -- A call whose path cannot be written is not sent.  Any other is answered by the interface.
    cases inner with
    | reading =>
      simp only [Retry.Loop.step, write, advance]
      rcases send_logged api k (.read r.ns r.eventName) s deeds with hsend | hsend <;>
        rw [hsend]
      · exact failed_turn hdraw _ [] (.refl s) hnone rfl
      · have hcalls := fun answer => hone _ (Deed.isAccepted_read k r.ns r.eventName answer)
        rcases hcall : api (.read r.ns r.eventName) s with ⟨fault | existing, s'⟩
        · have hkeeps := hfaithful.failed hcall
          cases hfound : fault.isNotFound with
          | true =>
            simp only [hfound, if_true]
            exact .idle [_] hkeeps (hcalls _) (by simp) (by simp) (by simp)
          | false =>
            simp only [hfound, Bool.false_eq_true, if_false]
            exact failed_turn hdraw _ [_] hkeeps (hcalls _) rfl
        · obtain ⟨hkeeps, e, hevent, hexisting⟩ := hfaithful.read hcall
          refine .kept hkeeps (hcalls _) (by simp) fun existing' time h => .inr ?_
          cases h
          exact ⟨e, by rw [hkeeps.event]; exact hevent, hexisting⟩
    | creating time =>
      simp only [Retry.Loop.step, write, advance]
      rcases send_logged api k (.create (.ofRecord r r.eventName time)) s deeds with
        hsend | hsend <;> rw [hsend]
      · exact failed_turn hdraw _ [] (.refl s) hnone rfl
      · rcases hcall : api (.create (.ofRecord r r.eventName time)) s with ⟨fault | existing, s'⟩
        · exact failed_turn hdraw _ [_] (hfaithful.failed hcall)
            (hone _ (Deed.isAccepted_error ..)) rfl
        · obtain ⟨hevent, hwrites⟩ := hfaithful.create hcall
          exact .created rfl rfl rfl rfl rfl hevent hwrites
    | counting existing time =>
      simp only [Retry.Loop.step, write, advance]
      rcases send_logged api k (.patch r.ns r.eventName (increment r existing time)) s deeds with
        hsend | hsend <;> rw [hsend]
      · exact failed_turn hdraw _ [] (.refl s) hnone rfl
      · rcases hcall : api (.patch r.ns r.eventName (increment r existing time)) s with
          ⟨fault | answer, s'⟩
        · exact failed_turn hdraw _ [_] (hfaithful.failed hcall)
            (hone _ (Deed.isAccepted_error ..)) rfl
        · obtain ⟨e, hevent, hversion, hwrites⟩ := hfaithful.patch hcall
          exact .counted rfl rfl rfl rfl rfl hevent hversion hwrites

end

end Reconcile.Cluster
