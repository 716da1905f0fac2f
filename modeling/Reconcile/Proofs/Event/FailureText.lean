import Mathlib.Data.List.Induction
import Reconcile.Proofs.Event.Atomicity
import Reconcile.Proofs.Text.Filling

/-!
# The text of a failure

A failure may be reported without a text.  The word that then stands for it is filled in twice: in
the message of the FAILED record, and in the marker that the emission leaves.  An ABORTED event
without a text of its own takes the text from the marker, so it says the same as the record.

This holds through any emissions on a packet.  The marker is that of the latest FAILED event that
has been emitted (`Answered.exists_isLatestFailure`): requests that are declined or end with a fault
leave no marker, and what the sink answers does not matter.  The answer to that request is still in
the log, with the domain of the packet, so that its text can be compared with the one of ABORTED
(`Emissions.renders_latest`).
-/

namespace Reconcile

/-- The message of the record is the pattern of its kind with this resource and this text. -/
def Record.Renders (r : Record) (resource text : String) : Prop :=
  r.message = r.item.message resource (some text)

instance (r : Record) (resource text : String) : Decidable (r.Renders resource text) :=
  inferInstanceAs (Decidable (_ = _))

namespace Request

variable {q : Request} {p : Packet} {i : Identity} {record : Record}

/-- A failure renders one text only, the one that it was given or the word for an unknown one. -/
theorem renders_toRecord_iff (hitem : q.item.takesText = true) (t : Target) (text : Option String)
    (j : ResolvedIdentity) (s : String) :
    (q.toRecord t text j).Renders t.resource s ↔ s = text.getD Item.unknownText := by
  have hfilled : (q.toRecord t text j).message =
      q.item.message t.resource (some (text.getD Item.unknownText)) := rfl
  rw [Record.Renders, hfilled]
  exact ⟨fun h => (Item.message_injective hitem h).symm, fun h => h ▸ rfl⟩

theorem takesText_of_failed (hitem : q.item = .processingFailed) : q.item.takesText = true := by
  rw [hitem]
  decide +kernel

/-- FAILED renders what its marker records. -/
theorem renders_of_failed (hitem : q.item = .processingFailed)
    (h : q.prepare p i = .ok (.record record)) :
    ∃ t, q.target p.domain = .ok t ∧
      ∀ text, record.Renders t.resource text ↔ text = q.failureMarker.message := by
  cases preparation_of_eq h with
  | emitted htarget hdecision =>
    rw [decision, hitem] at hdecision
    simp only at hdecision
    split at hdecision
    · cases hdecision
    · obtain rfl := Decision.emit.inj hdecision
      exact ⟨_, htarget, renders_toRecord_iff (takesText_of_failed hitem) _ _ _⟩

/-- ABORTED has its own text or that of the failure on record. -/
theorem message_of_aborted (hitem : q.item = .processingAborted)
    (h : q.prepare p i = .ok (.record record)) :
    ∃ t f, q.target p.domain = .ok t ∧ p.markers.failure = some f ∧ record.message =
      Item.processingAborted.message t.resource (some (q.message.getD f.message)) := by
  cases preparation_of_eq h with
  | @emitted t text j htarget hdecision =>
    rw [decision, hitem] at hdecision
    simp only at hdecision
    split at hdecision
    · cases hdecision
    case h_2 f hfailure =>
      split at hdecision
      · cases hdecision
      · obtain rfl := Decision.emit.inj hdecision
        refine ⟨t, f, htarget, hfailure, ?_⟩
        rw [toRecord, hitem]

end Request

/-! ## The latest failure in a log -/

namespace Answered

/-- The latest failure of a log that has been emitted, with its record. -/
def IsLatestFailure (log : List Answered) (a : Answered) (failed : Record) : Prop :=
  ∃ earlier later, log = earlier ++ a :: later ∧
    a.request.item = .processingFailed ∧ a.answer = .ok (.record failed) ∧
    ∀ b ∈ later, b.request.item = .processingFailed → ∀ r, b.answer ≠ .ok (.record r)

theorem IsLatestFailure.concat {log : List Answered} {a : Answered} {failed : Record}
    (h : IsLatestFailure log a failed) {b : Answered}
    (hb : b.request.item = .processingFailed → ∀ r, b.answer ≠ .ok (.record r)) :
    IsLatestFailure (log ++ [b]) a failed := by
  obtain ⟨earlier, later, rfl, hitem, hanswer, hlater⟩ := h
  refine ⟨earlier, later ++ [b], by simp, hitem, hanswer, fun c hc => ?_⟩
  rcases List.mem_append.1 hc with hold | hnew
  · exact hlater c hold
  · exact List.mem_singleton.1 hnew ▸ hb

/-- The failure that the emissions of a log leave on record is that of its latest failure. -/
theorem exists_isLatestFailure {log : List Answered} {f : FailureMarker}
    (h : latestFailure (emissions log) = some f) :
    ∃ a failed, IsLatestFailure log a failed ∧ a.request.failureMarker = f := by
  induction log using List.reverseRecOn with
  | nil => cases h
  | append_singleton log a ih =>
    rw [emissions_concat] at h
    have hskip (hquiet : a.request.item = .processingFailed → ∀ r, a.answer ≠ .ok (.record r))
        (hbefore : latestFailure (emissions log) = some f) :
        ∃ b failed, IsLatestFailure (log ++ [a]) b failed ∧ b.request.failureMarker = f := by
      obtain ⟨b, failed, hlatest, hmarker⟩ := ih hbefore
      exact ⟨b, failed, hlatest.concat hquiet, hmarker⟩
    cases hanswer : a.answer with
    | error fault =>
      simp only [emission?, hanswer, Option.toList_none, List.append_nil] at h
      exact hskip (by simp [hanswer]) h
    | ok prepared =>
      cases prepared with
      | suppressed rule =>
        simp only [emission?, hanswer, Option.toList_none, List.append_nil] at h
        exact hskip (by simp [hanswer]) h
      | record record =>
        simp only [emission?, hanswer, Option.toList_some, latestFailure_concat] at h
        split at h
        case isTrue hitem =>
          exact ⟨a, record, ⟨log, [], rfl, hitem, hanswer, by simp⟩, Option.some.inj h⟩
        case isFalse hitem => exact hskip (fun hfailed => (hitem hfailed).elim) h

end Answered

/-! ## Emissions on one packet -/

variable {𝕊 ε : Type}

theorem World.domain_emit (w : World 𝕊 ε) (q : Request) (p : Packet) :
    (w.emit q p).2.1.domain = p.domain := by
  rw [emit_eq]
  rcases q.prepare p w.identity with _ | (_ | _) <;> rfl

namespace Emissions

/-- All answers have been given to requests with a packet about the same domain. -/
structure IsAbout (x : Emissions) (domain : Option Domain) : Prop where
  packet : x.packet.domain = domain
  log : ∀ a ∈ x.log, ∃ (p : Packet) (i : Identity),
    p.domain = domain ∧ a.request.prepare p i = a.answer

theorem IsAbout.next {x : Emissions} {domain : Option Domain} (h : x.IsAbout domain)
    (call : World 𝕊 ε × Request) : (x.next call).IsAbout domain where
  packet := (World.domain_emit ..).trans h.packet
  log a ha := by
    rcases List.mem_append.1 ha with hold | hnew
    · exact h.log a hold
    · obtain rfl := List.mem_singleton.1 hnew
      exact ⟨x.packet, call.1.identity, h.packet, (World.emit_fst ..).symm⟩

theorem IsAbout.run (domain : Option Domain) (calls : List (World 𝕊 ε × Request)) :
    (Emissions.run (.fresh domain) calls).IsAbout domain := by
  have hfresh : IsAbout ⟨[], .fresh domain⟩ domain :=
    ⟨by cases domain <;> rfl, fun _ ha => absurd ha List.not_mem_nil⟩
  exact run_induction (I := (·.IsAbout domain)) hfresh (fun _ => IsAbout.next) calls

/-- The failure on record is that of the latest failure, and its record renders the same text. -/
theorem renders_latest {x : Emissions} {domain : Option Domain} (hsound : x.Sound)
    (habout : x.IsAbout domain) {f : FailureMarker} (h : x.packet.markers.failure = some f) :
    ∃ a failed t, Answered.IsLatestFailure x.log a failed ∧ a.request.failureMarker = f ∧
      a.request.target domain = .ok t ∧
      ∀ text, failed.Renders t.resource text ↔ text = f.message := by
  rw [hsound.tracks.failure] at h
  obtain ⟨a, failed, hlatest, rfl⟩ := Answered.exists_isLatestFailure h
  obtain ⟨_, _, hsplit, hitem, hanswer, -⟩ := id hlatest
  obtain ⟨p, i, rfl, hprepare⟩ := habout.log a (hsplit ▸ by simp)
  obtain ⟨t, htarget, hrenders⟩ := Request.renders_of_failed hitem (hprepare.trans hanswer)
  exact ⟨a, failed, t, hlatest, rfl, htarget, hrenders⟩

/-- Whenever ABORTED is emitted after some emissions on a new packet, FAILED has been emitted before.
The message of ABORTED is its pattern with the text of the request, or else with the one text that
the latest FAILED record renders, which is the text of that request or the word for an unknown
one. -/
theorem text_of_aborted (domain : Option Domain) (calls : List (World 𝕊 ε × Request))
    {w : World 𝕊 ε} {q : Request} {aborted : Record} (hitem : q.item = .processingAborted)
    (h : (w.emit q (run (.fresh domain) calls).packet).1 = .ok (.record aborted)) :
    ∃ a failed failedAt abortedAt,
      Answered.IsLatestFailure (run (.fresh domain) calls).log a failed ∧
      a.request.target domain = .ok failedAt ∧ q.target domain = .ok abortedAt ∧
      failed.Renders failedAt.resource (a.request.message.getD Item.unknownText) ∧
      ∀ text, failed.Renders failedAt.resource text → aborted.message =
        Item.processingAborted.message abortedAt.resource (some (q.message.getD text)) := by
  have hsound := Sound.run domain calls
  have habout := IsAbout.run domain calls
  rw [World.emit_fst] at h
  obtain ⟨abortedAt, f, htarget, hfailure, hmessage⟩ := Request.message_of_aborted hitem h
  rw [habout.packet] at htarget
  obtain ⟨a, failed, failedAt, hlatest, rfl, hfailedAt, hrenders⟩ :=
    renders_latest hsound habout hfailure
  refine ⟨a, failed, failedAt, abortedAt, hlatest, hfailedAt, htarget, (hrenders _).2 rfl, ?_⟩
  intro text htext
  rw [hmessage, (hrenders text).1 htext]

end Emissions

/-! ### A failure without a text -/

namespace Mishap

/-- The sink refuses everything. -/
def world (identity : Identity) : World Rat Unit := .started identity fun _ => true

def known : Identity := ⟨some "ops", some "keel-0"⟩

def domain : Domain := .named "uid" "ns"

/-- ABORTED comes too early.  A failure is reported without a text and then again, with the word for
an unknown one.  Another failure is not reported, since the operator does not know who it is. -/
def calls : List (World Rat Unit × Request) :=
  [(world known, .of .processingAborted),
    (world known, .of .processingFailed),
    (world known, (Request.of .processingFailed).withMessage "unknown"),
    (world ⟨none, none⟩, (Request.of .processingFailed).withMessage "lost")]

/-- ABORTED says of the failure what FAILED has said. -/
theorem unknown_repeated :
    (Emissions.run (.fresh (some domain)) calls).log.map (·.emission?.isSome) =
        [false, true, false, false] ∧
      ∃ aborted, ((world known).emit (.of .processingAborted)
          (Emissions.run (.fresh (some domain)) calls).packet).1 = .ok (.record aborted) ∧
        aborted.message = "Stop processing domain resource uid due to: unknown, " ++
          "the processing will not be retried" := by
  have hemitted : ((world known).emit (.of .processingAborted)
      (Emissions.run (.fresh (some domain)) calls).packet).1 = .ok (.record
        ((Request.of .processingAborted).toRecord domain.target (some "unknown")
          ⟨"ops", "keel-0"⟩)) := rfl
  obtain ⟨a, failed, failedAt, abortedAt, hlatest, -, habortedAt, hrenders, htext⟩ :=
    Emissions.text_of_aborted (some domain) calls rfl hemitted
  refine ⟨rfl, _, hemitted, ?_⟩
  -- One request only has been emitted, and it had no text.
  have hunknown : ∀ a ∈ (Emissions.run (.fresh (some domain)) calls).log,
      a.emission?.isSome = true → a.request.message = none := by
    decide
  obtain ⟨_, _, hsplit, -, hanswer, -⟩ := hlatest
  have hmessage : a.request.message = none :=
    hunknown a (hsplit ▸ by simp) (by rw [Answered.emission?, hanswer]; rfl)
  have habout : abortedAt = domain.target := (Except.ok.inj habortedAt).symm
  rw [htext _ hrenders, hmessage, habout]
  decide +kernel

end Mishap

end Reconcile
