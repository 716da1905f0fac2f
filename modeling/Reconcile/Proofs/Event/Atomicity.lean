import Reconcile.Proofs.Event.Bookkeeping
import Reconcile.Proofs.Event.Targets

/-!
# Emissions are all or nothing

A record can be built without being emitted.  What is built tells what an emission would do in the
same place (`World.Foretold`): a fault is the fault of the emission, which then leaves everything
alone; where a rule has declined the event, the emission only counts this; and a record is the one
that the emission hands over, with a marker, an entry in the history and a receipt for it.

There are three reasons for which no record is built.  They stand in a fixed order, so the first of
them hides the others: the request has no target, a rule declines it, the operator does not know who
it is.
-/

namespace Reconcile

variable {𝕊 ε : Type}

/-! ## What is built -/

namespace Request

variable {q : Request} {p : Packet} {i : Identity}

theorem build_eq_error_iff {fault : Fault} :
    q.build p i = .error fault ↔ q.prepare p i = .error fault := by
  unfold build
  cases q.prepare p i <;> simp [Except.map]

theorem build_eq_none_iff : q.build p i = .ok none ↔ ∃ rule, q.prepare p i = .ok (.suppressed rule) := by
  unfold build
  rcases q.prepare p i with _ | (_ | _) <;> simp [Except.map, Prepared.record?]

theorem build_eq_some_iff {record : Record} :
    q.build p i = .ok (some record) ↔ q.prepare p i = .ok (.record record) := by
  unfold build
  rcases q.prepare p i with _ | (_ | _) <;> simp [Except.map, Prepared.record?]

/-- Without a target there is no record, whatever the markers and the identity are. -/
theorem build_of_target_error {fault : Fault} (h : q.target p.domain = .error fault) (m : Markers)
    (i : Identity) : q.build { p with markers := m } i = .error fault := by
  rw [build_eq_error_iff]
  unfold prepare
  rw [h]
  rfl

/-- A rule that declines the request does so whatever the identity is. -/
theorem build_of_suppressed {target : Target} {rule : Rule} (htarget : q.target p.domain = .ok target)
    (hdecision : q.decision p.markers = .suppress rule) (i : Identity) :
    q.build p i = .ok none := by
  rw [build_eq_none_iff]
  refine ⟨rule, ?_⟩
  unfold prepare
  rw [htarget, hdecision]
  rfl

/-- Only a request with a target that no rule declines asks for the identity. -/
theorem exists_of_build_missingSetting {key : String}
    (h : q.build p i = .error (.missingSetting key)) :
    (∃ target, q.target p.domain = .ok target) ∧ (∃ text, q.decision p.markers = .emit text) ∧
      i.resolve = .error (.missingSetting key) := by
  cases preparation_of_eq (build_eq_error_iff.1 h) with
  | untargeted hmissing =>
    obtain ⟨message, hinvalid⟩ := invalid_of_target hmissing
    cases hinvalid
  | anonymous htarget hdecision hidentity => exact ⟨⟨_, htarget⟩, ⟨_, hdecision⟩, hidentity⟩

end Request

/-! ## What an emission changes -/

/-- A packet after an event: the reason stands at the end of the history, and the marker of the kind
of event is set.  Everything else is as before. -/
structure Packet.Marked (p p' : Packet) (q : Request) : Prop where
  history : p'.markers.history = p.markers.history ++ [q.item.reason]
  has : ∀ k, p'.markers.has k = (p.markers.has k || decide (q.item = k.item))
  failure : p'.markers.failure =
    if q.item = .processingFailed then some q.failureMarker else p.markers.failure
  rest : p' = { p with markers := p'.markers }

theorem Packet.marked_marked (p : Packet) (q : Request) :
    p.Marked { p with markers := q.marked p.markers } q :=
  ⟨Markers.history_marked q p.markers, Markers.has_marked q p.markers,
    Markers.failure_marked q p.markers, rfl⟩

namespace World

/-- One counter has been raised by one.  Apart from hand-overs and the log of the rules everything
else is as before. -/
structure Counted (w w' : World 𝕊 ε) (k : Counter) : Prop where
  reads : ∀ x, w'.reads x = w.reads x + if x = k then 1 else 0
  rest : w' = { w with
    outbox := w'.outbox
    counters := w'.counters
    declined := w'.declined }

/-- The counter for an event, given the answer of the sink to its record. -/
def receipt (i : Item) : Except Fault Unit → Counter
  | .ok () => .emitted i
  | .error _ => .storeFailed i

theorem counted_deliver (w : World 𝕊 ε) (record : Record) :
    w.Counted (w.deliver record) (receipt record.item (w.outbox.put record).1) := by
  unfold deliver
  split <;> rename_i hput <;> rw [hput] <;> exact ⟨reads_of_raise rfl, rfl⟩

/-! ## What has been built tells what is emitted -/

/-- What is built beforehand tells all that an emission does. -/
structure Foretold (w : World 𝕊 ε) (q : Request) (p : Packet) : Prop where
  /-- The answer is what has been built, apart from the name of the rule. -/
  answer : (w.emit q p).1.map Request.Prepared.record? = q.build p w.identity
  faulty : ∀ fault, q.build p w.identity = .error fault → (w.emit q p).2 = (p, w)
  declined : q.build p w.identity = .ok none →
    (w.emit q p).2.1 = p ∧ (w.emit q p).2.2.outbox = w.outbox ∧
      w.Counted (w.emit q p).2.2 (.suppressed q.item)
  /-- The record that has been built is handed over, and no other.  What is counted is the answer of
  the sink. -/
  emitted : ∀ record, q.build p w.identity = .ok (some record) →
    p.Marked (w.emit q p).2.1 q ∧ (w.emit q p).2.2.outbox = (w.outbox.put record).2 ∧
      (w.emit q p).2.2.outbox.handed = w.outbox.handed ++ [record] ∧
      w.Counted (w.emit q p).2.2 (receipt q.item (w.outbox.put record).1)
  /-- A missing target is reported whatever the rules say and whoever the operator is. -/
  untargeted : ∀ fault, q.target p.domain = .error fault →
    ∀ m i, q.build { p with markers := m } i = .error fault
  /-- A rule that declines hides that the operator does not know who it is. -/
  unasked : ∀ target rule, q.target p.domain = .ok target →
    q.decision p.markers = .suppress rule → ∀ i, q.build p i = .ok none
  /-- So whoever is told that the operator does not know who it is has a request with a target that
  no rule declines. -/
  unidentified : ∀ key, q.build p w.identity = .error (.missingSetting key) →
    (∃ target, q.target p.domain = .ok target) ∧ (∃ text, q.decision p.markers = .emit text) ∧
      w.identity.resolve = .error (.missingSetting key)

/-- An emission is foretold by what is built in its place, and it is all or nothing. -/
theorem foretold (w : World 𝕊 ε) (q : Request) (p : Packet) : w.Foretold q p where
  answer := by rw [emit_fst, Request.build]
  faulty fault hfault := by
    rw [emit_eq, Request.build_eq_error_iff.1 hfault]
  declined hnone := by
    obtain ⟨rule, hrule⟩ := Request.build_eq_none_iff.1 hnone
    rw [emit_eq, hrule]
    exact ⟨rfl, rfl, reads_of_raise rfl, rfl⟩
  emitted record hrecord := by
    have hprepare := Request.build_eq_some_iff.1 hrecord
    have hitem : record.item = q.item := Request.item_of_prepare hprepare
    have houtbox : (w.deliver record).outbox = (w.outbox.put record).2 :=
      (w.books_deliver record).1
    rw [emit_eq, hprepare]
    refine ⟨p.marked_marked q, houtbox, ?_, hitem ▸ w.counted_deliver record⟩
    simp only [houtbox, Outbox.handed_put]
  untargeted _ := Request.build_of_target_error
  unasked _ _ := Request.build_of_suppressed
  unidentified _ := Request.exists_of_build_missingSetting

end World

end Reconcile
