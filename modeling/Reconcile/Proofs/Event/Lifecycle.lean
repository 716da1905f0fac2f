import Reconcile.World

/-!
# The lifecycle of an attempt in its events

The correlation rules read markers, and an emission leaves markers.  This file follows the two
through any sequence of emissions on a new packet, whatever the identity of the operator and
the sink are at each of them.

The emissions that have been let through are a list of requests.  `Markers.Tracks` says that
the markers are exactly what this list leaves, and `Request.Admissible` is what the rules ask of
it, with no mention of markers.  A request is emitted exactly if it is admissible
(`Markers.Tracks.decision_iff`), and this is carried through all emissions by `Answered.Fits`.
What is said of a lifecycle in `Lifecycle` follows from that.
-/

namespace Reconcile

/-- The kind of event that leaves a kind of marker. -/
def Markers.Kind.item : Markers.Kind → Item
  | .starting => .processingStarting
  | .retrying => .processingRetrying
  | .completed => .processingCompleted
  | .aborted => .processingAborted
  | .failure => .processingFailed

/-- The failure that the last FAILED event among some emissions reported. -/
def latestFailure (es : List Request) : Option FailureMarker :=
  (es.filter (·.item = .processingFailed)).getLast?.map Request.failureMarker

theorem latestFailure_concat (es : List Request) (q : Request) :
    latestFailure (es ++ [q]) =
      if q.item = .processingFailed then some q.failureMarker else latestFailure es := by
  unfold latestFailure
  rw [List.filter_append]
  split
  case isTrue hfailed => simp [hfailed]
  case isFalse hother => simp [hother]

theorem latestFailure_append {es rest : List Request}
    (hrest : ∀ r ∈ rest, r.item ≠ .processingFailed) :
    latestFailure (es ++ rest) = latestFailure es := by
  have hnone : rest.filter (·.item = .processingFailed) = [] := by
    simpa [List.filter_eq_nil_iff] using hrest
  rw [latestFailure, List.filter_append, hnone, List.append_nil, latestFailure]

/-! ## The rules without the markers -/

/-- What the correlation rules ask of a request, given the emissions so far. -/
def Request.Admissible (es : List Request) (q : Request) : Prop :=
  match q.item with
  | .processingStarting => ∀ r ∈ es, r.item ≠ .processingStarting
  | .processingCompleted =>
    (∃ r ∈ es, r.item = .processingStarting) ∧ ∀ r ∈ es, r.item ≠ .processingCompleted
  | .processingAborted =>
    (∃ r ∈ es, r.item = .processingFailed) ∧ ∀ r ∈ es, r.item ≠ .processingAborted
  | .processingFailed => latestFailure es ≠ some q.failureMarker
  | _ => True

namespace Markers

variable {es : List Request} {m : Markers} {q : Request}

theorem history_marked (q : Request) (m : Markers) :
    (q.marked m).history = m.history ++ [q.item.reason] := by
  unfold Request.marked pushHistory
  cases q.marker? <;> simp

theorem has_marked (q : Request) (m : Markers) (k : Kind) :
    (q.marked m).has k = (m.has k || decide (q.item = k.item)) := by
  obtain ⟨item, _, _, _, _⟩ := q
  cases item <;> cases k <;>
    simp [Request.marked, Request.marker?, pushHistory, record, has, Kind.item]

theorem failure_marked (q : Request) (m : Markers) :
    (q.marked m).failure =
      if q.item = .processingFailed then some q.failureMarker else m.failure := by
  obtain ⟨item, _, _, _, _⟩ := q
  cases item <;> simp [Request.marked, Request.marker?, pushHistory, record]

/-- The markers are what the emissions have left. -/
structure Tracks (es : List Request) (m : Markers) : Prop where
  history : m.history = es.map (·.item.reason)
  has : ∀ k, m.has k = true ↔ ∃ r ∈ es, r.item = k.item
  failure : m.failure = latestFailure es

namespace Tracks

theorem initial : Tracks [] Markers.initial where
  history := rfl
  has k := by cases k <;> simp [Markers.has, Markers.initial]
  failure := rfl

/-- An emission leaves its markers. -/
theorem concat (h : Tracks es m) (q : Request) : Tracks (es ++ [q]) (q.marked m) where
  history := by rw [history_marked, h.history, List.map_append, List.map_singleton]
  has k := by
    rw [has_marked, Bool.or_eq_true, h.has, decide_eq_true_eq]
    constructor
    · rintro (⟨r, hr, hitem⟩ | hitem)
      · exact ⟨r, List.mem_append_left _ hr, hitem⟩
      · exact ⟨q, List.mem_concat_self, hitem⟩
    · rintro ⟨r, hr, hitem⟩
      rcases List.mem_append.1 hr with hold | hnew
      · exact .inl ⟨r, hold, hitem⟩
      · exact .inr (List.mem_singleton.1 hnew ▸ hitem)
  failure := by rw [failure_marked, latestFailure_concat, h.failure]

theorem has_eq_false (h : Tracks es m) (k : Kind) :
    m.has k = false ↔ ∀ r ∈ es, r.item ≠ k.item := by
  rw [← Bool.not_eq_true, h.has]
  simp

/-- The rules, which look at the markers only, let through what is admissible. -/
theorem decision_iff (h : Tracks es m) (q : Request) :
    (∃ text, q.decision m = .emit text) ↔ q.Admissible es := by
  unfold Request.decision Request.Admissible
  cases hitem : q.item with
  | processingStarting =>
    have hfresh : m.starting = false ↔ ∀ r ∈ es, r.item ≠ .processingStarting :=
      h.has_eq_false .starting
    simp only
    rw [← hfresh]
    cases m.starting <;> simp
  | processingCompleted =>
    have hstarted : m.starting = true ↔ ∃ r ∈ es, r.item = .processingStarting := h.has .starting
    have hfresh : m.completed = false ↔ ∀ r ∈ es, r.item ≠ .processingCompleted :=
      h.has_eq_false .completed
    simp only
    rw [← hstarted, ← hfresh]
    cases m.starting <;> cases m.completed <;> simp
  | processingAborted =>
    have hfailed : m.failure.isSome = true ↔ ∃ r ∈ es, r.item = .processingFailed :=
      h.has .failure
    have hfresh : m.aborted = false ↔ ∀ r ∈ es, r.item ≠ .processingAborted :=
      h.has_eq_false .aborted
    simp only
    rw [← hfailed, ← hfresh]
    cases m.failure <;> cases m.aborted <;> simp
  | processingFailed =>
    simp only
    rw [← h.failure]
    by_cases hsame : m.failure = some q.failureMarker <;> simp [hsame]
  | processingRetrying | resourceCreated | resourceChanged | resourceDeleted
  | namespaceWatchingStarted | namespaceWatchingStopped => simp

end Tracks

end Markers

/-! ## One emission -/

/-- What may become of a request, and why. -/
inductive Request.Preparation (q : Request) (p : Packet) (i : Identity) :
    Except Fault Request.Prepared → Prop
  /-- It does not say what the event points at. -/
  | untargeted {fault : Fault} : q.target p.domain = .error fault →
      Preparation q p i (.error fault)
  | declined {target : Target} {rule : Rule} : q.target p.domain = .ok target →
      q.decision p.markers = .suppress rule → Preparation q p i (.ok (.suppressed rule))
  /-- The operator does not know who it is. -/
  | anonymous {target : Target} {text : Option String} {fault : Fault} :
      q.target p.domain = .ok target → q.decision p.markers = .emit text →
      i.resolve = .error fault → Preparation q p i (.error fault)
  | emitted {target : Target} {text : Option String} {j : ResolvedIdentity} :
      q.target p.domain = .ok target → q.decision p.markers = .emit text → i.resolve = .ok j →
      Preparation q p i (.ok (.record (q.toRecord target text j)))

theorem Request.preparation (q : Request) (p : Packet) (i : Identity) :
    q.Preparation p i (q.prepare p i) := by
  unfold prepare
  cases htarget : q.target p.domain with
  | error fault => exact .untargeted htarget
  | ok target =>
    cases hdecision : q.decision p.markers with
    | suppress rule => exact .declined htarget hdecision
    | emit text =>
      cases hidentity : i.resolve with
      | error fault => exact .anonymous htarget hdecision hidentity
      | ok j => exact .emitted htarget hdecision hidentity

theorem Request.preparation_of_eq {q : Request} {p : Packet} {i : Identity}
    {answer : Except Fault Request.Prepared} (h : q.prepare p i = answer) :
    q.Preparation p i answer := h ▸ q.preparation p i

theorem Request.item_of_prepare {q : Request} {p : Packet} {i : Identity} {record : Record}
    (h : q.prepare p i = .ok (.record record)) : record.item = q.item := by
  cases preparation_of_eq h with
  | emitted => rfl

/-- What becomes of a request says what the rules have said. -/
theorem Request.decision_of_prepare {q : Request} {p : Packet} {i : Identity}
    {prepared : Prepared} (h : q.prepare p i = .ok prepared) :
    (∃ record, prepared = .record record) ↔ ∃ text, q.decision p.markers = .emit text := by
  cases preparation_of_eq h with
  | declined _ hdecision => simp [hdecision]
  | emitted _ hdecision => simp [hdecision]

/-- A request and the answer to it. -/
structure Answered where
  request : Request
  answer : Except Fault Request.Prepared

namespace Answered

/-- The request, if its event has been emitted. -/
def emission? (a : Answered) : Option Request :=
  match a.answer with
  | .ok (.record _) => some a.request
  | _ => none

/-- The requests whose events have been emitted. -/
def emissions (log : List Answered) : List Request := log.filterMap emission?

/-- Without a fault, a request is emitted exactly if it is admissible after the emissions
before it. -/
def Fits (earlier : List Answered) (a : Answered) : Prop :=
  ∀ prepared, a.answer = .ok prepared →
    ((∃ record, prepared = .record record) ↔ a.request.Admissible (emissions earlier))

theorem emissions_concat (log : List Answered) (a : Answered) :
    emissions (log ++ [a]) = emissions log ++ a.emission?.toList := by
  simp only [emissions, List.filterMap_append, List.filterMap_cons, List.filterMap_nil]
  cases a.emission? <;> rfl

/-- Every answer of a log fits what has gone before it. -/
def AllFit (log : List Answered) : Prop :=
  ∀ before a after, log = before ++ a :: after → Fits before a

theorem AllFit.concat {log : List Answered} {a : Answered} (h : AllFit log) (ha : Fits log a) :
    AllFit (log ++ [a]) := by
  intro before b after hsplit
  rcases List.eq_nil_or_concat after with rfl | ⟨after, last, rfl⟩
  · obtain ⟨rfl, hlast⟩ := List.append_inj' hsplit rfl
    obtain rfl : a = b := List.singleton_inj.1 hlast
    exact ha
  · rw [List.concat_eq_append, ← List.cons_append, ← List.append_assoc] at hsplit
    exact h before b after (List.append_inj' hsplit rfl).1

/-- Every emission was admissible after those before it. -/
theorem AllFit.admissible {log : List Answered} (h : AllFit log) {before after : List Request}
    {q : Request} (hsplit : emissions log = before ++ q :: after) : q.Admissible before := by
  -- The answer that emits `q` comes after some that emit nothing.
  obtain ⟨earlier, later, rfl, rfl, hlater⟩ := List.filterMap_eq_append_iff.1 hsplit
  obtain ⟨skipped, a, rest, rfl, hskipped, ha, -⟩ := List.filterMap_eq_cons_iff.1 hlater
  have hnone : skipped.filterMap emission? = [] := List.filterMap_eq_nil_iff.2 hskipped
  have hfits := h (earlier ++ skipped) a rest (List.append_assoc ..).symm
  obtain ⟨request, answer⟩ := a
  unfold emission? at ha
  split at ha
  case h_1 record hrecord =>
    obtain rfl : request = q := Option.some.inj ha
    have hadmissible := (hfits _ hrecord).1 ⟨record, rfl⟩
    rwa [emissions, List.filterMap_append, hnone, List.append_nil] at hadmissible
  case h_2 => cases ha

end Answered

variable {𝕊 ε : Type}

namespace World

open Answered

/-- An emission does what the preparation of its request says. -/
theorem emit_eq (w : World 𝕊 ε) (q : Request) (p : Packet) :
    w.emit q p = match q.prepare p w.identity with
      | .error fault => (.error fault, p, w)
      | .ok (.suppressed rule) => (.ok (.suppressed rule), p,
          { w.raise (.suppressed q.item) with declined := w.declined ++ [rule] })
      | .ok (.record record) => (.ok (.record record),
          { p with markers := q.marked p.markers }, w.deliver record) := by
  unfold emit announce
  rcases q.prepare p w.identity with _ | (_ | _) <;> rfl

theorem emit_fst (w : World 𝕊 ε) (q : Request) (p : Packet) :
    (w.emit q p).1 = q.prepare p w.identity := by
  rw [emit_eq]
  rcases q.prepare p w.identity with _ | (_ | _) <;> rfl

/-- An emission answers as the markers demand and leaves the markers of what it emits. -/
theorem emit_tracks {log : List Answered} {p : Packet}
    (h : Markers.Tracks (emissions log) p.markers) (w : World 𝕊 ε) (q : Request) :
    Fits log ⟨q, (w.emit q p).1⟩ ∧
      Markers.Tracks (emissions (log ++ [⟨q, (w.emit q p).1⟩])) (w.emit q p).2.1.markers := by
  rw [emissions_concat, emit_eq]
  cases hprepare : q.prepare p w.identity with
  | error fault => exact ⟨fun _ hanswer => (nomatch hanswer), by simpa [emission?] using h⟩
  | ok prepared =>
    have hdecision := (Request.decision_of_prepare hprepare).trans (h.decision_iff q)
    cases prepared with
    | suppressed rule =>
      refine ⟨fun prepared hanswer => ?_, by simpa [emission?] using h⟩
      cases hanswer
      exact hdecision
    | record record =>
      refine ⟨fun prepared hanswer => ?_, h.concat q⟩
      cases hanswer
      exact hdecision

end World

/-! ## All emissions -/

/-- A new packet, for an attempt on a domain or on none in particular. -/
def Packet.fresh : Option Domain → Packet
  | some d => .forDomain d
  | none => .empty

/-- What has been answered so far, and the packet that is left. -/
structure Emissions where
  log : List Answered
  packet : Packet

namespace Emissions

/-- Emits one more event, in some world. -/
def next (x : Emissions) (call : World 𝕊 ε × Request) : Emissions :=
  let (answer, p, _) := call.1.emit call.2 x.packet
  ⟨x.log ++ [⟨call.2, answer⟩], p⟩

/-- Emits one event after another, each in a world of its own. -/
def run (p : Packet) (calls : List (World 𝕊 ε × Request)) : Emissions := calls.foldl next ⟨[], p⟩

theorem run_induction {I : Emissions → Prop} {p : Packet} (hstart : I ⟨[], p⟩)
    (hnext : ∀ x, I x → ∀ call : World 𝕊 ε × Request, I (x.next call))
    (calls : List (World 𝕊 ε × Request)) : I (run p calls) :=
  List.foldlRecOn (motive := I) calls next hstart fun x h call _ => hnext x h call

/-- The answers fit, and the markers are those of the emissions. -/
structure Sound (x : Emissions) : Prop where
  fit : Answered.AllFit x.log
  tracks : Markers.Tracks (Answered.emissions x.log) x.packet.markers

theorem Sound.fresh (domain : Option Domain) : Sound ⟨[], .fresh domain⟩ where
  fit before a after hsplit := by simp at hsplit
  tracks := by cases domain <;> exact .initial

theorem Sound.next {x : Emissions} (h : x.Sound) (call : World 𝕊 ε × Request) :
    (x.next call).Sound := by
  obtain ⟨hfits, htracks⟩ := World.emit_tracks h.tracks call.1 call.2
  exact ⟨h.fit.concat hfits, htracks⟩

theorem Sound.run (domain : Option Domain) (calls : List (World 𝕊 ε × Request)) :
    (Emissions.run (.fresh domain) calls).Sound :=
  run_induction (.fresh domain) (fun _ => Sound.next) calls

end Emissions

/-! ## Lifecycles -/

/-- A kind of event that is admissible only once has been emitted at most once. -/
theorem count_reason_le_one {es : List Request} {item : Item}
    (honce : ∀ before q after, es = before ++ q :: after → q.item = item →
      ∀ r ∈ before, r.item ≠ item) : (es.map (·.item.reason)).count item.reason ≤ 1 := by
  induction es with
  | nil => simp
  | cons q es ih =>
    rw [List.map_cons, List.count_cons]
    split
    case isTrue hsame =>
      have hitem : q.item = item := Item.reason_injective (eq_of_beq hsame)
      have habsent : item.reason ∉ es.map (·.item.reason) := by
        intro hmem
        obtain ⟨r, hr, hreason⟩ := List.mem_map.1 hmem
        obtain ⟨before, after, rfl⟩ := List.append_of_mem hr
        exact honce (q :: before) r after rfl (Item.reason_injective hreason) q
          List.mem_cons_self hitem
      have hnone := List.count_eq_zero.2 habsent
      omega
    case isFalse =>
      refine ih fun before r after hsplit hitem s hs => ?_
      exact honce (q :: before) r after (congrArg (q :: ·) hsplit) hitem s
        (List.mem_cons_of_mem _ hs)

/-- A kind of event that is admissible only after another is preceded by the other. -/
theorem reason_mem_of_split {es : List Request} {item other : Item}
    (hafter : ∀ before q after, es = before ++ q :: after → q.item = item →
      ∃ r ∈ before, r.item = other) {before after : List String}
    (hsplit : es.map (·.item.reason) = before ++ item.reason :: after) :
    other.reason ∈ before := by
  obtain ⟨earlier, later, rfl, rfl, hlater⟩ := List.map_eq_append_iff.1 hsplit
  obtain ⟨q, rest, rfl, hreason, -⟩ := List.map_eq_cons_iff.1 hlater
  obtain ⟨r, hr, hitem⟩ := hafter earlier q rest rfl (Item.reason_injective hreason)
  exact List.mem_map.2 ⟨r, hr, congrArg Item.reason hitem⟩

/-- The lifecycle that a log of answers and the markers left by it tell. -/
structure Lifecycle (log : List Answered) (m : Markers) : Prop where
  /-- The history lists the reasons of what has been emitted. -/
  history : m.history = (Answered.emissions log).map (·.item.reason)
  /-- A marker is on record if an event of its kind has been emitted. -/
  markers : ∀ k, m.has k = true ↔ k.item.reason ∈ m.history
  /-- An attempt starts, completes and is aborted once. -/
  once : ∀ item ∈ [Item.processingStarting, .processingCompleted, .processingAborted],
    m.history.count item.reason ≤ 1
  /-- It starts before it completes. -/
  started : ∀ before after, m.history = before ++ Item.processingCompleted.reason :: after →
    Item.processingStarting.reason ∈ before
  /-- It fails before it is aborted. -/
  failed : ∀ before after, m.history = before ++ Item.processingAborted.reason :: after →
    Item.processingFailed.reason ∈ before
  /-- A failure is suppressed if it is the same as the latest one. -/
  suppressed : ∀ before a after prepared, log = before ++ a :: after →
    a.request.item = .processingFailed → a.answer = .ok prepared →
    ((∃ rule, prepared = .suppressed rule) ↔
      latestFailure (Answered.emissions before) = some a.request.failureMarker)
  /-- Two failures in a row are not the same. -/
  changed : ∀ before q between r after,
    Answered.emissions log = before ++ q :: (between ++ r :: after) →
    q.item = .processingFailed → r.item = .processingFailed →
    (∀ s ∈ between, s.item ≠ .processingFailed) → q.failureMarker ≠ r.failureMarker
  /-- The failure on record is the latest one. -/
  failure : m.failure = latestFailure (Answered.emissions log)

/-- Answers that fit, and markers that are those of the emissions, tell a lifecycle. -/
theorem Emissions.Sound.lifecycle {x : Emissions} (h : x.Sound) :
    Lifecycle x.log x.packet.markers where
  history := h.tracks.history
  markers k := by
    rw [h.tracks.has, h.tracks.history]
    constructor
    · rintro ⟨r, hr, hitem⟩
      exact List.mem_map.2 ⟨r, hr, congrArg Item.reason hitem⟩
    · intro hmem
      obtain ⟨r, hr, hreason⟩ := List.mem_map.1 hmem
      exact ⟨r, hr, Item.reason_injective hreason⟩
  once item hitem := by
    rw [h.tracks.history]
    refine count_reason_le_one fun before q after hsplit hkind => ?_
    have hrule := h.fit.admissible hsplit
    subst hkind
    simp only [List.mem_cons, List.not_mem_nil, or_false] at hitem
    unfold Request.Admissible at hrule
    rcases hitem with hitem | hitem | hitem <;> rw [hitem] at hrule ⊢
    · exact hrule
    · exact hrule.2
    · exact hrule.2
  started _ _ := by
    rw [h.tracks.history]
    refine reason_mem_of_split fun before q after hsplit hkind => ?_
    have hrule := h.fit.admissible hsplit
    rw [Request.Admissible, hkind] at hrule
    exact hrule.1
  failed _ _ := by
    rw [h.tracks.history]
    refine reason_mem_of_split fun before q after hsplit hkind => ?_
    have hrule := h.fit.admissible hsplit
    rw [Request.Admissible, hkind] at hrule
    exact hrule.1
  suppressed before a after prepared hsplit hkind hanswer := by
    have hrule := h.fit before a after hsplit prepared hanswer
    rw [Request.Admissible, hkind] at hrule
    cases prepared with
    | record record =>
      have hdifferent := hrule.1 ⟨record, rfl⟩
      exact ⟨fun ⟨_, hrule⟩ => (nomatch hrule), fun hsame => (hdifferent hsame).elim⟩
    | suppressed rule =>
      refine ⟨fun _ => Classical.not_not.1 fun hdifferent => ?_, fun _ => ⟨rule, rfl⟩⟩
      obtain ⟨record, hrecord⟩ := hrule.2 hdifferent
      cases hrecord
  changed before q between r after hsplit hq hr hbetween hsame := by
    have hlonger : Answered.emissions x.log = ((before ++ [q]) ++ between) ++ r :: after := by
      simpa using hsplit
    have hrule := h.fit.admissible hlonger
    rw [Request.Admissible, hr] at hrule
    -- What lies between does not touch the latest failure, which is that of `q`.
    refine hrule ?_
    rw [latestFailure_append hbetween, latestFailure_concat, if_pos hq, hsame]
  failure := h.tracks.failure

/-- Any sequence of emissions on a new packet tells a lifecycle. -/
theorem lifecycle_run (domain : Option Domain) (calls : List (World 𝕊 ε × Request)) :
    Lifecycle (Emissions.run (.fresh domain) calls).log
      (Emissions.run (.fresh domain) calls).packet.markers :=
  (Emissions.Sound.run domain calls).lifecycle

end Reconcile
