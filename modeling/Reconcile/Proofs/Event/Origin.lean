import Reconcile.Proofs.Event.Bookkeeping
import Reconcile.Proofs.Event.Targets

/-!
# Where a record comes from

Nothing but emissions hands records over, so every record that the sink has seen comes from a call
(`Utters.handed`), and what it says can be compared with that call: with the request, the packet and
the identity of the operator at that moment, whatever has changed before and since.

A record says who the operator was.  What it points at is said in several places: in the reference
to the object, in the label, in the namespace and in the message.  All of them are filled from one
target, and there are three ways to it.  An event about a domain points at the domain of the packet,
and is then the same record for any overrides, or else at the domain that the overrides name.  An
event about a namespace points at what the overrides name, for any domain of the packet, and
mentions no domain (`Emission.Truthful`).
-/

namespace Reconcile

variable {𝕊 ε : Type}

/-! ## What a record says -/

/-- The record names the operator that has this identity, and stands beside the object it is
about. -/
structure Record.SignedBy (r : Record) (i : Identity) : Prop where
  ns : r.ns = r.object.ns
  created : r.labels.lookup createdByOperatorLabel = some "true"
  instanceName : i.pod = some r.instanceName ∧ r.instanceName ≠ ""
  operatorNamespace : i.ns = some r.operatorNamespace ∧ r.operatorNamespace ≠ ""

namespace Request

theorem lookup_createdByOperatorLabel (uid : Option String) :
    (labels uid).lookup createdByOperatorLabel = some "true" := by
  rw [labels, List.lookup_cons_self]

theorem lookup_domainUidLabel (uid : Option String) :
    (labels uid).lookup domainUidLabel = uid := by
  have hother : (domainUidLabel == createdByOperatorLabel) = false := by decide
  cases uid with
  | none => simp [labels, List.lookup_cons, hother]
  | some uid => simp [labels, List.lookup_cons, hother]

variable {q : Request} {p : Packet} {i : Identity}

/-- The overrides of a request do not matter for an event about the domain of the packet. -/
theorem prepare_overrides {d : Domain} (hscope : q.item.scope = .domain)
    (hdomain : p.domain = some d) (ns resourceName : Option String) :
    { q with ns := ns, resourceName := resourceName }.prepare p i = q.prepare p i := by
  have htarget : { q with ns := ns, resourceName := resourceName }.target p.domain =
      q.target p.domain := by
    rw [target_of_domain hdomain hscope]
    exact target_of_domain hdomain hscope
  unfold prepare
  rw [htarget]
  rfl

/-- The domain of the packet does not matter for an event about a namespace. -/
theorem prepare_domain (hscope : q.item.scope = .watch) (domain : Option Domain) :
    q.prepare { p with domain := domain } i = q.prepare p i := by
  have htarget : q.target domain = q.target p.domain := by
    simp only [target, hscope]
  unfold prepare
  simp only [htarget]

end Request

/-! ## One emission -/

namespace Emission

/-- The record is about an object, has the label for this domain, if any, and its message is about
this resource, with the text that the rules have left to it. -/
structure PointsAt (e : Emission 𝕊 ε) (r : Record) (resource : String) (object : ObjectRef)
    (uid : Option String) : Prop where
  object : r.object = object
  label : r.labels.lookup domainUidLabel = uid
  message : ∃ text, e.request.decision e.packet.markers = .emit text ∧
    r.message = e.request.item.message resource text

/-- Whether the request is refused for what it says. -/
def IsInvalid (e : Emission 𝕊 ε) : Prop := ∃ message, e.answer = .error (.invalid message)

variable {e : Emission 𝕊 ε} {r : Record}

theorem isInvalid_iff : e.IsInvalid ↔ ∀ t, e.request.target e.packet.domain ≠ .ok t := by
  rw [IsInvalid, answer_eq, Request.prepare_invalid_iff]

theorem signedBy_of_record? (h : e.record? = some r) : r.SignedBy e.world.identity := by
  cases Request.preparation_of_eq (prepare_of_record? h) with
  | @emitted target text j htarget _ hidentity =>
    obtain ⟨hns, hpod⟩ := Identity.resolve_eq_ok_iff.1 hidentity
    exact ⟨Request.ns_of_target htarget, Request.lookup_createdByOperatorLabel _, hpod, hns⟩

/-- All places of a record are filled from one target. -/
theorem pointsAt_of_record? (h : e.record? = some r) :
    ∃ t, e.request.target e.packet.domain = .ok t ∧
      e.PointsAt r t.resource t.object t.domainUid := by
  cases Request.preparation_of_eq (prepare_of_record? h) with
  | @emitted target text j htarget hdecision =>
    exact ⟨target, htarget, rfl, Request.lookup_domainUidLabel _, text, hdecision, rfl⟩

/-- What the record of an emission says is what the emission was about, and requests that do not say
this are refused. -/
structure Truthful (e : Emission 𝕊 ε) : Prop where
  signed : ∀ r, e.record? = some r → r.SignedBy e.world.identity
  /-- A domain in the packet is what the event is about, and the overrides do not matter. -/
  attempt : e.request.item.scope = .domain → ∀ d, e.packet.domain = some d →
    (∀ r, e.record? = some r →
      e.PointsAt r d.uid ⟨d.apiVersion, d.kind, d.name, d.ns⟩ (some d.uid)) ∧
    ∀ ns resourceName, { e.request with ns := ns, resourceName := resourceName }.prepare
      e.packet e.world.identity = e.answer
  /-- Without one the overrides name the domain, and both are needed. -/
  named : e.request.item.scope = .domain → e.packet.domain = none →
    (∀ r, e.record? = some r → ∃ uid ns,
      e.request.resourceName = some uid ∧ e.request.ns = some ns ∧
      e.PointsAt r uid ⟨domainApiVersion, domainKind, uid, ns⟩ (some uid)) ∧
    (e.IsInvalid ↔ e.request.resourceName = none ∨ e.request.ns = none)
  /-- An event about a namespace mentions no domain, and the one in the packet does not matter. -/
  watch : e.request.item.scope = .watch →
    (∀ r, e.record? = some r → ∃ ns, e.request.ns = some ns ∧
      e.PointsAt r (e.request.resourceName.getD ns)
        ⟨"v1", "Namespace", e.request.resourceName.getD ns, ns⟩ none) ∧
    (∀ domain, e.request.prepare { e.packet with domain := domain } e.world.identity = e.answer) ∧
    (e.IsInvalid ↔ e.request.ns = none)

theorem truthful (e : Emission 𝕊 ε) : e.Truthful where
  signed _ := signedBy_of_record?
  attempt hscope d hdomain := by
    refine ⟨fun r hrecord => ?_, fun ns resourceName => ?_⟩
    · obtain ⟨t, htarget, hpoints⟩ := pointsAt_of_record? hrecord
      obtain rfl := Except.ok.inj ((Request.target_of_domain hdomain hscope).symm.trans htarget)
      exact hpoints
    · rw [answer_eq, Request.prepare_overrides hscope hdomain]
  named hscope hdomain := by
    refine ⟨fun r hrecord => ?_, ?_⟩
    · obtain ⟨t, htarget, hpoints⟩ := pointsAt_of_record? hrecord
      rw [hdomain, Request.target_of_overrides hscope] at htarget
      obtain ⟨uid, ns, huid, hns, rfl⟩ := htarget
      exact ⟨uid, ns, huid, hns, hpoints⟩
    · rw [isInvalid_iff, hdomain]
      simp only [ne_eq, Request.target_of_overrides hscope]
      cases e.request.resourceName <;> cases e.request.ns <;> simp
  watch hscope := by
    refine ⟨fun r hrecord => ?_, fun domain => ?_, ?_⟩
    · obtain ⟨t, htarget, hpoints⟩ := pointsAt_of_record? hrecord
      obtain ⟨ns, hns, rfl⟩ := (Request.target_of_watch hscope _).1 htarget
      exact ⟨ns, hns, hpoints⟩
    · rw [answer_eq, Request.prepare_domain hscope]
    · rw [isInvalid_iff]
      simp only [ne_eq, Request.target_of_watch hscope]
      cases e.request.ns <;> simp

end Emission

/-! ## Emissions one after another -/

namespace Utters

variable {before after : Option Record} {s s' : Packet × World 𝕊 ε} {log : List (Emission 𝕊 ε)}

/-- The records that are handed over are those of the calls, in their order. -/
theorem handed (h : Utters before s log after s') :
    s'.2.outbox.handed ++ after.toList =
      s.2.outbox.handed ++ before.toList ++ log.filterMap Emission.record? := by
  induction h with
  | silent hsame => simp [hsame.handed]
  | @ask p w q =>
    rw [(w.books_announce q p).1]
    cases hrecord : (Emission.mk q p w).record? <;> simp [hrecord]
  | @hand p w record =>
    rw [(w.books_deliver record).1, Outbox.handed_put]
    simp
  | trans _ _ ih ih' => rw [ih', ih, List.filterMap_append, List.append_assoc _ _ (List.filterMap ..)]

/-- An emission is a call, and its record, if there is one, is handed over at once. -/
theorem emit (w : World 𝕊 ε) (q : Request) (p : Packet) :
    Utters none (p, w) [⟨q, p, w⟩] none (w.emit q p).2 := by
  rcases hannounce : w.announce q p with ⟨answer, p', w'⟩
  rw [World.emit, hannounce]
  have hask := of_announce hannounce
  rcases answer with fault | (record | rule)
  · exact hask
  · exact hask.trans (.hand record)
  · exact hask

/-- The calls of some emissions and the world after them.  Before each of them the identity of the
operator may have changed. -/
def all (w : World 𝕊 ε) : List (Identity × Request × Packet) → List (Emission 𝕊 ε) × World 𝕊 ε
  | [] => ([], w)
  | (i, q, p) :: calls =>
    let now := { w with identity := i }
    let (log, w') := all (now.emit q p).2.2 calls
    (⟨q, p, now⟩ :: log, w')

/-- Any emissions, one after another, are something that somebody may utter. -/
theorem of_all (calls : List (Identity × Request × Packet)) (p p' : Packet) (w : World 𝕊 ε) :
    Utters none (p, w) (all w calls).1 none (p', (all w calls).2) := by
  induction calls generalizing p w with
  | nil => exact .silent (.refl w)
  | cons call calls ih =>
    obtain ⟨i, q, packet⟩ := call
    have hchanged : Utters none (p, w) [] none (packet, { w with identity := i }) :=
      .silent (.of_eq rfl rfl)
    exact (hchanged.trans (.emit _ q packet)).trans (ih ..)

/-- What the sink is given by some emissions, one after another, are their records in this order,
and what each of them says is what its emission was about. -/
theorem records_truthful (h : Utters none s log none s') :
    s'.2.outbox.handed = s.2.outbox.handed ++ log.filterMap Emission.record? ∧
      ∀ e ∈ log, e.Truthful := by
  have hhanded := h.handed
  simp only [Option.toList_none, List.append_nil] at hhanded
  exact ⟨hhanded, fun e _ => e.truthful⟩

end Utters

/-! ### An operator that moves -/

namespace Removal

/-- The operator does not know who it is yet. -/
def world : World Rat Unit := .started ⟨none, none⟩ fun _ => false

/-- A domain whose object is not named after its uid. -/
def domain : Domain := ⟨"uid", "object", "ns", domainApiVersion, domainKind⟩

def starting : Request :=
  ((Request.of .processingStarting).withNamespace "elsewhere").withResourceName "other"

/-- Overrides are given for an attempt on a domain, for a domain without an attempt, and once only
in part.  A watch is reported by an attempt on a domain. -/
def calls : List (Identity × Request × Packet) :=
  [(⟨some "ops", some ""⟩, starting, .forDomain domain),
    (⟨some "ops", some "keel-0"⟩, starting, .forDomain domain),
    (⟨some "new", some "keel-0"⟩, { starting with item := .resourceCreated }, .empty),
    (⟨some "new", some "keel-0"⟩, (Request.of .resourceDeleted).withResourceName "other", .empty),
    (⟨some "new", some "keel-1"⟩, (Request.of .namespaceWatchingStarted).withNamespace "watched",
      .forDomain domain)]

/-- Three records are handed over. -/
theorem records_removed :
    (Utters.all world calls).2.outbox.handed =
        (Utters.all world calls).1.filterMap Emission.record? ∧
      (∀ e ∈ (Utters.all world calls).1, e.Truthful) ∧
      (Utters.all world calls).2.outbox.handed.map (fun r =>
        (r.ns, r.object.name, r.labels.lookup domainUidLabel, r.operatorNamespace,
          r.instanceName)) =
        [("ns", "object", some "uid", "ops", "keel-0"),
          ("elsewhere", "other", some "other", "new", "keel-0"),
          ("watched", "watched", none, "new", "keel-1")] := by
  obtain ⟨hhanded, htruthful⟩ :=
    Utters.records_truthful (Utters.of_all calls Packet.empty Packet.empty world)
  exact ⟨hhanded, htruthful, by decide +kernel⟩

end Removal

end Reconcile
