import Reconcile.Proofs.Cluster.Archive
import Reconcile.Proofs.Event.Targets
import Reconcile.Proofs.Sink.Contents

/-!
# The store in memory and the cluster

The same records are put into the store in memory and, one after another, into a cluster that
serves every call.  Both hold the same event names, and of every name they tell the same count,
object, reason and message (`StoredEvent.Agrees`).

They do not tell the same origin.  The store replaces the whole record, so an entry has the
labels, the reporting instance and the operator's namespace of its latest record; a patch names
none of them, so the event in the cluster has those of its first record.  The two agree exactly if
these are the same (`Record.SharesOrigin`).
-/

namespace Reconcile

/-! ## Records of requests -/

namespace Record

/-- The record is what some request has been turned into. -/
def IsBuilt (r : Record) : Prop :=
  ∃ (q : Request) (p : Packet) (i : Identity), q.prepare p i = .ok (.record r)

/-- An event is kept in the namespace of its object, and the operator reports it. -/
theorem IsBuilt.origin {r : Record} (h : r.IsBuilt) :
    r.ns = r.object.ns ∧ r.component = operatorComponent := by
  obtain ⟨q, p, i, hprepare⟩ := h
  cases Request.preparation_of_eq hprepare with
  | emitted htarget => exact ⟨Request.ns_of_target htarget, rfl⟩

/-- The records come from the same operator and have the same labels. -/
structure SharesOrigin (r r' : Record) : Prop where
  labels : r.labels = r'.labels
  instanceName : r.instanceName = r'.instanceName
  operatorNamespace : r.operatorNamespace = r'.operatorNamespace

end Record

/-- The records can be told by their event names. -/
structure Nameable (rs : List Record) : Prop where
  built : ∀ r ∈ rs, r.IsBuilt
  plain : ∀ r ∈ rs, r.IsPlain
  distinct : Digest.Distinguishes (rs.map (·.mergeKey))

namespace Nameable

variable {rs : List Record} {r r' : Record}

theorem item (h : Nameable rs) (hr : r ∈ rs) (hr' : r' ∈ rs) (hname : r.eventName = r'.eventName) :
    r.item = r'.item :=
  Record.item_of_mergeKey (Record.unmistaken_of_distinguishes h.distinct r hr r' hr' hname)

theorem object (h : Nameable rs) (hr : r ∈ rs) (hr' : r' ∈ rs)
    (hname : r.eventName = r'.eventName) : r.object = r'.object :=
  Record.object_of_eventName hname
    (Record.unmistaken_of_distinguishes h.distinct r hr r' hr' hname) (h.plain r hr)
    (h.plain r' hr')

theorem ns (h : Nameable rs) (hr : r ∈ rs) (hr' : r' ∈ rs) (hname : r.eventName = r'.eventName) :
    r.ns = r'.ns := by
  rw [(h.built r hr).origin.1, (h.built r' hr').origin.1, h.object hr hr' hname]

theorem component (h : Nameable rs) (hr : r ∈ rs) (hr' : r' ∈ rs) : r.component = r'.component :=
  (h.built r hr).origin.2.trans (h.built r' hr').origin.2.symm

/-- The records of a name belong to one place. -/
theorem recordsAt_eq (h : Nameable rs) (hr : r ∈ rs) :
    Cluster.recordsAt rs (Cluster.placeOf r) = rs.filter (·.eventName = r.eventName) := by
  refine List.filter_congr fun r' hr' => decide_eq_decide.2 ⟨fun hplace => ?_, fun hname => ?_⟩
  · exact congrArg Prod.snd hplace
  · exact Prod.ext (h.ns hr' hr hname) hname

end Nameable

/-! ## Agreement -/

/-- An entry and an event in the cluster tell the same, apart from where it comes from. -/
structure StoredEvent.Agrees (e : StoredEvent) (o : Cluster.EventObject) : Prop where
  name : o.name = e.name
  count : o.count = e.count
  reason : o.reason = e.record.reason
  ns : o.ns = e.record.ns
  object : o.object = e.record.object
  severity : o.severity = e.record.item.severity
  message : o.message = e.record.message
  component : o.component = e.record.component

/-- An event in the cluster has the labels of a record and comes from the same operator. -/
structure Cluster.EventObject.ComesWith (o : Cluster.EventObject) (r : Record) : Prop where
  labels : o.labels = r.labels
  instanceName : o.instanceName = r.instanceName
  annotations : o.annotations = [(operatorNamespaceKey, r.operatorNamespace)]

theorem Cluster.EventObject.IsOf.comesWith_iff {o : Cluster.EventObject} {first r : Record}
    (h : o.IsOf first) : o.ComesWith r ↔ first.SharesOrigin r := by
  constructor
  · rintro ⟨hlabels, hinstance, hannotations⟩
    rw [h.annotations] at hannotations
    have hsame : first.operatorNamespace = r.operatorNamespace := by simpa using hannotations
    exact ⟨h.labels.symm.trans hlabels, h.instanceName.symm.trans hinstance, hsame⟩
  · rintro ⟨hlabels, hinstance, hoperator⟩
    exact ⟨h.labels.trans hlabels, h.instanceName.trans hinstance, hoperator ▸ h.annotations⟩

/-- The first record with an event name. -/
def first? (rs : List Record) (name : String) : Option Record :=
  (rs.filter (·.eventName = name)).head?

namespace EventStore

section

variable {𝕊 σ : Type} [Retry.Seconds 𝕊] {v : σ → Cluster.Place → Option Cluster.Filed}
  {api : Cluster.Api σ} {now : σ → Int} {clock : Retry.Clock 𝕊 σ} {sleep : Nat → σ → σ}
  {policy : Retry.Policy 𝕊} {rs : List Record} {s : σ} {e : StoredEvent}

/-- The entry of a name agrees with the event of the name in the cluster. -/
theorem agrees_of_accounts (hnameable : Nameable rs) (htallies : Tallies (putAll .empty rs) rs)
    (he : e ∈ (putAll .empty rs).entries)
    {filed : Option Cluster.Filed}
    (haccounts : Cluster.Accounts (Cluster.recordsAt rs (e.record.ns, e.name)) filed) :
    ∃ f first, filed = some f ∧ first? rs e.name = some first ∧ e.Agrees f.event ∧
      f.event.IsOf first := by
  have hlatest := htallies.record e he
  obtain ⟨hmem, hname⟩ := mem_of_latest? hlatest
  have hrecords : Cluster.recordsAt rs (e.record.ns, e.name) = rs.filter (·.eventName = e.name) :=
    hname ▸ hnameable.recordsAt_eq hmem
  rw [hrecords] at haccounts
  cases filed with
  | none =>
    have hown : e.record ∈ rs.filter (·.eventName = e.name) :=
      List.mem_filter.2 ⟨hmem, decide_eq_true hname⟩
    rw [show rs.filter (·.eventName = e.name) = [] from haccounts] at hown
    cases hown
  | some f =>
    obtain ⟨hcount, ⟨first, hfirst, hof⟩, latest, hlast, hmessage⟩ := haccounts
    obtain rfl : latest = e.record := Option.some.inj (hlast.symm.trans hlatest)
    obtain ⟨hmem', hname'⟩ := List.mem_filter.1 (List.mem_of_head? hfirst)
    have hsame : first.eventName = e.record.eventName :=
      (of_decide_eq_true hname').trans hname.symm
    have hitem : first.item = e.record.item := hnameable.item hmem' hmem hsame
    refine ⟨f, first, rfl, hfirst, ?_, hof⟩
    exact {
      name := (hof.name.trans hsame).trans hname
      count := by rw [hcount, htallies.count_eq he, List.countP_eq_length_filter]
      reason := hof.reason.trans (congrArg Item.reason hitem)
      ns := hof.ns.trans (hnameable.ns hmem' hmem hsame)
      object := hof.object.trans (hnameable.object hmem' hmem hsame)
      severity := hof.severity.trans (congrArg Item.severity hitem)
      message := hmessage
      component := hof.component.trans (hnameable.component hmem' hmem) }

theorem entries_putAll_pair {r r' : Record} (hname : r'.eventName = r.eventName) :
    (putAll .empty [r, r']).entries = [⟨r.eventName, r', 2⟩] := by
  simp [putAll, put, empty, merge, hname]

/-- When records are put one after another into a cluster that serves every call, each of them is
stored, and in the end the cluster has exactly one event for each entry that the store in memory
has for these records.  An entry and its event agree on all but their origin, and on that they
agree exactly if the first and the latest record of the name share it. -/
theorem agrees_of_deposits (hserves : Cluster.Serves v api)
    (hdeposits : Cluster.Deposits v api now clock sleep policy rs s) (hnameable : Nameable rs)
    (haddressable : ∀ r ∈ rs, Cluster.IsAddressable r) (hfew : rs.length < Number.twoTo 31) :
    (∀ place, (v s place).isSome ↔
      ∃ e ∈ (putAll .empty rs).entries, (e.record.ns, e.name) = place) ∧
    (∀ e ∈ (putAll .empty rs).entries, ∃ f first,
      v s (e.record.ns, e.name) = some f ∧ first? rs e.name = some first ∧ e.Agrees f.event ∧
        (f.event.ComesWith e.record ↔ first.SharesOrigin e.record)) ∧
    ∀ r fuel, Cluster.IsAddressable r → 2 ≤ fuel → rs.length + 1 < Number.twoTo 31 →
      (Cluster.deposit api now clock sleep policy fuel r s).1.result? = some (.ok ()) := by
  have haccounts := hdeposits.accounts hserves haddressable hfew
  have htallies : Tallies (putAll .empty rs) rs := Tallies.empty.putAll rs
  refine ⟨fun place => ⟨fun hsome => ?_, ?_⟩, fun e he => ?_, fun r fuel hr hfuel hroom => ?_⟩
  · -- A record belongs to the place, and its name has an entry.
    obtain ⟨f, hevent⟩ := Option.isSome_iff_exists.1 hsome
    have hplace := haccounts place
    rw [hevent] at hplace
    obtain ⟨-, ⟨r, hr, -⟩, -⟩ := hplace
    obtain ⟨hmem, hat⟩ := List.mem_filter.1 (List.mem_of_head? hr)
    have hentry : r.eventName ∈ (putAll .empty rs).entries.map (·.name) := by
      rw [htallies.names]
      exact mem_firstNames.2 ⟨r, hmem, rfl⟩
    obtain ⟨e, he, hname⟩ := List.mem_map.1 hentry
    obtain ⟨hmem', hname'⟩ := mem_of_latest? (htallies.record e he)
    have hsame : e.record.eventName = r.eventName := hname'.trans hname
    refine ⟨e, he, Eq.trans ?_ (of_decide_eq_true hat)⟩
    exact Prod.ext (hnameable.ns hmem' hmem hsame) hname
  · rintro ⟨e, he, rfl⟩
    obtain ⟨f, -, hevent, -⟩ := agrees_of_accounts hnameable htallies he (haccounts _)
    rw [hevent]
    rfl
  · obtain ⟨f, first, hevent, hfirst, hagrees, hof⟩ :=
      agrees_of_accounts hnameable htallies he (haccounts _)
    exact ⟨f, first, hevent, hfirst, hagrees, hof.comesWith_iff⟩
  · have hlength : (Cluster.recordsAt rs (Cluster.placeOf r)).length ≤ rs.length :=
      List.length_filter_le ..
    obtain ⟨s', f, hdeposit, -⟩ := Cluster.deposit_spec now clock sleep policy hserves hr hfuel
      (haccounts (Cluster.placeOf r)) (by omega)
    rw [hdeposit]
    rfl

end

end EventStore

/-! ### A report repeated by another instance -/

/-- A cluster that numbers its versions. -/
structure Cabinet where
  events : Cluster.Place → Option Cluster.Filed
  next : Nat

namespace Cabinet

open Cluster

/-- A cluster without events. -/
def empty : Cabinet := ⟨fun _ => none, 0⟩

/-- Writes an event. -/
def write (s : Cabinet) (place : Place) (event : EventObject) : Cabinet :=
  ⟨Function.update s.events place (some ⟨"".pushn 'v' s.next, event⟩), s.next + 1⟩

/-- The refusal of a call. -/
def refusal (reason : String) (code : Nat) : ApiFault := .refused ⟨"Failure", reason, reason, code⟩

/-- An interface that serves every call. -/
def api : Api Cabinet
  | .read ns name, s =>
    match s.events (ns, name) with
    | some f => (.ok ⟨some f.version, some f.event.count⟩, s)
    | none => (.error (refusal "NotFound" 404), s)
  | .create event, s =>
    match s.events (event.ns, event.name) with
    | some _ => (.error (refusal "AlreadyExists" 409), s)
    | none => (.ok ⟨none, none⟩, s.write (event.ns, event.name) event)
  | .patch ns name change, s =>
    match s.events (ns, name) with
    | some f =>
      if change.version.all (· = f.version) then
        (.ok ⟨none, none⟩, s.write (ns, name) (f.event.amend change))
      else (.error (refusal "Conflict" 409), s)
    | none => (.error (refusal "NotFound" 404), s)

theorem serves : Serves events api where
  absent hevent := ⟨refusal "NotFound" 404, _, by simp only [api, hevent], rfl, rfl⟩
  read hevent := ⟨_, by simp only [api, hevent], rfl⟩
  create _ _ hevent := ⟨⟨none, none⟩, _, _, by simp only [api, hevent]; rfl, rfl⟩
  patch change hevent hversion :=
    ⟨⟨none, none⟩, _, _, by simp [api, hevent, hversion]; rfl, rfl⟩

/-- Time that stands still, without chance. -/
def clock : Retry.Clock Rat Cabinet := ⟨fun _ => 0, fun s => (1, s)⟩

/-- A policy without retries. -/
def policy : Retry.Policy Rat := ⟨0, .zero, .zero, 1⟩

/-- The report of a failure by one of the operator's pods. -/
def report (text pod : String) : Record :=
  ((Request.of .processingFailed).withMessage text).toRecord (Domain.named "uid1" "ns1").target
    (some text) ⟨"ops", pod⟩

theorem isBuilt_report (text : String) {pod : String} (hpod : pod ≠ "") :
    (report text pod).IsBuilt := by
  refine ⟨(Request.of .processingFailed).withMessage text, .forDomain (.named "uid1" "ns1"),
    ⟨some "ops", some pod⟩, ?_⟩
  have hns : "ops" ≠ "" := by decide
  have hidentity : (Identity.mk (some "ops") (some pod)).resolve = .ok ⟨"ops", pod⟩ :=
    Identity.resolve_eq_ok_iff.2 ⟨⟨rfl, hns⟩, rfl, hpod⟩
  rw [Request.prepare, hidentity]
  rfl

theorem object_report (text pod : String) :
    (report text pod).object = ⟨domainApiVersion, domainKind, "uid1", "ns1"⟩ := rfl

theorem isPlain_report (text pod : String) : (report text pod).IsPlain := by
  rw [Record.IsPlain, object_report]
  decide

theorem mergeKey_report (text pod : String) :
    (report text pod).mergeKey = (report "" "").mergeKey := by
  have hreason (text pod : String) :
      (report text pod).reason = Item.processingFailed.reason := rfl
  rw [Record.mergeKey, Record.mergeKey, object_report, object_report, hreason text, hreason ""]

theorem eventName_report (text pod : String) :
    (report text pod).eventName = (report "" "").eventName := by
  rw [Record.eventName, Record.eventName, mergeKey_report text, object_report, object_report]

theorem placeOf_report (text pod : String) :
    placeOf (report text pod) = ("ns1", (report "" "").eventName) :=
  Prod.ext rfl (eventName_report text pod)

theorem isAddressable_report (text pod : String) : IsAddressable (report text pod) := by
  have haddresses : (Call.read "ns1" (report "" "").eventName).address?.isSome ∧
      (Call.patch "ns1" (report "" "").eventName ⟨none, 0, "", 0⟩).address?.isSome ∧
      (Call.create (.ofRecord (report "" "") "" 0)).address?.isSome := by
    decide +kernel
  intro call hcall
  rw [placeOf_report] at hcall
  cases call with
  | read ns name =>
    obtain ⟨rfl, rfl⟩ := Prod.mk.inj hcall
    exact haddresses.1
  | patch ns name change =>
    obtain ⟨rfl, rfl⟩ := Prod.mk.inj hcall
    exact haddresses.2.1
  | create event =>
    have hns : event.ns = "ns1" := (Prod.mk.inj hcall).1
    rw [Call.address?, Call.addressText, hns]
    exact haddresses.2.2

/-- Two reports with different texts, of which the first comes from a certain pod. -/
def reports (pod : String) : List Record := [report "first" "keel-0", report "second" pod]

theorem nameable_reports {pod : String} (hpod : pod ≠ "") : Nameable (reports pod) where
  built r hr := by
    rcases List.mem_pair.1 hr with rfl | rfl
    · exact isBuilt_report _ (by decide)
    · exact isBuilt_report _ hpod
  plain r hr := by
    rcases List.mem_pair.1 hr with rfl | rfl <;> exact isPlain_report _ _
  distinct k hk k' hk' _ := by
    simp only [reports, List.map_cons, List.map_nil, List.mem_pair, mergeKey_report "first",
      mergeKey_report "second", or_self] at hk hk'
    rw [hk, hk']

theorem entries_reports (pod : String) : (EventStore.putAll .empty (reports pod)).entries =
    [⟨(report "" "").eventName, report "second" pod, 2⟩] := by
  have hname : (report "second" pod).eventName = (report "first" "keel-0").eventName :=
    (eventName_report _ _).trans (eventName_report _ _).symm
  rw [reports, EventStore.entries_putAll_pair hname, eventName_report "first"]

theorem exists_deposits (pod : String) :
    ∃ s, Deposits events api (fun _ => 0) clock (fun _ s => s) policy (reports pod) s := by
  have hempty : Deposits events api (fun _ => 0) clock (fun _ s => s) policy [] empty :=
    .initial rfl
  exact ⟨_, (hempty.put (report "first" "keel-0") 2 (le_refl 2)).put (report "second" pod) 2
    (le_refl 2)⟩

theorem isAddressable_reports (pod : String) : ∀ r ∈ reports pod, IsAddressable r := by
  intro r hr
  rcases List.mem_pair.1 hr with rfl | rfl <;> exact isAddressable_report _ _

/-- Reports by one pod are merged alike. -/
theorem reports_agree :
    ∃ s e f, Deposits events api (fun _ => 0) clock (fun _ s => s) policy (reports "keel-0") s ∧
      (EventStore.putAll .empty (reports "keel-0")).entries = [e] ∧ e.count = 2 ∧
      s.events (e.record.ns, e.name) = some f ∧ e.Agrees f.event ∧
      f.event.ComesWith e.record := by
  obtain ⟨s, hdeposits⟩ := exists_deposits "keel-0"
  obtain ⟨-, hagree, -⟩ := EventStore.agrees_of_deposits serves hdeposits
    (nameable_reports (by decide)) (isAddressable_reports "keel-0") (by decide)
  have hentries := entries_reports "keel-0"
  obtain ⟨f, first, hevent, hfirst, hagrees, horigin⟩ :=
    hagree _ (hentries ▸ List.mem_singleton_self _)
  refine ⟨s, _, f, hdeposits, hentries, rfl, hevent, hagrees, horigin.2 ?_⟩
  have hmem : first ∈ reports "keel-0" := (List.mem_filter.1 (List.mem_of_head? hfirst)).1
  rcases List.mem_pair.1 hmem with rfl | rfl <;> exact ⟨rfl, rfl, rfl⟩

/-- When another pod repeats a report, the entry in memory comes from that pod, and the event in
the cluster from the first one. -/
theorem reports_disagree :
    ∃ s e f, Deposits events api (fun _ => 0) clock (fun _ s => s) policy (reports "keel-1") s ∧
      (EventStore.putAll .empty (reports "keel-1")).entries = [e] ∧
      s.events (e.record.ns, e.name) = some f ∧ e.record.instanceName = "keel-1" ∧
      f.event.instanceName = "keel-0" ∧ f.event.instanceName ≠ e.record.instanceName := by
  obtain ⟨s, hdeposits⟩ := exists_deposits "keel-1"
  have haccounts := hdeposits.accounts serves (isAddressable_reports "keel-1") (by decide)
    ("ns1", (report "" "").eventName)
  have hrecords : recordsAt (reports "keel-1") ("ns1", (report "" "").eventName) =
      reports "keel-1" := by
    simp [recordsAt, reports, placeOf_report "first", placeOf_report "second"]
  rw [hrecords] at haccounts
  cases hevent : s.events ("ns1", (report "" "").eventName) with
  | none => simp [hevent, Accounts, reports] at haccounts
  | some f =>
    rw [hevent] at haccounts
    obtain ⟨-, ⟨first, hfirst, hof⟩, -⟩ := haccounts
    obtain rfl : report "first" "keel-0" = first := Option.some.inj hfirst
    have hinstance : f.event.instanceName = "keel-0" := hof.instanceName
    refine ⟨s, _, f, hdeposits, entries_reports "keel-1", hevent, rfl, hinstance, ?_⟩
    rw [hinstance]
    have hdistinct : "keel-0" ≠ "keel-1" := by decide
    exact hdistinct

end Cabinet

end Reconcile
