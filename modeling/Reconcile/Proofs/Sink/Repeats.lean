import Reconcile.Proofs.Sink.Agreement

/-!
# What a sink merges

A sink merges the records that have the same event name.  As long as the digest tells the merge
keys in use apart, these are exactly the records that repeat each other, that is, which give the
same reason for an event on the same object (`Record.Repeats`).  One direction is plain, since a
name is derived from the reason and the object and from nothing else.  The other one reads the key
back, so it takes kinds and namespaces without a slash; API versions and names of objects may have
any number of them.

Hence the store in memory has one entry for each object and reason, which counts all records with
these (`EventStore.MergesRepeats`).  A cluster, which keeps an event in the namespace of its object,
does the same at the place of a record.
-/

namespace Reconcile

namespace Record

variable {rs : List Record} {r r' : Record}

/-- The records give the same reason for an event on the same object. -/
def Repeats (r r' : Record) : Prop := r.reason = r'.reason ∧ r.object = r'.object

instance (r r' : Record) : Decidable (r.Repeats r') := inferInstanceAs (Decidable (_ ∧ _))

theorem Repeats.eventName_eq (h : r.Repeats r') : r.eventName = r'.eventName := by
  obtain ⟨hreason, hobject⟩ := h
  rw [eventName, eventName, mergeKey, mergeKey, hreason, hobject]

/-- Records that are named alike repeat each other. -/
theorem repeats_of_eventName (hplain : ∀ r ∈ rs, r.IsPlain)
    (hids : Digest.Distinguishes (rs.map (·.mergeKey))) (hr : r ∈ rs) (hr' : r' ∈ rs)
    (hname : r.eventName = r'.eventName) : r.Repeats r' := by
  have hkey : r.mergeKey = r'.mergeKey := unmistaken_of_distinguishes hids r hr r' hr' hname
  exact ⟨congrArg Item.reason (item_of_mergeKey hkey),
    object_of_eventName hname hkey (hplain r hr) (hplain r' hr')⟩

theorem eventName_eq_iff_repeats (hplain : ∀ r ∈ rs, r.IsPlain)
    (hids : Digest.Distinguishes (rs.map (·.mergeKey))) (hr : r ∈ rs) (hr' : r' ∈ rs) :
    r.eventName = r'.eventName ↔ r.Repeats r' :=
  ⟨repeats_of_eventName hplain hids hr hr', Repeats.eventName_eq⟩

end Record

/-! ## The store in memory -/

/-- The store has one entry for each object and reason. -/
structure EventStore.MergesRepeats (s : EventStore) (rs : List Record) : Prop where
  /-- The entry of a record counts what repeats the record, and nothing else. -/
  entered : ∀ r ∈ rs, ∃ e ∈ s.entries, r.Repeats e.record ∧
    e.count = rs.countP fun r' => r'.Repeats r
  /-- There are no other entries. -/
  recorded : ∀ e ∈ s.entries, e.record ∈ rs
  distinct : s.entries.Pairwise fun e e' => ¬ e.record.Repeats e'.record

theorem EventStore.Tallies.mergesRepeats {s : EventStore} {rs : List Record} (h : Tallies s rs)
    (hnames : ∀ r ∈ rs, ∀ r' ∈ rs, r.eventName = r'.eventName ↔ r.Repeats r') :
    s.MergesRepeats rs := by
  have hlatest : ∀ e ∈ s.entries, e.record ∈ rs ∧ e.record.eventName = e.name :=
    fun e he => mem_of_latest? (h.record e he)
  refine {
    entered := fun r hr => ?entered
    recorded := fun e he => (hlatest e he).1
    distinct := ?distinct }
  case entered =>
    have hentry : r.eventName ∈ s.entries.map (·.name) := by
      rw [h.names]
      exact mem_firstNames.2 ⟨r, hr, rfl⟩
    obtain ⟨e, he, hname⟩ := List.mem_map.1 hentry
    obtain ⟨hmem, hown⟩ := hlatest e he
    refine ⟨e, he, (hnames r hr _ hmem).1 (hname.symm.trans hown.symm), ?_⟩
    rw [h.count_eq he, hname]
    exact List.countP_congr fun r' hr' => by
      simpa only [decide_eq_true_eq] using hnames r' hr' r hr
  case distinct =>
    have hnodup := h.nodup
    rw [List.Nodup, List.pairwise_map] at hnodup
    refine hnodup.imp_of_mem fun he he' hdifferent hsame => hdifferent ?_
    rw [← (hlatest _ he).2, ← (hlatest _ he').2]
    exact hsame.eventName_eq

/-! ## A cluster -/

theorem Cluster.recordsAt_eq_repeats {rs : List Record} {r : Record}
    (hns : ∀ r ∈ rs, r.ns = r.object.ns)
    (hnames : ∀ r ∈ rs, ∀ r' ∈ rs, r.eventName = r'.eventName ↔ r.Repeats r') (hr : r ∈ rs) :
    recordsAt rs (placeOf r) = rs.filter fun r' => r'.Repeats r := by
  refine List.filter_congr fun r' hr' => decide_eq_decide.2 ⟨fun hplace => ?_, fun hsame => ?_⟩
  · exact (hnames r' hr' r hr).1 (congrArg Prod.snd hplace)
  · have hns : r'.ns = r.ns := by rw [hns r' hr', hns r hr, hsame.2]
    exact Prod.ext hns hsame.eventName_eq

/-! ## Both -/

section

variable {𝕊 σ : Type} [Retry.Seconds 𝕊] {v : σ → Cluster.Place → Option Cluster.Filed}
  {api : Cluster.Api σ} {now : σ → Int} {clock : Retry.Clock 𝕊 σ} {sleep : Nat → σ → σ}
  {policy : Retry.Policy 𝕊} {rs : List Record}

/-- Of any records about objects whose kinds and namespaces have no slash, exactly those have the
same event name that give the same reason for an event on the same object.  So a sink merges these
and no others: the store in memory has one entry for each object and reason, and in a cluster that
serves every call the event at the place of a record is the one that these records make. -/
theorem Record.merged_iff_repeats (hplain : ∀ r ∈ rs, r.IsPlain)
    (hids : Digest.Distinguishes (rs.map (·.mergeKey))) :
    (∀ r ∈ rs, ∀ r' ∈ rs,
      r.eventName = r'.eventName ↔ r.reason = r'.reason ∧ r.object = r'.object) ∧
    (EventStore.putAll .empty rs).MergesRepeats rs ∧
    ∀ s, Cluster.Serves v api → Cluster.Deposits v api now clock sleep policy rs s →
      (∀ r ∈ rs, r.ns = r.object.ns ∧ Cluster.IsAddressable r) → rs.length < Number.twoTo 31 →
      ∀ r ∈ rs, Cluster.Accounts (rs.filter fun r' => r'.Repeats r) (v s (Cluster.placeOf r)) := by
  have hnames : ∀ r ∈ rs, ∀ r' ∈ rs, r.eventName = r'.eventName ↔ r.Repeats r' :=
    fun r hr r' hr' => eventName_eq_iff_repeats hplain hids hr hr'
  refine ⟨hnames, (EventStore.Tallies.empty.putAll rs).mergesRepeats hnames, ?_⟩
  intro s hserves hdeposits hkept hfew r hr
  rw [← Cluster.recordsAt_eq_repeats (fun r hr => (hkept r hr).1) hnames hr]
  exact hdeposits.accounts hserves (fun r hr => (hkept r hr).2) hfew _

end

/-! ### Failures of namesakes -/

namespace Cabinet

open Cluster

/-- The failure of a domain. -/
def failure (version text : String) : Record :=
  ⟨.processingFailed, "ns1", ⟨version, "Domain", "uid1", "ns1"⟩, text, [], operatorComponent,
    "keel-0", "ops"⟩

/-- Two failures of a domain, and in between one of a domain whose version belongs to no group. -/
def failures : List Record :=
  [failure "weblogic.oracle/v8" "first", failure "v8" "first", failure "weblogic.oracle/v8" "second"]

/-- In memory there are two entries for the failures, of which one counts two.  The reports of two
pods, which repeat each other, make one event in a cluster. -/
theorem failures_merged :
    ((failure "weblogic.oracle/v8" "first").eventName =
        (failure "weblogic.oracle/v8" "second").eventName ∧
      (failure "weblogic.oracle/v8" "first").eventName ≠ (failure "v8" "first").eventName) ∧
    (∃ e ∈ (EventStore.putAll .empty failures).entries,
      e.record.object.apiVersion = "weblogic.oracle/v8" ∧ e.count = 2) ∧
    (∃ e ∈ (EventStore.putAll .empty failures).entries,
      e.record.object.apiVersion = "v8" ∧ e.count = 1) ∧
    ∃ s, Deposits events api (fun _ => 0) clock (fun _ s => s) policy (reports "keel-1") s ∧
      Accounts (reports "keel-1") (s.events (placeOf (report "first" "keel-0"))) := by
  have hplain : ∀ r ∈ failures, r.IsPlain := by decide
  have hids : Digest.Distinguishes (failures.map (·.mergeKey)) := by
    have htwo : Digest.Distinguishes ((failures.take 2).map (·.mergeKey)) :=
      .of_nodup (by decide +kernel)
    exact htwo.mono (by decide)
  have hreports : Nameable (reports "keel-1") := nameable_reports (by decide)
  obtain ⟨hnames, hstore, -⟩ := @Record.merged_iff_repeats Rat Cabinet _ events api (fun _ => 0)
    clock (fun _ s => s) policy failures hplain hids
  obtain ⟨s, hdeposits⟩ := exists_deposits "keel-1"
  obtain ⟨-, -, hcluster⟩ := @Record.merged_iff_repeats Rat Cabinet _ events api (fun _ => 0)
    clock (fun _ s => s) policy (reports "keel-1") hreports.plain hreports.distinct
  refine ⟨⟨?_, ?_⟩, ?_, ?_, s, hdeposits, ?_⟩
  · exact (hnames _ (by simp [failures]) _ (by simp [failures])).2 (by decide)
  · exact fun h => absurd ((hnames _ (by simp [failures]) _ (by simp [failures])).1 h) (by decide)
  · obtain ⟨e, he, hsame, hcount⟩ := hstore.entered (failure "weblogic.oracle/v8" "first")
      (by simp [failures])
    exact ⟨e, he, (congrArg ObjectRef.apiVersion hsame.2).symm, hcount⟩
  · obtain ⟨e, he, hsame, hcount⟩ := hstore.entered (failure "v8" "first") (by simp [failures])
    exact ⟨e, he, (congrArg ObjectRef.apiVersion hsame.2).symm, hcount⟩
  · have hkept : ∀ r ∈ reports "keel-1", r.ns = r.object.ns ∧ IsAddressable r :=
      fun r hr => ⟨(hreports.built r hr).origin.1, isAddressable_reports "keel-1" r hr⟩
    exact hcluster s serves hdeposits hkept (by decide) _ List.mem_cons_self

end Cabinet

end Reconcile
