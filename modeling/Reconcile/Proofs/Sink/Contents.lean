import Mathlib.Algebra.GroupWithZero.Nat
import Mathlib.Data.List.DropRight
import Reconcile.Number.Power
import Reconcile.Proofs.Event.Naming

/-!
# What the store in memory holds

A store is given records and cleared now and then.  Only the records since it was cleared last
matter (`recordsSinceClear`), and of these every name has one entry: the entries stand in the
order in which their names came first, and an entry has the latest record of its name and
counts all of them (`EventStore.Tallies`).

What the store says about a kind of event is added up over its entries.  As long as the digest
tells the merge keys apart, all records of an entry are of one kind, so the sums are those of the
records themselves (`EventStore.Merges`).
-/

namespace Reconcile

/-- What can be done to a store. -/
inductive StoreCall
  | put (record : Record)
  | clear

/-- The record that is put, if one is. -/
def StoreCall.record? : StoreCall → Option Record
  | put r => some r
  | clear => none

/-- The records that have been put since the store was cleared last. -/
def recordsSinceClear (calls : List StoreCall) : List Record :=
  (calls.rtakeWhile (·.record?.isSome)).filterMap StoreCall.record?

theorem recordsSinceClear_put (calls : List StoreCall) (r : Record) :
    recordsSinceClear (calls ++ [.put r]) = recordsSinceClear calls ++ [r] := by
  rw [recordsSinceClear, List.rtakeWhile_concat_pos _ _ _ rfl, List.filterMap_append]
  rfl

theorem recordsSinceClear_clear (calls : List StoreCall) :
    recordsSinceClear (calls ++ [.clear]) = [] := by
  rw [recordsSinceClear, List.rtakeWhile_concat_neg _ _ _ (by simp [StoreCall.record?])]
  rfl

/-- Calls that do not clear the store only add records. -/
theorem recordsSinceClear_append {later : List StoreCall} (hkept : ∀ c ∈ later, c ≠ .clear)
    (earlier : List StoreCall) :
    recordsSinceClear (earlier ++ later) =
      recordsSinceClear earlier ++ later.filterMap StoreCall.record? := by
  induction later using List.reverseRecOn with
  | nil => simp
  | append_singleton later call ih =>
    cases call with
    | put r =>
      rw [← List.append_assoc, recordsSinceClear_put,
        ih fun c hc => hkept c (List.mem_append_left _ hc), List.filterMap_append,
        List.append_assoc]
      rfl
    | clear => exact absurd rfl (hkept .clear (by simp))

/-- The event names in the order in which they come first. -/
def firstNames (rs : List Record) : List String := (rs.map (·.eventName)).eraseDups

theorem mem_firstNames {rs : List Record} {name : String} :
    name ∈ firstNames rs ↔ ∃ r ∈ rs, r.eventName = name :=
  List.mem_eraseDups.trans List.mem_map

theorem firstNames_concat (rs : List Record) (r : Record) :
    firstNames (rs ++ [r]) =
      if r.eventName ∈ firstNames rs then firstNames rs else firstNames rs ++ [r.eventName] := by
  rw [firstNames, List.map_append, List.eraseDups_append, ← firstNames]
  have hmem : r.eventName ∈ firstNames rs ↔ r.eventName ∈ rs.map (·.eventName) :=
    List.mem_eraseDups
  by_cases hknown : r.eventName ∈ rs.map (·.eventName)
  · rw [if_pos (hmem.2 hknown)]
    simp [List.cons_removeAll, hknown]
  · rw [if_neg (hknown ∘ hmem.1)]
    simp [List.cons_removeAll, hknown, List.eraseDups_cons]

/-- The latest record with an event name. -/
def latest? (rs : List Record) (name : String) : Option Record :=
  (rs.filter (·.eventName = name)).getLast?

theorem latest?_concat (rs : List Record) (r : Record) (name : String) :
    latest? (rs ++ [r]) name = if r.eventName = name then some r else latest? rs name := by
  unfold latest?
  by_cases hname : r.eventName = name <;> simp [hname]

theorem mem_of_latest? {rs : List Record} {name : String} {r : Record}
    (h : latest? rs name = some r) : r ∈ rs ∧ r.eventName = name := by
  have hmem := List.mem_filter.1 (List.mem_of_getLast? h)
  exact ⟨hmem.1, of_decide_eq_true hmem.2⟩

namespace EventStore

/-- Does something to a store. -/
def perform (s : EventStore) : StoreCall → EventStore
  | .put r => s.put r
  | .clear => .empty

/-- The store after some calls. -/
def after (calls : List StoreCall) : EventStore := calls.foldl perform .empty

/-- Only what has been put since the last clearing matters. -/
theorem after_eq_putAll (calls : List StoreCall) :
    after calls = putAll .empty (recordsSinceClear calls) := by
  induction calls using List.reverseRecOn with
  | nil => rfl
  | append_singleton calls call ih =>
    rw [after, List.foldl_append, ← after, ih]
    cases call with
    | put r =>
      rw [recordsSinceClear_put, putAll, putAll, List.foldl_append]
      rfl
    | clear =>
      rw [recordsSinceClear_clear]
      rfl

/-! ## One more record -/

variable {name : String} {record : Record} {es : List StoredEvent} {e : StoredEvent}

theorem names_merge (name : String) (record : Record) (es : List StoredEvent) :
    (merge name record es).map (·.name) =
      if name ∈ es.map (·.name) then es.map (·.name) else es.map (·.name) ++ [name] := by
  induction es with
  | nil => rfl
  | cons e rest ih =>
    by_cases hname : e.name = name
    · simp [merge, hname]
    · have hmem : name ∈ (e :: rest).map (·.name) ↔ name ∈ rest.map (·.name) := by
        simp [Ne.symm hname]
      rw [merge, if_neg hname, List.map_cons, ih]
      by_cases hrest : name ∈ rest.map (·.name)
      · rw [if_pos hrest, if_pos (hmem.2 hrest), List.map_cons]
      · rw [if_neg hrest, if_neg (hrest ∘ hmem.1), List.map_cons, List.cons_append]

/-- An entry is the one that has just been written, or it has another name and was there. -/
theorem mem_merge (hnodup : (es.map (·.name)).Nodup) (h : e ∈ merge name record es) :
    (e.name = name ∧ e.record = record) ∨ (e.name ≠ name ∧ e ∈ es) := by
  induction es with
  | nil =>
    obtain rfl : e = ⟨name, record, 1⟩ := List.mem_singleton.1 h
    exact .inl ⟨rfl, rfl⟩
  | cons e' rest ih =>
    obtain ⟨hfresh, hrest⟩ := List.nodup_cons.1 hnodup
    rw [merge] at h
    split at h
    case isTrue hname =>
      rcases List.mem_cons.1 h with rfl | hmem
      · exact .inl ⟨rfl, rfl⟩
      · have hother : e.name ≠ name := by
          intro hsame
          exact hfresh (List.mem_map.2 ⟨e, hmem, hsame.trans hname.symm⟩)
        exact .inr ⟨hother, List.mem_cons_of_mem _ hmem⟩
    case isFalse hname =>
      rcases List.mem_cons.1 h with rfl | hmem
      · exact .inr ⟨hname, List.mem_cons_self⟩
      · exact (ih hrest hmem).imp_right fun hold => ⟨hold.1, List.mem_cons_of_mem _ hold.2⟩

theorem sum_merge (name : String) (record : Record) (es : List StoredEvent) :
    ((merge name record es).map (·.count)).sum = (es.map (·.count)).sum + 1 := by
  induction es with
  | nil => rfl
  | cons e rest ih =>
    rw [merge]
    split
    · simp only [List.map_cons, List.sum_cons]
      omega
    · simp only [List.map_cons, List.sum_cons, ih]
      omega

/-! ## All records -/

/-- Every name has one entry, in the order in which the names came first, and the entry has the
latest record of its name and counts all of them. -/
structure Tallies (s : EventStore) (rs : List Record) : Prop where
  names : s.entries.map (·.name) = firstNames rs
  nodup : (s.entries.map (·.name)).Nodup
  record : ∀ e ∈ s.entries, latest? rs e.name = some e.record
  count : ∀ name, s.count name = rs.countP (·.eventName = name)
  total : (s.entries.map (·.count)).sum = rs.length

/-- With distinct names, the count of a name is that of its entry. -/
theorem count_of_mem {s : EventStore} (hnodup : (s.entries.map (·.name)).Nodup)
    (he : e ∈ s.entries) : s.count e.name = e.count := by
  have hfound : s.entry? e.name = some e := by
    obtain ⟨before, after, hsplit⟩ := List.append_of_mem he
    refine List.find?_eq_some_iff_append.2 ⟨by simp, before, after, hsplit, fun e' he' => ?_⟩
    rw [hsplit, List.map_append, List.map_cons] at hnodup
    have hdistinct := (List.nodup_append.1 hnodup).2.2 e'.name (List.mem_map_of_mem he')
    simpa using hdistinct e.name List.mem_cons_self
  rw [count, hfound]
  rfl

namespace Tallies

variable {s : EventStore} {rs : List Record}

theorem empty : Tallies .empty [] where
  names := rfl
  nodup := List.nodup_nil
  record := nofun
  count _ := rfl
  total := rfl

theorem put (h : Tallies s rs) (r : Record) : Tallies (s.put r) (rs ++ [r]) := by
  have hnames : (s.put r).entries.map (·.name) =
      if r.eventName ∈ firstNames rs then firstNames rs else firstNames rs ++ [r.eventName] := by
    rw [← h.names]
    exact names_merge _ _ _
  have hnodup : ((s.put r).entries.map (·.name)).Nodup := by
    have hbefore : (firstNames rs).Nodup := h.names ▸ h.nodup
    rw [hnames]
    split
    · exact hbefore
    case isFalse hnew =>
      refine List.nodup_append.2 ⟨hbefore, by simp, ?_⟩
      rintro name hold _ hname rfl
      exact hnew (List.mem_singleton.1 hname ▸ hold)
  refine {
    names := hnames.trans (firstNames_concat rs r).symm
    nodup := hnodup
    record := fun e he => ?record
    count := fun name => ?count
    total := ?total }
  case record =>
    rw [latest?_concat]
    rcases mem_merge h.nodup he with ⟨hname, hrecord⟩ | ⟨hname, hmem⟩
    · rw [if_pos hname.symm, hrecord]
    · rw [if_neg (Ne.symm hname), h.record e hmem]
  case count =>
    rw [count_put, h.count, List.countP_append]
    by_cases hname : r.eventName = name <;> simp [hname]
  case total =>
    rw [EventStore.put, sum_merge, h.total, List.length_append]
    rfl

theorem putAll (h : Tallies s rs) (rs' : List Record) : Tallies (s.putAll rs') (rs ++ rs') := by
  induction rs' generalizing s rs with
  | nil => exact (List.append_nil rs).symm ▸ h
  | cons r rs' ih =>
    rw [List.append_cons]
    exact ih (h.put r)

theorem count_eq (h : Tallies s rs) {e : StoredEvent} (he : e ∈ s.entries) :
    e.count = rs.countP (·.eventName = e.name) := by
  rw [← h.count, count_of_mem h.nodup he]

/-- The records of the entries are the latest ones, in the order of the names. -/
theorem records_eq (h : Tallies s rs) : s.records = (firstNames rs).filterMap (latest? rs) := by
  rw [← h.names, List.filterMap_map, records, ← List.filterMap_eq_map]
  exact List.filterMap_congr fun e he => (h.record e he).symm

end Tallies

/-! ## Kinds -/

/-- What the store says about kinds and numbers is what the records say. -/
structure Merges (s : EventStore) (rs : List Record) : Prop extends Tallies s rs where
  counts : ∀ e ∈ s.entries, e.count = rs.countP (·.eventName = e.name)
  /-- All records of an entry are of its kind. -/
  kind : ∀ e ∈ s.entries, ∀ r ∈ rs, r.eventName = e.name → r.item = e.record.item
  occurrences : ∀ i, s.occurrences i = rs.countP (·.item = i)
  contains : ∀ i, s.contains i = true ↔ ∃ r ∈ rs, r.item = i
  recordsFor : ∀ i,
    s.recordsFor i = ((firstNames rs).filterMap (latest? rs)).filter (·.item = i)
  recordsFor_ne_nil : ∀ i, s.recordsFor i ≠ [] ↔ s.contains i = true
  /-- No number is larger than that of the records. -/
  bounded : (∀ e ∈ s.entries, e.count ≤ rs.length) ∧ ∀ i, s.occurrences i ≤ rs.length

theorem merges_putAll {rs : List Record} (hids : Digest.Distinguishes (rs.map (·.mergeKey))) :
    Merges (putAll .empty rs) rs := by
  have hunmistaken := Record.unmistaken_of_distinguishes hids
  have htallies : Tallies (putAll .empty rs) rs := Tallies.empty.putAll rs
  have hlatest : ∀ e ∈ (putAll .empty rs).entries, e.record ∈ rs ∧ e.record.eventName = e.name :=
    fun e he => mem_of_latest? (htallies.record e he)
  have hkind : ∀ e ∈ (putAll .empty rs).entries, ∀ r ∈ rs, r.eventName = e.name →
      r.item = e.record.item := by
    intro e he r hr hname
    obtain ⟨hrecord, hown⟩ := hlatest e he
    exact Record.item_of_mergeKey (hunmistaken r hr _ hrecord (hname.trans hown.symm))
  have hoccurrences : ∀ i, (putAll .empty rs).occurrences i = rs.countP (·.item = i) := by
    intro i
    rw [occurrences_putAll isSound_empty hunmistaken]
    exact Nat.zero_add _
  have hcontains : ∀ i, (putAll .empty rs).contains i = true ↔ ∃ r ∈ rs, r.item = i := by
    intro i
    rw [EventStore.contains, hoccurrences, decide_eq_true_iff, List.countP_pos_iff]
    simp
  have hrecordsFor : ∀ i, (putAll .empty rs).recordsFor i =
      ((firstNames rs).filterMap (latest? rs)).filter (·.item = i) := by
    intro i
    rw [← htallies.records_eq]
    rfl
  refine { htallies with
    counts := fun e he => htallies.count_eq he
    kind := hkind
    occurrences := hoccurrences
    contains := hcontains
    recordsFor := hrecordsFor
    recordsFor_ne_nil := fun i => ?_
    bounded := ⟨fun e he => ?_, fun i => ?_⟩ }
  · -- A record of the kind has an entry, and the record of the entry is of the same kind.
    rw [hcontains, EventStore.recordsFor]
    constructor
    · intro hne
      obtain ⟨r, hr⟩ := List.exists_mem_of_ne_nil _ hne
      obtain ⟨hmem, hitem⟩ := List.mem_filter.1 hr
      obtain ⟨e, he, rfl⟩ := List.mem_map.1 hmem
      exact ⟨e.record, (hlatest e he).1, of_decide_eq_true hitem⟩
    · rintro ⟨r, hr, rfl⟩
      have hname : r.eventName ∈ (putAll .empty rs).entries.map (·.name) := by
        rw [htallies.names]
        exact mem_firstNames.2 ⟨r, hr, rfl⟩
      obtain ⟨e, he, hname⟩ := List.mem_map.1 hname
      refine List.ne_nil_of_mem (a := e.record) (List.mem_filter.2 ⟨List.mem_map_of_mem he, ?_⟩)
      rw [hkind e he r hr hname.symm]
      exact decide_eq_true rfl
  · rw [htallies.count_eq he]
    exact List.countP_le_length
  · rw [hoccurrences]
    exact List.countP_le_length

/-- A store that is given records and cleared now and then holds what has been put since it was
cleared last: one entry for every name, in the order in which the names came first, with the
latest record and the number of all.  So no record is lost or counted twice, and what the store
says about a kind is what these records say.  With fewer than 2^32 of them no number leaves its
32 bits.  As long as the store is not cleared, an entry stays, and it stays of its kind. -/
theorem merges_after (calls : List StoreCall)
    (hids : Digest.Distinguishes ((recordsSinceClear calls).map (·.mergeKey))) :
    Merges (after calls) (recordsSinceClear calls) ∧
      ((recordsSinceClear calls).length < Number.twoTo 32 →
        (∀ e ∈ (after calls).entries, e.count < Number.twoTo 32) ∧
          ∀ i, (after calls).occurrences i < Number.twoTo 32) ∧
      ∀ earlier later, calls = earlier ++ later → (∀ c ∈ later, c ≠ .clear) →
        ∀ e ∈ (after earlier).entries, ∃ e' ∈ (after calls).entries,
          e'.name = e.name ∧ e'.record.item = e.record.item ∧ e.count ≤ e'.count := by
  have hmerges : Merges (after calls) (recordsSinceClear calls) :=
    after_eq_putAll calls ▸ merges_putAll hids
  refine ⟨hmerges, fun hfew => ⟨fun e he => ?_, fun i => ?_⟩, ?_⟩
  · exact Nat.lt_of_le_of_lt (hmerges.bounded.1 e he) hfew
  · exact Nat.lt_of_le_of_lt (hmerges.bounded.2 i) hfew
  · rintro earlier later rfl hkept e he
    rw [recordsSinceClear_append hkept] at hids hmerges
    set rs := recordsSinceClear earlier
    have hbefore : Tallies (after earlier) rs :=
      after_eq_putAll earlier ▸ Tallies.empty.putAll rs
    obtain ⟨hrecord, hown⟩ := mem_of_latest? (hbefore.record e he)
    have hrecord' := List.mem_append_left (later.filterMap StoreCall.record?) hrecord
    -- The record that the entry had is still among the records, so its name still has an entry.
    have hname : e.name ∈ (after (earlier ++ later)).entries.map (·.name) := by
      rw [hmerges.names]
      exact mem_firstNames.2 ⟨e.record, hrecord', hown⟩
    obtain ⟨e', he', hname'⟩ := List.mem_map.1 hname
    refine ⟨e', he', hname', (hmerges.kind e' he' _ hrecord' (hown.trans hname'.symm)).symm, ?_⟩
    rw [hbefore.count_eq he, hmerges.counts e' he', hname', List.countP_append]
    exact Nat.le_add_right _ _

/-- The completion of work on a domain. -/
def completion (domain message : String) : Record :=
  ⟨.processingCompleted, "prod", ⟨"keel.dev/v1", "Domain", domain, "prod"⟩, message, [],
    operatorComponent, "keel-0", "ops"⟩

/-- A store that is cleared and filled again. -/
def refilled : List StoreCall :=
  [.put (completion "east" "old"), .clear, .put (completion "west" "first"),
    .put (completion "east" "first"), .put (completion "west" "second")]

/-- The store holds two names, one of them twice, and nothing from before the clearing; the entry
that the first record made is still there. -/
theorem merges_after_refilled :
    ((after refilled).entries.map (·.name) =
        [(completion "west" "").eventName, (completion "east" "").eventName] ∧
      (after refilled).occurrences .processingCompleted = 3 ∧
      (after refilled).contains .processingFailed = false) ∧
    (∀ e ∈ (after refilled).entries, e.count < Number.twoTo 32) ∧
    ∀ e ∈ (after (refilled.take 3)).entries, ∃ e' ∈ (after refilled).entries,
      e'.name = e.name ∧ e'.record.item = e.record.item ∧ e.count ≤ e'.count := by
  have hids : Digest.Distinguishes
      [(completion "west" "").mergeKey, (completion "east" "").mergeKey] :=
    .of_nodup (by decide +kernel)
  obtain ⟨hmerges, hfew, hstays⟩ := merges_after refilled (hids.mono (by decide))
  have hrecords : recordsSinceClear refilled =
      [completion "west" "first", completion "east" "first", completion "west" "second"] := rfl
  rw [hrecords] at hmerges hfew
  have hdistinct : (completion "east" "").eventName ≠ (completion "west" "").eventName :=
    fun h => absurd (Record.eventName_eq_iff.1 h).1 (by decide)
  refine ⟨⟨?_, ?_, ?_⟩, (hfew (by decide)).1, ?_⟩
  · have hsame (domain message : String) :
        (completion domain message).eventName = (completion domain "").eventName := rfl
    simp [hmerges.names, firstNames, hsame, List.eraseDups_cons, hdistinct]
  · rw [hmerges.occurrences]
    decide
  · rw [Bool.eq_false_iff, ne_eq, hmerges.contains]
    decide
  · refine hstays (refilled.take 3) (refilled.drop 3) rfl ?_
    intro c hc
    rcases c with r | _
    · nofun
    · simp [refilled] at hc

end EventStore

end Reconcile
