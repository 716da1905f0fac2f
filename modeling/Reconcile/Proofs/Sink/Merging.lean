import Mathlib.Data.List.Nodup
import Reconcile.Sink.Outbox

/-!
# What the store in memory counts

Every record adds one to the count of the merged event with its name, whatever else is stored
(`EventStore.count_put`).  So the count after any number of records is that of the records with
this name, in whatever order they come.

The occurrences of a kind are added up over the entries whose latest record is of this kind.  An
entry must not change its kind for that.  It does not as long as different merge keys have
different names (`Record.Unmistaken`), since a merge key begins with the reason of its kind
(`Record.item_of_mergeKey`).
-/

namespace Reconcile

/-! ## Names and kinds -/

namespace Record

/-- No two of the records have the same name but different merge keys.  Names are derived from
merge keys by a digest, so it takes a collision to violate this. -/
def Unmistaken (rs : List Record) : Prop :=
  ∀ r ∈ rs, ∀ r' ∈ rs, r.eventName = r'.eventName → r.mergeKey = r'.mergeKey

theorem Unmistaken.mono {rs rs' : List Record} (h : Unmistaken rs) (hsubset : rs' ⊆ rs) :
    Unmistaken rs' :=
  fun _ hr _ hr' => h _ (hsubset hr) _ (hsubset hr')

theorem Unmistaken.of_nodup {rs : List Record} (h : (rs.map (·.eventName)).Nodup) :
    Unmistaken rs := by
  intro r hr r' hr' hname
  rw [List.inj_on_of_nodup_map h hr hr' hname]

/-- A merge key tells the kind. -/
theorem item_of_mergeKey {r r' : Record} (h : r.mergeKey = r'.mergeKey) : r.item = r'.item := by
  have hplain : ∀ r : Record, ∀ c ∈ r.reason.toList, decide (c ≠ '/') = true := by
    intro r
    refine List.all_eq_true.1 ?_
    unfold reason
    cases r.item <;> decide
  -- What stands before the first slash is the reason.
  have hreason : ∀ r : Record, r.mergeKey.toList.takeWhile (· ≠ '/') = r.reason.toList := by
    intro r
    have hslash : "/".toList = ['/'] := rfl
    rw [mergeKey, String.intercalate_cons_cons, String.toList_append, String.toList_append, hslash,
      List.append_assoc, List.takeWhile_append_of_pos (hplain r), List.singleton_append,
      List.takeWhile_cons_of_neg (by simp), List.append_nil]
  have hsame : r.reason.toList = r'.reason.toList := by rw [← hreason, ← hreason, h]
  exact Item.reason_injective (String.toList_inj.1 hsame)

end Record

namespace EventStore

/-! ## One more record -/

/-- How often the event with a name has been stored. -/
def count (s : EventStore) (name : String) : Nat := ((s.entry? name).map (·.count)).getD 0

theorem count_put (s : EventStore) (r : Record) (name : String) :
    (s.put r).count name = s.count name + if r.eventName = name then 1 else 0 := by
  obtain ⟨entries⟩ := s
  simp only [count, put, entry?]
  induction entries with
  | nil =>
    by_cases hname : r.eventName = name <;> simp [merge, hname]
  | cons e rest ih =>
    by_cases hsame : e.name = r.eventName
    · by_cases hname : r.eventName = name <;> simp [merge, hsame, hname]
    · by_cases hname : e.name = name
      · have hother : r.eventName ≠ name := fun h => hsame (hname.trans h.symm)
        simp [merge, hname, hother, Ne.symm hother]
      · simpa [merge, hsame, hname] using ih

/-- The records of the entries. -/
def records (s : EventStore) : List Record := s.entries.map (·.record)

/-- Every entry is kept under the name of its record. -/
def IsSound (s : EventStore) : Prop := ∀ e ∈ s.entries, e.name = e.record.eventName

theorem isSound_empty : empty.IsSound := nofun

theorem eq_or_mem_of_merge {name : String} {record : Record} {es : List StoredEvent}
    {e : StoredEvent} (h : e ∈ merge name record es) :
    (e.name = name ∧ e.record = record) ∨ e ∈ es := by
  induction es with
  | nil =>
    obtain rfl : e = ⟨name, record, 1⟩ := List.mem_singleton.1 h
    exact .inl ⟨rfl, rfl⟩
  | cons e' rest ih =>
    rw [merge] at h
    split at h
    · rcases List.mem_cons.1 h with rfl | hrest
      · exact .inl ⟨rfl, rfl⟩
      · exact .inr (List.mem_cons_of_mem _ hrest)
    · rcases List.mem_cons.1 h with rfl | hrest
      · exact .inr List.mem_cons_self
      · exact (ih hrest).imp_right (List.mem_cons_of_mem _)

theorem IsSound.put {s : EventStore} (h : s.IsSound) (r : Record) : (s.put r).IsSound := by
  intro e he
  rcases eq_or_mem_of_merge he with ⟨hname, hrecord⟩ | hold
  · rw [hname, hrecord]
  · exact h e hold

theorem mem_records_put {s : EventStore} {r x : Record} (h : x ∈ (s.put r).records) :
    x ∈ r :: s.records := by
  obtain ⟨e, he, rfl⟩ := List.mem_map.1 h
  rcases eq_or_mem_of_merge he with ⟨-, hrecord⟩ | hold
  · rw [hrecord]
    exact List.mem_cons_self
  · exact List.mem_cons_of_mem _ (List.mem_map_of_mem hold)

/-- A record adds an occurrence of its kind if it does not change the kind of an entry. -/
theorem occurrences_put (s : EventStore) (r : Record) (i : Item)
    (hkind : ∀ e ∈ s.entries, e.name = r.eventName → e.record.item = r.item) :
    (s.put r).occurrences i = s.occurrences i + if r.item = i then 1 else 0 := by
  obtain ⟨entries⟩ := s
  simp only [occurrences, put]
  induction entries with
  | nil => by_cases hitem : r.item = i <;> simp [merge, hitem]
  | cons e rest ih =>
    have hrest := ih fun e' he' => hkind e' (List.mem_cons_of_mem _ he')
    by_cases hsame : e.name = r.eventName
    · have hitem : e.record.item = r.item := hkind e List.mem_cons_self hsame
      by_cases hi : r.item = i <;> simp [merge, hsame, hitem, hi]
      omega
    · by_cases hi : e.record.item = i <;> simp [merge, hsame, hi, hrest]
      omega

/-! ## Any number of records -/

/-- The store after some records. -/
def putAll (s : EventStore) (rs : List Record) : EventStore := rs.foldl put s

theorem count_putAll (s : EventStore) (rs : List Record) (name : String) :
    (s.putAll rs).count name = s.count name + rs.countP (·.eventName = name) := by
  induction rs generalizing s with
  | nil => rfl
  | cons r rs ih =>
    rw [putAll, List.foldl_cons, ← putAll, ih, count_put, List.countP_cons]
    simp only [decide_eq_true_eq]
    omega

theorem occurrences_putAll {s : EventStore} (hsound : s.IsSound) {rs : List Record}
    (hrecords : Record.Unmistaken (s.records ++ rs)) (i : Item) :
    (s.putAll rs).occurrences i = s.occurrences i + rs.countP (·.item = i) := by
  induction rs generalizing s with
  | nil => rfl
  | cons r rs ih =>
    have hkind : ∀ e ∈ s.entries, e.name = r.eventName → e.record.item = r.item := by
      intro e he hname
      have hmem : e.record ∈ s.records ++ r :: rs :=
        List.mem_append_left _ (List.mem_map_of_mem he)
      exact Record.item_of_mergeKey
        (hrecords e.record hmem r (by simp) ((hsound e he).symm.trans hname))
    have hsubset : (s.put r).records ++ rs ⊆ s.records ++ r :: rs := by
      intro x hx
      rcases List.mem_append.1 hx with hx | hx
      · rcases List.mem_cons.1 (mem_records_put hx) with rfl | hold
        · simp
        · exact List.mem_append_left _ hold
      · exact List.mem_append_right _ (List.mem_cons_of_mem _ hx)
    rw [putAll, List.foldl_cons, ← putAll, ih (hsound.put r) (hrecords.mono hsubset),
      occurrences_put s r i hkind, List.countP_cons]
    simp only [decide_eq_true_eq]
    omega

end EventStore

/-! ## The outbox -/

namespace Outbox

/-- The outbox after some records have been handed over. -/
def putAll (o : Outbox) (rs : List Record) : Outbox := rs.foldl (fun o r => (o.put r).2) o

theorem putAll_append (o : Outbox) (rs rs' : List Record) :
    o.putAll (rs ++ rs') = (o.putAll rs).putAll rs' := List.foldl_append ..

theorem handed_putAll (o : Outbox) (rs : List Record) :
    (o.putAll rs).handed = o.handed ++ rs := by
  induction rs generalizing o with
  | nil => exact (List.append_nil _).symm
  | cons r rs ih =>
    rw [putAll, List.foldl_cons, ← putAll, ih, handed_put, List.append_assoc]
    rfl

/-- A sink that refuses nothing stores every record. -/
theorem store_putAll {o : Outbox} (hrefuses : ∀ n, o.refuses n = false) (rs : List Record) :
    (o.putAll rs).store = o.store.putAll rs := by
  induction rs generalizing o with
  | nil => rfl
  | cons r rs ih =>
    have hstore : (o.put r).2.store = o.store.put r := by simp [put, hrefuses]
    have hrest : ∀ n, (o.put r).2.refuses n = false := by simpa using hrefuses
    rw [putAll, List.foldl_cons, ← putAll, ih hrest, hstore]
    rfl

end Outbox

end Reconcile
