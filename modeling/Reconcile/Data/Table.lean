/-!
# Tables

A table maps keys to values and remembers the order in which the keys were first entered.
It is the shape of everything the operator keeps by name: attempts in flight, failure
counts, packet values, counters.

The look-up after an insertion or a removal is given by `get?_insert` and `get?_erase`;
nothing else about the representation is needed outside this file.
-/

namespace Reconcile

/-- A finite map. Keys are distinct and stand in the order of their first insertion. -/
structure Table (κ ν : Type) where
  entries : List (κ × ν)
  nodup : (entries.map Prod.fst).Nodup

namespace Table

variable {κ ν : Type}

instance : EmptyCollection (Table κ ν) := ⟨⟨[], List.nodup_nil⟩⟩

instance : Inhabited (Table κ ν) := ⟨∅⟩

/-- The keys, oldest first. -/
def keys (t : Table κ ν) : List κ := t.entries.map Prod.fst

/-- The values, in the order of their keys. -/
def values (t : Table κ ν) : List ν := t.entries.map Prod.snd

/-- The number of keys. -/
def size (t : Table κ ν) : Nat := t.entries.length

variable [DecidableEq κ]

/-! ## Look-up -/

/-- The value of the first entry with the given key. -/
def lookup (k : κ) : List (κ × ν) → Option ν
  | [] => none
  | e :: rest => if e.1 = k then some e.2 else lookup k rest

/-- The value stored under a key. -/
def get? (t : Table κ ν) (k : κ) : Option ν := lookup k t.entries

/-- The value stored under a key, or a default. -/
def getD (t : Table κ ν) (k : κ) (default : ν) : ν := (t.get? k).getD default

/-- Whether a key is present. -/
def contains (t : Table κ ν) (k : κ) : Bool := (t.get? k).isSome

@[simp] theorem get?_empty (k : κ) : (∅ : Table κ ν).get? k = none := rfl

/-- Replaces the value of a key in place, or enters the key at the end. -/
def store (k : κ) (v : ν) : List (κ × ν) → List (κ × ν)
  | [] => [(k, v)]
  | e :: rest => if e.1 = k then (k, v) :: rest else e :: store k v rest

theorem mem_keys_store {k x : κ} {v : ν} {es : List (κ × ν)} :
    x ∈ (store k v es).map Prod.fst ↔ x = k ∨ x ∈ es.map Prod.fst := by
  induction es with
  | nil => simp [store]
  | cons e rest ih =>
    by_cases h : e.1 = k
    · simp [store, h]
    · simp only [store, h, if_false, List.map_cons, List.mem_cons, ih]
      exact or_left_comm

theorem nodup_store {k : κ} {v : ν} {es : List (κ × ν)} (h : (es.map Prod.fst).Nodup) :
    ((store k v es).map Prod.fst).Nodup := by
  induction es with
  | nil => simp [store]
  | cons e rest ih =>
    obtain ⟨hfresh, hrest⟩ := List.nodup_cons.1 h
    by_cases hk : e.1 = k
    · subst hk; simpa [store] using h
    · simp only [store, hk, if_false, List.map_cons, List.nodup_cons]
      refine ⟨fun hmem => ?_, ih hrest⟩
      exact (mem_keys_store.1 hmem).elim hk hfresh

/-- Stores a value under a key, replacing any earlier one. -/
def insert (t : Table κ ν) (k : κ) (v : ν) : Table κ ν :=
  ⟨store k v t.entries, nodup_store t.nodup⟩

theorem get?_insert (t : Table κ ν) (k x : κ) (v : ν) :
    (t.insert k v).get? x = if x = k then some v else t.get? x := by
  obtain ⟨es, hes⟩ := t
  simp only [insert, get?]
  clear hes
  induction es with
  | nil => by_cases h : x = k <;> grind [store, lookup]
  | cons e rest ih =>
    by_cases hk : e.1 = k
    · by_cases hx : x = k
      · simp [store, lookup, hk, hx]
      · simp [store, lookup, hk, hx, Ne.symm hx]
    · by_cases he : e.1 = x
      · have : x ≠ k := fun hx => hk (he.trans hx)
        simp [store, lookup, he, this]
      · simp [store, lookup, hk, he, ih]

/-! ## Removal -/

/-- Removes a key together with its value. -/
def erase (t : Table κ ν) (k : κ) : Table κ ν :=
  ⟨t.entries.filter (fun e => decide (e.1 ≠ k)),
    t.nodup.sublist (List.filter_sublist.map Prod.fst)⟩

theorem get?_erase (t : Table κ ν) (k x : κ) :
    (t.erase k).get? x = if x = k then none else t.get? x := by
  obtain ⟨es, hes⟩ := t
  simp only [erase, get?]
  clear hes
  induction es with
  | nil => simp [lookup]
  | cons e rest ih =>
    by_cases hk : e.1 = k
    · by_cases hx : x = k
      · simpa [List.filter, lookup, hk, hx] using ih
      · simpa [List.filter, lookup, hk, hx, Ne.symm hx] using ih
    · by_cases he : e.1 = x
      · have : x ≠ k := fun hx => hk (he.trans hx)
        simp [List.filter, lookup, he, this]
      · simpa [List.filter, lookup, hk, he] using ih

/-- Changes the value of a key, starting from a default when the key is absent. -/
def modify (t : Table κ ν) (k : κ) (default : ν) (f : ν → ν) : Table κ ν :=
  t.insert k (f (t.getD k default))

theorem getD_modify (t : Table κ ν) (k x : κ) (d : ν) (f : ν → ν) :
    (t.modify k d f).getD x d = if x = k then f (t.getD k d) else t.getD x d := by
  unfold modify
  by_cases h : x = k <;> simp [getD, get?_insert, h]

end Table

end Reconcile
