import Reconcile.Proofs.Sink.Merging

/-!
# What the name of a stored event tells

The name of a stored event is the name of the object, a dot, and the hexadecimal digits of an
identifier.  The digits contain no dot, so the name of the object and the identifier can be read
back from it (`Record.eventName_eq_iff`), whatever dots the name of the object has.

The identifier is derived from the merge key by a digest.  As long as the digest tells the keys
in use apart (`Digest.Distinguishes`), the event name tells the merge key and with it the kind of
the event.  It tells the whole object if neither the kinds nor the namespaces of objects contain
a slash (`Record.object_of_eventName`); an API version may contain any number of them.
-/

namespace Reconcile

/-- What stands before and behind the last of the separators can be told apart. -/
theorem eq_of_append_separator {α : Type} {c : α} {as bs as' bs' : List α}
    (h : as ++ c :: bs = as' ++ c :: bs') (hbs : c ∉ bs) (hbs' : c ∉ bs') :
    as = as' ∧ bs = bs' := by
  rcases List.append_eq_append_iff.1 h with ⟨between, rfl, hrest⟩ | ⟨between, rfl, hrest⟩
  · cases between with
    | nil => exact ⟨(List.append_nil _).symm, (List.cons.inj hrest).2⟩
    | cons d between =>
      obtain ⟨rfl, rfl⟩ := List.cons.inj hrest
      exact (hbs (List.mem_append_right _ List.mem_cons_self)).elim
  · cases between with
    | nil => exact ⟨List.append_nil _, (List.cons.inj hrest).2.symm⟩
    | cons d between =>
      obtain ⟨rfl, rfl⟩ := List.cons.inj hrest
      exact (hbs' (List.mem_append_right _ List.mem_cons_self)).elim

namespace Digest

/-! ## Digits -/

theorem digitChar_injective {m n : Nat} (hm : m < 16) (hn : n < 16)
    (h : Nat.digitChar m = Nat.digitChar n) : m = n := by
  have hall : ∀ m < 16, ∀ n < 16, Nat.digitChar m = Nat.digitChar n → m = n := by decide
  exact hall m hm n hn h

theorem digitChar_ne_dot {n : Nat} (hn : n < 16) : Nat.digitChar n ≠ '.' := by
  have hall : ∀ n < 16, Nat.digitChar n ≠ '.' := by decide
  exact hall n hn

theorem halves_lt (b : UInt8) : b.toNat / 16 < 16 ∧ b.toNat % 16 < 16 := by
  have hb := b.toNat_lt
  omega

theorem hexByte_injective {b b' : UInt8} (h : hexByte b = hexByte b') : b = b' := by
  obtain ⟨hhigh, hrest⟩ := List.cons.inj h
  obtain ⟨hlow, -⟩ := List.cons.inj hrest
  have hquotient := digitChar_injective (halves_lt b).1 (halves_lt b').1 hhigh
  have hremainder := digitChar_injective (halves_lt b).2 (halves_lt b').2 hlow
  refine UInt8.toNat_inj.1 ?_
  omega

theorem dot_not_mem_hexByte (b : UInt8) : '.' ∉ hexByte b := by
  have hhigh := digitChar_ne_dot (halves_lt b).1
  have hlow := digitChar_ne_dot (halves_lt b).2
  simp [hexByte, hhigh.symm, hlow.symm]

theorem hexText_toList (bytes : List UInt8) :
    (hexText bytes).toList = bytes.flatMap hexByte := String.toList_ofList

theorem dot_not_mem_hexText (bytes : List UInt8) : '.' ∉ (hexText bytes).toList := by
  rw [hexText_toList]
  intro hmem
  obtain ⟨b, -, hb⟩ := List.mem_flatMap.1 hmem
  exact dot_not_mem_hexByte b hb

/-- Every byte has two digits, so the bytes can be read back. -/
theorem flatMap_hexByte_injective {bytes bytes' : List UInt8}
    (h : bytes.flatMap hexByte = bytes'.flatMap hexByte) : bytes = bytes' := by
  induction bytes generalizing bytes' with
  | nil =>
    cases bytes' with
    | nil => rfl
    | cons b' rest' => simp [hexByte] at h
  | cons b rest ih =>
    cases bytes' with
    | nil => simp [hexByte] at h
    | cons b' rest' =>
      rw [List.flatMap_cons, List.flatMap_cons] at h
      obtain ⟨hbyte, hrest⟩ := List.append_inj h rfl
      rw [hexByte_injective hbyte, ih hrest]

/-! ## Identifiers -/

/-- The digest gives different identifiers to different keys. -/
def Distinguishes (keys : List String) : Prop :=
  ∀ k ∈ keys, ∀ k' ∈ keys, nameId objectNameSpace k = nameId objectNameSpace k' → k = k'

theorem Distinguishes.of_nodup {keys : List String}
    (h : (keys.map (nameId objectNameSpace)).Nodup) : Distinguishes keys :=
  fun _ hk _ hk' hid => List.inj_on_of_nodup_map h hk hk' hid

theorem Distinguishes.mono {keys keys' : List String} (h : Distinguishes keys)
    (hsubset : keys' ⊆ keys) : Distinguishes keys' :=
  fun _ hk _ hk' => h _ (hsubset hk) _ (hsubset hk')

end Digest

namespace Record

open Digest

variable {r r' : Record} {rs : List Record}

theorem eventName_toList (r : Record) : r.eventName.toList =
    r.object.name.toList ++ '.' :: (hexText (nameId objectNameSpace r.mergeKey)).toList := by
  have hdot : ".".toList = ['.'] := rfl
  rw [eventName, String.toList_append, String.toList_append, hdot, List.append_assoc,
    List.singleton_append]

/-- An event name tells the name of the object and the identifier of the merge key. -/
theorem eventName_eq_iff : r.eventName = r'.eventName ↔
    r.object.name = r'.object.name ∧
      nameId objectNameSpace r.mergeKey = nameId objectNameSpace r'.mergeKey := by
  constructor
  · intro h
    have hlists : r.eventName.toList = r'.eventName.toList := congrArg String.toList h
    rw [eventName_toList, eventName_toList] at hlists
    obtain ⟨hname, hdigits⟩ := eq_of_append_separator hlists (dot_not_mem_hexText _)
      (dot_not_mem_hexText _)
    rw [hexText_toList, hexText_toList] at hdigits
    exact ⟨String.toList_inj.1 hname, flatMap_hexByte_injective hdigits⟩
  · rintro ⟨hname, hid⟩
    rw [eventName, eventName, hname, hid]

/-- If the digest tells the merge keys apart, so do the event names. -/
theorem unmistaken_of_distinguishes (h : Distinguishes (rs.map (·.mergeKey))) :
    Unmistaken rs := by
  intro r hr r' hr' hname
  exact h _ (List.mem_map_of_mem hr) _ (List.mem_map_of_mem hr') (eventName_eq_iff.1 hname).2

/-! ## Objects -/

/-- Neither the kind nor the namespace of the object contains a slash. -/
def IsPlain (r : Record) : Prop := '/' ∉ r.object.kind.toList ∧ '/' ∉ r.object.ns.toList

instance (r : Record) : Decidable r.IsPlain := inferInstanceAs (Decidable (_ ∧ _))

theorem mergeKey_toList (r : Record) : r.mergeKey.toList =
    ((r.reason.toList ++ '/' :: r.object.apiVersion.toList) ++ '/' :: r.object.kind.toList ++
      '/' :: r.object.ns.toList) ++ '/' :: r.object.name.toList := by
  have hslash : "/".toList = ['/'] := rfl
  simp [mergeKey, String.intercalate_cons_cons, String.toList_append, hslash]

/-- An event name tells the object.  The key is read from its end: the name of the object is
known, and the namespace and the kind reach back to a slash each. -/
theorem object_of_eventName (hname : r.eventName = r'.eventName)
    (hkey : r.mergeKey = r'.mergeKey) (hplain : r.IsPlain) (hplain' : r'.IsPlain) :
    r.object = r'.object := by
  have hobject := (eventName_eq_iff.1 hname).1
  have hreason : r.reason = r'.reason := congrArg Item.reason (item_of_mergeKey hkey)
  have hlists : r.mergeKey.toList = r'.mergeKey.toList := congrArg String.toList hkey
  rw [mergeKey_toList, mergeKey_toList, hobject] at hlists
  obtain ⟨hkind, hns⟩ :=
    eq_of_append_separator (List.append_cancel_right hlists) hplain.2 hplain'.2
  obtain ⟨hversion, hkind⟩ := eq_of_append_separator hkind hplain.1 hplain'.1
  rw [hreason] at hversion
  obtain ⟨-, hversion⟩ := List.cons.inj (List.append_cancel_left hversion)
  calc r.object
      = ⟨r.object.apiVersion, r.object.kind, r.object.name, r.object.ns⟩ := rfl
    _ = ⟨r'.object.apiVersion, r'.object.kind, r'.object.name, r'.object.ns⟩ := by
      rw [String.toList_inj.1 hversion, String.toList_inj.1 hkind, String.toList_inj.1 hns, hobject]
    _ = r'.object := rfl

end Record

end Reconcile
