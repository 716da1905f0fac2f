/-!
# Places in a list

A system of several participants keeps them in a list, in which each is known by its place.
Participants join at the end, and a move replaces one by what it has become.  Here is who stands
at a place after that.
-/

namespace Reconcile.Places

variable {α : Type} {l : List α} {a b : α} {j k : Nat}

/-- Whoever stands in a list that another has joined has stood there before, or is the other. -/
theorem eq_or_of_join (h : (l ++ [a])[k]? = some b) :
    l[k]? = some b ∨ k = l.length ∧ b = a := by
  rw [List.getElem?_append] at h
  split at h
  · exact .inl h
  case isFalse hlength =>
    have hlast : k - l.length < 1 := (List.getElem?_eq_some_iff.1 h).1
    exact .inr ⟨by omega, List.mem_singleton.1 (List.mem_of_getElem? h)⟩

/-- Whoever stands in a list after a replacement has taken the place, or has kept another. -/
theorem eq_or_of_replace (h : (l.set k a)[j]? = some b) :
    (j = k ∧ b = a) ∨ j ≠ k ∧ l[j]? = some b := by
  by_cases hj : k = j
  · subst hj
    have hlength : k < l.length := by
      have hset := (List.getElem?_eq_some_iff.1 h).1
      rwa [List.length_set] at hset
    rw [List.getElem?_set_self hlength] at h
    exact .inl ⟨rfl, (Option.some.inj h).symm⟩
  · rw [List.getElem?_set_ne hj] at h
    exact .inr ⟨Ne.symm hj, h⟩

/-- After a replacement everybody else stands where they have stood before. -/
theorem replaced_or_kept (hreplaced : l[k]? = some a) (h : l[j]? = some b) (a' : α) :
    (j = k ∧ b = a ∧ (l.set k a')[j]? = some a') ∨ j ≠ k ∧ (l.set k a')[j]? = some b := by
  by_cases hj : k = j
  · subst hj
    have hlength := (List.getElem?_eq_some_iff.1 h).1
    exact .inl ⟨rfl, Option.some.inj (h.symm.trans hreplaced), List.getElem?_set_self hlength⟩
  · exact .inr ⟨Ne.symm hj, (List.getElem?_set_ne hj).trans h⟩

/-- What one participant counts. -/
theorem toNat_eq_ite (b : Bool) : b.toNat = if b then 1 else 0 := by
  cases b <;> rfl

/-- A replacement changes a number of participants by what the one that is replaced counts. -/
theorem countP_replace (hreplaced : l[k]? = some a) (P : α → Bool) (a' : α) :
    (l.set k a').countP P + (P a).toNat = l.countP P + (P a').toNat := by
  obtain ⟨hlength, rfl⟩ := List.getElem?_eq_some_iff.1 hreplaced
  have hcounted := List.boole_getElem_le_countP hlength (p := P)
  simp only [List.countP_set hlength, toNat_eq_ite]
  omega

end Reconcile.Places
