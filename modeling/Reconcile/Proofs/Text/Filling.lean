import Reconcile.Event.Item

/-!
# What is filled in for a phrase

A phrase that begins with a character which has not come before is found where it stands
(`replaceAll_append`).  What has been filled in for a phrase can be told from the result, provided
that the phrase occurs at all (`replaceAll_injective`): the longer one of two fillers makes a longer
text, and fillers of equal length differ at the first occurrence.

A message is a pattern in which first the place of the resource and then that of the failure text
is filled in.  In the patterns of failures the place of the text stands behind the place of the
resource, so that it is still there when the resource has been filled in, whatever the resource is.
Hence such a message tells its failure text (`Item.message_injective`).
-/

namespace Reconcile

namespace Text

variable {needle filler filler' text : List Char}

theorem occurs_append (before : List Char) (h : occurs needle text = true) :
    occurs needle (before ++ text) = true := by
  induction before with
  | nil => exact h
  | cons c before ih => rw [List.cons_append, occurs, ih, Bool.or_true]

/-! ## Finding the phrase -/

/-- The rest of an occurrence is passed over. -/
theorem replaceFrom_length_append (rest text : List Char) :
    replaceFrom needle filler rest.length (rest ++ text) = replaceAll needle filler text := by
  induction rest with
  | nil => rfl
  | cons c rest ih => exact ih

/-- What comes before the first character of the phrase stays as it is. -/
theorem replaceAll_append_of_not_mem {c : Char} {before : List Char} (h : c ∉ before) :
    replaceAll (c :: needle) filler (before ++ text) =
      before ++ replaceAll (c :: needle) filler text := by
  induction before with
  | nil => rfl
  | cons d before ih =>
    obtain ⟨hother, hrest⟩ := not_or.1 (mt List.mem_cons.2 h)
    have hno : (c :: needle).isPrefixOf (d :: (before ++ text)) = false := by
      simp [List.isPrefixOf, hother]
    rw [List.cons_append, replaceAll, replaceFrom, hno, ← replaceAll, ih hrest]
    rfl

theorem replaceAll_needle_append {c : Char} :
    replaceAll (c :: needle) filler ((c :: needle) ++ text) =
      filler ++ replaceAll (c :: needle) filler text := by
  have hyes : (c :: needle).isPrefixOf (c :: (needle ++ text)) = true := by simp
  rw [List.cons_append, replaceAll, replaceFrom, if_pos hyes]
  exact congrArg (filler ++ ·) (replaceFrom_length_append needle text)

/-- The phrase is found if its first character has not come before. -/
theorem replaceAll_append {c : Char} {before : List Char} (h : c ∉ before) :
    replaceAll (c :: needle) filler (before ++ ((c :: needle) ++ text)) =
      before ++ (filler ++ replaceAll (c :: needle) filler text) := by
  rw [replaceAll_append_of_not_mem h, replaceAll_needle_append]

/-! ## Reading a filler back -/

theorem length_replaceFrom_le (h : filler.length ≤ filler'.length) (skip : Nat)
    (text : List Char) :
    (replaceFrom needle filler skip text).length ≤
      (replaceFrom needle filler' skip text).length := by
  induction text generalizing skip with
  | nil => simp [replaceFrom]
  | cons c rest ih =>
    cases skip with
    | succ skip => exact ih skip
    | zero =>
      simp only [replaceFrom]
      split
      · have hrest := ih (needle.length - 1)
        simp only [List.length_append]
        omega
      · exact Nat.succ_le_succ (ih 0)

theorem length_replaceAll_lt (hneedle : needle ≠ []) (h : filler.length < filler'.length)
    (hoccurs : occurs needle text = true) :
    (replaceAll needle filler text).length < (replaceAll needle filler' text).length := by
  unfold replaceAll
  induction text with
  | nil => exact absurd (List.isEmpty_iff.1 hoccurs) hneedle
  | cons c rest ih =>
    simp only [replaceFrom]
    split
    case isTrue =>
      have hrest : (replaceFrom needle filler (needle.length - 1) rest).length ≤
          (replaceFrom needle filler' (needle.length - 1) rest).length :=
        length_replaceFrom_le (Nat.le_of_lt h) _ _
      simp only [List.length_append]
      omega
    case isFalse hno =>
      have hlater : occurs needle rest = true := by simpa [occurs, hno] using hoccurs
      exact Nat.succ_lt_succ (ih hlater)

theorem replaceAll_injective_of_length (hneedle : needle ≠ [])
    (hlength : filler.length = filler'.length) (hoccurs : occurs needle text = true)
    (h : replaceAll needle filler text = replaceAll needle filler' text) : filler = filler' := by
  unfold replaceAll at h
  induction text with
  | nil => exact absurd (List.isEmpty_iff.1 hoccurs) hneedle
  | cons c rest ih =>
    simp only [replaceFrom] at h
    split at h
    case isTrue => exact (List.append_inj h hlength).1
    case isFalse hno =>
      have hlater : occurs needle rest = true := by simpa [occurs, hno] using hoccurs
      exact ih hlater (List.cons.inj h).2

/-- What has been filled in for a phrase that occurs can be told from the result. -/
theorem replaceAll_injective (hneedle : needle ≠ []) (hoccurs : occurs needle text = true) :
    Function.Injective fun filler => replaceAll needle filler text := by
  intro filler filler' h
  have hlengths := congrArg List.length h
  rcases Nat.lt_trichotomy filler.length filler'.length with hshorter | hequal | hlonger
  · exact absurd hlengths (Nat.ne_of_lt (length_replaceAll_lt hneedle hshorter hoccurs))
  · exact replaceAll_injective_of_length hneedle hequal hoccurs h
  · exact absurd hlengths (Nat.ne_of_gt (length_replaceAll_lt hneedle hlonger hoccurs))

end Text

/-! ## Messages -/

namespace Item

/-- The pattern up to its first brace. -/
def opening (i : Item) : List Char := i.pattern.toList.takeWhile (· ≠ '\x7b')

/-- The pattern behind the place that begins with this brace. -/
def closing (i : Item) : List Char :=
  (i.pattern.toList.dropWhile (· ≠ '\x7b')).drop resourcePlace.length

/-- The first brace begins the only place for a resource, and the text has its place behind it. -/
theorem pattern_spec (i : Item) :
    i.pattern.toList = i.opening ++ (resourcePlace.toList ++ i.closing) ∧
      '\x7b' ∉ i.opening ∧ Text.occurs resourcePlace.toList i.closing = false ∧
      Text.occurs textPlace.toList i.closing = i.takesText := by
  cases i <;> decide +kernel

/-- The resource is filled in once, and then the text wherever there is a place for one, be it in
the resource. -/
theorem message_toList (i : Item) (resource : String) (text : Option String) :
    (i.message resource text).toList =
      Text.replaceAll textPlace.toList (text.getD unknownText).toList
        (i.opening ++ (resource.toList ++ i.closing)) := by
  obtain ⟨hpattern, hopening, hclosing, -⟩ := i.pattern_spec
  have hplace : resourcePlace.toList = '\x7b' :: resourcePlace.toList.tail := by decide +kernel
  have hresource : (Text.replace resourcePlace resource i.pattern).toList =
      i.opening ++ (resource.toList ++ i.closing) := by
    rw [Text.replace, String.toList_ofList, hpattern, hplace, Text.replaceAll_append hopening,
      ← hplace, Text.replaceAll_of_not_occurs hclosing]
  rw [message, Text.replace, String.toList_ofList, hresource]

/-- The message of a failure tells its text. -/
theorem message_injective {i : Item} (htext : i.takesText = true) {resource text text' : String}
    (h : i.message resource (some text) = i.message resource (some text')) : text = text' := by
  have hlists := congrArg String.toList h
  rw [message_toList, message_toList] at hlists
  have hplace : textPlace.toList ≠ [] := by decide +kernel
  have hoccurs : Text.occurs textPlace.toList (i.opening ++ (resource.toList ++ i.closing)) = true :=
    Text.occurs_append _ (Text.occurs_append _ (i.pattern_spec.2.2.2.trans htext))
  exact String.toList_inj.1 (Text.replaceAll_injective hplace hoccurs hlists)

end Item

end Reconcile
