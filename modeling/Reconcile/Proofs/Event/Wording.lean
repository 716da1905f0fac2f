import Mathlib.Data.List.Infix
import Reconcile.Proofs.Text.Filling

/-!
# The wording of messages

A message is meant to be its pattern with the resource and the failure text in their places, both
of them as they are (`Item.verbatim`).  It is built by two replacements one after the other, and the
second one also reads what the first has filled in.  So the place of a failure text is found in the
resource as well, and the resource is told with the text in it (`Item.message_eq_verbatim`).

`Item.Wording` says what this comes to.  A message is worded as it is meant to be exactly when its
resource does not hold the place of a text, or when nothing changes by filling the text in.  The
text of a failure can be told from its message in any case, since its own place is always there.
-/

namespace Reconcile

namespace Text

variable {needle filler text before : List Char} {places : List (List Char × List Char)}

/-! ## Several phrases at once -/

/-- The scan behind `fill`; `skip` counts the characters of the current place that are still to be
passed over. -/
def fillFrom (places : List (List Char × List Char)) : (skip : Nat) → List Char → List Char
  | _, [] => []
  | skip + 1, _ :: rest => fillFrom places skip rest
  | 0, c :: rest =>
    match places.find? fun place => place.1.isPrefixOf (c :: rest) with
    | some place => place.2 ++ fillFrom places (place.1.length - 1) rest
    | none => c :: fillFrom places 0 rest

/-- Fills all places of a text at once: it is read once from left to right, and what has been filled
in is not read again. -/
def fill (places : List (List Char × List Char)) (text : List Char) : List Char :=
  fillFrom places 0 text

theorem fillFrom_length_append (rest text : List Char) :
    fillFrom places rest.length (rest ++ text) = fill places text := by
  induction rest with
  | nil => rfl
  | cons c rest ih => exact ih

/-- What comes before the character that all places begin with stays as it is. -/
theorem fill_append_of_not_mem {c : Char} (hbegin : ∀ place ∈ places, place.1.head? = some c)
    (h : c ∉ before) : fill places (before ++ text) = before ++ fill places text := by
  induction before with
  | nil => rfl
  | cons d before ih =>
    obtain ⟨hother, hrest⟩ := not_or.1 (mt List.mem_cons.2 h)
    have hnone : (places.find? fun place => place.1.isPrefixOf (d :: (before ++ text))) = none := by
      rw [List.find?_eq_none]
      rintro ⟨needle, filler⟩ hplace
      obtain ⟨rest, rfl⟩ := List.head?_eq_some_iff.1 (hbegin _ hplace)
      simp [List.isPrefixOf, hother]
    rw [List.cons_append, fill, fillFrom, hnone, ← fill, ih hrest]
    rfl

/-- The first place is filled where it stands. -/
theorem fill_needle_append (hneedle : needle ≠ []) :
    fill ((needle, filler) :: places) (needle ++ text) =
      filler ++ fill ((needle, filler) :: places) text := by
  obtain ⟨c, rest, rfl⟩ := List.exists_cons_of_ne_nil hneedle
  have hyes : (c :: rest).isPrefixOf (c :: (rest ++ text)) = true := by simp
  rw [List.cons_append, fill, fillFrom, List.find?_cons, hyes]
  exact congrArg (filler ++ ·) (fillFrom_length_append rest text)

/-- A place that does not occur need not be looked for. -/
theorem fill_of_not_occurs (h : occurs needle text = false) :
    fill ((needle, filler) :: places) text = fill places text := by
  unfold fill
  generalize 0 = skip
  induction text generalizing skip with
  | nil => rfl
  | cons c rest ih =>
    obtain ⟨hno, hrest⟩ := Bool.or_eq_false_iff.1 h
    cases skip with
    | succ skip => exact ih hrest skip
    | zero =>
      simp only [fillFrom, List.find?_cons, hno, ih hrest]

/-- One place is filled by replacing it. -/
theorem fill_singleton (needle filler text : List Char) :
    fill [(needle, filler)] text = replaceAll needle filler text := by
  unfold fill replaceAll
  generalize 0 = skip
  induction text generalizing skip with
  | nil => rfl
  | cons c rest ih =>
    cases skip with
    | succ skip => exact ih skip
    | zero =>
      cases hfound : needle.isPrefixOf (c :: rest) with
      | true => simp [fillFrom, replaceFrom, hfound, ih]
      | false => simp [fillFrom, replaceFrom, hfound, ih]

/-! ## What a replacement leaves as it is -/

/-- No occurrence of a phrase lies across the beginning of a text whose first character is not one
of the phrase. -/
theorem replaceAll_append_of_head (hhead : ∀ c ∈ text.head?, c ∉ needle) :
    replaceAll needle filler (before ++ text) =
      replaceAll needle filler before ++ replaceAll needle filler text := by
  -- What is still to be passed over lies in front of the text.
  suffices hskip : ∀ skip ≤ before.length, replaceFrom needle filler skip (before ++ text) =
      replaceFrom needle filler skip before ++ replaceAll needle filler text from
    hskip 0 (Nat.zero_le _)
  induction before with
  | nil =>
    intro skip hle
    obtain rfl := Nat.le_zero.1 hle
    rfl
  | cons d before ih =>
    intro skip hle
    cases skip with
    | succ skip => exact ih skip (Nat.le_of_succ_le_succ hle)
    | zero =>
      have hsame : needle.isPrefixOf (d :: (before ++ text)) = needle.isPrefixOf (d :: before) := by
        rw [Bool.eq_iff_iff, List.isPrefixOf_iff_prefix, List.isPrefixOf_iff_prefix,
          ← List.cons_append]
        refine ⟨fun hprefix => ?_, fun hprefix => hprefix.trans (List.prefix_append _ _)⟩
        rcases List.prefix_or_prefix_of_prefix hprefix (List.prefix_append (d :: before) text) with
          hinside | ⟨crossing, rfl⟩
        · exact hinside
        · obtain ⟨behind, htext⟩ := hprefix
          rw [List.append_assoc, List.append_cancel_left_eq] at htext
          cases crossing with
          | nil => rw [List.append_nil]
          | cons c crossing =>
            rw [← htext] at hhead
            exact (hhead c rfl (by simp)).elim
      rw [List.cons_append, replaceFrom, replaceFrom, hsame]
      split
      case isTrue hfound =>
        have hlength := (List.isPrefixOf_iff_prefix.1 hfound).length_le
        rw [ih _ (by rw [List.length_cons] at hlength; omega), List.append_assoc]
      case isFalse =>
        rw [ih 0 (Nat.zero_le _)]
        rfl

/-- A phrase that is replaced by itself leaves the text as it is. -/
theorem replaceAll_self (hneedle : needle ≠ []) (text : List Char) :
    replaceAll needle needle text = text := by
  obtain ⟨c, tail, rfl⟩ := List.exists_cons_of_ne_nil hneedle
  induction hlength : text.length using Nat.strongRecOn generalizing text with
  | ind length ih =>
    cases hfound : (c :: tail).isPrefixOf text with
    | true =>
      obtain ⟨rest, rfl⟩ := List.isPrefixOf_iff_prefix.1 hfound
      have hshorter : rest.length < length := by
        rw [← hlength, List.length_append, List.length_cons]
        omega
      rw [replaceAll_needle_append, ih _ hshorter rest rfl]
    | false =>
      cases text with
      | nil => rfl
      | cons d rest =>
        have hshorter : rest.length < length := by simp [← hlength]
        rw [replaceAll, replaceFrom, hfound, ← replaceAll, ih rest.length hshorter rest rfl]
        rfl

/-- A text is left as it is if the phrase does not occur, or is put in its own place. -/
theorem replaceAll_eq_self_iff (hneedle : needle ≠ []) :
    replaceAll needle filler text = text ↔ occurs needle text = false ∨ filler = needle := by
  constructor
  · intro h
    cases hoccurs : occurs needle text with
    | false => exact .inl rfl
    | true =>
      have hself : replaceAll needle filler text = replaceAll needle needle text :=
        h.trans (replaceAll_self hneedle text).symm
      exact .inr (replaceAll_injective hneedle hoccurs hself)
  · rintro (hno | rfl)
    · exact replaceAll_of_not_occurs hno
    · exact replaceAll_self hneedle text

end Text

namespace Item

/-! ## Messages as they are meant to be -/

/-- The pattern with the resource and the failure text, or the word for an unknown one, in their
places, both as they are. -/
def verbatim (i : Item) (resource : String) (text : Option String) : String :=
  String.ofList (Text.fill [(resourcePlace.toList, resource.toList),
    (textPlace.toList, (text.getD unknownText).toList)] i.pattern.toList)

/-- The resource holds no place for a text. -/
def IsPlain (resource : String) : Prop := Text.occurs textPlace.toList resource.toList = false

theorem textPlace_ne_nil : textPlace.toList ≠ [] := by decide +kernel

/-- What stands behind the place of the resource begins with a character that the place of the text
does not have. -/
theorem head_closing (i : Item) : ∀ c ∈ i.closing.head?, c ∉ textPlace.toList := by
  have hall : (i.closing.head?.all fun c => !textPlace.toList.contains c) = true := by
    cases i <;> decide +kernel
  intro c hc
  rw [Option.mem_def.1 hc, Option.all_some, Bool.not_eq_true'] at hall
  exact fun hmem => Bool.false_ne_true (hall.symm.trans (List.contains_iff_mem.2 hmem))

theorem verbatim_toList (i : Item) (resource : String) (text : Option String) :
    (i.verbatim resource text).toList =
      i.opening ++ (resource.toList ++
        Text.replaceAll textPlace.toList (text.getD unknownText).toList i.closing) := by
  obtain ⟨hpattern, hopening, hclosing, -⟩ := i.pattern_spec
  have hplace : resourcePlace.toList ≠ [] := by decide +kernel
  have hbrace : resourcePlace.toList.head? = some '\x7b' ∧
      textPlace.toList.head? = some '\x7b' := by decide +kernel
  rw [verbatim, String.toList_ofList, hpattern,
    Text.fill_append_of_not_mem (by simpa using hbrace) hopening, Text.fill_needle_append hplace,
    Text.fill_of_not_occurs hclosing, Text.fill_singleton]

/-- A message is worded as if the text had been filled in for its place in the resource as well. -/
theorem message_eq_verbatim (i : Item) (resource : String) (text : Option String) :
    i.message resource text =
      i.verbatim (Text.replace textPlace (text.getD unknownText) resource) text := by
  obtain ⟨-, hopening, -, -⟩ := i.pattern_spec
  have hbrace : textPlace.toList = '\x7b' :: textPlace.toList.tail := by decide +kernel
  have hlists : (i.message resource text).toList =
      i.opening ++
        (Text.replaceAll textPlace.toList (text.getD unknownText).toList resource.toList ++
          Text.replaceAll textPlace.toList (text.getD unknownText).toList i.closing) := by
    rw [message_toList, hbrace, Text.replaceAll_append_of_not_mem hopening, ← hbrace,
      Text.replaceAll_append_of_head i.head_closing]
  rw [← String.toList_inj, hlists, verbatim_toList, Text.replace, String.toList_ofList]

theorem verbatim_inj (i : Item) {resource resource' : String} {text : Option String} :
    i.verbatim resource text = i.verbatim resource' text ↔ resource = resource' := by
  rw [← String.toList_inj, verbatim_toList, verbatim_toList, List.append_cancel_left_eq,
    List.append_cancel_right_eq, String.toList_inj]

theorem verbatim_of_not_takesText {i : Item} (htext : i.takesText = false) (resource : String)
    (text text' : Option String) : i.verbatim resource text = i.verbatim resource text' := by
  have hclosing : Text.occurs textPlace.toList i.closing = false :=
    i.pattern_spec.2.2.2.trans htext
  rw [← String.toList_inj, verbatim_toList, verbatim_toList,
    Text.replaceAll_of_not_occurs hclosing, Text.replaceAll_of_not_occurs hclosing]

theorem message_eq_verbatim_iff (i : Item) (resource : String) (text : Option String) :
    i.message resource text = i.verbatim resource text ↔
      IsPlain resource ∨ text.getD unknownText = textPlace := by
  rw [message_eq_verbatim, verbatim_inj, ← String.toList_inj, Text.replace, String.toList_ofList,
    Text.replaceAll_eq_self_iff textPlace_ne_nil, String.toList_inj]
  rfl

/-- How a kind of event words its messages about a resource. -/
structure Wording (i : Item) (resource : String) : Prop where
  /-- The text is filled in for its place in the pattern, and for its place in the resource. -/
  replaced : ∀ text, i.message resource text =
    i.verbatim (Text.replace textPlace (text.getD unknownText) resource) text
  /-- The message is worded as it is meant to be if the resource holds no place for a text, and
  otherwise only if the text reads like its own place. -/
  verbatim : ∀ text, i.message resource text = i.verbatim resource text ↔
    IsPlain resource ∨ text.getD unknownText = textPlace
  /-- The message holds a resource without such a place as it is. -/
  keeps : IsPlain resource → ∀ text, resource.toList <:+: (i.message resource text).toList
  /-- A kind without a place for a text ignores the text, if the resource has no place for one
  either. -/
  ignores : IsPlain resource → i.takesText = false →
    ∀ text text', i.message resource text = i.message resource text'
  /-- The message of a failure tells its text, whatever the resource is. -/
  tells : i.takesText = true → ∀ text text', text ≠ text' →
    i.message resource (some text) ≠ i.message resource (some text')

/-- Messages are worded as they are meant to be, but for the place of a text in a resource. -/
theorem wording (i : Item) (resource : String) : i.Wording resource where
  replaced := i.message_eq_verbatim resource
  verbatim := i.message_eq_verbatim_iff resource
  keeps hplain text := by
    rw [(i.message_eq_verbatim_iff resource text).2 (.inl hplain), verbatim_toList]
    exact ⟨_, _, List.append_assoc ..⟩
  ignores hplain htext text text' := by
    have hworded : ∀ text, i.message resource text = i.verbatim resource text := fun text =>
      (i.message_eq_verbatim_iff resource text).2 (.inl hplain)
    rw [hworded, hworded]
    exact verbatim_of_not_takesText htext resource text text'
  tells htext text text' hother h := hother (message_injective htext h)

/-- A resource that reads like the place of a text is not told.  An event that takes no text tells
the text instead. -/
theorem resource_untold :
    resourceCreated.takesText = false ∧
      resourceCreated.message "\x7btext\x7d" (some "pod rejected") =
        "Domain resource pod rejected was created" ∧
      resourceCreated.verbatim "\x7btext\x7d" (some "pod rejected") =
        "Domain resource \x7btext\x7d was created" ∧
      ¬ "\x7btext\x7d".toList <:+:
        (resourceCreated.message "\x7btext\x7d" (some "pod rejected")).toList ∧
      resourceCreated.message "\x7btext\x7d" (some "pod rejected") ≠
        resourceCreated.message "\x7btext\x7d" none := by
  decide +kernel

end Item

end Reconcile
