/-!
# Replacing a phrase

`replaceAll needle filler text` puts `filler` in place of every occurrence of `needle`,
scanning from left to right; occurrences do not overlap, and what has been filled in is not
scanned again.
-/

namespace Reconcile.Text

/-- The scan behind `replaceAll`; `skip` counts the characters of the current occurrence
that are still to be passed over. -/
def replaceFrom (needle filler : List Char) : (skip : Nat) → List Char → List Char
  | _, [] => []
  | skip + 1, _ :: rest => replaceFrom needle filler skip rest
  | 0, c :: rest =>
    if needle.isPrefixOf (c :: rest) then
      filler ++ replaceFrom needle filler (needle.length - 1) rest
    else
      c :: replaceFrom needle filler 0 rest

/-- Replaces every occurrence of a non-empty phrase, left to right, without overlap. -/
def replaceAll (needle filler text : List Char) : List Char :=
  replaceFrom needle filler 0 text

/-- Whether a phrase occurs somewhere in a text. -/
def occurs (needle : List Char) : List Char → Bool
  | [] => needle.isEmpty
  | c :: rest => needle.isPrefixOf (c :: rest) || occurs needle rest

/-- A text without the phrase is left as it is. -/
theorem replaceAll_of_not_occurs {needle filler text : List Char}
    (h : occurs needle text = false) : replaceAll needle filler text = text := by
  unfold replaceAll
  induction text with
  | nil => rfl
  | cons c rest ih =>
    simp only [occurs, Bool.or_eq_false_iff] at h
    simp [replaceFrom, h.1, ih h.2]

/-- `replaceAll` on strings. -/
def replace (needle filler text : String) : String :=
  String.ofList (replaceAll needle.toList filler.toList text.toList)

end Reconcile.Text
