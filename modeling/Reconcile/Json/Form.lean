import Reconcile.Json.Reader
import Reconcile.Time.Stamp

/-!
# Forms of documents

A form says what a document may look like. A document is read straight from its text by its
form. Fields that a record does not name are passed over, so what stands in them need not
make sense; of a field that comes twice the later stands. The result holds the named fields
only.
-/

namespace Reconcile

/-- What a document may look like. -/
inductive Form
  /-- Any value. -/
  | any
  | text
  /-- Exactly this text. -/
  | constant (text : String)
  | integer (low high : Int)
  | flag
  /-- The text of a time stamp. -/
  | time
  /-- A value of a form, or null. -/
  | nullable (form : Form)
  | list (item : Form)
  /-- An object with any fields, all of one form. -/
  | table (item : Form)
  /-- An object with known fields, each of which may be missing. -/
  | record (fields : List (String × Form))
  /-- A record in which no field comes twice, or the list of all its values. -/
  | entry (fields : List (String × Form))

namespace Form

/-- How a form is named when something else was met. -/
def expectation : Form → String
  | any => "a value"
  | text => "a string"
  | constant s => Text.quoted s
  | integer low high => "an integer from " ++ toString low ++ " to " ++ toString high
  | flag => "a boolean"
  | time => "a time stamp"
  | nullable form => form.expectation
  | list _ => "a sequence"
  | table _ | record _ | entry _ => "a map"

/-- Whether a value that has no parts to be read one by one is of a form. -/
def holds : Form → Json → Bool
  | any, _ => true
  | text, .string _ => true
  | constant s, .string t => s = t
  | integer low high, .int n => low ≤ n && n ≤ high
  | flag, .bool _ => true
  | time, .string s => (Calendar.Stamp.ofText? s).isSome
  | _, _ => false

/-- A signed integer with the given number of bits besides its sign. -/
def signed (bits : Nat) : Form :=
  integer (-(Number.twoTo bits : Int)) ((Number.twoTo bits : Int) - 1)

/-- An unsigned integer with the given number of bits. -/
def unsigned (bits : Nat) : Form := integer 0 ((Number.twoTo bits : Int) - 1)

/-! ## Reading -/

/-- Passes an opening bracket and gives what is left of the permitted nesting. -/
def enter (bracket : Char) (expected : String) (depth : Nat) : Reader Nat := do
  if (← Reader.blanks) = some bracket then
    match depth with
    | 0 => Reader.failAhead .tooDeep
    | depth + 1 => do
      let _ ← Reader.advance
      return depth
  else Reader.wrongKind expected

/-- The object of fields of which none may come twice. -/
def distinct (fields : List (String × Json)) : Reader Json :=
  match fields.find? fun f => 1 < fields.countP fun g => g.1 = f.1 with
  | some f => Reader.misfit (.duplicateField f.1)
  | none => return .ofFields fields

mutual

/-- Reads a value of a form; `depth` is what is left of the permitted nesting. -/
def read : (fuel depth : Nat) → Form → Reader Json
  | 0, _, _ => Reader.fail .tooDeep
  | fuel + 1, depth, form =>
    match form with
    | nullable form => do
      if (← Reader.blanks) = some 'n' then Reader.wholeValue depth else read fuel depth form
    | list item => do
      let depth ← enter '[' form.expectation depth
      let items ← readItems fuel depth item true
      Reader.endList
      return .array items
    | table item => do
      let depth ← enter '{' form.expectation depth
      let fields ← readFields fuel depth (fun _ => some item) true
      Reader.endObject
      return .ofFields fields
    | record fields => do
      let depth ← enter '{' form.expectation depth
      let found ← readFields fuel depth (fields.lookup ·) true
      Reader.endObject
      return .ofFields found
    | entry fields => do
      if (← Reader.blanks) = some '[' then
        let depth ← enter '[' form.expectation depth
        let found ← readValues fuel depth fields 0
        Reader.endList
        return .ofFields found
      else
        let depth ← enter '{' form.expectation depth
        let found ← readFields fuel depth (fields.lookup ·) true
        Reader.endObject
        distinct found
    | form => do
      let v ← Reader.wholeValue depth
      if form.holds v then return v else Reader.misfit (v.unexpected form.expectation)

/-- Reads the items of a list up to its closing bracket. -/
def readItems : (fuel depth : Nat) → Form → (first : Bool) → Reader (List Json)
  | 0, _, _, _ => Reader.fail .tooDeep
  | fuel + 1, depth, item, first => do
    if ← Reader.nextItem first then
      let v ← read fuel depth item
      return v :: (← readItems fuel depth item false)
    else return []

/-- Reads the fields of an object up to its closing brace and keeps those that have a form. -/
def readFields : (fuel depth : Nat) → (String → Option Form) → (first : Bool) →
    Reader (List (String × Json))
  | 0, _, _, _ => Reader.fail .tooDeep
  | fuel + 1, depth, form?, first => do
    if ← Reader.nextKey first then
      let name ← Reader.string
      Reader.colon
      match form? name with
      | none => do
        Reader.skipValue
        readFields fuel depth form? false
      | some form => do
        let v ← read fuel depth form
        return (name, v) :: (← readFields fuel depth form? false)
    else return []

/-- Reads the values of known fields from a list, which must have them all. -/
def readValues : (fuel depth : Nat) → List (String × Form) → (count : Nat) →
    Reader (List (String × Json))
  | 0, _, _, _ => Reader.fail .tooDeep
  | _, _, [], _ => return []
  | fuel + 1, depth, (name, form) :: rest, count => do
    if ← Reader.nextItem (count = 0) then
      let v ← read fuel depth form
      return (name, v) :: (← readValues fuel depth rest (count + 1))
    else
      Reader.misfit (.invalidLength count
        ("a sequence of " ++ toString (count + rest.length + 1) ++ " elements"))

end

/-- Reads a whole text by a form. -/
def parse (form : Form) (text : String) : Except Complaint Json :=
  Reader.readAll (read (3 * text.length + 4) Reader.depthLimit form) text

end Form

end Reconcile
