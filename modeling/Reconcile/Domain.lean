import Reconcile.Json.Reader

/-!
# Managed domains

A domain is the resource an attempt brings in line with the cluster. It is known by its uid,
which stands in messages and labels; the name of its object defaults to the uid.

A domain is written as a JSON object of five fields and read from such an object, in any
order and with other fields ignored, or from the list of the five values. A domain in a text
is read straight from the text, so that the first fault in the text is the one reported.
-/

namespace Reconcile

/-- The group and version of the domain resource. -/
def domainApiVersion : String := "weblogic.oracle/v8"

/-- The kind of the domain resource. -/
def domainKind : String := "Domain"

/-- A reference to a managed domain. -/
structure Domain where
  uid : String
  name : String
  ns : String
  apiVersion : String
  kind : String
deriving DecidableEq, Repr

namespace Domain

/-- A domain whose object is named after its uid. -/
def named (uid ns : String) : Domain := ⟨uid, uid, ns, domainApiVersion, domainKind⟩

/-- The domain as it stands in logs. -/
def display (d : Domain) : String := d.ns ++ "/" ++ d.uid

/-! ## The written form -/

/-- The fields in the order in which a list gives them. -/
def fieldNames : List String := ["uid", "name", "namespace", "apiVersion", "kind"]

/-- The domain as a JSON object. -/
def toJson (d : Domain) : Json :=
  .ofFields [("uid", .string d.uid), ("name", .string d.name), ("namespace", .string d.ns),
    ("apiVersion", .string d.apiVersion), ("kind", .string d.kind)]

/-- What a reader of a domain expects. -/
def expectation : String := "struct DomainRef"

/-- The domain of values found by field name; the first missing field is reported. -/
def ofFound (found : List (String × String)) : Except Mismatch Domain := do
  let get (name : String) : Except Mismatch String :=
    match found.lookup name with
    | some value => .ok value
    | none => .error (.missingField name)
  return ⟨← get "uid", ← get "name", ← get "namespace", ← get "apiVersion", ← get "kind"⟩

/-- The values of the known fields of an object, in its order. -/
def foundFields : List (String × Json) → Except Mismatch (List (String × String))
  | [] => .ok []
  | (name, value) :: rest => do
    if name ∈ fieldNames then
      let value ← value.readString
      return (name, value) :: (← foundFields rest)
    else foundFields rest

/-- The values of a list of the fields, in their order. -/
def foundItems (names : List String) (items : List Json) (count : Nat) :
    Except Mismatch (List (String × String)) :=
  match names, items with
  | [], _ => .ok []
  | _ :: _, [] => .error (.invalidLength count (expectation ++ " with 5 elements"))
  | name :: names, item :: items => do
    let value ← item.readString
    return (name, value) :: (← foundItems names items (count + 1))

/-- Reads a domain from a value. -/
def ofJson : Json → Except Mismatch Domain
  | .object fields => do ofFound (← foundFields fields)
  | .array items => do
    let domain ← ofFound (← foundItems fieldNames items 0)
    if items.length ≤ fieldNames.length then return domain
    else throw (.invalidLength items.length "fewer elements in array")
  | v => .error (v.unexpected expectation)

/-! ## Reading from a text -/

/-- Reads a string. -/
def textString : Reader String := do
  match ← Reader.blanks with
  | none => Reader.failAhead .endInValue
  | some '"' => do
    let _ ← Reader.advance
    Reader.string
  | some _ => Reader.wrongKind "a string"

/-- Reads the fields of an object behind its brace. A field that comes twice is reported as
soon as its name has been read. -/
def textFields : (fuel : Nat) → (first : Bool) → List (String × String) →
    Reader (Except Mismatch (List (String × String)))
  | 0, _, found => return .ok found
  | fuel + 1, first, found => do
    if ← Reader.nextKey first then
      let name ← Reader.string
      if name ∈ fieldNames then
        if found.any (·.1 = name) then return .error (.duplicateField name)
        else
          Reader.colon
          let value ← textString
          textFields fuel false (found ++ [(name, value)])
      else
        Reader.colon
        Reader.skipValue
        textFields fuel false found
    else return .ok found

/-- Reads the values of a list behind its bracket. -/
def textItems (count : Nat) : List String → Reader (Except Mismatch (List (String × String)))
  | [] => return .ok []
  | name :: names => do
    if ← Reader.nextItem (count = 0) then
      let value ← textString
      match ← textItems (count + 1) names with
      | .ok found => return .ok ((name, value) :: found)
      | .error m => return .error m
    else return .error (.invalidLength count (expectation ++ " with 5 elements"))

/-- The domain found behind the end of a list or object. What is wrong with the fields wins
over a fault in the end, but is placed where the reader stands by then. -/
def closing (found : Except Mismatch (List (String × String))) (ending : Reader Unit) :
    Reader Domain := fun c =>
  match found.bind ofFound, ending c with
  | .ok domain, .ok ((), c') => .ok (domain, c')
  | .ok _, .error e => .error e
  | .error m, .ok ((), c') => Reader.misfit m c'
  | .error m, .error _ => (do let _ ← Reader.blanks; Reader.misfit m : Reader Domain) c

/-- Reads a domain. -/
def fromText : Reader Domain := do
  match ← Reader.blanks with
  | none => Reader.failAhead .endInValue
  | some '[' => do
    let _ ← Reader.advance
    closing (← textItems 0 fieldNames) Reader.endList
  | some '{' => do
    let _ ← Reader.advance
    let c ← get
    closing (← textFields (c.bound + 1) true []) Reader.endObject
  | some _ => Reader.wrongKind expectation

/-- Reads a whole text as a domain. -/
def parse (text : String) : Except Complaint Domain := Reader.readAll fromText text

end Domain

end Reconcile
