import Reconcile.Cluster.Call
import Reconcile.Cluster.Schema

/-!
# Answers of the cluster interface

An answer has a status and a body. An error status comes with a description of the refusal; a
body that is none is quoted instead. Any other answer must be an event.
-/

namespace Reconcile.Cluster

/-- An answer as it comes in. -/
structure Answer where
  status : Nat
  text : String
deriving DecidableEq, Repr

/-- The standard phrases of error statuses. -/
def phrases : List (Nat × String) :=
  [(400, "Bad Request"), (401, "Unauthorized"), (402, "Payment Required"), (403, "Forbidden"),
    (404, "Not Found"), (405, "Method Not Allowed"), (406, "Not Acceptable"),
    (407, "Proxy Authentication Required"), (408, "Request Timeout"), (409, "Conflict"),
    (410, "Gone"), (411, "Length Required"), (412, "Precondition Failed"),
    (413, "Payload Too Large"), (414, "URI Too Long"), (415, "Unsupported Media Type"),
    (416, "Range Not Satisfiable"), (417, "Expectation Failed"), (418, "I'm a teapot"),
    (421, "Misdirected Request"), (422, "Unprocessable Entity"), (423, "Locked"),
    (424, "Failed Dependency"), (425, "Too Early"), (426, "Upgrade Required"),
    (428, "Precondition Required"), (429, "Too Many Requests"),
    (431, "Request Header Fields Too Large"), (451, "Unavailable For Legal Reasons"),
    (500, "Internal Server Error"), (501, "Not Implemented"), (502, "Bad Gateway"),
    (503, "Service Unavailable"), (504, "Gateway Timeout"), (505, "HTTP Version Not Supported"),
    (506, "Variant Also Negotiates"), (507, "Insufficient Storage"), (508, "Loop Detected"),
    (510, "Not Extended"), (511, "Network Authentication Required")]

/-- A status with its phrase. -/
def statusText (status : Nat) : String :=
  toString status ++ " " ++
    (((phrases.find? fun p => p.1 = status).map (·.2)).getD "<unknown status code>")

/-- Whether a status says that the call failed. -/
def isErrorStatus (status : Nat) : Bool := 400 ≤ status && status < 600

/-! ## Refusals -/

/-- A text in a field, if there is one. -/
def fieldText? (name : String) (v : Json) : Option String :=
  match v.field? name with
  | some (.string s) => some s
  | _ => none

/-- A number in a field, if there is one. -/
def fieldNumber? (name : String) (v : Json) : Option Int :=
  match v.field? name with
  | some (.int n) => some n
  | _ => none

/-- The description of a refusal in a document of its form. The message and the reason may be
missing. -/
def ApiStatus.ofJson? (v : Json) : Option ApiStatus := do
  return ⟨← fieldText? "status" v, (fieldText? "message" v).getD "",
    (fieldText? "reason" v).getD "", (← fieldNumber? "code" v).toNat⟩

/-- The refusal of an answer with an error status. -/
def Answer.refusal (a : Answer) : ApiStatus :=
  match (refusalForm.parse a.text).toOption.bind ApiStatus.ofJson? with
  | some status => status
  | none => ⟨statusText a.status, Text.quoted a.text, "Failed to parse error data", a.status⟩

/-! ## Events -/

/-- What matters of an event in a document of its form. -/
def Existing.ofJson (v : Json) : Existing :=
  ⟨(v.field? "metadata").bind (fieldText? "resourceVersion"), fieldNumber? "count" v⟩

/-- What an answer says. -/
def Answer.read (a : Answer) : Except ApiFault Existing :=
  if isErrorStatus a.status then .error (.refused a.refusal)
  else
    match eventForm.parse a.text with
    | .ok v => .ok (.ofJson v)
    | .error _ => .error .unreadable

end Reconcile.Cluster
