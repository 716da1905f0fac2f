/-!
# Addresses

The address of a request is a path, perhaps with a query behind a question mark. Some
characters may not stand in an address; a number sign ends it, and what follows does not
count.
-/

namespace Reconcile.Cluster

/-- The address of a request. -/
structure Address where
  path : String
  query : Option String
deriving DecidableEq, Repr

namespace Address

/-- The length in bytes that no address exceeds. -/
def maxLength : Nat := 65534

/-- Whether a character is a blank or a control character of ASCII. -/
def isBlankOrControl (c : Char) : Bool := c.toNat ≤ 0x20 || c.toNat = 0x7F

/-- Whether a character may stand in a query. Characters beyond ASCII may stand everywhere. -/
def inQuery (c : Char) : Bool :=
  !isBlankOrControl c && !(['"', '#', '<', '>'].contains c)

/-- Whether a character may stand in a path. -/
def inPath (c : Char) : Bool :=
  !isBlankOrControl c && !(['#', '<', '>', '?', '\x60'].contains c)

/-- The address that a text shows, if it is one. -/
def ofText? (s : String) : Option Address :=
  let shown := s.toList.takeWhile (· ≠ '#')
  let path := shown.takeWhile (· ≠ '?')
  let query := shown.dropWhile (· ≠ '?')
  if s.utf8ByteSize ≤ maxLength && path.all inPath && query.tail.all inQuery then
    some ⟨.ofList path, if query.isEmpty then none else some (.ofList query.tail)⟩
  else none

end Address

end Reconcile.Cluster
