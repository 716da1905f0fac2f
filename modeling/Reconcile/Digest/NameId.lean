import Reconcile.Digest.Sha1

/-!
# Identifiers derived from names

A name-based identifier (RFC 4122, version 5) is the beginning of the digest of a name space
and a name, with its version and variant bits set. Equal names give equal identifiers.
-/

namespace Reconcile.Digest

/-- The name space of object identifiers. -/
def objectNameSpace : List UInt8 :=
  [0x6b, 0xa7, 0xb8, 0x12, 0x9d, 0xad, 0x11, 0xd1, 0x80, 0xb4, 0x00, 0xc0, 0x4f, 0xd4, 0x30, 0xc8]

/-- Sets the version and variant bits of the sixteen bytes. -/
def stamped (bytes : List UInt8) : List UInt8 :=
  bytes.mapIdx fun i b =>
    if i = 6 then (b &&& 0x0f) ||| 0x50
    else if i = 8 then (b &&& 0x3f) ||| 0x80
    else b

/-- The identifier of a name within a name space. -/
def nameId (space : List UInt8) (name : String) : List UInt8 :=
  stamped ((sha1 (space ++ name.toUTF8.toList)).take 16)

/-- Two lower-case hexadecimal digits. -/
def hexByte (b : UInt8) : List Char :=
  [Nat.digitChar (b.toNat / 16), Nat.digitChar (b.toNat % 16)]

/-- Bytes as hexadecimal digits without separators. -/
def hexText (bytes : List UInt8) : String := String.ofList (bytes.flatMap hexByte)

end Reconcile.Digest
