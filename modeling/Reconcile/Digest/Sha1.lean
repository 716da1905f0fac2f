/-!
# SHA-1

The message digest of FIPS 180: the message is padded to whole blocks of sixteen words, and
each block is mixed into five words of state over eighty rounds.
-/

namespace Reconcile.Digest

/-- The five words carried from block to block. -/
structure State where
  a : UInt32
  b : UInt32
  c : UInt32
  d : UInt32
  e : UInt32

namespace State

/-- The state before the first block. -/
def initial : State := ⟨0x67452301, 0xEFCDAB89, 0x98BADCFE, 0x10325476, 0xC3D2E1F0⟩

/-- Word by word addition. -/
def add (s t : State) : State := ⟨s.a + t.a, s.b + t.b, s.c + t.c, s.d + t.d, s.e + t.e⟩

/-- The words in big-endian byte order. -/
def bytes (s : State) : List UInt8 :=
  [s.a, s.b, s.c, s.d, s.e].flatMap fun (w : UInt32) =>
    [(w >>> 24).toUInt8, (w >>> 16).toUInt8, (w >>> 8).toUInt8, w.toUInt8]

end State

/-- Rotation to the left; `n` is between 1 and 31. -/
def rotate (w : UInt32) (n : UInt32) : UInt32 := (w <<< n) ||| (w >>> (32 - n))

/-- The mixing function and constant of a round. -/
def mixing (round : Nat) (b c d : UInt32) : UInt32 × UInt32 :=
  if round < 20 then ((b &&& c) ||| (~~~b &&& d), 0x5A827999)
  else if round < 40 then (b ^^^ c ^^^ d, 0x6ED9EBA1)
  else if round < 60 then ((b &&& c) ||| (b &&& d) ||| (c &&& d), 0x8F1BBCDC)
  else (b ^^^ c ^^^ d, 0xCA62C1D6)

/-- One round with its word of the schedule. -/
def step (s : State) (round : Nat) (word : UInt32) : State :=
  let (f, k) := mixing round s.b s.c s.d
  ⟨rotate s.a 5 + f + s.e + k + word, s.a, rotate s.b 30, s.c, s.d⟩

/-- The sixteen words of a block, extended by `extra` words. -/
def schedule (words : Array UInt32) : (extra : Nat) → Array UInt32
  | 0 => words
  | extra + 1 =>
    let w := schedule words extra
    let n := w.size
    w.push (rotate (w.getD (n - 3) 0 ^^^ w.getD (n - 8) 0 ^^^ w.getD (n - 14) 0
      ^^^ w.getD (n - 16) 0) 1)

/-- Mixes one block into the state. -/
def block (s : State) (words : Array UInt32) : State :=
  let w := schedule words 64
  s.add ((List.range 80).foldl (fun t i => step t i (w.getD i 0)) s)

/-- The message followed by one set bit, zeros, and its length in bits. -/
def padded (message : List UInt8) : List UInt8 :=
  let zeros := (119 - message.length % 64) % 64
  let bits := 8 * message.length
  message ++ ((0x80 : UInt8) :: List.replicate zeros 0 ++
    (List.range 8).map fun i => UInt8.ofNat (bits >>> (8 * (7 - i))))

/-- The big-endian words of a byte sequence; a last group of less than four is dropped. -/
def words : List UInt8 → List UInt32
  | a :: b :: c :: d :: rest =>
    ((a.toUInt32 <<< 24) ||| (b.toUInt32 <<< 16) ||| (c.toUInt32 <<< 8) ||| d.toUInt32)
      :: words rest
  | _ => []

/-- Mixes all whole blocks; `fuel` bounds their number. -/
def blocks : (fuel : Nat) → State → List UInt32 → State
  | 0, s, _ => s
  | fuel + 1, s, ws =>
    if ws.length < 16 then s else blocks fuel (block s (ws.take 16).toArray) (ws.drop 16)

/-- The digest of a message, twenty bytes. -/
def sha1 (message : List UInt8) : List UInt8 :=
  let ws := words (padded message)
  (blocks ws.length State.initial ws).bytes

end Reconcile.Digest
