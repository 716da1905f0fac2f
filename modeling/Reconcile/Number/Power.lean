/-!
# Powers of two and ten

The bounds of fixed-width numbers are powers of two, and decimal exponents are powers of ten.
-/

namespace Reconcile.Number

/-- A power of two. -/
def twoTo (n : Nat) : Nat := Nat.pow 2 n

/-- A power of ten. -/
def tenTo (n : Nat) : Nat := Nat.pow 10 n

end Reconcile.Number
