import Reconcile.Registry

/-!
# Holders of guards

A registry together with those who have begun attempts in it. A holder is known by a name and
holds one guard at a time; one that begins another attempt lets its earlier guard go.
-/

namespace Reconcile.Rehearsal

/-- A registry and the holders of its guards. -/
structure Holders where
  registry : Registry
  /-- The holder and the token of every attempt that was begun, oldest first. -/
  begun : List (String × Nat)
  guards : Table String Guard

namespace Holders

/-- An empty registry without holders. -/
def initial : Holders := ⟨.empty, [], ∅⟩

/-- Releases the guard that a holder has, if it has one. -/
def releaseHeld (h : Holders) (held : Option Guard) : Holders :=
  match held with
  | some g => { h with registry := h.registry.release g }
  | none => h

/-- A holder begins an attempt. -/
def begin (h : Holders) (name uid : String) (attempt : Nat) : Holders :=
  let (g, registry) := h.registry.begin uid attempt
  let next : Holders := ⟨registry, h.begun ++ [(name, g.token)], h.guards.insert name g⟩
  next.releaseHeld (h.guards.get? name)

/-- A holder lets its guard go. -/
def drop (h : Holders) (name : String) : Holders :=
  { h.releaseHeld (h.guards.get? name) with guards := h.guards.erase name }

/-- Replaces the registry. -/
def setRegistry (h : Holders) (r : Registry) : Holders := { h with registry := r }

/-- The holders of the attempts that were cancelled, in the order of their beginnings. -/
def cancelled (h : Holders) : List String :=
  (h.begun.filter fun b => h.registry.isCancelled b.2).map (·.1)

end Holders

end Reconcile.Rehearsal
