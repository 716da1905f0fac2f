/-!
# Spans of time

A span is a whole number of nanoseconds. Timers work in milliseconds and never fire early,
so a span is rounded up when it becomes a deadline.
-/

namespace Reconcile

/-- A length of time. -/
structure Span where
  nanos : Nat
deriving DecidableEq, Repr, Inhabited

namespace Span

/-- No time at all. -/
def zero : Span := ⟨0⟩

/-- A number of milliseconds. -/
def ofMillis (n : Nat) : Span := ⟨n * 1000000⟩

/-- A number of seconds. -/
def ofSeconds (n : Nat) : Span := ⟨n * 1000000000⟩

/-- The whole seconds. -/
def seconds (s : Span) : Nat := s.nanos / 1000000000

/-- The nanoseconds beyond the whole seconds. -/
def subsecond (s : Span) : Nat := s.nanos % 1000000000

/-- The milliseconds after which a timer for this span fires. -/
def millisUp (s : Span) : Nat := (s.nanos + 999999) / 1000000

instance : LE Span := ⟨fun s t => s.nanos ≤ t.nanos⟩

instance (s t : Span) : Decidable (s ≤ t) := inferInstanceAs (Decidable (s.nanos ≤ t.nanos))

theorem le_def {s t : Span} : s ≤ t ↔ s.nanos ≤ t.nanos := Iff.rfl

theorem le_antisymm {s t : Span} (h : s ≤ t) (h' : t ≤ s) : s = t :=
  congrArg mk (Nat.le_antisymm h h')

/-- The longer of two spans. -/
def max (s t : Span) : Span := ⟨Nat.max s.nanos t.nanos⟩

/-- The shorter of two spans. -/
def min (s t : Span) : Span := ⟨Nat.min s.nanos t.nanos⟩

/-- Whether a span lies between two others, ends included. -/
def within (s low high : Span) : Bool := low ≤ s && s ≤ high

/-- The seconds and the nanoseconds beyond them make up the span. -/
theorem seconds_add_subsecond (s : Span) : s.seconds * 1000000000 + s.subsecond = s.nanos := by
  unfold seconds subsecond; omega

/-- A timer never fires before its span is over. -/
theorem nanos_le_millisUp (s : Span) : s.nanos ≤ s.millisUp * 1000000 := by
  unfold millisUp; omega

/-- A whole number with a fraction of `width` digits, without zeros at the end. -/
def decimalText (whole fraction width : Nat) : String :=
  let digits := Nat.toDigits 10 fraction
  let padded := List.replicate (width - digits.length) '0' ++ digits
  let shown := (padded.reverse.dropWhile (· = '0')).reverse
  toString whole ++ if shown = [] then "" else "." ++ String.ofList shown

/-- The span in the largest unit of which it holds at least one. -/
def text (s : Span) : String :=
  if 0 < s.seconds then decimalText s.seconds s.subsecond 9 ++ "s"
  else if 1000000 ≤ s.nanos then
    decimalText (s.nanos / 1000000) (s.nanos % 1000000) 6 ++ "ms"
  else if 1000 ≤ s.nanos then decimalText (s.nanos / 1000) (s.nanos % 1000) 3 ++ "µs"
  else toString s.nanos ++ "ns"

end Span

end Reconcile
