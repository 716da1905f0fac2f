/-!
# Lifecycle markers

An attempt remembers which lifecycle events it has emitted. The correlation rules read these
markers; they say, for instance, that COMPLETED needs an earlier STARTING. Recording a marker
tells whether it is new. The history lists the reasons of the emitted events in order.
-/

namespace Reconcile

/-- The failure that the latest FAILED event of an attempt reported. -/
structure FailureMarker where
  reason : String
  message : String
deriving DecidableEq, Repr

/-- The lifecycle events of an attempt so far. -/
structure Markers where
  starting : Bool
  retrying : Bool
  completed : Bool
  aborted : Bool
  failure : Option FailureMarker
  history : List String
deriving DecidableEq, Repr

namespace Markers

/-- The markers of a new attempt. -/
def initial : Markers := ⟨false, false, false, false, none, []⟩

/-- The markers that an event can leave. -/
inductive Marker
  | starting
  | retrying
  | completed
  | aborted
  | failure (marker : FailureMarker)
deriving DecidableEq, Repr

/-- The kinds of markers. -/
inductive Kind
  | starting
  | retrying
  | completed
  | aborted
  | failure
deriving DecidableEq, Repr

/-- Whether a marker of a kind is on record. -/
def has (m : Markers) : Kind → Bool
  | .starting => m.starting
  | .retrying => m.retrying
  | .completed => m.completed
  | .aborted => m.aborted
  | .failure => m.failure.isSome

/-- Whether recording a marker would change anything. -/
def isNew (m : Markers) : Marker → Bool
  | .starting => !m.starting
  | .retrying => !m.retrying
  | .completed => !m.completed
  | .aborted => !m.aborted
  | .failure f => m.failure ≠ some f

/-- Records a marker. A failure replaces the one on record. -/
def record (m : Markers) : Marker → Markers
  | .starting => { m with starting := true }
  | .retrying => { m with retrying := true }
  | .completed => { m with completed := true }
  | .aborted => { m with aborted := true }
  | .failure f => { m with failure := some f }

/-- Appends the reason of an emitted event. -/
def pushHistory (m : Markers) (reason : String) : Markers :=
  { m with history := m.history ++ [reason] }

/-- Recording a marker that is not new changes nothing. -/
theorem record_of_not_isNew {m : Markers} {k : Marker} (h : m.isNew k = false) :
    m.record k = m := by
  obtain ⟨s, r, c, a, f, hist⟩ := m
  cases k <;> simp_all [isNew, record]

@[simp] theorem history_record (m : Markers) (k : Marker) : (m.record k).history = m.history := by
  cases k <;> rfl

end Markers

end Reconcile
