import Reconcile.Fault

/-!
# Operator identity

Events say which operator produced them: the namespace it runs in and its pod. Both are read
anew for every emission, so a change is picked up by the next one. An empty value counts as
missing, and the namespace is asked for first.
-/

namespace Reconcile

/-- The setting that holds the operator's namespace. -/
def namespaceSetting : String := "OPERATOR_NAMESPACE"

/-- The setting that holds the name of the operator's pod. -/
def podSetting : String := "OPERATOR_POD_NAME"

/-- What is known of the operator at some moment. -/
structure Identity where
  ns : Option String
  pod : Option String
deriving DecidableEq, Repr, Inhabited

/-- A complete identity. -/
structure ResolvedIdentity where
  ns : String
  pod : String
deriving DecidableEq, Repr

/-- A setting that must be present and not empty. -/
def requireSetting (key : String) : Option String → Except Fault String
  | some value => if value = "" then .error (.missingSetting key) else .ok value
  | none => .error (.missingSetting key)

namespace Identity

/-- Both values, or the first that is missing. -/
def resolve (i : Identity) : Except Fault ResolvedIdentity := do
  let ns ← requireSetting namespaceSetting i.ns
  let pod ← requireSetting podSetting i.pod
  return ⟨ns, pod⟩

/-- The identity of an environment of raw values; one that is not valid text is missing. -/
def ofEnvironment (lookUp : String → Option ByteArray) : Identity :=
  let text (key : String) := (lookUp key).bind String.fromUTF8?
  ⟨text namespaceSetting, text podSetting⟩

/-- A setting is present exactly when it is some non-empty text. -/
theorem requireSetting_eq_ok_iff {key v : String} {value : Option String} :
    requireSetting key value = .ok v ↔ value = some v ∧ v ≠ "" := by
  cases value with
  | none => simp [requireSetting]
  | some w => grind [requireSetting]

/-- Resolution succeeds exactly when both values are present and not empty. -/
theorem resolve_eq_ok_iff {i : Identity} {r : ResolvedIdentity} :
    i.resolve = .ok r ↔ (i.ns = some r.ns ∧ r.ns ≠ "") ∧ i.pod = some r.pod ∧ r.pod ≠ "" := by
  obtain ⟨ns, pod⟩ := i
  obtain ⟨rn, rp⟩ := r
  rw [← @requireSetting_eq_ok_iff namespaceSetting, ← @requireSetting_eq_ok_iff podSetting]
  unfold resolve
  cases requireSetting namespaceSetting ns <;> cases requireSetting podSetting pod <;>
    simp [bind, Except.bind, pure, Except.pure]

end Identity

end Reconcile
