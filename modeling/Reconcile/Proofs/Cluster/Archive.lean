import Mathlib.Logic.Function.Basic
import Reconcile.Proofs.Cluster.Server

/-!
# Whole events in a cluster

`View` shows of an event what matters for counting.  Here an event is seen with all its fields
(`Filed`), in a cluster that serves every call of a lone writer (`Serves`).  A patch of an event
changes what it names and leaves the rest as it is (`Json.merge`).

One after another, records are put into such a cluster (`Deposits`).  Each of them is stored, and
what then stands at a place is told by the records that belong there: the first one made the
event, the latest one gave it its message, and the count is their number (`Accounts`).
-/

namespace Reconcile

namespace Json

/-- The fields of an object. -/
def fields : Json → List (String × Json)
  | object fields => fields
  | _ => []

mutual

/-- A merge patch.  An object changes the fields that it names, anything else stands for what was
there before. -/
def merge (target : Json) : Json → Json
  | object changes => object (mergeFields target.fields changes)
  | value => value

/-- A merge patch of some fields.  A field that the patch has as null is taken out. -/
def mergeFields (fields : List (String × Json)) : List (String × Json) → List (String × Json)
  | [] => fields
  | (name, null) :: rest => mergeFields (fields.filter (·.1 ≠ name)) rest
  | (name, value) :: rest =>
    let old := (field? name (object fields)).getD null
    mergeFields (enter name (merge old value) fields) rest

end

end Json

namespace Cluster

namespace EventObject

/-- An event with one more occurrence. -/
def amend (o : EventObject) (change : Increment) : EventObject :=
  { o with count := change.count, lastTime := change.time, message := change.message }

/-- Apart from the version, which a cluster checks and gives itself, an increment is a merge patch
of the event. -/
theorem toJson_amend (o : EventObject) {change : Increment} (h : change.version = none) :
    (o.amend change).toJson = o.toJson.merge change.toJson := by
  obtain ⟨version, count, message, time⟩ := change
  obtain rfl : version = none := h
  -- All fields have literal names, so both sides come down to the same list of them.
  simp only [toJson, Increment.toJson, amend, Json.ofFields, Json.enter, Json.merge,
    Json.mergeFields, Json.fields, Json.field?, Json.ofString?, List.foldl_cons, List.foldl_nil,
    List.find?_cons, List.filter_cons, List.filter_nil, Option.map_some, Option.getD_some,
    String.reduceLT, String.reduceEq, String.lt_irrefl, ne_eq, not_false_eq_true, decide_true,
    decide_false, ↓reduceIte]

/-- The event has from a record what no patch changes. -/
structure IsOf (o : EventObject) (r : Record) : Prop where
  name : o.name = r.eventName
  ns : o.ns = r.ns
  labels : o.labels = r.labels
  annotations : o.annotations = [(operatorNamespaceKey, r.operatorNamespace)]
  object : o.object = r.object
  reason : o.reason = r.reason
  severity : o.severity = r.item.severity
  component : o.component = r.component
  instanceName : o.instanceName = r.instanceName

theorem isOf_ofRecord (r : Record) (now : Int) : (ofRecord r r.eventName now).IsOf r :=
  ⟨rfl, rfl, rfl, rfl, rfl, rfl, rfl, rfl, rfl⟩

theorem IsOf.amend {o : EventObject} {r : Record} (h : o.IsOf r) (change : Increment) :
    (o.amend change).IsOf r :=
  ⟨h.name, h.ns, h.labels, h.annotations, h.object, h.reason, h.severity, h.component,
    h.instanceName⟩

end EventObject

/-- An event with all its fields. -/
structure Filed where
  version : String
  event : EventObject

/-- What the event at a place is, given the records that belong there in their order. -/
def Accounts (rs : List Record) : Option Filed → Prop
  | none => rs = []
  | some f => f.event.count = rs.length ∧
      (∃ first, rs.head? = some first ∧ f.event.IsOf first) ∧
      ∃ latest, rs.getLast? = some latest ∧ f.event.message = latest.message

namespace Accounts

variable {rs : List Record} {r : Record} {f : Filed}

theorem created (version : String) (now : Int) :
    Accounts [r] (some ⟨version, .ofRecord r r.eventName now⟩) :=
  ⟨rfl, ⟨r, rfl, EventObject.isOf_ofRecord r now⟩, r, rfl, rfl⟩

theorem amended (h : Accounts rs (some f)) (hfew : rs.length + 1 < Number.twoTo 31)
    (version : String) (time : Int) :
    Accounts (rs ++ [r]) (some ⟨version,
      f.event.amend (increment r ⟨some f.version, some f.event.count⟩ time)⟩) := by
  obtain ⟨hcount, ⟨first, hfirst, hof⟩, -⟩ := h
  refine ⟨?_, ⟨first, ?_, hof.amend _⟩, r, by simp, rfl⟩
  · have hnext : nextCount (some f.event.count) = f.event.count + 1 :=
      nextCount_of_lt (by simp [hcount]) (by simp only [Option.getD_some, hcount]; omega)
    calc nextCount (some f.event.count)
        = (rs.length : Int) + 1 := by rw [hnext, hcount]
      _ = ((rs ++ [r]).length : Int) := by simp
  · rw [List.head?_append, hfirst]
    rfl

end Accounts

/-! ## A lone writer -/

/-- The cluster serves every call of a lone writer; `v` shows the event at a place. -/
structure Serves {σ : Type} (v : σ → Place → Option Filed) (api : Api σ) : Prop where
  /-- Of an event that does not exist the cluster says so. -/
  absent : ∀ {ns name s}, v s (ns, name) = none →
    ∃ fault s', api (.read ns name) s = (.error fault, s') ∧ fault.isNotFound = true ∧
      v s' = v s
  read : ∀ {ns name s f}, v s (ns, name) = some f →
    ∃ s', api (.read ns name) s = (.ok ⟨some f.version, some f.event.count⟩, s') ∧ v s' = v s
  create : ∀ event {s}, v s (event.ns, event.name) = none →
    ∃ answer s' version, api (.create event) s = (.ok answer, s') ∧
      v s' = Function.update (v s) (event.ns, event.name) (some ⟨version, event⟩)
  /-- A patch that names the current version is accepted. -/
  patch : ∀ {ns name s f} change, v s (ns, name) = some f → change.version = some f.version →
    ∃ answer s' version, api (.patch ns name change) s = (.ok answer, s') ∧
      v s' = Function.update (v s) (ns, name) (some ⟨version, f.event.amend change⟩)

/-- All calls of a put of the record can be sent. -/
def IsAddressable (r : Record) : Prop :=
  ∀ call : Call, call.place = placeOf r → call.address?.isSome

section

variable {𝕊 σ : Type} [Retry.Seconds 𝕊] {v : σ → Place → Option Filed} {api : Api σ}
  {now : σ → Int} {clock : Retry.Clock 𝕊 σ} {sleep : Nat → σ → σ} {policy : Retry.Policy 𝕊}
  {r : Record} {rs : List Record} {s : σ}

variable (api) in
theorem send_of_isAddressable (hr : IsAddressable r) (call : Call)
    (hplace : call.place = placeOf r) (s : σ) : Call.send api call s = api call s :=
  if_pos (hr call hplace)

variable (api now clock sleep policy) in
/-- A put of a record from its beginning. -/
def deposit (fuel : Nat) (r : Record) (s : σ) : Retry.Loop Write Fault Unit × σ :=
  Retry.Loop.run clock sleep policy (write api now r) fuel (.start (write api now r)) s

/-- With two calls to go a put that is answered twice returns. -/
theorem deposit_eq {fuel : Nat} (hfuel : 2 ≤ fuel) {w : Write} {s₁ s₂ : σ}
    (hfirst : advance api now r .reading s = (.inl w, s₁))
    (hsecond : advance api now r w s₁ = (.inr (.ok ()), s₂)) :
    deposit api now clock sleep policy fuel r s = (⟨0, [], .ended (.ok ())⟩, s₂) := by
  obtain ⟨fuel, rfl⟩ := Nat.exists_eq_add_of_le' hfuel
  have hended : Retry.Loop.run clock sleep policy (write api now r) fuel
      ⟨0, [], .ended (.ok ())⟩ s₂ = (⟨0, [], .ended (.ok ())⟩, s₂) := by
    cases fuel <;> rfl
  simp only [deposit, Retry.Loop.run, Retry.Loop.start, Retry.Loop.step, write, hfirst, hsecond]
  exact hended

variable (now clock sleep policy) in
/-- A lone put is stored.  The event of the place counts it, and the others stay. -/
theorem deposit_spec (hserves : Serves v api) (hr : IsAddressable r) {fuel : Nat}
    (hfuel : 2 ≤ fuel) (haccounts : Accounts rs (v s (placeOf r)))
    (hfew : rs.length + 1 < Number.twoTo 31) :
    ∃ s' f, deposit api now clock sleep policy fuel r s = (⟨0, [], .ended (.ok ())⟩, s') ∧
      v s' = Function.update (v s) (placeOf r) (some f) ∧ Accounts (rs ++ [r]) (some f) := by
  have hsend := send_of_isAddressable api hr
  cases hevent : v s (placeOf r) with
  | none =>
    obtain rfl : rs = [] := by rwa [hevent] at haccounts
    obtain ⟨fault, s₁, hread, hfault, hkept⟩ := hserves.absent hevent
    have hnone : v s₁ (placeOf r) = none := by rw [hkept, hevent]
    obtain ⟨answer, s₂, version, hcreate, hwritten⟩ :=
      hserves.create (.ofRecord r r.eventName (now s)) hnone
    have hfirst : advance api now r .reading s = (.inl (.creating (now s)), s₁) := by
      simp only [advance, hsend (.read r.ns r.eventName) rfl, hread, hfault, if_true]
    have hsecond : advance api now r (.creating (now s)) s₁ = (.inr (.ok ()), s₂) := by
      simp only [advance, hsend (.create (.ofRecord r r.eventName (now s))) rfl, hcreate, written]
    exact ⟨s₂, _, deposit_eq hfuel hfirst hsecond, hkept ▸ hwritten, .created version (now s)⟩
  | some f =>
    rw [hevent] at haccounts
    obtain ⟨s₁, hread, hkept⟩ := hserves.read hevent
    have hsome : v s₁ (placeOf r) = some f := by rw [hkept, hevent]
    let existing : Existing := ⟨some f.version, some f.event.count⟩
    obtain ⟨answer, s₂, version, hpatch, hwritten⟩ :=
      hserves.patch (increment r existing (now s)) hsome rfl
    have hfirst : advance api now r .reading s = (.inl (.counting existing (now s)), s₁) := by
      simp only [advance, hsend (.read r.ns r.eventName) rfl, hread, existing]
    have hsecond : advance api now r (.counting existing (now s)) s₁ = (.inr (.ok ()), s₂) := by
      simp only [advance, hsend (.patch r.ns r.eventName (increment r existing (now s))) rfl,
        hpatch, written]
    exact ⟨s₂, _, deposit_eq hfuel hfirst hsecond, hkept ▸ hwritten,
      haccounts.amended hfew version (now s)⟩

variable (v api now clock sleep policy) in
/-- Surroundings that come about when records are put one after another into a cluster without
events, while time goes on between them. -/
inductive Deposits : List Record → σ → Prop
  | initial {s : σ} : v s = (fun _ => none) → Deposits [] s
  | put {rs : List Record} {s : σ} (r : Record) (fuel : Nat) : Deposits rs s → 2 ≤ fuel →
      Deposits (rs ++ [r]) (deposit api now clock sleep policy fuel r s).2
  | elapse {rs : List Record} {s s' : σ} : Deposits rs s → v s' = v s → Deposits rs s'

/-- The records that belong to a place. -/
def recordsAt (rs : List Record) (place : Place) : List Record := rs.filter (placeOf · = place)

theorem recordsAt_concat (rs : List Record) (r : Record) (place : Place) :
    recordsAt (rs ++ [r]) place =
      if placeOf r = place then recordsAt rs place ++ [r] else recordsAt rs place := by
  by_cases hplace : placeOf r = place <;> simp [recordsAt, hplace]

/-- What stands at a place is told by the records that belong there. -/
theorem Deposits.accounts (hserves : Serves v api)
    (hdeposits : Deposits v api now clock sleep policy rs s)
    (haddressable : ∀ r ∈ rs, IsAddressable r) (hfew : rs.length < Number.twoTo 31) :
    ∀ place, Accounts (recordsAt rs place) (v s place) := by
  induction hdeposits with
  | initial hempty =>
    intro place
    rw [hempty]
    rfl
  | elapse _ hkept ih =>
    rw [hkept]
    exact ih haddressable hfew
  | @put rs s r fuel _ hfuel ih =>
    intro place
    rw [List.length_append, List.length_singleton] at hfew
    have hbefore := ih (fun r hr => haddressable r (List.mem_append_left _ hr)) (by omega)
    have hlength : (recordsAt rs (placeOf r)).length ≤ rs.length := List.length_filter_le ..
    obtain ⟨s', f, hdeposit, hwritten, hevent⟩ :=
      deposit_spec now clock sleep policy hserves (haddressable r (by simp)) hfuel
        (hbefore (placeOf r)) (by omega)
    rw [hdeposit, recordsAt_concat, hwritten]
    split
    case isTrue hplace =>
      subst hplace
      rw [Function.update_self]
      exact hevent
    case isFalse hplace =>
      rw [Function.update_of_ne (Ne.symm hplace)]
      exact hbefore place

end

end Cluster

end Reconcile
