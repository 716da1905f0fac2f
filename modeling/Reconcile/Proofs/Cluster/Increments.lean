import Reconcile.Proofs.Cluster.Server
import Reconcile.Proofs.Data.Places

/-!
# Counting occurrences side by side

A board holds any number of puts that share a cluster.  Each puts one record, with a policy of
its own for trying again.  A move begins a put, advances one by a call or to the end of a wait,
or changes the surroundings without writing an event (`Board.Move`).

A put reads the number of occurrences, adds one and writes the sum, and others may write in
between.  What saves the count is the version that a put has in hand: as long as it is the
current one, the number in hand is the current one as well (`Board.Counted.pinned`).  So an
accepted write always adds one, and the count is exactly the number of accepted writes.
-/

namespace Reconcile.Cluster

/-- A record that is being put. -/
structure Put (𝕊 : Type) where
  record : Record
  policy : Retry.Policy 𝕊
  loop : Retry.Loop Write Fault Unit

namespace Put

variable {𝕊 : Type}

/-- Whether the put has returned without a fault. -/
def isDone (put : Put 𝕊) : Bool :=
  match put.loop.stage with
  | .ended (.ok _) => true
  | _ => false

theorem isDone_iff (put : Put 𝕊) : put.isDone = true ↔ put.loop.stage = .ended (.ok ()) := by
  unfold isDone
  split
  case h_1 hstage => simp [hstage]
  case h_2 hother => simpa using hother ()

theorem isDone_eq (put : Put 𝕊) {result : Except Fault Unit}
    (h : put.loop.result? = some result) : put.isDone = result.isOk := by
  unfold Retry.Loop.result? at h
  split at h
  case h_1 hstage =>
    rw [Option.some.injEq] at h
    subst h
    rw [isDone, hstage]
    cases ‹Except Fault Unit› <;> rfl
  case h_2 => cases h

end Put

/-- Puts, known by their number, and the calls they have made, latest first. -/
structure Board (𝕊 σ : Type) where
  puts : List (Put 𝕊)
  state : σ
  deeds : List Deed

namespace Board

variable {𝕊 σ : Type}

/-- The writes that have been accepted, latest first. -/
def accepted (b : Board 𝕊 σ) : List Deed := b.deeds.filter Deed.isAccepted

/-- The accepted writes of one put. -/
def acceptedOf (b : Board 𝕊 σ) (k : Nat) : List Deed := b.accepted.filter (·.put = k)

/-- The accepted writes of the event at a place. -/
def acceptedAt (b : Board 𝕊 σ) (place : Place) : List Deed :=
  b.accepted.filter (·.call.place = place)

/-- The number of puts of the event at a place that have returned without a fault. -/
def doneAt (b : Board 𝕊 σ) (place : Place) : Nat :=
  b.puts.countP fun put => put.isDone && placeOf put.record = place

/-- Whether a put has returned without a fault. -/
def isDone (b : Board 𝕊 σ) (k : Nat) : Bool := (b.puts[k]?.map Put.isDone).getD false

section

variable (v : View σ) (api : Api σ) (now : σ → Int)

/-- Begins to put a record. -/
def begin (b : Board 𝕊 σ) (r : Record) (policy : Retry.Policy 𝕊) : Board 𝕊 σ :=
  { b with puts := b.puts ++ [⟨r, policy, .start (write api now r)⟩] }

variable (clock : Retry.Clock 𝕊 σ) [Retry.Seconds 𝕊]

/-- Advances one of the puts by a step. -/
def advance (b : Board 𝕊 σ) (k : Nat) : Board 𝕊 σ :=
  match b.puts[k]? with
  | none => b
  | some put =>
    let (loop, state, deeds) := put.loop.step (loggedClock clock) put.policy
      (write (api.logged k) (fun x => now x.1) put.record) (b.state, b.deeds)
    ⟨b.puts.set k { put with loop := loop }, state, deeds⟩

/-- What can happen on a board. -/
inductive Move (b : Board 𝕊 σ) : Board 𝕊 σ → Prop
  | begin (r : Record) (policy : Retry.Policy 𝕊) : Move b (b.begin api now r policy)
  | advance (k : Nat) : Move b (b.advance api now clock k)
  | elapse {state : σ} : v.Keeps b.state state → Move b { b with state := state }

/-- The boards that come about from some surroundings. -/
inductive Reachable (state : σ) : Board 𝕊 σ → Prop
  | initial : Reachable state ⟨[], state, []⟩
  | move {b b' : Board 𝕊 σ} : Reachable state b → Move v api now clock b b' → Reachable state b'

end

/-! ## The invariant -/

/-- The count of every event, given how many writes have been accepted since `state`. -/
structure Counted (v : View σ) (state : σ) (b : Board 𝕊 σ) : Prop where
  /-- Whoever has read the current version has read the current number. -/
  pinned : ∀ {k : Nat} {put : Put 𝕊} {existing : Existing} {time : Int}, b.puts[k]? = some put →
    put.loop.stage = .trying (.counting existing time) →
    ∃ version, existing.version = some version ∧ v.given b.state version ∧
      ∀ e, v.event b.state (placeOf put.record) = some e → e.version = version →
        e.count = existing.count
  /-- A put has written once if it has returned without a fault, and not at all otherwise. -/
  credited : ∀ k, (b.acceptedOf k).length = (b.isDone k).toNat
  done : ∀ place, (b.acceptedAt place).length = b.doneAt place
  owned : ∀ {d : Deed}, d ∈ b.accepted → ∃ put, b.puts[d.put]? = some put ∧
    d.call.place = placeOf put.record ∧ d.message = put.record.message
  latest : ∀ {place : Place} {d : Deed} {rest : List Deed}, b.acceptedAt place = d :: rest →
    ∃ e, v.event b.state place = some e ∧ e.message = d.message
  tally : ∀ place, -(Number.twoTo 31 : Int) ≤ tally (v.event state place) →
    tally (v.event state place) + (b.acceptedAt place).length < Number.twoTo 31 →
    tally (v.event b.state place) = tally (v.event state place) + (b.acceptedAt place).length

section

variable {b : Board 𝕊 σ} {puts : List (Put 𝕊)} {s : σ} {calls : List Deed} {d : Deed}

theorem accepted_append (hcalls : ∀ d ∈ calls, d.isAccepted = false) :
    (⟨puts, s, calls ++ b.deeds⟩ : Board 𝕊 σ).accepted = b.accepted := by
  have hnone : calls.filter Deed.isAccepted = [] :=
    List.filter_eq_nil_iff.2 fun d hd => by simp [hcalls d hd]
  rw [accepted, List.filter_append, hnone, List.nil_append, accepted]

theorem accepted_cons (haccepted : d.isAccepted = true) :
    (⟨puts, s, d :: b.deeds⟩ : Board 𝕊 σ).accepted = d :: b.accepted :=
  List.filter_cons_of_pos haccepted

theorem acceptedOf_cons (haccepted : d.isAccepted = true) (k : Nat) :
    (⟨puts, s, d :: b.deeds⟩ : Board 𝕊 σ).acceptedOf k =
      if d.put = k then d :: b.acceptedOf k else b.acceptedOf k := by
  rw [acceptedOf, accepted_cons haccepted, List.filter_cons]
  by_cases hown : d.put = k <;> simp [hown, acceptedOf]

theorem acceptedAt_cons (haccepted : d.isAccepted = true) (place : Place) :
    (⟨puts, s, d :: b.deeds⟩ : Board 𝕊 σ).acceptedAt place =
      if d.call.place = place then d :: b.acceptedAt place else b.acceptedAt place := by
  rw [acceptedAt, accepted_cons haccepted, List.filter_cons]
  by_cases hplace : d.call.place = place <;> simp [hplace, acceptedAt]

end

/-- Below the largest number the next one is larger by one. -/
theorem nextCount_eq_add_one {count : Option Int} (hlow : -(Number.twoTo 31 : Int) ≤ count.getD 1)
    (hhigh : count.getD 1 + 1 < Number.twoTo 31) : nextCount count = count.getD 1 + 1 := by
  have h31 : (Number.twoTo 31 : Int) = 2147483648 := rfl
  have h32 : Number.twoTo 32 = 4294967296 := rfl
  rw [nextCount, h32]
  exact Int.bmod_eq_of_le_mul_two (by omega) (by omega)

namespace Counted

variable {v : View σ} {state : σ} {b : Board 𝕊 σ}

theorem initial : Counted v state (⟨[], state, []⟩ : Board 𝕊 σ) where
  pinned h := nomatch h
  credited k := rfl
  done place := rfl
  owned h := nomatch h
  latest h := nomatch h
  tally place _ _ := by simp [acceptedAt, accepted]

theorem begin (h : Counted v state b) (api : Api σ) (now : σ → Int) (r : Record)
    (policy : Retry.Policy 𝕊) : Counted v state (b.begin api now r policy) where
  pinned {k put existing time} hput hstage := by
    rcases Places.eq_or_of_join hput with hold | ⟨-, hnew⟩
    · exact h.pinned hold hstage
    · rw [hnew] at hstage
      cases hstage
  credited k := by
    have hsame : (b.begin api now r policy).isDone k = b.isDone k := by
      simp only [isDone, Board.begin, List.getElem?_append]
      split
      · rfl
      case isFalse hlength =>
        rw [List.getElem?_eq_none (Nat.le_of_not_lt hlength)]
        rcases k - b.puts.length with _ | n <;> rfl
    rw [hsame]
    exact h.credited k
  done place := by
    have hsame : (b.begin api now r policy).doneAt place = b.doneAt place := by
      simp [doneAt, Board.begin, Put.isDone, Retry.Loop.start]
    rw [hsame]
    exact h.done place
  owned hd := by
    obtain ⟨put, hput, hrest⟩ := h.owned hd
    have hlength := (List.getElem?_eq_some_iff.1 hput).1
    exact ⟨put, (List.getElem?_append_left hlength).trans hput, hrest⟩
  latest := h.latest
  tally := h.tally

theorem elapse (h : Counted v state b) {s : σ} (hkeeps : v.Keeps b.state s) :
    Counted v state { b with state := s } where
  pinned hput hstage := by
    obtain ⟨version, hversion, hgiven, hcurrent⟩ := h.pinned hput hstage
    refine ⟨version, hversion, hkeeps.given version hgiven, fun e he => ?_⟩
    exact hcurrent e (by rwa [hkeeps.event] at he)
  credited := h.credited
  done := h.done
  owned := h.owned
  latest hdeeds := by
    rw [hkeeps.event]
    exact h.latest hdeeds
  tally place hlow hhigh := by
    rw [hkeeps.event]
    exact h.tally place hlow hhigh

/-! ### One put moves on -/

section

variable {k : Nat} {put : Put 𝕊} {loop : Retry.Loop Write Fault Unit} {s : σ}

theorem isDone_replace (hput : b.puts[k]? = some put) (deeds : List Deed) (j : Nat) :
    (⟨b.puts.set k { put with loop := loop }, s, deeds⟩ : Board 𝕊 σ).isDone j =
      if j = k then ({ put with loop := loop } : Put 𝕊).isDone else b.isDone j := by
  have hlength := (List.getElem?_eq_some_iff.1 hput).1
  simp only [isDone, List.getElem?_set]
  by_cases hj : k = j
  · subst hj
    simp [hlength]
  · simp [hj, Ne.symm hj]

variable (loop s) in
theorem doneAt_replace (hput : b.puts[k]? = some put) (deeds : List Deed) (place : Place) :
    (⟨b.puts.set k { put with loop := loop }, s, deeds⟩ : Board 𝕊 σ).doneAt place +
        (if put.isDone && placeOf put.record = place then 1 else 0) =
      b.doneAt place +
        (if ({ put with loop := loop } : Put 𝕊).isDone && placeOf put.record = place then 1
          else 0) := by
  have hcounted := Places.countP_replace hput
    (fun put => put.isDone && placeOf put.record = place) { put with loop := loop }
  simpa only [doneAt, Places.toNat_eq_ite] using hcounted

theorem doneAt_replace_of_done (hput : b.puts[k]? = some put) (hbefore : put.isDone = false)
    (hafter : ({ put with loop := loop } : Put 𝕊).isDone = true) {deeds : List Deed}
    {place : Place} :
    (⟨b.puts.set k { put with loop := loop }, s, deeds⟩ : Board 𝕊 σ).doneAt place =
      b.doneAt place + if placeOf put.record = place then 1 else 0 := by
  have hreplace := doneAt_replace loop s hput deeds place
  simpa only [hbefore, hafter, Bool.false_and, Bool.true_and, Bool.false_eq_true, if_false,
    Nat.add_zero, decide_eq_true_eq] using hreplace

theorem owned_replace (h : Counted v state b) (hput : b.puts[k]? = some put) {d : Deed}
    (hd : d ∈ b.accepted) :
    ∃ other, (b.puts.set k { put with loop := loop })[d.put]? = some other ∧
      d.call.place = placeOf other.record ∧ d.message = other.record.message := by
  obtain ⟨other, hother, hplace, hmessage⟩ := h.owned hd
  rcases Places.replaced_or_kept hput hother { put with loop := loop } with
    ⟨-, rfl, hown⟩ | ⟨-, hkept⟩
  · exact ⟨_, hown, hplace, hmessage⟩
  · exact ⟨other, hkept, hplace, hmessage⟩

/-- Nothing is written. -/
theorem kept_replace (h : Counted v state b) (hput : b.puts[k]? = some put) {calls : List Deed}
    (hkeeps : v.Keeps b.state s) (hcalls : ∀ d ∈ calls, d.isAccepted = false)
    (hdone : loop.stage = .ended (.ok ()) ↔ put.loop.stage = .ended (.ok ()))
    (hcurrent : ∀ {place e}, v.event s place = some e → v.given s e.version)
    (hcounting : ∀ existing time, loop.stage = .trying (.counting existing time) →
      loop.stage = put.loop.stage ∨ ∃ e, v.event s (placeOf put.record) = some e ∧
        existing = ⟨some e.version, e.count⟩) :
    Counted v state ⟨b.puts.set k { put with loop := loop }, s, calls ++ b.deeds⟩ := by
  have hspared := h.elapse hkeeps
  have hisDone : ({ put with loop := loop } : Put 𝕊).isDone = put.isDone := by
    rw [Bool.eq_iff_iff, Put.isDone_iff, Put.isDone_iff]
    exact hdone
  have haccepted : (⟨b.puts.set k { put with loop := loop }, s, calls ++ b.deeds⟩ :
      Board 𝕊 σ).accepted = b.accepted := accepted_append hcalls
  refine {
    pinned := ?pinned
    credited := fun j => ?credited
    done := fun place => ?done
    owned := ?owned
    latest := ?latest
    tally := ?tally }
  case pinned =>
    intro j other existing time hother hstage
    rcases Places.eq_or_of_replace hother with ⟨rfl, rfl⟩ | ⟨-, hother⟩
    · -- The version was read before, or it is that of the event as it is now.
      rcases hcounting existing time hstage with hsame | ⟨e, hevent, rfl⟩
      · have hbefore : put.loop.stage = .trying (.counting existing time) :=
          hsame.symm.trans hstage
        obtain ⟨version, hpinned⟩ := hspared.pinned hput hbefore
        exact ⟨version, hpinned⟩
      · refine ⟨e.version, rfl, hcurrent hevent, fun e' hevent' _ => ?_⟩
        obtain rfl : e = e' := Option.some.inj (hevent.symm.trans hevent')
        rfl
    · exact hspared.pinned hother hstage
  case credited =>
    have hcredited := h.credited j
    rw [isDone_replace hput, acceptedOf, haccepted]
    split
    case isTrue hj =>
      subst hj
      rw [Board.isDone, hput, Option.map_some, Option.getD_some, ← hisDone] at hcredited
      exact hcredited
    case isFalse => exact hcredited
  case done =>
    have hreplace := doneAt_replace loop s hput (calls ++ b.deeds) place
    have hbefore := h.done place
    rw [hisDone] at hreplace
    rw [acceptedAt, haccepted, ← acceptedAt]
    omega
  case owned =>
    intro d hd
    rw [haccepted] at hd
    exact h.owned_replace hput hd
  case latest =>
    intro place d rest hdeeds
    rw [acceptedAt, haccepted] at hdeeds
    exact hspared.latest hdeeds
  case tally =>
    intro place hlow hhigh
    rw [acceptedAt, haccepted] at hhigh ⊢
    exact hspared.tally place hlow hhigh

/-- The event of the put is written, and the count that is written is the next one. -/
theorem written_replace (h : Counted v state b) (hput : b.puts[k]? = some put) {inner : Write}
    {d : Deed} {count : Int} (hbefore : put.loop.stage = .trying inner)
    (hafter : loop.stage = .ended (.ok ())) (haccepted : d.isAccepted = true) (hown : d.put = k)
    (hplace : d.call.place = placeOf put.record) (hmessage : d.message = put.record.message)
    (hwrites : v.Writes (placeOf put.record) count put.record.message b.state s)
    (hnext : -(Number.twoTo 31 : Int) ≤ Cluster.tally (v.event b.state (placeOf put.record)) →
      Cluster.tally (v.event b.state (placeOf put.record)) + 1 < Number.twoTo 31 →
      count = Cluster.tally (v.event b.state (placeOf put.record)) + 1) :
    Counted v state ⟨b.puts.set k { put with loop := loop }, s, d :: b.deeds⟩ := by
  obtain ⟨version, hfresh, hevent⟩ := hwrites.event
  have hundone : put.isDone = false := by simp [Put.isDone, hbefore]
  have hdone : ({ put with loop := loop } : Put 𝕊).isDone = true := by simp [Put.isDone, hafter]
  refine {
    pinned := ?pinned
    credited := fun j => ?credited
    done := fun place => ?done
    owned := ?owned
    latest := ?latest
    tally := ?tally }
  case pinned =>
    intro j other existing time hother hstage
    rcases Places.eq_or_of_replace hother with ⟨rfl, rfl⟩ | ⟨-, hother⟩
    · cases hafter.symm.trans hstage
    · obtain ⟨pinned, hversion, hgiven, hcurrent⟩ := h.pinned hother hstage
      refine ⟨pinned, hversion, hwrites.given pinned hgiven, fun e he hsame => ?_⟩
      by_cases hshared : placeOf other.record = placeOf put.record
      · -- The version that has just been given cannot be one that was read before.
        rw [hshared, hevent, Option.some.injEq] at he
        obtain rfl : version = pinned := by rw [← hsame, ← he]
        exact (hfresh hgiven).elim
      · exact hcurrent e ((hwrites.others _ hshared).symm.trans he) hsame
  case credited =>
    have hcredited := h.credited j
    -- The put has not written before, as it was not done.
    rw [isDone_replace hput, acceptedOf_cons haccepted, hown]
    by_cases hj : k = j
    · subst hj
      rw [Board.isDone, hput, Option.map_some, Option.getD_some, hundone] at hcredited
      rw [if_pos rfl, if_pos rfl, hdone, List.length_cons, hcredited]
      rfl
    · rw [if_neg hj, if_neg (Ne.symm hj)]
      exact hcredited
  case done =>
    rw [doneAt_replace_of_done hput hundone hdone, acceptedAt_cons haccepted, hplace, ← h.done]
    split
    · rw [List.length_cons]
    · rw [Nat.add_zero]
  case owned =>
    intro e he
    rw [accepted_cons haccepted] at he
    rcases List.mem_cons.1 he with rfl | hold
    · have hlength := (List.getElem?_eq_some_iff.1 hput).1
      exact ⟨{ put with loop := loop }, by rw [hown]; exact List.getElem?_set_self hlength,
        hplace, hmessage⟩
    · exact h.owned_replace hput hold
  case latest =>
    intro place e rest hlatest
    rw [acceptedAt_cons haccepted, hplace] at hlatest
    by_cases hat : placeOf put.record = place
    · rw [if_pos hat, List.cons.injEq] at hlatest
      subst hat
      exact ⟨_, hevent, by rw [← hlatest.1, hmessage]⟩
    · rw [if_neg hat] at hlatest
      rw [hwrites.others place (Ne.symm hat)]
      exact h.latest hlatest
  case tally =>
    -- The count before the write was right, so the next one is too.
    intro place hlow hhigh
    have htally := h.tally place hlow
    rw [acceptedAt_cons haccepted, hplace] at hhigh ⊢
    by_cases hat : placeOf put.record = place
    · subst hat
      rw [if_pos rfl, List.length_cons] at hhigh ⊢
      have hcount := hnext (by omega) (by omega)
      rw [hevent]
      change count = _
      omega
    · rw [if_neg hat] at hhigh ⊢
      rw [hwrites.others place (Ne.symm hat)]
      exact htally hhigh

/-- Whatever a put does, the counts stay what they must be. -/
theorem turn_replace (h : Counted v state b) (hput : b.puts[k]? = some put) {deeds : List Deed}
    (hcurrent : ∀ {s place e}, v.event s place = some e → v.given s e.version)
    (hturn : Turn v k put.record put.loop.stage b.state b.deeds loop.stage s deeds) :
    Counted v state ⟨b.puts.set k { put with loop := loop }, s, deeds⟩ := by
  generalize hafter : loop.stage = after at hturn
  generalize hbefore : put.loop.stage = before at hturn
  cases hturn with
  | kept hkeeps hcalls hdone hcounting =>
    subst hafter hbefore
    exact h.kept_replace hput hkeeps hcalls hdone hcurrent hcounting
  | created hinner haccepted hown hplace hmessage hnone hwrites =>
    refine h.written_replace hput (hbefore.trans hinner) hafter haccepted hown hplace hmessage
      hwrites fun _ _ => ?_
    rw [hnone]
    rfl
  | @counted d s existing time e hinner haccepted hown hplace hmessage hevent hversion hwrites =>
    obtain ⟨version, hread, -, hcount⟩ := h.pinned hput (hbefore.trans hinner)
    have hsame : e.count = existing.count := hcount e hevent (hversion version hread).symm
    refine h.written_replace hput (hbefore.trans hinner) hafter haccepted hown hplace hmessage
      hwrites fun hlow hhigh => ?_
    rw [hevent] at hlow hhigh ⊢
    rw [← hsame]
    exact nextCount_eq_add_one hlow hhigh

end

section

variable {api : Api σ} {now : σ → Int} {clock : Retry.Clock 𝕊 σ} [Retry.Seconds 𝕊]

/-- A move keeps the counts what they must be. -/
theorem move (h : Counted v state b) (hfaithful : v.Faithful api)
    (hdraw : ∀ s, v.Keeps s (clock.draw s).2) {b' : Board 𝕊 σ}
    (hmove : Move v api now clock b b') : Counted v state b' := by
  cases hmove with
  | begin r policy => exact h.begin api now r policy
  | elapse hkeeps => exact h.elapse hkeeps
  | advance k =>
    unfold Board.advance
    cases hput : b.puts[k]? with
    | none => exact h
    | some put =>
      exact h.turn_replace hput hfaithful.current
        (step_turn hfaithful hdraw now k put.record put.policy put.loop b.state b.deeds)

end

end Counted

/-! ## Reachable boards -/

section

variable {v : View σ} {api : Api σ} {now : σ → Int} {clock : Retry.Clock 𝕊 σ} [Retry.Seconds 𝕊]
  {state : σ} {b : Board 𝕊 σ}

theorem Reachable.counted (hfaithful : v.Faithful api)
    (hdraw : ∀ s, v.Keeps s (clock.draw s).2) (hreach : Reachable v api now clock state b) :
    Counted v state b := by
  induction hreach with
  | initial => exact .initial
  | move _ hmove ih => exact ih.move hfaithful hdraw hmove

theorem Reachable.foldl_advance (hreach : Reachable v api now clock state b) (ks : List Nat) :
    Reachable v api now clock state (ks.foldl (fun b k => b.advance api now clock k) b) := by
  induction ks generalizing b with
  | nil => exact hreach
  | cons k ks ih => exact ih (hreach.move (.advance k))

/-- Among puts that share a cluster no occurrence is lost or counted twice.  As long as the
numbers of an event have 32 bits, the event counts all writes that have been accepted; these are
as many as puts of the event have returned without a fault, each such put has written once, and
those that have returned with a fault have not written.  The text is that of the latest write. -/
theorem tally_of_reachable (hfaithful : v.Faithful api)
    (hdraw : ∀ s, v.Keeps s (clock.draw s).2) (hreach : Reachable v api now clock state b) :
    (∀ place, -(Number.twoTo 31 : Int) ≤ tally (v.event state place) →
      tally (v.event state place) + (b.acceptedAt place).length < Number.twoTo 31 →
      tally (v.event b.state place) =
        tally (v.event state place) + (b.acceptedAt place).length) ∧
    (∀ place, (b.acceptedAt place).length = b.doneAt place) ∧
    (∀ k, (b.acceptedOf k).length ≤ 1) ∧
    (∀ k put, b.puts[k]? = some put →
      (put.loop.result? = some (.ok ()) → (b.acceptedOf k).length = 1) ∧
      ∀ fault, put.loop.result? = some (.error fault) → b.acceptedOf k = []) ∧
    ∀ place d rest, b.acceptedAt place = d :: rest →
      ∃ e put, v.event b.state place = some e ∧ b.puts[d.put]? = some put ∧
        placeOf put.record = place ∧ e.message = put.record.message := by
  have hcounted := hreach.counted hfaithful hdraw
  refine ⟨hcounted.tally, hcounted.done, fun k => ?_, fun k put hput => ?_,
    fun place d rest hdeeds => ?_⟩
  · rw [hcounted.credited k]
    exact Bool.toNat_le _
  · have hcredited := hcounted.credited k
    rw [Board.isDone, hput, Option.map_some, Option.getD_some] at hcredited
    refine ⟨fun hresult => ?_, fun fault hresult => List.length_eq_zero_iff.1 ?_⟩
    · rw [hcredited, put.isDone_eq hresult]
      rfl
    · rw [hcredited, put.isDone_eq hresult]
      rfl
  · obtain ⟨e, hevent, hmessage⟩ := hcounted.latest hdeeds
    have hmem : d ∈ b.acceptedAt place := hdeeds ▸ List.mem_cons_self
    obtain ⟨haccepted, hplace⟩ := List.mem_filter.1 hmem
    obtain ⟨put, hput, hown, htext⟩ := hcounted.owned haccepted
    have hat : d.call.place = place := of_decide_eq_true hplace
    exact ⟨e, put, hevent, hput, hown.symm.trans hat, hmessage.trans htext⟩

end

end Board

/-! ### Two writers -/

/-- A cluster that gives ever longer versions. -/
structure Shelf where
  events : Place → Option Kept
  next : Nat
  shorter : ∀ {place e}, events place = some e → e.version.length < next

namespace Shelf

/-- Writes an event. -/
def write (s : Shelf) (place : Place) (count : Int) (message : String) : Shelf where
  events x := if x = place then some ⟨"".pushn 'v' s.next, some count, message⟩ else s.events x
  next := s.next + 1
  shorter {x e} hevent := by
    split at hevent
    · obtain rfl := Option.some.inj hevent
      simp
    · exact Nat.lt_succ_of_lt (s.shorter hevent)

/-- The refusal of a call. -/
def refusal (reason : String) (code : Nat) : ApiFault := .refused ⟨"Failure", reason, reason, code⟩

/-- An interface that keeps its promises. -/
def api : Api Shelf
  | .read ns name, s =>
    match s.events (ns, name) with
    | some e => (.ok ⟨some e.version, e.count⟩, s)
    | none => (.error (refusal "NotFound" 404), s)
  | .create event, s =>
    match s.events (event.ns, event.name) with
    | some _ => (.error (refusal "AlreadyExists" 409), s)
    | none => (.ok ⟨none, none⟩, s.write (event.ns, event.name) event.count event.message)
  | .patch ns name change, s =>
    match s.events (ns, name) with
    | some e =>
      if change.version.all (· = e.version) then
        (.ok ⟨none, none⟩, s.write (ns, name) change.count change.message)
      else (.error (refusal "Conflict" 409), s)
    | none => (.error (refusal "NotFound" 404), s)

/-- What can be seen of the cluster. -/
def view : View Shelf where
  event := events
  given s version := version.length < s.next

theorem writes (s : Shelf) (place : Place) (count : Int) (message : String) :
    view.Writes place count message s (s.write place count message) where
  event := ⟨"".pushn 'v' s.next, by simp [view], by simp [view, write]⟩
  others other hother := by simp [view, write, hother]
  given version hgiven := Nat.lt_succ_of_lt hgiven

theorem faithful : view.Faithful api where
  current hevent := Shelf.shorter _ hevent
  failed {call s fault s'} hcall := by
    have hsame : s = s' := by
      cases call with
      | read ns name => simp only [api] at hcall; split at hcall <;> simp_all
      | create event => simp only [api] at hcall; split at hcall <;> simp_all
      | patch ns name change =>
        simp only [api] at hcall
        split at hcall
        · split at hcall <;> simp_all
        · simp_all
    exact hsame ▸ .refl s
  read {ns name s existing s'} hcall := by
    simp only [api] at hcall
    split at hcall
    case h_1 e hevent =>
      obtain ⟨rfl, rfl⟩ : Existing.mk (some e.version) e.count = existing ∧ s = s' := by
        simpa using hcall
      exact ⟨.refl s, e, hevent, rfl⟩
    case h_2 => cases hcall
  create {event s existing s'} hcall := by
    simp only [api] at hcall
    split at hcall
    case h_1 => cases hcall
    case h_2 hnone =>
      obtain ⟨-, rfl⟩ : Existing.mk none none = existing ∧
          s.write (event.ns, event.name) event.count event.message = s' := by simpa using hcall
      exact ⟨hnone, writes s _ _ _⟩
  patch {ns name change s existing s'} hcall := by
    simp only [api] at hcall
    split at hcall
    case h_1 e hevent =>
      split at hcall
      case isTrue hversion =>
        obtain ⟨-, rfl⟩ : Existing.mk none none = existing ∧
            s.write (ns, name) change.count change.message = s' := by simpa using hcall
        refine ⟨e, hevent, fun version hnamed => ?_, writes s _ _ _⟩
        simpa [hnamed] using hversion
      case isFalse => simp at hcall
    case h_2 => cases hcall

/-- Time that stands still, without chance. -/
def clock : Retry.Clock Rat Shelf := ⟨fun _ => 0, fun s => (1, s)⟩

/-- A cluster without events. -/
def empty : Shelf := ⟨fun _ => none, 0, fun h => nomatch h⟩

/-- An occurrence. -/
def record : Record :=
  ⟨.resourceCreated, "ns", ⟨"v1", "Domain", "uid", "ns"⟩, "created", [], "operator", "pod", "ops"⟩

/-- Two puts of the same occurrence.  Both find no event, and the first creates it. -/
def board : Board Rat Shelf :=
  let policy : Retry.Policy Rat := ⟨3, .zero, .zero, 1⟩
  let begun : Board Rat Shelf :=
    ((⟨[], empty, []⟩ : Board Rat Shelf).begin api (fun _ => 0) record policy).begin api
      (fun _ => 0) record policy
  [0, 1, 0].foldl (fun b k => b.advance api (fun _ => 0) clock k) begun

theorem reachable_board : Board.Reachable view api (fun _ => 0) clock empty board :=
  .foldl_advance (.move (.move .initial (.begin _ _)) (.begin _ _)) _

theorem accepted_board : board.accepted.map Deed.put = [0] := by decide +kernel

/-- One write has been accepted, and the event counts it. -/
theorem tally_board :
    board.accepted.map Deed.put = [0] ∧
      tally (view.event board.state (placeOf record)) =
        0 + (board.acceptedAt (placeOf record)).length := by
  have hdraw : ∀ s, view.Keeps s (clock.draw s).2 := fun s => .refl s
  obtain ⟨htally, -⟩ := Board.tally_of_reachable faithful hdraw reachable_board
  have hfew : (board.acceptedAt (placeOf record)).length ≤ 1 := by
    have hlength := congrArg List.length accepted_board
    rw [List.length_map] at hlength
    exact Nat.le_trans (List.length_filter_le ..) (Nat.le_of_eq hlength)
  have hnone : tally (view.event empty (placeOf record)) = 0 := rfl
  have h31 : (Number.twoTo 31 : Int) = 2147483648 := rfl
  have hbound : tally (view.event empty (placeOf record)) +
      (board.acceptedAt (placeOf record)).length < Number.twoTo 31 := by omega
  exact ⟨accepted_board, htally (placeOf record) (by decide) hbound⟩

end Shelf

end Reconcile.Cluster
