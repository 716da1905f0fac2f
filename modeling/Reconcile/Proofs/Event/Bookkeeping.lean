import Reconcile.Proofs.Data.Places
import Reconcile.Proofs.Event.Lifecycle

/-!
# The books of emissions

Every emission is a call with a packet (`Emission`).  It ends with a fault, or a rule declines the
event, or the event is announced and its record is to be handed over.  Two counters of the world,
with the hand-overs in its outbox, are the books of what became of it.

Whoever emits events does so by announcing and handing over in turn, with anything else in between
that leaves the books alone (`Utters`).  The calls are listed as they are made.  At any time the
books say of every kind of event what the list says, apart from a record that is being handed over
(`Posts`).
-/

namespace Reconcile

variable {𝕊 ε : Type}

/-- An operator that has only just been started. -/
def World.started (identity : Identity) (refuses : Nat → Bool) : World Rat Unit where
  identity := identity
  outbox := .empty refuses
  counters := default
  declined := []
  registries := ∅
  nextAttempt := 0
  now := 0
  spread _ := 1
  draws := 0
  timerFirst := true
  extra := ()

/-! ## Calls -/

/-- A call of an emission: the request, the packet and the world at the moment of the call. -/
structure Emission (𝕊 ε : Type) where
  request : Request
  packet : Packet
  world : World 𝕊 ε

namespace Emission

/-- What becomes of the request. -/
def answer (e : Emission 𝕊 ε) : Except Fault Request.Prepared :=
  (e.world.announce e.request e.packet).1

/-- The packet after the call. -/
def after (e : Emission 𝕊 ε) : Packet := (e.world.announce e.request e.packet).2.1

/-- The record that an answer leaves to be handed over. -/
def recordIn? : Except Fault Request.Prepared → Option Record
  | .ok (.record record) => some record
  | .ok (.suppressed _) | .error _ => none

/-- The record that is to be handed over, if the event is emitted. -/
def record? (e : Emission 𝕊 ε) : Option Record := recordIn? e.answer

/-- Whether the call emits an event of a kind. -/
def emits (e : Emission 𝕊 ε) (i : Item) : Bool := e.request.item = i && e.record?.isSome

/-- Whether a rule declines an event of a kind. -/
def declines (e : Emission 𝕊 ε) (i : Item) : Bool :=
  e.request.item = i &&
    match e.answer with
    | .ok (.suppressed _) => true
    | _ => false

/-- What the call has appended to the history of the packet. -/
def appended (e : Emission 𝕊 ε) : List String :=
  e.after.markers.history.drop e.packet.markers.history.length

theorem answer_eq (e : Emission 𝕊 ε) :
    e.answer = e.request.prepare e.packet e.world.identity := by
  unfold answer World.announce
  split <;> rename_i heq <;> exact heq.symm

theorem after_eq (e : Emission 𝕊 ε) :
    e.after = if e.record?.isSome then
      { e.packet with markers := e.request.marked e.packet.markers } else e.packet := by
  unfold after record? answer World.announce
  split <;> rfl

theorem appended_eq (e : Emission 𝕊 ε) :
    e.appended = if e.record?.isSome then [e.request.item.reason] else [] := by
  rw [appended, after_eq]
  split
  · have hhistory : (e.request.marked e.packet.markers).history =
        e.packet.markers.history ++ [e.request.item.reason] := by
      unfold Request.marked Markers.pushHistory
      split <;> simp
    simp only [hhistory, List.drop_left]
  · exact List.drop_length

/-- The reason of a kind is appended as often as events of the kind are emitted. -/
theorem count_appended (log : List (Emission 𝕊 ε)) (i : Item) :
    (log.flatMap appended).count i.reason = log.countP (·.emits i) := by
  induction log with
  | nil => rfl
  | cons e log ih =>
    rw [List.flatMap_cons, List.count_append, List.countP_cons, ih, appended_eq, Nat.add_comm]
    unfold emits
    cases e.record?.isSome with
    | false => simp
    | true =>
      by_cases hitem : e.request.item = i
      · simp [hitem]
      · have hreason : e.request.item.reason ≠ i.reason := fun h => hitem (Item.reason_injective h)
        simp [hitem, hreason]

theorem recordIn?_eq_some_iff {answer : Except Fault Request.Prepared} {record : Record} :
    recordIn? answer = some record ↔ answer = .ok (.record record) := by
  rcases answer with _ | (_ | _) <;> simp [recordIn?]

theorem prepare_of_record? {e : Emission 𝕊 ε} {record : Record} (h : e.record? = some record) :
    e.request.prepare e.packet e.world.identity = .ok (.record record) :=
  e.answer_eq ▸ recordIn?_eq_some_iff.1 h

theorem item_of_record? {e : Emission 𝕊 ε} {record : Record} (h : e.record? = some record) :
    record.item = e.request.item :=
  Request.item_of_prepare (prepare_of_record? h)

theorem not_emits_of_error {e : Emission 𝕊 ε} {fault : Fault} (h : e.answer = .error fault)
    (i : Item) : e.emits i = false ∧ e.declines i = false := by
  simp [emits, declines, record?, recordIn?, h]

/-- A fault leaves no trace. -/
theorem untouched_of_error {e : Emission 𝕊 ε} {fault : Fault} (h : e.answer = .error fault) :
    (e.world.announce e.request e.packet).2 = (e.packet, e.world) := by
  unfold answer World.announce at h
  unfold World.announce
  split at h
  · rfl
  · cases h
  · cases h

end Emission

/-! ## Hand-overs -/

namespace Outbox

/-- The number of records of a kind that have not been refused. -/
def accepted (o : Outbox) (i : Item) : Nat :=
  o.handed.zipIdx.countP fun x => x.1.item = i && !o.refuses x.2

/-- The number of records of a kind that have been refused. -/
def refused (o : Outbox) (i : Item) : Nat :=
  o.handed.zipIdx.countP fun x => x.1.item = i && o.refuses x.2

variable (o : Outbox) (record : Record) (i : Item)

theorem accepted_put : (o.put record).2.accepted i =
    o.accepted i + if record.item = i ∧ o.refuses o.handed.length = false then 1 else 0 := by
  rw [accepted, handed_put, refuses_put, List.zipIdx_append, List.countP_append, accepted]
  simp [List.countP_cons]

theorem refused_put : (o.put record).2.refused i =
    o.refused i + if record.item = i ∧ o.refuses o.handed.length = true then 1 else 0 := by
  rw [refused, handed_put, refuses_put, List.zipIdx_append, List.countP_append, refused]
  simp [List.countP_cons]

end Outbox

/-! ## The books -/

namespace World

/-- The value of a counter. -/
def reads (w : World 𝕊 ε) (k : Counter) : Nat := w.counters.value k

theorem reads_of_raise {w w' : World 𝕊 ε} {k : Counter}
    (h : w'.counters = w.counters.raise k) (x : Counter) :
    w'.reads x = w.reads x + if x = k then 1 else 0 := by
  rw [reads, reads, h, Counters.value_raise]
  split
  case isTrue hx => rw [hx]
  case isFalse => rfl

theorem reads_of_raiseAttempt {w w' : World 𝕊 ε} {r : AttemptResult}
    (h : w'.counters = w.counters.raiseAttempt r) (x : Counter) :
    w'.reads x = w.reads x + if x = .attempts r ∨ x = .durations r then 1 else 0 := by
  have hraised : w'.reads x =
      (w.raise (.attempts r)).reads x + if x = .durations r then 1 else 0 := reads_of_raise h x
  rw [hraised, reads_of_raise (w := w) (k := .attempts r) rfl]
  by_cases hattempts : x = .attempts r
  · simp [hattempts]
  · simp [hattempts]

/-- Announcing an event counts it if a rule declines it, and hands nothing over. -/
theorem books_announce (w : World 𝕊 ε) (q : Request) (p : Packet) :
    (w.announce q p).2.2.outbox = w.outbox ∧
      ∀ k, (w.announce q p).2.2.reads k = w.reads k + match k with
        | .suppressed i => ((Emission.mk q p w).declines i).toNat
        | _ => 0 := by
  simp only [Emission.declines, Emission.answer_eq, announce]
  cases q.prepare p w.identity with
  | error fault => exact ⟨rfl, fun k => by cases k <;> simp⟩
  | ok prepared =>
    cases prepared with
    | record record => exact ⟨rfl, fun k => by cases k <;> simp⟩
    | suppressed rule =>
      refine ⟨rfl, fun k => (reads_of_raise (w := w) rfl k).trans ?_⟩
      cases k with
      | suppressed i =>
        by_cases hitem : i = q.item
        · simp [hitem]
        · simp [hitem, Ne.symm hitem]
      | _ => rfl

/-- Handing a record over counts it as emitted, or as not stored if it is refused. -/
theorem books_deliver (w : World 𝕊 ε) (record : Record) :
    (w.deliver record).outbox = (w.outbox.put record).2 ∧
      ∀ k, (w.deliver record).reads k = w.reads k + match k with
        | .emitted i =>
          if record.item = i ∧ w.outbox.refuses w.outbox.handed.length = false then 1 else 0
        | .storeFailed i =>
          if record.item = i ∧ w.outbox.refuses w.outbox.handed.length = true then 1 else 0
        | _ => 0 := by
  unfold deliver Outbox.put
  cases hrefused : w.outbox.refuses w.outbox.handed.length with
  | false =>
    refine ⟨rfl, fun k => (reads_of_raise (w := w) rfl k).trans ?_⟩
    cases k <;> simp [eq_comm]
  | true =>
    refine ⟨rfl, fun k => (reads_of_raise (w := w) rfl k).trans ?_⟩
    cases k <;> simp [eq_comm]

/-- A change that leaves all counters but that of the retries and all hand-overs alone. -/
structure SameBooks (w w' : World 𝕊 ε) : Prop where
  reads : ∀ k, k ≠ .stepRetries → w'.reads k = w.reads k
  handed : w'.outbox.handed = w.outbox.handed
  refuses : w'.outbox.refuses = w.outbox.refuses

namespace SameBooks

variable {w w₁ w₂ w₃ : World 𝕊 ε}

theorem refl (w : World 𝕊 ε) : w.SameBooks w := ⟨fun _ _ => rfl, rfl, rfl⟩

theorem trans (h₁ : w₁.SameBooks w₂) (h₂ : w₂.SameBooks w₃) : w₁.SameBooks w₃ :=
  ⟨fun k hk => (h₂.reads k hk).trans (h₁.reads k hk), h₂.handed.trans h₁.handed,
    h₂.refuses.trans h₁.refuses⟩

/-- Whatever does not belong to the books may change. -/
theorem of_eq {w' : World 𝕊 ε} (hcounters : w'.counters = w.counters)
    (houtbox : w'.outbox = w.outbox) : w.SameBooks w' :=
  ⟨fun k _ => by rw [World.reads, World.reads, hcounters], by rw [houtbox], by rw [houtbox]⟩

theorem raise_stepRetries (w : World 𝕊 ε) : w.SameBooks (w.raise .stepRetries) := by
  refine ⟨fun k hk => ?_, rfl, rfl⟩
  rw [reads_of_raise (w := w) rfl, if_neg hk]
  rfl

theorem accepted (h : w₁.SameBooks w₂) : w₂.outbox.accepted = w₁.outbox.accepted := by
  funext i
  rw [Outbox.accepted, Outbox.accepted, h.handed, h.refuses]

theorem refused (h : w₁.SameBooks w₂) : w₂.outbox.refused = w₁.outbox.refused := by
  funext i
  rw [Outbox.refused, Outbox.refused, h.handed, h.refuses]

end SameBooks

end World

/-! ## Emitting -/

/-- What somebody with a packet does to the packet and the world who emits events, one at a time:
`before` and `after` are the records that are being handed over, and `log` lists the calls. -/
inductive Utters : Option Record → Packet × World 𝕊 ε → List (Emission 𝕊 ε) → Option Record →
    Packet × World 𝕊 ε → Prop
  | silent {before : Option Record} {p p' : Packet} {w w' : World 𝕊 ε} : w.SameBooks w' →
      Utters before (p, w) [] before (p', w')
  | ask {p : Packet} {w : World 𝕊 ε} (q : Request) :
      Utters none (p, w) [⟨q, p, w⟩] (Emission.mk q p w).record?
        (w.announce q p).2
  | hand {p : Packet} {w : World 𝕊 ε} (record : Record) :
      Utters (some record) (p, w) [] none (p, w.deliver record)
  | trans {before between after : Option Record} {s s' s'' : Packet × World 𝕊 ε}
      {log log' : List (Emission 𝕊 ε)} : Utters before s log between s' →
      Utters between s' log' after s'' → Utters before s (log ++ log') after s''

/-- Whether a record of a kind is being handed over. -/
def hands (i : Item) (pending : Option Record) : Bool := pending.any (·.item = i)

@[simp] theorem hands_none (i : Item) : hands i none = false := rfl

theorem hands_record? (e : Emission 𝕊 ε) (i : Item) : hands i e.record? = e.emits i := by
  unfold Emission.emits
  cases hrecord : e.record? with
  | none => simp
  | some record => simp [hands, Emission.item_of_record? hrecord]

/-- The books say what the calls say, apart from the records that are being handed over. -/
structure Posts (before : Option Record) (w : World 𝕊 ε) (log : List (Emission 𝕊 ε))
    (after : Option Record) (w' : World 𝕊 ε) : Prop where
  sent : ∀ i, w'.reads (.emitted i) + w'.reads (.storeFailed i) + (hands i after).toNat =
    w.reads (.emitted i) + w.reads (.storeFailed i) + (hands i before).toNat +
      log.countP (·.emits i)
  declined : ∀ i, w'.reads (.suppressed i) = w.reads (.suppressed i) + log.countP (·.declines i)
  accepted : ∀ i, w'.reads (.emitted i) + w.outbox.accepted i =
    w.reads (.emitted i) + w'.outbox.accepted i
  refused : ∀ i, w'.reads (.storeFailed i) + w.outbox.refused i =
    w.reads (.storeFailed i) + w'.outbox.refused i

namespace Posts

variable {before between after : Option Record} {w w' w'' : World 𝕊 ε}
variable {log log' : List (Emission 𝕊 ε)}

theorem of_sameBooks (h : w.SameBooks w') : Posts before w [] before w' where
  sent i := by rw [h.reads (.emitted i) nofun, h.reads (.storeFailed i) nofun]; rfl
  declined i := h.reads _ nofun
  accepted i := by rw [h.reads (.emitted i) nofun, h.accepted]
  refused i := by rw [h.reads (.storeFailed i) nofun, h.refused]

theorem trans (h : Posts before w log between w') (h' : Posts between w' log' after w'') :
    Posts before w (log ++ log') after w'' where
  sent i := by
    have h₁ := h.sent i
    have h₂ := h'.sent i
    rw [List.countP_append]
    omega
  declined i := by
    rw [List.countP_append, h'.declined i, h.declined i]
    omega
  accepted i := by
    have h₁ := h.accepted i
    have h₂ := h'.accepted i
    omega
  refused i := by
    have h₁ := h.refused i
    have h₂ := h'.refused i
    omega

theorem ask (w : World 𝕊 ε) (q : Request) (p : Packet) :
    Posts none w [⟨q, p, w⟩] (Emission.mk q p w).record?
      (w.announce q p).2.2 := by
  obtain ⟨houtbox, hreads⟩ := w.books_announce q p
  exact {
    sent := fun i => by
      simp [hreads, hands_record?, Places.toNat_eq_ite]
    declined := fun i => by
      simp [hreads, Places.toNat_eq_ite]
    accepted := fun i => by simp [hreads, houtbox]
    refused := fun i => by simp [hreads, houtbox] }

theorem hand (w : World 𝕊 ε) (record : Record) :
    Posts (some record) w [] none (w.deliver record) := by
  obtain ⟨houtbox, hreads⟩ := w.books_deliver record
  exact {
    sent := fun i => by
      simp only [hreads, hands, Option.any_some, Option.any_none, List.countP_nil]
      cases w.outbox.refuses w.outbox.handed.length <;> by_cases hitem : record.item = i <;>
        simp [hitem] <;> omega
    declined := fun i => by simp [hreads]
    accepted := fun i => by
      rw [hreads, houtbox, Outbox.accepted_put]
      simp only
      omega
    refused := fun i => by
      rw [hreads, houtbox, Outbox.refused_put]
      simp only
      omega }

end Posts

namespace Utters

variable {before after : Option Record} {s s' : Packet × World 𝕊 ε} {log : List (Emission 𝕊 ε)}

theorem refl (before : Option Record) (s : Packet × World 𝕊 ε) : Utters before s [] before s :=
  .silent (.refl s.2)

/-- A request that has been answered. -/
theorem of_announce {p p' : Packet} {w w' : World 𝕊 ε} {q : Request}
    {answer : Except Fault Request.Prepared} (h : w.announce q p = (answer, p', w')) :
    Utters none (p, w) [⟨q, p, w⟩]
      (Emission.recordIn? answer) (p', w') := by
  have hask := Utters.ask (p := p) (w := w) q
  simpa only [Emission.record?, Emission.answer, h] using hask

/-- What is done in silence afterwards adds no call. -/
theorem thenSilent (h : Utters before s log after s') {p : Packet} {w : World 𝕊 ε}
    (hsame : s'.2.SameBooks w) : Utters before s log after (p, w) :=
  List.append_nil log ▸ h.trans (.silent hsame)

/-- Whoever emits events keeps the books. -/
theorem posts (h : Utters before s log after s') : Posts before s.2 log after s'.2 := by
  induction h with
  | silent hsame => exact .of_sameBooks hsame
  | ask q => exact .ask _ q _
  | hand record => exact .hand _ record
  | trans _ _ ih ih' => exact ih.trans ih'

/-- Emitting events does not count attempts. -/
theorem attempts (h : Utters before s log after s') (r : AttemptResult) :
    s'.2.reads (.attempts r) = s.2.reads (.attempts r) ∧
      s'.2.reads (.durations r) = s.2.reads (.durations r) := by
  induction h with
  | silent hsame => exact ⟨hsame.reads _ nofun, hsame.reads _ nofun⟩
  | @ask p w q =>
    have hreads := (w.books_announce q p).2
    exact ⟨hreads (.attempts r), hreads (.durations r)⟩
  | @hand p w record =>
    have hreads := (w.books_deliver record).2
    exact ⟨hreads (.attempts r), hreads (.durations r)⟩
  | trans _ _ ih ih' => exact ⟨ih'.1.trans ih.1, ih'.2.trans ih.2⟩

end Utters

end Reconcile
