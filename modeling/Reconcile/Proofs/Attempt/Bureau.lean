import Reconcile.Proofs.Attempt.Emitting

/-!
# The books of all emissions

Operations, reports on namespaces and direct emissions share a world and take their turns in any
order.  Meanwhile time goes on, attempts are cancelled, the identity of the operator changes, and
the sink refuses what it likes.  A bureau lists the calls of emissions as they are made
(`Bureau.log`).

The counters of the world then agree with this list, with the hand-overs and with the operations
whose chains have ended, apart from the records that are being handed over (`Bureau.Books`).  When
everything is done there are no such records, and the books balance (`Bureau.balanced`).
-/

namespace Reconcile

variable {𝕊 β κ ε : Type}

/-! ## Tasks -/

/-- Something that emits events. -/
inductive Task (𝕊 β κ : Type)
  /-- An attempt at an operation. -/
  | operation (p : Processor 𝕊 β) (a : Attempt β κ)
  /-- A chain that nobody cancels, with a packet of its own. -/
  | report (policy : Retry.Policy 𝕊) (packet : Packet) (run : Run (Act β) (Activity κ))
  /-- Somebody with a packet who emits events directly. -/
  | caller (packet : Packet) (pending : Option Record)

namespace Task

/-- The report on a namespace. -/
def watch (policy : Retry.Policy 𝕊) (item : Item) (ns : String) : Task 𝕊 β κ :=
  .report policy .empty (.start (watchPlan item ns).build)

/-- Whether the task has not begun. -/
def IsFresh : Task 𝕊 β κ → Prop
  | operation _ a => a.stage = .prepared
  | report _ _ run => ∃ chain, run = .start chain
  | caller _ pending => pending = none

/-- Whether the task has ended with a result, or its call has returned. -/
def isOver : Task 𝕊 β κ → Bool
  | operation _ a => a.result?.isSome
  | report _ _ run => run.result?.isSome
  | caller _ pending => pending.isNone

/-- Whether the task is an operation that has returned with a result. -/
def hasReturned (r : AttemptResult) : Task 𝕊 β κ → Bool
  | operation _ a => a.result?.map .of = some r
  | report .. | caller .. => false

/-- Whether the task is an operation whose chain has ended with a result. -/
def isCounted (r : AttemptResult) : Task 𝕊 β κ → Bool
  | operation _ a => a.label? = some r
  | report .. | caller .. => false

/-- Whether the task is an operation for which no delay could be computed. -/
def HasCrashed : Task 𝕊 β κ → Prop
  | operation _ a => a.HasCrashed
  | report .. | caller .. => False

section

variable {custom : Behaviour β (Act β) κ (Packet × World 𝕊 ε)} (A : custom.Account)

/-- The record that is being handed over. -/
def pending : Task 𝕊 β κ → Option Record
  | operation _ a => a.pendingRecord A
  | report _ _ run => run.pendingRecord (Work.account A)
  | caller _ pending => pending

variable [Retry.Seconds 𝕊] [Named β]

/-- What a task does next, with the calls that it makes.  A caller who has no record makes the
request. -/
def next (q : Request) (w : World 𝕊 ε) :
    Task 𝕊 β κ → List (Emission 𝕊 ε) × Task 𝕊 β κ × World 𝕊 ε
  | operation p a =>
    let (a', w') := a.step p custom w
    (a.emissions A p w, operation p a', w')
  | report policy packet run =>
    let (run', packet', w') :=
      run.step (World.host fun _ => false) policy (Work.behaviour custom) (packet, w)
    (run.emissions (Work.account A) (fun _ => false) (packet, w), report policy packet' run', w')
  | caller packet none =>
    let (_, packet', w') := w.announce q packet
    ([⟨q, packet, w⟩], caller packet' (Emission.mk q packet w).record?, w')
  | caller packet (some record) => ([], caller packet none, w.deliver record)

/-- What a step of a task does to the books. -/
structure Posts (t : Task 𝕊 β κ) (w : World 𝕊 ε) (log : List (Emission 𝕊 ε)) (t' : Task 𝕊 β κ)
    (w' : World 𝕊 ε) : Prop extends Reconcile.Posts (t.pending A) w log (t'.pending A) w' where
  attempts : ∀ r, w'.reads (.attempts r) + (t.isCounted r).toNat =
    w.reads (.attempts r) + (t'.isCounted r).toNat
  durations : ∀ r, w'.reads (.durations r) + (t.isCounted r).toNat =
    w.reads (.durations r) + (t'.isCounted r).toNat

end

section

variable {custom : Behaviour β (Act β) κ (Packet × World 𝕊 ε)} {A : custom.Account}
variable {t t' : Task 𝕊 β κ} {w w' : World 𝕊 ε} {log : List (Emission 𝕊 ε)}

variable (A) in
theorem pending_of_isFresh (h : t.IsFresh) : t.pending A = none := by
  cases t with
  | operation p a =>
    have hstage : a.stage = .prepared := h
    simp only [pending, Attempt.pendingRecord, hstage]
  | report policy packet run =>
    obtain ⟨chain, rfl⟩ := h
    rfl
  | caller packet pending => exact h

theorem isCounted_of_isFresh (h : t.IsFresh) (r : AttemptResult) : t.isCounted r = false := by
  cases t with
  | operation p a =>
    have hstage : a.stage = .prepared := h
    simp [isCounted, Attempt.label?, Attempt.decided?, hstage]
  | report | caller => rfl

variable (A) in
theorem pending_of_isOver (h : t.isOver = true) : t.pending A = none := by
  cases t with
  | operation p a =>
    obtain ⟨m, stage⟩ := a
    cases stage with
    | ended => rfl
    | prepared | running | reporting | crashed => cases h
  | report policy packet run =>
    obtain ⟨retries, waiting, phase, journal⟩ := run
    cases phase with
    | ended => rfl
    | ready | acting | waiting | crashed => cases h
  | caller packet pending => exact Option.isNone_iff_eq_none.1 h

/-- In the end those operations have been counted that have returned. -/
theorem isCounted_of_isOver (h : t.isOver = true) (r : AttemptResult) :
    t.isCounted r = t.hasReturned r := by
  cases t with
  | operation p a =>
    obtain ⟨result, hresult⟩ := Option.isSome_iff_exists.1 h
    simp only [isCounted, hasReturned, Attempt.label?, Attempt.decided_of_result hresult, hresult]
  | report | caller => rfl

theorem not_hasCrashed_of_isOver (h : t.isOver = true) : ¬ t.HasCrashed := by
  cases t with
  | operation p a =>
    rintro (hstage : a.stage = .crashed)
    have hnone : a.result? = none := by simp only [Attempt.result?, hstage]
    simp [isOver, hnone] at h
  | report | caller => exact id

/-- A step with which no operation is counted. -/
theorem Posts.of_utters {packet packet' : Packet}
    (h : Utters (t.pending A) (packet, w) log (t'.pending A) (packet', w'))
    (hsame : ∀ r, t'.isCounted r = t.isCounted r) : Posts A t w log t' w' where
  toPosts := h.posts
  attempts r := by rw [hsame, (h.attempts r).1]
  durations r := by rw [hsame, (h.attempts r).2]

/-- The operation is counted when its chain has ended. -/
theorem Posts.of_concludes {r : AttemptResult} (hpending : t.pending A = none)
    (hpending' : t'.pending A = none) (hbefore : ∀ x, t.isCounted x = false)
    (hafter : ∀ x, t'.isCounted x = decide (r = x))
    (hbooks : World.SameBooks { w with counters := w.counters.raiseAttempt r } w') :
    Posts A t w [] t' w' := by
  have hreads : ∀ k, k ≠ .stepRetries →
      w'.reads k = w.reads k + if k = .attempts r ∨ k = .durations r then 1 else 0 := by
    intro k hk
    rw [hbooks.reads k hk]
    exact World.reads_of_raiseAttempt rfl k
  have haccepted : w'.outbox.accepted = w.outbox.accepted := hbooks.accepted
  have hrefused : w'.outbox.refused = w.outbox.refused := hbooks.refused
  exact {
    sent := fun i => by simp [hreads, hpending, hpending']
    declined := fun i => by simp [hreads]
    accepted := fun i => by simp [hreads, haccepted]
    refused := fun i => by simp [hreads, hrefused]
    attempts := fun x => by simp [hreads, hbefore, hafter, Places.toNat_eq_ite, eq_comm]
    durations := fun x => by simp [hreads, hbefore, hafter, Places.toNat_eq_ite, eq_comm] }

variable [Retry.Seconds 𝕊] [Named β]

/-- A step of a task does to the books what it is said to do, unless the operation crashes. -/
theorem next_posts (t : Task 𝕊 β κ) (q : Request) (w : World 𝕊 ε)
    (hcrashed : ¬ (t.next A q w).2.1.HasCrashed) :
    Posts A t w (t.next A q w).1 (t.next A q w).2.1 (t.next A q w).2.2 := by
  cases t with
  | operation p a =>
    have hspeaks := a.step_speaks A p w
    simp only [next] at hcrashed ⊢
    generalize a.step p custom w = after at hspeaks hcrashed ⊢
    cases hspeaks with
    | goesOn hutters hlabel => exact .of_utters hutters fun r => by simp only [isCounted, hlabel]
    | concludes hpending hpending' hlog hbefore hafter hbooks =>
      rw [hlog]
      exact .of_concludes hpending hpending' (fun x => by simp [isCounted, hbefore])
        (fun x => by simp [isCounted, hafter]) hbooks
    | crashes hstage => exact (hcrashed hstage).elim
  | report policy packet run =>
    exact .of_utters (run.utters_step (Work.account A) (fun _ => false) policy (packet, w))
      fun r => rfl
  | caller packet pending =>
    match pending with
    | none => exact .of_utters (.ask q) fun r => rfl
    | some record => exact .of_utters (.hand (p := packet) record) fun r => rfl

/-- What has crashed stays so. -/
theorem hasCrashed_next (h : t.HasCrashed) (q : Request) (w : World 𝕊 ε) :
    (t.next A q w).2.1.HasCrashed := by
  cases t with
  | operation p a =>
    obtain ⟨m, stage⟩ := a
    cases stage with
    | crashed => rfl
    | prepared | running | reporting | ended => cases h
  | report | caller => cases h

end

end Task

/-! ## Bureaus -/

/-- Tasks in a shared world, and the calls of emissions that have been made. -/
structure Bureau (𝕊 β κ ε : Type) where
  tasks : List (Task 𝕊 β κ)
  world : World 𝕊 ε
  log : List (Emission 𝕊 ε)

namespace Bureau

/-- One more task. -/
def join (b : Bureau 𝕊 β κ ε) (t : Task 𝕊 β κ) : Bureau 𝕊 β κ ε :=
  { b with tasks := b.tasks ++ [t] }

/-- The same tasks in another world. -/
def elapse (b : Bureau 𝕊 β κ ε) (w : World 𝕊 ε) : Bureau 𝕊 β κ ε := { b with world := w }

variable {custom : Behaviour β (Act β) κ (Packet × World 𝕊 ε)} (A : custom.Account)

section

variable [Retry.Seconds 𝕊] [Named β]

/-- A task does what comes next. -/
def turn (q : Request) (b : Bureau 𝕊 β κ ε) (k : Nat) : Bureau 𝕊 β κ ε :=
  match b.tasks[k]? with
  | none => b
  | some t =>
    let (log, t', w) := t.next A q b.world
    ⟨b.tasks.set k t', w, b.log ++ log⟩

/-- What can happen in a bureau. -/
inductive Move (b : Bureau 𝕊 β κ ε) : Bureau 𝕊 β κ ε → Prop
  | join {t : Task 𝕊 β κ} : t.IsFresh → Move b (b.join t)
  | turn (q : Request) (k : Nat) : Move b (b.turn A q k)
  /-- Time goes on, an attempt is cancelled, the identity changes, the store is cleared: whatever
  does not touch the books. -/
  | elapse {w : World 𝕊 ε} : b.world.SameBooks w → Move b (b.elapse w)

/-- The bureaus that begin with empty books. -/
inductive Reachable : Bureau 𝕊 β κ ε → Prop
  | initial {w : World 𝕊 ε} : (∀ k, k ≠ .stepRetries → w.reads k = 0) → w.outbox.handed = [] →
      Reachable ⟨[], w, []⟩
  | move {b b' : Bureau 𝕊 β κ ε} : Reachable b → Move A b b' → Reachable b'

end

/-- The books agree with the calls, the hand-overs and the operations. -/
structure Books (b : Bureau 𝕊 β κ ε) : Prop where
  sent : ∀ i, b.world.reads (.emitted i) + b.world.reads (.storeFailed i) +
    b.tasks.countP (fun t => hands i (t.pending A)) = b.log.countP (·.emits i)
  declined : ∀ i, b.world.reads (.suppressed i) = b.log.countP (·.declines i)
  accepted : ∀ i, b.world.reads (.emitted i) = b.world.outbox.accepted i
  refused : ∀ i, b.world.reads (.storeFailed i) = b.world.outbox.refused i
  attempts : ∀ r, b.world.reads (.attempts r) = b.tasks.countP (·.isCounted r)
  durations : ∀ r, b.world.reads (.durations r) = b.tasks.countP (·.isCounted r)

namespace Books

variable {A} {b : Bureau 𝕊 β κ ε}

theorem initial {w : World 𝕊 ε} (hzero : ∀ k, k ≠ .stepRetries → w.reads k = 0)
    (hnone : w.outbox.handed = []) : Books A (⟨[], w, []⟩ : Bureau 𝕊 β κ ε) where
  sent i := by simp [hzero]
  declined i := hzero _ nofun
  accepted i := by simp [hzero, Outbox.accepted, hnone]
  refused i := by simp [hzero, Outbox.refused, hnone]
  attempts r := hzero _ nofun
  durations r := hzero _ nofun

theorem join (h : Books A b) {t : Task 𝕊 β κ} (hfresh : t.IsFresh) :
    Books A (b.join t) where
  sent i := by
    simp only [Bureau.join]
    rw [List.countP_append, ← h.sent i]
    simp [Task.pending_of_isFresh A hfresh]
  declined := h.declined
  accepted := h.accepted
  refused := h.refused
  attempts r := by
    simp only [Bureau.join]
    rw [List.countP_append, h.attempts]
    simp [Task.isCounted_of_isFresh hfresh]
  durations r := by
    simp only [Bureau.join]
    rw [List.countP_append, h.durations]
    simp [Task.isCounted_of_isFresh hfresh]

theorem elapse (h : Books A b) {w : World 𝕊 ε} (hsame : b.world.SameBooks w) :
    Books A (b.elapse w) where
  sent i := by
    simp only [Bureau.elapse]
    rw [hsame.reads (.emitted i) nofun, hsame.reads (.storeFailed i) nofun]
    exact h.sent i
  declined i := (hsame.reads (.suppressed i) nofun).trans (h.declined i)
  accepted i := by
    simp only [Bureau.elapse]
    rw [hsame.reads (.emitted i) nofun, hsame.accepted]
    exact h.accepted i
  refused i := by
    simp only [Bureau.elapse]
    rw [hsame.reads (.storeFailed i) nofun, hsame.refused]
    exact h.refused i
  attempts r := (hsame.reads (.attempts r) nofun).trans (h.attempts r)
  durations r := (hsame.reads (.durations r) nofun).trans (h.durations r)

/-- A task makes a step. -/
theorem act (h : Books A b) {k : Nat} {t t' : Task 𝕊 β κ} {w : World 𝕊 ε}
    {log : List (Emission 𝕊 ε)} (htask : b.tasks[k]? = some t)
    (hposts : Task.Posts A t b.world log t' w) :
    Books A ⟨b.tasks.set k t', w, b.log ++ log⟩ where
  sent i := by
    have hbefore := h.sent i
    have hstep := hposts.sent i
    have hcount := Places.countP_replace htask (fun t => hands i (t.pending A)) t'
    rw [List.countP_append]
    simp only at hcount ⊢
    omega
  declined i := by
    rw [List.countP_append, hposts.declined i, h.declined i]
  accepted i := by
    have hbefore := h.accepted i
    have hstep := hposts.accepted i
    simp only
    omega
  refused i := by
    have hbefore := h.refused i
    have hstep := hposts.refused i
    simp only
    omega
  attempts r := by
    have hbefore := h.attempts r
    have hstep := hposts.attempts r
    have hcount := Places.countP_replace htask (·.isCounted r) t'
    simp only at hcount ⊢
    omega
  durations r := by
    have hbefore := h.durations r
    have hstep := hposts.durations r
    have hcount := Places.countP_replace htask (·.isCounted r) t'
    simp only at hcount ⊢
    omega

end Books

section

variable [Retry.Seconds 𝕊] [Named β] {A} {b : Bureau 𝕊 β κ ε}

/-- As long as no operation has crashed, the books are right. -/
theorem Reachable.books (h : Reachable A b) (hsound : ∀ t ∈ b.tasks, ¬ t.HasCrashed) :
    Books A b := by
  induction h with
  | initial hzero hnone => exact .initial hzero hnone
  | @move b b' _ hmove ih =>
    cases hmove with
    | join hfresh => exact (ih fun t ht => hsound t (List.mem_append_left _ ht)).join hfresh
    | elapse hsame => exact (ih hsound).elapse hsame
    | turn q k =>
      unfold turn at hsound ⊢
      cases htask : b.tasks[k]? with
      | none =>
        simp only [htask] at hsound
        exact ih hsound
      | some t =>
        simp only [htask] at hsound
        have hlength := (List.getElem?_eq_some_iff.1 htask).1
        have hother := hsound _ (List.mem_of_getElem? (List.getElem?_set_self hlength))
        refine (ih fun x hx => ?_).act htask (t.next_posts q b.world hother)
        obtain ⟨j, hplace⟩ := List.mem_iff_getElem?.1 hx
        rcases Places.replaced_or_kept htask hplace (t.next A q b.world).2.1 with
          ⟨-, rfl, -⟩ | ⟨-, hkept⟩
        · exact fun hcrashed => hother (Task.hasCrashed_next hcrashed q b.world)
        · exact hsound x (List.mem_of_getElem? hkept)

/-- The tasks begin. -/
theorem Reachable.foldl_join (h : Reachable A b) {ts : List (Task 𝕊 β κ)}
    (hfresh : ∀ t ∈ ts, t.IsFresh) : Reachable A (ts.foldl join b) := by
  induction ts generalizing b with
  | nil => exact h
  | cons t ts ih =>
    rw [List.forall_mem_cons] at hfresh
    exact ih (h.move (.join hfresh.1)) hfresh.2

/-- The tasks take turns. -/
theorem Reachable.foldl_turn (h : Reachable A b) (q : Request) (ks : List Nat) :
    Reachable A (ks.foldl (turn A q) b) := by
  induction ks generalizing b with
  | nil => exact h
  | cons k ks ih => exact ih (h.move (.turn q k))

end

/-- The counters, the calls of emissions, the hand-overs and the operations agree. -/
structure Balanced (b : Bureau 𝕊 β κ ε) : Prop where
  sent : ∀ i, b.world.reads (.emitted i) + b.world.reads (.storeFailed i) =
    b.log.countP (·.emits i)
  /-- The calls have appended the reason to the histories of packets as often. -/
  appended : ∀ i, (b.log.flatMap Emission.appended).count i.reason = b.log.countP (·.emits i)
  accepted : ∀ i, b.world.reads (.emitted i) = b.world.outbox.accepted i
  refused : ∀ i, b.world.reads (.storeFailed i) = b.world.outbox.refused i
  declined : ∀ i, b.world.reads (.suppressed i) = b.log.countP (·.declines i)
  /-- A call with a fault is no emission and has left no trace. -/
  faults : ∀ e ∈ b.log, ∀ fault, e.answer = .error fault →
    (∀ i, e.emits i = false ∧ e.declines i = false) ∧
      (e.world.announce e.request e.packet).2 = (e.packet, e.world)
  /-- Every operation has been counted once, by its result. -/
  attempts : ∀ r, b.world.reads (.attempts r) = b.tasks.countP (·.hasReturned r)
  durations : ∀ r, b.world.reads (.durations r) = b.tasks.countP (·.hasReturned r)

variable [Retry.Seconds 𝕊] [Named β] {A} {b : Bureau 𝕊 β κ ε}

/-- When everything that has begun in a bureau has ended, its books balance. -/
theorem balanced (h : Reachable A b) (hover : ∀ t ∈ b.tasks, t.isOver = true) : b.Balanced := by
  have hbooks := h.books fun t ht => Task.not_hasCrashed_of_isOver (hover t ht)
  have hcounted : ∀ r, b.tasks.countP (·.isCounted r) = b.tasks.countP (·.hasReturned r) :=
    fun r => List.countP_congr fun t ht => by rw [Task.isCounted_of_isOver (hover t ht)]
  have hnone : ∀ i, b.tasks.countP (fun t => hands i (t.pending A)) = 0 := by
    refine fun i => List.countP_eq_zero.2 fun t ht => ?_
    simp [Task.pending_of_isOver A (hover t ht)]
  exact {
    sent := fun i => by rw [← hbooks.sent i, hnone, Nat.add_zero]
    appended := Emission.count_appended b.log
    accepted := hbooks.accepted
    refused := hbooks.refused
    declined := hbooks.declined
    faults := fun e _ fault hfault =>
      ⟨Emission.not_emits_of_error hfault, Emission.untouched_of_error hfault⟩
    attempts := fun r => (hbooks.attempts r).trans (hcounted r)
    durations := fun r => (hbooks.durations r).trans (hcounted r) }

end Bureau

/-! ### A desk for everything -/

namespace Desk

inductive Act
  | announceChange

instance : Named Act := ⟨fun _ => "announce-change"⟩

/-- The action emits an event itself. -/
def behaviour : Behaviour Act (Reconcile.Act Act) Record (Packet × World Rat Unit) where
  start _ s :=
    match s.2.announce (.of .resourceChanged) s.1 with
    | (.error fault, s) => (.done (.error fault), s)
    | (.ok (.suppressed _), s) => (.done (.ok .proceed), s)
    | (.ok (.record record), s) => (.paused record, s)
  resume record s := (.done (.ok .proceed), s.1, s.2.deliver record)

def account : behaviour.Account where
  pending := some
  started _ s := [⟨.of .resourceChanged, s.1, s.2⟩]
  resumed _ _ := []
  start
    | _, (p, w) => by
      rcases hanswer : w.announce (.of .resourceChanged) p with ⟨answer, p', w'⟩
      simp only [behaviour, hanswer]
      match answer with
      | .error _ | .ok (.suppressed _) | .ok (.record _) => exact .of_announce hanswer
  resume record _ := .hand record

def processor : Processor Rat Act :=
  ⟨Handover.processor.policy, 2, 0, fun _ => .act (.custom .announceChange)⟩

def domain : Domain := .named "uid" "ns"

/-- A world in which the second hand-over is refused. -/
def world : World Rat Unit := { Handover.world with outbox := .empty (· == 1) }

/-- Two attempts on one domain, of which the second asks for an event about a namespace that it
does not name, a report on a namespace and a caller. -/
def tasks : List (Task Rat Act Record) :=
  [.operation processor (.prepare (.of domain)),
    .operation processor (.prepare
      ⟨domain, none, some (Steps.event (.of .namespaceWatchingStarted))⟩),
    .watch processor.policy .namespaceWatchingStarted "ns", .caller (.forDomain domain) none]

theorem isFresh_of_mem_tasks {t : Task Rat Act Record} (h : t ∈ tasks) : t.IsFresh := by
  simp only [tasks, List.mem_cons, List.not_mem_nil, or_false] at h
  rcases h with rfl | rfl | rfl | rfl
  · rfl
  · rfl
  · exact ⟨_, rfl⟩
  · rfl

def opened : Bureau Rat Act Record Unit := tasks.foldl .join ⟨[], world, []⟩

/-- The operator learns who it is. -/
def identify (b : Bureau Rat Act Record Unit) (i : Identity) : Bureau Rat Act Record Unit :=
  b.elapse { b.world with identity := i }

/-- The caller makes a request while the operator does not know who it is. -/
def interrupted : Bureau Rat Act Record Unit :=
  identify ((identify opened ⟨none, none⟩).turn account (.of .resourceCreated) 3) world.identity

/-- The second attempt begins while the first one has its action under way. -/
def closed : Bureau Rat Act Record Unit :=
  ([0, 0, 0, 0, 2, 3] ++ List.replicate 8 1 ++ List.replicate 6 0 ++ List.replicate 12 1 ++
    List.replicate 6 2).foldl (Bureau.turn account (.of .processingCompleted)) interrupted

theorem reachable_identify {b : Bureau Rat Act Record Unit} (h : Bureau.Reachable account b)
    (i : Identity) : Bureau.Reachable account (identify b i) :=
  h.move (.elapse (.of_eq rfl rfl))

theorem reachable : Bureau.Reachable account closed := by
  have hopened : Bureau.Reachable account opened :=
    .foldl_join (.initial (fun _ _ => rfl) rfl) fun _ => isFresh_of_mem_tasks
  have hasked := (reachable_identify hopened ⟨none, none⟩).move (.turn (.of .resourceCreated) 3)
  exact (reachable_identify hasked world.identity).foldl_turn _ _

/-- Both attempts have reported their start to their packets, although one of the two records has
been refused.  One attempt has been cancelled, and the other one has failed. -/
theorem closed_balanced : (∀ t ∈ closed.tasks, t.isOver = true) ∧ closed.Balanced ∧
    (closed.log.flatMap Emission.appended).count Item.processingStarting.reason = 2 ∧
    closed.world.outbox.accepted .processingStarting = 1 ∧
    closed.log.countP (·.declines .processingCompleted) = 1 ∧
    closed.tasks.countP (·.hasReturned .cancelled) = 1 ∧
    closed.tasks.countP (·.hasReturned .failed) = 1 := by
  have hover : ∀ t ∈ closed.tasks, t.isOver = true := List.all_eq_true.1 rfl
  have hbalanced := Bureau.balanced reachable hover
  refine ⟨hover, hbalanced, ?_, ?_, ?_, ?_, ?_⟩
  · rw [hbalanced.appended, ← hbalanced.sent]
    rfl
  · rw [← hbalanced.accepted]
    rfl
  · rw [← hbalanced.declined]
    rfl
  · rw [← hbalanced.attempts]
    rfl
  · rw [← hbalanced.durations]
    rfl

end Desk

end Reconcile
