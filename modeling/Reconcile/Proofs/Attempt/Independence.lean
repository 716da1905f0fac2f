import Reconcile.Proofs.Attempt.Fleet
import Reconcile.Proofs.Attempt.Unison
import Reconcile.Proofs.Engine.Framing

/-!
# Operations on different domains

Some operations on pairwise different domains are attempted side by side.  Their attempts take
their steps in any order, and others do what they like on other domains: they cancel attempts
there, and make and abandon attempts of their own (`Fleet.Beside`).  Every attempt then stands where
it would stand alone after as many steps (`Attempt.alone`), if one does not count the steps in
which it does nothing but wait (`Fleet.Paced`).

So what it returns, the records that it hands over, its packet and the failures of its domain are
what they are when it is alone.  The records of several attempts mix in the sink.  What a sink that
refuses nothing counts does not depend on how they are mixed (`Fleet.independent`).
-/

namespace Reconcile

variable {𝕊 β κ ε : Type}

/-! ## An attempt alone -/

namespace Attempt

/-- The world in which an attempt takes its next step when it is alone: it sleeps through a
wait. -/
def slept (a : Attempt β κ) (w : World 𝕊 ε) : World 𝕊 ε :=
  match a.run? with
  | some run => run.phase.slept (fun deadline w => w.sleepUntil deadline) w
  | none => w

theorem slept_handsOver (a : Attempt β κ) (w : World 𝕊 ε) : w.HandsOver [] (a.slept w) := by
  unfold slept
  split
  case h_1 =>
    unfold Phase.slept
    split <;> exact ⟨rfl, rfl, rfl, rfl⟩
  case h_2 => exact ⟨rfl, rfl, rfl, rfl⟩

theorem isAsleep_slept (a : Attempt β κ) (w : World 𝕊 ε) : a.isAsleep (a.slept w).now = false := by
  cases hrun : a.run? with
  | none => simp [isAsleep, hrun]
  | some run =>
    cases hphase : run.phase with
    | waiting node more deadline =>
      simp [isAsleep, slept, hrun, hphase, Phase.slept, Phase.isAsleep, World.sleepUntil]
    | ready | acting | ended | crashed => simp [isAsleep, hrun, hphase, Phase.isAsleep]

theorem IsSettled.slept {p : Processor 𝕊 β} {a : Attempt β κ} {w : World 𝕊 ε}
    (h : a.IsSettled p w) : a.IsSettled p (a.slept w) :=
  h.elsewhere ((a.slept_handsOver w).undergoes p.registry _)

variable [Retry.Seconds 𝕊] [Named β]
variable (p : Processor 𝕊 β) (custom : Behaviour β (Act β) κ (Packet × World 𝕊 ε))

/-- An attempt at an operation after a number of its steps, when nothing else happens in the
world. -/
def alone (m : MakeRight β) (w : World 𝕊 ε) : Nat → Attempt β κ × World 𝕊 ε
  | 0 => (.prepare m, w)
  | n + 1 =>
    let x := alone m w n
    x.1.step p custom (x.1.slept x.2)

variable {p custom} {m : MakeRight β} {w : World 𝕊 ε}

theorem operation_alone (n : Nat) : (alone p custom m w n).1.operation = m := by
  induction n with
  | zero => rfl
  | succ n ih =>
    rw [alone, step_operation]
    exact ih

/-- An attempt that is over stays as it is. -/
theorem alone_of_le {n k : Nat} (hover : (alone p custom m w n).1.IsOver) (hle : n ≤ k) :
    alone p custom m w k = alone p custom m w n := by
  induction hle with
  | refl => rfl
  | @step k hle ih =>
    rw [alone, ih]
    generalize alone p custom m w n = x at hover
    obtain ⟨⟨m, stage⟩, w⟩ := x
    cases stage with
    | ended | crashed => rfl
    | prepared | running | reporting => exact hover.elim

theorem alone_isSettled (hcustom : custom.KeepsToPacket)
    (hsound : (w.registry p.registry).IsSound) (n : Nat) :
    (alone p custom m w n).1.IsSettled p (alone p custom m w n).2 := by
  induction n with
  | zero => exact .prepare hsound m
  | succ n ih => exact ih.slept.step hcustom

theorem alone_serves_succ (hcustom : custom.KeepsToPacket)
    (hsound : (w.registry p.registry).IsSound) (n : Nat) :
    (alone p custom m w n).2.Serves p m.domain.uid (alone p custom m w n).1.handing
      (alone p custom m w (n + 1)).2 := by
  have howns := (alone_isSettled (m := m) hcustom hsound n).owns
  have hoperation : (alone p custom m w n).1.operation = m := operation_alone n
  rw [alone]
  generalize alone p custom m w n = x at howns hoperation ⊢
  subst hoperation
  exact (World.Serves.of_handsOver (x.1.slept_handsOver x.2)).trans (step_serves hcustom howns _)

theorem alone_serves (hcustom : custom.KeepsToPacket) (hsound : (w.registry p.registry).IsSound)
    (n : Nat) :
    w.Serves p m.domain.uid (w.handedSince (alone p custom m w n).2)
      (alone p custom m w n).2 := by
  induction n with
  | zero =>
    rw [alone, World.handedSince_of_eq rfl]
    exact .of_handsOver ⟨rfl, rfl, rfl, rfl⟩
  | succ n ih =>
    have hall := ih.trans (alone_serves_succ hcustom hsound n)
    rw [hall.handedSince_eq]
    exact hall

theorem handedSince_alone_succ (hcustom : custom.KeepsToPacket)
    (hsound : (w.registry p.registry).IsSound) (n : Nat) :
    w.handedSince (alone p custom m w (n + 1)).2 =
      w.handedSince (alone p custom m w n).2 ++ (alone p custom m w n).1.handing :=
  ((alone_serves hcustom hsound n).trans (alone_serves_succ hcustom hsound n)).handedSince_eq

/-- An attempt that is awake and in unison with one that is alone takes the next step with it. -/
theorem InUnison.step_alone (hcustom : custom.KeepsToPacket) {x : Attempt β κ × World 𝕊 ε} {n : Nat}
    (h : InUnison p x (alone p custom m w n)) (hawake : x.1.isAsleep x.2.now = false) :
    InUnison p (x.1.step p custom x.2) (alone p custom m w (n + 1)) := by
  rw [alone]
  generalize alone p custom m w n = y at h ⊢
  have hslept := y.1.slept_handsOver y.2
  have hkindred : (y.1.slept y.2).Kindred p.policy y.2 :=
    (h.kindred.symm.trans h.kindred).of_eq hslept.identity hslept.spread
  have hunison : InUnison p x (y.1, y.1.slept y.2) :=
    (h.symm.elsewhere hkindred (hslept.undergoes p.registry _)).symm
  exact hunison.step hcustom hawake (y.1.isAsleep_slept y.2)

end Attempt

/-! ## Attempts side by side -/

/-- Something happens in the world that touches neither the registry nor the sink and does not
change who the operator is: time passes, say. -/
structure World.Elapses [Retry.Seconds 𝕊] (p : Processor 𝕊 β) (w w' : World 𝕊 ε) : Prop where
  registry : w'.registry p.registry = w.registry p.registry
  outbox : w'.outbox = w.outbox
  kindred : w'.Kindred p.policy w

/-- The record that is handed over with an occurrence, if it is one of certain attempts. -/
def Occurrence.recordOf (who : Nat → Bool) : Occurrence β → Option Record
  | .reported i _ record => if who i then some record else none
  | _ => none

namespace Fleet

/-- The records that certain attempts have handed over, in this order. -/
def records (f : Fleet 𝕊 β κ ε) (who : Nat → Bool) : List Record :=
  (f.history.filterMap (Occurrence.recordOf who)).reverse

/-- Whether an attempt waits for a moment that has not come, or there is no such attempt. -/
def isIdle (f : Fleet 𝕊 β κ ε) (i : Nat) : Bool :=
  (f.attempts[i]?).all fun a => a.isAsleep f.world.now

/-- The numbers of steps after an attempt has been advanced.  A step in which it only waits is not
counted. -/
def count (f : Fleet 𝕊 β κ ε) (turns : Nat → Nat) (i : Nat) : Nat → Nat :=
  fun j => if j = i ∧ f.isIdle i = false then turns j + 1 else turns j

/-- The records of a sort are those of the first attempts and those of the others. -/
theorem countP_records (f : Fleet 𝕊 β κ ε) (sort : Record → Bool) (n : Nat) :
    (f.records fun _ => true).countP sort =
      ∑ i ∈ Finset.range n, (f.records (· == i)).countP sort +
        (f.records (n ≤ ·)).countP sort := by
  simp only [records, List.countP_reverse]
  induction f.history with
  | nil => simp
  | cons e history ih =>
    cases e with
    | reported j node record =>
      have hcons : ∀ who : Nat → Bool,
          ((Occurrence.reported j node record :: history).filterMap
              (Occurrence.recordOf who)).countP sort =
            (history.filterMap (Occurrence.recordOf who)).countP sort +
              if who j && sort record then 1 else 0 := by
        intro who
        cases hwho : who j <;> simp [Occurrence.recordOf, hwho, List.countP_cons]
      have hsum : (∑ i ∈ Finset.range n, if (j == i) && sort record then 1 else 0) =
          if j < n ∧ sort record then 1 else 0 := by
        by_cases hsort : sort record <;> simp [hsort]
      rw [hcons, ih]
      simp only [hcons, Finset.sum_add_distrib, hsum]
      by_cases hj : j < n
      · simp [hj, Nat.not_le.2 hj]
        omega
      · simp [hj, Nat.not_lt.1 hj]
        omega
    | began | cancelled | started => exact ih

/-- None of the first attempts is under way any more. -/
def IsOver (f : Fleet 𝕊 β κ ε) (n : Nat) : Prop :=
  ∀ i < n, ∃ a, f.attempts[i]? = some a ∧ a.IsOver

/-- A step of an attempt is accompanied by the record that the attempt has been handing over. -/
theorem filterMap_occurrences (who : Nat → Bool) (i : Nat) (a a' : Attempt β κ) :
    (a.occurrences i a').filterMap (Occurrence.recordOf who) =
      if who i then a.handing else [] := by
  have hstarts : (Attempt.starts i a a').filterMap (Occurrence.recordOf who) = [] := by
    rw [List.filterMap_eq_nil_iff]
    intro e he
    unfold Attempt.starts at he
    split at he
    · obtain ⟨node, -, rfl⟩ := Attempt.eq_started_of_mem he
      rfl
    · cases he
  have hbegins : (Attempt.begins i a a').filterMap (Occurrence.recordOf who) = [] := by
    unfold Attempt.begins
    split <;> rfl
  have hreports : (a.reports i).filterMap (Occurrence.recordOf who) =
      if who i then a.handing else [] := by
    unfold Attempt.reports Attempt.handing
    cases hrun : a.run? with
    | none => simp
    | some run =>
      obtain ⟨retries, pending, phase, journal⟩ := run
      cases phase with
      | acting node more activity =>
        cases activity with
        | handing record => cases hwho : who i <;> simp [Run.handing, Occurrence.recordOf, hwho]
        | custom k => simp [Run.handing]
      | ready | waiting | ended | crashed => simp [Run.handing]
  rw [Attempt.occurrences, List.filterMap_append, List.filterMap_append, hstarts, hbegins, hreports,
    List.nil_append, List.append_nil]

/-! ### Moves -/

variable [Retry.Seconds 𝕊] [Named β]
variable (p : Processor 𝕊 β) (custom : Behaviour β (Act β) κ (Packet × World 𝕊 ε))

/-- The fleets that come about when some operations are attempted side by side, together with the
numbers of steps that their attempts have taken.  Others keep to other domains. -/
inductive Beside (ms : List (MakeRight β)) (w : World 𝕊 ε) : (Nat → Nat) → Fleet 𝕊 β κ ε → Prop
  | initial : Beside ms w (fun _ => 0) ⟨ms.map Attempt.prepare, w, []⟩
  | advance {turns : Nat → Nat} {f : Fleet 𝕊 β κ ε} (i : Nat) :
      Beside ms w turns f → Beside ms w (f.count turns i) (f.advance p custom i)
  | launch {turns : Nat → Nat} {f : Fleet 𝕊 β κ ε} {m : MakeRight β} :
      (∀ n ∈ ms, m.domain.uid ≠ n.domain.uid) → Beside ms w turns f →
      Beside ms w turns (f.launch m)
  | cancel {turns : Nat → Nat} {f : Fleet 𝕊 β κ ε} {uid : String} :
      (∀ n ∈ ms, uid ≠ n.domain.uid) → Beside ms w turns f → Beside ms w turns (f.cancel p uid)
  | elapse {turns : Nat → Nat} {f : Fleet 𝕊 β κ ε} {w' : World 𝕊 ε} :
      f.world.Elapses p w' → Beside ms w turns f → Beside ms w turns { f with world := w' }

variable {p custom}

/-- An attempt that has been advanced, and what has become of the fleet. -/
theorem advance_eq {f : Fleet 𝕊 β κ ε} {i : Nat} {a : Attempt β κ}
    (hattempt : f.attempts[i]? = some a) :
    f.advance p custom i = ⟨f.attempts.set i (a.step p custom f.world).1,
      (a.step p custom f.world).2, a.occurrences i (a.step p custom f.world).1 ++ f.history⟩ := by
  rw [advance, hattempt]

theorem records_advance {f : Fleet 𝕊 β κ ε} {i : Nat} {a : Attempt β κ}
    (hattempt : f.attempts[i]? = some a) (who : Nat → Bool) :
    (f.advance p custom i).records who = f.records who ++ if who i then a.handing else [] := by
  have hsingle : a.handing.reverse = a.handing := by
    unfold Attempt.handing Run.handing
    split
    · split <;> rfl
    · rfl
  rw [advance_eq hattempt, records, records, List.filterMap_append, filterMap_occurrences,
    List.reverse_append]
  split
  · rw [hsingle]
  · rfl

/-! ### The invariant -/

/-- The attempts at the operations are in unison with ones that are alone, no other attempt is at
one of their domains, and what is in the outbox has been handed over by attempts. -/
structure Paced (p : Processor 𝕊 β) (custom : Behaviour β (Act β) κ (Packet × World 𝕊 ε))
    (ms : List (MakeRight β)) (w : World 𝕊 ε) (turns : Nat → Nat) (f : Fleet 𝕊 β κ ε) : Prop where
  member : ∀ {i : Nat} {m : MakeRight β}, ms[i]? = some m → ∃ a, f.attempts[i]? = some a ∧
    Attempt.InUnison p (a, f.world) (Attempt.alone p custom m w (turns i)) ∧
    f.records (· == i) = w.handedSince (Attempt.alone p custom m w (turns i)).2
  owns : ∀ {j : Nat} {a : Attempt β κ}, f.attempts[j]? = some a → a.OwnsGuard
  apart : ∀ {i j : Nat} {m : MakeRight β} {a : Attempt β κ}, ms[i]? = some m →
    f.attempts[j]? = some a → j ≠ i → a.operation.domain.uid ≠ m.domain.uid
  kindred : f.world.Kindred p.policy w
  outbox : f.world.outbox = w.outbox.putAll (f.records fun _ => true)

namespace Paced

variable {ms : List (MakeRight β)} {w : World 𝕊 ε} {turns : Nat → Nat} {f : Fleet 𝕊 β κ ε}

theorem initial (hkindred : w.Kindred p.policy w) (hsound : (w.registry p.registry).IsSound)
    (hdistinct : (ms.map fun m => m.domain.uid).Nodup) :
    Paced p custom ms w (fun _ => 0) ⟨ms.map Attempt.prepare, w, []⟩ where
  member {i m} hm := by
    refine ⟨.prepare m, by simp [hm], ?_, ?_⟩
    · exact ⟨.prepared m, .prepare hsound m, .prepare hsound m, hkindred, rfl⟩
    · rw [Attempt.alone, World.handedSince_of_eq rfl]
      rfl
  owns {j a} ha := by
    obtain ⟨m, -, rfl⟩ : ∃ m, ms[j]? = some m ∧ Attempt.prepare m = a := by simpa using ha
    exact fun _ hg => nomatch hg
  apart {i j m a} hm ha hne heq := by
    obtain ⟨m', hm', rfl⟩ : ∃ m', ms[j]? = some m' ∧ Attempt.prepare m' = a := by simpa using ha
    have hlength : j < (ms.map fun m => m.domain.uid).length := by
      rw [List.length_map]
      exact (List.getElem?_eq_some_iff.1 hm').1
    have hsame : (ms.map fun m => m.domain.uid)[j]? = (ms.map fun m => m.domain.uid)[i]? := by
      rw [List.getElem?_map, List.getElem?_map, hm, hm']
      exact congrArg some heq
    exact hne ((List.getElem?_inj hlength hdistinct).1 hsame)
  kindred := hkindred
  outbox := rfl

/-- The world changes on account of other domains. -/
theorem elsewhere (h : Paced p custom ms w turns f) {w' : World 𝕊 ε}
    (hkindred : w'.Kindred p.policy f.world)
    (hother : ∀ m ∈ ms, (f.world.registry p.registry).Undergoes (· ≠ m.domain.uid)
      (w'.registry p.registry))
    (houtbox : w'.outbox = f.world.outbox) :
    Paced p custom ms w turns { f with world := w' } where
  member {i m} hm := by
    obtain ⟨a, ha, hunison, hrecords⟩ := h.member hm
    have hoperation : a.operation = m :=
      hunison.like.operation_eq.trans (Attempt.operation_alone _)
    refine ⟨a, ha, hunison.elsewhere hkindred ?_, hrecords⟩
    subst hoperation
    exact hother _ (List.mem_of_getElem? hm)
  owns := h.owns
  apart := h.apart
  kindred := hkindred.trans h.kindred
  outbox := houtbox.trans h.outbox

theorem operation_eq {m : MakeRight β} {a : Attempt β κ} {v : World 𝕊 ε} {n : Nat}
    (h : Attempt.InUnison p (a, v) (Attempt.alone p custom m w n)) : a.operation = m :=
  h.like.operation_eq.trans (Attempt.operation_alone n)

theorem launch (h : Paced p custom ms w turns f) {m : MakeRight β}
    (helse : ∀ n ∈ ms, m.domain.uid ≠ n.domain.uid) :
    Paced p custom ms w turns (f.launch m) where
  member {i n} hn := by
    obtain ⟨a, ha, hkept⟩ := h.member hn
    have hlength := (List.getElem?_eq_some_iff.1 ha).1
    exact ⟨a, (List.getElem?_append_left hlength).trans ha, hkept⟩
  owns {j a} ha := by
    rcases Places.eq_or_of_join ha with hold | ⟨-, rfl⟩
    · exact h.owns hold
    · exact fun _ hg => nomatch hg
  apart {i j n a} hn ha hne := by
    rcases Places.eq_or_of_join ha with hold | ⟨-, rfl⟩
    · exact h.apart hn hold hne
    · exact helse n (List.mem_of_getElem? hn)
  kindred := h.kindred
  outbox := h.outbox

/-- Whoever else is advanced serves another domain. -/
theorem member_advance_other (h : Paced p custom ms w turns f) (hcustom : custom.KeepsToPacket)
    {i j : Nat} {m : MakeRight β} {b : Attempt β κ} (hm : ms[i]? = some m)
    (hb : f.attempts[j]? = some b) (hne : j ≠ i) :
    ∃ a, (f.advance p custom j).attempts[i]? = some a ∧
      Attempt.InUnison p (a, (f.advance p custom j).world)
        (Attempt.alone p custom m w (f.count turns j i)) ∧
      (f.advance p custom j).records (· == i) =
        w.handedSince (Attempt.alone p custom m w (f.count turns j i)).2 := by
  obtain ⟨a, ha, hunison, hrecords⟩ := h.member hm
  have hserves := Attempt.step_serves (p := p) hcustom (h.owns hb) f.world
  have hturns : f.count turns j i = turns i := if_neg fun hsame => hne hsame.1.symm
  have hothers : (f.advance p custom j).records (· == i) = f.records (· == i) := by
    simp [records_advance hb, hne]
  have huid : ∀ uid, uid = b.operation.domain.uid → uid ≠ a.operation.domain.uid := by
    rintro uid rfl
    rw [operation_eq hunison]
    exact h.apart hm hb hne
  have hkindred := h.kindred.trans h.kindred.symm
  rw [hturns, hothers, advance_eq hb]
  refine ⟨a, (List.getElem?_set_ne hne).trans ha, ?_, hrecords⟩
  exact hunison.elsewhere (hkindred.of_eq hserves.identity hserves.spread)
    (hserves.registry.mono huid)

/-- An attempt that is advanced takes the step that it takes alone, or it sleeps. -/
theorem member_advance_self (h : Paced p custom ms w turns f) (hcustom : custom.KeepsToPacket)
    (hsound : (w.registry p.registry).IsSound) {i : Nat} {m : MakeRight β} (hm : ms[i]? = some m) :
    ∃ a, (f.advance p custom i).attempts[i]? = some a ∧
      Attempt.InUnison p (a, (f.advance p custom i).world)
        (Attempt.alone p custom m w (f.count turns i i)) ∧
      (f.advance p custom i).records (· == i) =
        w.handedSince (Attempt.alone p custom m w (f.count turns i i)).2 := by
  obtain ⟨a, ha, hunison, hrecords⟩ := h.member hm
  have hlength := (List.getElem?_eq_some_iff.1 ha).1
  have hidle : f.isIdle i = a.isAsleep f.world.now := by rw [isIdle, ha]; rfl
  have hown : (f.advance p custom i).records (· == i) = f.records (· == i) ++ a.handing := by
    simp [records_advance ha]
  rw [hown, hrecords, advance_eq ha]
  refine ⟨_, List.getElem?_set_self hlength, ?_⟩
  cases hasleep : a.isAsleep f.world.now with
  | true =>
    have hturns : f.count turns i i = turns i := by simp [count, hidle, hasleep]
    have hnone : a.handing = [] := Attempt.handing_of_isAsleep hasleep
    rw [hturns, hunison.left.step_asleep hasleep, hnone, List.append_nil]
    exact ⟨hunison, rfl⟩
  | false =>
    have hturns : f.count turns i i = turns i + 1 := by simp [count, hidle, hasleep]
    have hhanding : a.handing = _ := hunison.like.handing_eq
    rw [hturns, Attempt.handedSince_alone_succ hcustom hsound, hhanding]
    exact ⟨hunison.step_alone hcustom hasleep, rfl⟩

theorem advance (h : Paced p custom ms w turns f) (hcustom : custom.KeepsToPacket)
    (hsound : (w.registry p.registry).IsSound) (j : Nat) :
    Paced p custom ms w (f.count turns j) (f.advance p custom j) := by
  cases hb : f.attempts[j]? with
  | none =>
    have hturns : f.count turns j = turns := by
      funext i
      simp [count, isIdle, hb]
    have hsame : f.advance p custom j = f := by rw [Fleet.advance, hb]
    rw [hturns, hsame]
    exact h
  | some b =>
    have hserves := Attempt.step_serves (p := p) hcustom (h.owns hb) f.world
    refine ⟨fun {i m} hm => ?member, fun {k a} ha => ?owns, fun {i k m a} hm ha hne => ?apart,
      ?kindred, ?outbox⟩
    case member =>
      by_cases hij : j = i
      · subst hij
        exact h.member_advance_self hcustom hsound hm
      · exact h.member_advance_other hcustom hm hb hij
    case owns =>
      rw [advance_eq hb] at ha
      rcases Places.eq_or_of_replace ha with ⟨rfl, rfl⟩ | ⟨-, hold⟩
      · exact (h.owns hb).step f.world
      · exact h.owns hold
    case apart =>
      rw [advance_eq hb] at ha
      rcases Places.eq_or_of_replace ha with ⟨rfl, rfl⟩ | ⟨-, hold⟩
      · rw [b.step_operation p custom f.world]
        exact h.apart hm hb hne
      · exact h.apart hm hold hne
    case kindred =>
      rw [advance_eq hb]
      exact h.kindred.of_eq hserves.identity hserves.spread
    case outbox =>
      rw [records_advance hb, if_pos rfl, advance_eq hb, hserves.outbox, h.outbox,
        Outbox.putAll_append]

end Paced

theorem Beside.paced {ms : List (MakeRight β)} {w : World 𝕊 ε} {turns : Nat → Nat}
    {f : Fleet 𝕊 β κ ε} (h : Beside p custom ms w turns f) (hcustom : custom.KeepsToPacket)
    (hkindred : w.Kindred p.policy w) (hsound : (w.registry p.registry).IsSound)
    (hdistinct : (ms.map fun m => m.domain.uid).Nodup) : Paced p custom ms w turns f := by
  induction h with
  | initial => exact .initial hkindred hsound hdistinct
  | advance i _ ih => exact ih.advance hcustom hsound i
  | launch helse _ ih => exact ih.launch helse
  | @cancel turns f uid helse _ ih =>
    have hcancelled := World.Serves.operation (p := p) (.cancel uid) rfl f.world
    have hother : ∀ m ∈ ms, ∀ x, x = uid → x ≠ m.domain.uid := by
      rintro m hm x rfl
      exact helse m hm
    have hkindred : (p.cancel uid f.world).2.Kindred p.policy f.world :=
      (ih.kindred.trans ih.kindred.symm).of_eq hcancelled.identity hcancelled.spread
    have hkept : Paced p custom ms w turns { f with world := (p.cancel uid f.world).2 } :=
      ih.elsewhere hkindred (fun m hm => hcancelled.registry.mono (hother m hm)) rfl
    exact ⟨hkept.member, hkept.owns, hkept.apart, hkept.kindred, hkept.outbox⟩
  | @elapse turns f w' helapses _ ih =>
    refine ih.elsewhere helapses.kindred (fun m _ => ?_) helapses.outbox
    rw [helapses.registry]
    exact .refl _

/-! ### What is seen of an attempt -/

/-- What is seen of an attempt of a fleet is what is seen of an attempt `y` in a world of its own,
which it has come to from the world `w`. -/
structure Shows (p : Processor 𝕊 β) (w : World 𝕊 ε) (f : Fleet 𝕊 β κ ε) (i : Nat)
    (y : Attempt β κ × World 𝕊 ε) : Prop where
  operation : (f.attempts[i]?).map Attempt.operation = some y.1.operation
  /-- It has returned the same, or neither has returned anything. -/
  result : (f.attempts[i]?).bind Attempt.result? = y.1.result?
  /-- It has the same packet, and so the same markers. -/
  packet : (f.attempts[i]?).bind Attempt.packet? = y.1.packet?
  records : f.records (· == i) = w.handedSince y.2
  failures : (f.world.registry p.registry).failureCount y.1.operation.domain.uid =
    (y.2.registry p.registry).failureCount y.1.operation.domain.uid

namespace Paced

variable {ms : List (MakeRight β)} {w : World 𝕊 ε} {turns turns' : Nat → Nat}
  {f f' : Fleet 𝕊 β κ ε}

theorem shows (h : Paced p custom ms w turns f) {i : Nat} {m : MakeRight β}
    (hm : ms[i]? = some m) : f.Shows p w i (Attempt.alone p custom m w (turns i)) := by
  obtain ⟨a, ha, hunison, hrecords⟩ := h.member hm
  refine ⟨?_, ?_, ?_, hrecords, ?_⟩
  · rw [ha]
    exact congrArg some hunison.like.operation_eq
  · rw [ha]
    exact hunison.like.result?_eq
  · rw [ha]
    exact hunison.like.packet?_eq
  · rw [← hunison.like.operation_eq]
    exact hunison.failures

/-- An attempt that is over is so as well when it is alone. -/
theorem alone_isOver (h : Paced p custom ms w turns f) (hover : f.IsOver ms.length) {i : Nat}
    {m : MakeRight β} (hm : ms[i]? = some m) :
    (Attempt.alone p custom m w (turns i)).1.IsOver := by
  obtain ⟨a, ha, hunison, -⟩ := h.member hm
  obtain ⟨b, hb, hended⟩ := hover i (List.getElem?_eq_some_iff.1 hm).1
  obtain rfl : a = b := Option.some.inj (ha.symm.trans hb)
  exact hunison.like.isOver_iff.1 hended

/-- Once the attempts are over, it does not matter how they have been mixed. -/
theorem records_eq (h : Paced p custom ms w turns f) (h' : Paced p custom ms w turns' f')
    (hover : f.IsOver ms.length) (hover' : f'.IsOver ms.length) {i : Nat} (hi : i < ms.length) :
    f.records (· == i) = f'.records (· == i) := by
  have hm : ms[i]? = some ms[i] := List.getElem?_eq_getElem hi
  have hsame : Attempt.alone p custom ms[i] w (turns i) =
      Attempt.alone p custom ms[i] w (turns' i) := by
    rcases Nat.le_total (turns i) (turns' i) with hle | hle
    · exact (Attempt.alone_of_le (h.alone_isOver hover hm) hle).symm
    · exact Attempt.alone_of_le (h'.alone_isOver hover' hm) hle
  rw [(h.shows hm).records, (h'.shows hm).records, hsame]

/-- As many records are of some sort in both fleets if as many of those are that others have
handed over. -/
theorem countP_records_eq (h : Paced p custom ms w turns f) (h' : Paced p custom ms w turns' f')
    (hover : f.IsOver ms.length) (hover' : f'.IsOver ms.length) (sort : Record → Bool)
    (helse : (f.records (ms.length ≤ ·)).countP sort = (f'.records (ms.length ≤ ·)).countP sort) :
    (f.records fun _ => true).countP sort = (f'.records fun _ => true).countP sort := by
  rw [countP_records f sort ms.length, countP_records f' sort ms.length, helse]
  refine congrArg (· + _) (Finset.sum_congr rfl fun i hi => ?_)
  rw [h.records_eq h' hover hover' (Finset.mem_range.1 hi)]

end Paced

theorem Beside.foldl_advance {ms : List (MakeRight β)} {w : World 𝕊 ε} {turns : Nat → Nat}
    {f : Fleet 𝕊 β κ ε} (h : Beside p custom ms w turns f) (is : List Nat) :
    ∃ turns', Beside p custom ms w turns' (is.foldl (fun f i => f.advance p custom i) f) := by
  induction is generalizing turns f with
  | nil => exact ⟨turns, h⟩
  | cons i is ih => exact ih (h.advance i)

/-- Operations on different domains do not disturb one another, in whatever order their attempts
take their steps, and whatever others do on other domains.  After any number of steps an attempt
shows what it shows after as many when it is alone; if it is over by then when it is alone, it has
returned the same, and nothing is added any more.  What has been handed over are the records of the
attempts.  Once the attempts are over, none is in flight on their domains.

If the sink refuses nothing, the counts of merged events and the occurrences of a kind do not
depend on the order of the steps, as long as others contribute the same.  For the latter no two
merge keys may have the same name. -/
theorem independent {ms : List (MakeRight β)} {w : World 𝕊 ε} {turns : Nat → Nat}
    {f : Fleet 𝕊 β κ ε} (hcustom : custom.KeepsToPacket) (hdelays : w.Kindred p.policy w)
    (hsound : (w.registry p.registry).IsSound)
    (hdistinct : (ms.map fun m => m.domain.uid).Nodup) (h : Beside p custom ms w turns f) :
    (∀ i m, ms[i]? = some m →
      f.Shows p w i (Attempt.alone p custom m w (turns i)) ∧
      ∀ n ≤ turns i, (Attempt.alone p custom m w n).1.IsOver →
        f.Shows p w i (Attempt.alone p custom m w n)) ∧
    f.world.outbox.handed = w.outbox.handed ++ f.records (fun _ => true) ∧
    (f.IsOver ms.length → ∀ m ∈ ms,
      (f.world.registry p.registry).isInFlight m.domain.uid = false) ∧
    ∀ turns' f', Beside p custom ms w turns' f' → f.IsOver ms.length → f'.IsOver ms.length →
      (∀ n, w.outbox.refuses n = false) →
      (∀ name, (f.records (ms.length ≤ ·)).countP (·.eventName = name) =
          (f'.records (ms.length ≤ ·)).countP (·.eventName = name) →
        f.world.outbox.store.count name = f'.world.outbox.store.count name) ∧
      (w.outbox.store.IsSound →
        Record.Unmistaken (w.outbox.store.records ++ f.records fun _ => true) →
        Record.Unmistaken (w.outbox.store.records ++ f'.records fun _ => true) →
        ∀ kind, (f.records (ms.length ≤ ·)).countP (·.item = kind) =
            (f'.records (ms.length ≤ ·)).countP (·.item = kind) →
          f.world.outbox.store.occurrences kind = f'.world.outbox.store.occurrences kind) := by
  have hpaced := h.paced hcustom hdelays hsound hdistinct
  refine ⟨fun i m hm => ⟨hpaced.shows hm, fun n hn hover => ?alone⟩, ?handed,
    fun hover m hm => ?idle, fun turns' f' h' hover hover' hrefuses => ?sink⟩
  case alone =>
    rw [← Attempt.alone_of_le hover hn]
    exact hpaced.shows hm
  case handed => rw [hpaced.outbox, Outbox.handed_putAll]
  case idle =>
    obtain ⟨i, hi, hm⟩ := List.mem_iff_getElem.1 hm
    have hplace : ms[i]? = some m := List.getElem?_eq_some_iff.2 ⟨hi, hm⟩
    obtain ⟨a, ha, hunison, -⟩ := hpaced.member hplace
    obtain ⟨b, hb, hended⟩ := hover i hi
    obtain rfl : a = b := Option.some.inj (ha.symm.trans hb)
    rw [← Paced.operation_eq hunison]
    exact hunison.left.idle hended
  case sink =>
    have hpaced' := h'.paced hcustom hdelays hsound hdistinct
    rw [hpaced.outbox, hpaced'.outbox, Outbox.store_putAll hrefuses, Outbox.store_putAll hrefuses]
    refine ⟨fun name helse => ?_, fun hstore hnames hnames' kind helse => ?_⟩
    · rw [EventStore.count_putAll, EventStore.count_putAll,
        hpaced.countP_records_eq hpaced' hover hover' _ helse]
    · rw [EventStore.occurrences_putAll hstore hnames, EventStore.occurrences_putAll hstore hnames',
        hpaced.countP_records_eq hpaced' hover hover' _ helse]

end Fleet

/-! ### Two neighbours -/

namespace Neighbours

open Handover (processor behaviour world)

/-- Operations on two domains. -/
def operations : List (MakeRight Empty) := [.of (.named "east" "ns"), .of (.named "west" "ns")]

/-- The deletion of a third one. -/
def deletion : MakeRight Empty := .ofDeletion (.named "north" "ns")

/-- Everybody is about to begin. -/
def prepared : Fleet Rat Empty Empty Unit :=
  (⟨operations.map .prepare, world, []⟩ : Fleet Rat Empty Empty Unit).launch deletion

/-- The fleet after these steps. -/
def after (is : List Nat) : Fleet Rat Empty Empty Unit :=
  is.foldl (fun f i => f.advance processor behaviour i) prepared

/-- The deletion begins, and then the two attempts take turns. -/
def mixed : List Nat := 2 :: (List.replicate 8 [0, 1]).flatten

/-- One attempt comes after the other, and the deletion begins in between. -/
def sorted : List Nat := List.replicate 8 1 ++ 2 :: List.replicate 8 0

theorem keepsToPacket : behaviour.KeepsToPacket where
  start action := nomatch action
  resume activity := nomatch activity

theorem delays : world.Kindred processor.policy world where
  identity := rfl
  delays retry requested i j := by
    have hsome : ∀ draw : Rat, 0 ≤ draw →
        (processor.policy.delay retry requested draw).isSome = true :=
      fun _ hdraw => Retry.Policy.delay_isSome (by decide) retry requested hdraw
    have hspread : ∀ i, 0 ≤ world.spread i := fun _ => zero_le_one
    rw [hsome _ (hspread i), hsome _ (hspread j)]

theorem beside_prepared :
    Fleet.Beside processor behaviour operations world (fun _ => 0) prepared :=
  .launch (by decide) .initial

theorem isOver_mixed : (after mixed).IsOver operations.length := by
  intro i hi
  match i, hi with
  | 0, _ | 1, _ => exact ⟨_, rfl, trivial⟩

theorem isOver_sorted : (after sorted).IsOver operations.length := by
  intro i hi
  match i, hi with
  | 0, _ | 1, _ => exact ⟨_, rfl, trivial⟩

theorem eventNames_mixed : ((after mixed).records fun _ => true).map (·.eventName) =
    ["east.a2a9061cdfc35bccb62b165bc87ffafd", "west.f5e7c28adf915510ab3d01207d9c293e",
      "east.acf45960483551b8a360ba88a2358e11", "west.225ba14f34805b259b176e7780773b2e"] := by
  decide +kernel

theorem unmistaken_mixed : Record.Unmistaken ((after mixed).records fun _ => true) := by
  refine .of_nodup ?_
  rw [eventNames_mixed]
  decide

theorem unmistaken_sorted : Record.Unmistaken ((after sorted).records fun _ => true) :=
  unmistaken_mixed.mono (by decide +kernel)

/-- Both attempts show what they show alone, and the store counts the same in both orders. -/
theorem neighbours_undisturbed :
    (∀ i m, operations[i]? = some m → ∃ n,
      (after mixed).Shows processor world i (Attempt.alone processor behaviour m world n)) ∧
    (∀ m ∈ operations, ((after mixed).world.registry 0).isInFlight m.domain.uid = false) ∧
    (∀ name, (after mixed).world.outbox.store.count name =
      (after sorted).world.outbox.store.count name) ∧
    ∀ kind, (after mixed).world.outbox.store.occurrences kind =
      (after sorted).world.outbox.store.occurrences kind := by
  obtain ⟨turns, hmixed⟩ := beside_prepared.foldl_advance mixed
  obtain ⟨turns', hsorted⟩ := beside_prepared.foldl_advance sorted
  -- Nothing is in the store at first, and the deletion does not get as far as a record.
  have hempty : world.outbox.store.records = [] := rfl
  have helse : (after mixed).records (2 ≤ ·) = (after sorted).records (2 ≤ ·) := rfl
  obtain ⟨hshows, -, hidle, hsink⟩ :=
    Fleet.independent keepsToPacket delays Registry.isSound_empty (by decide) hmixed
  obtain ⟨hcount, hoccurrences⟩ :=
    hsink turns' (after sorted) hsorted isOver_mixed isOver_sorted fun _ => rfl
  rw [hempty] at hoccurrences
  refine ⟨fun i m hm => ⟨turns i, (hshows i m hm).1⟩, hidle isOver_mixed, fun name => ?_,
    fun kind => ?_⟩
  · exact hcount name (congrArg _ helse)
  · exact hoccurrences EventStore.isSound_empty unmistaken_mixed unmistaken_sorted kind
      (congrArg _ helse)

end Neighbours

end Reconcile
