import Haptics.Proofs.Scheduler.Deadlines
import Haptics.Proofs.Scheduler.Natural
import Haptics.Proofs.Scheduler.Words

/-!
# Deaths that are heard late

When a connection breaks, the listener is told, and hears of it when its turn comes. The message
does not say which connection it was. Meanwhile an order may have failed, the connection may have
been given up for it, and another one may have been made. Whatever connection there is when the
message is handled is given up, and whatever vibration holds the motor then has failed.

So a death does no harm to what comes of a newer connection, unless that one has been made before
the message is handled: as long as none is made, no step is started either (`CutOff`); and the
vibration that waits and gets the motor while the message is handled plays over a connection made
then (`Anew`).

* `cutOff_after`: what has been started since a connection broke.
* `promoted_release`: who gets the motor when it is given up.
* `death_ends_what_it_finds`: what a death does, in every state of every course on the bench.
* `late_death_ends_newer`: it ends a vibration that was started over a newer connection.
-/

namespace Haptics

/-- To connect, where it is possible, leaves a connection. -/
theorem Line.connected_of_reach {σ : Type} {d : Device σ} {l m : Line σ}
    (h : l.reach d = (.ok (), m)) : m.connected = true := by
  unfold reach at h
  split at h
  · cases h
    assumption
  · split at h
    · cases h
      rfl
    · cases h

namespace Scheduler

open Occurrence

variable {c : Context Bench} {s t : Scheduler Bench} {p q : Playback}

/-- How many connections have been made. -/
def connections (s : Scheduler Bench) : Nat := s.line.actuator.connections

/-- The vibrations whose steps have been started: one entry for each start command in the log of the
motor. -/
def dispatched (s : Scheduler Bench) : List Nat :=
  s.line.actuator.motor.commands.filterMap Command.owner?

/-! ## Since the connection broke -/

/-- What can be said of a line since its connection broke, if so many connections had been made and
so many steps had been started then: another connection has been made, or nobody listens and no step
has been started. -/
def CutOff (connections : Nat) (dispatched : List Nat) (l : Line Bench) : Prop :=
  connections < l.actuator.connections ∨
    l.actuator.connections = connections ∧ l.actuator.motor.attached = false ∧
      l.actuator.motor.commands.filterMap Command.owner? = dispatched

section cutOff

variable {k : Nat} {ids : List Nat} {l m : Line Bench} {orders : List Order}

/-- A bench that idles starts nothing either. -/
theorem CutOff.idles {b : Bench} (hb : l.actuator.Idles b) (h : CutOff k ids l) :
    CutOff k ids { l with actuator := b } := by
  rcases h with hk | ⟨hk, ha, hids⟩
  · exact .inl (hb.connections ▸ hk)
  · refine .inr ⟨hb.connections.trans hk, ?_, (congrArg _ hb.commands).trans hids⟩
    exact Bool.eq_false_iff.2 fun hb' => Bool.eq_false_iff.1 ha (hb.attached hb')

/-- Where nobody listens, an order that is not refused starts no step. -/
theorem owner?_of_detached {motor : Motor} {o : Order} (ha : motor.attached = false)
    (h : motor.refusal? o = none) : o.owner? = none := by
  cases ho : o.owner? with
  | none => rfl
  | some id =>
    have hstart : o.isStart = true := by rw [Order.isStart, ho]; rfl
    cases ha.symm.trans (Motor.attached_of_refusal? h hstart)

/-- **No step is started until somebody connects.** -/
theorem Talk.cutOff (hd : c.device = Bench.device) (ht : Talk c l orders m) (h : CutOff k ids l) :
    CutOff k ids m := by
  refine ht.holds_of_words (motive := fun _ m => CutOff k ids m) hd h (fun ih => .inl ?_)
    (fun ih => ih) (@fun _ m o ih hr => ?_) (fun _ ih => ih)
  · rcases ih with hk | ⟨hk, -⟩
    · exact Nat.lt_succ_of_lt hk
    · exact Nat.lt_succ_of_le (Nat.le_of_eq hk.symm)
  · rcases ih with hk | ⟨hk, ha, hids⟩
    · exact .inl hk
    · refine .inr ⟨hk, (Motor.alike_obey ..).attached.trans ha, ?_⟩
      change (m.actuator.motor.obey c.now o).commands.filterMap Command.owner? = ids
      rw [Motor.commands_obey, List.filterMap_append, hids]
      simp [owner?_of_detached ha hr]

end cutOff

/-- **What has been started since the connection broke**, in every state of every course. -/
theorem cutOff_after (hd : c.device = Bench.device) (actuator : Bench)
    (before since : List (Occurrence Bench)) :
    let s := after c actuator before
    let os := before ++ breaks s :: since
    (∀ v ∈ asked os, v.IsNew) → Natural Bench.Idles c (create c.config actuator) os →
      CutOff s.connections s.dispatched (after c actuator os).line := by
  intro s os ho hn
  have hos : os = (before ++ [breaks s]) ++ since := by simp [os]
  rw [hos, asked_append] at ho
  rw [hos] at hn ⊢
  rw [after_append]
  have hbroken : CutOff s.connections s.dispatched
      (after c actuator (before ++ [breaks s])).line := by
    have hk := (Bench.drifts_kill s.line.actuator).toIdles
    rw [after_concat]
    refine .inr ⟨hk.connections, ?_, congrArg (List.filterMap Command.owner?) hk.commands⟩
    exact s.line.actuator.motor.attached_kill
  refine natural_preserves (fun hm h => h.idles hm) (fun hd' ht h => ht.cutOff (hd'.trans hd) h)
    (settled_after c actuator fun v hv => ho v (List.mem_append_left _ hv))
    (fun v hv => ho v (List.mem_append_right _ hv)) hn.of_append.2 hbroken

/-! ## Since the connection was given up -/

/-- What can be said of a line since its connection was given up, if so many connections had been
made then: where there is a connection, it is another one. -/
structure Anew (connections : Nat) (l : Line Bench) : Prop where
  le : connections ≤ l.actuator.connections
  lt : l.connected = true → connections < l.actuator.connections

/-- A talk makes new connections only. -/
theorem Talk.anew (hd : c.device = Bench.device) {k : Nat} {l m : Line Bench} {orders : List Order}
    (ht : Talk c l orders m) (h : Anew k l) : Anew k m :=
  ht.holds_of_words (motive := fun _ m => Anew k m) hd h
    (fun ih => ⟨Nat.le_succ_of_le ih.le, fun _ => Nat.lt_succ_of_le ih.le⟩)
    (fun ih => ⟨ih.le, fun hc => by cases hc⟩) (fun ih _ => ⟨ih.le, ih.lt⟩)
    (fun _ ih => ⟨ih.le, ih.lt⟩)

/-! ## Who gets the motor -/

section promoted

variable {σ : Type} {c : Context σ} {leave : Playback → Prop} {s t : Scheduler σ} {p q : Playback}

/-- An order does not give up the connection. -/
theorem connected_issue (c : Context σ) (o : Order) (s : Scheduler σ) :
    (s.issue c o).2.line.connected = s.line.connected := by
  unfold issue
  split <;> rfl

/-- Nor do orders in turn. -/
theorem connected_issueAll (c : Context σ) (orders : List Order) (s : Scheduler σ) :
    (s.issueAll c orders).2.line.connected = s.line.connected := by
  induction orders generalizing s with
  | nil => rfl
  | cons o rest ih =>
    have ho := connected_issue c o s
    cases rest with
    | nil => exact ho
    | cons o' rest =>
      rw [issueAll]
      · rcases hi : s.issue c o with ⟨e | reported, t⟩ <;> rw [hi] at ho
        · exact ho
        · exact (ih t).trans ho
      · simp

/-- A step is started over a connection. -/
theorem connected_launch {step : Step} {reported : Nat}
    (h : s.launch c p step = (.ok reported, t)) : t.line.connected = true := by
  unfold launch at h
  rcases hl : s.line.reach c.device with ⟨e | ⟨⟩, line⟩
  · rw [reach, hl] at h
    cases h
  · rw [reach, hl] at h
    have hi := connected_issueAll c (step.orders (c.device.info line.actuator) p.id p.packets)
      { s with line }
    rw [show issueAll c _ _ = _ from h] at hi
    exact hi.trans (Line.connected_of_reach hl)

/-- A step in flight has a connection. -/
theorem connected_startStep (hp : s.current = some p) (h : s.startStep c = (false, t)) :
    t.line.connected = true := by
  simp only [startStep, hp] at h
  split at h
  · cases h
  · split at h
    · next hl =>
      have hlaunched := connected_launch hl
      cases h
      exact hlaunched
    · cases h

/-- Who holds the motor after it was given up had waited for it, and its first step has been
started. -/
theorem begin_of_release (hp : (s.release c).current = some p) :
    ∃ q, s.next = some q ∧
      begin c q { s.vacate c with next := none } = (false, s.release c) := by
  generalize ht : s.release c = t at hp ⊢
  unfold release at ht
  simp only at ht
  split at ht
  · next q he hq =>
    split at ht
    · next u hb =>
      subst ht
      cases (current_vacate c u).symm.trans hp
    · next u hb =>
      subst ht
      exact ⟨q, (next_vacate c s).symm.trans hq, hb⟩
  · subst ht
    cases (current_vacate c s).symm.trans hp

/-- **Who gets the motor when it is given up** has waited for it, and plays over a connection. -/
theorem promoted_release (hp : (s.release c).current = some p) :
    (∃ q ∈ s.next, p.id = q.id) ∧ (s.release c).line.connected = true := by
  obtain ⟨q, hq, hb⟩ := begin_of_release hp
  have hcurrent : (({ s.vacate c with next := none } : Scheduler σ).takenBy q).current =
      some q.begin := rfl
  refine ⟨⟨q, hq, ?_⟩, connected_startStep hcurrent hb⟩
  have hs := started_startStep (c := c) hcurrent
  change Started c _ q.begin (begin c q { s.vacate c with next := none }) at hs
  rw [hb] at hs
  generalize s.release c = t at hp hs
  cases hs with
  | launched hn ht reported =>
    cases hp
    exact q.id_begin

end promoted

/-! ## Deaths -/

/-- Whoever a death strikes can give up the motor. -/
theorem Settled.yields_struck (hs : s.Settled) (hp : s.current = some p) :
    (s.struck c).Yields fun _ => True :=
  have hy : s.Yields fun _ => True := hs.yields hp fun _ => trivial
  ⟨hy.waiting, hy.session, fun _ _ _ => trivial⟩

/-- Where nobody holds the motor nobody is dropped. -/
theorem dropCurrent_of_none (hp : s.current = none) : s.dropCurrent c = s := by
  rw [dropCurrent, hp]

/-- Who holds the motor when it is given up is gone. -/
theorem retired_release {leave : Playback → Prop} (hy : s.Yields leave) (hp : s.current = some p) :
    .retired (p.vibration.finish .finished c.now) ∈ (s.release c).journal := by
  have hdropped : (s.dropCurrent c).Yields leave :=
    ⟨by simpa using hy.waiting, by simpa using hy.session, by simp⟩
  have hgone : .retired (p.vibration.finish .finished c.now) ∈ (s.dropCurrent c).journal := by
    simp [dropCurrent, hp, retire]
  have hr := (settles_release (c := c) hdropped).reaches none
  rw [release_congr (dropCurrent_of_none (current_dropCurrent c s))] at hr
  have hsuffix : (s.dropCurrent c).journal <:+ (s.release c).journal :=
    holds_of_changes (I := fun m => (s.dropCurrent c).journal <:+ m.scheduler.journal)
      (fun hc h => h.trans hc.journal_suffix) hr (List.suffix_refl _)
  exact hsuffix.subset hgone

/-- The vibration that a death finds is gone. -/
theorem retired_lost (hs : s.Settled) (hp : s.current = some p) :
    .retired (p.vibration.finish .ignoredErrorScheduling c.now) ∈ (s.lost c).journal := by
  have hstruck : (s.struck c).current = some (p.finish .ignoredErrorScheduling c.now) :=
    congrArg (Option.map _) hp
  have hended : (p.vibration.finish .ignoredErrorScheduling c.now).hasEnded = true :=
    Vibration.hasEnded_finish p.vibration rfl c.now
  have hgone := retired_release (c := c) (hs.yields_struck hp) hstruck
  rw [Playback.finish, Vibration.finish_of_ended hended] at hgone
  rwa [lost_of_some hp]

/-- The connection that a death finds is given up. -/
theorem anew_lost (hd : c.device = Bench.device) (hs : s.Settled) :
    Anew s.connections (s.lost c).line := by
  have hstruck : Anew s.connections (s.struck c).line := ⟨Nat.le_refl _, fun hc => by cases hc⟩
  cases hp : s.current with
  | none => rwa [lost_of_none hp]
  | some p =>
    rw [lost_of_some hp]
    exact holds_of_talks (fun ht h => ht.anew hd h)
      ((settles_release (hs.yields_struck hp)).reaches none) hstruck

/-- Who holds the motor after a death had waited for it, and plays over a connection. -/
theorem promoted_lost (hs : s.Settled) (hq : (s.lost c).current = some q) :
    (∃ w ∈ s.next, q.id = w.id) ∧ q.Runs ∧ (s.lost c).line.connected = true := by
  cases hp : s.current with
  | none =>
    rw [lost_of_none hp] at hq
    cases (congrArg (Option.map _) hp).symm.trans hq
  | some p =>
    rw [lost_of_some hp] at hq ⊢
    obtain ⟨hwaited, hconnected⟩ := promoted_release hq
    exact ⟨hwaited, runs_release (hs.yields_struck hp) q hq, hconnected⟩

/-! ## In every state of every course -/

/-- **A death ends what it finds**, in every state of every course on the bench, whatever has
happened since the connection broke.

* If no connection has been made since then, nobody listens, and no step has been started since.
* The vibration that holds the motor has failed, if it has not ended otherwise, and is gone.
* The connection is given up. If there is one afterwards, it has been made since.
* Who holds the motor then is a vibration that has waited for it. It runs, and there is a
  connection. -/
theorem death_ends_what_it_finds (c : Context Bench) (hd : c.device = Bench.device)
    (actuator : Bench) (before since : List (Occurrence Bench))
    (ho : ∀ v ∈ asked (before ++ breaks (after c actuator before) :: since), v.IsNew)
    (hn : Natural Bench.Idles c (create c.config actuator)
      (before ++ breaks (after c actuator before) :: since))
    (policy : Policy) (now : Nat) :
    let broken := after c actuator before
    let s := after c actuator (before ++ breaks broken :: since)
    let t := s.undergo c (.handled ⟨policy, now, .event .died⟩)
    (s.connections = broken.connections →
      s.line.actuator.motor.attached = false ∧ s.dispatched = broken.dispatched) ∧
    (∀ p ∈ s.current,
      .retired (p.vibration.finish .ignoredErrorScheduling now) ∈ t.journal) ∧
    (t.line.connected = true → s.connections < t.connections) ∧
    ∀ q ∈ t.current, (∃ w ∈ s.next, q.id = w.id) ∧ q.Runs ∧ t.line.connected = true := by
  intro broken s t
  have hs : s.Settled := settled_after c actuator ho
  refine ⟨fun hk => ?_, fun p hp => ?_, ?_, fun q hq => ?_⟩
  · rcases cutOff_after hd actuator before since ho hn with hlt | ⟨-, ha, hids⟩
    · exact absurd hk (Nat.ne_of_gt hlt)
    · exact ⟨ha, hids⟩
  · exact retired_lost hs hp
  · exact (anew_lost (c := c.during ⟨policy, now, .event .died⟩) hd hs).lt
  · exact promoted_lost hs hq

/-- A stream plays when the connection breaks. -/
def humBroken : Scheduler Bench := after onBench bench [.handled humAsked]

/-- Then a push is asked for, which waits for the stream to stop. -/
def humCut : List (Occurrence Bench) :=
  [.handled humAsked] ++ breaks humBroken :: [.handled pushAsked]

/-- The cut course asks for new vibrations. -/
theorem isNew_humCut : ∀ v ∈ asked humCut, v.IsNew := by
  intro v hv
  rw [show asked humCut = [.ofRequest 1 hum, .ofRequest 2 push] from rfl] at hv
  rcases List.mem_cons.1 hv with rfl | hv
  · exact ⟨hum, rfl⟩
  · exact ⟨push, by rw [List.mem_singleton.1 hv]; rfl⟩

/-- It is natural. -/
theorem natural_humCut : Natural Bench.Drifts onBench (create onBench.config bench) humCut := by
  have hhum : Natural Bench.Drifts onBench (create onBench.config bench)
      ([] ++ [.handled humAsked]) := (Natural.nil _ _ _).handled _
  have hbroken := hhum.concat (o := breaks humBroken) (drifts_breaks humBroken)
  exact hbroken.handled pushAsked

/-- The death is heard of: the stream is gone with its connection, and the push plays over another
one. -/
theorem death_ends_what_it_finds_promotion :
    let s := after onBench bench humCut
    let t := s.undergo onBench (.handled ⟨.permissive, 9, .event .died⟩)
    (∀ v ∈ asked humCut, v.IsNew) ∧
    Natural Bench.Idles onBench (create onBench.config bench) humCut ∧
    (humBroken.connections = 1 ∧ s.connections = 1 ∧ t.connections = 2) ∧
    (s.current.map (·.id) = some 1 ∧ t.current.map (·.id) = some 2) ∧
    (s.connections = humBroken.connections →
      s.line.actuator.motor.attached = false ∧ s.dispatched = humBroken.dispatched) ∧
    (∀ p ∈ s.current, .retired (p.vibration.finish .ignoredErrorScheduling 9) ∈ t.journal) ∧
    (t.line.connected = true → s.connections < t.connections) ∧
    ∀ q ∈ t.current, (∃ w ∈ s.next, q.id = w.id) ∧ q.Runs ∧ t.line.connected = true := by
  have hn := natural_humCut.mono fun h => h.toIdles
  exact ⟨isNew_humCut, hn, by decide, by decide,
    death_ends_what_it_finds onBench rfl bench [.handled humAsked] [.handled pushAsked]
      isNew_humCut hn .permissive 9⟩

/-- A push is asked for. -/
def pushAt (id now : Nat) : Happening := ⟨.permissive, now, .vibrate (.ofRequest id push)⟩

/-- A push plays when the connection breaks. -/
def pushBroken : Scheduler Bench := after onBench bench [.handled (pushAt 1 0)]

/-- Two more are asked for. The first of them cannot be started, so that the connection is given up,
and the second one is started over another connection. -/
def pushesCut : List (Occurrence Bench) :=
  [.handled (pushAt 1 0)] ++ breaks pushBroken :: [.handled (pushAt 2 1), .handled (pushAt 3 2)]

/-- Only then the death is heard of. -/
def lateDeath : List (Occurrence Bench) := pushesCut ++ [hears (after onBench bench pushesCut)]

/-- So is the course in which the death is heard late. -/
theorem natural_lateDeath :
    Natural Bench.Drifts onBench (create onBench.config bench) lateDeath := by
  have hfirst : Natural Bench.Drifts onBench (create onBench.config bench)
      ([] ++ [.handled (pushAt 1 0)]) := (Natural.nil _ _ _).handled _
  have hbroken := hfirst.concat (o := breaks pushBroken) (drifts_breaks pushBroken)
  have hcut : Natural Bench.Drifts onBench (create onBench.config bench) pushesCut :=
    (hbroken.handled (pushAt 2 1)).handled (pushAt 3 2)
  exact hcut.concat (drifts_hears (after onBench bench pushesCut))

/-- **A death that is heard late ends what it should not**: the third push has been started over the
second connection, which nothing has happened to; and yet the push has failed when the death of the
first one is handled, and the second one is given up. -/
theorem late_death_ends_newer :
    let s := after onBench bench lateDeath
    let t := s.undergo onBench (.handled ⟨.permissive, 3, .event .died⟩)
    (∀ v ∈ asked lateDeath, v.IsNew) ∧
    Natural Bench.Drifts onBench (create onBench.config bench) lateDeath ∧
    (after onBench bench pushesCut).line.actuator.motor.events = [.died] ∧
    (pushBroken.connections = 1 ∧ pushBroken.dispatched = [1]) ∧
    (s.connections = 2 ∧ s.dispatched = [1, 3] ∧ s.line.connected = true ∧
      s.line.actuator.motor.attached = true) ∧
    (∃ p ∈ s.current, p.id = 3 ∧ p.vibration.status = .running ∧
      .retired (p.vibration.finish .ignoredErrorScheduling 3) ∈ t.journal) ∧
    t.current = none ∧ t.line.connected = false := by
  intro s t
  have hnew : ∀ v ∈ asked lateDeath, v.IsNew := by
    intro v hv
    rw [show asked lateDeath = [1, 2, 3].map (Vibration.ofRequest · push) from rfl] at hv
    obtain ⟨id, -, rfl⟩ := List.mem_map.1 hv
    exact ⟨push, rfl⟩
  have hended : s.current.any (fun p => p.id = 3 && p.vibration.status = .running &&
      .retired (p.vibration.finish .ignoredErrorScheduling 3) ∈ t.journal) = true := by decide
  obtain ⟨p, hp, hended⟩ := (Option.any_eq_true _ _).1 hended
  simp only [Bool.and_eq_true, decide_eq_true_eq] at hended
  obtain ⟨⟨hid, hrunning⟩, hretired⟩ := hended
  exact ⟨hnew, natural_lateDeath, by decide, by decide, by decide, ⟨p, hp, hid, hrunning, hretired⟩,
    by decide, by decide⟩

end Scheduler

end Haptics
