import Haptics.Proofs.Scheduler.SafeBoundary

/-!
# Nobody waits for ever

A vibration holds the motor until its step has come to its end. If the actuator does not say so, the
deadline of the step does: only a stream without a duration has none, and only as long as nobody has
told it to stop. Once it has been told, the time at which it was cancelled and the grace make its
deadline, and so the deadline of every session that waits for the motor.

* `Settled.timed`: what has no deadline is a stream without a duration (kept by every operation).
* `lasting_timely`, `graced_after`: what has been told to stop has the deadline of its cancellation.
* `wasTold_after`: the input at whose time it was cancelled.
* `givenUp_of_deadline`: when the deadline has passed, the motor is given up, whatever the actuator
  answers.
* `no_stuck_slot`: all of it, in every state of every course.
-/

namespace Haptics

namespace Playback

/-- A vibration that has been told to stop has ended, and is given up when a grace has passed since
then. -/
def Graced (grace : Nat) (p : Playback) : Prop :=
  p.stopping = true → p.vibration.hasEnded = true ∧
    ∃ ended, p.vibration.endedMs = some ended ∧ p.deadline = some (ended + grace)

/-- The same while an input is handled at a time: a vibration that has ended, and has not been told
to stop yet, has ended at that time. -/
structure Timely (grace now : Nat) (p : Playback) : Prop where
  graced : p.Graced grace
  ended : p.stopping = false → p.vibration.hasEnded = true → p.vibration.endedMs = some now

variable {grace now : Nat} {p : Playback}

/-- A vibration that runs has not ended. -/
theorem Runs.hasEnded (h : p.Runs) : p.vibration.hasEnded = false := by
  rw [Vibration.hasEnded, h.running]
  rfl

/-- A vibration that runs has not been told to stop, and has not ended. -/
theorem Runs.timely (h : p.Runs) : p.Timely grace now where
  graced := by
    intro hs
    rw [h.stopping] at hs
    cases hs
  ended := by
    intro _ he
    rw [h.hasEnded] at he
    cases he

/-- A vibration that ends while an input is handled ends at the time of that input. -/
theorem Timely.finish (h : p.Timely grace now) {status : Status} (ht : status.isTerminal = true) :
    (p.finish status now).Timely grace now := by
  by_cases he : p.vibration.hasEnded = true
  · rw [Playback.finish, Vibration.finish_of_ended he]
    exact h
  · rw [Bool.not_eq_true] at he
    rw [Playback.finish, Vibration.finish_of_live he ht]
    constructor
    · intro hs
      have hended := (h.graced hs).1
      rw [he] at hended
      cases hended
    · intro _ _
      rfl

/-- A vibration that is told to stop, and has been cancelled at this time, has until the grace has
passed. -/
theorem Timely.awaitStop (h : p.Timely grace now) (hs : p.stopping = false)
    (hc : p.vibration.status.isCancelled = true) :
    (p.awaitStop (now + grace)).Timely grace now where
  graced := by
    intro _
    have he : p.vibration.hasEnded = true := Status.isTerminal_of_isCancelled hc
    exact ⟨he, now, h.ended hs he, rfl⟩
  ended := by
    intro hno
    cases hno

end Playback

namespace Scheduler

open Occurrence

variable {σ : Type} {c : Context σ} {leave : Playback → Prop} {s : Scheduler σ} {p : Playback}

/-! ## The deadline of a cancellation -/

/-- A turn ends a vibration at the time of the input that is handled, if it ends it. -/
theorem Turn.timely {p' : Playback} {grace : Nat} (h : Turn c p p') (hp : p.Timely grace c.now) :
    p'.Timely grace c.now := by
  cases h with
  | launched reported hr hn => exact (hr.launch _ _ _ _).timely
  | ended ht => exact hp.finish ht
  | lapsed hr hd hle => exact Playback.Runs.timely ⟨hr.running, hr.stopping⟩

/-- **The times of the vibration that holds the motor last**: it ends at the time of the input that
is handled, and if it is told to stop it has a grace from then on. -/
theorem lasting_timely (c : Context σ) :
    Lasting c fun p => p.Timely c.config.cancelGraceMs c.now :=
  ⟨fun hq => hq.runs_begin.timely, fun ht hp => ht.timely hp, fun hs hc hp => hp.awaitStop hs hc⟩

/-- Between two inputs nobody has ended who has not been told to stop. -/
theorem Settled.timely (hs : s.Settled) {grace : Nat} (h : ∀ p ∈ s.current, p.Graced grace)
    (now : Nat) : ∀ p ∈ s.current, p.Timely grace now := by
  intro p hp
  rcases hs.holder p hp with hr | hst
  · exact hr.timely
  · refine ⟨h p hp, ?_⟩
    intro hno
    rw [hst.stopping] at hno
    cases hno

/-- An occurrence leaves a grace to whoever has been told to stop. -/
theorem graced_undergo (hs : s.Settled) (h : ∀ p ∈ s.current, p.Graced c.config.cancelGraceMs)
    {o : Occurrence σ} (ho : ∀ v ∈ o.asks, v.IsNew) :
    ∀ p ∈ (s.undergo c o).current, p.Graced c.config.cancelGraceMs := by
  have hgrace : (o.during c).config = c.config := by cases o <;> rfl
  have hstart : ∀ p ∈ (s.shifted o).current,
      p.Timely (o.during c).config.cancelGraceMs (o.during c).now := by
    rw [current_shifted, hgrace]
    exact hs.timely h _
  have hend := holds_of_changes (I := fun m => ∀ p ∈ m.scheduler.current,
    p.Timely (o.during c).config.cancelGraceMs (o.during c).now)
    (lasting_timely (o.during c)).change (undergo_spec hs ho).1 hstart
  rw [hgrace] at hend
  intro p hp
  exact (hend p hp).graced

/-- **What has been told to stop has the deadline of its cancellation**, in every state of every
course. -/
theorem graced_after (c : Context σ) (actuator : σ) {os : List (Occurrence σ)}
    (ho : ∀ v ∈ asked os, v.IsNew) :
    ∀ p ∈ (after c actuator os).current, p.Graced c.config.cancelGraceMs := by
  induction os using List.reverseRecOn with
  | nil =>
    intro p hp
    cases hp
  | append_singleton before o ih =>
    obtain ⟨hbefore, hv⟩ := isNew_of_concat ho
    rw [after_concat]
    exact graced_undergo (settled_after c actuator hbefore) (ih hbefore) hv

/-- A vibration has been told to stop in a course while an input was handled, at a time: it holds
the motor, as it does now, since then and not before. -/
def WasTold (c : Context σ) (actuator : σ) (os : List (Occurrence σ)) (p : Playback) (now : Nat) :
    Prop :=
  ∃ before h rest, os = before ++ .handled h :: rest ∧ h.now = now ∧
    (after c actuator before).current ≠ some p ∧
    (after c actuator (before ++ [.handled h])).current = some p

/-- What has been told stays told. -/
theorem WasTold.concat {actuator : σ} {os : List (Occurrence σ)} {now : Nat}
    (h : WasTold c actuator os p now) (o : Occurrence σ) : WasTold c actuator (os ++ [o]) p now := by
  obtain ⟨before, happening, rest, rfl, hrest⟩ := h
  exact ⟨before, happening, rest ++ [o], by rw [List.append_assoc]; rfl, hrest⟩

/-- **What has been told to stop was told by an input**, and has a grace from the time of that input
on. -/
theorem wasTold_after (c : Context σ) (actuator : σ) {os : List (Occurrence σ)}
    (ho : ∀ v ∈ asked os, v.IsNew) (hp : (after c actuator os).current = some p)
    (hst : p.stopping = true) :
    ∃ now, WasTold c actuator os p now ∧ p.deadline = some (now + c.config.cancelGraceMs) := by
  induction os using List.reverseRecOn with
  | nil => cases hp
  | append_singleton before o ih =>
    obtain ⟨hbefore, hv⟩ := isNew_of_concat ho
    have hs := settled_after c actuator hbefore
    by_cases hheld : (after c actuator before).current = some p
    · obtain ⟨now, htold, hd⟩ := ih hbefore hheld
      exact ⟨now, htold.concat o, hd⟩
    · rw [after_concat] at hp
      cases o with
      | moved actuator' => exact absurd hp hheld
      | stopped now =>
        have hgone := (stopAll_spec { c with now } (after c actuator before)).2.1
        cases hgone.symm.trans hp
      | handled h =>
        obtain ⟨-, hstart | ⟨hd, -⟩⟩ := (told_undergo (c := c) hs hv).told p hp hst
        · exact absurd hstart hheld
        · refine ⟨h.now, ⟨before, h, [], rfl, rfl, hheld, ?_⟩, hd⟩
          rwa [after_concat]

/-! ## When the deadline has passed -/

/-- A step in flight leaves its vibration running. -/
theorem Started.runs {t : Scheduler σ} (hs : Started c s p (false, t)) (h : s.Plays p) :
    ∀ p' ∈ t.current, p'.Runs := by
  cases hs with
  | launched hn ht reported =>
    rintro _ ⟨⟩
    exact h.runs.launch _ _ _ _

/-- **Whoever gets the motor when it is given up runs.** -/
theorem runs_release (hy : s.Yields leave) : ∀ p ∈ (s.release c).current, p.Runs := by
  obtain ⟨-, hv, -⟩ := vacate_spec c hy
  unfold release
  simp only
  split
  · next q he hq =>
    have hu := hv.waiting q hq
    have hplays : (({ s.vacate c with next := none } : Scheduler σ).takenBy q).Plays q.begin :=
      ⟨rfl, hu.runs_begin, rfl, he⟩
    have hs := started_startStep (c := c) hplays.current
    change Started c _ q.begin (begin c q { s.vacate c with next := none }) at hs
    split
    · next t hb =>
      rw [hb] at hs
      have hover : t.Yields leave := (hs.isOver hplays).yields
      rw [(vacate_spec c hover).2.1.current]
      simp
    · next t hb =>
      rw [hb] at hs
      exact hs.runs hplays
  · rw [hv.current]
    simp

/-- What is the case when the deadline of a vibration that has been told to stop has passed. -/
structure GivenUp (p : Playback) (t : Scheduler σ) : Prop where
  /-- The vibration is gone. -/
  retired : .retired p.vibration ∈ t.journal
  /-- Whoever holds the motor has not been told to stop. -/
  holder : ∀ p' ∈ t.current, p'.stopping = false
  /-- No vibration waits. -/
  next : t.next = none
  /-- A session has the motor, if there is one. -/
  session : ∀ e ∈ t.external, e.active = true

/-- In a settled state where nobody has been told to stop nobody waits. -/
theorem Settled.next_of_runs (h : s.Settled) (hr : ∀ p ∈ s.current, p.Runs) : s.next = none := by
  refine Option.eq_none_iff_forall_not_mem.2 fun q hq => ?_
  obtain ⟨-, p, hp, hst⟩ := h.waiting q hq
  exact hst.not_runs (hr p hp)

/-- In a settled state where nobody has been told to stop the session has the motor. -/
theorem Settled.active_of_runs (h : s.Settled) (hr : ∀ p ∈ s.current, p.Runs) :
    ∀ e ∈ s.external, e.active = true := by
  intro e he
  have hs := (h.session e he).2
  by_cases ha : e.active = true
  · exact ha
  · rw [if_neg ha] at hs
    obtain ⟨p, hp, hst⟩ := hs
    exact absurd (hr p hp) hst.not_runs

/-- When the deadline of a vibration that has been told to stop has passed, the motor is given
up. -/
theorem handleDeadline_of_passed (hp : s.current = some p) (hst : p.stopping = true)
    (hd : ∃ deadline ∈ p.deadline, deadline ≤ c.now) : s.handleDeadline c = s.release c := by
  obtain ⟨deadline, hd, hle⟩ := hd
  have hpassed : p.deadline.any (· ≤ c.now) = true :=
    (Option.any_eq_true _ _).2 ⟨deadline, hd, by simpa using hle⟩
  unfold handleDeadline
  rw [hp]
  simp only [hpassed, hst, if_true]
  exact release_congr (by simp [dropCurrent, hp, retire])

/-- **When the deadline has passed, the motor is given up**, whatever the actuator answers: the
vibration that has been told to stop is gone, and neither a vibration nor a session waits any
more. -/
theorem givenUp_of_deadline (hs : s.Settled) (hp : s.current = some p) (hst : p.Stops)
    {policy : Policy} {now : Nat} (hd : ∃ deadline ∈ p.deadline, deadline ≤ now) :
    GivenUp p (s.undergo c (.handled ⟨policy, now, .deadline⟩)) := by
  let o : Occurrence σ := .handled ⟨policy, now, .deadline⟩
  have hv : ∀ v ∈ o.asks, v.IsNew := by
    intro v hv
    cases hv
  have hreleased : s.undergo c o = s.release (o.during c) :=
    handleDeadline_of_passed (c := o.during c) hp hst.stopping hd
  have hy : s.Yields fun _ => True := hs.yields hp fun _ => trivial
  have hruns : ∀ p' ∈ (s.undergo c o).current, p'.Runs := by
    rw [hreleased]
    exact runs_release hy
  have hsettled : (s.undergo c o).Settled := (undergo_spec hs hv).2
  refine ⟨?_, fun p' hp' => (hruns p' hp').stopping, hsettled.next_of_runs hruns,
    hsettled.active_of_runs hruns⟩
  have hheld : Held p s.journal s := ⟨hp, [], by simp, rfl⟩
  rcases hheld.undergo (c := c) hst hs hv with hstill | ⟨-, later, new, -, hj⟩
  · exact absurd (hruns p hstill.current) hst.not_runs
  · rw [hj]
    exact List.mem_append_right _ List.mem_cons_self

/-! ## Nobody waits for ever -/

/-- **No vibration and no session waits for ever**, in every state of every course.

* If the vibration that holds the motor has no deadline, it has not been told to stop, and its step
  in flight is a stream without a duration.
* If it has been told to stop, it has been cancelled, at the time of the input that was handled
  then, and its deadline is that time and the grace.
* A session that has not got the motor waits for a vibration that has been told to stop, so that
  this deadline is set.
* When the deadline has passed, the vibration is gone, and nobody waits for the motor any more,
  whatever the actuator has answered. -/
theorem no_stuck_slot (c : Context σ) (actuator : σ) (os : List (Occurrence σ))
    (h : ∀ v ∈ asked os, v.IsNew) :
    let s := after c actuator os
    (∀ p ∈ s.current, p.deadline = none → p.stopping = false ∧ p.stage = some .stream ∧
      ∃ stream, p.vibration.effect = .stream stream ∧ stream.hintMs = none) ∧
    (∀ p ∈ s.current, p.stopping = true → p.vibration.status.isCancelled = true ∧
      ∃ cancelled, p.vibration.endedMs = some cancelled ∧ WasTold c actuator os p cancelled ∧
        p.deadline = some (cancelled + c.config.cancelGraceMs)) ∧
    (∀ e ∈ s.external, e.active = false →
      ∃ p ∈ s.current, p.stopping = true ∧ p.deadline.isSome = true) ∧
    ∀ p ∈ s.current, p.stopping = true →
      ∀ policy now, (∃ deadline ∈ p.deadline, deadline ≤ now) →
        GivenUp p (s.undergo c (.handled ⟨policy, now, .deadline⟩)) := by
  intro s
  have hs : s.Settled := settled_after c actuator h
  have hstops : ∀ p ∈ s.current, p.stopping = true → p.Stops := by
    intro p hp hst
    apply (hs.holder p hp).resolve_left
    intro hr
    rw [hr.stopping] at hst
    cases hst
  -- both invariants say what the deadline is, so the vibration was told when it was cancelled
  have hcancelled : ∀ p ∈ s.current, p.stopping = true → ∃ cancelled,
      p.vibration.endedMs = some cancelled ∧ WasTold c actuator os p cancelled ∧
        p.deadline = some (cancelled + c.config.cancelGraceMs) := by
    intro p hp hst
    obtain ⟨-, ended, hended, hd⟩ := graced_after c actuator h p hp hst
    obtain ⟨now, htold, hd'⟩ := wasTold_after c actuator h hp hst
    have hsame : now = ended := Nat.add_right_cancel (Option.some.inj (hd'.symm.trans hd))
    rw [hsame] at htold
    exact ⟨ended, hended, htold, hd⟩
  refine ⟨?_, ?_, ?_, ?_⟩
  · intro p hp hd
    have hst : p.stopping = false := by
      rw [← Bool.not_eq_true]
      intro hst
      obtain ⟨cancelled, -, -, hd'⟩ := hcancelled p hp hst
      cases hd.symm.trans hd'
    obtain ⟨hflight, hstream⟩ := hs.timed p hp hst hd
    exact ⟨hst, beq_iff_eq.1 hflight, hstream⟩
  · intro p hp hst
    exact ⟨(hstops p hp hst).cancelled, hcancelled p hp hst⟩
  · intro e he ha
    have hwaits := (hs.session e he).2
    rw [if_neg (by simp [ha])] at hwaits
    obtain ⟨p, hp, hst⟩ := hwaits
    obtain ⟨cancelled, -, -, hd⟩ := hcancelled p hp hst.stopping
    exact ⟨p, hp, hst.stopping, by rw [hd]; rfl⟩
  · intro p hp hst policy now hd
    exact givenUp_of_deadline hs hp (hstops p hp hst) hd

/-- A source asks for the motor while the stream plays, and waits for it to stop. -/
def handover : List (Occurrence Bench) :=
  [.handled humAsked,
    .handled ⟨.permissive, 5, .startExternal { id := 7, uid := 2, package := "sound", token := 3 }⟩]

/-- The source waits for the stream, which was told to stop at 5 milliseconds and has a second from
then on. The bench does not report the end of the stream, and yet the source has the motor when that
time has passed. -/
theorem no_stuck_slot_handover :
    (∀ v ∈ asked handover, v.IsNew) ∧
      let s := after onBench bench handover
      let t := s.undergo onBench (.handled ⟨.permissive, 1005, .deadline⟩)
      s.external.map (·.active) = some false ∧ t.external.map (·.active) = some true ∧
        ∃ p ∈ s.current, p.vibration.endedMs = some 5 ∧ p.deadline = some 1005 ∧ GivenUp p t := by
  have hnew : ∀ v ∈ asked handover, v.IsNew := by
    intro v hv
    rw [List.mem_singleton.1 hv]
    exact ⟨hum, rfl⟩
  obtain ⟨-, hcancelled, hsession, hpassed⟩ := no_stuck_slot onBench bench handover hnew
  refine ⟨hnew, by decide, by decide, ?_⟩
  have hholds : (after onBench bench handover).current.any
      (fun p => p.stopping && p.deadline == some 1005) = true := by decide
  obtain ⟨p, hp, hst⟩ := (Option.any_eq_true _ _).1 hholds
  rw [Bool.and_eq_true, beq_iff_eq] at hst
  obtain ⟨hst, hd⟩ := hst
  obtain ⟨-, cancelled, hended, -, hd'⟩ := hcancelled p hp hst
  have hfive : cancelled = 5 := Nat.add_right_cancel (Option.some.inj (hd'.symm.trans hd))
  rw [hfive] at hended
  exact ⟨p, hp, hended, hd, hpassed p hp hst .permissive 1005 ⟨1005, hd, Nat.le_refl 1005⟩⟩

end Scheduler

end Haptics
