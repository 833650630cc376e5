import Haptics.Proofs.Scheduler.Load

/-!
# Hearing events comes to an end

When a deadline has passed, the events that wait are handled first, and so are those that come
meanwhile. They come to an end unless an actuator that reports at once plays a restless waveform:
each event that is heard takes one from what is still to come (`Scheduler.load`), and to handle it
adds nothing.

With a restless waveform they do not come to an end (`Spins`): each report starts a step, which is
reported at once.

* `drain_of_load`: after how many events there are no more.
* `drain_of_spins`: when there is always one more.
* `onTimer_returns`: a deadline is handled, in every state of every course.
* `onTimer_spins`: or it is not, with a waveform that starts again without a pause.
-/

namespace Haptics.Scheduler

open Occurrence

variable {c : Context Bench} {s : Scheduler Bench} {p : Playback}

/-! ## Hearing -/

/-- The events that wait to be heard. -/
def events (s : Scheduler Bench) : List ActuatorEvent := s.line.actuator.motor.events

/-- A scheduler with other events that wait to be heard. -/
def withEvents (events : List ActuatorEvent) (s : Scheduler Bench) : Scheduler Bench :=
  let b := s.line.actuator
  { s with line := { s.line with actuator := { b with motor := { b.motor with events } } } }

/-- Nothing is heard where no event waits. -/
theorem hear_of_nil (hd : c.device = Bench.device) (h : s.events = []) : s.hear c = none := by
  have hm : s.line.actuator.motor.hear = none := by
    rw [Motor.hear, show s.line.actuator.motor.events = [] from h]
  rw [hear, hd]
  simp [Bench.device, Bench.hear, hm]

/-- The oldest event is heard, and waits no more. -/
theorem hear_of_cons (hd : c.device = Bench.device) {event : ActuatorEvent}
    {rest : List ActuatorEvent} (h : s.events = event :: rest) :
    s.hear c = some (event, s.withEvents rest) := by
  have hm : s.line.actuator.motor.hear =
      some (event, { s.line.actuator.motor with events := rest }) := by
    rw [Motor.hear, show s.line.actuator.motor.events = event :: rest from h]
  rw [hear, hd]
  simp [Bench.device, Bench.hear, hm, withEvents]

/-- Where nothing is heard there is an end. -/
theorem drain_of_none (h : s.hear c = none) (limit : Nat) : s.drain c limit = some s := by
  unfold drain
  rw [h]

/-- What is heard is handled, and then the rest. -/
theorem drain_of_some {event : ActuatorEvent} {t : Scheduler Bench}
    (h : s.hear c = some (event, t)) (limit : Nat) :
    s.drain c (limit + 1) = (t.handleEvent c event).drain c limit := by
  rw [drain, h]

/-! ## Events that come to an end -/

/-- To hear an event takes it from what is still to come. -/
theorem load_withEvents {event : ActuatorEvent} {rest : List ActuatorEvent}
    (h : s.events = event :: rest) : s.load = (s.withEvents rest).load + 1 := by
  have hu : s.unheard = (s.withEvents rest).unheard + 1 := congrArg List.length h
  rw [load, backlog, hu, load, backlog]
  change _ = _ + s.echo (s.next.elim 0 Playback.ahead) +
    s.echo (s.current.elim 0 Playback.ahead) + 1
  omega

/-- **The events come to an end** after as many as are still to come, and it does not matter how
many more may be heard. -/
theorem drain_of_load (hd : c.device = Bench.device) (h : s.Settled) (hr : s.Restful) :
    ∃ t, t.hear c = none ∧ ∀ limit, s.load ≤ limit → s.drain c limit = some t := by
  induction hn : s.load using Nat.strong_induction_on generalizing s with
  | h n ih =>
    cases he : s.events with
    | nil =>
      have hnone := hear_of_nil hd he
      exact ⟨s, hnone, fun limit _ => drain_of_none hnone limit⟩
    | cons event rest =>
      have hheard : (s.withEvents rest).Settled := h.of_places rfl rfl rfl
      have hrestful : (s.withEvents rest).Restful := hr.of_setUp rfl rfl rfl
      have hload := load_withEvents he
      have hle := load_handleEvent hd hheard hrestful event
      obtain ⟨t, ht, hdrain⟩ := ih _ (by omega) (settles_handleEvent (c := c) hheard event).settled
        (restful_handleEvent hd hheard hrestful event) rfl
      refine ⟨t, ht, fun limit hlimit => ?_⟩
      obtain ⟨limit, rfl⟩ : ∃ k, limit = k + 1 := ⟨limit - 1, by omega⟩
      rw [drain_of_some (hear_of_cons hd he)]
      exact hdrain limit (by omega)

/-! ## Events without end -/

/-- Whether the actuator carries out whatever it can, and reports the end of a command at once. -/
structure Prompt (s : Scheduler Bench) : Prop where
  connected : s.line.connected = true
  sound : s.line.actuator.Sound
  attached : s.line.actuator.motor.attached = true
  immediate : s.setUp.completion = .immediate

/-- An order is carried out, and brings the events that it brings. -/
theorem Prompt.issue (h : s.Prompt) (hd : c.device = Bench.device) {o : Order}
    (hm : s.line.actuator.motor.missing? o = none) :
    ∃ t, s.issue c o = (.ok (s.line.actuator.motor.reported o), t) ∧ t.Prompt ∧
      t.events = (s.line.actuator.motor.obey c.now o).events := by
  have hp : c.device.perform c.now o s.line.actuator =
      (.ok (s.line.actuator.motor.reported o),
        s.line.actuator.obeyed c.now o) := by
    rw [hd]
    exact h.sound.perform_eq hm (fun _ => h.attached) c.now
  have halike := Motor.alike_obey s.line.actuator.motor c.now o
  refine ⟨_, issue_of_ok hp, ?_, rfl⟩
  refine ⟨h.connected, h.sound.obeyed _ _, halike.attached.trans h.attached, ?_⟩
  exact (congrArg MotorConfig.completion halike.config).trans h.immediate

/-- A loud step is started, and its end is reported at once. -/
theorem Prompt.launch (h : s.Prompt) (hd : c.device = Bench.device) (p : Playback)
    (durationMs : Nat) (amplitude : UInt8) :
    ∃ t, s.launch c p (.on durationMs amplitude) = (.ok durationMs, t) ∧ t.Prompt ∧
      t.events = s.events ++ [.complete p.id] := by
  have hon (u : Scheduler Bench) (hu : u.Prompt) :
      ∃ t, u.issue c (.on durationMs p.id) = (.ok durationMs, t) ∧ t.Prompt ∧
        t.events = u.events ++ [.complete p.id] := by
    obtain ⟨t, ht, hprompt, hevents⟩ := hu.issue hd (o := .on durationMs p.id) rfl
    exact ⟨t, ht, hprompt, hevents.trans (Motor.events_obey_on hu.immediate hu.attached ..)⟩
  have hreach : s.reach c = (.ok (), s) := by
    rw [reach, Line.reach_of_connected h.connected]
  unfold Scheduler.launch
  rw [hreach]
  simp only [Step.orders]
  split
  · next hcan =>
    have hm : s.line.actuator.motor.missing? (.setAmplitude amplitude) = none := by
      rw [hd] at hcan
      exact if_pos hcan
    obtain ⟨u, hu, hprompt, hevents⟩ := h.issue hd hm
    obtain ⟨t, ht, hprompt', hevents'⟩ := hon u hprompt
    refine ⟨t, ?_, hprompt', ?_⟩
    · simp [issueAll, hu, ht]
    · rw [hevents', hevents]
      rfl
  · exact hon s h

/-- Whether every step is reported while it is started, and starts the next one when the report is
heard. -/
structure Spins (s : Scheduler Bench) (p : Playback) : Prop extends Prompt s where
  current : s.current = some p
  stopping : p.stopping = false
  /-- The step in flight ends when the actuator says so. -/
  stage : p.stage = some .awaiting
  /-- The waveform is restless, and there is no silence ahead. -/
  waveform : ∃ w, p.vibration.effect = .waveform w ∧ w.timingsMs.length ≤ w.amplitudes.length ∧
    w.isRestless = true ∧ w.hasFrom .timed p.cursor = false

/-- The next step is started, and reported at once. -/
theorem Spins.advance (h : s.Spins p) (hd : c.device = Bench.device) :
    ∃ p', (s.advance c).Spins p' ∧ p'.id = p.id ∧
      (s.advance c).events = s.events ++ [.complete p.id] := by
  obtain ⟨w, hw, ha, hrestless, hquiet⟩ := h.waveform
  obtain ⟨durationMs, amplitude, cursor, hseek, hquiet'⟩ :=
    Waveform.seek_of_isRestless ha hrestless hquiet
  have hn : p.nextStep = some (.on durationMs amplitude, cursor) := by
    rw [Playback.nextStep, hw]
    exact hseek
  obtain ⟨t, ht, hprompt, hevents⟩ := h.toPrompt.launch hd p durationMs amplitude
  let p' := p.launch (.on durationMs amplitude) cursor c.now (some durationMs)
  have hadvance : s.advance c = { t with current := some p' } := by
    simp [Scheduler.advance, startStep, h.current, hn, ht, Step.span, p']
  rw [hadvance]
  refine ⟨p', ⟨⟨hprompt.connected, hprompt.sound, hprompt.attached, hprompt.immediate⟩, rfl,
    h.stopping, rfl, w, hw, ha, hrestless, hquiet'⟩, rfl, hevents⟩

/-- **There is always one more event to hear**, however many are heard. -/
theorem drain_of_spins (hd : c.device = Bench.device) (h : s.Spins p)
    (hreported : .complete p.id ∈ s.events) (halive : .died ∉ s.events) (limit : Nat) :
    s.drain c limit = none := by
  induction limit generalizing s p with
  | zero =>
    obtain ⟨event, rest, he⟩ := List.exists_cons_of_ne_nil (List.ne_nil_of_mem hreported)
    rw [drain, hear_of_cons hd he]
  | succ limit ih =>
    obtain ⟨event, rest, he⟩ := List.exists_cons_of_ne_nil (List.ne_nil_of_mem hreported)
    rw [he] at hreported halive
    have hheard : (s.withEvents rest).Spins p :=
      ⟨⟨h.connected, ⟨h.sound.faults, h.sound.failing⟩, h.attached, h.immediate⟩, h.current,
        h.stopping, h.stage, h.waveform⟩
    rw [drain_of_some (hear_of_cons hd he)]
    cases event with
    | died => exact absurd (List.mem_cons_self ..) halive
    | complete id =>
      have halive : .died ∉ rest := fun hm => halive (List.mem_cons_of_mem _ hm)
      -- a completion of who plays starts the next step and so another one; any other is ignored
      by_cases hid : p.id = id
      · have hhandle : (s.withEvents rest).handleEvent c (.complete id) =
            (s.withEvents rest).advance c := by
          simp [handleEvent, completed, hheard.current, hid, h.stopping, h.stage]
        obtain ⟨p', hspins, hid', hevents⟩ := hheard.advance hd
        rw [hhandle]
        refine ih hspins ?_ ?_
        · rw [hevents, hid']
          simp
        · rw [hevents]
          simpa [events, withEvents] using halive
      · have hhandle : (s.withEvents rest).handleEvent c (.complete id) = s.withEvents rest := by
          simp [handleEvent, completed, hheard.current, hid]
        rw [hhandle]
        refine ih hheard ?_ halive
        rcases List.mem_cons.1 hreported with heq | hm
        · cases heq
          exact absurd rfl hid
        · exact hm

/-! ## In every state of every course -/

/-- **A deadline is handled**, in every state of every course, whatever waits to be heard and
however the actuator reports the end of a command, as long as no restless waveform keeps an actuator
busy that reports at once. So many events may be heard as are still to come; then there are no more,
and the deadline is handled. -/
theorem onTimer_returns (c : Context Bench) (hd : c.device = Bench.device) (actuator : Bench)
    (os : List (Occurrence Bench)) (h : ∀ v ∈ asked os, v.IsNew) (policy : Policy) (now : Nat)
    (hr : (after c actuator os).Restful) :
    let s := after c actuator os
    let d : Context Bench := { c with policy, now }
    ∃ t : Scheduler Bench, t.hear d = none ∧
      ∀ limit, s.load ≤ limit → s.onTimer d limit = some (t.handleDeadline d) := by
  intro s d
  obtain ⟨t, ht, hdrain⟩ := drain_of_load (c := d) hd (settled_after c actuator h) hr
  refine ⟨t, ht, fun limit hlimit => ?_⟩
  rw [onTimer, hdrain limit hlimit]
  rfl

/-- A motor that reports the end of a command while it is given. -/
def promptBench : Bench := { motor := { config := { completion := .immediate } } }

/-- A waveform that starts again when it has come to its end is asked for. -/
def patternAsked (timingsMs : List Nat) (amplitudes : List UInt8) : List (Occurrence Bench) :=
  [.handled ⟨.permissive, 0, .vibrate (.ofRequest 1
    { uid := 1, package := "alerts", token := 4
      effect := .waveform { timingsMs, amplitudes, repeatFrom := some 0 } })⟩]

/-- The pattern is a new vibration. -/
theorem isNew_patternAsked (timingsMs : List Nat) (amplitudes : List UInt8) :
    ∀ v ∈ asked (patternAsked timingsMs amplitudes), v.IsNew := by
  intro v hv
  rw [List.mem_singleton.1 hv]
  exact ⟨_, rfl⟩

/-- A waveform with a pause is on, the deadline of its loud step has passed, and the report of the
motor waits. Two events may be heard; one is, and the pause has begun. -/
theorem onTimer_returns_pause :
    let os := patternAsked [10, 5] [255, 0]
    let s := after onBench promptBench os
    let d : Context Bench := { onBench with now := 10 }
    (∀ v ∈ asked os, v.IsNew) ∧ s.Restful ∧ s.events = [.complete 1] ∧ s.load = 2 ∧
      ∃ t : Scheduler Bench, t.hear d = none ∧
        ∀ limit, 2 ≤ limit → s.onTimer d limit = some (t.handleDeadline d) := by
  intro os s d
  have hnew := isNew_patternAsked [10, 5] [255, 0]
  have hr : s.Restful := ⟨by decide, by decide⟩
  have hload : s.load = 2 := by decide
  have hreturns := onTimer_returns onBench rfl promptBench os hnew .permissive 10 hr
  exact ⟨hnew, hr, by decide, hload, hload ▸ hreturns⟩

/-- **With a waveform that starts again without a pause the deadline is never handled**: it has
passed, and one report of the motor waits; but however many events are heard, there is one more. -/
theorem onTimer_spins :
    let os := patternAsked [10] [255]
    let s := after onBench promptBench os
    let d : Context Bench := { onBench with now := 10 }
    (∀ v ∈ asked os, v.IsNew) ∧ s.deadline? = some 10 ∧ s.events = [.complete 1] ∧
      ∀ limit, s.onTimer d limit = none := by
  intro os s d
  let w : Waveform := { timingsMs := [10], amplitudes := [255], repeatFrom := some 0 }
  have hevents : s.events = [.complete 1] := by decide
  have hholder : s.current.any (fun p => p.id = 1 && p.stopping = false &&
      p.stage = some .awaiting && p.vibration.effect = .waveform w &&
      w.hasFrom .timed p.cursor = false) = true := by decide
  obtain ⟨p, hp, hholder⟩ := (Option.any_eq_true _ _).1 hholder
  simp only [Bool.and_eq_true, decide_eq_true_eq] at hholder
  obtain ⟨⟨⟨⟨hid, hst⟩, hstage⟩, heffect⟩, hquiet⟩ := hholder
  have hprompt : s.Prompt := ⟨by decide, ⟨by decide, by decide⟩, by decide, by decide⟩
  have hspins : s.Spins p :=
    ⟨hprompt, hp, hst, hstage, w, heffect, by decide, by decide, hquiet⟩
  refine ⟨isNew_patternAsked [10] [255], by decide, hevents, fun limit => ?_⟩
  rw [onTimer, drain_of_spins (c := d) rfl hspins (by rw [hevents, hid]; simp) (by simp [hevents])]
  rfl

end Haptics.Scheduler
