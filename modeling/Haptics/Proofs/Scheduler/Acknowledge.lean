import Haptics.Proofs.Scheduler.InFlight

/-!
# Acknowledgements match steps

The end of a command is reported under the number of the vibration, and all steps of a waveform have
one number. Still a step is never taken for ended because an earlier one has: of the reports that
may be heard while a step is in flight none is about an earlier step (`InFlight`).

* `treats_endure`: what an incident does to waveforms. The step in flight stays so, or its
  vibration ends, or its deadline has passed, or the report of its own command is heard; and
  whichever step is in flight afterwards has just been launched, if it was not in flight before.
* `launches_noted`: by induction over incidents from the start, every step in flight was launched
  with the latest command.
* `acknowledgements_match_steps`: so whatever the report is that ends a step, its command is that of
  the step.
-/

namespace Haptics

/-- Whether an incident may end a vibration otherwise than step by step: a client asks for
something, everything is stopped, or the loss of the connection is heard. -/
def Incident.interrupts (n : Noted) : Incident → Prop
  | called _ _ | stopped _ => True
  | heard _ _ => n.bench.motor.events.head? = some .died
  | expired _ _ | moved _ => False

namespace Scheduler

open Occurrence

variable {c : Context Noted} {s t : Scheduler Noted} {p : Playback} {i : Incident}

/-! ## One incident -/

/-- What becomes of the step in flight of a waveform in an incident. -/
inductive Passing (s t : Scheduler Noted) (i : Incident) (p : Playback) : Prop
  /-- It stays in flight, and nothing is started. -/
  | lasts (hc : t.current = some p) (ho : t.startOrders = s.startOrders)
  /-- The vibration ends and is gone. -/
  | interrupted (hi : i.interrupts s.notes) (hr : ∃ v ∈ t.retired, v.id = p.id)
  /-- Its deadline has passed, and no event waits to be heard. -/
  | lapsed {policy : Policy} {now deadline : Nat} (hi : i = .expired policy now)
      (hd : p.deadline = some deadline) (hle : deadline ≤ now)
      (he : s.notes.bench.motor.events = [])
  /-- The report of the latest command is heard, which is for the vibration. -/
  | acknowledged {policy : Policy} {now : Nat} {rest : List (Nat × Nat)}
      (hi : i = .heard policy now) (he : s.notes.bench.motor.events.head? = some (.complete p.id))
      (hs : p.stage = some .awaiting) (hr : s.notes.reports = (p.id, s.notes.started) :: rest)

/-- Every waveform that holds the motor has been holding it, and nothing was started, or a step of
it has been launched. -/
def Follows (s t : Scheduler Noted) : Prop :=
  ∀ q ∈ t.current, ∀ w, q.vibration.effect = .waveform w →
    s.current = some q ∧ t.startOrders = s.startOrders ∧ Noted.Quiet s.notes t.notes ∨ s.Fresh t q

/-- What an incident does to waveforms. -/
structure Treats (s t : Scheduler Noted) (i : Incident) : Prop where
  follows : s.Follows t
  passing : ∀ p ∈ s.current, ∀ w, p.vibration.effect = .waveform w → s.Passing t i p

/-- An incident in which nothing is started lets every step in flight last. -/
theorem treats_of_quiet (hc : t.current = s.current) (ho : t.startOrders = s.startOrders)
    (hq : Noted.Quiet s.notes t.notes) (i : Incident) : s.Treats t i where
  follows _ hm _ _ := .inl ⟨hc ▸ hm, ho, hq⟩
  passing _ hp _ _ := .lasts (hc.trans hp) ho

/-- Nobody goes on where an incident interrupts. -/
theorem treats_of_succeeds {x : Option Vibration} {leave : Playback → Prop}
    (h : Succeeds x s t) (hr : Relation.ReflTransGen (Change c leave) ⟨x, s⟩ ⟨none, t⟩)
    (hd : c.device = Noted.device) (hs : Driven ⟨x, s⟩) (ht : t.Orderly)
    (hi : i.interrupts s.notes) : s.Treats t i where
  follows q hq w hw := by
    rcases h q hq w hw with ⟨hc, ho⟩ | hdebuts
    · exact .inl ⟨hc, ho, (quiet_of_changes hd hr).2 ho⟩
    · exact .inr (hdebuts.fresh hs ht)
  passing p hp w hw := by
    rcases kept_or_retired h hs hr hp hw with ⟨hc, ho⟩ | hgone
    · exact .lasts hc ho
    · exact .interrupted hi hgone

/-- A waveform is never told to stop. -/
theorem Orderly.not_stopping (h : s.Orderly) (hp : s.current = some p) {w : Waveform}
    (hw : p.vibration.effect = .waveform w) : p.stopping = false := by
  rcases h.settled.holder p hp with hr | hst
  · exact hr.stopping
  · exact absurd hw ((h.genuine p hp).ne_waveform hst.inFlight w)

/-- Where the motor is given up, whichever waveform holds it has just taken it. -/
theorem GivesWay.follows (h : GivesWay none s t) (hs : s.Orderly) (ht : t.Orderly) :
    s.Follows t :=
  fun q hq w hw => .inr ((h q hq w hw).fresh hs.driven ht)

/-! ## What is heard -/

/-- Nothing is heard where no event waits. -/
theorem events_of_silence (hd : c.device = Noted.device) (h : s.hear c = none) :
    s.notes.bench.motor.events = [] := by
  have hn : c.device.hear s.line.actuator = none := Option.map_eq_none_iff.1 h
  rw [hd, Noted.hear_eq] at hn
  have hm : s.notes.bench.motor.hear = none :=
    Option.map_eq_none_iff.1 (Option.map_eq_none_iff.1 hn)
  unfold Motor.hear at hm
  split at hm
  · assumption
  · cases hm

/-- The oldest event has been heard, and is not handled yet. -/
structure Hears (s t : Scheduler Noted) (event : ActuatorEvent) : Prop where
  current : t.current = s.current
  startOrders : t.startOrders = s.startOrders
  quiet : Noted.Quiet s.notes t.notes
  orderly : t.Orderly
  events : s.notes.bench.motor.events.head? = some event
  /-- The report of an end has been the oldest. -/
  reports : ∀ id, event = .complete id →
    ∃ number, s.notes.reports = (id, number) :: t.notes.reports

/-- What is heard is the oldest event, and to hear it starts nothing. -/
theorem hears_of_hear (hd : c.device = Noted.device) (hs : s.Orderly) {event : ActuatorEvent}
    (h : s.hear c = some (event, t)) : s.Hears t event := by
  obtain ⟨n, hn, rfl⟩ := exists_of_hear h
  rw [hd] at hn
  have hdrifts := Noted.drifts_hear hn
  rw [Noted.hear_eq] at hn
  obtain ⟨⟨event', b⟩, hb, heq⟩ := Option.map_eq_some_iff.1 hn
  cases heq
  obtain ⟨rest, he, -⟩ := Noted.exists_of_hear hb
  constructor
  · rfl
  · exact startOrders_of_journal rfl
  · exact Noted.quiet_heard hb
  · exact ⟨hs.settled.of_places rfl rfl rfl, hs.driven.asked (o := .moved _) (by rintro _ ⟨⟩),
      hs.genuine, hdrifts.commands.trans hs.tells, hdrifts.tallies hs.tallies⟩
  · exact he ▸ rfl
  · rintro id rfl
    exact hs.tallies.reports_of_hear hb

/-- What follows when an event has been heard follows before. -/
theorem Hears.follows {u : Scheduler Noted} {event : ActuatorEvent} (h : s.Hears t event)
    (hf : t.Follows u) : s.Follows u := by
  intro q hm w hw
  rcases hf q hm w hw with ⟨hc, ho, hquiet⟩ | ⟨hflight, hlt⟩
  · exact .inl ⟨h.current ▸ hc, ho.trans h.startOrders, h.quiet.trans hquiet⟩
  · exact .inr ⟨hflight, h.startOrders ▸ hlt⟩

/-! ## Incidents of each kind -/

/-- The loss of the connection is handled. -/
theorem treats_died (hd : c.device = Noted.device) (h : s.Hears t .died) {policy : Policy}
    {now : Nat} (ht : (t.lost { c with policy, now }).Orderly) :
    s.Treats (t.lost { c with policy, now }) (.heard policy now) := by
  have hr := (undergo_spec (c := c) h.orderly.settled
    (o := .handled ⟨policy, now, .event .died⟩) (by rintro _ ⟨⟩)).1
  have htreats := treats_of_succeeds (x := none) (succeeds_lost { c with policy, now } t) hr hd
    h.orderly.driven ht (i := .stopped now) trivial
  refine ⟨h.follows htreats.follows, fun p hp w hw => ?_⟩
  cases htreats.passing p (h.current ▸ hp) w hw with
  | lasts hc ho => exact .lasts hc (ho.trans h.startOrders)
  | interrupted hi hgone => exact .interrupted h.events hgone
  | lapsed hi => cases hi
  | acknowledged hi => cases hi

/-- The end of a command is handled. -/
theorem treats_completed (hd : c.device = Noted.device) {id : Nat} (h : s.Hears t (.complete id))
    (hs : s.Orderly) (hfl : ∀ p ∈ s.current, ∀ w, p.vibration.effect = .waveform w → s.InFlight p)
    {policy : Policy} {now : Nat} (ht : (t.completed { c with policy, now } id).Orderly) :
    s.Treats (t.completed { c with policy, now } id) (.heard policy now) := by
  obtain ⟨number, hreports⟩ := h.reports id rfl
  have hp' {p : Playback} (hp : t.current = some p) : s.current = some p := h.current ▸ hp
  rcases completed_cases { c with policy, now } id t with
    heq | ⟨p, hp, rfl, ⟨hst, heq⟩ | ⟨-, hstage, heq⟩⟩
  · rw [heq]
    exact treats_of_quiet h.current h.startOrders h.quiet _
  · -- a waveform is never told to stop, so none has held the motor
    rw [heq] at ht ⊢
    have hgives : GivesWay none t (t.release { c with policy, now }) :=
      givesWay_release_of_eq rfl rfl
    refine ⟨h.follows (hgives.follows h.orderly ht), fun p' hp₁ w hw => ?_⟩
    cases (hp' hp).symm.trans hp₁
    cases hst.symm.trans (hs.not_stopping hp₁ hw)
  · rw [heq] at ht ⊢
    -- the report is about the latest command, and nothing else waits for the waveform
    have hlatest : ∀ w, p.vibration.effect = .waveform w →
        p.stage = some .awaiting ∧ number = s.notes.started ∧ t.notes.Clear p.id := by
      intro w hw
      cases hfl p (hp' hp) w hw with
      | loud hw' hawaiting hstep ho ha =>
        obtain ⟨hnumber, hrest⟩ := hs.tallies.clear_of_heard ha hreports
        exact ⟨hawaiting, hnumber, hrest⟩
      | silent htimed hq =>
        rcases hstage with hstage | hstage <;> cases htimed.symm.trans hstage
    refine ⟨h.follows fun q hq w hw => .inr ?_, fun p' hp₁ w hw => ?_⟩
    · exact fresh_advance (c := { c with policy, now }) hp (fun w hw => (hlatest w hw).2.2) hd
        h.orderly.driven h.orderly.tells ht q hq w hw
    · cases (hp' hp).symm.trans hp₁
      obtain ⟨hawaiting, rfl, -⟩ := hlatest w hw
      exact .acknowledged rfl h.events hawaiting hreports

/-- The deadline is handled. -/
theorem treats_deadline (hd : c.device = Noted.device) (hs : s.Orderly)
    (he : s.notes.bench.motor.events = []) {policy : Policy} {now : Nat}
    (ht : (s.handleDeadline { c with policy, now }).Orderly) :
    s.Treats (s.handleDeadline { c with policy, now }) (.expired policy now) := by
  rcases handleDeadline_cases { c with policy, now } s with
    heq | ⟨p, deadline, hp, hdeadline, hle, ⟨hst, heq⟩ | ⟨hst, heq⟩⟩
  · rw [heq]
    exact treats_of_quiet rfl rfl (.refl _) _
  · rw [heq] at ht ⊢
    have hgives : GivesWay none s (s.release { c with policy, now }) :=
      givesWay_release_of_eq rfl rfl
    refine ⟨hgives.follows hs ht, fun p' hp' w hw => ?_⟩
    cases hp.symm.trans hp'
    cases hst.symm.trans (hs.not_stopping hp hw)
  · rw [heq] at ht ⊢
    have hplays := hs.settled.plays hp hst
    have hdriven := hs.driven.change (show Change { c with policy, now } (fun _ => True) _ _ from
      .turned hp (.lapsed hplays.runs hdeadline hle))
    have hclear : s.notes.Clear p.id := by
      intro r hr
      have hnone : s.notes.reports = [] := hs.tallies.reports_of_silence he
      rw [hnone] at hr
      cases hr
    refine ⟨fun q hq w hw => .inr ?_, fun p' hp' w hw => ?_⟩
    · have hfresh := fresh_advance (c := { c with policy, now })
        (s := { s with current := some { p with deadline := none } }) rfl (fun _ _ => hclear) hd
        hdriven hs.tells ht q hq w hw
      exact ⟨hfresh.inFlight, hfresh.lt⟩
    · cases hp.symm.trans hp'
      exact .lapsed rfl hdeadline hle he

/-- **What an incident does to waveforms**, whichever it is. -/
theorem treats_endure (hd : c.device = Noted.device) (hs : s.Orderly) {i : Incident}
    (hi : ∀ v ∈ i.asks, v.IsNew ∧ v.id ∉ s.vibrations.map (·.id))
    (hfl : ∀ p ∈ s.current, ∀ w, p.vibration.effect = .waveform w → s.InFlight p)
    (ht : (s.endure c Noted.move i).Orderly) : s.Treats (s.endure c Noted.move i) i := by
  cases i with
  | called happening client =>
    have hasks : (Incident.called happening client).asks =
        (.handled happening : Occurrence Noted).asks := asks_handled happening
    rw [hasks] at hi
    have hr := (undergo_spec (c := c) hs.settled (o := .handled happening)
      fun v hv => (hi v hv).1).1
    have hdriven := hs.driven.asked (o := .handled happening) fun v hv => (hi v hv).2
    have hsucceeds := succeeds_step hs.genuine client (c.during happening)
    exact treats_of_succeeds hsucceeds hr hd hdriven ht trivial
  | heard policy now =>
    cases hh : s.hear c with
    | none =>
      rw [endure_heard_of_none hh]
      exact treats_of_quiet rfl rfl (.refl _) _
    | some heard =>
      obtain ⟨event, u⟩ := heard
      rw [endure_heard_of_some hh] at ht ⊢
      have h := hears_of_hear hd hs hh
      cases event with
      | complete id => exact treats_completed hd h hs hfl ht
      | died => exact treats_died hd h ht
  | expired policy now =>
    cases hh : s.hear c with
    | none =>
      rw [endure_expired_of_none hh] at ht ⊢
      exact treats_deadline hd hs (events_of_silence hd hh) ht
    | some heard =>
      rw [endure_expired_of_some hh]
      exact treats_of_quiet rfl rfl (.refl _) _
  | stopped now =>
    obtain ⟨hr, hc, -⟩ := stopAll_spec { c with now } s
    -- when everything has been stopped nobody is left who could have been started
    have hsucceeds : Succeeds none s (s.stopAll { c with now }) := by
      intro q hq
      rw [hc] at hq
      cases hq
    exact treats_of_succeeds hsucceeds (hr none) hd hs.driven ht trivial
  | moved m =>
    exact treats_of_quiet (s := s) (t := s.endure c Noted.move (.moved m)) rfl rfl
      (hs.tallies.quiet_move m) _

/-! ## In every state -/

/-- The loud step in flight was launched with the command of a number: the command is that of the
step, it was started in one of the incidents, and since then the step has been in flight and nothing
has been started. -/
structure LaunchedBy (c : Context Noted) (config : MotorConfig) (is : List Incident) (p : Playback)
    (number : Nat) : Prop where
  command : ∃ w durationMs amplitude, p.vibration.effect = .waveform w ∧
    w.stepAt? (p.cursor - 1) = some (.on durationMs amplitude) ∧
    (noted c config is).notes.bench.motor.startCommands[number - 1]? = some (.on durationMs p.id)
  since : ∃ before i after, is = before ++ i :: after ∧
    (noted c config before).notes.started < number ∧
    ∀ later, later <+: after →
      (noted c config (before ++ i :: later)).current = some p ∧
      (noted c config (before ++ i :: later)).notes.started = number

/-- The steps in flight of waveforms, after incidents from the start. -/
structure Launches (c : Context Noted) (config : MotorConfig) (is : List Incident) (p : Playback) :
    Prop where
  inFlight : (noted c config is).InFlight p
  launchedBy : p.stage = some .awaiting →
    LaunchedBy c config is p (noted c config is).notes.started

section since

variable {config : MotorConfig} {is : List Incident}

/-- As long as the step is in flight, and nothing is started, it was launched by the same
command. -/
theorem LaunchedBy.concat {number : Nat} (h : LaunchedBy c config is p number) {i : Incident}
    (hc : (noted c config (is ++ [i])).current = some p)
    (ho : (noted c config (is ++ [i])).notes.bench.motor.startCommands =
      (noted c config is).notes.bench.motor.startCommands)
    (hn : (noted c config is).notes.started = number) :
    LaunchedBy c config (is ++ [i]) p number := by
  obtain ⟨⟨w, durationMs, amplitude, hw, hstep, hcommand⟩, before, j, after, rfl, hlt, hsince⟩ := h
  refine ⟨⟨w, durationMs, amplitude, hw, hstep, ho ▸ hcommand⟩, before, j, after ++ [i],
    List.append_assoc .., hlt, fun later hlater => ?_⟩
  rcases List.prefix_concat_iff.1 hlater with rfl | hlater
  · rw [← List.cons_append, ← List.append_assoc]
    exact ⟨hc, (congrArg List.length ho).trans hn⟩
  · exact hsince later hlater

/-- A loud step that has just been launched was launched by the latest command. -/
theorem Fresh.launchedBy {i : Incident}
    (h : (noted c config is).Fresh (noted c config (is ++ [i])) p)
    (hs : (noted c config is).Orderly) (ht : (noted c config (is ++ [i])).Orderly)
    (hc : (noted c config (is ++ [i])).current = some p) (hstage : p.stage = some .awaiting) :
    LaunchedBy c config (is ++ [i]) p (noted c config (is ++ [i])).notes.started := by
  constructor
  · cases h.inFlight with
    | @loud w durationMs amplitude earlier hw hs hstep ho ha =>
      refine ⟨w, durationMs, amplitude, hw, hstep, ?_⟩
      rw [ht.tells.startCommands, ht.tells.started, ho]
      simp [Order.command]
    | silent htimed hq => cases htimed.symm.trans hstage
  · refine ⟨is, i, [], rfl, ?_, fun later hlater => ?_⟩
    · rw [hs.tells.started, ht.tells.started]
      exact h.lt hstage
    · rw [List.prefix_nil.1 hlater]
      exact ⟨hc, rfl⟩

/-- **What is in flight**, after incidents from the start. -/
theorem launches_noted (hd : c.device = Noted.device) (config : MotorConfig) {is : List Incident}
    (h : Incident.Proper is) :
    ∀ p ∈ (noted c config is).current, ∀ w, p.vibration.effect = .waveform w →
      Launches c config is p := by
  induction is using List.reverseRecOn with
  | nil =>
    intro p hp
    cases hp
  | append_singleton is i ih =>
    have hs := orderly_noted hd config h.of_append
    have ht := orderly_noted hd config h
    have hih := ih h.of_append
    have htreats := treats_endure hd hs (new_noted hd config h)
      (fun p hp w hw => (hih p hp w hw).inFlight) (noted_concat c config is i ▸ ht)
    rw [← noted_concat] at htreats
    intro q hq w hw
    rcases htreats.follows q hq w hw with ⟨hc, ho, hquiet⟩ | hfresh
    · have hkept := hih q hc w hw
      refine ⟨hkept.inFlight.of_quiet ho hquiet, fun hstage => ?_⟩
      have hstarted := hquiet.started
      rw [hstarted]
      exact (hkept.launchedBy hstage).concat hq hquiet.startCommands rfl
    · exact ⟨hfresh.inFlight, hfresh.launchedBy hs ht hq⟩

end since

/-- **Acknowledgements match steps**, whatever happens, in whatever order, and on whatever motor.

* A timer is nothing else than incidents in turn: what waits is heard, and then the deadline is
  handled.
* The notes change nothing: without them the same comes of the same incidents. And they are right.
* The step in flight of a waveform stays in flight through an incident, in which nothing is started;
  or its vibration ends, where a client asks for something, everything is stopped or the connection
  is lost; or its deadline has passed, and no event waits to be heard; or a report for its vibration
  is heard, and that is about the very command with which the step was launched. -/
theorem acknowledgements_match_steps (hd : c.device = Noted.device) (config : MotorConfig)
    (before : List Incident) (i : Incident) (h : Incident.Proper (before ++ [i])) :
    let s := noted c config before
    let t := noted c config (before ++ [i])
    (∀ policy now limit u, s.onTimer { c with policy, now } limit = some u →
      ∃ n, u = s.endureAll c Noted.move
        (List.replicate n (.heard policy now) ++ [.expired policy now])) ∧
    t.through Noted.bench =
      (create c.config { motor := { config } }).endureAll (c.onto Bench.device) Bench.move
        (before ++ [i]) ∧
    s.notes.Tallies ∧
    ∀ p ∈ s.current, ∀ w, p.vibration.effect = .waveform w →
      (t.current = some p ∧
        t.notes.bench.motor.startCommands = s.notes.bench.motor.startCommands) ∨
      (i.interrupts s.notes ∧ ∃ v ∈ t.retired, v.id = p.id) ∨
      (∃ policy now deadline, i = .expired policy now ∧ p.deadline = some deadline ∧
        deadline ≤ now ∧ s.notes.bench.motor.events = []) ∨
      (∃ policy now number rest, i = .heard policy now ∧
        s.notes.bench.motor.events.head? = some (.complete p.id) ∧ p.stage = some .awaiting ∧
        s.notes.reports = (p.id, number) :: rest ∧ LaunchedBy c config before p number) := by
  intro s t
  have hs : s.Orderly := orderly_noted hd config h.of_append
  have ht : t.Orderly := orderly_noted hd config h
  have hlaunches := launches_noted hd config h.of_append
  have htreats : s.Treats t i := by
    have hstep : t = s.endure c Noted.move i := noted_concat c config before i
    rw [hstep] at ht ⊢
    exact treats_endure hd hs (new_noted hd config h)
      (fun p hp w hw => (hlaunches p hp w hw).inFlight) ht
  refine ⟨fun policy now limit u hu => onTimer_eq_endureAll c Noted.move policy now limit hu, ?_,
    hs.tallies, fun p hp w hw => ?_⟩
  · exact (through_endureAll (hd ▸ Noted.shows_bench) Noted.bench_move (before ++ [i]) _).symm
  · cases htreats.passing p hp w hw with
    | lasts hc ho =>
      refine .inl ⟨hc, ?_⟩
      rw [ht.tells.startCommands, hs.tells.startCommands, ho]
    | interrupted hi hgone => exact .inr (.inl ⟨hi, hgone⟩)
    | lapsed hi hdeadline hle he => exact .inr (.inr (.inl ⟨_, _, _, hi, hdeadline, hle, he⟩))
    | acknowledged hi he hstage hreports =>
      exact .inr (.inr (.inr ⟨_, _, _, _, hi, he, hstage, hreports,
        (hlaunches p hp w hw).launchedBy hstage⟩))

/-! ### Two loud steps

A waveform of two steps is asked for on a motor that reports the end of a command when its time has
passed. The timer of the first step goes off and its end is heard, so that the second step is in
flight; and the timer of that goes off. -/

/-- A scheduler for a motor with notes. -/
def onNotes : Context Noted := { onBench with device := Noted.device }

/-- A waveform of two loud steps. -/
def beats : VibrationRequest :=
  { uid := 1, package := "keyboard", token := 2,
    effect := .waveform { timingsMs := [20, 30], amplitudes := [100, 200], repeatFrom := none } }

/-- Both steps run, and the timers of both go off. -/
def beating : List Incident :=
  [.called ⟨.permissive, 0, .vibrate (.ofRequest 1 beats)⟩ rfl, .moved (.wake 0),
    .heard .permissive 20, .moved (.wake 0)]

/-- The two beats make a proper course. -/
theorem proper_beating : Incident.Proper (beating ++ [.heard .permissive 50]) where
  new v hv := ⟨beats, by rw [List.mem_singleton.1 hv]; rfl⟩
  fresh := by decide

/-- The report that ends the second step is about the second command, with which the step was
launched. -/
theorem acknowledgements_match_steps_beats :
    onNotes.device = Noted.device ∧ Incident.Proper (beating ++ [.heard .permissive 50]) ∧
    let s := noted onNotes {} beating
    let t := noted onNotes {} (beating ++ [.heard .permissive 50])
    (s.notes.bench.motor.startCommands = [.on 20 1, .on 30 1] ∧ s.notes.reports = [(1, 2)] ∧
      t.retired.map (·.status) = [.finished]) ∧
    ∃ p ∈ s.current, LaunchedBy onNotes {} beating p 2 := by
  refine ⟨rfl, proper_beating, by decide, ?_⟩
  obtain ⟨-, -, -, hsteps⟩ := acknowledgements_match_steps (c := onNotes) rfl {} beating
    (.heard .permissive 50) proper_beating
  obtain ⟨p, hp⟩ := Option.isSome_iff_exists.1
    (show (noted onNotes {} beating).current.isSome = true by decide)
  have hw : (noted onNotes {} beating).current.map (·.vibration.effect) = some beats.effect := by
    decide
  rw [hp] at hw
  have hgone : (noted onNotes {} (beating ++ [.heard .permissive 50])).current = none := by decide
  have hevent : (noted onNotes {} beating).notes.bench.motor.events.head? = some (.complete 1) := by
    decide
  have hreports : (noted onNotes {} beating).notes.reports = [(1, 2)] := by decide
  rcases hsteps p hp _ (Option.some.inj hw) with
    ⟨hkept, -⟩ | ⟨hdied, -⟩ | ⟨_, _, _, hi, -⟩ | ⟨_, _, number, _, -, -, -, hreport, hlaunched⟩
  · cases hgone.symm.trans hkept
  · cases hevent.symm.trans hdied
  · cases hi
  · have hnumber : number = 2 :=
      (congrArg Prod.snd (List.cons.inj (hreports.symm.trans hreport)).1).symm
    exact ⟨p, hp, hnumber ▸ hlaunched⟩

end Scheduler

end Haptics
