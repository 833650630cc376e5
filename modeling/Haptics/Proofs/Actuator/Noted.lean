import Haptics.Proofs.Actuator.Tally

/-!
# A bench with notes

A bench can be kept together with notes of which commands its reports and its timers are for
(`Noted`). The notes are only kept: to a scheduler, the bench with its notes is the bench
(`Noted.device`), and by itself it does what the bench does (`Noted.move`).

* `Noted.Tallies`: the notes are right, whatever is done to the bench.
* `Noted.Quiet`: what becomes of them while no command is started.
* `Noted.Tallies.clear_of_heard`: a report about the latest command is the only one.
-/

namespace Haptics

/-! ## What the bench does by itself -/

/-- Something that happens to a bench while nobody calls. -/
inductive Bench.Move where
  /-- The timer at a place in the list goes off. -/
  | wake (place : Nat)
  /-- The end of the command in flight is reported by hand. -/
  | complete
  /-- The connection breaks. -/
  | kill
  /-- The motor refuses every order from now on, or not any more. -/
  | setFailing (failing : Bool)
  /-- The script of calls that are to fail is replaced. -/
  | setFaults (faults : List FaultRule)
  /-- The motor can be connected to from now on, or not any more. -/
  | setAvailable (available : Bool)

/-- The bench after a move. -/
def Bench.move (b : Bench) : Move → Bench
  | .wake place => { b with motor := b.motor.wake place }
  | .complete => { b with motor := b.motor.completeInFlight.2 }
  | .kill => { b with motor := b.motor.kill }
  | .setFailing failing => { b with motor := { b.motor with failing } }
  | .setFaults faults => { b with faults }
  | .setAvailable available => { b with available }

/-! ## A bench with notes -/

/-- A bench with notes of which commands its reports and its timers are for. -/
structure Noted where
  /-- The bench. -/
  bench : Bench
  /-- The reports that wait to be heard: the vibration, and the number of the command. -/
  reports : List (Nat × Nat) := []
  /-- The commands of the timers. -/
  timers : List Nat := []

namespace Noted

/-- The number of the latest command. -/
def started (n : Noted) : Nat := n.bench.motor.started

/-- The notes after the bench has changed: what has been reported is about the command of a number,
and a timer that has been set is for the latest command. -/
def became (n : Noted) (b : Bench) (number : Nat) : Noted where
  bench := b
  reports := n.reports ++ (n.bench.motor.news b.motor).map (·, number)
  timers := n.timers ++
    List.replicate (b.motor.timers.length - n.bench.motor.timers.length) b.motor.started

/-- The notes after an event has been heard. -/
def heard (n : Noted) (event : ActuatorEvent) (b : Bench) : Noted :=
  { n with bench := b, reports := n.reports.drop event.vibration?.toList.length }

/-- A bench with notes is to the scheduler what the bench is. -/
def device : Device Noted where
  info n := n.bench.motor.config.info
  connect n := n.bench.connect.map id fun b => { n with bench := b }
  perform now o n := (n.bench.perform now o).map id fun b => n.became b b.motor.started
  hear n := n.bench.hear.map fun (event, b) => (event, n.heard event b)

/-- The bench with its notes after a move. What a timer reports is about the command of the
timer. -/
def move (n : Noted) : Bench.Move → Noted
  | .wake place =>
    { n with timers := n.timers.eraseIdx place }.became (n.bench.move (.wake place))
      (n.timers.getD place 0)
  | m => n.became (n.bench.move m) n.started

/-- The notes and the bench belong together. -/
def Tallies (n : Noted) : Prop := n.bench.motor.Tallied n.reports n.timers

section noted

variable {n n' n'' : Noted} {b : Bench} {number : Nat}

/-- The notes do not get in the way of a move. -/
@[simp] theorem bench_move (n : Noted) (m : Bench.Move) : (n.move m).bench = n.bench.move m := by
  cases m <;> rfl

/-! ## The notes are right -/

/-- What changes nothing of the motor that the notes are about leaves them right. -/
theorem Tallies.of_eq (h : n.Tallies) (hc : b.motor.startCommands = n.bench.motor.startCommands)
    (he : b.motor.events = n.bench.motor.events) (ht : b.motor.timers = n.bench.motor.timers)
    (hi : b.motor.inFlight = n.bench.motor.inFlight)
    (hg : b.motor.generation = n.bench.motor.generation) (number : Nat) :
    (n.became b number).Tallies :=
  (Motor.Tallied.of_eq h hc (congrArg _ he) ht hi hg).of_news he ht number

/-- An order that is carried out leaves the notes right. -/
theorem Tallies.obeyed (h : n.Tallies) (now : Nat) (o : Order) :
    (n.became (n.bench.obeyed now o) (n.bench.obeyed now o).motor.started).Tallies :=
  Motor.Tallied.obey h now o

/-- A call that fails leaves them right. -/
theorem Tallies.called (h : n.Tallies) (o : Order) (number : Nat) :
    (n.became (n.bench.called o) number).Tallies :=
  h.of_eq rfl rfl rfl rfl rfl number

/-- So does somebody who connects. -/
theorem Tallies.attached (h : n.Tallies) : ({ n with bench := n.bench.attached } : Noted).Tallies :=
  Motor.Tallied.of_eq h rfl rfl rfl rfl rfl

/-- To hear is to take the oldest event. -/
theorem exists_of_hear {b b' : Bench} {event : ActuatorEvent} (h : b.hear = some (event, b')) :
    ∃ rest, b.motor.events = event :: rest ∧
      b' = { b with motor := { b.motor with events := rest } } := by
  obtain ⟨⟨event', m⟩, hm, heq⟩ := Option.map_eq_some_iff.1 h
  cases heq
  unfold Motor.hear at hm
  split at hm
  · cases hm
  · next event rest he =>
    cases hm
    exact ⟨rest, he, rfl⟩

/-- A report that has been heard is crossed out. -/
theorem Tallies.heard (h : n.Tallies) {event : ActuatorEvent}
    (hb : n.bench.hear = some (event, b)) : (n.heard event b).Tallies := by
  obtain ⟨rest, he, rfl⟩ := exists_of_hear hb
  have hsent := h.sent
  rw [he] at hsent
  have hsub : n.reports.drop event.vibration?.toList.length <:+ n.reports := List.drop_suffix ..
  constructor
  · change (n.reports.drop _).map Prod.fst = rest.filterMap _
    rw [List.map_drop, hsent]
    cases event <;> rfl
  · exact h.set
  · exact h.flying
  · intro r hr
    exact h.owners r (hsub.subset hr)
  · have hsnd := (hsub.map Prod.snd).sublist
    exact h.once.sublist (hsnd.append_right _)

/-- Where the end of a command is heard, its report is the oldest. -/
theorem Tallies.reports_of_hear (h : n.Tallies) {id : Nat}
    (hb : n.bench.hear = some (.complete id, b)) :
    ∃ number, n.reports = (id, number) :: (n.heard (.complete id) b).reports := by
  obtain ⟨rest, he, rfl⟩ := exists_of_hear hb
  have hsent : n.reports.map Prod.fst = id :: rest.filterMap ActuatorEvent.vibration? := by
    rw [h.sent, he]
    rfl
  obtain ⟨⟨id', number⟩, reports, hr, rfl, -⟩ := List.map_eq_cons_iff.1 hsent
  refine ⟨number, ?_⟩
  change n.reports = (id', number) :: n.reports.drop 1
  rw [hr]
  rfl

/-- Where nothing waits to be heard, no report does. -/
theorem Tallies.reports_of_silence (h : n.Tallies) (he : n.bench.motor.events = []) :
    n.reports = [] := by
  have hsent := h.sent
  rw [he] at hsent
  exact List.map_eq_nil_iff.1 hsent

/-- **A move is noted.** -/
theorem Tallies.move (h : n.Tallies) (m : Bench.Move) : (n.move m).Tallies := by
  cases m with
  | wake place =>
    obtain ⟨htallied, hle⟩ := Motor.Tallied.wake h (Motor.waking_wake _ place)
    have hzero : (n.bench.motor.wake place).timers.length - n.bench.motor.timers.length = 0 :=
      Nat.sub_eq_zero_of_le hle
    change (n.bench.motor.wake place).Tallied
      (n.reports ++
        (n.bench.motor.news (n.bench.motor.wake place)).map (·, n.timers.getD place 0))
      (n.timers.eraseIdx place ++ List.replicate
        ((n.bench.motor.wake place).timers.length - n.bench.motor.timers.length) _)
    rw [hzero]
    simpa using htallied
  | complete =>
    have hf := Motor.finished_finish n.bench.motor n.bench.motor.generation
    have hn : n.started = (n.bench.move .complete).motor.started :=
      (congrArg List.length hf.startCommands).symm
    change (n.became (n.bench.move .complete) n.started).Tallies
    rw [hn]
    exact Motor.Tallied.of_finished h rfl rfl hf
  | kill => exact Motor.Tallied.kill h _
  | setFailing failing =>
    exact h.of_eq (b := n.bench.move (.setFailing failing)) rfl rfl rfl rfl rfl _
  | setFaults faults => exact h.of_eq (b := n.bench.move (.setFaults faults)) rfl rfl rfl rfl rfl _
  | setAvailable available =>
    exact h.of_eq (b := n.bench.move (.setAvailable available)) rfl rfl rfl rfl rfl _

/-! ## While no command is started -/

/-- What becomes of the notes while no command is started: what is new about a vibration is about
the latest command, and that was in flight for it. -/
structure Quiet (n n' : Noted) : Prop where
  startCommands : n'.bench.motor.startCommands = n.bench.motor.startCommands
  inFlight : ∀ id ∈ n'.bench.motor.inFlight, id ∈ n.bench.motor.inFlight
  reports : ∀ r ∈ n'.reports, r ∈ n.reports ∨ r.1 ∈ n.bench.motor.inFlight ∧ r.2 = n.started

/-- No command has been started. -/
theorem Quiet.started (h : Quiet n n') : n'.started = n.started :=
  congrArg List.length h.startCommands

/-- Where nothing happens no command is started. -/
theorem Quiet.refl (n : Noted) : Quiet n n := ⟨rfl, fun _ hi => hi, fun _ hr => .inl hr⟩

/-- Where no command is started twice in turn, none is started. -/
theorem Quiet.trans (h : Quiet n n') (h' : Quiet n' n'') : Quiet n n'' where
  startCommands := h'.startCommands.trans h.startCommands
  inFlight id hi := h.inFlight id (h'.inFlight id hi)
  reports r hr := by
    rcases h'.reports r hr with hr | ⟨hi, hn⟩
    · exact h.reports r hr
    · exact .inr ⟨h.inFlight _ hi, hn.trans h.started⟩

/-- A motor that fades starts no command, if what it reports is about the latest one. -/
theorem quiet_became (h : n.bench.motor.Fades b.motor)
    (hn : ∀ id ∈ n.bench.motor.news b.motor, number = n.started) : Quiet n (n.became b number) where
  startCommands := h.startCommands
  inFlight := h.inFlight
  reports r hr := by
    rcases List.mem_append.1 hr with hr | hr
    · exact .inl hr
    · obtain ⟨id, hid, rfl⟩ := List.mem_map.1 hr
      obtain ⟨events, he, hflying⟩ := h.events
      have hid' := hid
      rw [Motor.news_of_events he] at hid'
      exact .inr ⟨hflying id hid', hn id hid⟩

/-- An order that starts nothing starts no command. -/
theorem quiet_obeyed (n : Noted) (now : Nat) {o : Order} (ho : o.isStart = false) :
    Quiet n (n.became (n.bench.obeyed now o) (n.bench.obeyed now o).motor.started) := by
  have hf := Motor.fades_obey n.bench.motor now ho
  exact quiet_became hf fun _ _ => congrArg List.length hf.startCommands

/-- A call that fails brings no report. -/
theorem reports_called (n : Noted) (o : Order) (number : Nat) :
    (n.became (n.bench.called o) number).reports = n.reports := by
  have hnone : n.bench.motor.news (n.bench.called o).motor = [] := Motor.news_of_eq rfl
  unfold became
  rw [hnone]
  exact List.append_nil _

/-- A call that fails starts no command. -/
theorem quiet_called (n : Noted) (o : Order) (number : Nat) :
    Quiet n (n.became (n.bench.called o) number) :=
  ⟨rfl, fun _ hi => hi, fun _ hr => .inl (reports_called n o number ▸ hr)⟩

/-- To connect starts no command. -/
theorem quiet_attached (n : Noted) : Quiet n { n with bench := n.bench.attached } :=
  ⟨rfl, fun _ hi => hi, fun _ hr => .inl hr⟩

/-- To hear an event starts no command. -/
theorem quiet_heard {event : ActuatorEvent} (h : n.bench.hear = some (event, b)) :
    Quiet n (n.heard event b) := by
  obtain ⟨rest, he, rfl⟩ := exists_of_hear h
  exact ⟨rfl, fun _ hi => hi, fun _ hr => .inl (List.mem_of_mem_drop hr)⟩

/-- **A move starts no command.** -/
theorem Tallies.quiet_move (h : n.Tallies) (m : Bench.Move) : Quiet n (n.move m) := by
  have hsame {b : Bench} (hb : b.motor.startCommands = n.bench.motor.startCommands)
      (hi : b.motor.inFlight = n.bench.motor.inFlight)
      (he : b.motor.events = n.bench.motor.events) : Quiet n (n.became b n.started) :=
    quiet_became (Motor.fades_of_eq hb (fun _ hid => by rwa [← hi]) he) fun _ _ => rfl
  cases m with
  | wake place =>
    have hw := Motor.waking_wake n.bench.motor place
    have hq := quiet_became (b := n.bench.move (.wake place)) hw.fades (hw.eq_started h)
    exact ⟨hq.startCommands, hq.inFlight, hq.reports⟩
  | complete => exact quiet_became (Motor.finished_finish _ _).fades fun _ _ => rfl
  | kill => exact quiet_became (Motor.fades_kill _) fun _ _ => rfl
  | setFailing failing => exact hsame (b := n.bench.move (.setFailing failing)) rfl rfl rfl
  | setFaults faults => exact hsame (b := n.bench.move (.setFaults faults)) rfl rfl rfl
  | setAvailable available => exact hsame (b := n.bench.move (.setAvailable available)) rfl rfl rfl

/-! ## What waits for a vibration -/

/-- Whatever waits to be heard for the vibration is about the latest command. -/
def Answers (n : Noted) (id : Nat) : Prop := ∀ r ∈ n.reports, r.1 = id → r.2 = n.started

/-- Nothing waits to be heard for the vibration. -/
def Clear (n : Noted) (id : Nat) : Prop := ∀ r ∈ n.reports, r.1 ≠ id

/-- Nothing waits to be heard for the vibration, and nothing is in flight for it. -/
structure Silent (n : Noted) (id : Nat) : Prop where
  clear : n.Clear id
  inFlight : n.bench.motor.inFlight ≠ some id

variable {id : Nat}

/-- While no command is started, what waits for a vibration stays about the latest one. -/
theorem Answers.quiet (h : n.Answers id) (hq : Quiet n n') : n'.Answers id := by
  intro r hr hid
  rw [hq.started]
  rcases hq.reports r hr with hr | ⟨-, hn⟩
  · exact h r hr hid
  · exact hn

/-- While no command is started, nothing comes to wait for a vibration that is silent. -/
theorem Silent.quiet (h : n.Silent id) (hq : Quiet n n') : n'.Silent id where
  clear r hr hid := by
    rcases hq.reports r hr with hr | ⟨hi, -⟩
    · exact h.clear r hr hid
    · rw [hid] at hi
      exact h.inFlight hi
  inFlight hi := h.inFlight (hq.inFlight id hi)

/-- **A report that has been heard was the only one**, if those of its vibration are about the
latest command. -/
theorem Tallies.clear_of_heard (h : n.Tallies) (ha : n.Answers id) {number : Nat}
    {rest : List (Nat × Nat)} (hr : n.reports = (id, number) :: rest) :
    number = n.started ∧ ∀ r ∈ rest, r.1 ≠ id := by
  have hnumber : number = n.started := ha (id, number) (by rw [hr]; exact List.mem_cons_self) rfl
  refine ⟨hnumber, fun r hmem hid => ?_⟩
  have honce := (List.pairwise_append.1 h.once).1
  rw [hr, List.map_cons, List.pairwise_cons] at honce
  have hlt := honce.1 r.2 (List.mem_map_of_mem hmem)
  have hlatest : r.2 = n.started := ha r (by rw [hr]; exact List.mem_cons_of_mem _ hmem) hid
  omega

end noted

end Noted

end Haptics
