import Haptics.Actuator.Clock
import Haptics.Proofs.Actuator.Tally

/-!
# Which command a motor answers

A timer goes off long after the command that has set it, and by then the motor may have started
another command, have been switched off, or have lost its listener. What happens to a motor is
written down here in the order in which it happens (`Motor.Trace`): each start order that is
carried out, each time that what is in flight is cut off, and each report. A report is written down
with the place of the command it is for. That is the command that has set the timer, if a timer has
gone off, and the latest command otherwise.

* `Motor.Trace.Kept`: a report comes right after the command it is for, and only the latest command
  can be in flight.
* `Motor.Trace.Kept.operate`: that is kept by everything that is done to the motor.
* `Motor.answers_latest_once`: no report comes twice or late, whatever happens.
-/

namespace Haptics

namespace Motor

/-! ## Operations -/

/-- Something that is done to a motor, or happens to it. -/
inductive Operation where
  /-- An order is given at a time. -/
  | order (now : Nat) (o : Order)
  /-- Somebody starts to listen. -/
  | attach
  /-- The listener goes. -/
  | detach
  /-- The connection breaks. -/
  | kill
  /-- The timer at a place in the list goes off. -/
  | wake (place : Nat)
  /-- The command in flight is ended by hand. -/
  | complete
  /-- The oldest event is heard. -/
  | hear
  /-- The motor refuses every order from now on, or not any more. -/
  | setFailing (failing : Bool)
  /-- The commands of the past are forgotten. -/
  | clearCommands

/-- The motor after an operation. -/
def operate (m : Motor) : Operation → Motor
  | .order now o => (perform now o m).2
  | .attach => m.attach
  | .detach => m.detach.2
  | .kill => m.kill
  | .wake place => m.wake place
  | .complete => m.completeInFlight.2
  | .hear => (m.hear.map Prod.snd).getD m
  | .setFailing failing => m.setFailing failing
  | .clearCommands => m.clearCommands

/-- A connection that breaks is no report. -/
theorem news_kill (m : Motor) : m.news m.kill = [] := by
  unfold kill detach
  cases m.attached with
  | true => exact news_of_events (show _ = m.events ++ [ActuatorEvent.died] from rfl)
  | false => exact news_of_eq rfl

/-- To hear an event reports nothing. -/
theorem news_hear (m : Motor) : m.news (m.operate .hear) = [] := by
  unfold operate hear
  cases he : m.events with
  | nil => exact news_of_eq rfl
  | cons event rest =>
    have hnone : rest.drop m.events.length = [] :=
      List.drop_eq_nil_of_le (he ▸ Nat.le_succ rest.length)
    exact congrArg (List.filterMap ActuatorEvent.vibration?) hnone

/-- The motor after operations in turn. -/
def operateAll (m : Motor) (ops : List Operation) : Motor := ops.foldl operate m

/-- The vibrations whose ends are reported in turn. -/
def reports : List Operation → Motor → List Nat
  | [], _ => []
  | op :: rest, m => m.news (m.operate op) ++ (m.operate op).reports rest

/-! ## What is written down -/

/-- Something that is written down about commands. -/
inductive Mark where
  /-- A start order for a vibration is carried out. -/
  | started (id : Nat)
  /-- What is in flight is cut off. -/
  | cut
  /-- The end of a command for a vibration is reported; the command was started at a place. -/
  | completed (id start : Nat)
  deriving DecidableEq

/-- The vibration whose end is reported. -/
def Mark.report? : Mark → Option Nat
  | completed id _ => some id
  | _ => none

/-- What an operation means for the commands that are there. An order that is refused means
nothing. -/
def mark? (m : Motor) : Operation → Option Mark
  | .order _ o =>
    match m.refusal? o with
    | some _ => none
    | none => if o = .off then some .cut else o.owner?.map .started
  | .detach | .kill => some .cut
  | _ => none

/-- An operation is no report. -/
theorem report?_of_mark? (m : Motor) {op : Operation} {mark : Mark} (h : mark ∈ m.mark? op) :
    mark.report? = none := by
  cases op with
  | order now o =>
    unfold mark? at h
    simp only at h
    split at h
    · cases h
    · split at h
      · cases h
        rfl
      · obtain ⟨id, -, rfl⟩ := Option.map_eq_some_iff.1 h
        rfl
  | detach => cases h; rfl
  | kill => cases h; rfl
  | _ => cases h

/-- A motor, with what has happened to its commands. -/
structure Trace where
  /-- The motor. -/
  motor : Motor
  /-- What has happened, the oldest first. -/
  marks : List Mark := []
  /-- The place of the latest start. -/
  latest : Nat := 0
  /-- The start that each of the timers is for. -/
  timers : List Nat := []

namespace Trace

/-- What is known when something has happened to the commands. -/
def marked (t : Trace) : Option Mark → Trace
  | none => t
  | some (.started id) => { t with marks := t.marks ++ [.started id], latest := t.marks.length }
  | some mark => { t with marks := t.marks ++ [mark] }

/-- The motor has become another one: a report is about the latest command, and a timer that has
been set is for the latest command. -/
def became (t : Trace) (m : Motor) : Trace :=
  { t with
    motor := m
    marks := t.marks ++ (t.motor.news m).map (.completed · t.latest)
    timers := t.timers ++ List.replicate (m.timers.length - t.motor.timers.length) t.latest }

/-- A timer has gone off: a report is about the command of the timer. -/
def woken (t : Trace) (place : Nat) : Trace :=
  { t with
    motor := t.motor.wake place
    marks := t.marks ++
      (t.motor.news (t.motor.wake place)).map (.completed · (t.timers.getD place 0))
    timers := t.timers.eraseIdx place }

/-- What is known after an operation. -/
def operate (t : Trace) : Operation → Trace
  | .wake place => t.woken place
  | op => (t.marked (t.motor.mark? op)).became (t.motor.operate op)

/-- What is known of a motor after operations in turn. -/
def operateAll (t : Trace) (ops : List Operation) : Trace := ops.foldl operate t

/-- To write something down does nothing to the motor. -/
@[simp] theorem motor_marked (t : Trace) (mark : Option Mark) :
    (t.marked mark).motor = t.motor := by
  unfold marked
  split <;> rfl

/-- What is known of a motor after an operation is known of the motor after it. -/
@[simp] theorem motor_operate (t : Trace) (op : Operation) :
    (t.operate op).motor = t.motor.operate op := by
  cases op <;> rfl

/-- So it is after operations in turn. -/
theorem motor_operateAll (t : Trace) (ops : List Operation) :
    (t.operateAll ops).motor = t.motor.operateAll ops := by
  induction ops generalizing t with
  | nil => rfl
  | cons op rest ih =>
    refine (ih (t.operate op)).trans ?_
    rw [motor_operate]
    rfl

/-- The reports that are written down are those that have been made. -/
theorem reports_operate (t : Trace) (op : Operation) :
    (t.operate op).marks.filterMap Mark.report? =
      t.marks.filterMap Mark.report? ++ t.motor.news (t.motor.operate op) := by
  have hreports (ids : List Nat) (start : Nat) :
      (ids.map (Mark.completed · start)).filterMap Mark.report? = ids := by
    rw [List.filterMap_map]
    exact List.filterMap_some
  have hmarked (mark : Option Mark) (hq : ∀ m ∈ mark, m.report? = none) :
      (t.marked mark).marks.filterMap Mark.report? = t.marks.filterMap Mark.report? := by
    unfold marked
    split
    · rfl
    · exact (List.filterMap_append ..).trans (List.append_nil _)
    · rw [List.filterMap_append, List.filterMap_cons, hq _ rfl]
      exact List.append_nil _
  cases op with
  | wake place => exact (List.filterMap_append ..).trans (congrArg _ (hreports ..))
  | _ =>
    refine (List.filterMap_append ..).trans ?_
    rw [hreports, hmarked _ fun _ => t.motor.report?_of_mark?, motor_marked]

/-- After operations in turn all reports are written down, in the order in which they were made. -/
theorem reports_operateAll (t : Trace) (ops : List Operation) :
    (t.operateAll ops).marks.filterMap Mark.report? =
      t.marks.filterMap Mark.report? ++ t.motor.reports ops := by
  induction ops generalizing t with
  | nil => exact (List.append_nil _).symm
  | cons op rest ih =>
    refine (ih (t.operate op)).trans ?_
    rw [reports_operate, motor_operate, List.append_assoc]
    rfl

/-! ## What is kept -/

/-- Every report comes right after the command it is for. -/
def Answered (marks : List Mark) : Prop :=
  ∀ place id start, marks[place]? = some (.completed id start) →
    place = start + 1 ∧ marks[start]? = some (.started id)

/-- What is written down last leaves the reports in order if it is in order itself. -/
theorem Answered.concat {marks : List Mark} (h : Answered marks) {mark : Mark}
    (hm : ∀ id start, mark = .completed id start →
      marks.length = start + 1 ∧ marks[start]? = some (.started id)) :
    Answered (marks ++ [mark]) := by
  intro place id start hplace
  have hfound : place = start + 1 ∧ marks[start]? = some (.started id) := by
    rcases Nat.lt_trichotomy place marks.length with hlt | rfl | hgt
    · rw [List.getElem?_append_left hlt] at hplace
      exact h place id start hplace
    · rw [List.getElem?_concat_length] at hplace
      exact hm id start (Option.some.inj hplace)
    · rw [List.getElem?_eq_none (by rw [List.length_append]; exact hgt)] at hplace
      cases hplace
  have hlt : start < marks.length := (List.getElem?_eq_some_iff.1 hfound.2).1
  rw [List.getElem?_append_left hlt]
  exact hfound

/-- Only the latest command is in flight, and a report comes right after the command it is for. -/
structure Kept (t : Trace) : Prop where
  answered : Answered t.marks
  /-- The command in flight is what has been written down last, and somebody listens. -/
  flying : ∀ id ∈ t.motor.inFlight, t.marks.length = t.latest + 1 ∧
    t.marks[t.latest]? = some (.started id) ∧ t.motor.attached = true
  /-- A timer of the current generation is for the latest command. -/
  set : List.Forall₂ (fun timer start => timer.generation ≤ t.motor.generation ∧
    (timer.generation = t.motor.generation → start = t.latest)) t.motor.timers t.timers
  /-- Every report is counted. -/
  counted : t.motor.completions = (t.marks.filterMap Mark.report?).length
  /-- The motor moves only for a command in flight. -/
  moving : t.motor.vibrating = true → t.motor.inFlight.isSome = true

variable {t : Trace} {m m' : Motor}

/-- Of a motor that nobody has called nothing is in flight. -/
theorem kept_start (config : MotorConfig) : ({ motor := { config } } : Trace).Kept where
  answered := by simp [Answered]
  flying := by simp
  set := .nil
  counted := rfl
  moving h := by cases h

/-- What a motor becomes is told by its events and its timers. -/
theorem became_of_eq (he : m.events = t.motor.events) (ht : m.timers = t.motor.timers)
    (m' : Motor) : t.became m' = ({ t with motor := m } : Trace).became m' := by
  unfold became news
  rw [he, ht]

/-- Where nothing is reported and no timer is set, only the motor is another one. -/
theorem became_quiet (hn : t.motor.news m = []) (ht : m.timers = t.motor.timers) :
    t.became m = { t with motor := m } := by
  unfold became
  rw [hn, ht, Nat.sub_self]
  simp

/-- What does not concern the command in flight changes nothing. -/
theorem Kept.quiet (h : t.Kept) (hn : t.motor.news m = []) (hi : m.inFlight = t.motor.inFlight)
    (ha : t.motor.attached = true → m.attached = true) (ht : m.timers = t.motor.timers)
    (hg : m.generation = t.motor.generation) (hc : m.completions = t.motor.completions)
    (hv : m.vibrating = true → t.motor.vibrating = true) : (t.became m).Kept := by
  rw [became_quiet hn ht]
  constructor
  · exact h.answered
  · intro id hid
    obtain ⟨hlast, hstart, hattached⟩ := h.flying id (hi ▸ hid)
    exact ⟨hlast, hstart, ha hattached⟩
  · simp only [ht, hg]
    exact h.set
  · exact hc.trans h.counted
  · intro hm
    simp only [hi]
    exact h.moving (hv hm)

/-- What cuts the command in flight off opens a new generation. -/
theorem Kept.cut (h : t.Kept) (hn : t.motor.news m = []) (hi : m.inFlight = none)
    (ht : m.timers = t.motor.timers) (hg : m.generation = t.motor.generation + 1)
    (hc : m.completions = t.motor.completions) (hv : m.vibrating = false) :
    ((t.marked (some .cut)).became m).Kept := by
  rw [became_quiet (t := t.marked (some .cut)) hn ht]
  constructor
  · exact h.answered.concat nofun
  · intro id hid
    simp only [hi] at hid
    cases hid
  · simp only [ht, hg]
    refine h.set.imp fun timer start hset => ?_
    change _ ∧ (_ → start = t.latest)
    omega
  · simp only [hc, h.counted]
    simp [marked, Mark.report?]
  · intro hm
    simp only [hv] at hm
    cases hm

/-- A command that is started is in flight, in a generation of its own. -/
theorem Kept.begun (h : t.Kept) (ha : t.motor.attached = true) (o : Order) (id : Nat) :
    ({ t.marked (some (.started id)) with motor := t.motor.begun o id } : Trace).Kept where
  answered := h.answered.concat nofun
  flying := by
    rintro _ ⟨⟩
    exact ⟨List.length_append, List.getElem?_concat_length, ha⟩
  set := h.set.imp fun timer start hset => by
    change timer.generation ≤ t.motor.generation + 1 ∧
      (timer.generation = t.motor.generation + 1 → _)
    omega
  counted := by
    change t.motor.completions = _
    rw [h.counted]
    simp [marked, Mark.report?]
  moving _ := rfl

/-! ## What the motor reports and what it sets -/

/-- The command in flight has ended: it is the latest, and its end is reported. -/
theorem Kept.finished (h : t.Kept) {generation start : Nat}
    (hf : t.motor.Finished generation m) (hs : t.motor.generation = generation → start = t.latest) :
    ({ t with motor := m, marks := t.marks ++ (t.motor.news m).map (.completed · start) } :
      Trace).Kept := by
  cases hf with
  | idle =>
    rw [news_of_eq rfl, List.map_nil, List.append_nil]
    exact h
  | @ended id hg hi =>
    obtain ⟨hlast, hstart, hattached⟩ := h.flying id hi
    rw [news_of_events rfl, hs hg, hattached]
    change ({ t with motor := _, marks := t.marks ++ [.completed id t.latest] } : Trace).Kept
    constructor
    · refine h.answered.concat fun id' start' heq => ?_
      cases heq
      exact ⟨hlast, hstart⟩
    · simp
    · exact h.set
    · change t.motor.completions + 1 = _
      rw [h.counted, List.filterMap_append, List.length_append]
      rfl
    · exact fun hm => by cases hm

/-- A command that is ended while an order is given is the latest. -/
theorem Kept.became_finished (h : t.Kept) {generation : Nat}
    (hf : t.motor.Finished generation m) : (t.became m).Kept := by
  have hfinished := h.finished hf fun _ => rfl
  unfold became
  rw [hf.timers_eq, Nat.sub_self, List.replicate_zero, List.append_nil]
  exact hfinished

/-- A timer is set for the latest command. -/
theorem Kept.became_timed (h : t.Kept) (due : Nat) : (t.became (t.motor.timed due)).Kept := by
  have hset := List.rel_append h.set (.cons (a := { due, generation := t.motor.generation })
    (b := t.latest) ⟨Nat.le_refl _, fun _ => rfl⟩ .nil)
  have hlen : (t.motor.timed due).timers.length - t.motor.timers.length = 1 := by simp [timed]
  have hnews : t.motor.news (t.motor.timed due) = [] := news_of_eq rfl
  unfold became
  rw [hlen, hnews, List.map_nil, List.append_nil]
  exact ⟨h.answered, h.flying, hset, h.counted, h.moving⟩

/-! ## Orders and timers -/

/-- A start order for a vibration is carried out. -/
theorem Kept.start (h : t.Kept) (ha : t.motor.attached = true) (now : Nat) (o : Order) (id : Nat) :
    ((t.marked (some (.started id))).became (t.motor.start now o id)).Kept := by
  have hb := h.begun ha o id
  rw [became_of_eq (t := t.marked (some (.started id))) (m := t.motor.begun o id) rfl rfl]
  have hs := starting_start t.motor now o id
  generalize t.motor.start now o id = m' at hs
  cases hs with
  | ended => exact hb.became_finished (finished_finish _ _)
  | timed ms => exact hb.became_timed (now + ms)
  | «open» => rwa [became_quiet (news_of_eq rfl) rfl]

/-- **An order that is carried out is followed by no report but its own.** -/
theorem Kept.obey (h : t.Kept) (now : Nat) {o : Order} (ho : t.motor.refusal? o = none) :
    ((t.marked (t.motor.mark? (.order now o))).became (t.motor.obey now o)).Kept := by
  unfold mark?
  simp only [ho]
  cases o with
  | on durationMs id => exact h.start (attached_of_refusal? ho rfl) now _ id
  | prebaked effect id => exact h.start (attached_of_refusal? ho rfl) now _ id
  | envelope params steep id => exact h.start (attached_of_refusal? ho rfl) now _ id
  | stream stream id => exact h.start (attached_of_refusal? ho rfl) now _ id
  | off => exact h.cut (news_of_eq rfl) rfl rfl rfl rfl rfl
  | stop =>
    have hq := h.quiet (m := { t.motor.note .stop with vibrating := false }) (news_of_eq rfl) rfl
      (fun ha => ha) rfl rfl rfl nofun
    rw [became_quiet (m := { t.motor.note .stop with vibrating := false }) (news_of_eq rfl) rfl]
      at hq
    change (t.became (t.motor.obey now .stop)).Kept
    rw [became_of_eq (m := { t.motor.note .stop with vibrating := false }) rfl rfl]
    unfold Motor.obey
    simp only
    split
    · rwa [became_quiet (news_of_eq rfl) rfl]
    · exact hq.became_finished (finished_finish _ _)
    · exact hq.became_finished (finished_finish _ _)
  | _ => exact h.quiet (news_of_eq rfl) rfl (fun ha => ha) rfl rfl rfl fun hv => hv

/-- **A timer that goes off reports the command that has set it**, or nothing. -/
theorem Kept.woken (h : t.Kept) (place : Nat) : (t.woken place).Kept := by
  obtain ⟨herased, hfound⟩ := forall₂_eraseIdx h.set place
  have hw := waking_wake t.motor place
  unfold Trace.woken
  generalize t.motor.wake place = m at hw
  cases hw with
  | nobody hnone =>
    have hlength : t.motor.timers.length ≤ place := List.getElem?_eq_none_iff.1 hnone
    rw [news_of_eq rfl, List.eraseIdx_of_length_le (h.set.length_eq ▸ hlength), List.map_nil,
      List.append_nil]
    exact h
  | @timer timer m' hsome hf =>
    obtain ⟨start, hstart, -, hlatest⟩ := hfound timer hsome
    have hforgot : ({ t with
        motor := t.motor.forget place, timers := t.timers.eraseIdx place } : Trace).Kept :=
      ⟨h.answered, h.flying, herased, h.counted, h.moving⟩
    rw [List.getD_eq_getElem?_getD, hstart]
    exact hforgot.finished hf fun hg => hlatest hg.symm

/-- **Whatever happens to the motor**, a report comes right after the command it is for. -/
theorem Kept.operate (h : t.Kept) (op : Operation) : (t.operate op).Kept := by
  cases op with
  | wake place => exact h.woken place
  | order now o =>
    change ((t.marked (t.motor.mark? (.order now o))).became (perform now o t.motor).2).Kept
    cases hr : t.motor.refusal? o with
    | some e =>
      have hnone : t.motor.mark? (.order now o) = none := by
        unfold mark?
        simp only [hr]
      rw [perform_of_refusal hr, hnone]
      exact (became_quiet (news_of_eq rfl) rfl : t.became t.motor = t) ▸ h
    | none =>
      rw [perform_of_accepted hr]
      exact h.obey now hr
  | detach => exact h.cut (news_of_eq rfl) rfl rfl rfl rfl rfl
  | kill =>
    refine h.cut (news_kill _) ?_ ?_ ?_ ?_ ?_
    all_goals
      unfold Motor.operate Motor.kill Motor.detach
      cases t.motor.attached <;> rfl
  | complete =>
    exact h.became_finished (finished_finish _ _)
  | hear =>
    refine h.quiet (news_hear _) ?_ ?_ ?_ ?_ ?_ ?_
    all_goals
      unfold Motor.operate Motor.hear
      cases t.motor.events <;> first | rfl | exact fun hv => hv
  | attach => exact h.quiet (news_of_eq rfl) rfl (fun _ => rfl) rfl rfl rfl fun hv => hv
  | _ => exact h.quiet (news_of_eq rfl) rfl (fun ha => ha) rfl rfl rfl fun hv => hv

/-- **Operations in turn keep it**, whatever they are. -/
theorem Kept.operateAll (h : t.Kept) (ops : List Operation) : (t.operateAll ops).Kept := by
  induction ops generalizing t with
  | nil => exact h
  | cons op rest ih => exact ih (h.operate op)

/-! ## The latest command -/

/-- What comes right after the command it is for comes before any other start and before what cuts
the command off, and comes once. -/
theorem Answered.once {marks : List Mark} (h : Answered marks) {place id start : Nat}
    (hplace : marks[place]? = some (.completed id start)) :
    start < place ∧ marks[start]? = some (.started id) ∧
      (∀ between, start < between → ¬between < place) ∧
      ∀ other id', marks[other]? = some (.completed id' start) → other = place := by
  obtain ⟨rfl, hstart⟩ := h place id start hplace
  exact ⟨Nat.lt_succ_self _, hstart, fun between hlt hle => by omega,
    fun other id' hother => (h other id' start hother).1⟩

end Trace

/-- What is known of a new motor after operations in turn. -/
def trace (config : MotorConfig) (ops : List Operation) : Trace :=
  ({ motor := { config } } : Trace).operateAll ops

/-- **A motor answers the latest command, and answers it once**, in every mode, whatever is done to
it and in whatever order its timers go off.

* A report is for a start order that was carried out, and for its vibration. Between the two no
  other start order was carried out, and nothing cut the command off: no `off`, and no loss of the
  listener. No other report is for the same order. The timers of earlier commands report nothing, as
  a report is for the command that has set the timer.
* As many reports have been made as the motor counts.
* Whenever the motor moves a command is in flight, and whenever one is in flight somebody
  listens. -/
theorem answers_latest_once (config : MotorConfig) (ops : List Operation) :
    let t := trace config ops
    t.motor = ({ config } : Motor).operateAll ops ∧
    (∀ place id start : Nat, t.marks[place]? = some (.completed id start) →
      start < place ∧ t.marks[start]? = some (.started id) ∧
      (∀ between : Nat, start < between → between < place →
        t.marks[between]? ≠ some .cut ∧ ∀ id' : Nat, t.marks[between]? ≠ some (.started id')) ∧
      ∀ other id' : Nat, t.marks[other]? = some (.completed id' start) → other = place) ∧
    t.marks.filterMap Mark.report? = ({ config } : Motor).reports ops ∧
    t.motor.completions = (({ config } : Motor).reports ops).length ∧
    (t.motor.vibrating = true → t.motor.inFlight.isSome = true) ∧
    (t.motor.inFlight.isSome = true → t.motor.attached = true) := by
  intro t
  have hkept : t.Kept := (Trace.kept_start config).operateAll ops
  have hreports : t.marks.filterMap Mark.report? = ({ config } : Motor).reports ops :=
    Trace.reports_operateAll { motor := { config } } ops
  refine ⟨Trace.motor_operateAll _ ops, fun place id start hplace => ?_, hreports, ?_,
    hkept.moving, fun hflying => ?_⟩
  · obtain ⟨hlt, hstart, hnone, honce⟩ := hkept.answered.once hplace
    exact ⟨hlt, hstart, fun between hafter hbefore => absurd hbefore (hnone between hafter), honce⟩
  · rw [hkept.counted, hreports]
  · obtain ⟨id, hid⟩ := Option.isSome_iff_exists.1 hflying
    exact (hkept.flying id hid).2.2

/-- A motor that is switched on for one vibration and then for another, with its two timers; the
timer of the first goes off, and then that of the second. -/
def replaced : List Operation :=
  [.attach, .order 0 (.on 20 1), .order 5 (.on 30 2), .wake 0, .wake 0]

/-- Only the second vibration is answered, by its own timer. -/
theorem answers_latest_once_replaced :
    let t := trace {} replaced
    t.marks = [.started 1, .started 2, .completed 2 1] ∧
    (1 < 2 ∧ t.marks[1]? = some (.started 2)) ∧
    t.motor.completions = 1 ∧
    (trace {} (replaced.take 3)).motor.attached = true := by
  obtain ⟨-, hanswered, -, hcount, -⟩ := answers_latest_once {} replaced
  obtain ⟨-, -, -, -, hmoving, hflying⟩ := answers_latest_once {} (replaced.take 3)
  have hreport := hanswered 2 2 1 (by decide)
  exact ⟨by decide, ⟨hreport.1, hreport.2.1⟩, hcount, hflying (hmoving (by decide))⟩

end Motor

end Haptics
