import Haptics.Proofs.Actuator.Motor
import Mathlib.Data.List.Forall2

/-!
# How reports and commands belong together

A motor reports the end of a command under the number of the vibration, and all steps of a waveform
have one number. To say which command a report is about, notes can be kept beside the motor: of
every report that waits to be heard, and of every timer, the start command that it is for. Commands
are counted as the motor obeys them, from one.

* `Motor.Tallied`: how notes and motor belong together. A report is about a command for its
  vibration, and no command is reported twice.
* `Motor.Tallied.obey`, `Motor.Tallied.wake` and so on: whatever is done to the motor, the notes
  stay right if a timer is for the command that has set it, what it reports is about that command,
  and anything else that is reported is about the latest.
* `Motor.Fades`: what becomes of a motor that starts no command.
-/

namespace Haptics

/-- The vibration that a report is for. -/
def ActuatorEvent.vibration? : ActuatorEvent → Option Nat
  | complete id => some id
  | died => none

/-- Nothing arrives but what was sent. -/
theorem ActuatorEvent.vibrations_delivered (listening : Bool) (events : List ActuatorEvent) :
    ((delivered listening events).filterMap vibration?).Sublist
      (events.filterMap vibration?) := by
  unfold delivered
  split
  · exact List.Sublist.refl _
  · exact List.nil_sublist _

namespace Motor

/-! ## Start commands -/

/-- The start commands that the motor has obeyed, oldest first. -/
def startCommands (m : Motor) : List Command := m.commands.filter Command.starts

/-- How many start commands the motor has obeyed: the number of the latest. -/
def started (m : Motor) : Nat := m.startCommands.length

/-- The vibration that a start command was for, by the number of the command. -/
def starter? (m : Motor) (number : Nat) : Option Nat :=
  (m.startCommands.take number).getLast?.bind Command.owner?

/-- The latest start command was for whoever the last one in the list is for. -/
theorem starter?_started (m : Motor) :
    m.starter? m.started = m.startCommands.getLast?.bind Command.owner? := by
  unfold starter? started
  rw [List.take_length]

/-- An order that is carried out comes last among the start commands, if it is one. -/
theorem startCommands_obey (m : Motor) (now : Nat) (o : Order) :
    (m.obey now o).startCommands =
      m.startCommands ++ if o.isStart then [o.command] else [] := by
  have hs : o.command.starts = o.isStart := by
    unfold Command.starts Order.isStart
    rw [Order.owner?_command]
  unfold startCommands
  rw [commands_obey, List.filter_append, List.filter_cons, hs]
  rfl

/-- The motor when it has begun to carry out a start order for a vibration. -/
def begun (m : Motor) (o : Order) (id : Nat) : Motor :=
  { m.note o with vibrating := true, inFlight := some id, generation := m.generation + 1 }

/-- The motor when it has set a timer for the latest command. -/
def timed (m : Motor) (due : Nat) : Motor :=
  { m with timers := m.timers ++ [{ due, generation := m.generation }] }

/-- What a start order leaves behind: its command has ended at once, or has a timer, or neither. -/
inductive Starting (m : Motor) (now : Nat) (o : Order) (id : Nat) : Motor → Prop where
  | ended : Starting m now o id ((m.begun o id).finish (m.begun o id).generation).2
  | timed (ms : Nat) : Starting m now o id ((m.begun o id).timed (now + ms))
  | open : Starting m now o id (m.begun o id)

/-- A start order leaves one of the three behind. -/
theorem starting_start (m : Motor) (now : Nat) (o : Order) (id : Nat) :
    m.Starting now o id (m.start now o id) := by
  unfold start
  simp only
  split
  · exact .ended
  · split
    · exact .timed _
    · exact .open
  · exact .open

/-! ## Reports -/

/-- What the motor has reported between two states. -/
def news (m m' : Motor) : List Nat :=
  (m'.events.drop m.events.length).filterMap ActuatorEvent.vibration?

/-- What has been added to the events has been reported. -/
theorem news_of_events {m m' : Motor} {events : List ActuatorEvent}
    (h : m'.events = m.events ++ events) :
    m.news m' = events.filterMap ActuatorEvent.vibration? := by
  unfold news
  rw [h, List.drop_left]

/-- Where no event has come nothing has been reported. -/
theorem news_of_eq {m m' : Motor} (h : m'.events = m.events) : m.news m' = [] :=
  news_of_events (h.trans (List.append_nil _).symm)

/-- What comes of an attempt to end the command in flight. -/
inductive Finished (m : Motor) (generation : Nat) : Motor → Prop where
  | idle : Finished m generation m
  | ended {id : Nat} (hg : m.generation = generation) (hi : m.inFlight = some id) :
      Finished m generation
        { m with
          inFlight := none
          vibrating := false
          completions := m.completions + 1
          events := m.events ++ ActuatorEvent.delivered m.attached [.complete id] }

/-- An attempt to end the command in flight comes to one of the two. -/
theorem finished_finish (m : Motor) (generation : Nat) :
    m.Finished generation (m.finish generation).2 := by
  unfold finish
  split
  · exact .idle
  · next hg =>
    split
    · exact .idle
    · next id hi =>
      have he : (if m.attached then m.events ++ [.complete id] else m.events) =
          m.events ++ ActuatorEvent.delivered m.attached [.complete id] := by
        unfold ActuatorEvent.delivered
        split <;> simp
      simp only [he]
      exact .ended (Decidable.not_not.1 hg) hi

/-! ## Notes -/

/-- How notes and motor belong together: `reports` are the reports that wait to be heard, each as
the number of the vibration and that of the command, and `timers` are the commands of the timers. -/
structure Tallied (m : Motor) (reports : List (Nat × Nat)) (timers : List Nat) : Prop where
  /-- The reports are those that the motor has sent. -/
  sent : reports.map Prod.fst = m.events.filterMap ActuatorEvent.vibration?
  /-- A timer of the current generation is for the latest command. -/
  set : List.Forall₂ (fun timer number => timer.generation ≤ m.generation ∧
    (timer.generation = m.generation → number = m.started)) m.timers timers
  /-- The command in flight is the latest. -/
  flying : ∀ id ∈ m.inFlight, m.starter? m.started = some id
  /-- A report is about a command that has been obeyed, and for the vibration of that. -/
  owners : ∀ r ∈ reports, r.2 ≤ m.started ∧ m.starter? r.2 = some r.1
  /-- No command is reported twice, and what is in flight has not been reported. -/
  once : (reports.map Prod.snd ++ (m.inFlight.map fun _ => m.started).toList).Pairwise (· < ·)

section tallied

variable {m m' : Motor} {reports : List (Nat × Nat)} {timers : List Nat}

/-- A motor on which nobody has called is in order without notes. -/
theorem tallied_create (config : MotorConfig) : ({ config } : Motor).Tallied [] [] where
  sent := rfl
  set := .nil
  flying := by simp
  owners := by simp
  once := by simp

/-- What does not concern commands, reports and timers does not concern the notes. -/
theorem Tallied.of_eq (h : m.Tallied reports timers) (hc : m'.startCommands = m.startCommands)
    (he : m'.events.filterMap ActuatorEvent.vibration? =
      m.events.filterMap ActuatorEvent.vibration?)
    (ht : m'.timers = m.timers) (hi : m'.inFlight = m.inFlight)
    (hg : m'.generation = m.generation) : m'.Tallied reports timers := by
  have hn : m'.started = m.started := congrArg List.length hc
  have hs (number : Nat) : m'.starter? number = m.starter? number := by
    unfold starter?
    rw [hc]
  constructor
  · rw [he]; exact h.sent
  · rw [ht, hg, hn]; exact h.set
  · rw [hi, hn, hs]; exact h.flying
  · intro r hr
    rw [hn, hs]
    exact h.owners r hr
  · rw [hi, hn]; exact h.once

/-- What cuts the command in flight off opens a new generation. -/
theorem Tallied.cut (h : m.Tallied reports timers) (hc : m'.startCommands = m.startCommands)
    (he : m'.events.filterMap ActuatorEvent.vibration? =
      m.events.filterMap ActuatorEvent.vibration?)
    (ht : m'.timers = m.timers) (hi : m'.inFlight = none)
    (hg : m'.generation = m.generation + 1) : m'.Tallied reports timers := by
  have hn : m'.started = m.started := congrArg List.length hc
  constructor
  · rw [he]; exact h.sent
  · rw [ht]
    refine h.set.imp fun timer number hle => ?_
    omega
  · simp [hi]
  · intro r hr
    unfold starter?
    rw [hn, hc]
    exact h.owners r hr
  · rw [hi]
    simpa using (List.pairwise_append.1 h.once).1

/-- The command in flight has ended, and is reported. -/
theorem Tallied.finished (h : m.Tallied reports timers) {generation number : Nat}
    (hf : m.Finished generation m') (hn : m.generation = generation → number = m.started) :
    m'.Tallied (reports ++ (m.news m').map (·, number)) timers := by
  cases hf with
  | idle =>
    rw [news_of_eq rfl]
    simpa using h
  | @ended id hg hi =>
    rw [news_of_events rfl, hn hg]
    have hnew : ((ActuatorEvent.delivered m.attached [.complete id]).filterMap
        ActuatorEvent.vibration?).Sublist [id] := ActuatorEvent.vibrations_delivered ..
    constructor
    · rw [List.map_append, h.sent, List.map_map, List.filterMap_append]
      exact congrArg _ (List.map_id _)
    · exact h.set
    · simp
    · intro r hr
      rcases List.mem_append.1 hr with hr | hr
      · exact h.owners r hr
      · obtain ⟨id', hid, rfl⟩ := List.mem_map.1 hr
        obtain rfl := List.mem_singleton.1 (hnew.subset hid)
        exact ⟨Nat.le_refl _, h.flying _ hi⟩
    · have honce := h.once
      rw [hi] at honce
      refine honce.sublist ?_
      change List.Sublist (_ ++ []) _
      rw [List.map_append, List.map_map, List.append_nil]
      exact (List.Sublist.refl _).append (hnew.map fun _ => m.started)

/-- A command has been started, and is in flight in a generation of its own. -/
theorem Tallied.of_begun (h : m.Tallied reports timers) {o : Order} {id : Nat}
    (ho : o.owner? = some id) :
    (m.begun o id).Tallied reports timers := by
  have hs : o.command.starts = true := by
    unfold Command.starts
    rw [Order.owner?_command, ho]
    rfl
  have hc : (m.commands ++ [o.command]).filter Command.starts = m.startCommands ++ [o.command] := by
    rw [List.filter_append, List.filter_cons, hs]
    rfl
  have hlen : (m.startCommands ++ [o.command]).length = m.started + 1 := List.length_append
  constructor
  · exact h.sent
  · refine h.set.imp fun timer number hle => ?_
    change timer.generation ≤ m.generation + 1 ∧ (timer.generation = m.generation + 1 → _)
    omega
  · rintro _ ⟨⟩
    rw [starter?_started]
    unfold startCommands begun note
    rw [hc]
    simp [ho]
  · intro r hr
    obtain ⟨hle, howner⟩ := h.owners r hr
    unfold starter? started startCommands begun note
    rw [hc, hlen, List.take_append_of_le_length hle]
    exact ⟨Nat.le_succ_of_le hle, howner⟩
  · unfold started startCommands begun note
    rw [hc, hlen]
    refine List.pairwise_append.2 ⟨(List.pairwise_append.1 h.once).1, by simp, ?_⟩
    intro number hnumber latest hlatest
    obtain ⟨r, hr, rfl⟩ := List.mem_map.1 hnumber
    rw [show latest = m.started + 1 by simpa using hlatest]
    exact Nat.lt_succ_of_le (h.owners r hr).1

/-- Where nothing has been reported and no timer been set, there is nothing to note. -/
theorem Tallied.of_news (h : m'.Tallied reports timers) (he : m'.events = m.events)
    (ht : m'.timers = m.timers) (number : Nat) :
    m'.Tallied (reports ++ (m.news m').map (·, number))
      (timers ++ List.replicate (m'.timers.length - m.timers.length) m'.started) := by
  rw [news_of_eq he, ht]
  simpa using h

/-- The end of a command is no start command. -/
theorem Finished.startCommands {generation : Nat} (h : m.Finished generation m') :
    m'.startCommands = m.startCommands := by
  cases h <;> rfl

/-- The end of a command leaves the timers set. -/
theorem Finished.timers_eq {generation : Nat} (h : m.Finished generation m') :
    m'.timers = m.timers := by
  cases h <;> rfl

/-- A command that has ended while it was given is noted. -/
theorem Tallied.of_finished {m₁ : Motor} (h : m₁.Tallied reports timers)
    (he : m₁.events = m.events) (ht : m₁.timers = m.timers) {generation : Nat}
    (hf : m₁.Finished generation m') :
    m'.Tallied (reports ++ (m.news m').map (·, m'.started))
      (timers ++ List.replicate (m'.timers.length - m.timers.length) m'.started) := by
  have hn : m'.started = m₁.started := congrArg List.length hf.startCommands
  have hnews : m.news m' = m₁.news m' := by
    unfold news
    rw [he]
  rw [hf.timers_eq.trans ht, hn, hnews]
  simpa using h.finished hf fun _ => rfl

/-- A timer that is set is noted. -/
theorem Tallied.of_timed (h : m.Tallied reports timers) (due : Nat) :
    (m.timed due).Tallied (reports ++ (m.news (m.timed due)).map (·, m.started))
      (timers ++ List.replicate ((m.timed due).timers.length - m.timers.length) m.started) := by
  have hset := List.rel_append h.set (.cons (a := { due, generation := m.generation })
    (b := m.started) ⟨Nat.le_refl _, fun _ => rfl⟩ .nil)
  have hlen : (m.timed due).timers.length - m.timers.length = 1 := by simp [timed]
  have hnews : m.news (m.timed due) = [] := news_of_eq rfl
  rw [hlen, hnews, List.map_nil, List.append_nil]
  exact ⟨h.sent, hset, h.flying, h.owners, h.once⟩

/-- A command that has been started is noted, with its timer and its report. -/
theorem Tallied.start (h : m.Tallied reports timers) {o : Order} {id : Nat}
    (ho : o.owner? = some id) (now : Nat) :
    (m.start now o id).Tallied
      (reports ++ (m.news (m.start now o id)).map (·, (m.start now o id).started))
      (timers ++ List.replicate ((m.start now o id).timers.length - m.timers.length)
        (m.start now o id).started) := by
  have hb := h.of_begun ho
  have hs := starting_start m now o id
  generalize m.start now o id = m' at hs
  cases hs with
  | ended => exact hb.of_finished rfl rfl (finished_finish _ _)
  | timed ms => exact hb.of_timed (now + ms)
  | «open» => exact hb.of_news rfl rfl _

/-- **An order that is carried out is noted.** -/
theorem Tallied.obey (h : m.Tallied reports timers) (now : Nat) (o : Order) :
    (m.obey now o).Tallied
      (reports ++ (m.news (m.obey now o)).map (·, (m.obey now o).started))
      (timers ++ List.replicate ((m.obey now o).timers.length - m.timers.length)
        (m.obey now o).started) := by
  have hc := m.startCommands_obey now o
  cases o with
  | on durationMs id => exact h.start rfl now
  | prebaked effect id => exact h.start rfl now
  | envelope params steep id => exact h.start rfl now
  | stream stream id => exact h.start rfl now
  | off => exact (h.cut (hc.trans (List.append_nil _)) rfl rfl rfl rfl).of_news rfl rfl _
  | stop =>
    have hq : ({ m.note .stop with vibrating := false } : Motor).Tallied reports timers := by
      refine h.of_eq ?_ rfl rfl rfl rfl
      exact (List.filter_append ..).trans (List.append_nil _)
    unfold Motor.obey
    simp only
    split
    · exact hq.of_news rfl rfl _
    · exact hq.of_finished rfl rfl (finished_finish _ _)
    · exact hq.of_finished rfl rfl (finished_finish _ _)
  | _ => exact (h.of_eq (hc.trans (List.append_nil _)) rfl rfl rfl rfl).of_news rfl rfl _

/-- A place that is erased in two lists that belong together is erased in both. -/
theorem forall₂_eraseIdx {α β : Type} {R : α → β → Prop} {first : List α} {second : List β}
    (h : List.Forall₂ R first second) (place : Nat) :
    List.Forall₂ R (first.eraseIdx place) (second.eraseIdx place) ∧
      ∀ a, first[place]? = some a → ∃ b, second[place]? = some b ∧ R a b := by
  induction h generalizing place with
  | nil => simp
  | @cons a b first second hab hrest ih =>
    cases place with
    | zero =>
      refine ⟨hrest, ?_⟩
      rintro _ ⟨⟩
      exact ⟨b, rfl, hab⟩
    | succ place =>
      obtain ⟨herased, hfound⟩ := ih place
      exact ⟨.cons hab herased, hfound⟩

/-- The motor when the timer at a place has gone off. -/
def forget (m : Motor) (place : Nat) : Motor := { m with timers := m.timers.eraseIdx place }

/-- What comes of a timer that goes off. -/
inductive Waking (m : Motor) (place : Nat) : Motor → Prop where
  | nobody (h : m.timers[place]? = none) : Waking m place m
  | timer {timer : MotorTimer} {m' : Motor} (h : m.timers[place]? = some timer)
      (hf : (m.forget place).Finished timer.generation m') : Waking m place m'

/-- A timer that goes off comes to one of the two. -/
theorem waking_wake (m : Motor) (place : Nat) : m.Waking place (m.wake place) := by
  unfold wake
  split
  · next h => exact .nobody h
  · next timer h => exact .timer h (finished_finish (m.forget place) timer.generation)

/-- A timer that goes off is crossed out, and what it reports is about its command. -/
theorem Tallied.wake (h : m.Tallied reports timers) {place : Nat} (hw : m.Waking place m') :
    m'.Tallied (reports ++ (m.news m').map (·, timers.getD place 0)) (timers.eraseIdx place) ∧
      m'.timers.length ≤ m.timers.length := by
  obtain ⟨herased, hfound⟩ := forall₂_eraseIdx h.set place
  cases hw with
  | nobody hnone =>
    have hlength : m.timers.length ≤ place := List.getElem?_eq_none_iff.1 hnone
    have hkept : timers.eraseIdx place = timers :=
      List.eraseIdx_of_length_le (h.set.length_eq ▸ hlength)
    rw [news_of_eq rfl, hkept]
    exact ⟨by simpa using h, Nat.le_refl _⟩
  | @timer timer m' hsome hf =>
    obtain ⟨number, hnumber, -, hlatest⟩ := hfound timer hsome
    have hforgot : (m.forget place).Tallied reports (timers.eraseIdx place) :=
      ⟨h.sent, herased, h.flying, h.owners, h.once⟩
    have hfinished := hforgot.finished hf fun hg => hlatest hg.symm
    rw [List.getD_eq_getElem?_getD, hnumber, hf.timers_eq]
    exact ⟨hfinished, List.length_eraseIdx_le ..⟩

/-- What breaks the connection cuts the command in flight off. -/
theorem Tallied.kill (h : m.Tallied reports timers) (number : Nat) :
    m.kill.Tallied (reports ++ (m.news m.kill).map (·, number))
      (timers ++ List.replicate (m.kill.timers.length - m.timers.length) m.kill.started) := by
  have hevents : m.kill.events = m.events ++ ActuatorEvent.delivered m.attached [.died] := by
    unfold Motor.kill detach ActuatorEvent.delivered
    cases m.attached <;> simp
  have hnone : (ActuatorEvent.delivered m.attached [.died]).filterMap
      ActuatorEvent.vibration? = [] :=
    List.sublist_nil.1 (ActuatorEvent.vibrations_delivered m.attached [.died])
  have htimers : m.kill.timers = m.timers := by
    unfold Motor.kill detach
    cases m.attached <;> rfl
  rw [news_of_events hevents, hnone, htimers]
  have hcut : m.kill.Tallied reports timers := by
    refine h.cut ?_ (by rw [hevents, List.filterMap_append, hnone, List.append_nil]) htimers ?_ ?_
    all_goals
      unfold Motor.kill detach
      cases m.attached <;> rfl
  simpa using hcut

/-! ## Latest and other commands -/

/-- If the latest start command is the only one for a vibration, all reports for that are about
it. -/
theorem Tallied.eq_started_of_latest (h : m.Tallied reports timers) {earlier : List Command}
    {command : Command} (hc : m.startCommands = earlier ++ [command]) {id : Nat}
    (he : ∀ c ∈ earlier, c.owner? ≠ some id) : ∀ r ∈ reports, r.1 = id → r.2 = m.started := by
  intro r hr hid
  obtain ⟨hle, howner⟩ := h.owners r hr
  have hlen : m.started = earlier.length + 1 := (congrArg List.length hc).trans List.length_append
  by_contra hne
  have hshort : r.2 ≤ earlier.length := by omega
  unfold starter? at howner
  rw [hc, List.take_append_of_le_length hshort, hid] at howner
  obtain ⟨c, hlast, hc⟩ := Option.bind_eq_some_iff.1 howner
  exact he c (List.mem_of_mem_take (List.mem_of_getLast? hlast)) hc

/-- Nothing is in flight for a vibration that no command has been started for, and nothing has been
reported. -/
theorem Tallied.ne_of_never (h : m.Tallied reports timers) {id : Nat}
    (hc : ∀ c ∈ m.startCommands, c.owner? ≠ some id) :
    (∀ r ∈ reports, r.1 ≠ id) ∧ m.inFlight ≠ some id := by
  have hnever (number : Nat) : m.starter? number ≠ some id := by
    intro hs
    obtain ⟨c, hlast, howner⟩ := Option.bind_eq_some_iff.1 hs
    exact hc c (List.mem_of_mem_take (List.mem_of_getLast? hlast)) howner
  constructor
  · intro r hr hid
    exact hnever r.2 ((h.owners r hr).2.trans (congrArg some hid))
  · intro hi
    exact hnever m.started (h.flying id hi)

end tallied

/-! ## Motors that start no command -/

/-- What becomes of a motor that starts no command: the command in flight may end and be
reported. -/
structure Fades (m m' : Motor) : Prop where
  startCommands : m'.startCommands = m.startCommands
  inFlight : ∀ id ∈ m'.inFlight, id ∈ m.inFlight
  events : ∃ events, m'.events = m.events ++ events ∧
    ∀ id ∈ events.filterMap ActuatorEvent.vibration?, id ∈ m.inFlight

section fades

variable {m m' : Motor}

/-- A motor fades that reports nothing and has nothing new in flight. -/
theorem fades_of_eq (hc : m'.startCommands = m.startCommands)
    (hi : ∀ id ∈ m'.inFlight, id ∈ m.inFlight) (he : m'.events = m.events) : Fades m m' :=
  ⟨hc, hi, [], he.trans (List.append_nil _).symm, by simp⟩

/-- A motor fades when its command ends. -/
theorem Finished.fades {generation : Nat} (h : m.Finished generation m') : Fades m m' := by
  cases h with
  | idle => exact fades_of_eq rfl (fun _ hi => hi) rfl
  | @ended id hg hi =>
    refine ⟨rfl, by simp, _, rfl, fun id' hid => ?_⟩
    have hsent := (ActuatorEvent.vibrations_delivered m.attached [.complete id]).subset hid
    rw [List.mem_singleton.1 hsent]
    exact hi

/-- A motor fades when it carries out an order that starts nothing. -/
theorem fades_obey (m : Motor) (now : Nat) {o : Order} (ho : o.isStart = false) :
    Fades m (m.obey now o) := by
  have hc : (m.obey now o).startCommands = m.startCommands := by
    rw [startCommands_obey, ho]
    exact List.append_nil _
  cases o with
  | on durationMs id => cases ho
  | prebaked effect id => cases ho
  | envelope params steep id => cases ho
  | stream stream id => cases ho
  | off => exact fades_of_eq hc (by simp [obey]) rfl
  | stop =>
    revert hc
    unfold obey
    simp only
    split
    · exact fun hc => fades_of_eq hc (fun _ hi => hi) rfl
    all_goals
      intro hc
      have hf := (finished_finish ({ m.note .stop with vibrating := false } : Motor)
        m.generation).fades
      exact ⟨hc, hf.inFlight, hf.events⟩
  | _ => exact fades_of_eq hc (fun _ hi => hi) rfl

/-- Of the orders that start nothing only `stop` can bring a report. -/
theorem events_obey (m : Motor) (now : Nat) {o : Order} (ho : o.isStart = false)
    (hs : o ≠ .stop) : (m.obey now o).events = m.events := by
  cases o with
  | on durationMs id => cases ho
  | prebaked effect id => cases ho
  | envelope params steep id => cases ho
  | stream stream id => cases ho
  | stop => exact absurd rfl hs
  | _ => rfl

/-- A motor fades when its connection breaks. -/
theorem fades_kill (m : Motor) : Fades m m.kill := by
  unfold kill detach
  cases m.attached with
  | true => exact ⟨rfl, by simp, [.died], rfl, by simp [ActuatorEvent.vibration?]⟩
  | false => exact fades_of_eq rfl (by simp) rfl

/-- A motor fades when a timer goes off. -/
theorem Waking.fades {place : Nat} (h : m.Waking place m') : Fades m m' := by
  cases h with
  | nobody h => exact fades_of_eq rfl (fun _ hi => hi) rfl
  | timer h hf =>
    have hforgot := hf.fades
    exact ⟨hforgot.startCommands, hforgot.inFlight, hforgot.events⟩

/-- What a timer reports is about the latest command. -/
theorem Waking.eq_started {place : Nat} (h : m.Waking place m') {reports : List (Nat × Nat)}
    {timers : List Nat} (ht : m.Tallied reports timers) :
    ∀ id ∈ m.news m', timers.getD place 0 = m.started := by
  intro id hid
  cases h with
  | nobody h =>
    rw [news_of_eq rfl] at hid
    cases hid
  | @timer timer m' h hf =>
    obtain ⟨number, hnumber, -, hlatest⟩ := (forall₂_eraseIdx ht.set place).2 timer h
    rw [List.getD_eq_getElem?_getD, hnumber]
    cases hf with
    | idle =>
      have hnone : m.news (m.forget place) = [] := news_of_eq rfl
      rw [hnone] at hid
      cases hid
    | ended hg hi => exact hlatest hg.symm

end fades

end Motor

end Haptics
