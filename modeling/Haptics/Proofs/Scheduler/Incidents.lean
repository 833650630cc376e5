import Haptics.Proofs.Scheduler.Launch
import Haptics.Proofs.Scheduler.Natural
import Haptics.Proofs.Scheduler.Notes

/-!
# What happens on the bench, step by step

Clients call, the actuator moves by itself, its events are heard one after another, and the deadline
comes when no event waits to be heard. Each of these is an *incident*, and they may follow one
another as they like. What a scheduler makes of them is the same with notes and without.

* `onTimer_eq_endureAll`: a deadline that waits for the events to be heard is a row of incidents.
* `through_endureAll`: notes change nothing.
* `orderly_noted`: what holds after incidents from the start.
-/

namespace Haptics

variable {σ τ : Type}

/-- Something that happens to a scheduler with a bench, in one step. -/
inductive Incident where
  /-- A client asks for something. -/
  | called (happening : Happening) (client : happening.input.isClient = true)
  /-- The oldest event that waits is heard and handled, if there is one. -/
  | heard (policy : Policy) (now : Nat)
  /-- The deadline is handled, if no event waits to be heard. -/
  | expired (policy : Policy) (now : Nat)
  /-- Everything is stopped. -/
  | stopped (now : Nat)
  /-- The bench moves by itself. -/
  | moved (move : Bench.Move)

/-- What is asked for does not depend on the actuator. -/
theorem Occurrence.asks_handled (h : Happening) :
    (.handled h : Occurrence σ).asks = (.handled h : Occurrence τ).asks := by
  obtain ⟨policy, now, input⟩ := h
  cases input <;> rfl

namespace Incident

/-- The vibration that is asked for. -/
def asks : Incident → Option Vibration
  | called happening _ => (.handled happening : Occurrence Bench).asks
  | _ => none

/-- Every vibration is asked for as a new one, and under a number of its own. -/
structure Proper (is : List Incident) : Prop where
  new : ∀ v ∈ is.filterMap asks, v.IsNew
  fresh : ((is.filterMap asks).map (·.id)).Nodup

/-- What comes first among proper incidents is proper. -/
theorem Proper.of_append {first second : List Incident} (h : Proper (first ++ second)) :
    Proper first := by
  obtain ⟨hn, hf⟩ := h
  rw [List.filterMap_append] at hn hf
  rw [List.map_append] at hf
  exact ⟨fun v hv => hn v (List.mem_append_left _ hv), (List.nodup_append.1 hf).1⟩

end Incident

namespace Scheduler

open Occurrence

/-- The state after an incident, where the actuator moves by itself like this. -/
def endure (c : Context σ) (move : σ → Bench.Move → σ) (i : Incident) (s : Scheduler σ) :
    Scheduler σ :=
  match i with
  | .called happening _ => s.step (c.during happening) happening.input
  | .heard policy now =>
    match s.hear c with
    | none => s
    | some (event, s) => s.handleEvent { c with policy, now } event
  | .expired policy now =>
    match s.hear c with
    | none => s.handleDeadline { c with policy, now }
    | some _ => s
  | .stopped now => s.stopAll { c with now }
  | .moved m => { s with line := { s.line with actuator := move s.line.actuator m } }

/-- The state after incidents in turn. -/
def endureAll (c : Context σ) (move : σ → Bench.Move → σ) (is : List Incident) (s : Scheduler σ) :
    Scheduler σ :=
  is.foldl (fun s i => s.endure c move i) s

section incidents

variable (c : Context σ) (move : σ → Bench.Move → σ) (s : Scheduler σ)

/-- Incidents happen one by one. -/
theorem endureAll_cons (i : Incident) (rest : List Incident) :
    s.endureAll c move (i :: rest) = (s.endure c move i).endureAll c move rest := rfl

/-- Incidents in two parts happen one part after the other. -/
theorem endureAll_append (first second : List Incident) :
    s.endureAll c move (first ++ second) =
      (s.endureAll c move first).endureAll c move second :=
  List.foldl_append

/-- The last incident happens behind the others. -/
theorem endureAll_concat (is : List Incident) (i : Incident) :
    s.endureAll c move (is ++ [i]) = (s.endureAll c move is).endure c move i :=
  endureAll_append c move s is [i]

end incidents

section hear

variable {c : Context σ} {move : σ → Bench.Move → σ} {s t : Scheduler σ} {event : ActuatorEvent}

/-- Where nothing is heard nothing happens. -/
theorem endure_heard_of_none (h : s.hear c = none) (policy : Policy) (now : Nat) :
    s.endure c move (.heard policy now) = s := by
  simp only [endure, h]

/-- An event that is heard is handled. -/
theorem endure_heard_of_some (h : s.hear c = some (event, t)) (policy : Policy) (now : Nat) :
    s.endure c move (.heard policy now) = t.handleEvent { c with policy, now } event := by
  simp only [endure, h]

/-- A deadline is handled where nothing is heard. -/
theorem endure_expired_of_none (h : s.hear c = none) (policy : Policy) (now : Nat) :
    s.endure c move (.expired policy now) = s.handleDeadline { c with policy, now } := by
  simp only [endure, h]

/-- Where something is heard the deadline has to wait. -/
theorem endure_expired_of_some (h : s.hear c = some (event, t)) (policy : Policy) (now : Nat) :
    s.endure c move (.expired policy now) = s := by
  simp only [endure, h]

/-- To hear is a move of the actuator. -/
theorem exists_of_hear (h : s.hear c = some (event, t)) :
    ∃ a, c.device.hear s.line.actuator = some (event, a) ∧ t = s.undergo c (.moved a) := by
  obtain ⟨⟨event', a⟩, ha, heq⟩ := Option.map_eq_some_iff.1 h
  cases heq
  exact ⟨a, ha, rfl⟩

end hear

/-! ## Timers -/

/-- To hear the events that wait is a row of incidents. -/
theorem drain_eq_endureAll (c : Context σ) (move : σ → Bench.Move → σ) (policy : Policy)
    (now limit : Nat) {s t : Scheduler σ} (h : s.drain { c with policy, now } limit = some t) :
    t.hear c = none ∧ ∃ n, t = s.endureAll c move (List.replicate n (.heard policy now)) := by
  induction limit generalizing s with
  | zero =>
    unfold drain at h
    split at h
    · next hn =>
      cases h
      exact ⟨hn, 0, rfl⟩
    · cases h
  | succ limit ih =>
    unfold drain at h
    split at h
    · next hn =>
      cases h
      exact ⟨hn, 0, rfl⟩
    · next event s' he =>
      obtain ⟨hn, n, rfl⟩ := ih h
      have hs : s.hear c = some (event, s') := he
      refine ⟨hn, n + 1, ?_⟩
      rw [List.replicate_succ, endureAll_cons, endure_heard_of_some hs]

/-- **A deadline that waits for the events to be heard is a row of incidents**: all events are
heard, and then the deadline is handled. -/
theorem onTimer_eq_endureAll (c : Context σ) (move : σ → Bench.Move → σ) (policy : Policy)
    (now limit : Nat) {s t : Scheduler σ} (h : s.onTimer { c with policy, now } limit = some t) :
    ∃ n, t = s.endureAll c move
      (List.replicate n (.heard policy now) ++ [.expired policy now]) := by
  obtain ⟨s', hd, rfl⟩ := Option.map_eq_some_iff.1 h
  obtain ⟨hn, n, rfl⟩ := drain_eq_endureAll c move policy now limit hd
  refine ⟨n, ?_⟩
  rw [endureAll_concat, endure_expired_of_none hn]

/-! ## Notes -/

section through

variable {c : Context τ} {f : τ → σ} {e : Device σ} {move : τ → Bench.Move → τ}
  {move' : σ → Bench.Move → σ}

/-- What is behind the actuator changes nothing about an incident. -/
theorem through_endure (h : c.device.Shows f e) (hm : ∀ a m, f (move a m) = move' (f a) m)
    (i : Incident) (s : Scheduler τ) :
    (s.through f).endure (c.onto e) move' i = (s.endure c move i).through f := by
  cases i with
  | called happening client =>
    exact through_step (c := c.during happening) h happening.input s
  | heard policy now =>
    unfold endure
    simp only
    rw [through_hear h]
    cases s.hear c with
    | none => rfl
    | some heard =>
      exact through_handleEvent (c := { c with policy, now }) h heard.1 heard.2
  | expired policy now =>
    unfold endure
    simp only
    rw [through_hear h]
    cases s.hear c with
    | none => exact through_handleDeadline (c := { c with policy, now }) h s
    | some heard => rfl
  | stopped now => exact through_stopAll (c := { c with now }) h s
  | moved m =>
    unfold endure
    simp only [through, Line.through, hm]

/-- **What is behind the actuator changes nothing**, whatever happens. -/
theorem through_endureAll (h : c.device.Shows f e) (hm : ∀ a m, f (move a m) = move' (f a) m)
    (is : List Incident) (s : Scheduler τ) :
    (s.through f).endureAll (c.onto e) move' is = (s.endureAll c move is).through f := by
  induction is generalizing s with
  | nil => rfl
  | cons i rest ih => rw [endureAll_cons, endureAll_cons, through_endure h hm, ih]

end through

/-! ## After incidents from the start -/

end Scheduler

/-- What a bench with notes does by itself: the motor obeys no order, and the notes stay right. -/
structure Noted.Drifts (n n' : Noted) : Prop where
  commands : n'.bench.motor.commands = n.bench.motor.commands
  tallies : n.Tallies → n'.Tallies

/-- A move is a drift. -/
theorem Noted.drifts_move (n : Noted) (m : Bench.Move) : n.Drifts (n.move m) where
  commands := by
    rw [bench_move]
    cases m with
    | wake place => exact (Bench.drifts_wake n.bench place).commands
    | complete => exact (Bench.drifts_completeInFlight n.bench).commands
    | kill => exact (Bench.drifts_kill n.bench).commands
    | _ => rfl
  tallies h := h.move m

/-- To hear through the notes is to hear the bench, and to cross the report out. -/
theorem Noted.hear_eq (n : Noted) :
    device.hear n = n.bench.hear.map fun (event, b) => (event, n.heard event b) := rfl

/-- To hear is a drift. -/
theorem Noted.drifts_hear {n n' : Noted} {event : ActuatorEvent}
    (h : device.hear n = some (event, n')) : n.Drifts n' := by
  rw [hear_eq] at h
  obtain ⟨⟨event', b⟩, hb, heq⟩ := Option.map_eq_some_iff.1 h
  cases heq
  exact ⟨(Bench.drifts_hear hb).commands, fun ht => ht.heard hb⟩

namespace Scheduler

open Occurrence

/-- The bench and the notes. -/
def notes (s : Scheduler Noted) : Noted := s.line.actuator

/-- How a scheduler, its bench and the notes belong together. -/
structure Orderly (s : Scheduler Noted) : Prop where
  settled : s.Settled
  driven : Driven ⟨none, s⟩
  genuine : ∀ p ∈ s.current, p.Genuine
  tells : s.Tells (·.bench.motor.commands)
  tallies : s.notes.Tallies

/-- The state after incidents from the start, with notes. -/
def noted (c : Context Noted) (config : MotorConfig) (is : List Incident) : Scheduler Noted :=
  (create c.config { bench := { motor := { config } } }).endureAll c Noted.move is

/-- The last incident comes behind the others. -/
theorem noted_concat (c : Context Noted) (config : MotorConfig) (is : List Incident)
    (i : Incident) : noted c config (is ++ [i]) = (noted c config is).endure c Noted.move i :=
  endureAll_concat c Noted.move _ is i

section noted

variable {c : Context Noted} (hd : c.device = Noted.device)

include hd

/-- One more incident is one more piece of a course. -/
theorem exists_course_concat (n : Noted) {os : List (Occurrence Noted)}
    (hn : Natural Noted.Drifts c (create c.config n) os) (i : Incident) :
    ∃ os', (after c n os).endure c Noted.move i = after c n os' ∧
      asked os' = asked os ++ i.asks.toList ∧
      Natural Noted.Drifts c (create c.config n) os' := by
  have hasks (o : Occurrence Noted) (ho : o.asks = i.asks) :
      asked (os ++ [o]) = asked os ++ i.asks.toList := by
    rw [asked_concat, ho]
  cases i with
  | called happening client =>
    refine ⟨os ++ [.handled happening], ?_, hasks _ (asks_handled happening),
      hn.handled happening⟩
    rw [after_concat]
    rfl
  | heard policy now =>
    cases hh : (after c n os).hear c with
    | none =>
      exact ⟨os, endure_heard_of_none hh policy now, (List.append_nil _).symm, hn⟩
    | some heard =>
      obtain ⟨event, s⟩ := heard
      obtain ⟨n', hn', rfl⟩ := exists_of_hear hh
      -- the actuator gives the event away, and then the scheduler handles it
      have hmoved := hn.concat (o := .moved n') fun _ he => by
        cases he
        exact Noted.drifts_hear (hd ▸ hn')
      refine ⟨os ++ [.moved n'] ++ [.handled ⟨policy, now, .event event⟩], ?_, ?_,
        hmoved.handled _⟩
      · rw [endure_heard_of_some hh, after_concat, after_concat]
        rfl
      · rw [asked_concat, hasks (.moved n') rfl]
        exact List.append_nil _
  | expired policy now =>
    cases hh : (after c n os).hear c with
    | none =>
      refine ⟨os ++ [.handled ⟨policy, now, .deadline⟩], ?_, hasks _ rfl, hn.handled _⟩
      rw [endure_expired_of_none hh, after_concat]
      rfl
    | some heard =>
      exact ⟨os, endure_expired_of_some hh policy now, (List.append_nil _).symm, hn⟩
  | stopped now =>
    refine ⟨os ++ [.stopped now], ?_, hasks _ rfl, hn.concat fun _ he => by cases he⟩
    rw [after_concat]
    rfl
  | moved m =>
    refine ⟨os ++ [.moved ((after c n os).line.actuator.move m)], ?_, hasks _ rfl, hn.concat ?_⟩
    · rw [after_concat]
      rfl
    · rintro _ ⟨⟩
      exact Noted.drifts_move _ m

/-- Incidents are a course. -/
theorem exists_course (n : Noted) (is : List Incident) :
    ∃ os, (create c.config n).endureAll c Noted.move is = after c n os ∧
      asked os = is.filterMap Incident.asks ∧
      Natural Noted.Drifts c (create c.config n) os := by
  induction is using List.reverseRecOn with
  | nil => exact ⟨[], rfl, rfl, Natural.nil _ _ _⟩
  | append_singleton is i ih =>
    obtain ⟨os, hs, ha, hn⟩ := ih
    obtain ⟨os', hs', ha', hn'⟩ := exists_course_concat hd n hn i
    refine ⟨os', ?_, ?_, hn'⟩
    · rw [endureAll_concat, hs, hs']
    · rw [ha', ha, List.filterMap_append]
      cases hi : i.asks <;> simp [hi]

/-- **After incidents from the start** everything is in order. -/
theorem orderly_noted (config : MotorConfig) {is : List Incident} (h : Incident.Proper is) :
    (noted c config is).Orderly := by
  obtain ⟨os, hs, ha, hn⟩ := exists_course hd { bench := { motor := { config } } } is
  have hp : Occurrence.Proper os := ⟨ha ▸ h.new, ha ▸ h.fresh⟩
  rw [noted, hs]
  constructor
  · exact settled_after c _ hp.new
  · exact driven_after c _ hp
  · exact genuine_after c _ hp.new
  · exact tells_after (hd ▸ logs_noted) rfl hp.new fun before moved rest he =>
      (hn before moved rest he).commands
  · refine natural_preserves (J := fun l => l.actuator.Tallies) (fun hm ht => hm.tallies ht)
      (fun hdevice ht h => ht.tallies (hdevice.trans hd) h) (settled_create ..) hp.new hn ?_
    exact Motor.tallied_create config

/-- Whoever is asked for is new to the scheduler. -/
theorem new_noted (config : MotorConfig) {is : List Incident} {i : Incident}
    (h : Incident.Proper (is ++ [i])) :
    ∀ v ∈ i.asks, v.IsNew ∧ v.id ∉ (noted c config is).vibrations.map (·.id) := by
  obtain ⟨os, hs, ha, -⟩ := exists_course hd { bench := { motor := { config } } } is
  obtain ⟨hnew, hfresh⟩ := h
  intro v hv
  have hlast : v ∈ [i].filterMap Incident.asks := List.mem_filterMap.2 ⟨i, by simp, hv⟩
  rw [List.filterMap_append, ← ha] at hnew hfresh
  rw [List.map_append, List.nodup_append] at hfresh
  refine ⟨hnew v (List.mem_append_right _ hlast), fun hid => ?_⟩
  have hrenews := renews_after c { bench := { motor := { config } } } fun v hv =>
    hnew v (List.mem_append_left _ hv)
  rw [noted, hs, ← hrenews.perm_ids.mem_iff] at hid
  exact hfresh.2.2 v.id hid v.id (List.mem_map_of_mem hlast) rfl

end noted

end Scheduler

end Haptics
