import Haptics.Proofs.Scheduler.Talk
import Mathlib.Logic.Relation

/-!
# What a scheduler does, one thing at a time

However a scheduler handles an input, it does so by *changes* of a few kinds: it talks to the
actuator, a vibration enters, waits, is promoted, takes a turn, is told to stop or is gone, a
session is put in place, takes the motor or is gone (`Change`). What holds of every change holds of
everything that a scheduler does.

Each kind says when it can happen. Three rules are kept this way:

* a start order is given only for the vibration that holds the motor, which runs, and only while
  there is no session; the motor is handed over only while no vibration holds it (`Permits`);
* a vibration takes the motor only when it is free and there is no session;
* a vibration that has been told to stop gives up the motor only with leave: `leave p` says of a
  playback `p` whether what is being handled allows it to go. A vibration that is told to stop is
  waited for (`Change.halted`), unless it has leave even before.

A request that has not found its place yet is part of the picture (`Moment`), so that no change
loses a vibration or makes one up.
-/

namespace Haptics

/-- Whether an order leaves the motor to whoever has it: it starts nothing and hands nothing
over. -/
def Order.Quiet (o : Order) : Prop := o.owner? = none ∧ o ≠ .externalControl true

/-- No step of a waveform is a stream. -/
theorem Waveform.stage_seek {w : Waveform} {tries cursor cursor' : Nat} {step : Step}
    (h : w.seek tries cursor = some (step, cursor')) : step.stage ≠ .stream := by
  induction tries generalizing cursor with
  | zero => cases h
  | succ tries ih =>
    unfold seek at h
    split at h
    · cases h
    · split at h
      · split at h
        · exact ih h
        · cases h
          unfold entryStep
          split <;> simp [Step.stage]
      · cases h

namespace Playback

/-- Nothing has been done with the vibration yet, except to keep packets for it. -/
structure Untouched (p : Playback) : Prop where
  pending : p.vibration.status = .pending
  eq : p = { vibration := p.vibration, packets := p.packets }

/-- The vibration is on its way through its steps. -/
structure Runs (p : Playback) : Prop where
  running : p.vibration.status = .running
  stopping : p.stopping = false

/-- The stream of the vibration has been cancelled and told to stop. -/
structure Stops (p : Playback) : Prop where
  cancelled : p.vibration.status.isCancelled = true
  stopping : p.stopping = true
  inFlight : p.hasStreamInFlight = true

/-- The stream of the vibration is in flight and has no duration, so that only the actuator knows
when it comes to its end. -/
structure Endless (p : Playback) : Prop where
  inFlight : p.hasStreamInFlight = true
  stream : ∃ stream, p.vibration.effect = .stream stream ∧ stream.hintMs = none

/-- A vibration that nothing has been done with has not been told to stop. -/
theorem Untouched.stopping {p : Playback} (h : p.Untouched) : p.stopping = false := by
  rw [h.eq]

/-- A vibration that has been told to stop does not run. -/
theorem Stops.not_runs {p : Playback} (h : p.Stops) : ¬ p.Runs := by
  intro hr
  have hs := h.stopping
  rw [hr.stopping] at hs
  cases hs

/-- A request that has just been let in. -/
theorem untouched_of_pending {v : Vibration} (h : v.status = .pending) :
    ({ vibration := v } : Playback).Untouched := ⟨h, rfl⟩

/-- A vibration that nothing has been done with runs when it begins. -/
theorem Untouched.runs_begin {p : Playback} (h : p.Untouched) : p.begin.Runs := by
  have hv : p.vibration.hasEnded = false := by
    simp [Vibration.hasEnded, h.pending, Status.isTerminal]
  refine ⟨?_, h.stopping⟩
  simp [begin, Vibration.start, hv]

/-- To launch a step changes nothing about whether a vibration runs. -/
theorem Runs.launch {p : Playback} (h : p.Runs) (step : Step) (cursor now : Nat)
    (span : Option Nat) : (p.launch step cursor now span).Runs := ⟨h.running, h.stopping⟩

/-- Only a stream plays as a stream, and it is one step. -/
theorem effect_of_nextStep {p : Playback} {step : Step} {cursor : Nat}
    (hn : p.nextStep = some (step, cursor)) (hs : step.stage = .stream) :
    ∃ s, step = .stream s ∧ p.vibration.effect = .stream s ∧ p.cursor = 0 ∧ cursor = 1 := by
  unfold nextStep at hn
  split at hn
  · exact absurd hs (Waveform.stage_seek hn)
  · next effect _ =>
    split at hn
    · cases hn
    · next hcursor =>
      obtain ⟨step', hsingle, heq⟩ := Option.map_eq_some_iff.1 hn
      cases heq
      cases he : p.vibration.effect with
      | stream s =>
        rw [he] at hsingle
        cases hsingle
        exact ⟨s, rfl, rfl, Nat.eq_zero_of_not_pos hcursor, rfl⟩
      | _ =>
        rw [he] at hsingle
        cases hsingle
        try cases hs

/-- Of the steps only a stream can be without a duration. -/
theorem endless_launch {p : Playback} {step : Step} {cursor : Nat}
    (hn : p.nextStep = some (step, cursor)) {now reported fallback : Nat}
    (hs : step.span reported fallback = none) :
    (p.launch step cursor now (step.span reported fallback)).Endless := by
  cases step with
  | stream stream =>
    obtain ⟨stream', hstep, heffect, -⟩ := effect_of_nextStep hn rfl
    cases hstep
    exact ⟨rfl, stream, heffect, hs⟩
  | _ => cases hs

/-- A vibration that is cancelled while it runs takes the status. -/
theorem Runs.status_finish {p : Playback} (h : p.Runs) {status : Status}
    (hs : status.isTerminal = true) (now : Nat) :
    (p.finish status now).vibration.status = status := by
  have hv : p.vibration.hasEnded = false := by
    simp [Vibration.hasEnded, h.running, Status.isTerminal]
  simp [finish, Vibration.finish_of_live hv hs]

end Playback

/-- A cancellation is final. -/
theorem Status.isTerminal_of_isCancelled {s : Status} (h : s.isCancelled = true) :
    s.isTerminal = true :=
  (isTerminal_iff s).2 (.inr (.inl h))

namespace Scheduler

variable {σ : Type}

/-- Whether the scheduler may give an order as things stand, and leave it at that. -/
structure Permits (leave : Playback → Prop) (s : Scheduler σ) (o : Order) : Prop where
  starts : ∀ id, o.owner? = some id → s.external = none ∧ ∃ p ∈ s.current, p.Runs ∧ p.id = id
  hands : o = .externalControl true → s.current = none
  stops : o = .stop → ∀ p ∈ s.current, p.stopping = false → leave p

/-- An order that starts nothing, hands nothing over and stops nothing is always permitted. -/
theorem Permits.of_quiet {leave : Playback → Prop} {s : Scheduler σ} {o : Order} (h : o.Quiet)
    (hs : o ≠ .stop) : s.Permits leave o where
  starts id ho := by rw [h.1] at ho; cases ho
  hands ho := absurd ho h.2
  stops ho := absurd ho hs

/-- The motor goes to a vibration. -/
def takenBy (p : Playback) (s : Scheduler σ) : Scheduler σ :=
  { s with current := some p.begin, journal := .began p.id :: s.journal }

/-- Who has just been told to stop still holds the motor, and is waited for. -/
theorem current_halted {s : Scheduler σ} {p : Playback} (hp : s.current = some p) (c : Context σ)
    (line : Line σ) :
    ((s.told line [.stop]).awaitStop c).current =
      some (p.awaitStop (c.now + c.config.cancelGraceMs)) := by
  rw [awaitStop, current_told, hp]
  rfl

/-- What can happen to the vibration that holds the motor while it does. -/
inductive Turn (c : Context σ) : Playback → Playback → Prop where
  /-- Its next step is in flight. -/
  | launched {p : Playback} {step : Step} {cursor : Nat} (reported : Nat) (hp : p.Runs)
      (hn : p.nextStep = some (step, cursor)) :
      Turn c p (p.launch step cursor c.now (step.span reported c.config.prebakedFallbackMs))
  /-- It has ended. -/
  | ended {p : Playback} {status : Status} (h : status.isTerminal = true) :
      Turn c p (p.finish status c.now)
  /-- The deadline of its step has passed. -/
  | lapsed {p : Playback} {deadline : Nat} (hp : p.Runs) (hd : p.deadline = some deadline)
      (h : deadline ≤ c.now) : Turn c p { p with deadline := none }

/-- A scheduler while it handles an input. -/
structure Moment (σ : Type) where
  /-- The request that has not found its place yet. -/
  asking : Option Vibration
  /-- The state. -/
  scheduler : Scheduler σ

/-- One thing that a scheduler does. -/
inductive Change (c : Context σ) (leave : Playback → Prop) : Moment σ → Moment σ → Prop where
  /-- It talks to the actuator. -/
  | talked {x : Option Vibration} {s : Scheduler σ} {line : Line σ} {orders : List Order}
      (ht : Talk c s.line orders line) (hp : ∀ o ∈ orders, s.Permits leave o) :
      Change c leave ⟨x, s⟩ ⟨x, s.told line orders⟩
  /-- It makes a note that concerns neither vibrations nor sessions. Whose packets are let in is
  forgotten only when every vibration that has been told to stop may go. -/
  | noted {x : Option Vibration} {s : Scheduler σ} (admitted : Option SenderId)
      (callState : CallState) (alwaysOn : AlwaysOn)
      (ha : admitted = s.admitted ∨
        admitted = none ∧ ∀ p : Playback, p.stopping = true → leave p) :
      Change c leave ⟨x, s⟩ ⟨x, { s with admitted, callState, alwaysOn }⟩
  /-- The request is turned away. -/
  | refused {v : Vibration} {s : Scheduler σ} {status : Status} (h : status.isTerminal = true) :
      Change c leave ⟨some v, s⟩ ⟨none, s.retire (v.finish status c.now)⟩
  /-- The request is let in and waits for the motor. -/
  | queued {v : Vibration} {s : Scheduler σ} (hn : s.next = none) :
      Change c leave ⟨some v, s⟩ ⟨none, { s.letIn v with next := some { vibration := v } }⟩
  /-- The request is let in and gets the motor at once. -/
  | entered {v : Vibration} {s : Scheduler σ} (hc : s.current = none) (he : s.external = none)
      (hv : v.status = .pending) :
      Change c leave ⟨some v, s⟩ ⟨none, (s.letIn v).takenBy { vibration := v }⟩
  /-- The vibration that waits gets the motor. -/
  | promoted {x : Option Vibration} {s : Scheduler σ} {q : Playback} (hq : s.next = some q)
      (hc : s.current = none) (he : s.external = none) (hu : q.Untouched) :
      Change c leave ⟨x, s⟩ ⟨x, { s with next := none }.takenBy q⟩
  /-- A packet is kept for the vibration that waits. -/
  | stacked {x : Option Vibration} {s : Scheduler σ} {q : Playback} (hq : s.next = some q)
      (packet : Stream) :
      Change c leave ⟨x, s⟩ ⟨x, { s with next := some { q with packets := q.packets ++ [packet] } }⟩
  /-- The vibration that waits ends and is gone. -/
  | dropped {x : Option Vibration} {s : Scheduler σ} {q : Playback} {status : Status}
      (hq : s.next = some q) (h : status.isTerminal = true) :
      Change c leave ⟨x, s⟩ ⟨x, { s with next := none }.retire (q.vibration.finish status c.now)⟩
  /-- The vibration that holds the motor takes a turn. -/
  | turned {x : Option Vibration} {s : Scheduler σ} {p p' : Playback} (hp : s.current = some p)
      (ht : Turn c p p') : Change c leave ⟨x, s⟩ ⟨x, { s with current := some p' }⟩
  /-- The vibration that holds the motor has been cancelled, and its stream is told to stop. -/
  | halted {x : Option Vibration} {s : Scheduler σ} {p : Playback} {line : Line σ}
      (hp : s.current = some p) (hs : p.stopping = false) (hf : p.hasStreamInFlight = true)
      (hc : p.vibration.status.isCancelled = true) (ht : Talk c s.line [.stop] line) :
      Change c leave ⟨x, s⟩
        ⟨x, (s.told line [.stop]).awaitStop c⟩
  /-- The vibration that holds the motor is gone. -/
  | left {x : Option Vibration} {s : Scheduler σ} {p : Playback} (hp : s.current = some p)
      (hl : p.stopping = true → leave p) :
      Change c leave ⟨x, s⟩
        ⟨x, { s with current := none }.retire (p.vibration.finish .finished c.now)⟩
  /-- A session is put in place. -/
  | installed {x : Option Vibration} {s : Scheduler σ} (he : s.external = none)
      (request : ExternalRequest) (scale : ExternalScale) :
      Change c leave ⟨x, s⟩ ⟨x, { s with external := some { request, scale } }⟩
  /-- The session takes the motor. -/
  | seized {x : Option Vibration} {s : Scheduler σ} {e : ExternalSession} (he : s.external = some e)
      (ha : e.active = false) (hc : s.current = none) : Change c leave ⟨x, s⟩ ⟨x, s.seize e⟩
  /-- The session ends and is gone. -/
  | dismissed {x : Option Vibration} {s : Scheduler σ} {e : ExternalSession} {status : Status}
      (he : s.external = some e) (h : status.isTerminal = true) :
      Change c leave ⟨x, s⟩ ⟨x, s.dismiss c status e⟩

/-- A property that lasts while a vibration holds the motor: whoever begins has it, and keeps it
when it takes a turn and when it is told to stop. -/
structure Lasting (c : Context σ) (P : Playback → Prop) : Prop where
  begun : ∀ {q : Playback}, q.Untouched → P q.begin
  turned : ∀ {p p' : Playback}, Turn c p p' → P p → P p'
  halted : ∀ {p : Playback}, p.stopping = false → p.vibration.status.isCancelled = true → P p →
    P (p.awaitStop (c.now + c.config.cancelGraceMs))

/-- **Every change keeps of whoever holds the motor what lasts.** -/
theorem Lasting.change {c : Context σ} {P : Playback → Prop} (hP : Lasting c P)
    {leave : Playback → Prop} {m m' : Moment σ} (hc : Change c leave m m')
    (h : ∀ p ∈ m.scheduler.current, P p) : ∀ p ∈ m'.scheduler.current, P p := by
  cases hc with
  | entered hc he hv =>
    rintro _ ⟨⟩
    exact hP.begun (Playback.untouched_of_pending hv)
  | promoted hq hc he hu =>
    rintro _ ⟨⟩
    exact hP.begun hu
  | turned hp ht =>
    rintro _ ⟨⟩
    exact hP.turned ht (h _ hp)
  | @halted x s p line hp hs hf hc ht =>
    rw [current_halted hp c line]
    rintro _ ⟨⟩
    exact hP.halted hs hc (h p hp)
  | left hp hl =>
    intro p hp'
    cases hp'
  | _ => exact h

/-- Changes lead from one state to another, whoever is asking. -/
def Reaches (c : Context σ) (leave : Playback → Prop) (s t : Scheduler σ) : Prop :=
  ∀ x, Relation.ReflTransGen (Change c leave) ⟨x, s⟩ ⟨x, t⟩

section Reaches

variable {c : Context σ} {leave : Playback → Prop} {s t u : Scheduler σ}

/-- What every change preserves is there at the end if it was there at the start. -/
theorem holds_of_changes {I : Moment σ → Prop} {m m' : Moment σ}
    (hI : ∀ {m m' : Moment σ}, Change c leave m m' → I m → I m')
    (hr : Relation.ReflTransGen (Change c leave) m m') (h : I m) : I m' := by
  induction hr with
  | refl => exact h
  | tail _ hc ih => exact hI hc ih

/-- Where nothing happens no change is needed. -/
theorem Reaches.refl (c : Context σ) (leave : Playback → Prop) (s : Scheduler σ) :
    Reaches c leave s s := fun _ => .refl

/-- Changes come after changes. -/
theorem Reaches.trans (h : Reaches c leave s t) (h' : Reaches c leave t u) :
    Reaches c leave s u := fun x => (h x).trans (h' x)

/-- A single change is enough. -/
theorem reaches_of_change (h : ∀ x, Change c leave ⟨x, s⟩ ⟨x, t⟩) : Reaches c leave s t :=
  fun x => .single (h x)

/-- A talk in which no order is given but those that may be given. -/
theorem reaches_told {line : Line σ} {orders : List Order} (ht : Talk c s.line orders line)
    (hp : ∀ o ∈ orders, s.Permits leave o) : Reaches c leave s (s.told line orders) :=
  reaches_of_change fun _ => .talked ht hp

/-- To hang up is a change. -/
theorem reaches_disconnect (c : Context σ) (leave : Playback → Prop) (s : Scheduler σ) :
    Reaches c leave s s.disconnect :=
  reaches_told (.reset (.silence _)) (by simp)

end Reaches

end Scheduler

end Haptics
