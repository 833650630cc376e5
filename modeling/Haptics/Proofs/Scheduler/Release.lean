import Haptics.Proofs.Scheduler.Deadlines
import Haptics.Proofs.Scheduler.Packets

/-!
# Giving up the motor while there is no session

Where there is no session, to give up the motor is to go, and whoever waits takes it. What becomes
of a vibration that takes the motor, and that nobody waits behind, is decided at once: its first
step is in flight, or was refused by the actuator, or there is no step at all. In the last two cases
it has ended and is gone, and nobody holds the motor.

* `Settled.cases`: who can be there between two inputs.
* `release_of_alone`, `release_of_waiting`: who is there when the motor is given up.
* `begun_occupy`: what becomes of a vibration that takes it.
* `dropCurrent_ended`, `stops_halted`: what a cancellation leaves of the vibration that holds it.
-/

namespace Haptics

/-- The vibration when it has ended with a status at a time. -/
def Vibration.endedAs (v : Vibration) (status : Status) (now : Nat) : Vibration :=
  { v with status, endedMs := some now }

/-- The vibration when it has begun to be played. -/
def Vibration.running (v : Vibration) : Vibration := { v with status := .running }

namespace Playback

variable {p q : Playback} {status : Status}

/-- A vibration that runs takes the status with which it ends. -/
theorem Runs.finish_eq (h : p.Runs) (hs : status.isTerminal = true) (now : Nat) :
    p.vibration.finish status now = p.vibration.endedAs status now :=
  Vibration.finish_of_live h.hasEnded hs now

/-- So does one that nothing has been done with. -/
theorem Untouched.finish_eq (h : q.Untouched) (hs : status.isTerminal = true) (now : Nat) :
    q.vibration.finish status now = q.vibration.endedAs status now :=
  Vibration.finish_of_live (Vibration.hasEnded_of_pending h.pending) hs now

/-- A vibration that begins runs, and is the same otherwise. -/
theorem Untouched.vibration_begin (h : q.Untouched) : q.begin.vibration = q.vibration.running := by
  simp [begin, Vibration.start, Vibration.hasEnded_of_pending h.pending, Vibration.running]

/-- To begin changes nothing about the steps. -/
theorem nextStep_begin (q : Playback) : q.begin.nextStep = q.nextStep := by
  have he : q.begin.vibration.effect = q.vibration.effect := by
    unfold begin Vibration.start
    split <;> rfl
  unfold nextStep
  rw [he]
  rfl

end Playback

namespace Scheduler

variable {σ : Type} {c : Context σ} {s t u : Scheduler σ} {p q : Playback}

/-! ## Who is there, and who has ended -/

/-- Whoever is retired is the latest. -/
@[simp] theorem retired_retire (v : Vibration) (s : Scheduler σ) :
    (s.retire v).retired = v :: s.retired := rfl

/-- A vibration has ended as such: it is gone, or holds the motor until its stream has come to its
end. -/
def Ended (s : Scheduler σ) (v : Vibration) : Prop :=
  v ∈ s.retired ∨ ∃ p ∈ s.current, p.Stops ∧ p.vibration = v

/-- **Who can be there between two inputs**: nobody, one vibration that runs, or one that has been
told to stop, with others waiting perhaps. -/
theorem Settled.cases (h : s.Settled) :
    (s.current = none ∧ s.next = none) ∨ (∃ p, s.Plays p) ∨
      ∃ p, s.current = some p ∧ p.Stops ∧ ∀ q ∈ s.next, q.Untouched := by
  cases hp : s.current with
  | none =>
    refine .inl ⟨rfl, Option.eq_none_iff_forall_not_mem.2 fun q hq => ?_⟩
    obtain ⟨-, p, hp', -⟩ := h.waiting q hq
    cases hp.symm.trans hp'
  | some p =>
    rcases h.holder p hp with hr | hst
    · exact .inr (.inl ⟨p, h.plays hp hr.stopping⟩)
    · exact .inr (.inr ⟨p, rfl, hst, fun q hq => (h.waiting q hq).1⟩)

/-- The same vibrations are in the same places. -/
structure Stays (s t : Scheduler σ) : Prop where
  current : t.current = s.current
  next : t.next = s.next
  retired : t.retired = s.retired

/-- Where nothing happens everybody stays. -/
theorem Stays.refl (s : Scheduler σ) : Stays s s := ⟨rfl, rfl, rfl⟩

/-- Who stays twice in turn stays. -/
theorem Stays.trans (h : Stays s t) (h' : Stays t u) : Stays s u :=
  ⟨h'.current.trans h.current, h'.next.trans h.next, h'.retired.trans h.retired⟩

/-- In a talk everybody stays. -/
theorem stays_told (line : Line σ) (orders : List Order) (s : Scheduler σ) :
    Stays s (s.told line orders) :=
  ⟨rfl, rfl, retired_told line orders s⟩

/-- A vibration that ends with a status while it runs is gone with it. -/
theorem dropCurrent_ended {status : Status} (hp : s.current = some p) (hr : p.Runs)
    (hs : status.isTerminal = true) :
    (s.finishCurrent c status).dropCurrent c =
      ({ s with current := none } : Scheduler σ).retire (p.vibration.endedAs status c.now) := by
  have hended : (p.vibration.endedAs status c.now).hasEnded = true := hs
  rw [finishCurrent_of_some c hp]
  simp only [dropCurrent, Playback.finish, hr.finish_eq hs, Vibration.finish_of_ended hended]

/-- A vibration that waits and ends with a status is gone with it. -/
theorem dropNext_ended {status : Status} (hq : s.next = some q) (hu : q.Untouched)
    (hs : status.isTerminal = true) :
    s.dropNext c status =
      ({ s with next := none } : Scheduler σ).retire (q.vibration.endedAs status c.now) := by
  simp only [dropNext, hq, hu.finish_eq hs]

/-! ## Who is there when the motor is given up -/

/-- Whoever takes the motor leaves those who wait for it alone. -/
theorem begin_frame (c : Context σ) (q : Playback) (s : Scheduler σ) :
    (s.begin c q).2.next = s.next ∧ (s.begin c q).2.external = s.external :=
  (started_startStep (s := s.takenBy q) rfl).frame

section alone

variable (he : s.external = none)

include he

/-- Where there is no session whoever holds the motor only goes. -/
theorem vacate_of_no_session (c : Context σ) : s.vacate c = s.dropCurrent c := by
  unfold vacate activateExternal
  rw [external_dropCurrent, he, current_dropCurrent]

/-- Where nobody waits, whoever holds the motor goes, and that is all. -/
theorem release_of_alone (hn : s.next = none) (c : Context σ) :
    s.release c = s.dropCurrent c := by
  unfold release
  rw [vacate_of_no_session he]
  simp only [next_dropCurrent, external_dropCurrent, hn, he]

/-- Whoever waits takes the motor. -/
theorem release_of_waiting (hq : s.next = some q) (c : Context σ) :
    s.release c = ({ s.dropCurrent c with next := none } : Scheduler σ).occupy c q := by
  have hq' : (s.dropCurrent c).next = some q := (next_dropCurrent c s).trans hq
  have he' : (s.dropCurrent c).external = none := (external_dropCurrent c s).trans he
  have hframe := begin_frame c q { s.dropCurrent c with next := none }
  unfold release
  rw [vacate_of_no_session he]
  simp only
  split
  · next q' _ hq'' =>
    cases hq'.symm.trans hq''
    rw [occupy]
    rcases hb : begin c q { s.dropCurrent c with next := none } with ⟨ended, t⟩
    rw [hb] at hframe
    cases ended with
    | false => rfl
    | true =>
      have het : t.external = none := hframe.2.trans he'
      exact (vacate_of_no_session het c).trans (release_of_alone het hframe.1 c).symm
  · next hne => exact absurd hq' (hne q he')

end alone

/-- A vibration that nobody waits behind is gone when it has ended with a status. -/
theorem Plays.release_ended (h : s.Plays p) {status : Status} (hs : status.isTerminal = true) :
    (s.finishCurrent c status).release c =
      ({ s with current := none } : Scheduler σ).retire (p.vibration.endedAs status c.now) :=
  (release_of_alone (s := s.finishCurrent c status) h.external h.next c).trans
    (dropCurrent_ended h.current h.runs hs)

/-- A vibration that is cancelled while it runs, and gives up the motor, is gone, and whoever waits
takes the motor. -/
theorem release_cancelled {status : Status} {line : Line σ} {orders : List Order}
    (hp : s.current = some p) (hr : p.Runs) (hq : s.next = some q) (he : s.external = none)
    (hs : status.isTerminal = true) :
    ((s.finishCurrent c status).told line orders).release c =
      ({ (s.told line orders).retire (p.vibration.endedAs status c.now) with
        current := none, next := none } : Scheduler σ).occupy c q := by
  have hdrop := dropCurrent_ended (c := c) (s := s.told line orders) hp hr hs
  have hrelease := release_of_waiting (s := (s.finishCurrent c status).told line orders) he hq c
  change _ = occupy c q
    ({ ((s.told line orders).finishCurrent c status).dropCurrent c with next := none }) at hrelease
  rw [hrelease, hdrop]
  rfl

/-! ## The next step -/

/-- Where nobody holds the motor no step is started. -/
theorem startStep_of_none (hp : s.current = none) : s.startStep c = (false, s) := by
  unfold startStep
  rw [hp]

section startStep

variable {step : Step} {cursor : Nat} (hp : s.current = some p)

include hp

/-- A vibration without another step has finished. -/
theorem startStep_of_exhausted (hn : p.nextStep = none) :
    s.startStep c = (true, s.finishCurrent c .finished) := by
  simp only [startStep, hp, hn]

variable (hn : p.nextStep = some (step, cursor))

include hn

/-- A step that the actuator takes is in flight. -/
theorem startStep_of_ok {reported : Nat} (hl : s.launch c p step = (.ok reported, t)) :
    s.startStep c = (false, { t with
      current := some
        (p.launch step cursor c.now (step.span reported c.config.prebakedFallbackMs)) }) := by
  simp only [startStep, hp, hn, hl]

/-- A step that the actuator refuses fails its vibration. -/
theorem startStep_of_error {e : Failure} (hl : s.launch c p step = (.error e, t)) :
    s.startStep c = (true, t.failCurrent c) := by
  simp only [startStep, hp, hn, hl]

end startStep

/-- To take the motor is to start the first step. -/
theorem occupy_eq (c : Context σ) (q : Playback) (s : Scheduler σ) :
    s.occupy c q =
      match (s.takenBy q).startStep c with
      | (true, t) => t.release c
      | (false, t) => t := rfl

/-! ## What becomes of a vibration that takes the motor -/

/-- What becomes of a vibration that takes the motor. -/
inductive Begun (c : Context σ) (q : Playback) (s : Scheduler σ) : Scheduler σ → Prop where
  /-- Its first step is in flight. -/
  | runs {step : Step} {cursor reported : Nat} {t : Scheduler σ}
      (hn : q.nextStep = some (step, cursor))
      (hl : (s.takenBy q).launch c q.begin step = (.ok reported, t)) :
      Begun c q s { t with
        current := some
          (q.begin.launch step cursor c.now (step.span reported c.config.prebakedFallbackMs)) }
  /-- The actuator has failed it. -/
  | fails {step : Step} {cursor : Nat} {e : Failure} {t : Scheduler σ}
      (hn : q.nextStep = some (step, cursor))
      (hl : (s.takenBy q).launch c q.begin step = (.error e, t)) :
      Begun c q s (({ t.disconnect with current := none } : Scheduler σ).retire
        (q.vibration.endedAs .ignoredErrorScheduling c.now))
  /-- It has no step. -/
  | ends (hn : q.nextStep = none) :
      Begun c q s (({ s.takenBy q with current := none } : Scheduler σ).retire
        (q.vibration.endedAs .finished c.now))

/-- To give the orders of a step is a talk. -/
theorem snd_launch (c : Context σ) (p : Playback) (step : Step) (s : Scheduler σ) :
    ∃ line orders, Talk c s.line orders line ∧ (s.launch c p step).2 = s.told line orders := by
  obtain ⟨info, h⟩ := dispatchAll_launch c p step s
  generalize s.launch c p step = answer at h
  cases h with
  | taken ht reported => exact ⟨_, _, ht, rfl⟩
  | refused given ht hg e => exact ⟨_, _, ht, rfl⟩

/-- To launch a step moves nobody. -/
theorem stays_launch {step : Step} {answer : Except Failure Nat}
    (h : s.launch c p step = (answer, t)) : Stays s t := by
  obtain ⟨line, orders, -, ht⟩ := snd_launch c p step s
  rw [h] at ht
  rw [show t = _ from ht]
  exact stays_told line orders s

/-- **What becomes of a vibration that takes the motor**, where nobody else waits for it. -/
theorem begun_occupy (hu : q.Untouched) (hn : s.next = none) (he : s.external = none) :
    Begun c q s (s.occupy c q) := by
  have hv (status : Status) : q.begin.vibration.endedAs status c.now =
      q.vibration.endedAs status c.now := by
    rw [hu.vibration_begin]
    rfl
  rw [show s.occupy c q = _ from occupy_eq c q s]
  cases hstep : q.nextStep with
  | none =>
    rw [startStep_of_exhausted rfl (q.nextStep_begin.trans hstep)]
    have hplays : (s.takenBy q).Plays q.begin := ⟨rfl, hu.runs_begin, hn, he⟩
    simp only
    rw [hplays.release_ended rfl, hv]
    exact .ends hstep
  | some next =>
    obtain ⟨step, cursor⟩ := next
    have hstep' := q.nextStep_begin.trans hstep
    rcases hl : (s.takenBy q).launch c q.begin step with ⟨e | reported, t⟩
    · rw [startStep_of_error rfl hstep' hl]
      obtain ⟨line, orders, -, htold⟩ := snd_launch c q.begin step (s.takenBy q)
      -- an order that is refused changes only the line, so the vibration fails where it has begun
      have hplays : t.disconnect.Plays q.begin := by
        rw [show t = _ from (congrArg Prod.snd hl).symm.trans htold]
        exact ⟨rfl, hu.runs_begin, hn, he⟩
      simp only [failCurrent]
      rw [hplays.release_ended rfl, hv]
      exact .fails hstep hl
    · rw [startStep_of_ok rfl hstep' hl]
      exact .runs hstep hl

/-! ## What a cancellation leaves -/

/-- A vibration whose stream has been told to stop still holds the motor. -/
theorem stops_halted (line : Line σ) {status : Status} (hp : s.current = some p) (hr : p.Runs)
    (hf : p.hasStreamInFlight = true) (hs : status.isCancelled = true) :
    ∃ p', (((s.finishCurrent c status).told line [.stop]).awaitStop c).current = some p' ∧
      p'.Stops ∧ p'.vibration = p.vibration.endedAs status c.now := by
  have ht := Status.isTerminal_of_isCancelled hs
  have hc : (s.finishCurrent c status).current = some (p.finish status c.now) := by
    rw [finishCurrent_of_some c hp]
  refine ⟨_, current_halted hc c line, ⟨?_, rfl, hf⟩, hr.finish_eq ht c.now⟩
  change (p.finish status c.now).vibration.status.isCancelled = true
  rw [hr.status_finish ht]
  exact hs

end Scheduler

end Haptics
