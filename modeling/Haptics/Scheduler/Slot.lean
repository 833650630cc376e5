import Haptics.Scheduler.Basic

/-!
# Who holds the motor

A current vibration goes from step to step (`advance`). When its last step has ended, or a step
fails, it gives up the motor (`release`): a session that waits is served first, then the vibration
that waits. Should the first step of that one fail too, or should it have no step at all, it goes
again at once; nobody can wait behind it any more, so a release ends after two vibrations at most.

A vibration that is cancelled gives up the motor at once, unless a stream of it is in flight. Then
it is told to stop and keeps the motor until the actuator reports the end of the stream, or until
its grace has passed (`cancelCurrent`).
-/

namespace Haptics.Scheduler

variable {σ : Type}

/-! ## From step to step -/

/-- The vibration that holds the motor ends with a status, unless it has ended. -/
def finishCurrent (c : Context σ) (status : Status) (s : Scheduler σ) : Scheduler σ :=
  { s with current := s.current.map fun p => p.finish status c.now }

/-- The actuator has failed the vibration that holds the motor. The connection is given up. -/
def failCurrent (c : Context σ) (s : Scheduler σ) : Scheduler σ :=
  s.disconnect.finishCurrent c .ignoredErrorScheduling

/-- Gives the actuator the orders of a step. -/
def launch (c : Context σ) (p : Playback) (step : Step) (s : Scheduler σ) :
    Except Failure Nat × Scheduler σ :=
  match s.reach c with
  | (.ok (), s) => s.issueAll c (step.orders (c.device.info s.line.actuator) p.id p.packets)
  | (.error e, s) => (.error e, s)

/-- Starts the next step of the vibration that holds the motor; whether the vibration has ended
instead, because there is no further step or because the step failed. -/
def startStep (c : Context σ) (s : Scheduler σ) : Bool × Scheduler σ :=
  match s.current with
  | none => (false, s)
  | some p =>
    match p.nextStep with
    | none => (true, s.finishCurrent c .finished)
    | some (step, cursor) =>
      match s.launch c p step with
      | (.ok reported, s) =>
        let span := step.span reported c.config.prebakedFallbackMs
        (false, { s with current := some (p.launch step cursor c.now span) })
      | (.error _, s) => (true, s.failCurrent c)

/-- A vibration takes the motor and its first step is started; whether it has ended instead. -/
def begin (c : Context σ) (p : Playback) (s : Scheduler σ) : Bool × Scheduler σ :=
  startStep c { s with current := some p.begin, journal := .began p.id :: s.journal }

/-! ## Giving up the motor -/

/-- The vibration that holds the motor is gone, and a session that waits for it is served. -/
def vacate (c : Context σ) (s : Scheduler σ) : Scheduler σ :=
  (s.dropCurrent c).activateExternal c

/-- The motor is given up: to a session that waits for it, or else to the vibration that waits. -/
def release (c : Context σ) (s : Scheduler σ) : Scheduler σ :=
  let s := s.vacate c
  match s.external, s.next with
  | none, some p =>
    match begin c p { s with next := none } with
    | (true, s) => s.vacate c
    | (false, s) => s
  | _, _ => s

/-- Starts the next step of the vibration that holds the motor, or gives up the motor. -/
def advance (c : Context σ) (s : Scheduler σ) : Scheduler σ :=
  match s.startStep c with
  | (true, s) => s.release c
  | (false, s) => s

/-! ## Cancelling -/

/-- The stream in flight has been told to stop, and holds the motor until its grace has passed. -/
def awaitStop (c : Context σ) (s : Scheduler σ) : Scheduler σ :=
  { s with current := s.current.map fun p => p.awaitStop (c.now + c.config.cancelGraceMs) }

/-- Cancels the vibration that holds the motor with a status; whether there was one that was not
stopping yet. -/
def cancelCurrent (c : Context σ) (status : Status) (s : Scheduler σ) : Bool × Scheduler σ :=
  match s.current with
  | none => (false, s)
  | some p =>
    if p.stopping then (false, s)
    else if p.hasStreamInFlight then
      match (s.finishCurrent c status).issueIfConnected c .stop with
      | (.ok _, s) => (true, s.awaitStop c)
      | (.error _, s) => (true, s.disconnect.release c)
    else (true, ((s.finishCurrent c status).issueIfConnected c .off).2.release c)

/-- Whether a vibration that waits for the motor satisfies a condition. -/
def nextMatches (condition : Vibration → Bool) (s : Scheduler σ) : Bool :=
  s.next.any fun p => condition p.vibration

/-- Whether the vibration that holds the motor is not stopping and satisfies a condition. -/
def currentMatches (condition : Vibration → Bool) (s : Scheduler σ) : Bool :=
  s.current.any fun p => !p.stopping && condition p.vibration

/-- Cancels the vibrations that satisfy a condition, the one that waits first; how many they
were. -/
def cancelWhere (c : Context σ) (status : Status) (condition : Vibration → Bool)
    (s : Scheduler σ) : Nat × Scheduler σ :=
  let waiting := s.nextMatches condition
  let s := if waiting then s.dropNext c status else s
  match if s.currentMatches condition then s.cancelCurrent c status else (false, s) with
  | (cancelled, s) => (waiting.toNat + cancelled.toNat, s)

end Haptics.Scheduler
