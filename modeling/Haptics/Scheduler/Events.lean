import Haptics.Scheduler.Slot

/-!
# What happens by itself

The actuator reports the end of a command, or that the connection is gone; and the deadline of the
vibration that holds the motor passes. A report that belongs to another vibration is stale and does
nothing. When a deadline has passed, the events that wait to be heard come first (`onTimer`): a
report that was in time counts.
-/

namespace Haptics.Scheduler

variable {σ : Type}

/-- The actuator reports the end of a command of a vibration. Steps that only their time ends are
not ended by it. -/
def completed (c : Context σ) (id : Nat) (s : Scheduler σ) : Scheduler σ :=
  match s.current with
  | none => s
  | some p =>
    if p.id ≠ id then s
    else if p.stopping then s.release c
    else if p.stage = some .awaiting ∨ p.stage = some .stream then s.advance c
    else s

/-- The connection is gone, and with it the vibration that holds the motor. -/
def lost (c : Context σ) (s : Scheduler σ) : Scheduler σ :=
  match s.current with
  | none => { s.disconnect with admitted := none }
  | some _ =>
    let s := { s.disconnect with admitted := none }
    (s.finishCurrent c .ignoredErrorScheduling).release c

/-- Handles an event of the actuator. -/
def handleEvent (c : Context σ) (event : ActuatorEvent) (s : Scheduler σ) : Scheduler σ :=
  match event with
  | .complete id => s.completed c id
  | .died => s.lost c

/-- The deadline that is set, if there is one. -/
def deadline? (s : Scheduler σ) : Option Nat := s.current.bind (·.deadline)

/-- Handles the deadline, if it has come: a vibration that was stopping gives up the motor, another
one goes on. -/
def handleDeadline (c : Context σ) (s : Scheduler σ) : Scheduler σ :=
  match s.current with
  | none => s
  | some p =>
    if p.deadline.any (· ≤ c.now) then
      let s := { s with current := some { p with deadline := none } }
      if p.stopping then s.release c else s.advance c
    else s

/-- Takes the oldest event that waits to be heard. -/
def hear (c : Context σ) (s : Scheduler σ) : Option (ActuatorEvent × Scheduler σ) :=
  (c.device.hear s.line.actuator).map fun (event, actuator) =>
    (event, { s with line := { s.line with actuator } })

/-- Handles the events that wait to be heard, and those that come while it does, up to a number of
them; nothing if there are more. -/
def drain (c : Context σ) : (limit : Nat) → Scheduler σ → Option (Scheduler σ)
  | limit, s =>
    match s.hear c with
    | none => some s
    | some (event, s) =>
      match limit with
      | 0 => none
      | limit + 1 => drain c limit (s.handleEvent c event)

/-- Handles a deadline after the events that wait to be heard, if these are no more than a limit. -/
def onTimer (c : Context σ) (limit : Nat) (s : Scheduler σ) : Option (Scheduler σ) :=
  (s.drain c limit).map (handleDeadline c)

end Haptics.Scheduler
