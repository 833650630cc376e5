import Haptics.Actuator.Line

/-!
# Letting time pass on the bench

A motor has timers, which go off in the order of their times; of several at one time the one that
was set first goes off first. `Motor.awaitEvent` lets time pass until an event waits to be heard.

A `Trial` is a line to a bench and a clock, for orders that are given by hand.
-/

namespace Haptics

namespace Motor

/-- The earlier of two timers, each with its place in the list; the first of them at equal times. -/
def earlier (a b : MotorTimer × Nat) : MotorTimer × Nat :=
  if b.1.due < a.1.due then b else a

/-- The timer that goes off next, with its place in the list. -/
def nextTimer? (m : Motor) : Option (MotorTimer × Nat) :=
  match m.timers.zipIdx with
  | [] => none
  | first :: rest => some (rest.foldl earlier first)

/-- Lets timers go off in turn until an event waits or none is due before a limit, `fuel` of them at
most. The answer is the time when that is so. -/
def awaitWithin (limit : Nat) : (fuel : Nat) → (now : Nat) → Motor → Nat × Motor
  | 0, now, m => (now, m)
  | fuel + 1, now, m =>
    if m.events.isEmpty then
      match m.nextTimer? with
      | some (timer, place) =>
        if timer.due ≤ limit then awaitWithin limit fuel (max now timer.due) (m.wake place)
        else (limit, m)
      | none => (limit, m)
    else (now, m)

/-- Lets time pass from `now` until an event waits, for `ms` milliseconds at most. A timer goes off
once, so there are no more rounds than timers. -/
def awaitEvent (now ms : Nat) (m : Motor) : Nat × Motor :=
  awaitWithin (now + ms) (m.timers.length + 1) now m

/-- Takes all events that have not been heard. -/
def hearAll (m : Motor) : List ActuatorEvent × Motor := (m.events, { m with events := [] })

/-- Makes the motor refuse every order, or not any more. -/
def setFailing (failing : Bool) (m : Motor) : Motor := { m with failing }

/-- Forgets the commands of the past. -/
def clearCommands (m : Motor) : Motor := { m with commands := [] }

end Motor

namespace Bench

/-- Changes the motor on the bench, with an answer. -/
def withMotor {β : Type} (f : Motor → β × Motor) (b : Bench) : β × Bench :=
  match f b.motor with
  | (answer, motor) => (answer, { b with motor })

/-- Lets the motor be connected to, or not any more. -/
def setAvailable (available : Bool) (b : Bench) : Bench := { b with available }

/-- Replaces the script of calls that are to fail. -/
def setFaults (faults : List FaultRule) (b : Bench) : Bench := { b with faults }

/-- Reports the end of a command that need not exist, if there ever was a connection to report over;
whether there was. -/
def report (id : Nat) (b : Bench) : Bool × Bench :=
  if 0 < b.connections then
    (true, { b with motor := { b.motor with events := b.motor.events ++ [.complete id] } })
  else (false, b)

end Bench

namespace Line

/-- Changes the bench at the other end of a line, connected or not, with an answer. -/
def withBench {β : Type} (f : Bench → β × Bench) (l : Line Bench) : β × Line Bench :=
  match f l.actuator with
  | (answer, actuator) => (answer, { l with actuator })

/-- Changes the motor at the other end of a line, with an answer. -/
def withMotor {β : Type} (f : Motor → β × Motor) (l : Line Bench) : β × Line Bench :=
  l.withBench (·.withMotor f)

end Line

/-- A line to a bench, and the time. -/
structure Trial where
  /-- The line. -/
  line : Line Bench
  /-- The time. -/
  now : Nat := 0

namespace Trial

/-- A trial with a motor of the given set-up. -/
def create (config : MotorConfig) : Except ActuatorError Trial :=
  (Motor.create config).map fun motor => { line := { actuator := { motor } } }

/-- The motor. -/
def motor (t : Trial) : Motor := t.line.actuator.motor

/-- Changes the motor, with an answer. -/
def withMotor {β : Type} (f : Motor → β × Motor) (t : Trial) : β × Trial :=
  match t.line.withMotor f with
  | (answer, line) => (answer, { t with line })

/-- Gives the motor an order, past the line. -/
def order (o : Order) (t : Trial) : Except ActuatorError Nat × Trial :=
  t.withMotor (Motor.perform t.now o)

/-- Lets time pass until an event waits, for so long at most; whether one waits. -/
def awaitEvent (ms : Nat) (t : Trial) : Bool × Trial :=
  match t.withMotor (Motor.awaitEvent t.now ms) with
  | (now, t) => (!t.motor.events.isEmpty, { t with now })

/-- The commands obeyed and the events sent since they were last asked for. -/
def news (t : Trial) : (List Command × List ActuatorEvent) × Trial :=
  t.withMotor fun m => ((m.commands, m.events), m.clearCommands.hearAll.2)

end Trial

end Haptics
