import Haptics.Actuator.Line
import Haptics.AlwaysOn
import Haptics.Config
import Haptics.History
import Haptics.Playback

/-!
# The scheduler: its state and what it can do to it

A scheduler has one motor to give away. The vibration that holds it is *current*; the one that waits
for it is *next*; an *external* session waits for the motor or has it. The scheduler also keeps the
always-on registry, the history, and a *journal* of its deeds: the orders that the actuator has
taken, and who came and went.

The state is changed only through the operations below. Those that can fail give an `Except`, and a
failure changes nothing but the actuator itself (`issue_of_error`).
-/

namespace Haptics

/-- What a scheduler finds when it is called. -/
structure Context (σ : Type) where
  /-- How to deal with the actuator. -/
  device : Device σ
  /-- The answers of the policy. -/
  policy : Policy
  /-- The configuration. -/
  config : Config
  /-- The time, in milliseconds. -/
  now : Nat

/-- Something that a scheduler has done. -/
inductive Deed where
  /-- The actuator has taken an order. -/
  | issued (order : Order)
  /-- A vibration has become current. -/
  | began (vibration : Nat)
  /-- A vibration has ended and is gone. -/
  | retired (vibration : Vibration)
  /-- An external session has been given the motor. -/
  | seized (session : Nat)
  /-- An external session has ended and is gone. -/
  | dismissed (session : ExternalSession)
  deriving DecidableEq

/-- The state of a scheduler for actuators with states `σ`. -/
structure Scheduler (σ : Type) where
  /-- The line to the actuator. -/
  line : Line σ
  /-- The vibration that holds the motor. -/
  current : Option Playback := none
  /-- The vibration that waits for the motor. -/
  next : Option Playback := none
  /-- The external session that waits for the motor or has it. -/
  external : Option ExternalSession := none
  /-- The transmission whose packets are let in. -/
  admitted : Option SenderId := none
  /-- What the telephone is doing. -/
  callState : CallState := .idle
  /-- The always-on registry. -/
  alwaysOn : AlwaysOn := []
  /-- What is kept of the vibrations and sessions that have ended. -/
  history : History
  /-- The deeds of the scheduler, the latest first. -/
  journal : List Deed := []

namespace Scheduler

variable {σ : Type}

/-- A scheduler at its start. -/
def create (config : Config) (actuator : σ) : Scheduler σ :=
  { line := { actuator }
    history := { limit := config.historyLimit, externalLimit := config.externalHistoryLimit } }

/-! ## Dealing with the actuator -/

/-- Connects to the actuator, unless there is a connection. -/
def reach (c : Context σ) (s : Scheduler σ) : Except Failure Unit × Scheduler σ :=
  match s.line.reach c.device with
  | (result, line) => (result, { s with line })

/-- Gives up the connection. -/
def disconnect (s : Scheduler σ) : Scheduler σ :=
  { s with line := s.line.reset }

/-- Gives an order over the connection. -/
def issue (c : Context σ) (o : Order) (s : Scheduler σ) : Except Failure Nat × Scheduler σ :=
  match c.device.perform c.now o s.line.actuator with
  | (.ok reported, actuator) =>
    (.ok reported, { s with line := { s.line with actuator }, journal := .issued o :: s.journal })
  | (.error e, actuator) => (.error e, { s with line := { s.line with actuator } })

/-- Gives orders in turn until one fails; the answer is that to the last. -/
def issueAll (c : Context σ) : List Order → Scheduler σ → Except Failure Nat × Scheduler σ
  | [], s => (.ok 0, s)
  | [o], s => s.issue c o
  | o :: rest, s =>
    match s.issue c o with
    | (.ok _, s) => issueAll c rest s
    | (.error e, s) => (.error e, s)

/-- Gives an order if there is a connection. -/
def issueIfConnected (c : Context σ) (o : Order) (s : Scheduler σ) :
    Except Failure Nat × Scheduler σ :=
  if s.line.connected then s.issue c o else (.error (.unavailable .notConnected), s)

/-- Connects if need be and gives an order. -/
def reachAndIssue (c : Context σ) (o : Order) (s : Scheduler σ) :
    Except Failure Nat × Scheduler σ :=
  match s.reach c with
  | (.ok (), s) => s.issue c o
  | (.error e, s) => (.error e, s)

/-- What the actuator says about itself, if it can be reached. -/
def info? (c : Context σ) (s : Scheduler σ) : Option ActuatorInfo × Scheduler σ :=
  match s.reach c with
  | (.ok (), s) => (some (c.device.info s.line.actuator), s)
  | (.error _, s) => (none, s)

/-! ## Coming and going -/

/-- A vibration that has ended goes into the history. If its transmission is the one whose packets
are let in, they are no longer. -/
def retire (v : Vibration) (s : Scheduler σ) : Scheduler σ :=
  { s with
    admitted := if v.sender.isSome ∧ v.sender = s.admitted then none else s.admitted
    history := s.history.record v.info
    journal := .retired v :: s.journal }

/-- The vibration that waits, if there is one, ends with a status and is gone. -/
def dropNext (c : Context σ) (status : Status) (s : Scheduler σ) : Scheduler σ :=
  match s.next with
  | none => s
  | some p => { s with next := none }.retire (p.vibration.finish status c.now)

/-- The vibration that holds the motor, if there is one, is gone; it has finished if it has not
ended otherwise. -/
def dropCurrent (c : Context σ) (s : Scheduler σ) : Scheduler σ :=
  match s.current with
  | none => s
  | some p => { s with current := none }.retire (p.vibration.finish .finished c.now)

/-- The session ends with a status and goes into the history. -/
def dismiss (c : Context σ) (status : Status) (session : ExternalSession) (s : Scheduler σ) :
    Scheduler σ :=
  { s with
    external := none
    history := s.history.recordExternal (session.finish status c.now).info
    journal := .dismissed (session.finish status c.now) :: s.journal }

/-- The session takes the motor. -/
def seize (session : ExternalSession) (s : Scheduler σ) : Scheduler σ :=
  { s with external := some session.activate, journal := .seized session.id :: s.journal }

/-- The session, if there is one, ends with a status. If it has the motor, the motor is taken back
from it, as far as there is a connection. -/
def endExternal (c : Context σ) (status : Status) (s : Scheduler σ) : Scheduler σ :=
  match s.external with
  | none => s
  | some session =>
    if session.active then
      (s.issueIfConnected c (.externalControl false)).2.dismiss c status session
    else s.dismiss c status session

/-- Hands the motor over to a session that waits for it, if no vibration holds it. Where that fails
the session ends. -/
def activateExternal (c : Context σ) (s : Scheduler σ) : Scheduler σ :=
  match s.current, s.external with
  | none, some session =>
    if session.active then s
    else
      match s.reachAndIssue c (.externalControl true) with
      | (.ok _, s) => s.seize session
      | (.error _, s) => s.disconnect.endExternal c .ignoredErrorScheduling
  | _, _ => s

/-! ## What the operations leave alone -/

/-- A failed order is not in the journal, and changes nothing but the actuator. -/
theorem issue_of_error {c : Context σ} {o : Order} {s : Scheduler σ} {e : Failure} {a : σ}
    (h : c.device.perform c.now o s.line.actuator = (.error e, a)) :
    s.issue c o = (.error e, { s with line := { s.line with actuator := a } }) := by
  simp only [issue, h]

/-- An order that was taken is in the journal. -/
theorem issue_of_ok {c : Context σ} {o : Order} {s : Scheduler σ} {reported : Nat} {a : σ}
    (h : c.device.perform c.now o s.line.actuator = (.ok reported, a)) :
    s.issue c o =
      (.ok reported,
        { s with line := { s.line with actuator := a }, journal := .issued o :: s.journal }) := by
  simp only [issue, h]

end Scheduler

end Haptics
