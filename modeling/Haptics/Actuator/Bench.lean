import Haptics.Actuator.Motor

/-!
# A motor on the bench

The bench holds a motor, decides whether it can be connected to, counts the connections, and can
make chosen calls fail before they reach the motor. A fault rule names a method, lets a number of
its calls pass and then makes a number of them fail; of several rules for one method the first that
still has something to say is used.

`Bench.device` is the bench as a scheduler sees it.
-/

namespace Haptics

/-- A script for calls of one method. -/
structure FaultRule where
  /-- The method. -/
  method : String
  /-- How many calls still pass. -/
  skip : Nat := 0
  /-- How many calls then fail. -/
  count : Nat := 1
  deriving DecidableEq

namespace FaultRule

/-- Shows a call to the rules in order: whether it fails, and the rules afterwards. A rule that lets
the call pass leaves the later ones a say; the rule that makes it fail does not. -/
def consult (method : String) : List FaultRule → Bool × List FaultRule
  | [] => (false, [])
  | rule :: rest =>
    if rule.method ≠ method then
      let (fails, rest) := consult method rest
      (fails, rule :: rest)
    else if 0 < rule.skip then
      let (fails, rest) := consult method rest
      (fails, { rule with skip := rule.skip - 1 } :: rest)
    else if 0 < rule.count then (true, { rule with count := rule.count - 1 } :: rest)
    else
      let (fails, rest) := consult method rest
      (fails, rule :: rest)

end FaultRule

/-- A motor on the bench. -/
structure Bench where
  /-- The motor. -/
  motor : Motor
  /-- Whether the motor can be connected to. -/
  available : Bool := true
  /-- How many connections have been made. -/
  connections : Nat := 0
  /-- The script of calls that are to fail. -/
  faults : List FaultRule := []
  deriving DecidableEq

namespace Bench

/-- Connects to the motor. -/
def connect (b : Bench) : Except Failure Unit × Bench :=
  if b.available then
    (.ok (), { b with motor := b.motor.attach, connections := b.connections + 1 })
  else (.error ActuatorError.offline.toFailure, b)

/-- Gives an order, unless the script makes the call fail. -/
def perform (now : Nat) (o : Order) (b : Bench) : Except Failure Nat × Bench :=
  match FaultRule.consult o.method b.faults with
  | (true, faults) => (.error (.unavailable (.scripted o.method)), { b with faults })
  | (false, faults) =>
    match b.motor.perform now o with
    | (.ok reported, motor) => (.ok reported, { b with motor, faults })
    | (.error e, motor) => (.error e.toFailure, { b with motor, faults })

/-- Takes the oldest event that has not been heard. -/
def hear (b : Bench) : Option (ActuatorEvent × Bench) :=
  b.motor.hear.map fun (event, motor) => (event, { b with motor })

/-- The bench as a scheduler sees it. -/
def device : Device Bench where
  info b := b.motor.config.info
  connect := connect
  perform := perform
  hear := hear

end Bench

end Haptics
