import Haptics.Actuator.Order

/-!
# Actuators as a scheduler sees them

A scheduler works with any actuator that it can connect to, give orders to and hear from. A `Device`
says how an actuator with states `σ` does these things. A call is answered or refused, and either
way the state may move: nothing is assumed about when calls fail or what their failure leaves
behind, unless a statement says so.

Calls are given at a time, in milliseconds.
-/

namespace Haptics

/-- An actuator with states `σ`. -/
structure Device (σ : Type) where
  /-- What the actuator says about itself. -/
  info : σ → ActuatorInfo
  /-- Connects to the actuator. -/
  connect : σ → Except Failure Unit × σ
  /-- Gives an order at a time; the answer is the duration that the actuator reports, zero where it
  reports none. -/
  perform : Nat → Order → σ → Except Failure Nat × σ
  /-- Takes the oldest event that waits to be heard. -/
  hear : σ → Option (ActuatorEvent × σ)

end Haptics
