import Haptics.Actuator.Bench

/-!
# The line to an actuator

A line connects to its actuator when it is first needed and then stays connected, until it is reset
because the actuator died or failed. A connection that is refused leaves the line unconnected.
-/

namespace Haptics

/-- A line to an actuator with states `σ`. -/
structure Line (σ : Type) where
  /-- The actuator at the other end. -/
  actuator : σ
  /-- Whether there is a connection. -/
  connected : Bool := false

namespace Line

variable {σ : Type}

/-- Connects, unless there is a connection. -/
def reach (d : Device σ) (l : Line σ) : Except Failure Unit × Line σ :=
  if l.connected then (.ok (), l)
  else
    match d.connect l.actuator with
    | (.ok (), actuator) => (.ok (), { actuator, connected := true })
    | (.error e, actuator) => (.error e, { actuator, connected := false })

/-- Gives up the connection. -/
def reset (l : Line σ) : Line σ := { l with connected := false }

/-- The line shown to a reader. -/
def describe (l : Line σ) : String :=
  "ActuatorHandle \x7b connected: " ++ toString l.connected ++ " \x7d"

@[simp] theorem reach_of_connected {d : Device σ} {l : Line σ} (h : l.connected = true) :
    l.reach d = (.ok (), l) := by
  simp [reach, h]

end Line

end Haptics
