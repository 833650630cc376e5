import Haptics.Actuator.Info
import Haptics.Effect

/-!
# Orders, commands and events

An *order* is a call that the scheduler makes to an actuator, with all that goes with it. What an
actuator keeps in its log of an order is a *command*: the same, but of a stream only its size and
the index of its first pattern. An actuator answers later by *events*: a start order has come to its
end, or the connection is gone.

An order starts the motor if it is for a vibration; the vibration is then its owner
(`Order.owner?`).
-/

namespace Haptics

/-- A call to an actuator. -/
inductive Order where
  /-- Switch on for a time. -/
  | on (durationMs vibration : Nat)
  /-- Switch off. -/
  | off
  /-- Set the amplitude of what is switched on next. -/
  | setAmplitude (amplitude : UInt8)
  /-- Play an effect that lives in the hardware. -/
  | prebaked (effect : Prebaked) (vibration : Nat)
  /-- Play an envelope. -/
  | envelope (params : List Word) (steep : Bool) (vibration : Nat)
  /-- Play a stream, or go on with one. -/
  | stream (stream : Stream) (vibration : Nat)
  /-- Change the controls of the running stream. -/
  | controls (controls : Controls)
  /-- Set a parameter of the vendor. -/
  | haptic (params : List Word)
  /-- End the running stream at its next safe place. -/
  | stop
  /-- Hand the motor to an external source, or take it back. -/
  | externalControl (enabled : Bool)
  /-- Let a channel play an effect whenever its trigger fires. -/
  | alwaysOnEnable (channel : UInt8) (id : Int) (effect : Prebaked)
  /-- Take the effect of a channel away. -/
  | alwaysOnDisable (channel : UInt8) (id : Int)
  deriving DecidableEq

/-- The vibration that an order starts the motor for. -/
def Order.owner? : Order → Option Nat
  | on _ id | prebaked _ id | envelope _ _ id | stream _ id => some id
  | _ => none

/-- The name of the call that an order makes. -/
def Order.method : Order → String
  | on _ _ => "on"
  | off => "off"
  | setAmplitude _ => "set_amplitude"
  | prebaked _ _ => "perform_prebaked"
  | envelope _ _ _ => "perform_envelope"
  | stream _ _ => "perform_compiled_pattern"
  | controls _ => "update_pattern_params"
  | haptic _ => "set_haptic_param"
  | stop => "stop"
  | externalControl _ => "set_external_control"
  | alwaysOnEnable _ _ _ => "always_on_enable"
  | alwaysOnDisable _ _ => "always_on_disable"

/-- What an actuator keeps of an order in its log. -/
inductive Command where
  | on (durationMs vibration : Nat)
  | off
  | setAmplitude (amplitude : UInt8)
  | prebaked (effect : Prebaked) (vibration : Nat)
  | envelope (params : List Word) (steep : Bool) (vibration : Nat)
  /-- The size of a stream and the index of its first pattern. -/
  | stream (words : Nat) (firstIndex : Option Word) (vibration : Nat)
  | controls (controls : Controls)
  | haptic (params : List Word)
  | stop
  | externalControl (enabled : Bool)
  | alwaysOnEnable (channel : UInt8) (id : Int) (effect : Prebaked)
  | alwaysOnDisable (channel : UInt8) (id : Int)
  deriving DecidableEq

namespace Command

/-- The vibration that a command belongs to. -/
def owner? : Command → Option Nat
  | on _ id | prebaked _ id | envelope _ _ id | stream _ _ id => some id
  | _ => none

/-- Whether the command starts the motor. -/
def starts (c : Command) : Bool := c.owner?.isSome

end Command

/-- What is kept of an order. -/
def Order.command : Order → Command
  | .on durationMs id => .on durationMs id
  | .off => .off
  | .setAmplitude amplitude => .setAmplitude amplitude
  | .prebaked effect id => .prebaked effect id
  | .envelope params steep id => .envelope params steep id
  | .stream s id => .stream s.words.length s.firstIndex? id
  | .controls c => .controls c
  | .haptic params => .haptic params
  | .stop => .stop
  | .externalControl enabled => .externalControl enabled
  | .alwaysOnEnable channel id effect => .alwaysOnEnable channel id effect
  | .alwaysOnDisable channel id => .alwaysOnDisable channel id

/-- The log keeps whose order it was. -/
@[simp] theorem Order.owner?_command (o : Order) : o.command.owner? = o.owner? := by
  cases o <;> rfl

/-- What an actuator tells its scheduler. -/
inductive ActuatorEvent where
  /-- A start order for the vibration has come to its end. -/
  | complete (vibration : Nat)
  /-- The connection is gone. -/
  | died
  deriving DecidableEq

/-- What arrives of events that are sent: all of them in order, if somebody listens. -/
def ActuatorEvent.delivered (listening : Bool) (events : List ActuatorEvent) : List ActuatorEvent :=
  if listening then events else []

end Haptics
