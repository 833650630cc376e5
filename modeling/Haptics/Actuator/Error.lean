/-!
# What an actuator can object to

An actuator refuses a call because it is not connected, because something in it is broken, or
because it lacks the capability; and a simulated one may be set up wrongly. `ActuatorError.message`
is the one place where these get their wording.
-/

namespace Haptics

/-- What is wrong with the set-up of a simulated actuator. -/
inductive SetupError where
  /-- The actuator has no name. -/
  | nameEmpty
  /-- The major version of the interface is zero. -/
  | majorMissing
  /-- Anything else, in words. -/
  | other (text : String)
  deriving DecidableEq

/-- The wording of a set-up error. -/
def SetupError.text : SetupError → String
  | .nameEmpty => "name must not be empty"
  | .majorMissing => "major version must be set"
  | .other text => text

/-- Why an actuator refuses a call. -/
inductive ActuatorError where
  /-- Nobody listens for its completions. -/
  | offline
  /-- It reports a fault. -/
  | fault (text : String)
  /-- It does not report the capability that the call needs. -/
  | unsupported (operation : String)
  /-- It cannot be set up like this. -/
  | invalidConfig (cause : SetupError)
  /-- Its state cannot be read because its holder broke off. -/
  | lockPoisoned (text : String)
  deriving DecidableEq

/-- The message of an actuator error. -/
def ActuatorError.message : ActuatorError → String
  | .offline => "Actuator offline"
  | .fault text => "Actuator fault: " ++ text
  | .unsupported operation => "Unsupported operation: " ++ operation
  | .invalidConfig cause => "Invalid configuration: " ++ cause.text
  | .lockPoisoned text => "Lock poisoned: " ++ text

end Haptics
