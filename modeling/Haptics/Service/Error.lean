import Haptics.Config
import Haptics.Failure

/-!
# What the service answers instead

A call to the service can fail as a request of its own (a `Failure`), because the configuration is
wrong, because the worker has stopped, or because it names an external session that is not there.
-/

namespace Haptics

/-- Why the worker does not answer. -/
inductive Stoppage where
  /-- It had stopped before the call. -/
  | queueClosed
  /-- It stopped before it came to the call. -/
  | requestDropped
  /-- It stopped while an external source waited for the motor. -/
  | duringHandoff
  /-- Anything else, in words. -/
  | other (text : String)
  deriving DecidableEq

/-- The wording of a stoppage. -/
def Stoppage.text : Stoppage → String
  | .queueClosed => "command queue closed"
  | .requestDropped => "worker dropped the request"
  | .duringHandoff => "stopped during external handoff"
  | .other text => text

/-- Why a call to the service fails. -/
inductive ServiceError where
  /-- The request itself fails. -/
  | failure (failure : Failure)
  /-- The configuration is wrong. -/
  | configuration (cause : ConfigError)
  /-- The worker does not answer. -/
  | stopped (cause : Stoppage)
  /-- The state cannot be read because its holder broke off. -/
  | lockPoisoned (text : String)
  /-- There is no external session of that number. -/
  | unknownExternal (id : Nat)
  deriving DecidableEq

namespace ServiceError

/-- The message of a service error. That of a failed request is the message of the failure. -/
def message : ServiceError → String
  | failure f => f.message
  | configuration cause => "Invalid configuration: " ++ cause.text
  | stopped cause => "Vibration worker stopped: " ++ cause.text
  | lockPoisoned text => "Lock poisoned: " ++ text
  | unknownExternal id => "Unknown external vibration: " ++ toString id

/-- The failure of the request, if that is what it is. -/
def failure? : ServiceError → Option Failure
  | failure f => some f
  | _ => none

end ServiceError

end Haptics
