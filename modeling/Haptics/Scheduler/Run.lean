import Haptics.Scheduler.Events
import Haptics.Scheduler.Requests

/-!
# Runs of a scheduler

What can happen to a scheduler is an `Input`: a request, an event of the actuator, or a deadline.
Inputs are handled one after another, each at its own time and under the policy of that time. At the
end everything is stopped.
-/

namespace Haptics

/-- What can happen to a scheduler. -/
inductive Input where
  | vibrate (vibration : Vibration)
  | packet (packet : Stream)
  | cancel (filter : UsageFilter) (token : Nat)
  | screenOff
  | settingsChanged
  | callState (state : CallState)
  | startExternal (request : ExternalRequest)
  | externalTimedOut (id : Nat)
  | stopExternal (id : Nat)
  | setAlwaysOn (request : AlwaysOnRequest)
  | updateControls (controls : Controls) (token : Option Nat)
  | setMode (mode : Word)
  | askInfo
  | event (event : ActuatorEvent)
  | deadline
  deriving DecidableEq

/-- An input, when it happens, and what the policy is then. -/
structure Happening where
  /-- The policy at that time. -/
  policy : Policy
  /-- The time. -/
  now : Nat
  /-- What happens. -/
  input : Input

/-- The context of a happening: the actuator and the configuration stay, policy and time are its
own. -/
def Context.during {σ : Type} (c : Context σ) (h : Happening) : Context σ :=
  { c with policy := h.policy, now := h.now }

namespace Scheduler

variable {σ : Type}

/-- The state after an input. -/
def step (c : Context σ) (input : Input) (s : Scheduler σ) : Scheduler σ :=
  match input with
  | .vibrate v => (s.vibrate c v).2
  | .packet p => (s.packet c p).2
  | .cancel filter token => (s.cancel c filter token).2
  | .screenOff => (s.screenOff c).2
  | .settingsChanged => (s.settingsChanged c).2
  | .callState state => (s.setCallState c state).2
  | .startExternal request => (s.startExternal c request).2
  | .externalTimedOut id => (s.externalTimedOut c id).2
  | .stopExternal id => (s.stopExternal c id).2
  | .setAlwaysOn request => (s.setAlwaysOn c request).2
  | .updateControls controls token => (s.updateControls c controls token).2
  | .setMode mode => (s.setMode c mode).2
  | .askInfo => (s.info? c).2
  | .event event => s.handleEvent c event
  | .deadline => s.handleDeadline c

/-- What the actuator is told about the vibration that holds the motor when everything is
stopped. -/
def stopOrder (p : Playback) : Order := if p.hasStreamInFlight then .stop else .off

/-- Tells the actuator to stop what holds the motor, as far as there is a connection. -/
def silence (c : Context σ) (s : Scheduler σ) : Scheduler σ :=
  match s.current with
  | none => s
  | some p => (s.issueIfConnected c (stopOrder p)).2

/-- Everything is stopped: whatever waits, plays or has the motor is cancelled and gone. -/
def stopAll (c : Context σ) (s : Scheduler σ) : Scheduler σ :=
  (((((s.dropNext c .cancelledByUser).silence c).finishCurrent c .cancelledByUser).dropCurrent c
    ).endExternal c .cancelledByUser)

end Scheduler

end Haptics
