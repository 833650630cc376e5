import Haptics.Scheduler.Admission
import Haptics.Scheduler.Handover

/-!
# The other requests

Clients cancel, the screen goes dark, settings change, the telephone rings: each time the vibrations
that it concerns are cancelled. Beside that, always-on effects are set, the controls of the running
stream changed, the mode of the actuator set, and questions answered.
-/

namespace Haptics

/-- Everything that a scheduler tells about itself. -/
structure Dump where
  /-- The vibration that holds the motor. -/
  current : Option VibrationInfo
  /-- The vibration that waits. -/
  next : Option VibrationInfo
  /-- The external session. -/
  external : Option ExternalInfo
  /-- The vibrations that have ended, in the order of their numbers. -/
  history : List VibrationInfo
  /-- The sessions that have ended, oldest first. -/
  externalHistory : List ExternalInfo
  /-- The always-on registry. -/
  alwaysOn : List AlwaysOnInfo
  /-- What the telephone is doing. -/
  callState : CallState
  deriving DecidableEq

namespace Scheduler

variable {σ : Type}

/-! ## What ends vibrations -/

/-- Whether the external session is one that a client's cancel request reaches. -/
def externalMatches (filter : UsageFilter) (token : Nat) (s : Scheduler σ) : Bool :=
  s.external.any fun session =>
    session.request.token = token && filter.accepts session.request.attributes.usage

/-- A client cancels what it has asked for; how much that was. -/
def cancel (c : Context σ) (filter : UsageFilter) (token : Nat) (s : Scheduler σ) :
    Nat × Scheduler σ :=
  match s.cancelWhere c .cancelledByUser fun v => v.token = token && filter.accepts v.usage with
  | (count, s) =>
    if s.externalMatches filter token then (count + 1, s.endExternal c .cancelledByUser)
    else (count, s)

/-- The screen goes dark. -/
def screenOff (c : Context σ) (s : Scheduler σ) : Nat × Scheduler σ :=
  s.cancelWhere c .cancelledByScreenOff fun v => c.policy.endsOnScreenOff v.uid v.attributes

/-- Brings the actuator in line with the always-on registry and the policy. -/
def refreshAlwaysOn (c : Context σ) (s : Scheduler σ) : Scheduler σ :=
  if s.alwaysOn.isEmpty then s
  else
    match s.reach c with
    | (.error _, s) => s
    | (.ok (), s) =>
      match AlwaysOn.refresh (issue c) c.policy s.alwaysOn s with
      | (_, alwaysOn, s) => { s with alwaysOn }

/-- The settings have changed. -/
def settingsChanged (c : Context σ) (s : Scheduler σ) : Nat × Scheduler σ :=
  match s.cancelWhere c .cancelledBySettingsUpdate fun v => c.policy.mutes v.uid v.attributes with
  | (count, s) => (count, s.refreshAlwaysOn c)

/-- The telephone rings or is hung up. A call ends streams. -/
def setCallState (c : Context σ) (callState : CallState) (s : Scheduler σ) : Nat × Scheduler σ :=
  if callState.isCalling then
    { s with callState }.cancelWhere c .cancelledBySettingsUpdate fun v => v.effect.isStream
  else (0, { s with callState })

/-! ## What goes to the actuator directly -/

/-- Carries out an always-on request; whether the actuator could and did follow it. -/
def setAlwaysOn (c : Context σ) (request : AlwaysOnRequest) (s : Scheduler σ) :
    Bool × Scheduler σ :=
  match s.info? c with
  | (none, s) => (false, s)
  | (some info, s) =>
    if !info.can .alwaysOnControl then (false, s)
    else
      match AlwaysOn.apply (issue c) c.policy s.alwaysOn request s with
      | (.ok (), alwaysOn, s) => (true, { s with alwaysOn })
      | (.error _, alwaysOn, s) => (false, { s with alwaysOn })

/-- Whether a vibration plays a stream and belongs to a client, if one is given. -/
def takesControls (token : Option Nat) (p : Playback) : Bool :=
  p.hasStreamInFlight && !p.stopping && token.all (· = p.vibration.token)

/-- Changes the controls of the running stream; whether there is one and the actuator did it. -/
def updateControls (c : Context σ) (controls : Controls) (token : Option Nat) (s : Scheduler σ) :
    Bool × Scheduler σ :=
  if s.current.any (takesControls token) then
    match s.issueIfConnected c (.controls controls) with
    | (.ok _, s) => (true, s)
    | (.error _, s) => (false, s)
  else (false, s)

/-- The parameter that sets the mode of the actuator. -/
def modeParameter (mode : Word) : List Word := [1, mode]

/-- Stops what is playing: by cancelling it or, if there is nothing to cancel, by telling the
actuator. -/
def quiesce (c : Context σ) (s : Scheduler σ) : Except Failure Unit × Scheduler σ :=
  match s.cancelCurrent c .cancelledBySettingsUpdate with
  | (true, s) => (.ok (), s)
  | (false, s) =>
    match s.reachAndIssue c .stop with
    | (.ok _, s) => (.ok (), s)
    | (.error e, s) => (.error e, s)

/-- Stops what is playing and sets the mode of the actuator. -/
def setMode (c : Context σ) (mode : Word) (s : Scheduler σ) : Except Failure Unit × Scheduler σ :=
  match s.quiesce c with
  | (.error e, s) => (.error e, s)
  | (.ok (), s) =>
    match s.reachAndIssue c (.haptic (modeParameter mode)) with
    | (.ok _, s) => (.ok (), s)
    | (.error e, s) => (.error e, s)

/-! ## Questions -/

/-- Everything that the scheduler tells about itself. -/
def dump (s : Scheduler σ) : Dump :=
  { current := s.current.map fun p => p.vibration.info
    next := s.next.map fun p => p.vibration.info
    external := s.external.map fun session => session.info
    history := s.history.all
    externalHistory := s.history.externals
    alwaysOn := s.alwaysOn.info
    callState := s.callState }

/-- Whether no vibration holds the motor or waits for it. -/
def isIdle (s : Scheduler σ) : Bool := s.current.isNone && s.next.isNone

/-- Whether something vibrates: a vibration holds the motor, or a session has it. -/
def isVibrating (s : Scheduler σ) : Bool := s.current.isSome || s.external.any (·.active)

end Scheduler

end Haptics
