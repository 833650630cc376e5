import Haptics.Listeners
import Haptics.Scheduler.Run
import Haptics.Service.Error

/-!
# The vibration service

The service is what clients talk to. It checks their requests before the scheduler sees them,
numbers vibrations, transmissions and clients, and tells listeners whether something vibrates. After
it has been shut down the scheduler does not answer any more, but numbers are still given out.

A source that asks for the motor may have to wait for it. `Service.startExternal` gives the first
answer; while the source waits, `Service.handoff?` says whether there is a final one, and if its
patience ends before, `Service.giveUp` gives it.
-/

namespace Haptics

/-- The service: actuators have states `σ`, listeners are of type `α`. -/
structure Service (σ α : Type) where
  /-- The scheduler. -/
  scheduler : Scheduler σ
  /-- Whether the scheduler answers. -/
  running : Bool := true
  /-- The number of the next vibration. -/
  nextVibration : Nat := 1
  /-- The number of the next transmission. -/
  nextSequence : Word := 1
  /-- The number of the next client. -/
  nextToken : Nat := 1
  /-- The listeners. -/
  listeners : Listeners α := {}
  /-- What the listeners have been told, the latest last. -/
  told : List (α × Bool) := []

namespace Service

variable {σ α : Type}

/-- A service of the given configuration, at its start. -/
def create (config : Config) (actuator : σ) : Except ConfigError (Service σ α) :=
  config.check.map fun _ => { scheduler := .create config actuator }

/-! ## Talking to the scheduler -/

/-- Tells the listeners whether something vibrates, if they do not know. -/
def tell (vibrating : Bool) (s : Service σ α) : Service σ α :=
  match s.listeners.notify vibrating with
  | (deliveries, listeners) => { s with listeners, told := s.told ++ deliveries }

/-- The scheduler has a new state. -/
def update (scheduler : Scheduler σ) (s : Service σ α) : Service σ α :=
  { s with scheduler }.tell scheduler.isVibrating

/-- Makes a call to the scheduler, if it answers. -/
def call {β : Type} (f : Scheduler σ → β × Scheduler σ) (s : Service σ α) :
    Except ServiceError β × Service σ α :=
  if s.running then
    match f s.scheduler with
    | (answer, scheduler) => (.ok answer, s.update scheduler)
  else (.error (.stopped .queueClosed), s)

/-- Handles the oldest event of the actuator that waits to be heard, if there is one. -/
def handleEvent? (c : Context σ) (s : Service σ α) : Option (Service σ α) :=
  if s.running then
    (s.scheduler.hear c).map fun (event, scheduler) => s.update (scheduler.handleEvent c event)
  else none

/-- Handles the events that wait to be heard, and those that come while it does, up to a number of
them. -/
def handleEvents (c : Context σ) : (limit : Nat) → Service σ α → Service σ α
  | 0, s => s
  | limit + 1, s =>
    match s.handleEvent? c with
    | some s => handleEvents c limit s
    | none => s

/-- Handles a deadline that has come. -/
def handleDeadline (c : Context σ) (s : Service σ α) : Service σ α :=
  if s.running then s.update (s.scheduler.handleDeadline c) else s

/-! ## Vibrations -/

/-- What a request has to pass before the scheduler sees it: its effect must be allowed, and must
not go on with a transmission that another request has opened. -/
def checkRequest (r : VibrationRequest) : Except Failure Unit :=
  match r.effect.check with
  | .error e => .error e
  | .ok () =>
    match r.effect with
    | .stream s => if s.isContinuation then .error (.malformed .continuation) else .ok ()
    | _ => .ok ()

/-- Asks for a vibration: its number, and where it stands. -/
def vibrate (c : Context σ) (r : VibrationRequest) (s : Service σ α) :
    Except ServiceError VibrationReport × Service σ α :=
  match checkRequest r with
  | .error e => (.error (.failure e), s)
  | .ok () =>
    let id := s.nextVibration
    match { s with nextVibration := id + 1 }.call fun t => t.vibrate c (.ofRequest id r) with
    | (.ok status, s) => (.ok { id, status }, s)
    | (.error e, s) => (.error e, s)

/-- Submits a packet that goes on with a transmission. -/
def submit (c : Context σ) (packet : Stream) (s : Service σ α) :
    Except ServiceError PacketFate × Service σ α :=
  s.call fun t => t.packet c packet

/-- Cancels what a client has asked for; how much that was. -/
def cancel (c : Context σ) (filter : UsageFilter) (token : Nat) (s : Service σ α) :
    Except ServiceError Nat × Service σ α :=
  s.call fun t => t.cancel c filter token

/-- The screen goes dark; how many vibrations that ends. -/
def screenOff (c : Context σ) (s : Service σ α) : Except ServiceError Nat × Service σ α :=
  s.call fun t => t.screenOff c

/-- The settings have changed; how many vibrations that ends. -/
def settingsChanged (c : Context σ) (s : Service σ α) : Except ServiceError Nat × Service σ α :=
  s.call fun t => t.settingsChanged c

/-- The telephone rings or is hung up; how many vibrations that ends. -/
def setCallState (c : Context σ) (state : CallState) (s : Service σ α) :
    Except ServiceError Nat × Service σ α :=
  s.call fun t => t.setCallState c state

/-! ## External sources -/

/-- A source asks for the motor. -/
def startExternal (c : Context σ) (r : ExternalRequest) (s : Service σ α) :
    Except ServiceError ExternalAnswer × Service σ α :=
  s.call fun t => t.startExternal c r

/-- The final answer to a source that waits for the motor with its session `id` and a scale, if
there is one. -/
def handoff? (id : Nat) (scale : ExternalScale) (s : Service σ α) :
    Option (Except ServiceError ExternalScale) :=
  match s.scheduler.external.filter (·.id = id) with
  | some session =>
    if session.active then some (.ok scale)
    else if s.running then none
    else some (.error (.stopped .duringHandoff))
  | none => if s.running then some (.ok .mute) else some (.error (.stopped .duringHandoff))

/-- A source has waited in vain: its session ends, unless it has the motor by now. -/
def giveUp (c : Context σ) (id : Nat) (scale : ExternalScale) (s : Service σ α) :
    Except ServiceError ExternalScale × Service σ α :=
  match s.call fun t => t.externalTimedOut c id with
  | (.ok true, s) => (.ok scale, s)
  | (.ok false, s) => (.error (.failure (.timedOut c.config.cancelWaitMs)), s)
  | (.error e, s) => (.error e, s)

/-- A source gives the motor back. -/
def stopExternal (c : Context σ) (id : Nat) (s : Service σ α) :
    Except ServiceError Unit × Service σ α :=
  match s.call fun t => t.stopExternal c id with
  | (.ok true, s) => (.ok (), s)
  | (.ok false, s) => (.error (.unknownExternal id), s)
  | (.error e, s) => (.error e, s)

/-! ## The actuator -/

/-- Sets or clears always-on effects; whether the actuator could and did follow. -/
def setAlwaysOn (c : Context σ) (r : AlwaysOnRequest) (s : Service σ α) :
    Except ServiceError Bool × Service σ α :=
  s.call fun t => t.setAlwaysOn c r

/-- Changes the controls of the running stream, of a client only if one is given. -/
def updateControls (c : Context σ) (controls : Controls) (token : Option Nat) (s : Service σ α) :
    Except ServiceError Bool × Service σ α :=
  s.call fun t => t.updateControls c controls token

/-- Stops what is playing and sets the mode of the actuator. -/
def setMode (c : Context σ) (mode : Word) (s : Service σ α) :
    Except ServiceError Unit × Service σ α :=
  match s.call fun t => t.setMode c mode with
  | (.ok (.ok ()), s) => (.ok (), s)
  | (.ok (.error e), s) => (.error (.failure e), s)
  | (.error e, s) => (.error e, s)

/-- What the actuator says about itself, if it can be reached. -/
def actuatorInfo (c : Context σ) (s : Service σ α) :
    Except ServiceError (Option ActuatorInfo) × Service σ α :=
  s.call fun t => t.info? c

/-! ## Questions and numbers -/

/-- Everything that the scheduler tells about itself. -/
def dump (s : Service σ α) : Except ServiceError Dump × Service σ α :=
  s.call fun t => (t.dump, t)

/-- Whether no vibration holds the motor or waits for it. -/
def isIdle (s : Service σ α) : Bool := s.scheduler.isIdle

/-- Gives out the number of a transmission. -/
def takeSequence (s : Service σ α) : Word × Service σ α :=
  (s.nextSequence, { s with nextSequence := s.nextSequence + 1 })

/-- Gives out the number of a client. -/
def takeToken (s : Service σ α) : Nat × Service σ α :=
  (s.nextToken, { s with nextToken := s.nextToken + 1 })

/-- The number of a vibration shown to a reader. -/
def describePlace (place : Option Playback) : String :=
  match place with
  | none => "None"
  | some p => "Some(" ++ toString p.id ++ ")"

/-- The service shown to a reader. -/
def describe (config : Config) (s : Service σ α) : String :=
  "VibrationScheduler \x7b worker: " ++ Text.quoted config.workerName ++
    ", current: " ++ describePlace s.scheduler.current ++
    ", next: " ++ describePlace s.scheduler.next ++
    ", vibrating: " ++ toString s.scheduler.isVibrating ++ " \x7d"

/-! ## Listeners and the end -/

/-- Registers a listener, which hears the state at once; its number. -/
def register (listener : α) (s : Service σ α) : Nat × Service σ α :=
  match s.listeners.register listener with
  | (id, deliveries, listeners) => (id, { s with listeners, told := s.told ++ deliveries })

/-- Takes a listener off the list; whether it was on it. -/
def unregister (id : Nat) (s : Service σ α) : Bool × Service σ α :=
  match s.listeners.unregister id with
  | (found, listeners) => (found, { s with listeners })

/-- Stops everything. From then on the scheduler does not answer. -/
def shutdown (c : Context σ) (s : Service σ α) : Service σ α :=
  if s.running then
    { s with scheduler := s.scheduler.stopAll c, running := false }.tell false
  else s

end Service

end Haptics
