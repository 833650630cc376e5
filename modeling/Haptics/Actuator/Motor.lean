import Haptics.Actuator.Device
import Haptics.Table

/-!
# A simulated motor

The motor keeps a log of the commands it has obeyed and remembers which vibration its last start
command was for (`inFlight`). When that command has come to its end it says so, once: at once, when
the time of the command has passed, or when it is told to, depending on its mode.

Every start, every `off` and every loss of the connection opens a new *generation*. A timer carries
the generation it was set in and does nothing in a later one (`Motor.finish`), so a command that was
replaced or cut off is never reported as finished.

`Motor.refusal?` says when an order is refused; a refused order leaves the motor as it is.
-/

namespace Haptics

/-- When a motor reports that a command has come to its end. -/
inductive CompletionMode where
  /-- While the command is given. -/
  | immediate
  /-- When the time of the command has passed. -/
  | afterDuration
  /-- When it is told to. -/
  | manual
  deriving DecidableEq

/-- The name of a completion mode. -/
def CompletionMode.name : CompletionMode → String
  | .immediate => "Immediate"
  | .afterDuration => "AfterDuration"
  | .manual => "Manual"

/-- How a motor is set up. -/
structure MotorConfig where
  /-- What it is called. -/
  name : String := "sim-vibrator"
  /-- What it says about itself. -/
  info : ActuatorInfo := ActuatorInfo.ofParts 1 0x17 0 ActuatorInfo.allCapabilities
  /-- When it reports the end of a command. -/
  completion : CompletionMode := .afterDuration
  /-- How long an effect from the hardware takes, in milliseconds. -/
  prebakedMs : Nat := 30
  deriving DecidableEq

/-- A motor needs a name and a major version. -/
def MotorConfig.check (c : MotorConfig) : Except ActuatorError Unit :=
  if c.name.isEmpty then .error (.invalidConfig .nameEmpty)
  else if c.info.major = 0 then .error (.invalidConfig .majorMissing)
  else .ok ()

/-- The channel and the number of an always-on effect. -/
structure AlwaysOnKey where
  /-- The channel of the actuator. -/
  channel : UInt8
  /-- The number under which the effect was asked for. -/
  id : Int
  deriving DecidableEq

instance : Ranked AlwaysOnKey :=
  ⟨fun a b => a.channel < b.channel || (a.channel = b.channel && a.id < b.id)⟩

/-- A wake-up call for the end of a command. -/
structure MotorTimer where
  /-- When it goes off. -/
  due : Nat
  /-- The generation it was set in. -/
  generation : Nat
  deriving DecidableEq

/-- The state of a motor. -/
structure Motor where
  /-- How it is set up. -/
  config : MotorConfig
  /-- The commands it has obeyed, oldest first. -/
  commands : List Command := []
  /-- Whether it is moving. -/
  vibrating : Bool := false
  /-- The amplitude it was last set to. -/
  amplitude : UInt8 := 255
  /-- Whether an external source drives it. -/
  externalControl : Bool := false
  /-- The always-on effects. -/
  alwaysOn : Table AlwaysOnKey Prebaked := []
  /-- The controls it was last sent. -/
  controls : Option Controls := none
  /-- The vendor's parameters it was last sent. -/
  hapticParams : List Word := []
  /-- The vibration whose command has not come to its end. -/
  inFlight : Option Nat := none
  /-- How many ends it has reported. -/
  completions : Nat := 0
  /-- Whether it refuses every order. -/
  failing : Bool := false
  /-- The number of the current generation. -/
  generation : Nat := 0
  /-- Whether somebody listens for its events. -/
  attached : Bool := false
  /-- The events that have been sent and not been heard, oldest first. -/
  events : List ActuatorEvent := []
  /-- The timers that have not gone off. -/
  timers : List MotorTimer := []
  deriving DecidableEq

namespace Motor

/-- A motor of the given set-up. -/
def create (config : MotorConfig) : Except ActuatorError Motor :=
  match config.check with
  | .ok () => .ok { config }
  | .error e => .error e

/-! ## The end of a command -/

/-- Reports the end of the command in flight, if it is of the given generation. -/
def finish (m : Motor) (generation : Nat) : Bool × Motor :=
  if m.generation ≠ generation then (false, m)
  else
    match m.inFlight with
    | none => (false, m)
    | some id =>
      (true,
        { m with
          inFlight := none
          vibrating := false
          completions := m.completions + 1
          events := if m.attached then m.events ++ [.complete id] else m.events })

/-- Ends the command in flight by hand; whether there was one. -/
def completeInFlight (m : Motor) : Bool × Motor :=
  m.finish m.generation

/-- Lets the timer at a place in the list go off. -/
def wake (m : Motor) (place : Nat) : Motor :=
  match m.timers[place]? with
  | none => m
  | some timer => ({ m with timers := m.timers.eraseIdx place }.finish timer.generation).2

/-! ## Connections -/

/-- Somebody starts to listen. -/
def attach (m : Motor) : Motor := { m with attached := true }

/-- The listener is gone, and with it the command in flight; whether there was one. -/
def detach (m : Motor) : Bool × Motor :=
  (m.attached,
    { m with
      inFlight := none
      vibrating := false
      generation := m.generation + 1
      attached := false })

/-- The connection breaks: the listener hears of it and is gone. -/
def kill (m : Motor) : Motor :=
  match m.detach with
  | (true, m) => { m with events := m.events ++ [.died] }
  | (false, m) => m

/-- Takes the oldest event that has not been heard. -/
def hear (m : Motor) : Option (ActuatorEvent × Motor) :=
  match m.events with
  | [] => none
  | event :: rest => some (event, { m with events := rest })

/-! ## Orders -/

/-- The capability that an order needs, with its name in an error. -/
def need? : Order → Option (Capability × String)
  | .setAmplitude _ => some (.amplitudeControl, "amplitude control")
  | .envelope _ _ _ => some (.envelope, "envelope")
  | .stream _ _ => some (.compiledPatterns, "compiled patterns")
  | .controls _ => some (.compiledPatterns, "pattern parameters")
  | .externalControl _ => some (.externalControl, "external control")
  | .alwaysOnEnable _ _ _ | .alwaysOnDisable _ _ => some (.alwaysOnControl, "always-on")
  | .on _ _ | .off | .prebaked _ _ | .haptic _ | .stop => none

/-- The capability that an order needs and the motor lacks, by its name. -/
def missing? (m : Motor) (o : Order) : Option String :=
  match need? o with
  | some (capability, operation) => if m.config.info.can capability then none else some operation
  | none => none

/-- Why an order is refused. -/
def refusal? (m : Motor) (o : Order) : Option ActuatorError :=
  match m.missing? o with
  | some operation => some (.unsupported operation)
  | none =>
    if m.failing then some (.fault "injected failure")
    else if o.owner?.isSome && !m.attached then some .offline
    else none

/-- How long a start order takes, where that is known. -/
def span? (m : Motor) : Order → Option Nat
  | .on durationMs _ => some durationMs
  | .prebaked _ _ => some m.config.prebakedMs
  | .envelope params _ _ => some (params.getD 9 0).toInt.toNat
  | .stream stream _ => stream.hintMs
  | _ => none

/-- The duration that the motor reports for an order; zero where it reports none. -/
def reported (m : Motor) : Order → Nat
  | .on durationMs _ => durationMs
  | .prebaked _ _ => m.config.prebakedMs
  | _ => 0

/-- Notes an order in the log. -/
def note (m : Motor) (o : Order) : Motor :=
  { m with commands := m.commands ++ [o.command] }

/-- Starts an order for a vibration. -/
def start (m : Motor) (now : Nat) (o : Order) (id : Nat) : Motor :=
  let started :=
    { m.note o with vibrating := true, inFlight := some id, generation := m.generation + 1 }
  match m.config.completion with
  | .immediate => (started.finish started.generation).2
  | .afterDuration =>
    match m.span? o with
    | some ms =>
      { started with
        timers := started.timers ++ [{ due := now + ms, generation := started.generation }] }
    | none => started
  | .manual => started

/-- Carries out an order that is not refused. -/
def obey (m : Motor) (now : Nat) (o : Order) : Motor :=
  match o with
  | .on _ id | .prebaked _ id | .envelope _ _ id | .stream _ id => m.start now o id
  | .off =>
    { m.note o with vibrating := false, inFlight := none, generation := m.generation + 1 }
  | .setAmplitude amplitude => { m.note o with amplitude }
  | .controls controls => { m.note o with controls := some controls }
  | .haptic params => { m.note o with hapticParams := params }
  | .stop =>
    let stopped := { m.note o with vibrating := false }
    match m.config.completion with
    | .manual => stopped
    | .immediate | .afterDuration => (stopped.finish stopped.generation).2
  | .externalControl enabled => { m.note o with externalControl := enabled }
  | .alwaysOnEnable channel id effect =>
    { m.note o with alwaysOn := m.alwaysOn.insert ⟨channel, id⟩ effect }
  | .alwaysOnDisable channel id => { m.note o with alwaysOn := m.alwaysOn.erase ⟨channel, id⟩ }

/-- Gives an order at a time: it is refused and nothing changes, or it is carried out. -/
def perform (now : Nat) (o : Order) (m : Motor) : Except ActuatorError Nat × Motor :=
  match m.refusal? o with
  | some e => (.error e, m)
  | none => (.ok (m.reported o), m.obey now o)

/-- A refused order leaves the motor as it is. -/
theorem perform_of_refusal {now : Nat} {o : Order} {m : Motor} {e : ActuatorError}
    (h : m.refusal? o = some e) : perform now o m = (.error e, m) := by
  simp [perform, h]

/-- An order that is not refused is carried out. -/
theorem perform_of_accepted {now : Nat} {o : Order} {m : Motor} (h : m.refusal? o = none) :
    perform now o m = (.ok (m.reported o), m.obey now o) := by
  simp [perform, h]

end Motor

end Haptics
