import Haptics.Actuator.Clock
import Haptics.Player

/-!
# Sessions on the bench

A session is a service with a motor on the bench, a user's settings, some players, and a clock. It
carries out *actions* one after another. The clock stands still while an action is carried out, and
moves only where somebody waits: an action can be followed by a wait for a condition, and a source
that asks for the motor waits for it, while further actions may be carried out.

After every call the events of the motor are handled until there are none. When time passes, the
timers of the motor and the deadline of the scheduler come in the order of their times, at equal
times the motor first.
-/

namespace Haptics

/-- What can be waited for. -/
inductive Condition where
  /-- No vibration holds the motor or waits for it; where the motor reports the end of its commands
  by itself, none is in flight either. -/
  | idle
  /-- A vibration holds the motor. -/
  | current (vibration : Nat)
  /-- The motor has obeyed so many commands. -/
  | commands (count : Nat)
  deriving DecidableEq

/-- An action in a session. -/
inductive Action where
  | vibrate (request : VibrationRequest)
  | submit (packet : Stream)
  | cancel (filter : UsageFilter) (token : Nat)
  | screenOff
  | settingsChanged
  | setCallState (state : CallState)
  /-- A source asks for the motor; if it has to wait, other actions are carried out meanwhile. -/
  | startExternal (request : ExternalRequest) (meanwhile : List Action)
  | stopExternal (id : Nat)
  | setAlwaysOn (request : AlwaysOnRequest)
  | updateControls (controls : Controls) (token : Option Nat)
  | setMode (mode : Word)
  | askInfo
  | dump
  | askConfig
  | describe
  | takeSequence
  | takeToken
  /-- Waits until the service is idle, so many milliseconds at most. -/
  | awaitIdle (ms : Nat)
  | shutdown
  | nothing
  | register (label : String)
  | unregister (id : Nat)
  | changeSettings (change : Settings → Settings)
  /-- The motor reports the end of the command in flight. -/
  | complete
  /-- The end of a command is reported whether it was in flight or not. -/
  | report (id : Nat)
  | kill
  | setAvailable (available : Bool)
  | setFailing (failing : Bool)
  | setFaults (faults : List FaultRule)
  | newPlayer (uid : Int) (package : String) (pid : Word) (attributes : Attributes)
  | play (player : Nat) (text : String) (request : PlayRequest)
  | update (player : Nat) (intervalMs amplitude frequency : Word)
  | stop (player : Nat)
  /-- An action, followed by a wait. -/
  | andAwait (action : Action) (condition : Condition)

/-- What comes of an action. -/
inductive Outcome where
  | nothing
  | flag (value : Bool)
  | number (value : Nat)
  | word (value : Word)
  | text (value : String)
  | report (value : VibrationReport)
  | fate (value : PacketFate)
  | scale (value : ExternalScale)
  /-- The answer to a source, and what came of the actions meanwhile if it had to wait. -/
  | handoff (answer : Except ServiceError ExternalScale) (meanwhile : Option (List Outcome))
  | info (value : Option ActuatorInfo)
  | dump (value : Dump)
  | config (value : Config)
  /-- The answer to a player, and whether it has played by now. -/
  | played (answer : Except ServiceError VibrationReport) (started : Bool)
  | error (error : ServiceError)

/-- A session on the bench. -/
structure Session where
  /-- The configuration of the service. -/
  config : Config
  /-- The policy, unless it follows the settings. -/
  policy : Option Policy := none
  /-- The service. -/
  service : Service Bench String
  /-- The time. -/
  now : Nat := 0
  /-- The user's settings. -/
  settings : Settings := {}
  /-- The players. -/
  players : List Player := []

/-- What is wrong with the set-up of a session. -/
inductive SessionError where
  | actuator (error : ActuatorError)
  | service (error : ServiceError)
  deriving DecidableEq

namespace Session

/-! ## Set-up -/

/-- A session with a motor and a service of the given configurations. -/
def create (motor : MotorConfig) (available : Bool) (config : Config) (policy : Option Policy) :
    Except SessionError Session :=
  match Motor.create motor with
  | .error e => .error (.actuator e)
  | .ok motor =>
    let bench : Bench := { motor, available }
    match Service.create config bench with
    | .error e => .error (.service (.configuration e))
    | .ok service => .ok { config, policy, service }

/-- The bench. -/
def bench (s : Session) : Bench := s.service.scheduler.line.actuator

/-- The context of a call at this time. -/
def context (s : Session) : Context Bench :=
  { device := Bench.device
    policy := s.policy.getD s.settings.policy
    config := s.config
    now := s.now }

/-- Changes the bench, with an answer. -/
def withBench {β : Type} (f : Bench → β × Bench) (s : Session) : β × Session :=
  match s.service.scheduler.line.withBench f with
  | (answer, line) =>
    let scheduler := { s.service.scheduler with line }
    (answer, { s with service := { s.service with scheduler } })

/-! ## Time -/

/-- How many calls a script can speak of. -/
def scriptLength (faults : List FaultRule) : Nat :=
  faults.foldr (fun rule length => rule.skip + rule.count + length) 0

/-- How many events are handled in a row: those that wait, and two for each command that the
vibrations can have started before they come to rest. A vibration that repeats comes to rest when a
call fails, which the script brings about within its length if it does so at all; one that never
comes to rest is left alone after a thousand more. -/
def eventLimit (t : Service Bench String) : Nat :=
  let extent (place : Option Playback) : Nat := (place.map (·.extent)).getD 0
  let bench := t.scheduler.line.actuator
  bench.motor.events.length +
    2 * (extent t.scheduler.current + extent t.scheduler.next + scriptLength bench.faults) + 1000

/-- Handles the events of the motor until there are none. -/
def settle (s : Session) : Session :=
  { s with service := s.service.handleEvents s.context (eventLimit s.service) }

/-- Handles what comes next by itself, if it comes up to a time: a timer of the motor or the
deadline of the scheduler. -/
def tick? (limit : Nat) (s : Session) : Option Session :=
  let deadline := if s.service.running then s.service.scheduler.deadline? else none
  let timer := s.bench.motor.nextTimer?
  let timerFirst (timer : MotorTimer) : Bool := deadline.all (timer.due ≤ ·)
  match timer.filter (fun t => timerFirst t.1 && t.1.due ≤ limit), deadline.filter (· ≤ limit) with
  | some (timer, place), _ =>
    let woken := s.withBench (·.withMotor fun m => ((), m.wake place))
    some { woken.2 with now := max s.now timer.due }.settle
  | none, some deadline =>
    let s := { s with now := max s.now deadline }
    some { s with service := s.service.handleDeadline s.context }.settle
  | none, none => none

/-- Lets time pass until something holds, or up to a time, in `fuel` ticks at most; whether it
holds. -/
def awaitUntil (holds : Session → Bool) (limit : Nat) : (fuel : Nat) → Session → Bool × Session
  | 0, s => (holds s, s)
  | fuel + 1, s =>
    if holds s then (true, s)
    else
      match s.tick? limit with
      | some s => awaitUntil holds limit fuel s
      | none => (false, { s with now := max s.now limit })

/-- How many ticks one wait can take. -/
def tickLimit : Nat := 1000000

/-- Lets time pass until something holds, for so long at most; whether it holds. -/
def await (holds : Session → Bool) (ms : Nat) (s : Session) : Bool × Session :=
  awaitUntil holds (s.now + ms) tickLimit s

/-- How long a condition is waited for, in milliseconds. -/
def patienceMs : Nat := 20000

/-- Whether a condition holds. -/
def satisfies (condition : Condition) (s : Session) : Bool :=
  let motor := s.bench.motor
  match condition with
  | .idle =>
    s.service.isIdle &&
      (motor.config.completion ≠ .afterDuration || motor.inFlight.isNone)
  | .current id => s.service.scheduler.current.any (·.id = id)
  | .commands count => count ≤ motor.commands.length

/-! ## Actions -/

/-- Makes a call to the service, and handles the events that it causes. -/
def call {β : Type} (f : Context Bench → Service Bench String → β × Service Bench String)
    (s : Session) : β × Session :=
  match f s.context s.service with
  | (answer, service) => (answer, { s with service }.settle)

/-- A call whose answer is shown in some way. -/
def ask {β : Type} (shown : β → Outcome)
    (f : Context Bench → Service Bench String → Except ServiceError β × Service Bench String)
    (s : Session) : Outcome × Session :=
  match s.call f with
  | (.ok answer, s) => (shown answer, s)
  | (.error e, s) => (.error e, s)

/-- Changes the bench, and handles the events that this causes. -/
def handle {β : Type} (f : Bench → β × Bench) (s : Session) : β × Session :=
  match s.withBench f with
  | (answer, s) => (answer, s.settle)

/-- Lets a player act. -/
def withPlayer (index : Nat)
    (f : Context Bench → Player → Service Bench String → Outcome × Player × Service Bench String)
    (s : Session) : Outcome × Session :=
  match s.players[index]? with
  | none => (.nothing, s)
  | some player =>
    match f s.context player s.service with
    | (outcome, player, service) =>
      (outcome, { s with service, players := s.players.set index player }.settle)

/-- Shows an answer or an error. -/
def shown {β : Type} (show? : β → Outcome) : Except ServiceError β → Outcome
  | .ok answer => show? answer
  | .error e => .error e

/-- The final answer to a source that waits, if there is one by now. -/
def handoff? (id : Nat) (scale : ExternalScale) (s : Session) :
    Option (Except ServiceError ExternalScale) :=
  s.service.handoff? id scale

/-- Lets a source wait for the motor up to a time. -/
def awaitHandoff (id : Nat) (scale : ExternalScale) (limit : Nat) (s : Session) :
    Except ServiceError ExternalScale × Session :=
  match awaitUntil (fun s => (s.handoff? id scale).isSome) limit tickLimit s with
  | (_, s) =>
    match s.handoff? id scale with
    | some answer => (answer, s)
    | none => s.call fun c service => service.giveUp c id scale

mutual

/-- Carries out an action. -/
def perform (s : Session) : Action → Outcome × Session
  | .vibrate r => s.ask .report fun c t => t.vibrate c r
  | .submit packet => s.ask .fate fun c t => t.submit c packet
  | .cancel filter token => s.ask .number fun c t => t.cancel c filter token
  | .screenOff => s.ask .number fun c t => t.screenOff c
  | .settingsChanged => s.ask .number fun c t => t.settingsChanged c
  | .setCallState state => s.ask .number fun c t => t.setCallState c state
  | .startExternal r meanwhile =>
    let finish (answer : Except ServiceError ExternalScale) (outcomes : Option (List Outcome)) :=
      if meanwhile.isEmpty then shown .scale answer else .handoff answer outcomes
    match s.call fun c t => t.startExternal c r with
    | (.error e, s) => (finish (.error e) none, s)
    | (.ok .rejected, s) => (finish (.ok .mute) none, s)
    | (.ok (.active scale), s) => (finish (.ok scale) none, s)
    | (.ok (.waiting scale), s) =>
      match s.handoff? r.id scale with
      | some answer => (finish answer none, s)
      | none =>
        let limit := s.now + s.config.cancelWaitMs
        match s.performMeanwhile r.id scale none meanwhile with
        | (some answer, outcomes, s) => (finish answer (some outcomes), s)
        | (none, outcomes, s) =>
          match s.awaitHandoff r.id scale limit with
          | (answer, s) => (finish answer (some outcomes), s)
  | .stopExternal id => s.ask (fun _ => .nothing) fun c t => t.stopExternal c id
  | .setAlwaysOn r => s.ask .flag fun c t => t.setAlwaysOn c r
  | .updateControls controls token => s.ask .flag fun c t => t.updateControls c controls token
  | .setMode mode => s.ask (fun _ => .nothing) fun c t => t.setMode c mode
  | .askInfo => s.ask .info fun c t => t.actuatorInfo c
  | .dump => s.ask .dump fun _ t => t.dump
  | .askConfig => (.config s.config, s)
  | .describe => (.text (s.service.describe s.config), s)
  | .takeSequence => s.call fun _ t => (.word t.takeSequence.1, t.takeSequence.2)
  | .takeToken => s.call fun _ t => (.number t.takeToken.1, t.takeToken.2)
  | .awaitIdle ms =>
    match s.await (fun s => s.service.isIdle) ms with
    | (idle, s) => (.flag idle, s)
  | .shutdown => s.call fun c t => (.nothing, t.shutdown c)
  | .nothing => (.nothing, s)
  | .register label => s.call fun _ t => (.number (t.register label).1, (t.register label).2)
  | .unregister id => s.call fun _ t => (.flag (t.unregister id).1, (t.unregister id).2)
  | .changeSettings change => (.nothing, { s with settings := change s.settings })
  | .complete =>
    match s.handle (·.withMotor Motor.completeInFlight) with
    | (found, s) => (.flag found, s)
  | .report id =>
    match s.handle (·.report id) with
    | (connected, s) => (.flag connected, s)
  | .kill => s.handle (·.withMotor fun m => (.nothing, m.kill))
  | .setAvailable available => s.handle fun b => (.nothing, b.setAvailable available)
  | .setFailing failing => s.handle (·.withMotor fun m => (.nothing, m.setFailing failing))
  | .setFaults faults => s.handle fun b => (.nothing, b.setFaults faults)
  | .newPlayer uid package pid attributes =>
    match s.call fun _ t => t.takeToken with
    | (token, s) =>
      (.number token,
        { s with players := s.players ++ [{ uid, package, pid, token, attributes }] })
  | .play index text r =>
    s.withPlayer index fun c player t =>
      match player.play (fun _ => c) (fun _ t => t.handleEvents c (eventLimit t)) text r t with
      | (answer, player, t) => (.played answer player.started, player, t)
  | .update index intervalMs amplitude frequency =>
    s.withPlayer index fun c player t =>
      match player.update c intervalMs amplitude frequency t with
      | (answer, t) => (shown .flag answer, player, t)
  | .stop index =>
    s.withPlayer index fun c player t =>
      match player.stop c t with
      | (answer, t) => (shown .number answer, player, t)
  | .andAwait action condition =>
    match s.perform action with
    | (outcome, s) => (outcome, (s.await (satisfies condition) patienceMs).2)

/-- Carries out actions while a source waits for the motor: the final answer to the source as soon
as there is one, and what came of the actions. -/
def performMeanwhile (s : Session) (id : Nat) (scale : ExternalScale)
    (answer : Option (Except ServiceError ExternalScale)) :
    List Action → Option (Except ServiceError ExternalScale) × List Outcome × Session
  | [] => (answer, [], s)
  | action :: rest =>
    match s.perform action with
    | (outcome, s) =>
      match s.performMeanwhile id scale (answer.or (s.handoff? id scale)) rest with
      | (answer, outcomes, s) => (answer, outcome :: outcomes, s)

end

/-- Waits for a condition, if there is one; whether it came to hold. -/
def awaitCondition (condition : Option Condition) (s : Session) : Option Bool × Session :=
  match condition with
  | none => (none, s)
  | some condition =>
    match s.await (satisfies condition) patienceMs with
    | (held, s) => (some held, s)

/-- Takes what the listeners have been told since the last time. -/
def takeTold (s : Session) : List (String × Bool) × Session :=
  (s.service.told, { s with service := { s.service with told := [] } })

end Session

end Haptics
