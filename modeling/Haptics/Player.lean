import Haptics.Compile
import Haptics.Service

/-!
# Players

A player plays documents for one client. It looks at the version of a document first, and asks
whether the actuator plays it; only then the document is read and compiled. The first stream is
requested as a vibration, the others are submitted as packets until one is dropped.

Between the calls that a player makes, time passes and the service may be called by others. Both are
given as functions: the player's `n`-th call finds the context `c n`, and `others n` is what happens
behind it.

Once a player has played, the controls of its stream can be changed and its vibrations cancelled.
Before, both do nothing.
-/

namespace Haptics

/-- A client that plays documents. -/
structure Player where
  /-- The user the client runs as. -/
  uid : Int
  /-- The client's package. -/
  package : String
  /-- The client's process, which its transmissions are named for. -/
  pid : Word
  /-- The client. -/
  token : Nat
  /-- Usage and flags of its vibrations. -/
  attributes : Attributes := { usage := .media }
  /-- Whether it has played. -/
  started : Bool := false
  deriving DecidableEq

/-- How a player is asked to play: each number is a word, where `-1` stands for the usual. -/
structure PlayRequest where
  /-- How often. -/
  loop : Word := -1
  /-- The pause between two plays, in milliseconds. -/
  intervalMs : Word := -1
  /-- The amplitude, from 1 to 255. -/
  amplitude : Word := -1
  /-- The frequency. -/
  frequency : Word := -1
  deriving DecidableEq

namespace Player

variable {σ α : Type}

/-- Checks controls that a client gives. An amplitude of zero is kept for stopping. -/
def checkControls (intervalMs amplitude frequency : Word) : Except Failure Controls :=
  if amplitude = 0 then .error (.outOfRange .amplitude)
  else Controls.check intervalMs amplitude frequency

/-- A number, or what is usual. -/
def orUsual (value usual : Word) : Word :=
  if value = Controls.unchanged then usual else value

/-- The options that a request stands for. -/
def options (loop : LoopCount) (controls : Controls) : PlayOptions :=
  let usual : PlayOptions := {}
  { loop
    intervalMs := orUsual controls.intervalMs usual.intervalMs
    amplitude := orUsual controls.amplitude usual.amplitude
    frequency := orUsual controls.frequency usual.frequency }

/-- What can be said of a request before the actuator is asked: its options, and the version that
the document says it has. -/
def prepare (text : String) (r : PlayRequest) : Except Failure (PlayOptions × Version) := do
  let controls ← checkControls r.intervalMs r.amplitude r.frequency
  let loop ← LoopCount.ofWord r.loop
  let version ← HapticDocument.declaredVersion text
  return (options loop controls, version)

/-- The document, if the actuator plays its version. -/
def readFor (info : Option ActuatorInfo) (version : Version) (text : String) :
    Except Failure HapticDocument :=
  match info with
  | none => .error (.unavailable .absent)
  | some info =>
    if info.playsVersion version.number then HapticDocument.read text
    else .error (.unsupportedVersion version.number)

/-- The name of a transmission of the player. A version 1 document is no transmission and takes no
number. -/
def takeSender (p : Player) (version : Version) (s : Service σ α) : SenderId × Service σ α :=
  match version with
  | .one => (⟨p.pid, 0⟩, s)
  | .two =>
    match s.takeSequence with
    | (seq, s) => (⟨p.pid, seq⟩, s)

/-- Submits packets until one is dropped. -/
def submitAll (c : Nat → Context σ) (others : Nat → Service σ α → Service σ α) :
    (calls : Nat) → List Stream → Service σ α → Except ServiceError Unit × Service σ α
  | _, [], s => (.ok (), s)
  | calls, packet :: rest, s =>
    match s.submit (c calls) packet with
    | (.ok (.forwarded _), s) => submitAll c others (calls + 1) rest (others calls s)
    | (.ok .dropped, s) => (.ok (), others calls s)
    | (.error e, s) => (.error e, others calls s)

/-- Requests the first stream as a vibration and submits the others. -/
def send (c : Nat → Context σ) (others : Nat → Service σ α → Service σ α) (streams : List Stream)
    (p : Player) (s : Service σ α) : Except ServiceError VibrationReport × Player × Service σ α :=
  match streams with
  | [] => (.error (.failure (.malformed .nothingCompiled)), p, s)
  | first :: rest =>
    let request : VibrationRequest :=
      { uid := p.uid, package := p.package, token := p.token, attributes := p.attributes,
        effect := .stream first }
    match s.vibrate (c 1) request with
    | (.error e, s) => (.error e, p, others 1 s)
    | (.ok report, s) =>
      match submitAll c others 2 rest (others 1 s) with
      | (.ok (), s) => (.ok report, { p with started := true }, s)
      | (.error e, s) => (.error e, { p with started := true }, s)

/-- Plays a document. -/
def play (c : Nat → Context σ) (others : Nat → Service σ α → Service σ α) (text : String)
    (r : PlayRequest) (p : Player) (s : Service σ α) :
    Except ServiceError VibrationReport × Player × Service σ α :=
  match prepare text r with
  | .error e => (.error (.failure e), p, s)
  | .ok (options, version) =>
    match s.actuatorInfo (c 0) with
    | (.error e, s) => (.error e, p, others 0 s)
    | (.ok info, s) =>
      match readFor info version text with
      | .error e => (.error (.failure e), p, others 0 s)
      | .ok document =>
        match p.takeSender version (others 0 s) with
        | (sender, s) =>
          p.send c others (document.compile options sender (c 0).config.transientTailMs) s

/-- Changes the controls of the player's stream; whether it plays and the actuator did it. -/
def update (c : Context σ) (intervalMs amplitude frequency : Word) (p : Player)
    (s : Service σ α) : Except ServiceError Bool × Service σ α :=
  if p.started then
    match checkControls intervalMs amplitude frequency with
    | .error e => (.error (.failure e), s)
    | .ok controls => s.updateControls c controls (some p.token)
  else (.ok false, s)

/-- Cancels the player's vibrations; how many they were. -/
def stop (c : Context σ) (p : Player) (s : Service σ α) : Except ServiceError Nat × Service σ α :=
  if p.started then s.cancel c .all p.token else (.ok 0, s)

end Player

end Haptics
