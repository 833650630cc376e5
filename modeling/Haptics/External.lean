import Haptics.Status
import Haptics.Usage

/-!
# External control

Another source, such as the sound system, can ask to drive the motor itself. Its *session* is
pending until the scheduler has handed the motor over, then active, and ends with a final status.
The answer to a request is a scale: by how much the source is to turn its vibration up or down,
where `mute` turns it away.
-/

namespace Haptics

/-- By how much an external source is to scale its vibration. -/
inductive ExternalScale where
  | mute
  | veryLow
  | low
  | none
  | high
  | veryHigh
  deriving DecidableEq

namespace ExternalScale

/-- Every scale, from the lowest to the highest. -/
def all : List ExternalScale := [mute, veryLow, low, none, high, veryHigh]

/-- The name of a scale. -/
def name : ExternalScale → String
  | mute => "Mute"
  | veryLow => "VeryLow"
  | low => "Low"
  | none => "None"
  | high => "High"
  | veryHigh => "VeryHigh"

/-- The number of a scale. -/
def level : ExternalScale → Int
  | mute => -100
  | veryLow => -2
  | low => -1
  | none => 0
  | high => 1
  | veryHigh => 2

end ExternalScale

/-- What an external source asks with. -/
structure ExternalRequest where
  /-- The number of the session, chosen by the source. -/
  id : Nat
  /-- The user the source runs as. -/
  uid : Int
  /-- The source's package. -/
  package : String
  /-- The client behind the source. -/
  token : Nat
  /-- Usage and flags. -/
  attributes : Attributes := { usage := .media }
  deriving DecidableEq

/-- A session of an external source. -/
structure ExternalSession where
  /-- What was asked for. -/
  request : ExternalRequest
  /-- The scale that was granted. -/
  scale : ExternalScale
  /-- Where the session stands, or how it ended. -/
  status : Status := .pending
  /-- Whether the motor has been handed over. -/
  active : Bool := false
  /-- When it ended. -/
  endedMs : Option Nat := .none
  deriving DecidableEq

/-- What is kept and shown of a session. -/
structure ExternalInfo where
  /-- The number of the session. -/
  id : Nat
  /-- The user the source runs as. -/
  uid : Int
  /-- The source's package. -/
  package : String
  /-- What it is for. -/
  usage : Usage
  /-- The scale that was granted. -/
  scale : ExternalScale
  /-- Where the session stands, or how it ended. -/
  status : Status
  /-- Whether the motor has been handed over. -/
  active : Bool
  /-- When it ended. -/
  endedMs : Option Nat
  deriving DecidableEq

namespace ExternalSession

/-- The number of the session. -/
def id (s : ExternalSession) : Nat := s.request.id

/-- The motor has been handed over. -/
def activate (s : ExternalSession) : ExternalSession :=
  { s with active := true, status := .running }

/-- The session ends at a time; a session that has ended keeps its status. -/
def finish (s : ExternalSession) (status : Status) (now : Nat) : ExternalSession :=
  if s.status.isTerminal then { s with active := false }
  else { s with status, endedMs := some now, active := false }

/-- What is kept and shown of the session. -/
def info (s : ExternalSession) : ExternalInfo :=
  { id := s.id
    uid := s.request.uid
    package := s.request.package
    usage := s.request.attributes.usage
    scale := s.scale
    status := s.status
    active := s.active
    endedMs := s.endedMs }

end ExternalSession

end Haptics
