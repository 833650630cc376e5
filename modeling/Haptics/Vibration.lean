import Haptics.Effect
import Haptics.Status
import Haptics.Usage

/-!
# Vibrations

A client *requests* a vibration with an effect; admitted under a number, it is a `Vibration` with a
status. Its status starts `pending`, may become `running`, and then ends in a final status that
nothing changes any more (`Vibration.finish_of_ended`).

`VibrationInfo` is what is kept and shown of a vibration.
-/

namespace Haptics

/-- What a client asks for. -/
structure VibrationRequest where
  /-- The user the client runs as. -/
  uid : Int
  /-- The client's package. -/
  package : String
  /-- The client. -/
  token : Nat
  /-- Usage and flags. -/
  attributes : Attributes := {}
  /-- What it is to feel like. -/
  effect : Effect
  deriving DecidableEq

/-- A vibration under its number. -/
structure Vibration where
  /-- The number. -/
  id : Nat
  /-- The user the client runs as. -/
  uid : Int
  /-- The client's package. -/
  package : String
  /-- The client. -/
  token : Nat
  /-- Usage and flags. -/
  attributes : Attributes
  /-- What it feels like. -/
  effect : Effect
  /-- Where it stands, or how it ended. -/
  status : Status := .pending
  /-- When it ended. -/
  endedMs : Option Nat := none
  /-- The transmission it opens. -/
  sender : Option SenderId
  deriving DecidableEq

/-- What is kept and shown of a vibration. -/
structure VibrationInfo where
  /-- The number. -/
  id : Nat
  /-- The user the client runs as. -/
  uid : Int
  /-- The client's package. -/
  package : String
  /-- What it is for. -/
  usage : Usage
  /-- Where it stands, or how it ended. -/
  status : Status
  /-- The kind of its effect. -/
  effect : String
  /-- Whether it goes on until it is stopped. -/
  repeating : Bool
  /-- When it ended. -/
  endedMs : Option Nat
  deriving DecidableEq

/-- The answer to a request: the number of the vibration and where it stands. -/
structure VibrationReport where
  /-- The number. -/
  id : Nat
  /-- Where it stands. -/
  status : Status
  deriving DecidableEq

namespace Vibration

/-- A request under a number. -/
def ofRequest (id : Nat) (r : VibrationRequest) : Vibration :=
  { id
    uid := r.uid
    package := r.package
    token := r.token
    attributes := r.attributes
    effect := r.effect
    sender := r.effect.sender? }

/-- What the vibration is for. -/
def usage (v : Vibration) : Usage := v.attributes.usage

/-- Whether it goes on until it is stopped. -/
def isRepeating (v : Vibration) : Bool := v.effect.isRepeating

/-- Whether it has ended. -/
def hasEnded (v : Vibration) : Bool := v.status.isTerminal

/-- Marks the vibration as running, unless it has ended. -/
def start (v : Vibration) : Vibration :=
  if v.hasEnded then v else { v with status := .running }

/-- Ends the vibration at a time with a final status, unless it has ended. -/
def finish (v : Vibration) (status : Status) (now : Nat) : Vibration :=
  if v.hasEnded || !status.isTerminal then v
  else { v with status, endedMs := some now }

/-- Whether `finish` would end the vibration. -/
def canFinish (v : Vibration) (status : Status) : Bool :=
  !v.hasEnded && status.isTerminal

/-- What is kept and shown of the vibration. -/
def info (v : Vibration) : VibrationInfo :=
  { id := v.id
    uid := v.uid
    package := v.package
    usage := v.usage
    status := v.status
    effect := v.effect.kind
    repeating := v.isRepeating
    endedMs := v.endedMs }

/-- A vibration that has ended does not end again. -/
theorem finish_of_ended {v : Vibration} (h : v.hasEnded = true) (status : Status) (now : Nat) :
    v.finish status now = v := by
  simp [finish, h]

/-- A vibration that has not ended takes a final status and the time. -/
theorem finish_of_live {v : Vibration} {status : Status} (h : v.hasEnded = false)
    (hs : status.isTerminal = true) (now : Nat) :
    v.finish status now = { v with status, endedMs := some now } := by
  simp [finish, h, hs]

end Vibration

end Haptics
