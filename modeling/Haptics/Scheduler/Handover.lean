import Haptics.Scheduler.Slot

/-!
# Handing the motor to an external source

A source that asks for the motor is turned away if the actuator cannot be driven from outside or the
policy mutes it. Otherwise its session takes the place of the one that is there. If that one had the
motor, the new one has it at once; if not, the vibrations make way, and the session waits until the
motor is free.
-/

namespace Haptics

/-- The answer to a source that asks for the motor. -/
inductive ExternalAnswer where
  /-- It is turned away. -/
  | rejected
  /-- It has the motor. -/
  | active (scale : ExternalScale)
  /-- It waits for the motor. -/
  | waiting (scale : ExternalScale)
  deriving DecidableEq

namespace Scheduler

variable {σ : Type}

/-- The answer to a source whose session is there. -/
def answerFor (session : ExternalSession) : ExternalAnswer :=
  if session.active then .active session.scale else .waiting session.scale

/-- Puts a new session in place of the one that is there, if there is one. -/
def install (c : Context σ) (session : ExternalSession) (s : Scheduler σ) : Scheduler σ :=
  match s.external with
  | none => { s with external := some session }
  | some previous =>
    { s.dismiss c .cancelledSuperseded previous with external := some session }

/-- The vibrations make way for the session that waits. -/
def makeWay (c : Context σ) (s : Scheduler σ) : Scheduler σ :=
  (((s.dropNext c .ignoredForExternal).cancelCurrent c .cancelledSuperseded).2).activateExternal c

/-- The answer to the source whose session has been put in place with a scale. -/
def answerAfter (scale : ExternalScale) (s : Scheduler σ) : ExternalAnswer :=
  match s.external with
  | some session => if session.active then .active scale else .waiting scale
  | none => .rejected

/-- Puts a session in place that has been granted a scale. -/
def grant (c : Context σ) (request : ExternalRequest) (scale : ExternalScale) (s : Scheduler σ) :
    ExternalAnswer × Scheduler σ :=
  let session : ExternalSession := { request, scale }
  match s.external.any (·.active) with
  | true => (.active scale, (s.install c session).seize session)
  | false =>
    let s := (s.install c session).makeWay c
    (answerAfter scale s, s)

/-- Carries out the request of a source that has no session yet. -/
def openExternal (c : Context σ) (request : ExternalRequest) (s : Scheduler σ) :
    ExternalAnswer × Scheduler σ :=
  match s.info? c with
  | (none, s) => (.rejected, s)
  | (some info, s) =>
    if !info.can .externalControl then (.rejected, s)
    else if c.policy.externalScale request = .mute then (.rejected, s)
    else s.grant c request (c.policy.externalScale request)

/-- Carries out the request of an external source. A source whose session is there gets the answer
that its session has. -/
def startExternal (c : Context σ) (request : ExternalRequest) (s : Scheduler σ) :
    ExternalAnswer × Scheduler σ :=
  match s.external.filter (·.id = request.id) with
  | some session => (answerFor session, s)
  | none => s.openExternal c request

/-- A source has waited long enough: its session ends unless it has the motor by now. Whether it
has. -/
def externalTimedOut (c : Context σ) (id : Nat) (s : Scheduler σ) : Bool × Scheduler σ :=
  match s.external.filter (·.id = id) with
  | none => (false, s)
  | some session =>
    if session.active then (true, s) else (false, s.endExternal c .ignoredErrorScheduling)

/-- A source gives the motor back; whether its session was there. -/
def stopExternal (c : Context σ) (id : Nat) (s : Scheduler σ) : Bool × Scheduler σ :=
  if s.external.any (·.id = id) then (true, s.endExternal c .finished) else (false, s)

end Scheduler

end Haptics
