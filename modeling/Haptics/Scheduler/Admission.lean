import Haptics.Precedence
import Haptics.Scheduler.Slot

/-!
# Letting vibrations and packets in

A request is turned away if its client may not vibrate, if there is an external session, or if the
vibration that holds the motor has precedence. A request that is let in replaces the one that waits
and cancels the one that holds the motor; it begins as soon as the motor is free.

A packet is let in as long as the transmission it belongs to is admitted. It is sent at once if the
stream plays, and queued if the vibration still waits.
-/

namespace Haptics

/-- What becomes of a packet. -/
inductive PacketFate where
  /-- It goes to the stream of a vibration. -/
  | forwarded (vibration : Nat)
  /-- It is dropped. -/
  | dropped
  deriving DecidableEq

namespace Scheduler

variable {σ : Type}

/-! ## Vibrations -/

/-- Why a request is turned away. -/
def refusal? (c : Context σ) (v : Vibration) (s : Scheduler σ) : Option Status :=
  if !c.policy.allows v.uid v.package v.attributes then some .ignoredAppOps
  else if s.external.isSome then some .ignoredForExternal
  else s.current.bind fun p => p.vibration.refusal? v

/-- Where the vibration of a number stands: in its place, or in the history. -/
def statusOf (id : Nat) (s : Scheduler σ) : Status :=
  match (s.current.toList ++ s.next.toList).find? fun p => p.id = id with
  | some p => p.vibration.status
  | none => ((s.history.find? id).map (·.status)).getD .finished

/-- A vibration takes the motor, which is free. -/
def occupy (c : Context σ) (p : Playback) (s : Scheduler σ) : Scheduler σ :=
  match s.begin c p with
  | (true, s) => s.release c
  | (false, s) => s

/-- The packets of a vibration that is let in are let in too. -/
def letIn (v : Vibration) (s : Scheduler σ) : Scheduler σ :=
  { s with admitted := v.sender.or s.admitted }

/-- A vibration that is let in: the one that waits goes, the one that holds the motor is
cancelled. -/
def place (c : Context σ) (v : Vibration) (s : Scheduler σ) : Scheduler σ :=
  let s := (s.dropNext c .ignoredSuperseded).letIn v
  match s.current with
  | none => s.occupy c { vibration := v }
  | some _ =>
    ({ s with next := some { vibration := v } }.cancelCurrent c .cancelledSuperseded).2

/-- Carries out a request: where the vibration stands afterwards. -/
def vibrate (c : Context σ) (v : Vibration) (s : Scheduler σ) : Status × Scheduler σ :=
  match s.refusal? c v with
  | some status => (status, s.retire (v.finish status c.now))
  | none =>
    let s := s.place c v
    (s.statusOf v.id, s)

/-! ## Packets -/

/-- Whether a vibration plays the stream of a transmission and takes packets of it. -/
def takesPackets (sender : Option SenderId) (p : Playback) : Bool :=
  p.vibration.sender = sender && !p.stopping && p.hasStreamInFlight

/-- Sends a packet to the vibration that holds the motor. -/
def sendPacket (c : Context σ) (packet : Stream) (p : Playback) (s : Scheduler σ) :
    PacketFate × Scheduler σ :=
  match s.issueIfConnected c (.stream packet p.id) with
  | (.ok _, s) => (.forwarded p.id, s)
  | (.error _, s) => (.dropped, (s.failCurrent c).release c)

/-- Passes a packet on to the vibration that holds the motor, if it takes it. -/
def passPacket (c : Context σ) (packet : Stream) (s : Scheduler σ) : PacketFate × Scheduler σ :=
  match s.current with
  | none => (.dropped, s)
  | some p => if takesPackets packet.sender? p then s.sendPacket c packet p else (.dropped, s)

/-- Carries a packet to the vibration it belongs to. -/
def packet (c : Context σ) (packet : Stream) (s : Scheduler σ) : PacketFate × Scheduler σ :=
  if packet.sender? = none ∨ packet.sender? ≠ s.admitted then (.dropped, s)
  else
    match s.next with
    | none => s.passPacket c packet
    | some p =>
      if p.vibration.sender = packet.sender? then
        (.forwarded p.id, { s with next := some { p with packets := p.packets ++ [packet] } })
      else s.passPacket c packet

end Scheduler

end Haptics
