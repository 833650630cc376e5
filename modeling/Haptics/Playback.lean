import Haptics.Actuator.Info
import Haptics.Actuator.Order
import Haptics.Vibration

/-!
# Playing a vibration

A vibration is played step by step. A waveform has a step for each of its entries, where entries
without length are left out and silent ones switch the motor off; every other effect is one step.

`Playback.nextStep` gives the steps one after another. `Step.orders` are the orders that a step
needs, in turn; its last order starts the motor, unless the step is silence. `Step.span` says how
long the step then takes.
-/

namespace Haptics

/-- A step of a vibration. -/
inductive Step where
  /-- Switch on with an amplitude. -/
  | on (durationMs : Nat) (amplitude : UInt8)
  /-- Stay silent. -/
  | off (durationMs : Nat)
  /-- Play an effect that lives in the hardware. -/
  | prebaked (effect : Prebaked)
  /-- Play an envelope. -/
  | envelope (envelope : Envelope)
  /-- Play a stream. -/
  | stream (stream : Stream)
  deriving DecidableEq

/-- How a step in flight comes to its end. -/
inductive Stage where
  /-- When its time has passed. -/
  | timed
  /-- When the actuator says so, or when its time has passed. -/
  | awaiting
  /-- A stream: when the actuator says so, or when its time has passed, if it has one. -/
  | stream
  deriving DecidableEq

namespace Step

/-- How the step comes to its end. -/
def stage : Step → Stage
  | off _ => .timed
  | on _ _ | prebaked _ | envelope _ => .awaiting
  | stream _ => .stream

/-- The orders of a step for vibration `id`, where `packets` continue its stream. The amplitude is
set only if the actuator lets it be set. -/
def orders (info : ActuatorInfo) (id : Nat) (packets : List Stream) : Step → List Order
  | on durationMs amplitude =>
    (if info.can .amplitudeControl then [.setAmplitude amplitude] else []) ++ [.on durationMs id]
  | off _ => [.off]
  | prebaked effect => [.prebaked effect id]
  | envelope e =>
    (if info.can .amplitudeControl ∧ 0 < e.amplitude.toInt then
      [.setAmplitude (UInt8.ofNat (min e.amplitude.toInt.toNat 255))] else []) ++
      [.envelope e.params e.steep id]
  | stream s => .stream s id :: packets.map fun packet => .stream packet id

/-- How long the step takes after the actuator has answered with `reportedMs`. For an effect that
lives in the hardware zero is no answer, and `fallbackMs` is taken. -/
def span (reportedMs fallbackMs : Nat) : Step → Option Nat
  | on _ _ => some reportedMs
  | off durationMs => some durationMs
  | prebaked _ => some (if reportedMs = 0 then fallbackMs else reportedMs)
  | envelope e => some e.durationMs
  | stream s => s.hintMs

/-- A step gives orders for no other vibration than its own. -/
theorem owner_of_mem_orders {info : ActuatorInfo} {id : Nat} {packets : List Stream} {step : Step}
    {o : Order} (h : o ∈ step.orders info id packets) : o.owner? = none ∨ o.owner? = some id := by
  cases step with
  | on durationMs amplitude =>
    simp only [orders, List.mem_append, List.mem_singleton] at h
    rcases h with h | rfl
    · split at h
      · rw [List.mem_singleton.1 h]; exact .inl rfl
      · cases h
    · exact .inr rfl
  | off durationMs => rw [List.mem_singleton.1 h]; exact .inl rfl
  | prebaked effect => rw [List.mem_singleton.1 h]; exact .inr rfl
  | envelope e =>
    simp only [orders, List.mem_append, List.mem_singleton] at h
    rcases h with h | rfl
    · split at h
      · rw [List.mem_singleton.1 h]; exact .inl rfl
      · cases h
    · exact .inr rfl
  | stream s =>
    simp only [orders, List.mem_cons, List.mem_map] at h
    rcases h with rfl | ⟨packet, _, rfl⟩
    · exact .inr rfl
    · exact .inr rfl

end Step

namespace Waveform

/-- The place that comes next at a cursor: the cursor itself, or behind the end the place where the
waveform starts again. -/
def place? (w : Waveform) (cursor : Nat) : Option Nat :=
  if cursor < w.timingsMs.length then some cursor
  else w.repeatFrom.filter (· < w.timingsMs.length)

/-- The step of an entry. -/
def entryStep (durationMs : Nat) (amplitude : UInt8) : Step :=
  if amplitude = 0 then .off durationMs else .on durationMs amplitude

/-- Looks for an entry with a length, at a cursor and behind, and gives its step and the cursor
behind it. It looks at so many entries at most; a waveform without any length would have no end. -/
def seek (w : Waveform) : (tries : Nat) → (cursor : Nat) → Option (Step × Nat)
  | 0, _ => none
  | tries + 1, cursor =>
    match w.place? cursor with
    | none => none
    | some index =>
      match w.timingsMs[index]?, w.amplitudes[index]? with
      | some durationMs, some amplitude =>
        if durationMs = 0 then seek w tries (index + 1)
        else some (entryStep durationMs amplitude, index + 1)
      | _, _ => none

end Waveform

/-- A vibration on its way through its steps. -/
structure Playback where
  /-- The vibration. -/
  vibration : Vibration
  /-- The entry of its waveform that comes next; of other effects, whether the step has been
  given. -/
  cursor : Nat := 0
  /-- How the step in flight comes to its end. -/
  stage : Option Stage := none
  /-- When the step in flight ends, or when it is given up. -/
  deadline : Option Nat := none
  /-- Whether it was told to stop and has not come to its end yet. -/
  stopping : Bool := false
  /-- The packets that continue its stream and have not been sent. -/
  packets : List Stream := []
  deriving DecidableEq

namespace Playback

/-- The number of the vibration. -/
def id (p : Playback) : Nat := p.vibration.id

/-- Whether a stream is in flight. -/
def hasStreamInFlight (p : Playback) : Bool := p.stage == some .stream

/-- The only step of an effect that is no waveform. -/
def singleStep? : Effect → Option Step
  | .oneShot durationMs amplitude => some (.on durationMs amplitude)
  | .waveform _ => none
  | .prebaked effect => some (.prebaked effect)
  | .envelope envelope => some (.envelope envelope)
  | .stream stream => some (.stream stream)

/-- The step that comes next and the cursor behind it, if there is one. -/
def nextStep (p : Playback) : Option (Step × Nat) :=
  match p.vibration.effect with
  | .waveform w => w.seek (w.timingsMs.length + 1) p.cursor
  | effect => if 0 < p.cursor then none else (singleStep? effect).map (·, 1)

/-- How many entries or steps the vibration has, and packets that have not been sent. -/
def extent (p : Playback) : Nat :=
  match p.vibration.effect with
  | .waveform w => w.timingsMs.length + p.packets.length
  | _ => 1 + p.packets.length

/-- The vibration begins to be played. -/
def begin (p : Playback) : Playback :=
  { p with vibration := p.vibration.start }

/-- The vibration ends at a time with a final status, unless it has ended. -/
def finish (p : Playback) (status : Status) (now : Nat) : Playback :=
  { p with vibration := p.vibration.finish status now }

/-- A step has been given to the actuator at a time and takes so long. -/
def launch (p : Playback) (step : Step) (cursor : Nat) (now : Nat) (span : Option Nat) : Playback :=
  { p with cursor, stage := some step.stage, deadline := span.map (now + ·), packets := [] }

/-- The stream in flight has been told to stop, and is given up at the deadline. -/
def awaitStop (p : Playback) (deadline : Nat) : Playback :=
  { p with stopping := true, deadline := some deadline }

@[simp] theorem id_begin (p : Playback) : p.begin.id = p.id := by
  unfold begin id Vibration.start
  split <;> rfl

@[simp] theorem id_finish (p : Playback) (status : Status) (now : Nat) :
    (p.finish status now).id = p.id := by
  unfold finish id Vibration.finish
  split <;> rfl

end Playback

end Haptics
