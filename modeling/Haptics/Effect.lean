import Haptics.Effect.Controls
import Haptics.Effect.Envelope
import Haptics.Effect.Prebaked
import Haptics.Effect.Stream
import Haptics.Effect.Waveform

/-!
# Effects

What a vibration is to feel like: one push, a waveform, an effect from the hardware, an envelope, or
a stream compiled from a document.

`Effect.check` is what every effect has to pass before it is let in. Only waveforms and streams can
fail it: the first must be well formed, the second must not be empty.
-/

namespace Haptics

/-- What a vibration is to feel like. -/
inductive Effect where
  /-- One push of the given length and amplitude. -/
  | oneShot (durationMs : Nat) (amplitude : UInt8)
  /-- A list of timed amplitudes. -/
  | waveform (waveform : Waveform)
  /-- An effect that lives in the hardware. -/
  | prebaked (prebaked : Prebaked)
  /-- A curve of four points. -/
  | envelope (envelope : Envelope)
  /-- A buffer compiled from a document. -/
  | stream (stream : Stream)
  deriving DecidableEq

namespace Effect

/-- Whether the effect goes on until it is stopped. -/
def isRepeating : Effect → Bool
  | waveform w => w.repeatFrom.isSome
  | stream s => s.loop.isInfinite
  | _ => false

/-- Whether the effect is a compiled stream. -/
def isStream : Effect → Bool
  | stream _ => true
  | _ => false

/-- The word that names the kind of effect. -/
def kind : Effect → String
  | oneShot _ _ => "one-shot"
  | waveform _ => "waveform"
  | prebaked _ => "prebaked"
  | envelope _ => "envelope"
  | stream _ => "compiled"

/-- The transmission that the effect opens, if it is the first packet of one. -/
def sender? : Effect → Option SenderId
  | stream s => s.sender?
  | _ => none

/-- What every effect has to pass before it is let in. -/
def check : Effect → Except Failure Unit
  | waveform w => w.check
  | stream s => if s.words.isEmpty then .error (.malformed .streamEmpty) else .ok ()
  | _ => .ok ()

/-- A stream passes exactly when it has words. -/
theorem check_stream_eq_ok_iff (s : Stream) : check (.stream s) = .ok () ↔ s.words ≠ [] := by
  cases h : s.words <;> simp [check, h]

end Effect

end Haptics
