import Haptics.Failure

/-!
# Waveforms

A waveform is a list of times, each with an amplitude, and perhaps a place where it starts again
when it has come to its end. Amplitude zero is silence for that time.
-/

namespace Haptics

/-- A list of timed amplitudes. -/
structure Waveform where
  /-- How long each entry lasts, in milliseconds. -/
  timingsMs : List Nat
  /-- The amplitude of each entry; zero is silence. -/
  amplitudes : List UInt8
  /-- The entry from which the waveform starts again, if it repeats. -/
  repeatFrom : Option Nat
  deriving DecidableEq

namespace Waveform

/-- A waveform needs an entry, an amplitude for each time, and a place to start again that is one
of its entries. -/
def check (w : Waveform) : Except Failure Unit :=
  if w.timingsMs.isEmpty ∨ w.timingsMs.length ≠ w.amplitudes.length then
    .error (.malformed (.waveformLengths w.timingsMs.length w.amplitudes.length))
  else
    match w.repeatFrom with
    | some start =>
      if w.timingsMs.length ≤ start then .error (.malformed .waveformRepeat) else .ok ()
    | none => .ok ()

end Waveform

end Haptics
