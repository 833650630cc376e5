import Haptics.Effect.Stream

/-!
# How a document is to be played

The options go with a document into every stream compiled from it. With them and the length of one
play goes a hint: how long it takes until the stream has ended by itself. A stream without end has
none, and a hint beyond 64 bits is cut to the largest number of 64 bits.
-/

namespace Haptics

/-- The largest duration that a stream can announce. -/
def maxHintMs : Nat := 18446744073709551615

/-- How a document is to be played. -/
structure PlayOptions where
  /-- How often. -/
  loop : LoopCount := .once
  /-- The pause between two plays, in milliseconds. -/
  intervalMs : Word := 0
  /-- The amplitude, up to 255. -/
  amplitude : Word := 255
  /-- The frequency. -/
  frequency : Word := 0
  deriving DecidableEq

namespace PlayOptions

/-- How long all plays take together, with the pauses between them, when one takes `singleMs`. -/
def totalMs (o : PlayOptions) (singleMs : Nat) : Option Nat :=
  match o.loop with
  | .infinite => none
  | .finite times =>
    let plays := max times 1
    some (min maxHintMs (singleMs * plays + o.intervalMs.toInt.toNat * (plays - 1)))

/-- The stream that plays a buffer, one play of which takes `singleMs`. -/
def stream (o : PlayOptions) (words : List Word) (singleMs : Nat) : Stream :=
  { words
    loop := o.loop
    intervalMs := o.intervalMs
    amplitude := o.amplitude
    frequency := o.frequency
    hintMs := o.totalMs singleMs }

end PlayOptions

end Haptics
