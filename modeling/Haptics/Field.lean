/-!
# Fields of a request

The numeric fields that a range check can find fault with, and the text that names each of them
in an error message.

`Field.label` is what a message shows. It names the field as the author of a document would:
points of a curve are `Curve.…`, points of an envelope are `Envelope.…`, and the channel of an
event is its `Index`.
-/

namespace Haptics

/-- A numeric field whose value can be out of range. -/
inductive Field where
  | relativeTime
  | intensity
  | frequency
  | duration
  | curvePointCount
  | curveTime
  | curveIntensity
  | curveFrequency
  | eventCount
  | patternCount
  | channel
  | absoluteTime
  | loopCount
  | interval
  | amplitude
  | strength
  | envelopeTime
  | envelopeScale
  deriving DecidableEq

namespace Field

/-- Every field, in the order in which they are listed to a reader. -/
def all : List Field :=
  [relativeTime, intensity, frequency, duration, curvePointCount, curveTime, curveIntensity,
    curveFrequency, eventCount, patternCount, channel, absoluteTime, loopCount, interval, amplitude,
    strength, envelopeTime, envelopeScale]

/-- The field's own name. -/
def name : Field → String
  | relativeTime => "RelativeTime"
  | intensity => "Intensity"
  | frequency => "Frequency"
  | duration => "Duration"
  | curvePointCount => "CurvePointCount"
  | curveTime => "CurveTime"
  | curveIntensity => "CurveIntensity"
  | curveFrequency => "CurveFrequency"
  | eventCount => "EventCount"
  | patternCount => "PatternCount"
  | channel => "Channel"
  | absoluteTime => "AbsoluteTime"
  | loopCount => "LoopCount"
  | interval => "Interval"
  | amplitude => "Amplitude"
  | strength => "Strength"
  | envelopeTime => "EnvelopeTime"
  | envelopeScale => "EnvelopeScale"

/-- The text that names the field in a message: the place of the value in a document. -/
def label : Field → String
  | curvePointCount => "Curve.Count"
  | curveTime => "Curve.Time"
  | curveIntensity => "Curve.Intensity"
  | curveFrequency => "Curve.Frequency"
  | channel => "Index"
  | envelopeTime => "Envelope.Time"
  | envelopeScale => "Envelope.Scale"
  | field => field.name

/-- The list of fields misses none. -/
theorem mem_all (f : Field) : f ∈ all := by
  cases f <;> decide

end Field

end Haptics
