import Haptics.Actuator.Error
import Haptics.Field
import Haptics.Sender
import Haptics.Text.Quoted
import Haptics.Word

/-!
# Failures

Everything that can go wrong between a document and the motor. A failure names its cause, with the
numbers that describe it; the wording is given once, in `Failure.message`, which puts the kind of
the failure in front of the cause.

The kinds are: the structure is unreadable (`malformed`), a number is out of range, times or indices
are out of order, the version is unknown, the actuator was not free in time, or the hardware cannot
be reached. The first four concern the request alone (`Failure.concernsRequest`): they leave every
other vibration untouched.
-/

namespace Haptics

/-- Why a document, a buffer or an effect has no readable structure. -/
inductive Malformation where
  /-- The text is not a document at all: broken text, or a field missing, doubled or of the wrong
  shape. -/
  | unreadable
  /-- A version 1 document has no event list. -/
  | patternMissing
  /-- A version 2 document has no pattern list. -/
  | patternListMissing
  /-- The event list of a version 1 document is empty. -/
  | patternEmpty
  /-- The pattern list of a version 2 document is empty. -/
  | patternListEmpty
  /-- An event is neither transient nor continuous. -/
  | eventKind (kind : String)
  /-- An event of a version 2 document lacks a field. -/
  | eventWithout (pattern event : Nat) (field : String)
  /-- A continuous event has no curve. -/
  | curveMissing
  /-- There are too few words for the controls of a running stream. -/
  | controlWords (got : Nat)
  /-- The two lists of a waveform differ in length, or are empty. -/
  | waveformLengths (timings amplitudes : Nat)
  /-- A waveform starts again behind its end. -/
  | waveformRepeat
  /-- A stream has no words. -/
  | streamEmpty
  /-- A version 1 buffer starts with another tag. -/
  | recordTag (word : Word)
  /-- A version 1 buffer has no words. -/
  | recordsEmpty
  /-- The body of a version 1 buffer is not made of whole records. -/
  | recordsPartial (got recordLength : Nat)
  /-- A channel is not a number from 0 to 255. -/
  | channelWord (word : Word)
  /-- A curve announces an impossible number of points. -/
  | pointCount (word : Word)
  /-- A record is neither transient nor continuous. -/
  | eventType (word : Word)
  /-- A packet is too short for its header. -/
  | headerShort
  /-- A packet starts with another format version. -/
  | formatVersion (word : Word)
  /-- A packet ends in the middle of a record. -/
  | truncated (position : Nat)
  /-- A pattern announces an impossible number of events. -/
  | eventCount (word : Word)
  /-- A record announces a length that is not its own. -/
  | eventLength (word : Word)
  /-- A pattern has a negative index. -/
  | patternIndex (word : Word)
  /-- A packet goes on behind its last pattern. -/
  | trailingWords (count : Nat)
  /-- Two packets of a transmission disagree on its number of patterns. -/
  | totals (announced expected : Nat)
  /-- There is no packet to put together. -/
  | noPackets
  /-- A later packet is submitted as if it opened a transmission. -/
  | continuation
  /-- A document gave no packet. -/
  | nothingCompiled
  /-- Anything else, in words. -/
  | other (text : String)
  deriving DecidableEq

/-- The wording of a malformation. -/
def Malformation.text : Malformation → String
  | .unreadable => "unreadable document"
  | .patternMissing => "HE 1.0 document without Pattern"
  | .patternListMissing => "HE 2.0 document without PatternList"
  | .patternEmpty => "empty Pattern"
  | .patternListEmpty => "empty PatternList"
  | .eventKind kind => "unknown event type " ++ Text.quoted kind
  | .eventWithout pattern event field =>
    "pattern " ++ toString pattern ++ " event " ++ toString event ++ " has no " ++ field
  | .curveMissing => "continuous event without Curve"
  | .controlWords got => "pattern parameters need 3 words, got " ++ toString got
  | .waveformLengths timings amplitudes =>
    "waveform with " ++ toString timings ++ " timings and " ++ toString amplitudes ++ " amplitudes"
  | .waveformRepeat => "waveform repeat index past end"
  | .streamEmpty => "empty compiled pattern"
  | .recordTag word => "HE 1.0 tag " ++ word.hex
  | .recordsEmpty => "empty HE 1.0 buffer"
  | .recordsPartial got recordLength =>
    "HE 1.0 body of " ++ toString got ++ " words is not a multiple of " ++ toString recordLength
  | .channelWord word => "channel " ++ word.decimal
  | .pointCount word => "point count " ++ word.decimal
  | .eventType word => "event type " ++ word.hex
  | .headerShort => "short HE 2.0 header"
  | .formatVersion word => "format version " ++ word.decimal
  | .truncated position => "packet truncated at word " ++ toString position
  | .eventCount word => "event count " ++ word.decimal
  | .eventLength word => "event length " ++ word.decimal
  | .patternIndex word => "pattern index " ++ word.decimal
  | .trailingWords count => toString count ++ " trailing words after packet"
  | .totals announced expected =>
    "packet announces " ++ toString announced ++ " patterns, transmission announced " ++
      toString expected
  | .noPackets => "no packets"
  | .continuation => "continuation packet submitted as a new vibration"
  | .nothingCompiled => "document compiled to nothing"
  | .other text => text

/-- Why times or indices are out of order. -/
inductive Disorder where
  /-- A pattern starts before the one before it has ended. -/
  | patternStart (pattern : Nat) (start earliest : Int)
  /-- An event starts before the one before it. -/
  | eventTime (pattern event : Nat) (time previous : Int)
  /-- A curve point comes before the one before it. -/
  | curveTime (point : Nat) (time previous : Int)
  /-- An envelope point comes before the one before it. -/
  | envelopeTime (time previous : Int)
  /-- A packet belongs to another transmission. -/
  | mixedSenders (packet transmission : SenderId)
  /-- The packets hold more or fewer patterns than announced. -/
  | patternTotal (expected got : Nat)
  /-- A pattern is missing or comes twice. -/
  | patternPlace (index expected : Nat)
  /-- Anything else, in words. -/
  | other (text : String)
  deriving DecidableEq

/-- The wording of a disorder. -/
def Disorder.text : Disorder → String
  | .patternStart pattern start earliest =>
    "pattern " ++ toString pattern ++ " starts at " ++ toString start ++
      " before previous pattern ends at " ++ toString earliest
  | .eventTime pattern event time previous =>
    "pattern " ++ toString pattern ++ " event " ++ toString event ++ " at " ++ toString time ++
      " precedes " ++ toString previous
  | .curveTime point time previous =>
    "curve point " ++ toString point ++ " at " ++ toString time ++ " precedes " ++
      toString previous
  | .envelopeTime time previous =>
    "envelope time " ++ toString time ++ " after " ++ toString previous
  | .mixedSenders packet transmission =>
    "packet from " ++ packet.text ++ " mixed into transmission " ++ transmission.text
  | .patternTotal expected got =>
    "expected " ++ toString expected ++ " patterns, got " ++ toString got
  | .patternPlace index expected =>
    "pattern index " ++ toString index ++ " where " ++ toString expected ++ " was expected"
  | .other text => text

/-- Why the hardware cannot be reached. -/
inductive Outage where
  /-- The actuator refused the call. -/
  | refused (error : ActuatorError)
  /-- A scripted fault hit the call. -/
  | scripted (method : String)
  /-- There is no connection to give the order over. -/
  | notConnected
  /-- No actuator answers at all. -/
  | absent
  /-- Anything else, in words. -/
  | other (text : String)
  deriving DecidableEq

/-- The wording of an outage. -/
def Outage.text : Outage → String
  | .refused error => error.message
  | .scripted method => "fault rule: " ++ method
  | .notConnected => "actuator not connected"
  | .absent => "vibrator HAL not connected"
  | .other text => text

/-- What went wrong with a request. -/
inductive Failure where
  /-- The structure is unreadable. -/
  | malformed (cause : Malformation)
  /-- A number is out of range. -/
  | outOfRange (field : Field)
  /-- Times or indices are out of order. -/
  | disordered (cause : Disorder)
  /-- The version of a document or packet is not known. -/
  | unsupportedVersion (version : Int)
  /-- The actuator was not free in time. -/
  | timedOut (ms : Nat)
  /-- The hardware cannot be reached. -/
  | unavailable (cause : Outage)
  deriving DecidableEq

/-- The message of a failure. -/
def Failure.message : Failure → String
  | .malformed cause => "Malformed structure: " ++ cause.text
  | .outOfRange field => "Out of range: " ++ field.label
  | .disordered cause => "Ordering violation: " ++ cause.text
  | .unsupportedVersion version => "Unsupported HE version: " ++ toString version
  | .timedOut ms => "Scheduling timeout after " ++ toString ms ++ "ms"
  | .unavailable cause => "Hardware unavailable: " ++ cause.text

/-- Whether the failure lies in the request itself, so that nothing else is affected. -/
def Failure.concernsRequest : Failure → Bool
  | .malformed _ | .outOfRange _ | .disordered _ | .unsupportedVersion _ => true
  | .timedOut _ | .unavailable _ => false

/-- A chain of checks passes when each of them does. -/
theorem bind_eq_ok_iff {α β : Type} {x : Except Failure α} {f : α → Except Failure β} {b : β} :
    (x >>= f) = .ok b ↔ ∃ a, x = .ok a ∧ f a = .ok b := by
  cases x with
  | ok a => simp [bind, Except.bind]
  | error e => simp [bind, Except.bind]

/-- A chain of checks fails at the first that does. -/
theorem bind_eq_error_iff {α β : Type} {x : Except Failure α} {f : α → Except Failure β}
    {e : Failure} :
    (x >>= f) = .error e ↔ x = .error e ∨ ∃ a, x = .ok a ∧ f a = .error e := by
  cases x with
  | ok a => simp [bind, Except.bind]
  | error e' => simp [bind, Except.bind]

/-- A refused call, as a failure of the request that made it. -/
def ActuatorError.toFailure (e : ActuatorError) : Failure :=
  .unavailable (.refused e)

end Haptics
