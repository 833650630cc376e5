import Haptics.Document.Rules
import Haptics.Effect.Stream

/-!
# Buffers of the first format

A version 1 pattern travels as one buffer: a tag and then a record of 55 words for each event.

    [3] ++ [type, start, intensity, frequency, duration, channel, points,
             16 × (time, intensity, frequency)] ++ …

The words that an event does not use are zero. Only the first sixteen events, and of each curve the
first sixteen points, have a place in the buffer; a tap has no place for its channel.

`Records.encode` writes a buffer and `Records.decode` reads one. `Records.kept` is what of a pattern
survives.
-/

namespace Haptics.Records

/-- The number of words in a record. -/
def recordLength : Nat := 55

/-- A list brought to a length by zeros behind it. -/
def pad (length : Nat) (words : List Word) : List Word :=
  words ++ List.replicate (length - words.length) 0

/-- The words of the points of a curve. -/
def pointWords (curve : List CurvePoint) : List Word :=
  curve.flatMap fun p => [p.timeMs, p.intensity, p.frequency]

/-- What every record starts with. -/
def startWords (code : Word) (h : EventHeader) : List Word :=
  [code, h.relativeTimeMs, h.intensity, h.frequency]

/-- The used words of a record. -/
def usedWords : Event → List Word
  | .transient h => startWords Event.transientCode h
  | .continuous h durationMs curve =>
    startWords Event.continuousCode h ++
      [durationMs, Word.ofNat h.channel.toNat, Word.ofNat (curve.take Rules.maxPoints).length] ++
      pointWords (curve.take Rules.maxPoints)

/-- The record of an event. -/
def record (e : Event) : List Word :=
  pad recordLength (usedWords e)

/-- The buffer of a pattern. -/
def encode (p : Pattern) : List Word :=
  recordTag :: (p.events.take Rules.maxEvents).flatMap record

/-! ## Reading -/

/-- A channel from its word. -/
def channelOf (w : Word) : Except Failure UInt8 :=
  if 0 ≤ w.toInt ∧ w.toInt ≤ 255 then .ok (UInt8.ofNat w.toInt.toNat)
  else .error (.malformed (.channelWord w))

/-- A number of points from its word. -/
def pointCountOf (w : Word) : Except Failure Nat :=
  if 0 ≤ w.toInt ∧ w.toInt ≤ Rules.maxPoints then .ok w.toInt.toNat
  else .error (.malformed (.pointCount w))

/-- The first points of a curve from their words. -/
def pointsOf : Nat → List Word → List CurvePoint
  | count + 1, timeMs :: intensity :: frequency :: rest =>
    ⟨timeMs, intensity, frequency⟩ :: pointsOf count rest
  | _, _ => []

/-- The event of a record. -/
def eventOf (words : List Word) : Except Failure Event :=
  match words with
  | code :: relativeTimeMs :: intensity :: frequency :: durationMs :: channel :: count :: rest => do
    let channel ← channelOf channel
    let header : EventHeader := { channel, relativeTimeMs, intensity, frequency }
    if code = Event.transientCode then return .transient header
    else if code = Event.continuousCode then do
      let count ← pointCountOf count
      return .continuous header durationMs (pointsOf count rest)
    else .error (.malformed (.eventType code))
  | _ => .error (.malformed (.recordsPartial words.length recordLength))

/-- The first records of a body. -/
def split : Nat → List Word → List (List Word)
  | 0, _ => []
  | count + 1, words => words.take recordLength :: split count (words.drop recordLength)

/-- Reads a buffer. -/
def decode : List Word → Except Failure Pattern
  | [] => .error (.malformed .recordsEmpty)
  | tag :: body =>
    if tag ≠ recordTag then .error (.malformed (.recordTag tag))
    else if body.length % recordLength ≠ 0 then
      .error (.malformed (.recordsPartial body.length recordLength))
    else do
      let events ← (split (body.length / recordLength) body).mapM eventOf
      return { relativeTimeMs := 0, events }

/-! ## What survives -/

/-- What of an event survives: a curve keeps its first sixteen points, a tap loses its channel. -/
def keptEvent : Event → Event
  | .transient h => .transient { h with channel := 0 }
  | .continuous h durationMs curve => .continuous h durationMs (curve.take Rules.maxPoints)

/-- What of a pattern survives: its first sixteen events, without the start of the pattern. -/
def kept (p : Pattern) : Pattern :=
  { relativeTimeMs := 0, events := (p.events.take Rules.maxEvents).map keptEvent }

end Haptics.Records
