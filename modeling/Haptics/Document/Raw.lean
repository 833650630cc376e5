import Haptics.Failure
import Haptics.Json.Reader
import Haptics.Json.Record

/-!
# Documents as they are written

A raw document holds what a text says, before any rule is applied to it: whole numbers for every
numeric field, and for the intensity of a curve point a hundred times what is written, cut towards
zero. Reading a raw document fails on text that is not JSON, on missing and doubled fields and on
values of the wrong shape, and on nothing else; the patterns are read whichever version the document
declares.

`RawDocument.declaredVersion?` reads the version alone, from a record that has only that field.
-/

namespace Haptics

/-- A point of a curve, as written. -/
structure RawPoint where
  /-- Its time. -/
  time : Int
  /-- A hundred times its intensity. -/
  intensity : Int
  /-- Its frequency. -/
  frequency : Int
  deriving DecidableEq

/-- An event, as written. -/
structure RawEvent where
  /-- The word that says whether it lasts. -/
  kind : String
  /-- Its start within its pattern. -/
  relativeTime : Option Int
  /-- How long it lasts. -/
  duration : Option Int
  /-- Its channel. -/
  index : Option Int
  /-- Its intensity. -/
  intensity : Int
  /-- Its frequency. -/
  frequency : Int
  /-- Its curve. -/
  curve : Option (List RawPoint)
  deriving DecidableEq

/-- A pattern of a version 2 document, as written. -/
structure RawPattern where
  /-- When it starts. -/
  absoluteTime : Int
  /-- Its events. -/
  events : List RawEvent
  deriving DecidableEq

/-- A document, as written. -/
structure RawDocument where
  /-- The number of its version. -/
  version : Int
  /-- The events of a version 1 document. -/
  pattern : Option (List RawEvent)
  /-- The patterns of a version 2 document. -/
  patternList : Option (List RawPattern)
  deriving DecidableEq

open Json

/-- Reads a curve point. -/
def RawPoint.ofJson? (value : Json) : Option RawPoint :=
  match record? ["Time", "Intensity", "Frequency"] value with
  | some [time, intensity, frequency] => do
    let time ← required? Json.int? time
    let intensity ← required? Json.hundredths? intensity
    let frequency ← required? Json.int? frequency
    some { time, intensity, frequency }
  | _ => none

/-- Intensity, frequency and curve of an event, as they are written under its parameters. -/
def RawEvent.parameters? (value : Json) : Option (Int × Int × Option (List RawPoint)) :=
  match record? ["Intensity", "Frequency", "Curve"] value with
  | some [intensity, frequency, curve] => do
    let intensity ← required? Json.int? intensity
    let frequency ← required? Json.int? frequency
    let curve ← optional? (list? RawPoint.ofJson?) curve
    some (intensity, frequency, curve)
  | _ => none

/-- Reads what is written under `Event`. -/
def RawEvent.ofBody? (value : Json) : Option RawEvent :=
  match record? ["Type", "RelativeTime", "Duration", "Index", "Parameters"] value with
  | some [kind, relativeTime, duration, index, parameters] => do
    let kind ← required? Json.text? kind
    let relativeTime ← optional? Json.int? relativeTime
    let duration ← optional? Json.int? duration
    let index ← optional? Json.int? index
    let (intensity, frequency, curve) ← required? RawEvent.parameters? parameters
    some { kind, relativeTime, duration, index, intensity, frequency, curve }
  | _ => none

/-- Reads an entry of an event list. -/
def RawEvent.ofJson? (value : Json) : Option RawEvent :=
  match record? ["Event"] value with
  | some [event] => required? RawEvent.ofBody? event
  | _ => none

/-- Reads an entry of a pattern list. -/
def RawPattern.ofJson? (value : Json) : Option RawPattern :=
  match record? ["AbsoluteTime", "Pattern"] value with
  | some [absoluteTime, events] => do
    let absoluteTime ← required? Json.int? absoluteTime
    let events ← required? (list? RawEvent.ofJson?) events
    some { absoluteTime, events }
  | _ => none

namespace RawDocument

/-- The number of the version, as it is written under `Metadata`. -/
def version? (value : Json) : Option Int :=
  match record? ["Version"] value with
  | some [version] => required? Json.int? version
  | _ => none

/-- Reads a document. -/
def ofJson? (value : Json) : Option RawDocument :=
  match record? ["Metadata", "Pattern", "PatternList"] value with
  | some [metadata, pattern, patternList] => do
    let version ← required? version? metadata
    let pattern ← optional? (list? RawEvent.ofJson?) pattern
    let patternList ← optional? (list? RawPattern.ofJson?) patternList
    some { version, pattern, patternList }
  | _ => none

/-- The number of the version that a document declares, read as a record that has nothing else. -/
def declaredVersion? (value : Json) : Option Int :=
  match record? ["Metadata"] value with
  | some [metadata] => required? version? metadata
  | _ => none

/-- The document that a text stands for. -/
def read (text : String) : Except Failure RawDocument :=
  match (Json.read? text.toList).bind ofJson? with
  | some document => .ok document
  | none => .error (.malformed .unreadable)

end RawDocument

end Haptics
