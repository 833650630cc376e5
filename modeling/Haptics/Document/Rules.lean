import Haptics.Document.Raw
import Haptics.Pattern

/-!
# The rules of a document

A raw document becomes a `HapticDocument` when it keeps the rules of its version; the first rule it
breaks is the answer otherwise, and nothing of the document is kept.

* Version 1 is lenient. It looks at the first sixteen events and at the first sixteen points of a
  curve, gives an event without a start the place `400` milliseconds after the one before, takes a
  missing duration as zero, and never looks at the channel.
* Version 2 is strict. Every field has to be there, events and patterns have to be in order of time,
  and there may be no more of anything than the limits say.

The curve of a continuous event starts at time 0 with intensity 0 and ends at the end of the event
with intensity 0.
-/

namespace Haptics.Rules

/-- The most events in a pattern. -/
def maxEvents : Nat := 16

/-- The most points in a curve. -/
def maxPoints : Nat := 16

/-- The most patterns in a document. -/
def maxPatterns : Nat := 65535

/-- The latest start of an event in its pattern. -/
def maxRelativeTime : Int := 50000

/-- The longest event. -/
def maxDuration : Int := 5000

/-- The place of an event that gives none, times its index. -/
def defaultSpacing : Int := 400

/-- Passes if the condition holds, and fails with `failure` otherwise. -/
def require (condition : Prop) [Decidable condition] (failure : Failure) : Except Failure Unit :=
  if condition then .ok () else .error failure

theorem require_of_true {c : Prop} [Decidable c] {e : Failure} (h : c) : require c e = .ok () :=
  if_pos h

theorem require_of_false {c : Prop} [Decidable c] {e : Failure} (h : ¬c) :
    require c e = .error e :=
  if_neg h

theorem require_eq_ok_iff {c : Prop} [Decidable c] {e : Failure} {u : Unit} :
    require c e = .ok u ↔ c := by
  unfold require
  by_cases h : c
  · simp [h]
  · simp [h]

/-! ## Events -/

/-- Whether the event lasts. -/
def lasts (raw : RawEvent) : Except Failure Bool :=
  if raw.kind = "continuous" then .ok true
  else if raw.kind = "transient" then .ok false
  else .error (.malformed (.eventKind raw.kind))

/-- The start of an event lies within the limits of a pattern. -/
def checkStart (time : Int) : Except Failure Unit :=
  require (0 ≤ time ∧ time ≤ maxRelativeTime) (.outOfRange .relativeTime)

/-- What every event has, once its channel and its start are known. -/
def header (channel : UInt8) (time : Int) (raw : RawEvent) : Except Failure EventHeader := do
  require (0 ≤ raw.intensity ∧ raw.intensity ≤ 100) (.outOfRange .intensity)
  require (0 ≤ raw.frequency ∧ raw.frequency ≤ 100) (.outOfRange .frequency)
  return {
    channel
    relativeTimeMs := Word.ofInt time
    intensity := Word.ofInt raw.intensity
    frequency := Word.ofInt raw.frequency }

/-- What a point has to keep where it is not the first: its time lies in the event, unless it is the
last, and not before the point before it; its intensity is a percentage. -/
def checkLater (index : Nat) (last : Bool) (duration previous : Int) (raw : RawPoint) :
    Except Failure Unit := do
  require ((0 ≤ raw.time ∧ raw.time ≤ duration) ∨ last = true) (.outOfRange .curveTime)
  require (previous ≤ raw.time) (.disordered (.curveTime index raw.time previous))
  require (0 ≤ raw.intensity ∧ raw.intensity ≤ 100) (.outOfRange .curveIntensity)

/-- What a point has to keep at one end of the curve: time `time`, intensity zero. -/
def checkEnd (time : Int) (raw : RawPoint) : Except Failure Unit := do
  require (raw.time = time) (.outOfRange .curveTime)
  require (raw.intensity = 0) (.outOfRange .curveIntensity)

/-- One point of a curve, at the place `index`, behind a point at time `previous`. -/
def point (index : Nat) (last : Bool) (duration previous : Int) (raw : RawPoint) :
    Except Failure CurvePoint := do
  if index = 0 then checkEnd 0 raw else checkLater index last duration previous raw
  if last then checkEnd duration raw
  require (-100 ≤ raw.frequency ∧ raw.frequency ≤ 100) (.outOfRange .curveFrequency)
  return {
    timeMs := Word.ofInt raw.time
    intensity := Word.ofInt raw.intensity
    frequency := Word.ofInt raw.frequency }

/-- The points of a curve from the place `index` on, behind a point at time `previous`. -/
def points (duration : Int) : Nat → Int → List RawPoint → Except Failure (List CurvePoint)
  | _, _, [] => .ok []
  | index, previous, raw :: rest => do
    let first ← point index rest.isEmpty duration previous raw
    let others ← points duration (index + 1) raw.time rest
    return first :: others

/-- The points of a curve that count: the first sixteen if the rules are lenient; if they are
strict, there must not be more. -/
def countedPoints (strict : Bool) (curve : List RawPoint) : Except Failure (List RawPoint) := do
  if strict then require (curve.length ≤ maxPoints) (.outOfRange .curvePointCount)
  require (curve ≠ []) (.outOfRange .curvePointCount)
  return curve.take maxPoints

/-- An event that lasts. -/
def continuous (strict : Bool) (header : EventHeader) (duration : Int) (raw : RawEvent) :
    Except Failure Event := do
  require (0 ≤ duration ∧ duration ≤ maxDuration) (.outOfRange .duration)
  match raw.curve with
  | none => .error (.malformed .curveMissing)
  | some curve => do
    let counted ← countedPoints strict curve
    let drawn ← points duration 0 0 counted
    return .continuous header (Word.ofInt duration) drawn

/-! ## Version 1 -/

/-- Event number `index` of a version 1 document. -/
def lenientEvent (index : Nat) (raw : RawEvent) : Except Failure Event := do
  let isContinuous ← lasts raw
  let time := raw.relativeTime.getD (index * defaultSpacing)
  checkStart time
  let header ← header 0 time raw
  if isContinuous then continuous false header (raw.duration.getD 0) raw
  else return .transient header

/-- The events of a version 1 document from number `index` on. -/
def lenientEvents : Nat → List RawEvent → Except Failure (List Event)
  | _, [] => .ok []
  | index, raw :: rest => do
    let first ← lenientEvent index raw
    let others ← lenientEvents (index + 1) rest
    return first :: others

/-- The pattern of a version 1 document: its first sixteen events. -/
def lenient (events : List RawEvent) : Except Failure Pattern := do
  require (events ≠ []) (.malformed .patternEmpty)
  let counted ← lenientEvents 0 (events.take maxEvents)
  return { relativeTimeMs := 0, events := counted }

/-! ## Version 2 -/

/-- The channel of an event; `pattern` and `event` say which. -/
def channel (pattern event : Nat) (raw : RawEvent) : Except Failure UInt8 :=
  match raw.index with
  | none => .error (.malformed (.eventWithout pattern event "Index"))
  | some index =>
    if 0 ≤ index ∧ index ≤ 255 then .ok (UInt8.ofNat index.toNat)
    else .error (.outOfRange .channel)

/-- The start of an event, which lies not before `previous`. -/
def start (pattern event : Nat) (previous : Int) (raw : RawEvent) : Except Failure Int :=
  match raw.relativeTime with
  | none => .error (.malformed (.eventWithout pattern event "RelativeTime"))
  | some time => do
    checkStart time
    require (previous ≤ time) (.disordered (.eventTime pattern event time previous))
    return time

/-- Event number `event` of pattern number `pattern`, behind an event that starts at `previous`;
with the event comes its start. -/
def strictEvent (pattern event : Nat) (previous : Int) (raw : RawEvent) :
    Except Failure (Event × Int) := do
  let isContinuous ← lasts raw
  let channel ← channel pattern event raw
  let time ← start pattern event previous raw
  let header ← header channel time raw
  if isContinuous then
    match raw.duration with
    | none => .error (.malformed (.eventWithout pattern event "Duration"))
    | some duration => do
      let event ← continuous true header duration raw
      return (event, time)
  else return (.transient header, time)

/-- The events of a pattern from number `event` on. -/
def strictEvents (pattern : Nat) : Nat → Int → List RawEvent → Except Failure (List Event)
  | _, _, [] => .ok []
  | event, previous, raw :: rest => do
    let (first, time) ← strictEvent pattern event previous raw
    let others ← strictEvents pattern (event + 1) time rest
    return first :: others

/-- A pattern, which starts not before `earliest`. -/
def strictPattern (pattern : Nat) (earliest : Int) (raw : RawPattern) : Except Failure Pattern := do
  require (0 ≤ raw.absoluteTime ∧ raw.absoluteTime ≤ Word.maxInt) (.outOfRange .absoluteTime)
  require (earliest ≤ raw.absoluteTime)
    (.disordered (.patternStart pattern raw.absoluteTime earliest))
  require (raw.events.length ≤ maxEvents) (.outOfRange .eventCount)
  let events ← strictEvents pattern 0 0 raw.events
  return { relativeTimeMs := Word.ofInt raw.absoluteTime, events }

/-- The patterns that have passed, latest first, and the earliest start of the next. -/
structure Progress where
  /-- How many patterns have passed. -/
  count : Nat := 0
  /-- The end of the latest of them. -/
  earliest : Int := 0
  /-- The patterns, latest first. -/
  patterns : List Pattern := []

/-- Takes one more pattern. -/
def Progress.add (p : Progress) (raw : RawPattern) : Except Failure Progress := do
  let pattern ← strictPattern p.count p.earliest raw
  return {
    count := p.count + 1
    earliest := raw.absoluteTime + pattern.endTime
    patterns := pattern :: p.patterns }

/-- The patterns of a version 2 document. -/
def strict (patterns : List RawPattern) : Except Failure PatternSet := do
  require (patterns ≠ []) (.malformed .patternListEmpty)
  require (patterns.length ≤ maxPatterns) (.outOfRange .patternCount)
  let progress ← patterns.foldlM Progress.add {}
  return { patterns := progress.patterns.reverse }

end Haptics.Rules

namespace Haptics

/-! ## Documents -/

namespace RawDocument

/-- The document, if it keeps the rules of its version. -/
def validate (raw : RawDocument) : Except Failure HapticDocument := do
  match ← Version.ofInt raw.version with
  | .one =>
    match raw.pattern with
    | none => .error (.malformed .patternMissing)
    | some events => return .v1 (← Rules.lenient events)
  | .two =>
    match raw.patternList with
    | none => .error (.malformed .patternListMissing)
    | some patterns => return .v2 (← Rules.strict patterns)

end RawDocument

namespace HapticDocument

/-- The document that a JSON value stands for, if it keeps the rules of its version. -/
def ofJson (value : Json) : Except Failure HapticDocument :=
  match RawDocument.ofJson? value with
  | some raw => raw.validate
  | none => .error (.malformed .unreadable)

/-- The document that a text stands for, if it keeps the rules of its version. -/
def read (text : String) : Except Failure HapticDocument := do
  (← RawDocument.read text).validate

/-- The version that a text declares; the rest of the document is not looked at. -/
def declaredVersion (text : String) : Except Failure Version :=
  match (Json.read? text.toList).bind RawDocument.declaredVersion? with
  | some number => Version.ofInt number
  | none => .error (.malformed .unreadable)

end HapticDocument

end Haptics
