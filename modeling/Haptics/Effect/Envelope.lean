import Haptics.Failure

/-!
# Envelopes

An envelope is a curve of four points, each with a time, a scale and a frequency. The amplitude is
`-1` for the actuator's own, or a level from 1 to 255.
-/

namespace Haptics

/-- A point of an envelope. -/
structure EnvelopePoint where
  /-- When the point is reached, in milliseconds. -/
  timeMs : Word
  /-- The scale there, times 100. -/
  scale : Word
  /-- The frequency there. -/
  frequency : Word
  deriving DecidableEq

/-- An effect drawn by four points. -/
structure Envelope where
  /-- The four points. -/
  points : Vector EnvelopePoint 4
  /-- Whether the actuator is to follow the curve steeply. -/
  steep : Bool
  /-- `-1` for the actuator's own amplitude, or a level from 1 to 255. -/
  amplitude : Word
  deriving DecidableEq

namespace Envelope

/-- Checks points in turn against the time of the point before. -/
def checkPoints (previous : Int) : List EnvelopePoint → Except Failure Unit
  | [] => .ok ()
  | point :: rest =>
    if point.timeMs.toInt < 0 then .error (.outOfRange .envelopeTime)
    else if point.timeMs.toInt < previous then
      .error (.disordered (.envelopeTime point.timeMs.toInt previous))
    else if point.scale.toInt < 0 then .error (.outOfRange .envelopeScale)
    else checkPoints point.timeMs.toInt rest

/-- An envelope whose amplitude is allowed and whose points are in order. -/
def check (points : Vector EnvelopePoint 4) (steep : Bool) (amplitude : Word) :
    Except Failure Envelope :=
  if amplitude.toInt = -1 ∨ (1 ≤ amplitude.toInt ∧ amplitude.toInt ≤ 255) then
    match checkPoints 0 points.toList with
    | .ok () => .ok ⟨points, steep, amplitude⟩
    | .error e => .error e
  else .error (.outOfRange .amplitude)

/-- The points as the twelve numbers that an actuator takes. -/
def params (e : Envelope) : List Word :=
  e.points.toList.flatMap fun point => [point.timeMs, point.scale, point.frequency]

/-- How long the envelope takes: the time of its last point. -/
def durationMs (e : Envelope) : Nat :=
  e.points[3].timeMs.toInt.toNat

/-- An envelope has twelve parameters. -/
theorem length_params (e : Envelope) : e.params.length = 12 := by
  unfold params
  simp [List.length_flatMap, List.map_const']

end Envelope

end Haptics
