import Haptics.Document.Rules
import Mathlib.Data.List.Chain
import Mathlib.Tactic.MkIffOfInductiveProp

/-!
# Which events pass

Both versions check a curve point by point, from the first one on and with the time of the point
before in hand; the first and the last point keep rules of their own. Here the curve is described as
a whole instead (`SoundCurve`), and the points are shown to pass exactly when it is sound.

What passes is *drawn*: its numbers become words. `Event.written` goes the other way, and gives the
numbers that the words stand for.

* `points_eq_ok_iff`: the points that pass from some place on.
* `continuous_eq_ok_iff`: the events that last and pass, whether points beyond the sixteenth are
  refused or dropped.
* `RawPoint.written_drawn`: no number of a point within an event is altered.
-/

namespace Haptics

namespace RawPoint

/-- The point with these numbers. -/
def drawn (raw : RawPoint) : CurvePoint where
  timeMs := Word.ofInt raw.time
  intensity := Word.ofInt raw.intensity
  frequency := Word.ofInt raw.frequency

/-- The point is at rest at a time. -/
@[mk_iff] structure Rests (time : Int) (raw : RawPoint) : Prop where
  time : raw.time = time
  intensity : raw.intensity = 0

/-- The point lies in an event of this duration, and its numbers are percentages. -/
@[mk_iff] structure Within (duration : Int) (raw : RawPoint) : Prop where
  time : 0 ≤ raw.time ∧ raw.time ≤ duration
  intensity : 0 ≤ raw.intensity ∧ raw.intensity ≤ 100
  frequency : -100 ≤ raw.frequency ∧ raw.frequency ≤ 100

end RawPoint

namespace RawEvent

/-- When the event starts. -/
def start (raw : RawEvent) : Int := raw.relativeTime.getD 0

/-- How long the event takes: a tap takes no time, whatever duration is written. -/
def span (raw : RawEvent) : Int :=
  if raw.kind = "continuous" then raw.duration.getD 0 else 0

/-- What counts of an event: a tap has neither duration nor curve. -/
def essential (raw : RawEvent) : RawEvent :=
  if raw.kind = "continuous" then raw else { raw with duration := none, curve := none }

/-- The header with the numbers of the event. -/
def header (raw : RawEvent) : EventHeader where
  channel := UInt8.ofNat (raw.index.getD 0).toNat
  relativeTimeMs := Word.ofInt raw.start
  intensity := Word.ofInt raw.intensity
  frequency := Word.ofInt raw.frequency

/-- The header of an event with these numbers. -/
theorem header_eq {raw : RawEvent} {i t : Int} (hi : raw.index = some i)
    (ht : raw.relativeTime = some t) :
    raw.header = {
      channel := UInt8.ofNat i.toNat
      relativeTimeMs := Word.ofInt t
      intensity := Word.ofInt raw.intensity
      frequency := Word.ofInt raw.frequency } := by
  rw [header, start, hi, ht, Option.getD_some, Option.getD_some]

/-- The event with these numbers. -/
def drawn (raw : RawEvent) : Event :=
  if raw.kind = "continuous" then
    .continuous raw.header (Word.ofInt (raw.duration.getD 0))
      ((raw.curve.getD []).map RawPoint.drawn)
  else .transient raw.header

/-- A tap is drawn from its header alone. -/
theorem drawn_of_tap {raw : RawEvent} (h : raw.kind = "transient") :
    raw.drawn = .transient raw.header := by
  refine if_neg ?_
  rw [h]
  decide

/-- A lasting event is drawn from its header, its duration and its curve. -/
theorem drawn_of_lasting {raw : RawEvent} {d : Int} {curve : List RawPoint}
    (hk : raw.kind = "continuous") (hd : raw.duration = some d) (hc : raw.curve = some curve) :
    raw.drawn = .continuous raw.header (Word.ofInt d) (curve.map RawPoint.drawn) := by
  rw [drawn, if_pos hk, hd, hc, Option.getD_some, Option.getD_some]

end RawEvent

/-! ## What has been drawn, in numbers -/

/-- The numbers of a point. -/
def CurvePoint.written (p : CurvePoint) : RawPoint where
  time := p.timeMs.toInt
  intensity := p.intensity.toInt
  frequency := p.frequency.toInt

/-- An event with the numbers of a header. -/
def EventHeader.written (h : EventHeader) (kind : String) (duration : Option Int)
    (curve : Option (List RawPoint)) : RawEvent where
  kind
  relativeTime := some h.relativeTimeMs.toInt
  duration
  index := some h.channel.toNat
  intensity := h.intensity.toInt
  frequency := h.frequency.toInt
  curve

/-- The numbers of an event; a tap has neither duration nor curve. -/
def Event.written : Event → RawEvent
  | transient h => h.written "transient" none none
  | continuous h durationMs curve =>
    h.written "continuous" (some durationMs.toInt) (some (curve.map CurvePoint.written))

/-- The numbers that documents may hold, other than the start of a pattern, fit into a word. -/
theorem Word.toInt_ofInt_of_small {n : Int} (lo : -100 ≤ n) (hi : n ≤ 50000) :
    (ofInt n).toInt = n := by
  have hmax : n ≤ maxInt := by
    unfold maxInt
    omega
  exact toInt_ofInt (by omega) hmax

/-- No number of a point within an event is altered when the point is drawn. -/
theorem RawPoint.written_drawn {duration : Int} {raw : RawPoint} (h : raw.Within duration)
    (hd : duration ≤ 50000) : raw.drawn.written = raw := by
  obtain ⟨⟨htl, htu⟩, ⟨hil, hiu⟩, ⟨hfl, hfu⟩⟩ := h
  have ht : (Word.ofInt raw.time).toInt = raw.time :=
    Word.toInt_ofInt_of_small (by omega) (by omega)
  have hi : (Word.ofInt raw.intensity).toInt = raw.intensity :=
    Word.toInt_ofInt_of_small (by omega) (by omega)
  have hf : (Word.ofInt raw.frequency).toInt = raw.frequency :=
    Word.toInt_ofInt_of_small (by omega) (by omega)
  simp only [drawn, CurvePoint.written, ht, hi, hf]

/-! ## Curves -/

/-- **A sound curve** of an event: it is at rest at the start and at the end of the event, it lies
within the event in between, and its times never fall. -/
structure SoundCurve (duration : Int) (curve : List RawPoint) : Prop where
  starts : ∃ p ∈ curve.head?, p.Rests 0
  ends : ∃ p ∈ curve.getLast?, p.Rests duration
  ordered : curve.IsChain fun p q => p.time ≤ q.time
  within : ∀ p ∈ curve, p.Within duration

/-- A sound curve has points. -/
theorem SoundCurve.ne_nil {duration : Int} {curve : List RawPoint} (h : SoundCurve duration curve) :
    curve ≠ [] := by
  rintro rfl
  obtain ⟨p, hp, -⟩ := h.starts
  cases hp

namespace Rules

open RawPoint

section curve

variable {duration previous : Int} {index : Nat}

/-- An end passes if it rests at its time. -/
theorem checkEnd_eq_ok_iff {time : Int} {raw : RawPoint} {u : Unit} :
    checkEnd time raw = .ok u ↔ raw.Rests time := by
  simp only [checkEnd, bind_eq_ok_iff, require_eq_ok_iff, exists_const, rests_iff]

/-- The last point may lie anywhere behind the one before it, as far as this check goes. -/
theorem checkLater_eq_ok_iff {last : Bool} {raw : RawPoint} {u : Unit} :
    checkLater index last duration previous raw = .ok u ↔
      ((0 ≤ raw.time ∧ raw.time ≤ duration) ∨ last = true) ∧ previous ≤ raw.time ∧
        0 ≤ raw.intensity ∧ raw.intensity ≤ 100 := by
  simp only [checkLater, bind_eq_ok_iff, require_eq_ok_iff, exists_const]

/-- **A point passes** when it lies within its event and not before the point in front of it, and
is at rest if it stands at an end of the curve. -/
theorem point_eq_ok_iff {last : Bool} {raw : RawPoint} {p : CurvePoint} (hd : 0 ≤ duration)
    (hp : 0 ≤ previous) (h0 : index = 0 → previous = 0) :
    point index last duration previous raw = .ok p ↔
      previous ≤ raw.time ∧ raw.Within duration ∧ (index = 0 → raw.Rests 0) ∧
        (last = true → raw.Rests duration) ∧ p = raw.drawn := by
  by_cases hi : index = 0 <;> by_cases hl : last = true
  all_goals
    simp only [point, hi, hl, if_true, if_false, Bool.false_eq_true, bind_eq_ok_iff,
      checkEnd_eq_ok_iff, checkLater_eq_ok_iff, require_eq_ok_iff, exists_const, pure, Except.pure,
      Except.ok.injEq, rests_iff, within_iff, drawn]
    grind

/-- **The points of a curve pass** when each of them lies within the event, their times do not fall
from `previous` on, and the curve is at rest at its end, and at its start if it is looked at from
there. -/
theorem points_eq_ok_iff {raws : List RawPoint} {curve : List CurvePoint} (hd : 0 ≤ duration)
    (hp : 0 ≤ previous) (h0 : index = 0 → previous = 0) :
    points duration index previous raws = .ok curve ↔
      (∀ p ∈ raws.head?, previous ≤ p.time) ∧ raws.IsChain (fun p q => p.time ≤ q.time) ∧
        (∀ p ∈ raws, p.Within duration) ∧ (index = 0 → ∀ p ∈ raws.head?, p.Rests 0) ∧
        (∀ p ∈ raws.getLast?, p.Rests duration) ∧ curve = raws.map drawn := by
  induction raws generalizing index previous curve with
  | nil => simp [points, eq_comm]
  | cons raw rest ih =>
    have hlast : (∀ p ∈ (raw :: rest).getLast?, p.Rests duration) ↔
        (rest.isEmpty = true → raw.Rests duration) ∧ ∀ p ∈ rest.getLast?, p.Rests duration := by
      cases rest with
      | nil => simp
      | cons next rest => simp
    have hnext : index + 1 = 0 → raw.time = 0 := by omega
    simp only [points, bind_eq_ok_iff, point_eq_ok_iff hd hp h0, pure, Except.pure,
      Except.ok.injEq, hlast, List.isChain_cons, List.forall_mem_cons, List.map_cons,
      List.head?_cons, Option.mem_some_iff, forall_eq']
    constructor
    · rintro ⟨first, ⟨ht, hw, hs, he, rfl⟩, others, ho, rfl⟩
      obtain ⟨hn, hc, hws, -, hes, rfl⟩ := (ih hw.time.1 hnext).1 ho
      exact ⟨ht, ⟨hn, hc⟩, ⟨hw, hws⟩, hs, ⟨he, hes⟩, rfl⟩
    · rintro ⟨ht, ⟨hn, hc⟩, ⟨hw, hws⟩, hs, ⟨he, hes⟩, rfl⟩
      refine ⟨raw.drawn, ⟨ht, hw, hs, he, rfl⟩, rest.map drawn, ?_, rfl⟩
      exact (ih hw.time.1 hnext).2 ⟨hn, hc, hws, fun h => by omega, hes, rfl⟩

/-- From the first point on, the points that pass are those of a sound curve. -/
theorem points_eq_ok_iff_sound {raws : List RawPoint} {curve : List CurvePoint} (hd : 0 ≤ duration)
    (hne : raws ≠ []) :
    points duration 0 0 raws = .ok curve ↔ SoundCurve duration raws ∧ curve = raws.map drawn := by
  rw [points_eq_ok_iff hd (Int.le_refl 0) fun _ => rfl]
  constructor
  · rintro ⟨-, hc, hw, hs, he, rfl⟩
    have hh := List.head?_eq_some_head hne
    have hl := List.getLast?_eq_some_getLast hne
    exact ⟨⟨⟨_, hh, hs rfl _ hh⟩, ⟨_, hl, he _ hl⟩, hc, hw⟩, rfl⟩
  · rintro ⟨⟨⟨p, hp, hs⟩, ⟨q, hq, he⟩, hc, hw⟩, rfl⟩
    refine ⟨fun r hr => ?_, hc, hw, fun _ r hr => ?_, fun r hr => ?_, rfl⟩
    · exact (hw r (List.mem_of_mem_head? hr)).time.1
    · rwa [Option.mem_unique hr hp]
    · rwa [Option.mem_unique hr hq]

/-- The points that count are the first sixteen, and there is at least one. -/
theorem countedPoints_eq_ok_iff {strict : Bool} {raws counted : List RawPoint} :
    countedPoints strict raws = .ok counted ↔
      (strict = true → raws.length ≤ maxPoints) ∧ raws ≠ [] ∧ counted = raws.take maxPoints := by
  have hcomm : raws.take maxPoints = counted ↔ counted = raws.take maxPoints := eq_comm
  by_cases hs : strict = true
  · simp only [countedPoints, hs, if_true, bind_eq_ok_iff, require_eq_ok_iff, exists_const, pure,
      Except.pure, Except.ok.injEq, hcomm, forall_const]
  · simp only [countedPoints, hs, if_false, Bool.false_eq_true, bind_eq_ok_iff, require_eq_ok_iff,
      exists_const, pure, Except.pure, Except.ok.injEq, hcomm, false_implies, true_and]

/-- **An event that lasts passes** when its duration is within the limits and the points of its
curve that count make a sound curve. -/
theorem continuous_eq_ok_iff {strict : Bool} {header : EventHeader} {raw : RawEvent} {e : Event} :
    continuous strict header duration raw = .ok e ↔
      (0 ≤ duration ∧ duration ≤ maxDuration) ∧ ∃ curve, raw.curve = some curve ∧
        (strict = true → curve.length ≤ maxPoints) ∧ SoundCurve duration (curve.take maxPoints) ∧
        e = .continuous header (Word.ofInt duration) ((curve.take maxPoints).map drawn) := by
  simp only [continuous, bind_eq_ok_iff, require_eq_ok_iff, exists_const]
  refine and_congr_right fun ⟨hd, _⟩ => ?_
  cases hc : raw.curve with
  | none => simp
  | some curve =>
    have htake : curve.take maxPoints ≠ [] ↔ curve ≠ [] := by simp [maxPoints]
    simp only [bind_eq_ok_iff, countedPoints_eq_ok_iff, pure, Except.pure, Except.ok.injEq,
      Option.some.injEq]
    constructor
    · rintro ⟨_, ⟨hs, hne, rfl⟩, points, hp, rfl⟩
      obtain ⟨hsound, rfl⟩ := (points_eq_ok_iff_sound hd (htake.2 hne)).1 hp
      exact ⟨curve, rfl, hs, hsound, rfl⟩
    · rintro ⟨_, rfl, hs, hsound, rfl⟩
      refine ⟨_, ⟨hs, htake.1 hsound.ne_nil, rfl⟩, _, ?_, rfl⟩
      exact (points_eq_ok_iff_sound hd hsound.ne_nil).2 ⟨hsound, rfl⟩

end curve

/-! ## What every event has -/

section event

variable {raw : RawEvent}

/-- There are two kinds of events, and one of them lasts. -/
theorem lasts_eq_ok_iff {b : Bool} :
    lasts raw = .ok b ↔ raw.kind = if b = true then "continuous" else "transient" := by
  unfold lasts
  by_cases hc : raw.kind = "continuous"
  · cases b <;> simp [hc]
  · by_cases ht : raw.kind = "transient"
    · cases b <;> simp [ht]
    · cases b <;> simp [hc, ht]

/-- A header passes if intensity and frequency are percentages. -/
theorem header_eq_ok_iff {channel : UInt8} {time : Int} {h : EventHeader} :
    header channel time raw = .ok h ↔
      (0 ≤ raw.intensity ∧ raw.intensity ≤ 100) ∧ (0 ≤ raw.frequency ∧ raw.frequency ≤ 100) ∧
        h = { channel, relativeTimeMs := Word.ofInt time, intensity := Word.ofInt raw.intensity,
              frequency := Word.ofInt raw.frequency } := by
  simp only [header, bind_eq_ok_iff, require_eq_ok_iff, exists_const, pure, Except.pure,
    Except.ok.injEq]
  exact and_congr_right fun _ => and_congr_right fun _ => eq_comm

end event

end Rules

end Haptics
