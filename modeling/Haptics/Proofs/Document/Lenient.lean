import Haptics.Proofs.Document.Strict

/-!
# Which documents of version 1 pass

Version 1 leaves room: what is missing is filled in, and what is too much is not looked at. An event
is *settled* when the numbers that it leaves out are filled in, by its place in the list, and its
curve is cut off after sixteen points. Settled events keep the rules of version 2, so that all that
is known about those carries over.

* `RawEvent.counted`, `RawDocument.counted`: what the rules of version 1 look at.
* `lenient_counted`: nothing else makes a difference, whether the document passes or fails.
* `lenientEvent_eq_ok_iff`, `lenient_eq_ok_iff`: the events and the documents that pass.
* `validate_version_one`: all of it together.
-/

namespace Haptics

namespace RawEvent

/-- What the rules of version 1 look at in an event: not its channel, and of its curve the first
sixteen points. -/
def counted (raw : RawEvent) : RawEvent :=
  { raw with index := none, curve := raw.curve.map (·.take 16) }

/-- The event at the place `k` of a document, with everything filled in that it leaves out. -/
def settled (k : Nat) (raw : RawEvent) : RawEvent :=
  { raw with
    relativeTime := some (raw.relativeTime.getD (k * 400))
    duration := some (raw.duration.getD 0)
    index := some 0
    curve := raw.curve.map (·.take 16) }

end RawEvent

/-- What the rules of version 1 look at in a document. -/
def RawDocument.counted (raw : RawDocument) : Option (List RawEvent) :=
  raw.pattern.map fun events => (events.take 16).map RawEvent.counted

/-- **A fit event** at the place `k` of a version 1 document. -/
structure FitEvent (k : Nat) (raw : RawEvent) : Prop where
  kind : raw.kind = "transient" ∨ raw.kind = "continuous"
  start : 0 ≤ raw.relativeTime.getD (k * 400) ∧ raw.relativeTime.getD (k * 400) ≤ 50000
  intensity : 0 ≤ raw.intensity ∧ raw.intensity ≤ 100
  frequency : 0 ≤ raw.frequency ∧ raw.frequency ≤ 100
  lasting : raw.kind = "continuous" → (0 ≤ raw.duration.getD 0 ∧ raw.duration.getD 0 ≤ 5000) ∧
    ∃ curve, raw.curve = some curve ∧ 1 ≤ min 16 curve.length ∧
      SoundCurve (raw.duration.getD 0) (curve.take 16)

section fit

variable {k : Nat} {raw : RawEvent}

/-- What is drawn of a tap, with defaults for what is not given. -/
theorem RawEvent.settled_drawn_of_tap (h : raw.kind = "transient") :
    (raw.settled k).drawn = .transient {
      channel := 0
      relativeTimeMs := Word.ofInt (raw.relativeTime.getD (k * 400))
      intensity := Word.ofInt raw.intensity
      frequency := Word.ofInt raw.frequency } := by
  have hk : (raw.settled k).kind = "transient" := h
  rw [RawEvent.drawn_of_tap hk]
  rfl

/-- What is drawn of a lasting event, with defaults for what is not given. -/
theorem RawEvent.settled_drawn_of_lasting {curve : List RawPoint} (hk : raw.kind = "continuous")
    (hc : raw.curve = some curve) :
    (raw.settled k).drawn = .continuous {
      channel := 0
      relativeTimeMs := Word.ofInt (raw.relativeTime.getD (k * 400))
      intensity := Word.ofInt raw.intensity
      frequency := Word.ofInt raw.frequency }
      (Word.ofInt (raw.duration.getD 0)) ((curve.take 16).map RawPoint.drawn) := by
  have hcut : (raw.settled k).curve = some (curve.take 16) := congrArg (Option.map _) hc
  have hkind : (raw.settled k).kind = "continuous" := hk
  rw [RawEvent.drawn_of_lasting hkind rfl hcut]
  rfl

/-- A fit event is a tap, or has a curve for its duration. -/
theorem fitEvent_iff :
    FitEvent k raw ↔
      (0 ≤ raw.relativeTime.getD (k * 400) ∧ raw.relativeTime.getD (k * 400) ≤ 50000) ∧
      (0 ≤ raw.intensity ∧ raw.intensity ≤ 100) ∧ (0 ≤ raw.frequency ∧ raw.frequency ≤ 100) ∧
      (raw.kind = "transient" ∨ raw.kind = "continuous" ∧
        (0 ≤ raw.duration.getD 0 ∧ raw.duration.getD 0 ≤ 5000) ∧
        ∃ curve, raw.curve = some curve ∧ SoundCurve (raw.duration.getD 0) (curve.take 16)) := by
  constructor
  · intro h
    refine ⟨h.start, h.intensity, h.frequency, h.kind.imp_right fun hc => ?_⟩
    obtain ⟨hd, curve, hcurve, -, hsound⟩ := h.lasting hc
    exact ⟨hc, hd, curve, hcurve, hsound⟩
  · rintro ⟨hs, hin, hfr, ht | ⟨hc, hd, curve, hcurve, hsound⟩⟩
    · refine ⟨.inl ht, hs, hin, hfr, fun hc => ?_⟩
      rw [ht] at hc
      exact absurd hc (by decide)
    · refine ⟨.inr hc, hs, hin, hfr, fun _ => ⟨hd, curve, hcurve, ?_, hsound⟩⟩
      have hpos : 0 < (curve.take 16).length := List.length_pos_iff.2 hsound.ne_nil
      rwa [List.length_take] at hpos

/-- **A fit event keeps the rules of version 2** once it is settled. -/
theorem FitEvent.sound (h : FitEvent k raw) : SoundEvent (raw.settled k) where
  kind := h.kind
  index := ⟨0, rfl, by decide, by decide⟩
  start := ⟨_, rfl, h.start⟩
  intensity := h.intensity
  frequency := h.frequency
  lasting := by
    intro hc
    obtain ⟨hd, curve, hcurve, hlen, hsound⟩ := h.lasting hc
    have hcut : (raw.settled k).curve = some (curve.take 16) := by
      simp only [RawEvent.settled, hcurve, Option.map_some]
    refine ⟨_, _, rfl, hcut, hd, ?_, hsound⟩
    rw [List.length_take]
    exact ⟨hlen, Nat.min_le_left 16 curve.length⟩

end fit

namespace Rules

/-! ## What makes no difference -/

/-- If more points are dropped, only those that count need be there to begin with. -/
theorem countedPoints_take (curve : List RawPoint) :
    countedPoints false (curve.take 16) = countedPoints false curve := by
  have hne : curve.take 16 ≠ [] ↔ curve ≠ [] := by simp
  have htake : (curve.take 16).take maxPoints = curve.take maxPoints := List.take_take
  simp only [countedPoints, Bool.false_eq_true, if_false, hne, htake]

/-- Of an event only the points that count make a difference. -/
theorem lenientEvent_counted (k : Nat) (raw : RawEvent) :
    lenientEvent k raw.counted = lenientEvent k raw := by
  have hcont (h : EventHeader) (d : Int) :
      continuous false h d raw.counted = continuous false h d raw := by
    unfold continuous RawEvent.counted
    cases raw.curve with
    | none => rfl
    | some curve => simp only [Option.map_some, countedPoints_take]
  -- the header and the kind do not read the channel and the curve at all
  show (do
      let isContinuous ← lasts raw
      let time := raw.relativeTime.getD (k * defaultSpacing)
      checkStart time
      let header ← header 0 time raw
      if isContinuous then continuous false header (raw.duration.getD 0) raw.counted
      else return .transient header) = lenientEvent k raw
  simp only [hcont, lenientEvent]

/-- So it is for all events of a document. -/
theorem lenientEvents_counted (k : Nat) (raws : List RawEvent) :
    lenientEvents k (raws.map RawEvent.counted) = lenientEvents k raws := by
  induction raws generalizing k with
  | nil => rfl
  | cons raw rest ih => simp only [List.map_cons, lenientEvents, lenientEvent_counted, ih]

/-- **Only what counts makes a difference**, also to the rule that is broken first. -/
theorem lenient_counted (events : List RawEvent) :
    lenient ((events.take 16).map RawEvent.counted) = lenient events := by
  have hne : (events.take 16).map RawEvent.counted ≠ [] ↔ events ≠ [] := by simp
  have htake : ((events.take 16).map RawEvent.counted).take maxEvents =
      (events.take maxEvents).map RawEvent.counted := by
    rw [← List.map_take, List.take_take]
    rfl
  simp only [lenient, hne, htake, lenientEvents_counted]

/-! ## What passes -/

/-- **An event passes** when it is fit for its place. -/
theorem lenientEvent_eq_ok_iff {k : Nat} {raw : RawEvent} {e : Event} :
    lenientEvent k raw = .ok e ↔ FitEvent k raw ∧ e = (raw.settled k).drawn := by
  simp only [lenientEvent, bind_eq_ok_iff, lasts_eq_ok_iff, checkStart, require_eq_ok_iff,
    exists_const, header_eq_ok_iff, fitEvent_iff]
  constructor
  · rintro ⟨b, hk, hs, _, ⟨hin, hfr, rfl⟩, he⟩
    cases b with
    | true =>
      obtain ⟨hd, curve, hcurve, -, hsound, rfl⟩ := continuous_eq_ok_iff.1 he
      refine ⟨⟨hs, hin, hfr, .inr ⟨hk, hd, curve, hcurve, hsound⟩⟩, ?_⟩
      exact (RawEvent.settled_drawn_of_lasting hk hcurve).symm
    | false =>
      cases he
      exact ⟨⟨hs, hin, hfr, .inl hk⟩, (RawEvent.settled_drawn_of_tap hk).symm⟩
  · rintro ⟨⟨hs, hin, hfr, hkind⟩, rfl⟩
    rcases hkind with ht | ⟨hk, hd, curve, hcurve, hsound⟩
    · refine ⟨false, ht, hs, _, ⟨hin, hfr, rfl⟩, ?_⟩
      rw [RawEvent.settled_drawn_of_tap ht]
      rfl
    · refine ⟨true, hk, hs, _, ⟨hin, hfr, rfl⟩, ?_⟩
      apply continuous_eq_ok_iff.2
      refine ⟨hd, curve, hcurve, fun h => absurd h (by decide), hsound, ?_⟩
      exact RawEvent.settled_drawn_of_lasting hk hcurve

/-- **The events pass** when each of them is fit for its place. -/
theorem lenientEvents_eq_ok_iff {k : Nat} {raws : List RawEvent} {events : List Event} :
    lenientEvents k raws = .ok events ↔
      (∀ i raw, raws[i]? = some raw → FitEvent (i + k) raw) ∧
        events = raws.mapIdx fun i raw => (raw.settled (i + k)).drawn := by
  induction raws generalizing k events with
  | nil => simp [lenientEvents, eq_comm]
  | cons raw rest ih =>
    have hshift (i : Nat) : i + 1 + k = i + (k + 1) := by omega
    simp only [lenientEvents, bind_eq_ok_iff, lenientEvent_eq_ok_iff, ih, pure, Except.pure,
      Except.ok.injEq, List.mapIdx_cons, hshift, Nat.zero_add]
    constructor
    · rintro ⟨_, ⟨hfit, rfl⟩, _, ⟨hrest, rfl⟩, rfl⟩
      refine ⟨fun i e he => ?_, rfl⟩
      cases i with
      | zero =>
        rw [List.getElem?_cons_zero, Option.some.injEq] at he
        rwa [← he, Nat.zero_add]
      | succ i =>
        rw [hshift]
        exact hrest i e (by rwa [List.getElem?_cons_succ] at he)
    · rintro ⟨hfit, rfl⟩
      have hfirst : FitEvent k raw := Nat.zero_add k ▸ hfit 0 raw rfl
      refine ⟨_, ⟨hfirst, rfl⟩, _, ⟨fun i e he => ?_, rfl⟩, rfl⟩
      rw [← hshift]
      exact hfit (i + 1) e (by rwa [List.getElem?_cons_succ])

/-- **A document passes** when it has an event, and its first sixteen are fit for their places. -/
theorem lenient_eq_ok_iff {raws : List RawEvent} {pattern : Pattern} :
    lenient raws = .ok pattern ↔
      raws ≠ [] ∧ (∀ k raw, k < 16 → raws[k]? = some raw → FitEvent k raw) ∧
        pattern = {
          relativeTimeMs := 0
          events := (raws.take 16).mapIdx fun k raw => (raw.settled k).drawn } := by
  simp only [lenient, bind_eq_ok_iff, require_eq_ok_iff, exists_const, lenientEvents_eq_ok_iff,
    pure, Except.pure, Except.ok.injEq, Nat.add_zero]
  have hplaces : (∀ k raw, (raws.take maxEvents)[k]? = some raw → FitEvent k raw) ↔
      ∀ k raw, k < 16 → raws[k]? = some raw → FitEvent k raw := by
    simp only [List.getElem?_take, maxEvents]
    constructor
    · intro h k raw hk hraw
      exact h k raw (by rwa [if_pos hk])
    · intro h k raw hraw
      by_cases hk : k < 16
      · rw [if_pos hk] at hraw
        exact h k raw hk hraw
      · rw [if_neg hk] at hraw
        cases hraw
  rw [hplaces]
  constructor
  · rintro ⟨hne, _, ⟨hfit, rfl⟩, rfl⟩
    exact ⟨hne, hfit, rfl⟩
  · rintro ⟨hne, hfit, rfl⟩
    exact ⟨hne, _, ⟨hfit, rfl⟩, rfl⟩

end Rules

/-! ## Documents -/

namespace RawDocument

variable {raw : RawDocument}

/-- A document that declares version 1 is its list of events. -/
theorem validate_of_one (hv : raw.version = 1) :
    raw.validate = match raw.pattern with
      | none => .error (.malformed .patternMissing)
      | some events => (Rules.lenient events).map HapticDocument.v1 := by
  have hversion : Version.ofInt raw.version = .ok .one := by
    rw [hv]
    rfl
  unfold validate
  rw [hversion]
  cases raw.pattern with
  | none => rfl
  | some events =>
    show (Rules.lenient events).bind (fun pattern => .ok (HapticDocument.v1 pattern)) =
      (Rules.lenient events).map HapticDocument.v1
    cases Rules.lenient events <;> rfl

/-- **Which documents of version 1 pass**, and as what. -/
theorem validate_one_eq_ok_iff (hv : raw.version = 1) {doc : HapticDocument} :
    raw.validate = .ok doc ↔
      ∃ events, raw.pattern = some events ∧ events ≠ [] ∧
        (∀ k e, k < 16 → events[k]? = some e → FitEvent k e) ∧
        doc = .v1 {
          relativeTimeMs := 0
          events := (events.take 16).mapIdx fun k e => (e.settled k).drawn } := by
  rw [validate_of_one hv]
  cases raw.pattern with
  | none => simp
  | some events =>
    have hmap : (Rules.lenient events).map HapticDocument.v1 = .ok doc ↔
        ∃ pattern, Rules.lenient events = .ok pattern ∧ doc = .v1 pattern := by
      cases Rules.lenient events <;> simp [Except.map, eq_comm]
    simp only [hmap, Rules.lenient_eq_ok_iff, Option.some.injEq, exists_eq_left']
    constructor
    · rintro ⟨_, ⟨hne, hfit, rfl⟩, rfl⟩
      exact ⟨hne, hfit, rfl⟩
    · rintro ⟨hne, hfit, rfl⟩
      exact ⟨_, ⟨hne, hfit, rfl⟩, rfl⟩

/-- **What version 1 accepts, what it does not look at, and what becomes of the rest.** For a
document that declares version 1:

* the answer, be it a pattern or the rule that is broken, is the same for every such document with
  the same first sixteen events, up to their channels and to the points of their curves beyond the
  sixteenth;
* it passes exactly when there is an event and each of the first sixteen is fit for its place;
* what comes of it is one pattern at time 0, on channel 0, with the numbers of those events and, for
  what they leave out, the start that goes with their place and the duration 0. -/
theorem validate_version_one (raw : RawDocument) (hv : raw.version = 1) :
    (∀ other : RawDocument, other.version = 1 → other.counted = raw.counted →
      other.validate = raw.validate) ∧
    ((∃ doc, raw.validate = .ok doc) ↔
      ∃ events, raw.pattern = some events ∧ events ≠ [] ∧
        ∀ k e, k < 16 → events[k]? = some e → FitEvent k e) ∧
    ∀ doc, raw.validate = .ok doc →
      ∃ events pattern, raw.pattern = some events ∧ doc = .v1 pattern ∧
        pattern.relativeTimeMs = 0 ∧ (∀ e ∈ pattern.events, e.header.channel = 0) ∧
        pattern.events.map Event.written =
          (events.take 16).mapIdx fun k e => (e.settled k).essential := by
  refine ⟨?_, ?_, ?_⟩
  · intro other ho hc
    rw [validate_of_one hv, validate_of_one ho]
    unfold counted at hc
    cases hr : raw.pattern with
    | none =>
      rw [hr, Option.map_none, Option.map_eq_none_iff] at hc
      rw [hc]
    | some events =>
      rw [hr, Option.map_some, Option.map_eq_some_iff] at hc
      obtain ⟨others, hothers, heq⟩ := hc
      rw [hothers]
      simp only [← Rules.lenient_counted others, ← Rules.lenient_counted events, heq]
  · constructor
    · rintro ⟨doc, h⟩
      obtain ⟨events, hp, hne, hfit, -⟩ := (validate_one_eq_ok_iff hv).1 h
      exact ⟨events, hp, hne, hfit⟩
    · rintro ⟨events, hp, hne, hfit⟩
      exact ⟨_, (validate_one_eq_ok_iff hv).2 ⟨events, hp, hne, hfit, rfl⟩⟩
  · intro doc h
    obtain ⟨events, hp, -, hfit, rfl⟩ := (validate_one_eq_ok_iff hv).1 h
    refine ⟨events, _, hp, rfl, rfl, ?_, ?_⟩
    · intro e he
      obtain ⟨k, hk, rfl⟩ := List.mem_mapIdx.1 he
      unfold RawEvent.drawn
      split <;> rfl
    -- event by event: beyond the sixteenth place there is none on either side
    · apply List.ext_getElem?
      intro k
      rw [List.getElem?_map, List.getElem?_mapIdx, List.getElem?_mapIdx, Option.map_map]
      apply Option.map_congr
      intro e he
      have hk : k < 16 := by
        by_contra hge
        rw [List.getElem?_take_eq_none (by omega)] at he
        cases he
      rw [List.getElem?_take_of_lt hk] at he
      exact (hfit k e hk he).sound.written_drawn

/-- A curve of seventeen points, whose last lies outside of every event. -/
def overfull : List RawPoint :=
  ⟨0, 0, 0⟩ :: List.replicate 14 ⟨100, 50, -7⟩ ++ [⟨300, 0, 100⟩, ⟨-1, 900, 900⟩]

/-- An event with that curve, fifteen taps without a start, and an event of no known kind. -/
def crowded : RawDocument where
  version := 1
  patternList := none
  pattern := some <|
    { kind := "continuous", relativeTime := some 50000, duration := some 300, index := some 999
      intensity := 100, frequency := 0
      curve := some overfull } ::
    List.replicate 15
      { kind := "transient", relativeTime := none, duration := none, index := none
        intensity := 1, frequency := 100
        curve := none } ++
    [{ kind := "none", relativeTime := some (-1), duration := none, index := none
       intensity := 101, frequency := -1
       curve := none }]

/-- What is too much does not keep a document from passing. -/
theorem validate_version_one_crowded :
    crowded.version = 1 ∧
      ∃ events, crowded.pattern = some events ∧ events ≠ [] ∧
        ∀ k e, k < 16 → events[k]? = some e → FitEvent k e :=
  ⟨rfl, (validate_version_one crowded rfl).2.1.1 ⟨_, rfl⟩⟩

end RawDocument

end Haptics
