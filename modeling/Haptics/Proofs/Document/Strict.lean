import Haptics.Proofs.Document.Event

/-!
# Which documents of version 2 pass

The rules of version 2 are checked one pattern after the other, one event after the other and one
point after the other, and what comes next is checked against what came before: the start of the
latest event, the end of the latest pattern. Here the documents that pass are described as a whole
(`SoundDocument`): each event is sound for itself, and what stands side by side is in order.

* `strictEvent_eq_ok_iff`, `strictEvents_eq_ok_iff`, `strictPattern_eq_ok_iff`: the events and the
  patterns that pass.
* `strict_eq_ok_iff`: the documents that pass, and what becomes of them.
* `SoundDocument.written_drawn`: the numbers of a document that passes are kept.
* `validate_version_two`: both together.
-/

namespace Haptics

/-! ## Sound documents -/

/-- **A sound event** of a version 2 document. -/
structure SoundEvent (raw : RawEvent) : Prop where
  kind : raw.kind = "transient" ∨ raw.kind = "continuous"
  index : ∃ i, raw.index = some i ∧ 0 ≤ i ∧ i ≤ 255
  start : ∃ t, raw.relativeTime = some t ∧ 0 ≤ t ∧ t ≤ 50000
  intensity : 0 ≤ raw.intensity ∧ raw.intensity ≤ 100
  frequency : 0 ≤ raw.frequency ∧ raw.frequency ≤ 100
  lasting : raw.kind = "continuous" → ∃ d curve, raw.duration = some d ∧ raw.curve = some curve ∧
    (0 ≤ d ∧ d ≤ 5000) ∧ (1 ≤ curve.length ∧ curve.length ≤ 16) ∧ SoundCurve d curve

/-- What a sound event has, whatever its kind. -/
structure SoundHead (raw : RawEvent) : Prop where
  index : ∃ i, raw.index = some i ∧ 0 ≤ i ∧ i ≤ 255
  start : ∃ t, raw.relativeTime = some t ∧ 0 ≤ t ∧ t ≤ 50000
  intensity : 0 ≤ raw.intensity ∧ raw.intensity ≤ 100
  frequency : 0 ≤ raw.frequency ∧ raw.frequency ≤ 100

/-- A sound event is a tap, or has a curve for its duration. -/
theorem soundEvent_iff {raw : RawEvent} :
    SoundEvent raw ↔ SoundHead raw ∧ (raw.kind = "transient" ∨ raw.kind = "continuous" ∧
      ∃ d curve, raw.duration = some d ∧ raw.curve = some curve ∧ (0 ≤ d ∧ d ≤ 5000) ∧
        (1 ≤ curve.length ∧ curve.length ≤ 16) ∧ SoundCurve d curve) := by
  constructor
  · rintro ⟨hk, hi, hs, hin, hfr, hl⟩
    exact ⟨⟨hi, hs, hin, hfr⟩, hk.imp_right fun hc => ⟨hc, hl hc⟩⟩
  · rintro ⟨⟨hi, hs, hin, hfr⟩, ht | ⟨hk, hl⟩⟩
    · refine ⟨.inl ht, hi, hs, hin, hfr, fun hc => ?_⟩
      rw [ht] at hc
      exact absurd hc (by decide)
    · exact ⟨.inr hk, hi, hs, hin, hfr, fun _ => hl⟩

/-- **A sound pattern** of a version 2 document: its events are sound, and none of them starts
before the one in front of it. -/
structure SoundPattern (raw : RawPattern) : Prop where
  start : 0 ≤ raw.absoluteTime ∧ raw.absoluteTime ≤ 2147483647
  count : raw.events.length ≤ 16
  events : ∀ e ∈ raw.events, SoundEvent e
  ordered : raw.events.IsChain fun e f => e.start ≤ f.start

/-- A pattern starts when every event of the one in front of it is over. -/
structure RawPattern.Precedes (p q : RawPattern) : Prop where
  start : p.absoluteTime ≤ q.absoluteTime
  ends : ∀ e ∈ p.events, p.absoluteTime + (e.start + e.span) ≤ q.absoluteTime

/-- **A sound document** of version 2, as the list of its patterns. -/
structure SoundDocument (patterns : List RawPattern) : Prop where
  count : 1 ≤ patterns.length ∧ patterns.length ≤ 65535
  sound : ∀ p ∈ patterns, SoundPattern p
  ordered : patterns.IsChain RawPattern.Precedes

/-- The pattern with these numbers. -/
def RawPattern.drawn (raw : RawPattern) : Pattern where
  relativeTimeMs := Word.ofInt raw.absoluteTime
  events := raw.events.map RawEvent.drawn

/-- What counts of a pattern. -/
def RawPattern.essential (raw : RawPattern) : RawPattern :=
  { raw with events := raw.events.map RawEvent.essential }

/-- The numbers of a pattern. -/
def Pattern.written (p : Pattern) : RawPattern where
  absoluteTime := p.relativeTimeMs.toInt
  events := p.events.map Event.written

/-- The numbers of a set. -/
def PatternSet.written (s : PatternSet) : List RawPattern :=
  s.patterns.map Pattern.written

/-! ## Numbers are kept -/

section kept

variable {raw : RawEvent}

/-- A sound event starts within its pattern. -/
theorem SoundEvent.start_bounds (h : SoundEvent raw) : 0 ≤ raw.start ∧ raw.start ≤ 50000 := by
  obtain ⟨t, ht, hb⟩ := h.start
  simpa [RawEvent.start, ht] using hb

/-- A sound event does not last too long. -/
theorem SoundEvent.span_bounds (h : SoundEvent raw) : 0 ≤ raw.span ∧ raw.span ≤ 5000 := by
  unfold RawEvent.span
  by_cases hk : raw.kind = "continuous"
  · obtain ⟨d, -, hd, -, hb, -⟩ := h.lasting hk
    simpa [hk, hd] using hb
  · simp [hk]

/-- The start of a sound event has a place in a word. -/
theorem SoundEvent.toInt_start (h : SoundEvent raw) : (Word.ofInt raw.start).toInt = raw.start := by
  obtain ⟨lo, hi⟩ := h.start_bounds
  exact Word.toInt_ofInt_of_small (by omega) hi

/-- An event ends where its numbers say. -/
theorem SoundEvent.endTime_drawn (h : SoundEvent raw) :
    raw.drawn.endTime = raw.start + raw.span := by
  obtain ⟨lo, hi⟩ := h.span_bounds
  unfold RawEvent.drawn Event.endTime
  by_cases hk : raw.kind = "continuous"
  · have hs : raw.span = raw.duration.getD 0 := if_pos hk
    have hd : (Word.ofInt raw.span).toInt = raw.span :=
      Word.toInt_ofInt_of_small (by omega) (by omega)
    rw [if_pos hk, ← hs]
    exact congrArg₂ (· + ·) h.toInt_start hd
  · have hs : raw.span = 0 := if_neg hk
    rw [if_neg hk, hs]
    exact congrArg₂ (· + ·) h.toInt_start rfl

/-- The header of an event holds the numbers of the event. -/
theorem SoundEvent.written_header (h : SoundEvent raw) (duration : Option Int)
    (curve : Option (List RawPoint)) :
    raw.header.written raw.kind duration curve = { raw with duration, curve } := by
  have hc : some ((UInt8.ofNat (raw.index.getD 0).toNat).toNat : Int) = raw.index := by
    obtain ⟨i, hi, hil, hiu⟩ := h.index
    rw [hi, Option.getD_some, UInt8.toNat_ofNat', Option.some.injEq]
    omega
  have hs : some (Word.ofInt raw.start).toInt = raw.relativeTime := by
    obtain ⟨t, ht, -⟩ := h.start
    rw [h.toInt_start, RawEvent.start, ht, Option.getD_some]
  have hin : (Word.ofInt raw.intensity).toInt = raw.intensity :=
    Word.toInt_ofInt_of_small (by have := h.intensity.1; omega) (by have := h.intensity.2; omega)
  have hfr : (Word.ofInt raw.frequency).toInt = raw.frequency :=
    Word.toInt_ofInt_of_small (by have := h.frequency.1; omega) (by have := h.frequency.2; omega)
  simp only [RawEvent.header, EventHeader.written, hc, hs, hin, hfr]

/-- **No number of an event is altered**, and a tap loses a duration and a curve it may have. -/
theorem SoundEvent.written_drawn (h : SoundEvent raw) : raw.drawn.written = raw.essential := by
  unfold RawEvent.essential
  rcases (soundEvent_iff.1 h).2 with ht | ⟨hk, d, curve, hd, hc, ⟨hdl, hdu⟩, -, hsound⟩
  · have hne : raw.kind ≠ "continuous" := by
      rw [ht]
      decide
    rw [if_neg hne, RawEvent.drawn_of_tap ht, Event.written, ← ht, h.written_header]
  · have hdw : (Word.ofInt d).toInt = d := Word.toInt_ofInt_of_small (by omega) (by omega)
    have hcw : (curve.map RawPoint.drawn).map CurvePoint.written = curve := by
      rw [List.map_map]
      refine (List.map_congr_left fun p hp => ?_).trans (List.map_id curve)
      exact RawPoint.written_drawn (hsound.within p hp) (by omega)
    rw [if_pos hk, RawEvent.drawn_of_lasting hk hd hc, Event.written, hdw, hcw, ← hk,
      h.written_header, ← hd, ← hc]

end kept

/-- What counts of a sound pattern is kept when it is drawn. -/
theorem SoundPattern.written_drawn {raw : RawPattern} (h : SoundPattern raw) :
    raw.drawn.written = raw.essential := by
  obtain ⟨lo, hi⟩ := h.start
  have hs : (Word.ofInt raw.absoluteTime).toInt = raw.absoluteTime :=
    Word.toInt_ofInt (by omega) hi
  have he : (raw.events.map RawEvent.drawn).map Event.written =
      raw.events.map RawEvent.essential := by
    rw [List.map_map]
    exact List.map_congr_left fun e he => (h.events e he).written_drawn
  simp only [RawPattern.drawn, Pattern.written, RawPattern.essential, hs, he]

/-- **No number of a document is altered** when its patterns are drawn. -/
theorem SoundDocument.written_drawn {patterns : List RawPattern} (h : SoundDocument patterns) :
    PatternSet.written { patterns := patterns.map RawPattern.drawn } =
      patterns.map RawPattern.essential := by
  unfold PatternSet.written
  rw [List.map_map]
  exact List.map_congr_left fun p hp => (h.sound p hp).written_drawn

/-- A pattern ends no later than `x` when each of its events does. -/
theorem SoundPattern.endTime_le_iff {raw : RawPattern} {x : Int} (h : SoundPattern raw) :
    raw.drawn.endTime ≤ x ↔ 0 ≤ x ∧ ∀ e ∈ raw.events, e.start + e.span ≤ x := by
  have hends : raw.drawn.events.map Event.endTime = raw.events.map fun e => e.start + e.span := by
    unfold RawPattern.drawn
    rw [List.map_map]
    exact List.map_congr_left fun e he => (h.events e he).endTime_drawn
  unfold Pattern.endTime
  rw [hends, Pattern.latest_le_iff, List.forall_mem_map]
  intro t ht
  obtain ⟨e, he, rfl⟩ := List.mem_map.1 ht
  exact Int.add_nonneg (h.events e he).start_bounds.1 (h.events e he).span_bounds.1

/-- The event that ends last tells whether a sound pattern precedes another. -/
theorem SoundPattern.precedes_iff {p q : RawPattern} (h : SoundPattern p) :
    p.Precedes q ↔ p.absoluteTime + p.drawn.endTime ≤ q.absoluteTime := by
  have hle : p.absoluteTime + p.drawn.endTime ≤ q.absoluteTime ↔
      p.drawn.endTime ≤ q.absoluteTime - p.absoluteTime := by omega
  rw [hle, h.endTime_le_iff]
  constructor
  · rintro ⟨hs, ho⟩
    refine ⟨by omega, fun e he => ?_⟩
    have := ho e he
    omega
  · rintro ⟨hs, ho⟩
    refine ⟨by omega, fun e he => ?_⟩
    have := ho e he
    omega

namespace Rules

/-! ## Events -/

section events

variable {pattern event : Nat} {previous : Int} {raw : RawEvent}

/-- A channel passes if it is there and has a place in a byte. -/
theorem channel_eq_ok_iff {c : UInt8} :
    channel pattern event raw = .ok c ↔
      ∃ i, raw.index = some i ∧ (0 ≤ i ∧ i ≤ 255) ∧ c = UInt8.ofNat i.toNat := by
  unfold channel
  cases hi : raw.index with
  | none => simp
  | some i =>
    by_cases hb : 0 ≤ i ∧ i ≤ 255
    · simp [hb, eq_comm]
    · simp [hb]

/-- A start passes if it is there, within its bounds, and not before the event in front. -/
theorem start_eq_ok_iff {t : Int} :
    start pattern event previous raw = .ok t ↔
      raw.relativeTime = some t ∧ (0 ≤ t ∧ t ≤ maxRelativeTime) ∧ previous ≤ t := by
  unfold start
  cases ht : raw.relativeTime with
  | none => simp
  | some time =>
    simp only [checkStart, bind_eq_ok_iff, require_eq_ok_iff, exists_const, pure, Except.pure,
      Except.ok.injEq, Option.some.injEq]
    constructor
    · rintro ⟨hb, hp, rfl⟩
      exact ⟨rfl, hb, hp⟩
    · rintro ⟨rfl, hb, hp⟩
      exact ⟨hb, hp, rfl⟩

/-- Under the strict rules all points of a curve count, and there are sixteen at most. -/
theorem strictContinuous_eq_ok_iff {header : EventHeader} {d : Int} {e : Event} :
    continuous true header d raw = .ok e ↔
      ∃ curve, raw.curve = some curve ∧ (0 ≤ d ∧ d ≤ 5000) ∧
        (1 ≤ curve.length ∧ curve.length ≤ 16) ∧ SoundCurve d curve ∧
        e = .continuous header (Word.ofInt d) (curve.map RawPoint.drawn) := by
  rw [continuous_eq_ok_iff]
  constructor
  · rintro ⟨hd, curve, hc, hlen, hsound, rfl⟩
    have htake : curve.take maxPoints = curve := List.take_of_length_le (hlen rfl)
    rw [htake] at hsound ⊢
    exact ⟨curve, hc, hd, ⟨List.length_pos_iff.2 hsound.ne_nil, hlen rfl⟩, hsound, rfl⟩
  · rintro ⟨curve, hc, hd, ⟨-, hlen⟩, hsound, rfl⟩
    have htake : curve.take maxPoints = curve := List.take_of_length_le hlen
    refine ⟨hd, curve, hc, fun _ => hlen, ?_⟩
    rw [htake]
    exact ⟨hsound, rfl⟩

/-- **The head of an event passes** when it is sound and does not start before `previous`; what
comes next has the header of the event to go on with. -/
theorem head_eq_ok_iff {α : Type} {go : EventHeader → Int → Except Failure α} {x : α} :
    (do
      let channel ← channel pattern event raw
      let time ← start pattern event previous raw
      let header ← header channel time raw
      go header time) = .ok x ↔
      SoundHead raw ∧ previous ≤ raw.start ∧ go raw.header raw.start = .ok x := by
  simp only [bind_eq_ok_iff, channel_eq_ok_iff, start_eq_ok_iff, header_eq_ok_iff]
  constructor
  · rintro ⟨_, ⟨i, hi, hib, rfl⟩, t, ⟨ht, htb, hp⟩, _, ⟨hin, hfr, rfl⟩, hx⟩
    have hs : raw.start = t := by rw [RawEvent.start, ht, Option.getD_some]
    rw [hs, raw.header_eq hi ht]
    exact ⟨⟨⟨i, hi, hib⟩, ⟨t, ht, htb⟩, hin, hfr⟩, hp, hx⟩
  · rintro ⟨⟨⟨i, hi, hib⟩, ⟨t, ht, htb⟩, hin, hfr⟩, hp, hx⟩
    have hs : raw.start = t := by rw [RawEvent.start, ht, Option.getD_some]
    rw [hs] at hp hx
    exact ⟨_, ⟨i, hi, hib, rfl⟩, t, ⟨ht, htb, hp⟩, raw.header,
      ⟨hin, hfr, raw.header_eq hi ht⟩, hx⟩

/-- **An event passes** when it is sound and does not start before `previous`. -/
theorem strictEvent_eq_ok_iff {e : Event} {time : Int} :
    strictEvent pattern event previous raw = .ok (e, time) ↔
      SoundEvent raw ∧ previous ≤ raw.start ∧ e = raw.drawn ∧ time = raw.start := by
  unfold strictEvent
  simp only [bind_eq_ok_iff (x := lasts raw), lasts_eq_ok_iff, head_eq_ok_iff, soundEvent_iff]
  constructor
  · rintro ⟨b, hk, hhead, hp, he⟩
    cases b with
    | true =>
      cases hd : raw.duration with
      | none => simp [hd] at he
      | some d =>
        simp only [hd, if_true, bind_eq_ok_iff, strictContinuous_eq_ok_iff, pure, Except.pure,
          Except.ok.injEq, Prod.mk.injEq] at he
        obtain ⟨_, ⟨curve, hc, hdb, hlen, hsound, rfl⟩, rfl, rfl⟩ := he
        refine ⟨⟨hhead, .inr ⟨hk, d, curve, rfl, hc, hdb, hlen, hsound⟩⟩, hp, ?_, rfl⟩
        exact (RawEvent.drawn_of_lasting hk hd hc).symm
    | false =>
      cases he
      exact ⟨⟨hhead, .inl hk⟩, hp, (RawEvent.drawn_of_tap hk).symm, rfl⟩
  · rintro ⟨⟨hhead, ht | ⟨hk, d, curve, hd, hc, hdb, hlen, hsound⟩⟩, hp, rfl, rfl⟩
    · refine ⟨false, ht, hhead, hp, ?_⟩
      rw [RawEvent.drawn_of_tap ht]
      rfl
    · refine ⟨true, hk, hhead, hp, ?_⟩
      simp only [hd, if_true, bind_eq_ok_iff, strictContinuous_eq_ok_iff]
      refine ⟨_, ⟨curve, hc, hdb, hlen, hsound, rfl⟩, ?_⟩
      rw [RawEvent.drawn_of_lasting hk hd hc]
      rfl

/-- **The events of a pattern pass** when each of them is sound and they are in order from
`previous` on. -/
theorem strictEvents_eq_ok_iff {raws : List RawEvent} {events : List Event} :
    strictEvents pattern event previous raws = .ok events ↔
      (∀ e ∈ raws.head?, previous ≤ e.start) ∧ (raws.IsChain fun e f => e.start ≤ f.start) ∧
        (∀ e ∈ raws, SoundEvent e) ∧ events = raws.map RawEvent.drawn := by
  induction raws generalizing event previous events with
  | nil => simp [strictEvents, eq_comm]
  | cons raw rest ih =>
    simp only [strictEvents, bind_eq_ok_iff, Prod.exists, strictEvent_eq_ok_iff, ih, pure,
      Except.pure, Except.ok.injEq, List.isChain_cons, List.forall_mem_cons, List.map_cons,
      List.head?_cons, Option.mem_some_iff, forall_eq']
    constructor
    · rintro ⟨_, _, ⟨hs, hp, rfl, rfl⟩, _, ⟨hn, hc, hr, rfl⟩, rfl⟩
      exact ⟨hp, ⟨hn, hc⟩, ⟨hs, hr⟩, rfl⟩
    · rintro ⟨hp, ⟨hn, hc⟩, ⟨hs, hr⟩, rfl⟩
      exact ⟨_, _, ⟨hs, hp, rfl, rfl⟩, _, ⟨hn, hc, hr, rfl⟩, rfl⟩

end events

/-! ## Patterns -/

/-- **A pattern passes** when it is sound and does not start before `earliest`. -/
theorem strictPattern_eq_ok_iff {pattern : Nat} {earliest : Int} {raw : RawPattern} {p : Pattern} :
    strictPattern pattern earliest raw = .ok p ↔
      SoundPattern raw ∧ earliest ≤ raw.absoluteTime ∧ p = raw.drawn := by
  simp only [strictPattern, bind_eq_ok_iff, require_eq_ok_iff, exists_const,
    strictEvents_eq_ok_iff, pure, Except.pure, Except.ok.injEq]
  constructor
  · rintro ⟨hb, he, hn, _, ⟨-, hc, hs, rfl⟩, rfl⟩
    exact ⟨⟨hb, hn, hs, hc⟩, he, rfl⟩
  · rintro ⟨⟨hb, hn, hs, hc⟩, he, rfl⟩
    refine ⟨hb, he, hn, _, ⟨fun e he => ?_, hc, hs, rfl⟩, rfl⟩
    exact (hs e (List.mem_of_mem_head? he)).start_bounds.1

/-- The progress that one more sound pattern makes. -/
def Progress.next (p : Progress) (raw : RawPattern) : Progress where
  count := p.count + 1
  earliest := raw.absoluteTime + raw.drawn.endTime
  patterns := raw.drawn :: p.patterns

/-- One more pattern passes if it is sound and does not start too early. -/
theorem Progress.add_eq_ok_iff {p q : Progress} {raw : RawPattern} :
    p.add raw = .ok q ↔
      SoundPattern raw ∧ p.earliest ≤ raw.absoluteTime ∧ q = p.next raw := by
  simp only [Progress.add, bind_eq_ok_iff, strictPattern_eq_ok_iff, pure, Except.pure,
    Except.ok.injEq]
  constructor
  · rintro ⟨_, ⟨hs, he, rfl⟩, rfl⟩
    exact ⟨hs, he, rfl⟩
  · rintro ⟨hs, he, rfl⟩
    exact ⟨_, ⟨hs, he, rfl⟩, rfl⟩

/-- **The patterns pass** when each of them is sound, the first does not start too early, and each
precedes the next. -/
theorem foldlM_add_eq_ok_iff {p q : Progress} {raws : List RawPattern} :
    raws.foldlM Progress.add p = .ok q ↔
      (∀ r ∈ raws.head?, p.earliest ≤ r.absoluteTime) ∧ raws.IsChain RawPattern.Precedes ∧
        (∀ r ∈ raws, SoundPattern r) ∧ q = raws.foldl Progress.next p := by
  induction raws generalizing p with
  | nil => simp [pure, Except.pure, eq_comm]
  | cons raw rest ih =>
    simp only [List.foldlM_cons, bind_eq_ok_iff, Progress.add_eq_ok_iff, ih, List.isChain_cons,
      List.forall_mem_cons, List.foldl_cons, List.head?_cons, Option.mem_some_iff, forall_eq']
    constructor
    · rintro ⟨_, ⟨hs, he, rfl⟩, hn, hc, hr, rfl⟩
      exact ⟨he, ⟨fun q hq => hs.precedes_iff.2 (hn q hq), hc⟩, ⟨hs, hr⟩, rfl⟩
    · rintro ⟨he, ⟨hn, hc⟩, ⟨hs, hr⟩, rfl⟩
      exact ⟨_, ⟨hs, he, rfl⟩, fun q hq => hs.precedes_iff.1 (hn q hq), hc, hr, rfl⟩

/-- The patterns that have passed are kept, the latest first. -/
theorem patterns_foldl_next (p : Progress) (raws : List RawPattern) :
    (raws.foldl Progress.next p).patterns = (raws.map RawPattern.drawn).reverse ++ p.patterns := by
  induction raws generalizing p with
  | nil => rfl
  | cons raw rest ih => simp [ih, Progress.next]

/-- **The documents that pass are the sound ones**, and their patterns are drawn in order. -/
theorem strict_eq_ok_iff {raws : List RawPattern} {set : PatternSet} :
    strict raws = .ok set ↔
      SoundDocument raws ∧ set = { patterns := raws.map RawPattern.drawn } := by
  simp only [strict, bind_eq_ok_iff, require_eq_ok_iff, exists_const, foldlM_add_eq_ok_iff, pure,
    Except.pure, Except.ok.injEq]
  constructor
  · rintro ⟨hne, hn, _, ⟨-, hc, hs, rfl⟩, rfl⟩
    refine ⟨⟨⟨List.length_pos_iff.2 hne, hn⟩, hs, hc⟩, ?_⟩
    rw [patterns_foldl_next, List.append_nil, List.reverse_reverse]
  · rintro ⟨⟨⟨hpos, hn⟩, hs, hc⟩, rfl⟩
    refine ⟨List.length_pos_iff.1 hpos, hn, _, ⟨fun p hp => ?_, hc, hs, rfl⟩, ?_⟩
    · exact (hs p (List.mem_of_mem_head? hp)).start.1
    · rw [patterns_foldl_next, List.append_nil, List.reverse_reverse]

end Rules

/-! ## Documents -/

namespace RawDocument

/-- **What version 2 accepts, and what becomes of it.** A document that declares version 2 passes
exactly when it has a list of patterns and the list is sound:

* there are 1 to 65535 patterns, and each starts at a time from 0 to `2 ^ 31 - 1`, when the pattern
  in front of it and all events of that are over;
* a pattern has at most sixteen events, in order of their starts; an event is of a known kind, its
  channel is from 0 to 255, its start from 0 to 50000, and its intensity and its frequency are from
  0 to 100;
* an event that lasts takes 0 to 5000 and has a sound curve of 1 to 16 points.

The set that comes of it has the numbers of the document, field by field. -/
theorem validate_version_two (raw : RawDocument) (hv : raw.version = 2) :
    ((∃ doc, raw.validate = .ok doc) ↔
      ∃ patterns, raw.patternList = some patterns ∧ SoundDocument patterns) ∧
    ∀ doc, raw.validate = .ok doc →
      ∃ patterns set, raw.patternList = some patterns ∧ doc = .v2 set ∧
        set.written = patterns.map RawPattern.essential := by
  have hval (doc : HapticDocument) : raw.validate = .ok doc ↔
      ∃ patterns, raw.patternList = some patterns ∧ SoundDocument patterns ∧
        doc = .v2 { patterns := patterns.map RawPattern.drawn } := by
    have hversion : Version.ofInt raw.version = .ok .two := by
      rw [hv]
      rfl
    simp only [validate, hversion, bind_eq_ok_iff, Except.ok.injEq, exists_eq_left']
    cases hl : raw.patternList with
    | none => simp
    | some patterns =>
      simp only [bind_eq_ok_iff, Rules.strict_eq_ok_iff, pure, Except.pure, Except.ok.injEq,
        Option.some.injEq, exists_eq_left']
      constructor
      · rintro ⟨_, ⟨hs, rfl⟩, rfl⟩
        exact ⟨hs, rfl⟩
      · rintro ⟨hs, rfl⟩
        exact ⟨_, ⟨hs, rfl⟩, rfl⟩
  constructor
  · constructor
    · rintro ⟨doc, h⟩
      obtain ⟨patterns, hl, hs, -⟩ := (hval doc).1 h
      exact ⟨patterns, hl, hs⟩
    · rintro ⟨patterns, hl, hs⟩
      exact ⟨_, (hval _).2 ⟨patterns, hl, hs, rfl⟩⟩
  · intro doc h
    obtain ⟨patterns, hl, hs, rfl⟩ := (hval doc).1 h
    exact ⟨patterns, _, hl, rfl, hs.written_drawn⟩

/-- A pattern from 100 to 400 that lasts, and a tap that may come behind it. -/
def lastingThenTap (start : Int) : RawDocument where
  version := 2
  pattern := none
  patternList := some [
    { absoluteTime := 100
      events := [{
        kind := "continuous", relativeTime := some 0, duration := some 300, index := some 0
        intensity := 80, frequency := 40
        curve := some [⟨0, 0, 0⟩, ⟨150, 100, -100⟩, ⟨300, 0, 100⟩] }] },
    { absoluteTime := start
      events := [{
        kind := "transient", relativeTime := some 0, duration := some (-7), index := some 255
        intensity := 1, frequency := 1
        curve := none }] }]

/-- The tap may come at the very end of the pattern in front of it, and not before. -/
theorem validate_version_two_touching :
    (lastingThenTap 400).version = 2 ∧ (lastingThenTap 399).version = 2 ∧
      (∃ patterns, (lastingThenTap 400).patternList = some patterns ∧ SoundDocument patterns) ∧
      ¬∃ patterns, (lastingThenTap 399).patternList = some patterns ∧ SoundDocument patterns := by
  refine ⟨rfl, rfl, ?_, fun h => ?_⟩
  · exact (validate_version_two (lastingThenTap 400) rfl).1.1 ⟨_, rfl⟩
  · obtain ⟨doc, hdoc⟩ := (validate_version_two (lastingThenTap 399) rfl).1.2 h
    have hno : (lastingThenTap 399).validate =
        .error (.disordered (.patternStart 1 399 400)) := by rfl
    rw [hno] at hdoc
    cases hdoc

end RawDocument

end Haptics
