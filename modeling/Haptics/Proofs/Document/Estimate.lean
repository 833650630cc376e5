import Haptics.Compile
import Haptics.Proofs.Document.Lenient
import Haptics.Proofs.Scheduler.Settled

/-!
# How long a document is taken to play

The estimate looks at one event: the one listed last in the last pattern. That is the last one to
*start*, in version 2, but not always the last one to *end*; in version 1 it need not even be the
last to start. This module says what the estimate covers, and carries it over to the deadline that
the scheduler sets when it starts a stream of the document.

* `timely_of_validate`: what both versions have in common. No time is negative, and a pattern starts
  when those in front of it are over.
* `Timely.covers_earlier`: all patterns but the last are covered.
* `Timely.covers_iff`: when the last one is covered as well.
* `estimate_of_validate`: the estimate and the deadline together.
-/

namespace Haptics

namespace Event

/-- Where the estimate takes the event to end: a tap lingers for the tail. -/
def estimatedEnd (tailMs : Nat) (e : Event) : Int :=
  if e.isContinuous then e.endTime else e.endTime + tailMs

/-- The times of an event are not negative. -/
structure Timely (e : Event) : Prop where
  start : 0 ≤ e.header.relativeTimeMs.toInt
  span : 0 ≤ e.durationMs.toInt

end Event

namespace Pattern

/-- When an event of the pattern ends, counted from the start of the document. -/
def endOf (p : Pattern) (e : Event) : Int := p.relativeTimeMs.toInt + e.endTime

/-- No event of the pattern ends after the place where the event listed last is taken to end. -/
def EndsLast (tailMs : Nat) (p : Pattern) : Prop :=
  ∀ last ∈ p.events.getLast?, ∀ e ∈ p.events, e.endTime ≤ last.estimatedEnd tailMs

/-- Whether no event ends later is told by looking at all of them. -/
instance (tailMs : Nat) (p : Pattern) : Decidable (p.EndsLast tailMs) :=
  inferInstanceAs (Decidable (∀ last ∈ p.events.getLast?, _))

/-- No time of the pattern is negative. -/
structure Timely (p : Pattern) : Prop where
  start : 0 ≤ p.relativeTimeMs.toInt
  events : ∀ e ∈ p.events, e.Timely

/-- A pattern starts when every event of the one in front of it is over. -/
structure Precedes (p q : Pattern) : Prop where
  start : p.relativeTimeMs.toInt ≤ q.relativeTimeMs.toInt
  ends : ∀ e ∈ p.events, p.endOf e ≤ q.relativeTimeMs.toInt

end Pattern

namespace HapticDocument

/-- The patterns of a document. -/
def patterns : HapticDocument → List Pattern
  | v1 pattern => [pattern]
  | v2 set => set.patterns

/-- What is known of the times of a document: none is negative, and no pattern starts before those
in front of it are over. In version 1 the only pattern starts at 0; in version 2 the events of a
pattern are in order. -/
structure Timely (doc : HapticDocument) : Prop where
  patterns : ∀ p ∈ doc.patterns, p.Timely
  ordered : doc.patterns.Pairwise Pattern.Precedes
  origin : ∀ p, doc = .v1 p → p.relativeTimeMs = 0
  sorted : doc.version = .two → ∀ p ∈ doc.patterns, p.events.Pairwise fun e f =>
    e.header.relativeTimeMs.toInt ≤ f.header.relativeTimeMs.toInt

end HapticDocument

/-! ## The times of a document that passes -/

section passes

variable {raw : RawEvent}

/-- A sound event starts where its numbers say. -/
theorem SoundEvent.start_drawn (h : SoundEvent raw) :
    raw.drawn.header.relativeTimeMs.toInt = raw.start := by
  have hheader : raw.drawn.header = raw.header := by
    unfold RawEvent.drawn
    split <;> rfl
  rw [hheader]
  exact h.toInt_start

/-- No time of a sound event is negative. -/
theorem SoundEvent.timely_drawn (h : SoundEvent raw) : raw.drawn.Timely where
  start := by
    rw [h.start_drawn]
    exact h.start_bounds.1
  span := by
    have hend := h.endTime_drawn
    rw [Event.endTime, h.start_drawn] at hend
    have hspan := h.span_bounds.1
    omega

/-- A sound pattern starts where its number says. -/
theorem SoundPattern.toInt_drawn {raw : RawPattern} (h : SoundPattern raw) :
    raw.drawn.relativeTimeMs.toInt = raw.absoluteTime := by
  obtain ⟨lo, hi⟩ := h.start
  exact Word.toInt_ofInt (by omega) hi

/-- No time of a sound pattern is negative. -/
theorem SoundPattern.timely_drawn {raw : RawPattern} (h : SoundPattern raw) :
    raw.drawn.Timely where
  start := by
    rw [h.toInt_drawn]
    exact h.start.1
  events := by
    intro e he
    obtain ⟨r, hr, rfl⟩ := List.mem_map.1 he
    exact (h.events r hr).timely_drawn

/-- Which pattern precedes which can be read from the numbers. -/
theorem SoundPattern.precedes_drawn {p q : RawPattern} (hp : SoundPattern p) (hq : SoundPattern q)
    (h : p.Precedes q) : p.drawn.Precedes q.drawn where
  start := by
    rw [hp.toInt_drawn, hq.toInt_drawn]
    exact h.start
  ends := by
    intro e he
    obtain ⟨r, hr, rfl⟩ := List.mem_map.1 he
    rw [Pattern.endOf, hp.toInt_drawn, hq.toInt_drawn, (hp.events r hr).endTime_drawn]
    exact h.ends r hr

/-- Who precedes one that comes before another precedes that one, too. -/
theorem RawPattern.Precedes.trans {p q r : RawPattern} (h : p.Precedes q) (h' : q.Precedes r) :
    p.Precedes r where
  start := Int.le_trans h.start h'.start
  ends := by
    intro e he
    exact Int.le_trans (h.ends e he) h'.start

/-- So a chain of patterns is in order as a whole. -/
instance : IsTrans RawPattern RawPattern.Precedes := ⟨fun _ _ _ => .trans⟩

/-- Each pattern of a sound document precedes all that come behind it. -/
theorem SoundDocument.pairwise_drawn {patterns : List RawPattern} (h : SoundDocument patterns) :
    (patterns.map RawPattern.drawn).Pairwise Pattern.Precedes := by
  rw [List.pairwise_map]
  apply h.ordered.pairwise.imp_of_mem
  intro p q hp hq hpq
  exact (h.sound p hp).precedes_drawn (h.sound q hq) hpq

/-- The events of a sound pattern are in order of their starts. -/
theorem SoundPattern.sorted_drawn {raw : RawPattern} (h : SoundPattern raw) :
    raw.drawn.events.Pairwise fun e f =>
      e.header.relativeTimeMs.toInt ≤ f.header.relativeTimeMs.toInt := by
  have : IsTrans RawEvent fun e f => e.start ≤ f.start := ⟨fun _ _ _ => Int.le_trans⟩
  show (raw.events.map RawEvent.drawn).Pairwise _
  rw [List.pairwise_map]
  apply h.ordered.pairwise.imp_of_mem
  intro e f he hf hef
  rwa [(h.events e he).start_drawn, (h.events f hf).start_drawn]

end passes

/-- **No time of a document that passes is negative**, and none of its patterns starts before those
in front of it are over. -/
theorem HapticDocument.timely_of_validate {raw : RawDocument} {doc : HapticDocument}
    (h : raw.validate = .ok doc) : doc.Timely := by
  simp only [RawDocument.validate, bind_eq_ok_iff] at h
  obtain ⟨version, -, h⟩ := h
  cases version with
  | one =>
    cases hp : raw.pattern with
    | none => simp [hp] at h
    | some events =>
      simp only [hp, bind_eq_ok_iff, Rules.lenient_eq_ok_iff, pure, Except.pure,
        Except.ok.injEq] at h
      obtain ⟨_, ⟨-, hfit, rfl⟩, rfl⟩ := h
      refine ⟨?_, List.pairwise_singleton _ _, ?_, fun hv => (by cases hv)⟩
      · intro p hp
        rw [List.mem_singleton.1 hp]
        refine ⟨Int.le_refl 0, fun e he => ?_⟩
        obtain ⟨k, hk, rfl⟩ := List.mem_mapIdx.1 he
        rw [List.length_take] at hk
        rw [List.getElem_take]
        exact (hfit k _ (by omega) (List.getElem?_eq_getElem (by omega))).sound.timely_drawn
      · rintro _ ⟨⟩
        rfl
  | two =>
    cases hp : raw.patternList with
    | none => simp [hp] at h
    | some patterns =>
      simp only [hp, bind_eq_ok_iff, Rules.strict_eq_ok_iff, pure, Except.pure,
        Except.ok.injEq] at h
      obtain ⟨_, ⟨hs, rfl⟩, rfl⟩ := h
      refine ⟨?_, hs.pairwise_drawn, fun _ heq => (by cases heq), ?_⟩
      · intro p hp
        obtain ⟨r, hr, rfl⟩ := List.mem_map.1 hp
        exact (hs.sound r hr).timely_drawn
      · intro _ p hp
        obtain ⟨r, hr, rfl⟩ := List.mem_map.1 hp
        exact (hs.sound r hr).sorted_drawn

/-! ## The estimate -/

/-- What is on a list is the last on it, or stands in front of that. -/
theorem mem_dropLast_or_getLast? {α : Type} {l : List α} {a : α} (h : a ∈ l) :
    a ∈ l.dropLast ∨ l.getLast? = some a := by
  have hne : l ≠ [] := List.ne_nil_of_mem h
  rw [← List.dropLast_concat_getLast hne] at h
  rcases List.mem_append.1 h with h | h
  · exact .inl h
  · rw [List.mem_singleton.1 h]
    exact .inr (List.getLast?_eq_some_getLast hne)

/-- What holds between any two on a list, in their order, holds between the last and those in front
of it. -/
theorem rel_of_mem_dropLast {α : Type} {R : α → α → Prop} {l : List α} {a b : α}
    (h : l.Pairwise R) (ha : a ∈ l.dropLast) (hb : l.getLast? = some b) : R a b := by
  obtain ⟨front, rfl⟩ := List.getLast?_eq_some_iff.1 hb
  rw [List.dropLast_concat] at ha
  exact (List.pairwise_append.1 h).2.2 a ha b List.mem_cons_self

section estimate

variable {tailMs : Nat}

/-- The estimate for a pattern is the place where its last event is taken to end. -/
theorem Pattern.playbackMs_of_last {p : Pattern} (h : p.Timely) {last : Event}
    (hl : p.events.getLast? = some last) :
    (p.playbackMs tailMs : Int) = last.estimatedEnd tailMs := by
  obtain ⟨hstart, hspan⟩ := h.events last (List.mem_of_getLast? hl)
  unfold playbackMs Event.estimatedEnd
  rw [hl]
  cases last with
  | continuous header durationMs curve =>
    show ((header.relativeTimeMs.toInt + durationMs.toInt).toNat : Int) =
      header.relativeTimeMs.toInt + durationMs.toInt
    exact Int.toNat_of_nonneg (Int.add_nonneg hstart hspan)
  | transient header =>
    have hnat : (header.relativeTimeMs.toInt.toNat : Int) = header.relativeTimeMs.toInt :=
      Int.toNat_of_nonneg hstart
    show ((header.relativeTimeMs.toInt.toNat + tailMs : Nat) : Int) =
      header.relativeTimeMs.toInt + 0 + tailMs
    rw [Int.natCast_add, hnat, Int.add_zero]

/-- An event that starts by the start of the last one has started when that is taken to end. -/
theorem Event.start_le_estimatedEnd {e last : Event} (hl : last.Timely)
    (h : e.header.relativeTimeMs.toInt ≤ last.header.relativeTimeMs.toInt) :
    e.header.relativeTimeMs.toInt ≤ last.estimatedEnd tailMs := by
  have hspan := hl.span
  unfold estimatedEnd endTime
  split <;> omega

namespace HapticDocument

variable {doc : HapticDocument}

/-- The estimate for a document is that for its last pattern. -/
theorem Timely.playbackMs_of_last (h : doc.Timely) {p : Pattern}
    (hp : doc.patterns.getLast? = some p) :
    (doc.playbackMs tailMs : Int) = p.relativeTimeMs.toInt + p.playbackMs tailMs := by
  cases doc with
  | v1 pattern =>
    obtain rfl : pattern = p := Option.some.inj hp
    rw [h.origin pattern rfl]
    show (pattern.playbackMs tailMs : Int) = 0 + pattern.playbackMs tailMs
    rw [Int.zero_add]
  | v2 set =>
    have hstart := (h.patterns p (List.mem_of_getLast? hp)).start
    have hset : set.patterns.getLast? = some p := hp
    show (set.playbackMs tailMs : Int) = p.relativeTimeMs.toInt + p.playbackMs tailMs
    rw [PatternSet.playbackMs, hset]
    show ((p.relativeTimeMs.toInt.toNat + p.playbackMs tailMs : Nat) : Int) =
      p.relativeTimeMs.toInt + p.playbackMs tailMs
    rw [Int.natCast_add, Int.toNat_of_nonneg hstart]

/-- **All patterns but the last are covered**: the last one starts when they are over. -/
theorem Timely.covers_earlier (h : doc.Timely) :
    ∀ p ∈ doc.patterns.dropLast, ∀ e ∈ p.events, p.endOf e ≤ doc.playbackMs tailMs := by
  intro p hp e he
  have hne : doc.patterns ≠ [] := List.ne_nil_of_mem (List.dropLast_subset _ hp)
  have hlast := List.getLast?_eq_some_getLast hne
  have hend := (rel_of_mem_dropLast h.ordered hp hlast).ends e he
  have hest : (doc.playbackMs tailMs : Int) = _ := h.playbackMs_of_last hlast
  omega

/-- **An event of the last pattern is covered** exactly when it ends by the time where the event
listed last is taken to end. -/
theorem Timely.endOf_le_iff (h : doc.Timely) {p : Pattern} (hp : doc.patterns.getLast? = some p)
    {last : Event} (hl : p.events.getLast? = some last) {e : Event} :
    p.endOf e ≤ doc.playbackMs tailMs ↔ e.endTime ≤ last.estimatedEnd tailMs := by
  have ht : p.Timely := h.patterns p (List.mem_of_getLast? hp)
  rw [h.playbackMs_of_last hp, Pattern.playbackMs_of_last ht hl, Pattern.endOf]
  exact Int.add_le_add_iff_left p.relativeTimeMs.toInt

/-- **The document is covered** exactly when, in its last pattern, no event ends after the event
listed last is taken to end. -/
theorem Timely.covers_iff (h : doc.Timely) :
    (∀ p ∈ doc.patterns, ∀ e ∈ p.events, p.endOf e ≤ doc.playbackMs tailMs) ↔
      ∀ p ∈ doc.patterns.getLast?, p.EndsLast tailMs := by
  constructor
  · intro hc p hp last hl e he
    exact (h.endOf_le_iff hp hl).1 (hc p (List.mem_of_getLast? hp) e he)
  · intro hends p hp e he
    rcases mem_dropLast_or_getLast? hp with hp | hp
    · exact h.covers_earlier p hp e he
    · have hl := List.getLast?_eq_some_getLast (List.ne_nil_of_mem he)
      exact (h.endOf_le_iff hp hl).2 (hends p hp _ hl e he)

/-- In version 2 every event has started by the estimated end. -/
theorem Timely.starts_covered (h : doc.Timely) (hv : doc.version = .two) :
    ∀ p ∈ doc.patterns, ∀ e ∈ p.events,
      p.relativeTimeMs.toInt + e.header.relativeTimeMs.toInt ≤ doc.playbackMs tailMs := by
  intro p hp e he
  have ht : p.Timely := h.patterns p hp
  rcases mem_dropLast_or_getLast? hp with hearlier | hlast
  · have hend : p.endOf e ≤ doc.playbackMs tailMs := h.covers_earlier p hearlier e he
    have hspan := (ht.events e he).span
    unfold Pattern.endOf Event.endTime at hend
    omega
  · obtain ⟨last, hl⟩ : ∃ last, p.events.getLast? = some last :=
      ⟨_, List.getLast?_eq_some_getLast (List.ne_nil_of_mem he)⟩
    have hle : e.header.relativeTimeMs.toInt ≤ last.header.relativeTimeMs.toInt := by
      rcases mem_dropLast_or_getLast? he with hfront | heq
      · have hrel := rel_of_mem_dropLast (h.sorted hv p hp) hfront hl
        exact hrel
      · cases heq.symm.trans hl
        exact Int.le_refl _
    rw [h.playbackMs_of_last hlast, Pattern.playbackMs_of_last ht hl]
    apply Int.add_le_add_left
    exact Event.start_le_estimatedEnd (ht.events last (List.mem_of_getLast? hl)) hle

end HapticDocument

end estimate

/-! ## The deadline -/

/-- All streams of a document announce the same time. -/
theorem HapticDocument.hintMs_of_mem_compile {doc : HapticDocument} {options : PlayOptions}
    {sender : SenderId} {tailMs : Nat} {stream : Stream}
    (h : stream ∈ doc.compile options sender tailMs) :
    stream.loop = options.loop ∧ stream.hintMs = options.totalMs (doc.playbackMs tailMs) := by
  obtain ⟨words, -, rfl⟩ := stream_of_mem_compile h
  exact ⟨rfl, rfl⟩

/-- All plays together take no less than one, as far as the announcement goes. -/
theorem PlayOptions.le_totalMs {options : PlayOptions} {times : Nat}
    (h : options.loop = .finite times) (singleMs : Nat) :
    ∃ hint, options.totalMs singleMs = some hint ∧ min maxHintMs singleMs ≤ hint := by
  refine ⟨_, by rw [totalMs, h], ?_⟩
  have hplays : singleMs ≤ singleMs * max times 1 :=
    Nat.le_mul_of_pos_right singleMs (Nat.le_max_right times 1)
  show min maxHintMs singleMs ≤ min maxHintMs (singleMs * max times 1 +
    options.intervalMs.toInt.toNat * (max times 1 - 1))
  omega

/-- Events end long before the longest time that can be announced. -/
theorem Pattern.endOf_le_maxHintMs (p : Pattern) (e : Event) : p.endOf e ≤ maxHintMs := by
  have hp := p.relativeTimeMs.toInt_lt
  have hs := e.header.relativeTimeMs.toInt_lt
  have hd := e.durationMs.toInt_lt
  unfold endOf Event.endTime maxHintMs
  omega

/-- What is covered by the estimate is covered by what a stream with an end announces. -/
theorem HapticDocument.endOf_le_hint {doc : HapticDocument} {options : PlayOptions}
    {sender : SenderId} {tailMs times : Nat} {stream : Stream}
    (h : stream ∈ doc.compile options sender tailMs) (hloop : stream.loop = .finite times) :
    ∃ hint, stream.hintMs = some hint ∧ ∀ p : Pattern, ∀ e : Event,
      p.endOf e ≤ doc.playbackMs tailMs → p.endOf e ≤ hint := by
  obtain ⟨hsame, hhint⟩ := hintMs_of_mem_compile h
  obtain ⟨hint, htotal, hle⟩ := PlayOptions.le_totalMs (hsame ▸ hloop) (doc.playbackMs tailMs)
  refine ⟨hint, hhint.trans htotal, fun p e hcovered => ?_⟩
  have hmax := p.endOf_le_maxHintMs e
  omega

/-- A stream that starts is given up when the time that it announces has passed. -/
theorem Scheduler.deadline_of_startStep {σ : Type} {c : Context σ} {s t : Scheduler σ}
    {p : Playback} {stream : Stream} {cursor : Nat} (hp : s.current = some p)
    (hn : p.nextStep = some (.stream stream, cursor)) (ht : s.startStep c = (false, t)) :
    ∃ q, t.current = some q ∧ q.deadline = stream.hintMs.map (c.now + ·) := by
  have hs := started_startStep (c := c) hp
  rw [ht] at hs
  cases hs with
  | @launched line step cursor' info hn' htalk reported =>
    cases hn.symm.trans hn'
    exact ⟨_, rfl, rfl⟩

/-- **What the estimate covers.** For a document that passes, and any tail:

* every event of every pattern but the last is covered: it ends no later than estimated;
* all events are covered exactly when, in the last pattern, none ends after the one listed last, or
  the tail after it if that is a tap;
* in version 2 every event has at least started;
* a stream of the document that has an end announces a time that covers each of these events, too,
  and when the scheduler starts it the deadline that is set lies at or behind their ends. -/
theorem HapticDocument.estimate_of_validate {raw : RawDocument} {doc : HapticDocument}
    (h : raw.validate = .ok doc) (tailMs : Nat) :
    (∀ p ∈ doc.patterns.dropLast, ∀ e ∈ p.events, p.endOf e ≤ doc.playbackMs tailMs) ∧
    ((∀ p ∈ doc.patterns, ∀ e ∈ p.events, p.endOf e ≤ doc.playbackMs tailMs) ↔
      ∀ p ∈ doc.patterns.getLast?, p.EndsLast tailMs) ∧
    (doc.version = .two → ∀ p ∈ doc.patterns, ∀ e ∈ p.events,
      p.relativeTimeMs.toInt + e.header.relativeTimeMs.toInt ≤ doc.playbackMs tailMs) ∧
    ∀ (options : PlayOptions) (sender : SenderId), ∀ stream ∈ doc.compile options sender tailMs,
      ∀ times, stream.loop = .finite times →
      ∀ {σ : Type} (c : Context σ) (s t : Scheduler σ) (q : Playback) (cursor : Nat),
        s.current = some q → q.nextStep = some (.stream stream, cursor) →
        s.startStep c = (false, t) →
        ∃ q' deadline, t.current = some q' ∧ q'.deadline = some deadline ∧
          ∀ p ∈ doc.patterns, ∀ e ∈ p.events, p.endOf e ≤ doc.playbackMs tailMs →
            c.now + p.endOf e ≤ deadline := by
  have htimely := timely_of_validate h
  refine ⟨htimely.covers_earlier, htimely.covers_iff, htimely.starts_covered, ?_⟩
  intro options sender stream hstream times hloop σ c s t q cursor hq hn ht
  obtain ⟨hint, hhint, hcovers⟩ := endOf_le_hint hstream hloop
  obtain ⟨q', hq', hdeadline⟩ := Scheduler.deadline_of_startStep hq hn ht
  rw [hhint, Option.map_some] at hdeadline
  refine ⟨q', c.now + hint, hq', hdeadline, ?_⟩
  intro p _ e _ hcovered
  have hle := hcovers p e hcovered
  omega

/-- Two taps that are over before the vibration behind them is. -/
def RawDocument.tapsThenLasting : RawDocument where
  version := 1
  patternList := none
  pattern := some [
    { kind := "transient", relativeTime := none, duration := none, index := none
      intensity := 50, frequency := 50
      curve := none },
    { kind := "transient", relativeTime := none, duration := none, index := none
      intensity := 50, frequency := 50
      curve := none },
    { kind := "continuous", relativeTime := none, duration := some 100, index := none
      intensity := 50, frequency := 50
      curve := some [⟨0, 0, 0⟩, ⟨100, 0, 0⟩] }]

/-- The estimate covers a document whose last event is the last to end. -/
theorem HapticDocument.estimate_of_validate_tapsThenLasting :
    ∃ doc, RawDocument.tapsThenLasting.validate = .ok doc ∧ doc.playbackMs 80 = 900 ∧
      ∀ p ∈ doc.patterns, ∀ e ∈ p.events, p.endOf e ≤ doc.playbackMs 80 := by
  have hdoc : RawDocument.tapsThenLasting.validate = .ok (.v1 {
      events := ((RawDocument.tapsThenLasting.pattern.getD []).mapIdx RawEvent.settled).map
        RawEvent.drawn }) := rfl
  exact ⟨_, hdoc, by decide, (estimate_of_validate hdoc 80).2.1.2 (by decide)⟩

/-- A vibration of a second with a tap in it. -/
def RawDocument.tapWithin : RawDocument where
  version := 2
  pattern := none
  patternList := some [
    { absoluteTime := 0
      events := [
        { kind := "continuous", relativeTime := some 0, duration := some 1000, index := some 0
          intensity := 50, frequency := 50
          curve := some [⟨0, 0, 0⟩, ⟨1000, 0, 0⟩] },
        { kind := "transient", relativeTime := some 100, duration := none, index := some 0
          intensity := 50, frequency := 50
          curve := none }] }]

/-- **The event listed last need not be the last to end**: the estimate stops at the tap, and so
does the time that the streams of the document announce. -/
theorem HapticDocument.estimate_stops_at_tap :
    ∃ doc, RawDocument.tapWithin.validate = .ok doc ∧ doc.playbackMs 80 = 180 ∧
      (∃ p ∈ doc.patterns, ∃ e ∈ p.events, p.endOf e = 1000) ∧
      ∀ stream ∈ doc.compile {} ⟨0, 1⟩ 80, stream.hintMs = some 180 := by
  have hdoc : RawDocument.tapWithin.validate = .ok (.v2 {
      patterns := (RawDocument.tapWithin.patternList.getD []).map RawPattern.drawn }) := rfl
  refine ⟨_, hdoc, by decide, by decide, fun stream hstream => ?_⟩
  rw [(hintMs_of_mem_compile hstream).2]
  rfl

end Haptics
