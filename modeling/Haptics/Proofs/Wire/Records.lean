import Haptics.Proofs.Document.Lenient
import Haptics.Proofs.Wire.Transmission

/-!
# What survives a buffer of the first format

A buffer of the first format has a place of fixed width for each of sixteen events, and in it a
place for each of sixteen points. Whatever pattern is written, passed by the rules or not, what is
read from the buffer is what of the pattern has a place there (`Records.kept`), and everything else
is gone without a trace. Nothing is lost of a pattern that version 1 accepts.

* `length_record`, `decode_flatten`: every record fills its place, so that the reader cuts where the
  writer did; `length_encode`: hence the length of a buffer.
* `eventOf_record`: what is read from a record.
* `kept_eq_self_iff`: the patterns of which nothing is lost.
* `decode_encoded`: all of it together.
-/

namespace Haptics.Records

/-! ## The width of a record -/

/-- The words of the first point come first. -/
theorem pointWords_cons (p : CurvePoint) (rest : List CurvePoint) :
    pointWords (p :: rest) = p.timeMs :: p.intensity :: p.frequency :: pointWords rest := rfl

/-- A point has three words. -/
theorem length_pointWords (curve : List CurvePoint) :
    (pointWords curve).length = 3 * curve.length := by
  induction curve with
  | nil => rfl
  | cons p rest ih =>
    rw [pointWords_cons]
    simp only [List.length_cons, ih]
    omega

/-- The words that an event uses fit in a record, because its curve is cut off. -/
theorem length_usedWords_le (e : Event) : (usedWords e).length ≤ recordLength := by
  cases e with
  | transient h => simp [usedWords, startWords, recordLength]
  | continuous h durationMs curve =>
    have hcut : (curve.take Rules.maxPoints).length ≤ 16 := List.length_take_le ..
    simp only [usedWords, startWords, recordLength, List.length_append, List.length_cons,
      List.length_nil, length_pointWords]
    omega

/-- Words that are filled up have the length to which they are. -/
theorem length_pad {length : Nat} {words : List Word} (h : words.length ≤ length) :
    (pad length words).length = length := by
  rw [pad, List.length_append, List.length_replicate]
  omega

/-- **Every record fills its place.** -/
theorem length_record (e : Event) : (record e).length = recordLength :=
  length_pad (length_usedWords_le e)

/-- So does each record of a pattern. -/
theorem length_of_mem_records (events : List Event) :
    ∀ r ∈ events.map record, r.length = recordLength := by
  intro r hr
  obtain ⟨e, -, rfl⟩ := List.mem_map.1 hr
  exact length_record e

/-- Records are cut apart where they were put together. -/
theorem split_flatten {records : List (List Word)} (h : ∀ r ∈ records, r.length = recordLength) :
    split records.length records.flatten = records := by
  induction records with
  | nil => rfl
  | cons r rest ih =>
    obtain ⟨hr, hrest⟩ := List.forall_mem_cons.1 h
    rw [List.length_cons, split, List.flatten_cons, List.take_left' hr, List.drop_left' hr, ih hrest]

/-- Records together are as long as their number says. -/
theorem length_flatten {records : List (List Word)} (h : ∀ r ∈ records, r.length = recordLength) :
    records.flatten.length = records.length * recordLength := by
  rw [List.length_flatten, List.map_congr_left h, List.map_const', List.sum_replicate_nat]

/-- A buffer has a word for its tag and a record for each of the first sixteen events. -/
theorem length_encode (p : Pattern) :
    (encode p).length = 1 + recordLength * (p.events.take Rules.maxEvents).length := by
  rw [encode, List.length_cons, List.flatMap_def, length_flatten (length_of_mem_records _),
    List.length_map, Nat.mul_comm, Nat.add_comm]

/-- **A buffer of records that fill their places** is read record by record. -/
theorem decode_flatten {records : List (List Word)} (h : ∀ r ∈ records, r.length = recordLength) :
    decode (recordTag :: records.flatten) = (do
      let events ← records.mapM eventOf
      return { relativeTimeMs := 0, events }) := by
  have hlength := length_flatten h
  have hwhole : records.flatten.length % recordLength = 0 := by
    rw [hlength, Nat.mul_mod_left]
  have hcount : records.flatten.length / recordLength = records.length := by
    rw [hlength]
    exact Nat.mul_div_cancel _ (by decide)
  rw [decode, if_neg (not_not_intro rfl), if_neg (not_not_intro hwhole), hcount, split_flatten h]

/-! ## What is read from a record -/

/-- The points are read that were written, whatever comes behind. -/
theorem pointsOf_pointWords (curve : List CurvePoint) (rest : List Word) :
    pointsOf curve.length (pointWords curve ++ rest) = curve := by
  induction curve with
  | nil => rfl
  | cons p others ih =>
    rw [pointWords_cons]
    simp only [List.length_cons, List.cons_append, pointsOf, ih]

/-- **What is read from a record** is what of the event has a place in it. -/
theorem eventOf_record (e : Event) : eventOf (record e) = .ok (keptEvent e) := by
  cases e with
  | transient h =>
    -- the words behind the start are zeros, which are read as channel 0 and as nothing else
    have hchannel : channelOf 0 = .ok 0 := channelOf_eq_ok_iff.2 rfl
    have hwords : record (.transient h) =
        Event.transientCode :: h.relativeTimeMs :: h.intensity :: h.frequency :: 0 :: 0 :: 0 ::
          List.replicate 48 0 := rfl
    rw [hwords, eventOf, hchannel]
    rfl
  | continuous h durationMs curve =>
    have hcut : (curve.take Rules.maxPoints).length ≤ Rules.maxPoints := List.length_take_le ..
    have hchannel : channelOf (Word.ofNat h.channel.toNat) = .ok h.channel :=
      channelOf_eq_ok_iff.2 rfl
    have hcount : pointCountOf (Word.ofNat (curve.take Rules.maxPoints).length) =
        .ok (curve.take Rules.maxPoints).length := pointCountOf_eq_ok_iff.2 ⟨hcut, rfl⟩
    have hne : Event.continuousCode ≠ Event.transientCode := by decide
    simp only [record, pad, usedWords, startWords, List.cons_append, List.nil_append, eventOf,
      hchannel, hcount, hne, if_false, if_true, pointsOf_pointWords, keptEvent, bind, Except.bind,
      pure, Except.pure]

/-- What is read from records is what is kept of the events, one by one. -/
theorem mapM_eventOf_record (events : List Event) :
    (events.map record).mapM eventOf = .ok (events.map keptEvent) := by
  induction events with
  | nil => rfl
  | cons e rest ih =>
    rw [List.map_cons, List.mapM_cons, eventOf_record, ih]
    rfl

/-- **What is read from a buffer** is what of the pattern has a place in it. -/
theorem decode_encode (p : Pattern) : decode (encode p) = .ok (kept p) := by
  rw [encode, List.flatMap_def, decode_flatten (length_of_mem_records _), mapM_eventOf_record]
  rfl

/-! ## The patterns of which nothing is lost -/

/-- Nothing is lost of an event if its curve is short and, for a tap, its channel is zero. -/
theorem keptEvent_eq_self_iff {e : Event} :
    keptEvent e = e ↔ e.pointCount ≤ Rules.maxPoints ∧ ∀ h, e = .transient h → h.channel = 0 := by
  cases e with
  | transient h =>
    have hkept : keptEvent (.transient h) = .transient h ↔ h.channel = 0 := by
      rw [keptEvent, Event.transient.injEq, EventHeader.mk.injEq]
      simp [eq_comm]
    rw [hkept]
    constructor
    · intro hc
      refine ⟨Nat.zero_le _, ?_⟩
      rintro _ ⟨⟩
      exact hc
    · intro hw
      exact hw.2 h rfl
  | continuous h durationMs curve =>
    have hcurve : curve.take Rules.maxPoints = curve ↔ curve.length ≤ Rules.maxPoints := by
      constructor
      · intro h
        rw [← h]
        exact List.length_take_le ..
      · exact List.take_of_length_le
    simp [keptEvent, Event.pointCount, hcurve]

/-- **Nothing is lost** of a pattern that starts at time 0, has no more events and points than there
are places, and has its taps on channel 0; of every other pattern something is. -/
theorem kept_eq_self_iff {p : Pattern} :
    kept p = p ↔ p.relativeTimeMs = 0 ∧ p.Fits ∧ ∀ h, .transient h ∈ p.events → h.channel = 0 := by
  obtain ⟨start, events⟩ := p
  have hall : events.map keptEvent = events ↔ ∀ e ∈ events, keptEvent e = e := by
    rw [← List.map_inj_left, List.map_id']
  rw [kept, Pattern.mk.injEq, eq_comm (a := 0)]
  apply and_congr_right
  intro hstart
  constructor
  · intro h
    have hlen : events.length ≤ Rules.maxEvents := by
      rw [← h, List.length_map]
      exact List.length_take_le ..
    rw [List.take_of_length_le hlen, hall] at h
    refine ⟨⟨hlen, fun e he => (keptEvent_eq_self_iff.1 (h e he)).1⟩, ?_⟩
    intro tap htap
    exact (keptEvent_eq_self_iff.1 (h _ htap)).2 tap rfl
  · rintro ⟨⟨hlen, hpoints⟩, htaps⟩
    rw [List.take_of_length_le hlen, hall]
    intro e he
    apply keptEvent_eq_self_iff.2
    refine ⟨hpoints e he, ?_⟩
    rintro tap rfl
    exact htaps tap he

/-- A pattern that comes of a document is one that the rules of version 1 let pass. -/
theorem lenient_of_validate {raw : RawDocument} {p : Pattern} (h : raw.validate = .ok (.v1 p)) :
    ∃ events, Rules.lenient events = .ok p := by
  simp only [RawDocument.validate, bind_eq_ok_iff] at h
  obtain ⟨version, -, h⟩ := h
  cases version with
  | one =>
    cases hp : raw.pattern with
    | none => simp [hp] at h
    | some events =>
      simp only [hp, bind_eq_ok_iff, pure, Except.pure, Except.ok.injEq,
        HapticDocument.v1.injEq] at h
      obtain ⟨_, hpass, rfl⟩ := h
      exact ⟨events, hpass⟩
  | two => cases hl : raw.patternList <;> simp [hl, bind_eq_ok_iff, pure, Except.pure] at h

/-- Nothing is lost of a pattern that comes of a document of version 1. -/
theorem kept_of_validate {raw : RawDocument} {p : Pattern} (h : raw.validate = .ok (.v1 p)) :
    kept p = p := by
  obtain ⟨events, hpass⟩ := lenient_of_validate h
  obtain ⟨-, hfit, rfl⟩ := Rules.lenient_eq_ok_iff.1 hpass
  have hdrawn : ∀ e ∈ (events.take 16).mapIdx fun k raw => (raw.settled k).drawn,
      ∃ k raw, FitEvent k raw ∧ e = (raw.settled k).drawn := by
    intro e he
    obtain ⟨k, hk, rfl⟩ := List.mem_mapIdx.1 he
    refine ⟨k, (events.take 16)[k], hfit k _ ?_ ?_, rfl⟩
    · rw [List.length_take] at hk
      omega
    · rw [List.getElem_take]
      exact List.getElem?_eq_getElem _
  rw [kept_eq_self_iff]
  refine ⟨rfl, ⟨?_, ?_⟩, ?_⟩
  · rw [List.length_mapIdx]
    exact List.length_take_le ..
  · intro e he
    obtain ⟨k, raw, hraw, rfl⟩ := hdrawn e he
    exact hraw.sound.pointCount_drawn
  · intro tap htap
    obtain ⟨k, raw, -, hraw⟩ := hdrawn _ htap
    have hchannel : (raw.settled k).drawn.header.channel = 0 := by
      unfold RawEvent.drawn
      split <;> rfl
    rwa [← hraw] at hchannel

/-! ## The round trip -/

/-- **A buffer of the first format gives back what has a place in it.** Whatever pattern is
written, reading succeeds, and gives the pattern at time 0, with its first sixteen events; of those,
a tap is on channel 0, and the curve of an event that lasts has its first sixteen points; all else
is as it was written. A pattern that comes of a document of version 1 comes back whole. -/
theorem decode_encoded (p : Pattern) :
    decode (encode p) = .ok (kept p) ∧
      ∀ raw : RawDocument, raw.validate = .ok (.v1 p) → decode (encode p) = .ok p := by
  refine ⟨decode_encode p, ?_⟩
  intro raw h
  rw [decode_encode, kept_of_validate h]

/-- A knock: a push that swells and fades, and a tap behind it. -/
def knock : RawDocument where
  version := 1
  patternList := none
  pattern := some [
    { kind := "continuous", relativeTime := none, duration := some 300, index := some 3
      intensity := 100, frequency := 0
      curve := some [⟨0, 0, 0⟩, ⟨150, 80, -100⟩, ⟨300, 0, 100⟩] },
    { kind := "transient", relativeTime := none, duration := none, index := none
      intensity := 1, frequency := 100
      curve := none }]

/-- The pattern that comes of it. -/
def knocked : Pattern where
  events := [
    .continuous ⟨0, 0, 100, 0⟩ 300 [⟨0, 0, 0⟩, ⟨150, 80, -100⟩, ⟨300, 0, 100⟩],
    .transient ⟨0, 400, 1, 100⟩]

/-- The knock comes back whole. -/
theorem decode_encoded_knock :
    knock.validate = .ok (.v1 knocked) ∧ decode (encode knocked) = .ok knocked :=
  ⟨by decide, (decode_encoded knocked).2 knock (by decide)⟩

end Haptics.Records
