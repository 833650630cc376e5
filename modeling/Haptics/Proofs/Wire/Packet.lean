import Haptics.Wire.Packet
import Mathlib.Data.List.Forall2

/-!
# A packet is read as what it was written from

The reader of packets accepts what the writer writes, and nothing else: a buffer is read as a packet
exactly when it is the header of that packet and then its patterns, each behind its own index, with
the counts that they have. Only the word that gives the duration of a tap is not looked at.

A reader that leaves words behind is described by the words it takes: `read words = .ok (x, rest)`
exactly when `words` is an image of `x` and then `rest`.

* `readEvent_eq_ok_iff`, `readPattern_eq_ok_iff`: the images of an event and of a pattern.
* `ofWords_eq_ok_iff`: the image of a header.
* `decode_eq_ok_iff`: what is read as a packet.
* `decode_encode`: a packet that was written comes back.
-/

namespace Haptics

/-! ## Words that carry numbers -/

namespace Word

/-- A word is that of a natural number below `2 ^ 31` when it stands for the number. -/
theorem eq_ofNat_iff {w : Word} {n : Nat} (hn : n < 2147483648) : w = ofNat n ↔ w.toInt = n := by
  rw [← Int32.toInt_inj, toInt_ofNat hn]

/-- Two words are the same if their bits are. -/
theorem toUInt32_inj {v w : Word} : v.toUInt32 = w.toUInt32 ↔ v = w := by
  rw [← UInt32.toBitVec_inj, ← Int32.toBitVec_inj]
  rfl

/-- **A number that is read from its word**, if the word is not negative and not beyond a bound. -/
theorem natural_eq_ok_iff {w : Word} {n bound : Nat} {allowed : Prop} [Decidable allowed]
    {e : Failure} (hb : bound < 2147483648) (ha : allowed ↔ 0 ≤ w.toInt ∧ w.toInt ≤ bound) :
    (if allowed then Except.ok w.toInt.toNat else .error e) = .ok n ↔
      n ≤ bound ∧ w = ofNat n := by
  by_cases h : allowed
  · obtain ⟨hnn, hle⟩ := ha.1 h
    rw [if_pos h, Except.ok.injEq]
    constructor
    · rintro rfl
      have hlt : w.toInt.toNat < 2147483648 := by omega
      exact ⟨by omega, (eq_ofNat_iff hlt).2 (by omega)⟩
    · rintro ⟨hn, hw⟩
      have hi := (eq_ofNat_iff (by omega)).1 hw
      omega
  · rw [if_neg h]
    simp only [reduceCtorEq, false_iff]
    rintro ⟨hn, hw⟩
    have hi := (eq_ofNat_iff (by omega)).1 hw
    exact h (ha.2 (by omega))

end Word

/-- A word is read as a channel if it is the word of the channel. -/
theorem Records.channelOf_eq_ok_iff {w : Word} {channel : UInt8} :
    channelOf w = .ok channel ↔ w = Word.ofNat channel.toNat := by
  have hc : channel.toNat < 256 := channel.toNat_lt
  rw [Word.eq_ofNat_iff (by omega)]
  unfold channelOf
  split
  · next h =>
    rw [Except.ok.injEq, ← UInt8.toNat_inj, UInt8.toNat_ofNat']
    omega
  · next h =>
    simp only [reduceCtorEq, false_iff]
    omega

/-- A word is read as a number of points if it is that of so many as there may be. -/
theorem Records.pointCountOf_eq_ok_iff {w : Word} {count : Nat} :
    pointCountOf w = .ok count ↔ count ≤ Rules.maxPoints ∧ w = Word.ofNat count :=
  Word.natural_eq_ok_iff (by decide) Iff.rfl

/-! ## Images -/

/-- The number of points on the curve of an event; a tap has none. -/
def Event.pointCount : Event → Nat
  | transient _ => 0
  | continuous _ _ curve => curve.length

/-- Whether a pattern has no more events, and no more points on a curve, than fit in a packet. -/
structure Pattern.Fits (p : Pattern) : Prop where
  events : p.events.length ≤ Rules.maxEvents
  points : ∀ e ∈ p.events, e.pointCount ≤ Rules.maxPoints

namespace Packet

/-- Words that fall into pieces, one for each item of a list. -/
def Pieces {α : Type} (image : α → List Word → Prop) (items : List α) (words : List Word) : Prop :=
  ∃ pieces, List.Forall₂ image items pieces ∧ words = pieces.flatten

/-- The words that stand for an event: its record, in which a tap may have any duration. -/
inductive IsRecord : Event → List Word → Prop
  | tap (h : EventHeader) (durationMs : Word) :
      IsRecord (.transient h) ((record (.transient h)).set 6 durationMs)
  | lasting (h : EventHeader) (durationMs : Word) (curve : List CurvePoint) :
      IsRecord (.continuous h durationMs curve) (record (.continuous h durationMs curve))

/-- What is written for an event is a record of it. -/
theorem isRecord_record (e : Event) : IsRecord e (record e) := by
  cases e with
  | transient h => exact .tap h 0
  | continuous h durationMs curve => exact .lasting h durationMs curve

/-- The words that stand for a pattern behind its index. -/
def IsPattern (p : Nat × Pattern) (words : List Word) : Prop :=
  ∃ records, Pieces IsRecord p.2.events records ∧
    words = Word.ofNat p.1 :: p.2.relativeTimeMs :: Word.ofNat p.2.events.length :: records

section Pieces

variable {α : Type} {image : α → List Word → Prop}

/-- Nothing falls into no words. -/
theorem pieces_nil {words : List Word} : Pieces image [] words ↔ words = [] := by
  simp [Pieces]

/-- The words of the first item come first. -/
theorem pieces_cons {x : α} {items : List α} {words : List Word} :
    Pieces image (x :: items) words ↔
      ∃ first rest, image x first ∧ Pieces image items rest ∧ words = first ++ rest := by
  constructor
  · rintro ⟨pieces, h, rfl⟩
    obtain ⟨first, others, hx, hr, rfl⟩ := List.forall₂_cons_left_iff.1 h
    exact ⟨first, others.flatten, hx, ⟨others, hr, rfl⟩, List.flatten_cons⟩
  · rintro ⟨first, _, hx, ⟨others, hr, rfl⟩, rfl⟩
    exact ⟨first :: others, .cons hx hr, List.flatten_cons.symm⟩

/-- Pieces that are given by a function are pieces. -/
theorem pieces_flatMap {write : α → List Word} (items : List α)
    (h : ∀ x ∈ items, image x (write x)) : Pieces image items (items.flatMap write) := by
  refine ⟨items.map write, ?_, rfl⟩
  rw [List.forall₂_map_right_iff, List.forall₂_same]
  exact h

end Pieces

/-! ## Reading in turn -/

section reading

variable {total : Nat} {words rest : List Word}

/-- The next word is the first one that is left. -/
theorem next_eq_ok_iff {w : Word} : next total words = .ok (w, rest) ↔ words = w :: rest := by
  cases words <;> simp [next]

/-- **A curve is read** from the words that are written for it. -/
theorem readPoints_eq_ok_iff {count : Nat} {curve : List CurvePoint} :
    readPoints total count words = .ok (curve, rest) ↔
      curve.length = count ∧ words = Records.pointWords curve ++ rest := by
  induction count generalizing words curve rest with
  | zero =>
    simp only [readPoints, Except.ok.injEq, Prod.mk.injEq, List.length_eq_zero_iff]
    constructor
    · rintro ⟨rfl, rfl⟩
      exact ⟨rfl, rfl⟩
    · rintro ⟨rfl, rfl⟩
      exact ⟨rfl, rfl⟩
  | succ count ih =>
    simp only [readPoints, bind_eq_ok_iff, Prod.exists, next_eq_ok_iff, ih, pure, Except.pure,
      Except.ok.injEq, Prod.mk.injEq]
    constructor
    · rintro ⟨timeMs, _, rfl, intensity, _, rfl, frequency, _, rfl, others, _, ⟨rfl, rfl⟩, rfl, rfl⟩
      exact ⟨rfl, rfl⟩
    · rintro ⟨hc, rfl⟩
      cases curve with
      | nil => cases hc
      | cons p others =>
        exact ⟨_, _, rfl, _, _, rfl, _, _, rfl, others, _, ⟨Nat.succ.inj hc, rfl⟩, rfl, rfl⟩

/-- The rest of a record, once the words that every record has are read: a tap has none. -/
theorem readRest_eq_ok_iff {code durationMs : Word} {header : EventHeader} {e : Event} :
    readRest total code header durationMs words = .ok (e, rest) ↔
      (code = Event.transientCode ∧ e = .transient header ∧ words = rest) ∨
      ∃ curve, code = Event.continuousCode ∧ e = .continuous header durationMs curve ∧
        curve.length ≤ Rules.maxPoints ∧
        words = Word.ofNat curve.length :: Records.pointWords curve ++ rest := by
  unfold readRest
  by_cases ht : code = Event.transientCode
  · subst ht
    have hne : Event.transientCode ≠ Event.continuousCode := by decide
    simp [hne, eq_comm]
  · by_cases hc : code = Event.continuousCode
    · subst hc
      simp only [ht, if_false, if_true, false_and, false_or, true_and, bind_eq_ok_iff, Prod.exists,
        next_eq_ok_iff, Records.pointCountOf_eq_ok_iff, readPoints_eq_ok_iff, pure, Except.pure,
        Except.ok.injEq, Prod.mk.injEq]
      constructor
      · rintro ⟨_, _, rfl, _, ⟨hn, rfl⟩, curve, _, ⟨rfl, rfl⟩, rfl, rfl⟩
        exact ⟨curve, rfl, hn, rfl⟩
      · rintro ⟨curve, rfl, hn, rfl⟩
        exact ⟨_, _, rfl, _, ⟨hn, rfl⟩, curve, _, ⟨rfl, rfl⟩, rfl, rfl⟩
    · simp [ht, hc]

/-- The length that a record announces is its own, which is far below the limit of a word. -/
theorem length_word_iff {w : Word} {e : Event} (h : e.pointCount ≤ Rules.maxPoints) :
    w.toInt = (recordLength e - 2 : Nat) ↔ w = Word.ofNat (recordLength e - 2) := by
  rw [Word.eq_ofNat_iff]
  cases e <;> simp only [recordLength, Event.pointCount, Rules.maxPoints] at h ⊢ <;> omega

/-- **An event is read from its image**, and from nothing else. -/
theorem readEvent_eq_ok_iff {e : Event} :
    readEvent total words = .ok (e, rest) ↔
      e.pointCount ≤ Rules.maxPoints ∧ ∃ image, IsRecord e image ∧ words = image ++ rest := by
  simp only [readEvent, bind_eq_ok_iff, Prod.exists, next_eq_ok_iff,
    Records.channelOf_eq_ok_iff, readRest_eq_ok_iff]
  constructor
  · rintro ⟨_, _, rfl, lengthWord, _, rfl, _, _, rfl, channel, rfl, relativeTimeMs, _, rfl,
      intensity, _, rfl, frequency, _, rfl, durationMs, _, rfl, e', _, hr, hlen⟩
    split at hlen
    · next hl =>
      cases hlen
      rcases hr with ⟨rfl, rfl, rfl⟩ | ⟨curve, rfl, rfl, hn, rfl⟩
      · have hp : Event.pointCount
            (.transient { channel, relativeTimeMs, intensity, frequency }) ≤ Rules.maxPoints :=
          Nat.zero_le _
        rw [length_word_iff hp] at hl
        subst hl
        exact ⟨hp, _, .tap _ durationMs, rfl⟩
      · rw [length_word_iff (by exact hn)] at hl
        subst hl
        exact ⟨hn, _, .lasting _ _ curve, by simp [record, startWords, Event.code, Event.header,
          Event.durationMs]⟩
    · cases hlen
  · rintro ⟨hp, image, hi, rfl⟩
    have hl : (Word.ofNat (recordLength e - 2)).toInt = (recordLength e - 2 : Nat) :=
      (length_word_iff hp).2 rfl
    cases hi with
    | tap h durationMs =>
      exact ⟨_, _, rfl, _, _, rfl, _, _, rfl, h.channel, rfl, _, _, rfl, _, _, rfl, _, _, rfl,
        _, _, rfl, .transient h, rest, .inl ⟨rfl, rfl, rfl⟩, if_pos hl⟩
    | lasting h durationMs curve =>
      exact ⟨_, _, rfl, _, _, rfl, _, _, rfl, h.channel, rfl, _, _, rfl, _, _, rfl, _, _, rfl,
        _, _, rfl, .continuous h durationMs curve, rest, .inr ⟨curve, rfl, rfl, hp, rfl⟩,
        if_pos hl⟩

/-- **Events are read** from records of them, one behind the other. -/
theorem readEvents_eq_ok_iff {count : Nat} {events : List Event} :
    readEvents total count words = .ok (events, rest) ↔
      events.length = count ∧ (∀ e ∈ events, e.pointCount ≤ Rules.maxPoints) ∧
        ∃ image, Pieces IsRecord events image ∧ words = image ++ rest := by
  induction count generalizing words events rest with
  | zero =>
    simp only [readEvents, Except.ok.injEq, Prod.mk.injEq, List.length_eq_zero_iff]
    constructor
    · rintro ⟨rfl, rfl⟩
      exact ⟨rfl, by simp, [], pieces_nil.2 rfl, rfl⟩
    · rintro ⟨rfl, -, image, hi, rfl⟩
      rw [pieces_nil.1 hi]
      exact ⟨rfl, rfl⟩
  | succ count ih =>
    simp only [readEvents, bind_eq_ok_iff, Prod.exists, readEvent_eq_ok_iff, ih, pure, Except.pure,
      Except.ok.injEq, Prod.mk.injEq]
    constructor
    · rintro ⟨e, _, ⟨hp, first, hf, rfl⟩, others, _, ⟨hlen, hps, image, hi, rfl⟩, rfl, rfl⟩
      refine ⟨congrArg (· + 1) hlen, List.forall_mem_cons.2 ⟨hp, hps⟩, first ++ image, ?_, ?_⟩
      · exact pieces_cons.2 ⟨first, image, hf, hi, rfl⟩
      · exact (List.append_assoc ..).symm
    · rintro ⟨hlen, hps, _, hi, rfl⟩
      cases events with
      | nil => cases hlen
      | cons e others =>
        obtain ⟨hp, hps⟩ := List.forall_mem_cons.1 hps
        obtain ⟨first, image, hf, hi', rfl⟩ := pieces_cons.1 hi
        refine ⟨e, image ++ rest, ⟨hp, first, hf, ?_⟩, others, rest, ?_, rfl, rfl⟩
        · exact List.append_assoc ..
        · exact ⟨Nat.succ.inj hlen, hps, image, hi', rfl⟩

/-- A word is read as a number of events if it is that of so many as there may be. -/
theorem eventCountOf_eq_ok_iff {w : Word} {count : Nat} :
    eventCountOf w = .ok count ↔ count ≤ Rules.maxEvents ∧ w = Word.ofNat count :=
  Word.natural_eq_ok_iff (by decide) Iff.rfl

/-- No word is beyond the largest. -/
theorem indexOf_eq_ok_iff {w : Word} {index : Nat} :
    indexOf w = .ok index ↔ index ≤ Word.maxInt ∧ w = Word.ofNat index := by
  have hlt : w.toInt < 2147483648 := Int32.toInt_lt w
  have hmax : index ≤ Word.maxInt ↔ index ≤ 2147483647 := by
    unfold Word.maxInt
    omega
  rw [hmax]
  exact Word.natural_eq_ok_iff (by decide) (by omega)

/-- **A pattern is read from its image**, and from nothing else. -/
theorem readPattern_eq_ok_iff {p : Nat × Pattern} :
    readPattern total words = .ok (p, rest) ↔
      p.1 ≤ Word.maxInt ∧ p.2.Fits ∧ ∃ image, IsPattern p image ∧ words = image ++ rest := by
  simp only [readPattern, bind_eq_ok_iff, Prod.exists, next_eq_ok_iff, eventCountOf_eq_ok_iff,
    readEvents_eq_ok_iff, indexOf_eq_ok_iff, pure, Except.pure, Except.ok.injEq, Prod.mk.injEq]
  constructor
  · rintro ⟨_, _, rfl, start, _, rfl, _, _, rfl, _, ⟨hn, rfl⟩, events, _, ⟨rfl, hps, image, hi, rfl⟩,
      index, ⟨hmax, rfl⟩, rfl, rfl⟩
    exact ⟨hmax, ⟨hn, hps⟩, _, ⟨image, hi, rfl⟩, rfl⟩
  · rintro ⟨hmax, hfits, _, ⟨records, hr, rfl⟩, rfl⟩
    exact ⟨_, _, rfl, _, _, rfl, _, _, rfl, _, ⟨hfits.events, rfl⟩, p.2.events, rest,
      ⟨rfl, hfits.points, records, hr, rfl⟩, p.1, ⟨hmax, rfl⟩, rfl, rfl⟩

/-- The patterns are collected behind those that have been read before. -/
theorem readPatterns_eq_ok_iff {done patterns : List (Nat × Pattern)} {count : Nat} :
    readPatterns total done count words = .ok (patterns, rest) ↔
      ∃ read, patterns = done.reverse ++ read ∧ read.length = count ∧
        (∀ p ∈ read, p.1 ≤ Word.maxInt ∧ p.2.Fits) ∧
        ∃ image, Pieces IsPattern read image ∧ words = image ++ rest := by
  induction count generalizing done words with
  | zero =>
    simp only [readPatterns, Except.ok.injEq, Prod.mk.injEq, List.length_eq_zero_iff]
    constructor
    · rintro ⟨rfl, rfl⟩
      exact ⟨[], by simp, rfl, by simp, [], pieces_nil.2 rfl, rfl⟩
    · rintro ⟨read, rfl, rfl, -, image, hi, rfl⟩
      rw [pieces_nil.1 hi]
      exact ⟨by simp, rfl⟩
  | succ count ih =>
    constructor
    · intro h
      unfold readPatterns at h
      split at h
      · next first words' hf =>
        obtain ⟨hmax, hfits, piece, hp, rfl⟩ := readPattern_eq_ok_iff.1 hf
        obtain ⟨read, rfl, hlen, hall, image, hi, rfl⟩ := ih.1 h
        refine ⟨first :: read, by simp, congrArg (· + 1) hlen,
          List.forall_mem_cons.2 ⟨⟨hmax, hfits⟩, hall⟩, piece ++ image, ?_, ?_⟩
        · exact pieces_cons.2 ⟨piece, image, hp, hi, rfl⟩
        · exact (List.append_assoc ..).symm
      · cases h
    · rintro ⟨read, rfl, hlen, hall, _, hi, rfl⟩
      cases read with
      | nil => cases hlen
      | cons first read =>
        obtain ⟨⟨hmax, hfits⟩, hall⟩ := List.forall_mem_cons.1 hall
        obtain ⟨piece, image, hp, hi', rfl⟩ := pieces_cons.1 hi
        have hf : readPattern total (piece ++ image ++ rest) = .ok (first, image ++ rest) :=
          readPattern_eq_ok_iff.2 ⟨hmax, hfits, piece, hp, List.append_assoc ..⟩
        simp only [readPatterns, hf]
        exact ih.2 ⟨read, by simp, Nat.succ.inj hlen, hall, image, hi', rfl⟩

end reading

end Packet

/-! ## Headers -/

/-- A word is read as a version if it is the word of the version. -/
theorem Version.ofInt_toInt_eq_ok_iff {w : Word} {v : Version} :
    ofInt w.toInt = .ok v ↔ w = v.word := by
  constructor
  · intro h
    rw [← Int32.toInt_inj, eq_number_of_ofInt h]
    cases v <;> rfl
  · rintro rfl
    cases v <;> rfl

namespace PacketHeader

/-- The bits of the word that holds the two counts. -/
theorem toNat_countWord (h : PacketHeader) :
    h.countWord.toUInt32.toNat = h.total.toNat + 65536 * h.carried.toNat := by
  have ht : h.total.toNat < 65536 := h.total.toNat_lt
  have hc : h.carried.toNat < 65536 := h.carried.toNat_lt
  change (UInt32.ofNat (h.total.toNat + 65536 * h.carried.toNat)).toNat = _
  rw [UInt32.toNat_ofNat']
  omega

/-- The word of the two counts is the one from which they are read. -/
theorem countWord_eq_iff {w : Word} {h : PacketHeader} :
    w = h.countWord ↔
      UInt16.ofNat (w.toUInt32.toNat % 65536) = h.total ∧
        UInt16.ofNat (w.toUInt32.toNat / 65536) = h.carried := by
  have ht : h.total.toNat < 65536 := h.total.toNat_lt
  have hw : w.toUInt32.toNat < 4294967296 := w.toUInt32.toNat_lt
  rw [← UInt16.toNat_inj, ← UInt16.toNat_inj, UInt16.toNat_ofNat', UInt16.toNat_ofNat',
    ← Word.toUInt32_inj, ← UInt32.toNat_inj, toNat_countWord]
  omega

/-- **A header is read from its five words**, whatever comes behind. -/
theorem ofWords_eq_ok_iff {words : List Word} {h : PacketHeader} :
    ofWords words = .ok h ↔ ∃ rest, words = h.words ++ rest := by
  unfold ofWords
  split
  · next format version pid seq counts rest =>
    simp only [PacketHeader.words, List.cons_append, List.nil_append, List.cons.injEq,
      exists_and_left, countWord_eq_iff]
    split
    · next hf => simp [hf]
    · next hf =>
      rw [Decidable.not_not] at hf
      simp only [bind_eq_ok_iff, Version.ofInt_toInt_eq_ok_iff, pure, Except.pure, Except.ok.injEq,
        hf, true_and]
      constructor
      · rintro ⟨v, rfl, rfl⟩
        exact ⟨rfl, rfl, rfl, ⟨rfl, rfl⟩, rest, rfl⟩
      · rintro ⟨rfl, rfl, rfl, ⟨ht, hc⟩, -⟩
        exact ⟨h.version, rfl, by rw [ht, hc]⟩
  · next hshort =>
    simp only [reduceCtorEq, false_iff]
    rintro ⟨rest, rfl⟩
    exact hshort _ _ _ _ _ _ rfl

end PacketHeader

/-! ## Packets -/

namespace Packet

/-- **A packet is read exactly from what it was written from**: its header, which carries as many
patterns as there are, and then the image of each pattern behind its index. No index is beyond the
largest word, no pattern has more than sixteen events, and no curve more than sixteen points. -/
theorem decode_eq_ok_iff (words : List Word) (d : Packet) :
    decode words = .ok d ↔
      d.header.carried.toNat = d.patterns.length ∧
        (∀ p ∈ d.patterns, p.1 ≤ Word.maxInt ∧ p.2.Fits) ∧
        ∃ body, Pieces IsPattern d.patterns body ∧ words = d.header.words ++ body := by
  have hdrop (h : PacketHeader) (body : List Word) :
      (h.words ++ body).drop packetHeaderLength = body := rfl
  simp only [decode, bind_eq_ok_iff, Prod.exists, PacketHeader.ofWords_eq_ok_iff]
  constructor
  · rintro ⟨header, ⟨body, rfl⟩, patterns, rest, hr, hd⟩
    rw [hdrop, readPatterns_eq_ok_iff] at hr
    obtain ⟨read, rfl, hlen, hall, image, hi, rfl⟩ := hr
    split at hd
    · next hrest =>
      cases hd
      rw [List.isEmpty_iff.1 hrest, List.append_nil]
      exact ⟨hlen.symm, hall, image, hi, rfl⟩
    · cases hd
  · rintro ⟨hlen, hall, body, hi, rfl⟩
    refine ⟨d.header, ⟨body, rfl⟩, d.patterns, [], ?_, rfl⟩
    rw [hdrop, readPatterns_eq_ok_iff]
    exact ⟨d.patterns, rfl, hlen.symm, hall, body, hi, (List.append_nil _).symm⟩

/-! ## Packets that were written -/

/-- Patterns behind indices that count up from `first`. -/
def numbered (first : Nat) (patterns : List Pattern) : List (Nat × Pattern) :=
  (patterns.zipIdx first).map Prod.swap

/-- No patterns have no numbers. -/
@[simp] theorem numbered_nil (first : Nat) : numbered first [] = [] := rfl

/-- The first pattern has the first number. -/
theorem numbered_cons (first : Nat) (p : Pattern) (rest : List Pattern) :
    numbered first (p :: rest) = (first, p) :: numbered (first + 1) rest := by
  simp [numbered, List.zipIdx_cons]

/-- Patterns in two parts are numbered on. -/
theorem numbered_append (first : Nat) (patterns others : List Pattern) :
    numbered first (patterns ++ others) =
      numbered first patterns ++ numbered (first + patterns.length) others := by
  simp [numbered, List.zipIdx_append]

/-- The numbers are a range. -/
@[simp] theorem map_fst_numbered (first : Nat) (patterns : List Pattern) :
    (numbered first patterns).map (·.1) = List.range' first patterns.length := by
  rw [numbered, List.map_map, ← List.zipIdx_map_snd first patterns]
  rfl

/-- Without their numbers the patterns are the same again. -/
@[simp] theorem map_snd_numbered (first : Nat) (patterns : List Pattern) :
    (numbered first patterns).map (·.2) = patterns := by
  rw [numbered, List.map_map]
  exact List.zipIdx_map_fst first patterns

/-- To number patterns makes them neither more nor fewer. -/
@[simp] theorem length_numbered (first : Nat) (patterns : List Pattern) :
    (numbered first patterns).length = patterns.length := by
  simp [numbered]

/-- What is written for a pattern stands for it. -/
theorem isPattern_patternWords (p : Nat × Pattern) : IsPattern p (patternWords p.1 p.2) :=
  ⟨p.2.events.flatMap record, pieces_flatMap _ fun e _ => isRecord_record e, rfl⟩

/-- The words of the patterns stand one behind the other. -/
theorem bodyWords_eq (first : Nat) (patterns : List Pattern) :
    bodyWords first patterns = (numbered first patterns).flatMap fun p => patternWords p.1 p.2 := by
  induction patterns generalizing first with
  | nil => rfl
  | cons p rest ih => rw [bodyWords, ih, numbered_cons, List.flatMap_cons]

/-- **A packet that was written comes back**, if it carries as many patterns as its header says and
they fit. -/
theorem decode_encode {h : PacketHeader} {first : Nat} {patterns : List Pattern}
    (hc : h.carried.toNat = patterns.length) (hfits : ∀ p ∈ patterns, p.Fits)
    (hmax : first + patterns.length ≤ 2147483648) :
    decode (encode h first patterns) = .ok { header := h, patterns := numbered first patterns } := by
  refine (decode_eq_ok_iff _ _).2 ⟨by simpa using hc, fun p hp => ?_, ?_⟩
  · have hi : p.1 ∈ (numbered first patterns).map (·.1) := List.mem_map_of_mem hp
    have hq : p.2 ∈ (numbered first patterns).map (·.2) := List.mem_map_of_mem hp
    rw [map_fst_numbered, List.mem_range'_1] at hi
    rw [map_snd_numbered] at hq
    refine ⟨?_, hfits _ hq⟩
    unfold Word.maxInt
    omega
  · refine ⟨bodyWords first patterns, ?_, rfl⟩
    rw [bodyWords_eq]
    exact pieces_flatMap _ fun p _ => isPattern_patternWords p

end Packet

end Haptics
