import Haptics.Compile
import Haptics.Effect
import Haptics.Proofs.Wire.Records

/-!
# What a document is compiled to

The scheduler never reads a stream. It looks at the words of which it knows the place
(`Stream.sender?`, `Stream.firstIndex?`, `Stream.isContinuation`), and so takes for granted that
they stand where the writer of a buffer has put them. For the streams of a document they do: every
stream passes the check of the scheduler, a document of version 1 is a buffer of no transmission,
and of the packets of a document of version 2 the first opens the transmission and the others
continue it.

* `Stream.isContinuation_iff`: what the index of the first pattern says of a packet.
* `Transmission.packetAt_of_getElem?`: what is seen of the packet at a place, and what it carries.
* `HapticDocument.compile_of_validate`: the main result.
-/

namespace Haptics

/-- Whether a packet continues a transmission is the question whether its first pattern has another
index than zero. -/
theorem Stream.isContinuation_iff {s : Stream} {index : Word} (h : s.firstIndex? = some index) :
    s.isContinuation = true ↔ index.toInt ≠ 0 := by
  have hzero : index = 0 ↔ index.toInt = 0 := by
    rw [← Int32.toInt_inj]
    rfl
  simp [isContinuation, h, hzero]

/-- The time that a stream with an end announces: so many plays and the pauses between them, where a
pause below zero is none, up to the largest number of 64 bits. -/
theorem PlayOptions.totalMs_of_finite {options : PlayOptions} {times : Nat}
    (h : options.loop = .finite times) (singleMs : Nat) :
    options.totalMs singleMs = some (min (UInt64.size - 1)
      (max times 1 * singleMs + (max times 1 - 1) * options.intervalMs.toInt.toNat)) := by
  rw [totalMs, h, Nat.mul_comm (max times 1), Nat.mul_comm (max times 1 - 1)]
  rfl

namespace Transmission

/-- **What the packet at a place of the transmission of a set is**: the scheduler sees the sender in
it and the index of its first pattern, ten patterns for each packet in front of it; whoever reads it
finds the number of patterns of the set, the number of its own, and its own, ten if there are so
many left; and it continues the transmission unless it is the first. -/
structure PacketAt (set : PatternSet) (sender : SenderId) (place : Nat) (packet : Stream) :
    Prop where
  sender : packet.sender? = some sender
  first : ∃ index, packet.firstIndex? = some index ∧ index.toInt = (10 * place : Nat)
  read : ∃ header, Packet.decode packet.words = .ok
    ⟨header, Packet.numbered (10 * place) ((set.patterns.drop (10 * place)).take 10)⟩ ∧
    header.total.toNat = set.patterns.length ∧
    header.carried.toNat = min 10 (set.patterns.length - 10 * place)
  continues : packet.isContinuation = true ↔ 0 < place

section packets

variable {set : PatternSet} {sender : SenderId} {options : PlayOptions} {tailMs place : Nat}
  {packet : Stream}

/-- The packet at a place carries the page at that place. -/
theorem page_of_getElem? (h : (paginate set sender options tailMs)[place]? = some packet) :
    ∃ page, (page, place) ∈ (pages pageSize set.patterns).zipIdx ∧
      packet = options.stream (buffer set sender (page, place)) (set.playbackMs tailMs) := by
  unfold paginate at h
  rw [List.getElem?_mapIdx] at h
  obtain ⟨page, hpage, rfl⟩ := Option.map_eq_some_iff.1 h
  exact ⟨page, List.mk_mem_zipIdx_iff_getElem?.2 hpage, rfl⟩

/-- The packets of a transmission are what they have to be at their places. -/
theorem packetAt_of_getElem? (hs : set.Sendable)
    (h : (paginate set sender options tailMs)[place]? = some packet) :
    PacketAt set sender place packet := by
  obtain ⟨page, hpage, rfl⟩ := page_of_getElem? h
  obtain ⟨hcut, hne⟩ := getElem?_pages (by decide) (List.mk_mem_zipIdx_iff_getElem?.1 hpage)
  obtain ⟨-, hle, hend, -⟩ := page_of_mem hpage
  dsimp only at hle hend
  have hmax := hs.count.2
  have hplace : place * pageSize = 10 * place := Nat.mul_comm place 10
  have hfirst : (options.stream (buffer set sender (page, place))
      (set.playbackMs tailMs)).firstIndex? = some (Word.ofNat (place * pageSize)) := by
    obtain ⟨p, rest, rfl⟩ := List.exists_cons_of_ne_nil hne
    rfl
  have hindex : (Word.ofNat (place * pageSize)).toInt = (10 * place : Nat) := by
    rw [hplace]
    exact Word.toInt_ofNat (by omega)
  refine ⟨rfl, ⟨_, hfirst, hindex⟩,
    ⟨header sender set.patterns.length page.length, ?_, ?_, ?_⟩, ?_⟩
  · rw [← hplace]
    exact (decode_buffer hs hpage).trans (by rw [hcut]; rfl)
  · exact total_header hs page.length
  · rw [carried_header _ hle, hcut, hplace, List.length_take, List.length_drop]
    rfl
  · rw [Stream.isContinuation_iff hfirst, hindex]
    omega

end packets

end Transmission

namespace HapticDocument

/-- A document that passes is compiled to something. -/
theorem compile_ne_nil {raw : RawDocument} {document : HapticDocument}
    (h : raw.validate = .ok document) (options : PlayOptions) (sender : SenderId) (tailMs : Nat) :
    document.compile options sender tailMs ≠ [] := by
  cases document with
  | v1 pattern => exact List.cons_ne_nil _ _
  | v2 set =>
    have hbuffers : Transmission.buffers set sender options tailMs ≠ [] :=
      Transmission.buffers_ne_nil (RawDocument.sendable_of_validate h)
    exact fun he => hbuffers (congrArg (List.map Stream.words) he)

/-- **What a document is compiled to fits what the scheduler looks at.** For every document that
passes, whoever sends it and however it is to be played, there are streams, and

* each of them passes the check of the scheduler, is played as the options say, and announces the
  same time: none if it is played without end, and otherwise that of all plays of the document with
  the pauses between them, up to the largest number of 64 bits;
* a document of version 1 is one buffer, of a word and 55 more for each event, which belongs to no
  transmission and continues none;
* a document of version 2 has a packet for every ten patterns, and each of them is what the packet
  at its place should be. -/
theorem compile_of_validate {raw : RawDocument} {document : HapticDocument}
    (h : raw.validate = .ok document) (options : PlayOptions) (sender : SenderId) (tailMs : Nat) :
    document.compile options sender tailMs ≠ [] ∧
    (∀ stream ∈ document.compile options sender tailMs,
      Effect.check (.stream stream) = .ok () ∧ stream.loop = options.loop ∧
      stream.intervalMs = options.intervalMs ∧ stream.amplitude = options.amplitude ∧
      stream.frequency = options.frequency ∧
      (options.loop = .infinite → stream.hintMs = none) ∧
      ∀ times, options.loop = .finite times → stream.hintMs = some (min (UInt64.size - 1)
        (max times 1 * document.playbackMs tailMs +
          (max times 1 - 1) * options.intervalMs.toInt.toNat))) ∧
    (∀ pattern, document = .v1 pattern → ∃ stream,
      document.compile options sender tailMs = [stream] ∧
      stream.words.length = 1 + 55 * pattern.events.length ∧ stream.sender? = none ∧
      stream.isContinuation = false) ∧
    ∀ set, document = .v2 set →
      (document.compile options sender tailMs).length = (set.patterns.length + 9) / 10 ∧
      ∀ place packet, (document.compile options sender tailMs)[place]? = some packet →
        Transmission.PacketAt set sender place packet := by
  refine ⟨compile_ne_nil h options sender tailMs, fun stream hstream => ?_, ?_, ?_⟩
  · obtain ⟨words, hwords, rfl⟩ := stream_of_mem_compile hstream
    refine ⟨(Effect.check_stream_eq_ok_iff _).2 hwords, rfl, rfl, rfl, rfl, fun hloop => ?_,
      fun times hloop => PlayOptions.totalMs_of_finite hloop _⟩
    show options.totalMs _ = none
    rw [PlayOptions.totalMs, hloop]
  · rintro pattern rfl
    refine ⟨_, rfl, ?_, rfl, rfl⟩
    have hfits : pattern.Fits := (Records.kept_eq_self_iff.1 (Records.kept_of_validate h)).2.1
    have hlength := Records.length_encode pattern
    rwa [List.take_of_length_le hfits.events] at hlength
  · rintro set rfl
    refine ⟨?_, fun place packet hpacket => ?_⟩
    · exact List.length_mapIdx.trans (Transmission.length_pages (by decide) set.patterns)
    · exact Transmission.packetAt_of_getElem? (RawDocument.sendable_of_validate h) hpacket

end HapticDocument

/-- A document of version 2 with a tap every tenth of a second. -/
def RawDocument.knocks (count : Nat) : RawDocument where
  version := 2
  pattern := none
  patternList := some ((List.range count).map fun k =>
    { absoluteTime := 100 * k
      events := [{
        kind := "transient", relativeTime := some 0, duration := none, index := some 0
        intensity := 50, frequency := 50
        curve := none }] })

/-- Twelve taps are compiled to two packets, of which the second continues what the first has
opened. -/
theorem HapticDocument.compile_of_validate_knocks :
    ∃ set, (RawDocument.knocks 12).validate = .ok (.v2 set) ∧
      (HapticDocument.v2 set).playbackMs 80 = 1180 ∧
      ∃ first second, (HapticDocument.v2 set).compile { loop := .finite 3, intervalMs := 20 }
          ⟨7, 1⟩ 80 = [first, second] ∧
        first.isContinuation = false ∧ second.isContinuation = true ∧
        first.hintMs = some 3580 ∧ second.hintMs = some 3580 := by
  have hset : (RawDocument.knocks 12).validate = .ok (.v2 {
      patterns := ((RawDocument.knocks 12).patternList.getD []).map RawPattern.drawn }) := rfl
  obtain ⟨-, hplayed, -, hpackets⟩ :=
    compile_of_validate hset { loop := .finite 3, intervalMs := 20 } ⟨7, 1⟩ 80
  obtain ⟨hcount, hplaces⟩ := hpackets _ rfl
  obtain ⟨first, second, htwo⟩ := List.length_eq_two.1 hcount
  rw [htwo] at hplayed hplaces
  refine ⟨_, hset, by decide, first, second, htwo, ?_, ?_, ?_, ?_⟩
  · have hno : ¬ first.isContinuation = true := fun hc =>
      absurd ((hplaces 0 first rfl).continues.1 hc) (Nat.lt_irrefl 0)
    simpa using hno
  · exact (hplaces 1 second rfl).continues.2 Nat.one_pos
  · exact (hplayed first (by simp)).2.2.2.2.2.2 3 rfl
  · exact (hplayed second (by simp)).2.2.2.2.2.2 3 rfl

end Haptics
