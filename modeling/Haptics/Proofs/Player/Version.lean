import Haptics.Proofs.Player.Order

/-!
# The version is asked for first

A player reads the version of a document from a record that has nothing else, and the document
itself only when it knows that the actuator plays this version. What the two readers say of a text
is the same if the text writes its document as an object, whose other members the first reader
passes over. In an array nothing is passed over: one with more items than fields is refused, and the
record of the version has one field. So no document that is written as an array is played, though it
can be read.

* `RawDocument.declaredVersion?_object`: objects, in any order and with any other members.
* `RawDocument.declaredVersion?_array`: arrays.
* `Player.version_readers_agree`: the main result, with what follows for a player.
-/

namespace Haptics

namespace Json

/-- **Whether a text writes its value as an array.** -/
def IsListing (text : String) : Prop :=
  ∃ items, read? text.toList = some (.array items)

/-- A text is a listing if the value that is read from it is one. -/
theorem isListing_iff {text : String} :
    IsListing text ↔ ((read? text.toList).bind items?).isSome = true := by
  unfold IsListing
  cases read? text.toList with
  | none => simp
  | some value => cases value <;> simp [items?]

/-- Whether a text is a listing is told by reading it. -/
instance (text : String) : Decidable (IsListing text) :=
  decidable_of_iff _ isListing_iff.symm

/-- The first field of an object is the same whether or not other fields are asked for. -/
theorem record?_head {members : List (Option String × Json)} {name : String}
    {names : List String} {first : Option Json} {others : List (Option Json)}
    (h : record? (name :: names) (.object members) = some (first :: others)) :
    record? [name] (.object members) = some [first] := by
  simp only [record?] at h ⊢
  split at h
  · next htext =>
    rw [if_pos htext]
    simp only [List.mapM_cons, Option.bind_eq_bind, Option.bind_eq_some_iff] at h
    obtain ⟨value, hvalue, values, -, hcons⟩ := h
    cases hcons
    simp [hvalue]
  · cases h

end Json

namespace RawDocument

open Json

variable {raw : RawDocument}

/-- What a document is read from. -/
theorem exists_record_of_ofJson? {value : Json} (h : ofJson? value = some raw) :
    ∃ metadata pattern patternList,
      record? ["Metadata", "Pattern", "PatternList"] value =
        some [metadata, pattern, patternList] ∧
      required? version? metadata = some raw.version ∧
      optional? (list? RawEvent.ofJson?) pattern = some raw.pattern ∧
      optional? (list? RawPattern.ofJson?) patternList = some raw.patternList := by
  unfold ofJson? at h
  split at h
  · next metadata pattern patternList hrecord =>
    simp only [Option.bind_eq_bind, Option.bind_eq_some_iff] at h
    obtain ⟨version, hversion, events, hevents, patterns, hpatterns, hraw⟩ := h
    cases hraw
    exact ⟨metadata, pattern, patternList, hrecord, hversion, hevents, hpatterns⟩
  · cases h

/-- **An object declares the version of the document that is read from it.** -/
theorem declaredVersion?_object {members : List (Option String × Json)}
    (h : ofJson? (.object members) = some raw) :
    declaredVersion? (.object members) = some raw.version := by
  obtain ⟨metadata, pattern, patternList, hrecord, hversion, -⟩ := exists_record_of_ofJson? h
  unfold declaredVersion?
  rw [record?_head hrecord]
  exact hversion

/-- **An array of more than one item declares no version.** -/
theorem declaredVersion?_array {items : List Json} (h : 1 < items.length) :
    declaredVersion? (.array items) = none := by
  have hrecord : record? ["Metadata"] (.array items) = none :=
    if_neg (Nat.not_le.2 h)
  unfold declaredVersion?
  rw [hrecord]

/-- An array of one item has neither events nor patterns. -/
theorem nothing_in_array {items : List Json} (h : ofJson? (.array items) = some raw)
    (hshort : items.length ≤ 1) : raw.pattern = none ∧ raw.patternList = none := by
  obtain ⟨metadata, pattern, patternList, hrecord, -, hevents, hpatterns⟩ :=
    exists_record_of_ofJson? h
  have hmissing : pattern = none ∧ patternList = none := by
    match items, hshort with
    | [], _ =>
      cases hrecord
      exact ⟨rfl, rfl⟩
    | [item], _ =>
      cases hrecord
      exact ⟨rfl, rfl⟩
  obtain ⟨rfl, rfl⟩ := hmissing
  exact ⟨(Option.some.inj hevents).symm, (Option.some.inj hpatterns).symm⟩

/-- A document that keeps the rules of its version has what this version is made of. -/
theorem version_of_validate {document : HapticDocument} (h : raw.validate = .ok document) :
    Version.ofInt raw.version = .ok document.version ∧
      (raw.pattern ≠ none ∨ raw.patternList ≠ none) := by
  unfold validate at h
  obtain ⟨version, hversion, h⟩ := bind_eq_ok_iff.1 h
  rw [hversion]
  cases version with
  | one =>
    cases hpattern : raw.pattern with
    | none =>
      rw [hpattern] at h
      cases h
    | some events =>
      rw [hpattern] at h
      obtain ⟨pattern, -, hdocument⟩ := bind_eq_ok_iff.1 h
      cases hdocument
      exact ⟨rfl, .inl (Option.some_ne_none events)⟩
  | two =>
    cases hpatterns : raw.patternList with
    | none =>
      rw [hpatterns] at h
      cases h
    | some patterns =>
      rw [hpatterns] at h
      obtain ⟨set, -, hdocument⟩ := bind_eq_ok_iff.1 h
      cases hdocument
      exact ⟨rfl, .inr (Option.some_ne_none patterns)⟩

end RawDocument

namespace HapticDocument

open Json

/-- A text that can be read is a document that keeps the rules. -/
theorem exists_raw_of_read {text : String} {document : HapticDocument}
    (h : read text = .ok document) :
    ∃ value raw, Json.read? text.toList = some value ∧ RawDocument.ofJson? value = some raw ∧
      raw.validate = .ok document := by
  obtain ⟨raw, hraw, hvalid⟩ := bind_eq_ok_iff.1 h
  unfold RawDocument.read at hraw
  split at hraw
  · next found hfound =>
    cases hraw
    obtain ⟨value, hvalue, hof⟩ := Option.bind_eq_some_iff.1 hfound
    exact ⟨value, raw, hvalue, hof, hvalid⟩
  · cases hraw

/-- **What a text that can be read declares**: the version of its document, or nothing if it writes
the document as an array. -/
theorem declaredVersion_of_read {text : String} {document : HapticDocument}
    (h : read text = .ok document) :
    (IsListing text → declaredVersion text = .error (.malformed .unreadable)) ∧
      (¬ IsListing text → declaredVersion text = .ok document.version) := by
  obtain ⟨value, raw, hvalue, hraw, hvalid⟩ := exists_raw_of_read h
  obtain ⟨hversion, hwritten⟩ := RawDocument.version_of_validate hvalid
  unfold declaredVersion
  rw [hvalue, Option.bind_some]
  constructor
  · rintro ⟨items, hitems⟩
    cases hvalue.symm.trans hitems
    -- a document that keeps the rules takes more than one item
    have hlong : 1 < items.length := by
      by_contra hshort
      obtain ⟨hpattern, hpatterns⟩ := RawDocument.nothing_in_array hraw (Nat.not_lt.1 hshort)
      exact hwritten.elim (· hpattern) (· hpatterns)
    rw [RawDocument.declaredVersion?_array hlong]
  · intro hobject
    cases value with
    | object members => rw [RawDocument.declaredVersion?_object hraw]; exact hversion
    | array items => exact absurd ⟨items, hvalue⟩ hobject
    | _ => cases hraw

end HapticDocument

namespace Player

open Json

variable {σ α : Type} {r : PlayRequest} {controls : Controls} {loop : LoopCount} {text : String}

/-- What a request is prepared to, when its numbers pass. -/
theorem prepare_eq (hcontrols : checkControls r.intervalMs r.amplitude r.frequency = .ok controls)
    (hloop : LoopCount.ofWord r.loop = .ok loop) :
    prepare text r =
      (HapticDocument.declaredVersion text).map
        fun version => (options loop controls, version) := by
  unfold prepare
  rw [hcontrols, hloop]
  cases HapticDocument.declaredVersion text <;> rfl

/-- A text that declares no version is not played, and nobody is asked anything. -/
theorem play_of_undeclared
    (hcontrols : checkControls r.intervalMs r.amplitude r.frequency = .ok controls)
    (hloop : LoopCount.ofWord r.loop = .ok loop) {e : Failure}
    (hversion : HapticDocument.declaredVersion text = .error e) (c : Nat → Context σ)
    (others : Nat → Service σ α → Service σ α) (p : Player) (s : Service σ α) :
    p.play c others text r s = (.error (.failure e), p, s) := by
  unfold play
  rw [prepare_eq hcontrols hloop, hversion]
  rfl

/-- A text whose version is declared and played is sent. -/
theorem play_of_declared
    (hcontrols : checkControls r.intervalMs r.amplitude r.frequency = .ok controls)
    (hloop : LoopCount.ofWord r.loop = .ok loop) {document : HapticDocument}
    (hread : HapticDocument.read text = .ok document)
    (hversion : HapticDocument.declaredVersion text = .ok document.version) {c : Nat → Context σ}
    (others : Nat → Service σ α → Service σ α) (p : Player) {s asked : Service σ α}
    {info : ActuatorInfo} (hinfo : s.actuatorInfo (c 0) = (.ok (some info), asked))
    (hplays : info.playsVersion document.version.number = true) :
    p.play c others text r s =
      p.send c others
        (document.compile (options loop controls)
          (p.takeSender document.version (others 0 asked)).1 (c 0).config.transientTailMs)
        (p.takeSender document.version (others 0 asked)).2 := by
  unfold play
  rw [prepare_eq hcontrols hloop, hversion]
  simp only [Except.map, hinfo, readFor, hplays, if_true, hread]

/-- **The two readers of the version agree on every text but an array.** For every text

* if it can be read, the version that it declares is that of its document; but if it writes the
  document as an array, it declares none;
* if it declares no version that is known, it cannot be read, unless it writes an array.

So a player whose numbers pass, with an actuator that plays the version of the document, sends every
document that can be read, except that it refuses all that are written as arrays before it has asked
anybody anything. -/
theorem version_readers_agree (text : String) :
    (∀ document, HapticDocument.read text = .ok document →
      (¬ IsListing text → HapticDocument.declaredVersion text = .ok document.version) ∧
      (IsListing text →
        HapticDocument.declaredVersion text = .error (.malformed .unreadable))) ∧
    (∀ e, ¬ IsListing text → HapticDocument.declaredVersion text = .error e →
      ∃ e', HapticDocument.read text = .error e') ∧
    ∀ (σ α : Type) (c : Nat → Context σ) (others : Nat → Service σ α → Service σ α)
      (r : PlayRequest) (p : Player) (s : Service σ α) (controls : Controls) (loop : LoopCount)
      (document : HapticDocument),
      checkControls r.intervalMs r.amplitude r.frequency = .ok controls →
      LoopCount.ofWord r.loop = .ok loop → HapticDocument.read text = .ok document →
      (¬ IsListing text → ∀ info asked, s.actuatorInfo (c 0) = (.ok (some info), asked) →
        info.playsVersion document.version.number = true →
        p.play c others text r s =
          p.send c others
            (document.compile (options loop controls)
              (p.takeSender document.version (others 0 asked)).1 (c 0).config.transientTailMs)
            (p.takeSender document.version (others 0 asked)).2) ∧
      (IsListing text →
        p.play c others text r s = (.error (.failure (.malformed .unreadable)), p, s)) := by
  refine ⟨fun document hread => ?_, fun e hobject hversion => ?_, ?_⟩
  · exact (HapticDocument.declaredVersion_of_read hread).symm
  · cases hread : HapticDocument.read text with
    | error e' => exact ⟨e', rfl⟩
    | ok document =>
      cases hversion.symm.trans ((HapticDocument.declaredVersion_of_read hread).2 hobject)
  · intro σ α c others r p s controls loop document hcontrols hloop hread
    obtain ⟨hlisting, hobject⟩ := HapticDocument.declaredVersion_of_read hread
    constructor
    · intro h info asked hinfo hplays
      exact play_of_declared hcontrols hloop hread (hobject h) others p hinfo hplays
    · intro h
      exact play_of_undeclared hcontrols hloop (hlisting h) c others p s

/-- A document of one tap, with itself and all its records written as arrays. -/
def listedTap : String :=
  String.ofList "[[1],[[[\"transient\",0,null,null,[50,50]]]]]".toList

/-- The listing is read as one tap. -/
theorem read_listedTap :
    HapticDocument.read listedTap = .ok (.v1 ⟨0, [.transient ⟨0, 0, 50, 50⟩]⟩) := by
  unfold listedTap
  rw [HapticDocument.read_ofList]
  decide +kernel

/-- It is a listing. -/
theorem isListing_listedTap : IsListing listedTap := by
  rw [isListing_iff]
  unfold listedTap
  rw [String.toList_ofList]
  decide +kernel

/-- The taps are none. -/
theorem not_isListing_tapsText : ¬ IsListing tapsText := by
  rw [isListing_iff]
  unfold tapsText
  rw [String.toList_ofList]
  decide +kernel

/-- Twelve taps under an object declare their version, and one tap in an array is refused where they
are played. -/
theorem version_readers_agree_taps :
    HapticDocument.declaredVersion tapsText = .ok .two ∧
      tapper.play (fun n => onBench.asOf (behindHum.calls n))
          (fun n t => t.undergoAll onBench (behindHum.between n)) listedTap {}
          { scheduler := .create onBench.config bench } =
        (.error (.failure (.malformed .unreadable)), tapper,
          ({ scheduler := .create onBench.config bench } : Service Bench Unit)) := by
  obtain ⟨hdeclared, -, -⟩ := version_readers_agree tapsText
  obtain ⟨-, -, hplayed⟩ := version_readers_agree listedTap
  refine ⟨(hdeclared _ read_tapsText).1 not_isListing_tapsText, ?_⟩
  exact (hplayed _ _ _ _ {} tapper _ _ .infinite _ rfl rfl read_listedTap).2 isListing_listedTap

/-- **A document that can be read, and declares no version**, because it is an array. -/
theorem listedTap_declares_nothing :
    HapticDocument.read listedTap = .ok (.v1 ⟨0, [.transient ⟨0, 0, 50, 50⟩]⟩) ∧
      HapticDocument.declaredVersion listedTap = .error (.malformed .unreadable) := by
  refine ⟨read_listedTap, ?_⟩
  unfold listedTap
  rw [HapticDocument.declaredVersion_ofList]
  decide +kernel

end Player

end Haptics
