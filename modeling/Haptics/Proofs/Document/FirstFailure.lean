import Haptics.Proofs.Document.Lenient

/-!
# The first failure wins

The rules go through a document from front to back and stop at the first rule that is broken, so
what stands behind the place where a document fails has no say in how it fails. No check looks
ahead: what a place must keep hangs on what stands there and in front of it. Only the numbers of
patterns and of events are checked before the items are looked at.

* `bind_eq_error_of_imp`: a chain of checks that goes on differently fails in the same way.
* `lenientEvents_append_of_error`, `strictEvents_append_of_error`: events behind a list that fails.
* `strictPattern_append_of_error`: a pattern that fails, with more events.
* `RawDocument.first_failure_wins`: the main result.
-/

namespace Haptics

namespace Rules

variable {e : Failure} {α β γ : Type}

/-! ## Chains of checks -/

/-- A chain that fails still fails if it goes on so that it fails where it did. -/
theorem bind_eq_error_of_imp {x : Except Failure α} {f : α → Except Failure β}
    {g : α → Except Failure γ} (hfg : ∀ a, f a = .error e → g a = .error e)
    (h : (x >>= f) = .error e) : (x >>= g) = .error e := by
  rcases bind_eq_error_iff.1 h with hx | ⟨a, hx, hf⟩
  · exact bind_eq_error_iff.2 (.inl hx)
  · exact bind_eq_error_iff.2 (.inr ⟨a, hx, hfg a hf⟩)

/-- What is made of a result does not fail. -/
theorem bind_pure_eq_error_iff {x : Except Failure α} {f : α → β} :
    (x >>= fun a => pure (f a)) = .error e ↔ x = .error e := by
  rw [bind_eq_error_iff, or_iff_left]
  rintro ⟨a, -, hpure⟩
  cases hpure

/-! ## Events -/

/-- Events behind a list that fails are not looked at. -/
theorem lenientEvents_append_of_error {k : Nat} {raws : List RawEvent}
    (h : lenientEvents k raws = .error e) (more : List RawEvent) :
    lenientEvents k (raws ++ more) = .error e := by
  induction raws generalizing k with
  | nil => cases h
  | cons raw rest ih =>
    refine bind_eq_error_of_imp (fun first hrest => ?_) h
    rw [bind_pure_eq_error_iff] at hrest ⊢
    exact ih hrest

/-- **The first failure of a version 1 document wins**: of sixteen events that count, those that
are there come first. -/
theorem lenient_append_of_error {raws : List RawEvent} (hne : raws ≠ [])
    (h : lenient raws = .error e) (more : List RawEvent) : lenient (raws ++ more) = .error e := by
  unfold lenient at h ⊢
  rw [require_of_true hne] at h
  rw [require_of_true (List.append_ne_nil_of_left_ne_nil hne more), List.take_append]
  refine bind_eq_error_of_imp (fun _ hcounted => ?_) h
  rw [bind_pure_eq_error_iff] at hcounted ⊢
  exact lenientEvents_append_of_error hcounted _

/-- Events behind a list that fails are not looked at, whatever the list comes behind. -/
theorem strictEvents_append_of_error {pattern k : Nat} {previous : Int} {raws : List RawEvent}
    (h : strictEvents pattern k previous raws = .error e) (more : List RawEvent) :
    strictEvents pattern k previous (raws ++ more) = .error e := by
  induction raws generalizing k previous with
  | nil => cases h
  | cons raw rest ih =>
    refine bind_eq_error_of_imp (fun ⟨first, time⟩ hrest => ?_) h
    rw [bind_pure_eq_error_iff] at hrest ⊢
    exact ih hrest

/-! ## Patterns -/

/-- A pattern that fails also fails with more events, unless these are too many: its own times are
checked before its events, and that it has so many events is no failure. -/
theorem strictPattern_append_of_error {pattern : Nat} {earliest : Int} {raw : RawPattern}
    (h : strictPattern pattern earliest raw = .error e) {more : List RawEvent}
    (hcount : (raw.events ++ more).length ≤ maxEvents) :
    strictPattern pattern earliest { raw with events := raw.events ++ more } = .error e := by
  have hfew : raw.events.length ≤ maxEvents := by
    rw [List.length_append] at hcount
    omega
  unfold strictPattern at h ⊢
  rw [require_of_true hfew] at h
  rw [require_of_true hcount]
  refine bind_eq_error_of_imp (fun _ h => ?_) h
  refine bind_eq_error_of_imp (fun _ h => ?_) h
  refine bind_eq_error_of_imp (fun _ hevents => ?_) h
  rw [bind_pure_eq_error_iff] at hevents ⊢
  exact strictEvents_append_of_error hevents more

/-- Patterns behind a list that fails are not looked at. -/
theorem foldlM_append_of_error {p : Progress} {raws : List RawPattern}
    (h : raws.foldlM Progress.add p = .error e) (more : List RawPattern) :
    (raws ++ more).foldlM Progress.add p = .error e := by
  rw [List.foldlM_append]
  exact bind_eq_error_iff.2 (.inl h)

/-- More events in the last pattern of a list that fails are not looked at. -/
theorem foldlM_last_of_error {p : Progress} {earlier : List RawPattern} {last : RawPattern}
    (h : (earlier ++ [last]).foldlM Progress.add p = .error e) {more : List RawEvent}
    (hcount : (last.events ++ more).length ≤ maxEvents) :
    (earlier ++ [{ last with events := last.events ++ more }]).foldlM Progress.add p =
      .error e := by
  rw [List.foldlM_append] at h ⊢
  refine bind_eq_error_of_imp (fun q hlast => ?_) h
  rw [List.foldlM_cons] at hlast ⊢
  rcases bind_eq_error_iff.1 hlast with hadd | ⟨q', -, hdone⟩
  · refine bind_eq_error_iff.2 (.inl ?_)
    unfold Progress.add at hadd ⊢
    rw [bind_pure_eq_error_iff] at hadd ⊢
    exact strictPattern_append_of_error hadd hcount
  · cases hdone

/-- **The first failure of a version 2 document wins**, as long as there are not too many
patterns. -/
theorem strict_append_of_error {raws : List RawPattern} (hne : raws ≠ [])
    (h : strict raws = .error e) {more : List RawPattern}
    (hcount : (raws ++ more).length ≤ maxPatterns) : strict (raws ++ more) = .error e := by
  have hfew : raws.length ≤ maxPatterns := by
    rw [List.length_append] at hcount
    omega
  unfold strict at h ⊢
  rw [require_of_true hne, require_of_true hfew] at h
  rw [require_of_true (List.append_ne_nil_of_left_ne_nil hne more), require_of_true hcount]
  refine bind_eq_error_of_imp (fun _ h => ?_) h
  refine bind_eq_error_of_imp (fun _ hpatterns => ?_) h
  rw [bind_pure_eq_error_iff] at hpatterns ⊢
  exact foldlM_append_of_error hpatterns more

/-- The number of patterns does not hang on the events of the last. -/
theorem strict_last_of_error {earlier : List RawPattern} {last : RawPattern}
    (h : strict (earlier ++ [last]) = .error e) {more : List RawEvent}
    (hcount : (last.events ++ more).length ≤ maxEvents) :
    strict (earlier ++ [{ last with events := last.events ++ more }]) = .error e := by
  unfold strict at h ⊢
  rw [require_of_true (List.append_ne_nil_of_right_ne_nil _ (List.cons_ne_nil _ _))] at h ⊢
  rw [List.length_append, List.length_singleton] at h ⊢
  refine bind_eq_error_of_imp (fun _ h => ?_) h
  refine bind_eq_error_of_imp (fun _ hpatterns => ?_) h
  rw [bind_pure_eq_error_iff] at hpatterns ⊢
  exact foldlM_last_of_error hpatterns hcount

end Rules

/-! ## Documents -/

namespace RawDocument

open Rules

variable {e : Failure}

/-- A document of version 1 fails as its events do. -/
theorem validate_one_eq_error_iff (raw : RawDocument) (hv : raw.version = 1)
    {events : List RawEvent} (hp : raw.pattern = some events) :
    raw.validate = .error e ↔ lenient events = .error e := by
  rw [validate_of_one hv, hp]
  dsimp only
  cases lenient events <;> simp [Except.map]

/-- A document of version 2 fails as its patterns do. -/
theorem validate_two_eq_error_iff (raw : RawDocument) (hv : raw.version = 2)
    {patterns : List RawPattern} (hp : raw.patternList = some patterns) :
    raw.validate = .error e ↔ strict patterns = .error e := by
  have hversion : Version.ofInt raw.version = .ok .two := by
    rw [hv]
    rfl
  unfold validate
  rw [hversion, hp]
  exact bind_pure_eq_error_iff

/-- **The first failure wins.** A document that fails still fails in the same way, with the same
message, when something is added behind the failure:

* any events behind those of a version 1 document that has some;
* patterns behind those of a version 2 document that has some, if there are at most 65535 then;
* events in the last pattern of a version 2 document, if there are at most sixteen then. -/
theorem first_failure_wins {raw : RawDocument} (h : raw.validate = .error e) :
    (raw.version = 1 → ∀ events more, raw.pattern = some events → events ≠ [] →
      validate { raw with pattern := some (events ++ more) } = .error e) ∧
    (raw.version = 2 → ∀ patterns more, raw.patternList = some patterns → patterns ≠ [] →
      (patterns ++ more).length ≤ 65535 →
      validate { raw with patternList := some (patterns ++ more) } = .error e) ∧
    (raw.version = 2 → ∀ earlier last more, raw.patternList = some (earlier ++ [last]) →
      (last.events ++ more).length ≤ 16 →
      validate { raw with
        patternList := some (earlier ++ [{ last with events := last.events ++ more }]) } =
          .error e) := by
  refine ⟨?_, ?_, ?_⟩
  · intro hv events more hp hne
    have hlenient := (validate_one_eq_error_iff raw hv hp).1 h
    exact (validate_one_eq_error_iff { raw with pattern := some (events ++ more) } hv rfl).2
      (lenient_append_of_error hne hlenient more)
  · intro hv patterns more hp hne hcount
    have hstrict := (validate_two_eq_error_iff raw hv hp).1 h
    exact (validate_two_eq_error_iff { raw with patternList := some (patterns ++ more) } hv rfl).2
      (strict_append_of_error hne hstrict hcount)
  · intro hv earlier last more hp hcount
    have hstrict := (validate_two_eq_error_iff raw hv hp).1 h
    exact (validate_two_eq_error_iff { raw with patternList := some _ } hv rfl).2
      (strict_last_of_error hstrict hcount)

/-- A tap, and its start. -/
def tapAt (time : Int) : RawEvent where
  kind := "transient"
  relativeTime := some time
  duration := none
  index := some 0
  intensity := 50
  frequency := 50
  curve := none

/-- A version 2 document whose second pattern has its taps in the wrong order. -/
def tumbled : RawDocument where
  version := 2
  pattern := none
  patternList := some [⟨0, [tapAt 5]⟩, ⟨100, [tapAt 10, tapAt 9]⟩]

/-- A version 1 document whose second tap is too late. -/
def belated : RawDocument where
  version := 1
  pattern := some [tapAt 0, tapAt 50001]
  patternList := none

/-- What comes behind the taps in the wrong order changes nothing, be it a pattern before the
beginning or an event of no known kind; nor does a tap before the beginning behind one that is too
late. -/
theorem first_failure_wins_tumbled :
    tumbled.validate = .error (.disordered (.eventTime 1 1 9 10)) ∧
      validate { tumbled with
        patternList := some ([⟨0, [tapAt 5]⟩, ⟨100, [tapAt 10, tapAt 9]⟩] ++ [⟨-1, []⟩]) } =
          .error (.disordered (.eventTime 1 1 9 10)) ∧
      validate { tumbled with
        patternList := some ([⟨0, [tapAt 5]⟩] ++
          [⟨100, [tapAt 10, tapAt 9] ++ [{ tapAt 20 with kind := "none" }]⟩]) } =
          .error (.disordered (.eventTime 1 1 9 10)) ∧
      validate { belated with pattern := some ([tapAt 0, tapAt 50001] ++ [tapAt (-1)]) } =
        .error (.outOfRange .relativeTime) := by
  have htumbled : tumbled.validate = .error (.disordered (.eventTime 1 1 9 10)) := rfl
  have hbelated : belated.validate = .error (.outOfRange .relativeTime) := rfl
  obtain ⟨-, hpatterns, hevents⟩ := first_failure_wins htumbled
  obtain ⟨hone, -, -⟩ := first_failure_wins hbelated
  refine ⟨htumbled, ?_, ?_, ?_⟩
  · exact hpatterns rfl _ _ rfl (List.cons_ne_nil _ _) (by decide)
  · exact hevents rfl _ ⟨100, [tapAt 10, tapAt 9]⟩ _ rfl (by decide)
  · exact hone rfl _ _ rfl (List.cons_ne_nil _ _)

end RawDocument

end Haptics
