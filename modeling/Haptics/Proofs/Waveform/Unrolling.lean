import Haptics.Proofs.Waveform

/-!
# A waveform is played as it is unrolled

A waveform that starts again stands for a sequence without end: its entries, and then over and over
those from the place where it starts again. `Waveform.unrolled` is that sequence after so many
rounds, and `Waveform.steps` leaves out the entries without length.

`Playback.nextStep` sees none of this. It goes on from a cursor, passes over entries without length,
jumps once it is behind the end, and gives up after a fixed number of entries. Still the steps that
it gives one after another are those of the unrolled waveform, and it gives up only if there is no
further one.

* `steps_ahead_of_seek`: a step that is found is the first one ahead, and the others remain.
* `steps_ahead_of_seek_eq_none`: if none is found, none is ahead.
* `read_eq`: every look at an entry finds one.
* `Playback.steps_unrolled`: the whole.
-/

namespace Haptics

namespace Waveform

/-! ## The unrolled waveform -/

/-- The times of a waveform, each with its amplitude. -/
def entries (w : Waveform) : List (Nat × UInt8) := w.timingsMs.zip w.amplitudes

/-- The entries that are played when the waveform starts again so many times. -/
def again (w : Waveform) (rounds : Nat) : List (Nat × UInt8) :=
  match w.repeatFrom with
  | none => []
  | some start => (List.replicate rounds (w.entries.drop start)).flatten

/-- The entries of a waveform that starts again so many times, if it does. -/
def unrolled (w : Waveform) (rounds : Nat) : List (Nat × UInt8) := w.entries ++ w.again rounds

/-- The entries from a cursor on. -/
def ahead (w : Waveform) (cursor rounds : Nat) : List (Nat × UInt8) :=
  w.entries.drop cursor ++ w.again rounds

/-- The step of an entry, if it has a length: silence at amplitude zero, and a push otherwise. -/
def stepOf (entry : Nat × UInt8) : Option Step :=
  if entry.1 = 0 then none
  else if entry.2 = 0 then some (.off entry.1)
  else some (.on entry.1 entry.2)

/-- The steps of entries. -/
def steps (entries : List (Nat × UInt8)) : List Step := entries.filterMap stepOf

variable {w : Waveform} {cursor next tries : Nat} {step : Step}

/-- The step at an index is that of the entry there. -/
theorem stepAt?_eq (w : Waveform) (index : Nat) :
    w.stepAt? index = w.entries[index]?.bind stepOf := by
  unfold stepAt? entries
  rw [List.zip_eq_zipWith, List.getElem?_zipWith]
  rcases w.timingsMs[index]? with _ | durationMs
  · rfl
  · rcases w.amplitudes[index]? with _ | amplitude
    · rfl
    · change (if durationMs = 0 then none else some (entryStep durationMs amplitude)) =
        stepOf (durationMs, amplitude)
      unfold entryStep stepOf
      split
      · rfl
      · split <;> rfl

/-- The steps from an index on are that of its entry, if it has one, and those behind it. -/
theorem steps_drop (w : Waveform) (index : Nat) :
    steps (w.entries.drop index) =
      (w.stepAt? index).toList ++ steps (w.entries.drop (index + 1)) := by
  rw [stepAt?_eq]
  by_cases hi : index < w.entries.length
  · rw [List.drop_eq_getElem_cons hi, List.getElem?_eq_getElem hi, Option.bind_some, steps,
      List.filterMap_cons]
    cases stepOf w.entries[index] with
    | none => rfl
    | some step => rfl
  · rw [List.getElem?_eq_none (Nat.le_of_not_lt hi), List.drop_eq_nil_of_le (Nat.le_of_not_lt hi),
      List.drop_eq_nil_of_le (by omega)]
    rfl

/-- Entries without a step can be passed over. -/
theorem steps_drop_of_blank {first last : Nat} (hle : first ≤ last) (hb : w.Blank first last) :
    steps (w.entries.drop first) = steps (w.entries.drop last) := by
  induction hle with
  | refl => rfl
  | @step last hle ih =>
    have hbefore : w.Blank first last := fun j hj hlt => hb j hj (Nat.lt_succ_of_lt hlt)
    rw [ih hbefore, steps_drop, hb last hle (Nat.lt_succ_self last)]
    rfl

/-- Before the end there may be nothing left. -/
theorem steps_drop_eq_nil {first : Nat} (hb : w.Blank first w.timingsMs.length) :
    steps (w.entries.drop first) = [] := by
  have hlength : w.entries.length ≤ w.timingsMs.length := by
    unfold entries
    rw [List.length_zip]
    exact Nat.min_le_left _ _
  rcases Nat.le_total first w.timingsMs.length with hle | hge
  · rw [steps_drop_of_blank hle hb, List.drop_eq_nil_of_le hlength]
    rfl
  · rw [List.drop_eq_nil_of_le (Nat.le_trans hlength hge)]
    rfl

/-- What is found behind a blank is the first step from there on. -/
theorem steps_drop_of_stepAt? {first index : Nat} (hle : first ≤ index) (hb : w.Blank first index)
    (hs : w.stepAt? index = some step) :
    steps (w.entries.drop first) = step :: steps (w.entries.drop (index + 1)) := by
  rw [steps_drop_of_blank hle hb, steps_drop, hs]
  rfl

/-- Another round puts the entries from where the waveform starts again in front. -/
theorem again_succ {start : Nat} (h : w.repeatFrom = some start) (rounds : Nat) :
    w.again (rounds + 1) = w.ahead start rounds := by
  simp only [again, ahead, h, List.replicate_succ, List.flatten_cons]

/-- The steps ahead are those to the end, and those of every round behind it. -/
theorem steps_ahead (w : Waveform) (cursor rounds : Nat) :
    steps (w.ahead cursor rounds) = steps (w.entries.drop cursor) ++ steps (w.again rounds) :=
  List.filterMap_append

/-- More rounds have the same steps, and more of them. -/
theorem steps_ahead_prefix {rounds more : Nat} :
    steps (w.ahead cursor rounds) <+: steps (w.ahead cursor (rounds + more)) := by
  have hagain : w.again rounds <+: w.again (rounds + more) := by
    unfold again
    split
    · exact List.prefix_rfl
    · rw [← List.replicate_append_replicate, List.flatten_append]
      exact List.prefix_append _ _
  exact ((List.prefix_append_right_inj _).2 hagain).filterMap stepOf

/-! ## What the search finds -/

/-- **A step that is found is the first one ahead**, and those behind the new cursor remain. One
round is used up if the waveform had to start again. -/
theorem steps_ahead_of_seek (h : w.seek tries cursor = some (step, next)) :
    ∃ used, ∀ rounds,
      steps (w.ahead cursor (rounds + used)) = step :: steps (w.ahead next rounds) := by
  obtain ⟨index, rfl, hs, ⟨hle, hb⟩ | ⟨hb, start, hstart, hle, hb'⟩⟩ := seek_spec h
  · refine ⟨0, fun rounds => ?_⟩
    rw [Nat.add_zero, steps_ahead, steps_ahead, steps_drop_of_stepAt? hle hb hs]
    rfl
  · refine ⟨1, fun rounds => ?_⟩
    rw [steps_ahead, steps_drop_eq_nil hb, again_succ hstart, steps_ahead, steps_ahead,
      steps_drop_of_stepAt? hle hb' hs]
    rfl

/-- **If none is found, none is ahead**, however often the waveform starts again: the number of
entries that the search looks at is enough for all of those before the end and from where the
waveform starts again up to the cursor. -/
theorem steps_ahead_of_seek_eq_none (ha : w.timingsMs.length ≤ w.amplitudes.length)
    (h : w.seek (w.timingsMs.length + 1) cursor = none) (rounds : Nat) :
    steps (w.ahead cursor rounds) = [] := by
  have hnone {index : Nat} (hreach : cursor ≤ index ∨ ∃ start, w.repeatFrom = some start ∧
      start ≤ index) : w.stepAt? index = none := by
    rw [← Option.not_isSome_iff_eq_none]
    intro hs
    have hi := lt_length_of_stepAt? (Option.some_get hs).symm
    have hfound : (w.seek (w.timingsMs.length + 1) cursor).isSome = true := by
      apply isSome_seek ha hs
      rcases Nat.lt_or_ge index cursor with hlt | hge
      · obtain ⟨start, hstart, hle⟩ := hreach.resolve_left (Nat.not_le_of_lt hlt)
        exact .inr ⟨start, hstart, hle, by omega⟩
      · exact .inl ⟨hge, by omega⟩
    rw [h] at hfound
    cases hfound
  rw [steps_ahead, steps_drop_eq_nil fun j hj _ => hnone (.inl hj), List.nil_append]
  unfold again
  split
  · rfl
  · next start hstart =>
    induction rounds with
    | zero => rfl
    | succ rounds ih =>
      have hround : steps (w.entries.drop start) = [] :=
        steps_drop_eq_nil fun j hj _ => hnone (.inr ⟨start, hstart, hj⟩)
      rw [List.replicate_succ, List.flatten_cons, steps, List.filterMap_append]
      exact List.append_eq_nil_iff.2 ⟨hround, ih⟩

/-! ## Where the search looks -/

/-- The search for an entry with a length, where a look at a list fails if nothing stands there. -/
def read (w : Waveform) : (tries : Nat) → (cursor : Nat) → Option (Option (Step × Nat))
  | 0, _ => some none
  | tries + 1, cursor =>
    match w.place? cursor with
    | none => some none
    | some index => do
      let durationMs ← w.timingsMs[index]?
      if durationMs = 0 then read w tries (index + 1)
      else do
        let amplitude ← w.amplitudes[index]?
        return some (entryStep durationMs amplitude, index + 1)

/-- **Every look at an entry finds one**, and what is found in the end is what the search gives. -/
theorem read_eq (ha : w.timingsMs.length ≤ w.amplitudes.length) (tries cursor : Nat) :
    w.read tries cursor = some (w.seek tries cursor) := by
  induction tries generalizing cursor with
  | zero => rfl
  | succ tries ih =>
    unfold read seek
    cases hp : w.place? cursor with
    | none => rfl
    | some index =>
      have hi : index < w.timingsMs.length := (place?_cases hp).1
      have hi' : index < w.amplitudes.length := Nat.lt_of_lt_of_le hi ha
      simp only [List.getElem?_eq_getElem hi, List.getElem?_eq_getElem hi', ih]
      by_cases hd : w.timingsMs[index] = 0
      · simp [hd]
      · simp [hd]

end Waveform

/-! ## One step after another -/

namespace Playback

open Waveform

/-- The step that is given after so many others, when each of them is taken in its turn. -/
def stepAfter : Nat → Playback → Option Step
  | 0, p => p.nextStep.map (·.1)
  | taken + 1, p => p.nextStep.bind fun found => stepAfter taken { p with cursor := found.2 }

variable {p : Playback} {w : Waveform}

/-- The next step of a waveform is what is found from its cursor. -/
theorem nextStep_of_waveform (hp : p.vibration.effect = .waveform w) :
    p.nextStep = w.seek (w.timingsMs.length + 1) p.cursor := by
  simp only [nextStep, hp]

/-- The first step ahead is the one that is found, and the later ones are ahead of the next
cursor. -/
theorem exists_ahead_iff {found : Step} {next : Nat} (hp : p.vibration.effect = .waveform w)
    (hn : p.nextStep = some (found, next)) {taken : Nat} {step : Step} :
    (∃ rounds, (steps (w.ahead p.cursor rounds))[taken]? = some step) ↔
      ∃ rounds, (found :: steps (w.ahead next rounds))[taken]? = some step := by
  rw [nextStep_of_waveform hp] at hn
  obtain ⟨used, hused⟩ := steps_ahead_of_seek hn
  constructor
  · rintro ⟨rounds, h⟩
    obtain ⟨hlt, rfl⟩ := List.getElem?_eq_some_iff.1 h
    refine ⟨rounds, ?_⟩
    rw [← hused]
    exact List.prefix_iff_getElem?.1 steps_ahead_prefix taken hlt
  · rintro ⟨rounds, h⟩
    exact ⟨rounds + used, hused rounds ▸ h⟩

/-- From any cursor the steps that are given are those ahead of it. -/
theorem stepAfter_eq_some_iff (ha : w.timingsMs.length ≤ w.amplitudes.length)
    (hp : p.vibration.effect = .waveform w) {taken : Nat} {step : Step} :
    p.stepAfter taken = some step ↔
      ∃ rounds, (steps (w.ahead p.cursor rounds))[taken]? = some step := by
  have hnone (p : Playback) (hp : p.vibration.effect = .waveform w) (hn : p.nextStep = none) :
      ∀ rounds, steps (w.ahead p.cursor rounds) = [] :=
    steps_ahead_of_seek_eq_none ha (nextStep_of_waveform hp ▸ hn)
  -- the induction is on the steps that have been taken; each of them moves the cursor
  induction taken generalizing p with
  | zero =>
    rcases hn : p.nextStep with _ | ⟨found, next⟩
    · simp [stepAfter, hn, hnone p hp hn]
    · rw [exists_ahead_iff hp hn]
      simp [stepAfter, hn]
  | succ taken ih =>
    rcases hn : p.nextStep with _ | ⟨found, next⟩
    · simp [stepAfter, hn, hnone p hp hn]
    · have hp' : { p with cursor := next }.vibration.effect = .waveform w := hp
      rw [exists_ahead_iff hp hn]
      simp only [stepAfter, hn, Option.bind_some, ih hp', List.getElem?_cons_succ]

/-- **The steps of a waveform are those of the unrolled waveform.** For every waveform that is let
in, played from its start:

* the steps that are given one after another are, in order, those of the entries with a length, and
  behind them, if the waveform starts again, over and over those from that place on;
* no step is given exactly when the unrolled waveform has no further one, however many rounds it is
  followed;
* at every cursor the search looks only at entries that there are. -/
theorem steps_unrolled (v : Vibration) (w : Waveform) (hv : v.effect = .waveform w)
    (hw : v.effect.check = .ok ()) :
    (∀ taken step, stepAfter taken { vibration := v } = some step ↔
      ∃ rounds, (steps (w.unrolled rounds))[taken]? = some step) ∧
    (∀ taken, stepAfter taken { vibration := v } = none ↔
      ∀ rounds, (steps (w.unrolled rounds)).length ≤ taken) ∧
    ∀ p : Playback, p.vibration.effect = .waveform w →
      w.read (w.timingsMs.length + 1) p.cursor = some p.nextStep := by
  have hcheck : w.check = .ok () := by rwa [hv] at hw
  have ha : w.timingsMs.length ≤ w.amplitudes.length := Nat.le_of_eq (length_eq_of_check hcheck)
  have hgiven : ∀ taken step, stepAfter taken { vibration := v } = some step ↔
      ∃ rounds, (steps (w.unrolled rounds))[taken]? = some step :=
    fun taken step => stepAfter_eq_some_iff ha hv
  refine ⟨hgiven, fun taken => ?_, fun p hp => ?_⟩
  · simp only [Option.eq_none_iff_forall_ne_some, ne_eq, hgiven, not_exists,
      ← List.getElem?_eq_none_iff]
    exact forall_comm
  · rw [nextStep_of_waveform hp]
    exact read_eq ha _ p.cursor

/-- A pause, a push, and the push again and again; two of the four entries have no length. -/
def pauseThenPush : Vibration where
  id := 1
  uid := 10001
  package := "p"
  token := 1
  attributes := {}
  effect := .waveform ⟨[0, 30, 0, 20], [9, 0, 9, 200], some 2⟩
  sender := none

/-- The entries without length are passed over, also where the waveform starts again. -/
theorem steps_unrolled_pauseThenPush :
    pauseThenPush.effect.check = .ok () ∧
      stepAfter 0 { vibration := pauseThenPush } = some (.off 30) ∧
      stepAfter 1 { vibration := pauseThenPush } = some (.on 20 200) ∧
      stepAfter 4 { vibration := pauseThenPush } = some (.on 20 200) := by
  obtain ⟨hgiven, -⟩ := steps_unrolled pauseThenPush _ rfl rfl
  exact ⟨rfl, (hgiven 0 _).2 ⟨0, rfl⟩, (hgiven 1 _).2 ⟨0, rfl⟩, (hgiven 4 _).2 ⟨3, rfl⟩⟩

end Playback

end Haptics
