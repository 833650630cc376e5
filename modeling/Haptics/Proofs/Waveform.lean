import Haptics.Playback

/-!
# Where the steps of a waveform are

Some entries of a waveform have a step: those with a length. The step is *loud* or *silent*, as the
amplitude says. From a cursor `Waveform.seek` finds the next entry with a step, before the end or
behind the place where the waveform starts again.

A silent step ends when its time has passed, a loud one also when the actuator says so. A waveform
that starts again and has loud steps only from there on is *restless*: nothing but the actuator
holds it up. Every other waveform comes to a silent step or to its end after a *stretch* of entries.

* `seek_spec`: what has been found.
* `isSome_seek`: what is found.
* `stretch_lt`: without restlessness, every loud step makes the stretch ahead shorter.
* `seek_of_isRestless`: with it, a loud step always comes next.
-/

namespace Haptics.Waveform

variable {w : Waveform} {tries cursor next : Nat} {step : Step}

/-! ## Entries with steps -/

/-- The step of the entry at an index, if it has one. -/
def stepAt? (w : Waveform) (index : Nat) : Option Step :=
  match w.timingsMs[index]?, w.amplitudes[index]? with
  | some durationMs, some amplitude =>
    if durationMs = 0 then none else some (entryStep durationMs amplitude)
  | _, _ => none

/-- Whether from an index on there is a step that ends like this. -/
def hasFrom (w : Waveform) (stage : Stage) (first : Nat) : Bool :=
  (List.range w.timingsMs.length).any fun index =>
    first ≤ index && (w.stepAt? index).any (·.stage = stage)

/-- Whether the waveform starts again and is never silent from there on, but not without steps. -/
def isRestless (w : Waveform) : Bool :=
  w.repeatFrom.any fun start => w.hasFrom .awaiting start && !w.hasFrom .timed start

/-- How many entries come at most before the next silent step or the end. -/
def stretch (w : Waveform) (cursor : Nat) : Nat :=
  (w.timingsMs.length - cursor) +
    if w.hasFrom .timed cursor then 0
    else w.timingsMs.length - w.repeatFrom.getD w.timingsMs.length

/-- There are steps only where there are entries. -/
theorem lt_length_of_stepAt? {index : Nat} (h : w.stepAt? index = some step) :
    index < w.timingsMs.length := by
  unfold stepAt? at h
  split at h
  · next ht _ => exact (List.getElem?_eq_some_iff.1 ht).1
  · cases h

/-- The motor is on in a step, or silent. -/
theorem on_or_off_of_stepAt? {index : Nat} (h : w.stepAt? index = some step) :
    (∃ durationMs amplitude, step = .on durationMs amplitude) ∨
      ∃ durationMs, step = .off durationMs := by
  unfold stepAt? entryStep at h
  split at h
  · split at h
    · cases h
    · split at h <;> cases h
      · exact .inr ⟨_, rfl⟩
      · exact .inl ⟨_, _, rfl⟩
  · cases h

/-- In a well formed waveform every entry has an amplitude. -/
theorem length_eq_of_check (h : w.check = .ok ()) : w.timingsMs.length = w.amplitudes.length := by
  unfold check at h
  split at h
  · cases h
  · next hne => exact Decidable.not_not.1 fun hl => hne (.inr hl)

/-- An entry of a well formed waveform has a step, if it has a length. -/
theorem isSome_stepAt? (h : w.check = .ok ()) {index : Nat} (hi : index < w.timingsMs.length)
    (hd : w.timingsMs[index] ≠ 0) : (w.stepAt? index).isSome = true := by
  have hi' : index < w.amplitudes.length := w.length_eq_of_check h ▸ hi
  simp [stepAt?, List.getElem?_eq_getElem hi, List.getElem?_eq_getElem hi', hd]

/-- There is such a step from an index on if one of the entries there has it. -/
theorem hasFrom_eq_true_iff {stage : Stage} {first : Nat} :
    w.hasFrom stage first = true ↔
      ∃ index step, first ≤ index ∧ w.stepAt? index = some step ∧ step.stage = stage := by
  simp only [hasFrom, List.any_eq_true, List.mem_range, Bool.and_eq_true, decide_eq_true_eq,
    Option.any_eq_true]
  constructor
  · rintro ⟨index, -, hfirst, step, hstep, hstage⟩
    exact ⟨index, step, hfirst, hstep, hstage⟩
  · rintro ⟨index, step, hfirst, hstep, hstage⟩
    exact ⟨index, lt_length_of_stepAt? hstep, hfirst, step, hstep, hstage⟩

/-- There is nothing from an index on that is not there from an earlier one on. -/
theorem hasFrom_mono {stage : Stage} {first second : Nat} (h : first ≤ second)
    (hs : w.hasFrom stage second = true) : w.hasFrom stage first = true := by
  obtain ⟨index, step, hsecond, hstep, hstage⟩ := hasFrom_eq_true_iff.1 hs
  exact hasFrom_eq_true_iff.2 ⟨index, step, Nat.le_trans h hsecond, hstep, hstage⟩

/-- What comes from an index on but neither before another one nor there comes behind it. -/
theorem hasFrom_behind {stage : Stage} {first index : Nat} (h : w.hasFrom stage first = true)
    (hn : ∀ j, first ≤ j → j < index → w.stepAt? j = none)
    (hstep : w.stepAt? index = some step) (hstage : step.stage ≠ stage) :
    w.hasFrom stage (index + 1) = true := by
  obtain ⟨j, step', hj, hstep', hstage'⟩ := hasFrom_eq_true_iff.1 h
  refine hasFrom_eq_true_iff.2 ⟨j, step', ?_, hstep', hstage'⟩
  rcases Nat.lt_trichotomy j index with hlt | rfl | hgt
  · cases (hn j hj hlt).symm.trans hstep'
  · cases hstep.symm.trans hstep'
    exact absurd hstage' hstage
  · exact hgt

/-! ## What is found -/

/-- The entry that comes next has a step, which is found, or it is passed over. -/
theorem seek_succ (ha : w.timingsMs.length ≤ w.amplitudes.length) {index : Nat}
    (hp : w.place? cursor = some index) (hi : index < w.timingsMs.length) :
    w.seek (tries + 1) cursor =
      match w.stepAt? index with
      | some step => some (step, index + 1)
      | none => w.seek tries (index + 1) := by
  have ht : w.timingsMs[index]? = some w.timingsMs[index] := List.getElem?_eq_getElem hi
  have hi' : index < w.amplitudes.length := by omega
  have ha : w.amplitudes[index]? = some w.amplitudes[index] := List.getElem?_eq_getElem hi'
  by_cases hd : w.timingsMs[index] = 0
  · simp [seek, stepAt?, hp, ht, ha, hd]
  · simp [seek, stepAt?, hp, ht, ha, hd]

/-- What is found is the step of the entry that comes next, or is found behind it. -/
theorem seek_succ_cases (h : w.seek (tries + 1) cursor = some (step, next)) :
    ∃ index, w.place? cursor = some index ∧
      (w.stepAt? index = some step ∧ next = index + 1 ∨
        w.stepAt? index = none ∧ w.seek tries (index + 1) = some (step, next)) := by
  unfold seek at h
  split at h
  · cases h
  · next index hp =>
    refine ⟨index, hp, ?_⟩
    split at h
    · next durationMs amplitude ht ha =>
      split at h
      · next hd => exact .inr ⟨by simp [stepAt?, ht, ha, hd], h⟩
      · next hd =>
        cases h
        exact .inl ⟨by simp [stepAt?, ht, ha, hd], rfl⟩
    · cases h

/-- The place that comes next is the cursor, or where the waveform starts again. -/
theorem place?_cases {index : Nat} (h : w.place? cursor = some index) :
    index < w.timingsMs.length ∧
      (index = cursor ∨ w.timingsMs.length ≤ cursor ∧ w.repeatFrom = some index) := by
  unfold place? at h
  split at h
  · next hlt =>
    cases h
    exact ⟨hlt, .inl rfl⟩
  · next hge =>
    obtain ⟨hs, hlt⟩ := Option.filter_eq_some_iff.1 h
    exact ⟨of_decide_eq_true hlt, .inr ⟨Nat.le_of_not_lt hge, hs⟩⟩

/-- Between two indices no entry has a step. -/
def Blank (w : Waveform) (first last : Nat) : Prop :=
  ∀ j, first ≤ j → j < last → w.stepAt? j = none

/-- A blank starts earlier if there is no step in front of it. -/
theorem Blank.cons {first last : Nat} (hn : w.stepAt? first = none)
    (h : w.Blank (first + 1) last) : w.Blank first last := by
  intro j hj hlast
  rcases Nat.eq_or_lt_of_le hj with rfl | hj
  · exact hn
  · exact h j hj hlast

/-- **What has been found from a cursor** is the first step before the end; or, if there is none,
the first from where the waveform starts again. -/
theorem seek_spec (h : w.seek tries cursor = some (step, next)) :
    ∃ index, next = index + 1 ∧ w.stepAt? index = some step ∧
      (cursor ≤ index ∧ w.Blank cursor index ∨
        w.Blank cursor w.timingsMs.length ∧
          ∃ start, w.repeatFrom = some start ∧ start ≤ index ∧ w.Blank start index) := by
  induction tries generalizing cursor with
  | zero => cases h
  | succ tries ih =>
    obtain ⟨place, hp, ⟨hs, rfl⟩ | ⟨hn, hrest⟩⟩ := seek_succ_cases h
    · refine ⟨place, rfl, hs, ?_⟩
      rcases (place?_cases hp).2 with rfl | ⟨hend, hstart⟩
      · exact .inl ⟨Nat.le_refl _, fun j hj hlt => absurd hlt (by omega)⟩
      · exact .inr ⟨fun j hj hlt => absurd hlt (by omega), place, hstart, Nat.le_refl _,
          fun j hj hlt => absurd hlt (by omega)⟩
    · obtain ⟨index, hnext, hs, hwhere⟩ := ih hrest
      refine ⟨index, hnext, hs, ?_⟩
      rcases (place?_cases hp).2 with rfl | ⟨hend, hstart⟩
      · rcases hwhere with ⟨hle, hb⟩ | ⟨hb, hwrap⟩
        · exact .inl ⟨by omega, .cons hn hb⟩
        · exact .inr ⟨.cons hn hb, hwrap⟩
      · refine .inr ⟨fun j hj hlt => absurd hlt (by omega), ?_⟩
        rcases hwhere with ⟨hle, hb⟩ | ⟨-, hwrap⟩
        · exact ⟨place, hstart, by omega, .cons hn hb⟩
        · exact hwrap

/-- A step is found if there is one within reach: before the end, or from where the waveform starts
again. -/
theorem isSome_seek (ha : w.timingsMs.length ≤ w.amplitudes.length) {index : Nat}
    (hs : (w.stepAt? index).isSome = true)
    (h : cursor ≤ index ∧ index - cursor < tries ∨
      ∃ start, w.repeatFrom = some start ∧ start ≤ index ∧
        (w.timingsMs.length - cursor) + (index - start) < tries) :
    (w.seek tries cursor).isSome = true := by
  obtain ⟨step, hstep⟩ := Option.isSome_iff_exists.1 hs
  have hi := lt_length_of_stepAt? hstep
  induction tries generalizing cursor with
  | zero => omega
  | succ tries ih =>
    -- one place is looked at; the step that there is lies at it, behind it, or in the next round
    by_cases hc : cursor < w.timingsMs.length
    · have hp : w.place? cursor = some cursor := if_pos hc
      rw [seek_succ ha hp hc]
      split
      · rfl
      · next hn =>
        have hne : index ≠ cursor := fun he => by simp [he, hn] at hstep
        refine ih ?_
        rcases h with h | ⟨start, hstart, hle, h⟩
        · exact .inl (by omega)
        · exact .inr ⟨start, hstart, hle, by omega⟩
    · obtain h | ⟨start, hstart, hle, h⟩ := h
      · omega
      · have hp : w.place? cursor = some start := by
          rw [place?, if_neg hc, hstart]
          exact Option.filter_eq_some_iff.2 ⟨rfl, by simp; omega⟩
        rw [seek_succ ha hp (by omega)]
        split
        · rfl
        · next hn =>
          have hne : index ≠ start := fun he => by simp [he, hn] at hstep
          exact ih (.inl (by omega))

/-! ## Restlessness -/

/-- A waveform is restless if it starts again with steps that are all loud. -/
theorem isRestless_eq_true_iff :
    w.isRestless = true ↔ ∃ start, w.repeatFrom = some start ∧
      w.hasFrom .awaiting start = true ∧ w.hasFrom .timed start = false := by
  simp [isRestless, Option.any_eq_true]

/-- **Without restlessness the stretch ahead becomes shorter** with every step that the actuator may
end. -/
theorem stretch_lt (h : w.isRestless = false) (hs : w.seek tries cursor = some (step, next))
    (hstep : step.stage = .awaiting) : w.stretch next < w.stretch cursor := by
  obtain ⟨index, rfl, hat, hwhere⟩ := seek_spec hs
  have hi := lt_length_of_stepAt? hat
  have hne : step.stage ≠ .timed := by simp [hstep]
  unfold stretch
  rcases hwhere with ⟨hle, hb⟩ | ⟨hb, start, hstart, hle, hb'⟩
  · cases hc : w.hasFrom .timed cursor with
    | true =>
      rw [hasFrom_behind hc hb hat hne]
      simp only [if_true]
      omega
    | false =>
      split <;> simp <;> omega
  · -- nothing was left before the end, so the silence that the waveform has comes behind the step
    have hloud : w.hasFrom .awaiting start = true :=
      hasFrom_eq_true_iff.2 ⟨index, step, hle, hat, hstep⟩
    have hsilent : w.hasFrom .timed start = true := by
      cases hc : w.hasFrom .timed start with
      | true => rfl
      | false => simp [isRestless, hstart, hloud, hc] at h
    have hnone : w.hasFrom .timed cursor = false := by
      cases hc : w.hasFrom .timed cursor with
      | false => rfl
      | true =>
        obtain ⟨j, step', hj, hstep', -⟩ := hasFrom_eq_true_iff.1 hc
        cases (hb j hj (lt_length_of_stepAt? hstep')).symm.trans hstep'
    rw [hasFrom_behind hsilent hb' hat hne, hnone, hstart]
    simp
    omega

/-- **With restlessness a loud step always comes next**, from any cursor behind which there is no
silence. -/
theorem seek_of_isRestless (ha : w.timingsMs.length ≤ w.amplitudes.length)
    (h : w.isRestless = true) (hc : w.hasFrom .timed cursor = false) :
    ∃ durationMs amplitude next,
      w.seek (w.timingsMs.length + 1) cursor = some (.on durationMs amplitude, next) ∧
        w.hasFrom .timed next = false := by
  obtain ⟨start, hstart, hloud, hsilent⟩ := isRestless_eq_true_iff.1 h
  obtain ⟨loud, step, hle, hat, -⟩ := hasFrom_eq_true_iff.1 hloud
  have hi := lt_length_of_stepAt? hat
  have hfound : (w.seek (w.timingsMs.length + 1) cursor).isSome = true := by
    have hsome : (w.stepAt? loud).isSome = true := by simp [hat]
    refine isSome_seek ha hsome ?_
    rcases Nat.lt_or_ge loud cursor with hlt | hge
    · exact .inr ⟨start, hstart, hle, by omega⟩
    · exact .inl ⟨hge, by omega⟩
  obtain ⟨⟨step, next⟩, hs⟩ := Option.isSome_iff_exists.1 hfound
  obtain ⟨index, rfl, hat, hwhere⟩ := seek_spec hs
  -- from where the step was found there is no silence
  obtain ⟨first, hfirst, hquiet⟩ : ∃ first, first ≤ index ∧ w.hasFrom .timed first = false := by
    rcases hwhere with ⟨hle, -⟩ | ⟨-, start', hstart', hle, -⟩
    · exact ⟨cursor, hle, hc⟩
    · cases hstart.symm.trans hstart'
      exact ⟨start, hle, hsilent⟩
  have hquiet' : ¬ w.hasFrom .timed first = true := by simp [hquiet]
  have hnext : w.hasFrom .timed (index + 1) = false :=
    Bool.eq_false_iff.2 fun h => hquiet' (hasFrom_mono (by omega) h)
  rcases on_or_off_of_stepAt? hat with ⟨durationMs, amplitude, rfl⟩ | ⟨durationMs, rfl⟩
  · exact ⟨durationMs, amplitude, index + 1, hs, hnext⟩
  · exact absurd (hasFrom_eq_true_iff.2 ⟨index, _, hfirst, hat, rfl⟩) hquiet'

end Haptics.Waveform
