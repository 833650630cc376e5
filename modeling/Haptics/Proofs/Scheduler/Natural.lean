import Haptics.Proofs.Actuator.Motor
import Haptics.Proofs.Scheduler.Course

/-!
# What an actuator does by itself

In a course the actuator may move by itself as it likes. Where it moves only in a certain way, the
course is *natural* for it (`Natural`): a bench, say, reports the end of a command, is heard, or
loses its listener (`Bench.Drifts`), at any point of the course.

Whatever a scheduler does, its line goes through a talk (`Change.talks`). So what every word of a
talk preserves, and what the actuator leaves alone by itself, holds throughout a natural course
(`natural_preserves`).
-/

namespace Haptics.Scheduler

open Occurrence

variable {σ : Type}

/-- A change of a scheduler is a talk on its line, mostly without a word. -/
theorem Change.talks {c : Context σ} {leave : Playback → Prop} {m m' : Moment σ}
    (h : Change c leave m m') :
    ∃ orders, Talk c m.scheduler.line orders m'.scheduler.line := by
  cases h with
  | talked ht hp => exact ⟨_, ht⟩
  | halted hp hs hf hc ht => exact ⟨_, ht⟩
  | _ => exact ⟨[], .silence _⟩

/-- What every word of a talk preserves, changes preserve. -/
theorem holds_of_talks {c : Context σ} {leave : Playback → Prop} {J : Line σ → Prop}
    (hj : ∀ {l l' : Line σ} {orders : List Order}, Talk c l orders l' → J l → J l')
    {m m' : Moment σ} (hr : Relation.ReflTransGen (Change c leave) m m')
    (h : J m.scheduler.line) : J m'.scheduler.line := by
  refine holds_of_changes (I := fun m => J m.scheduler.line) (fun hc hl => ?_) hr h
  obtain ⟨orders, ht⟩ := hc.talks
  exact hj ht hl

/-! ## Natural courses -/

/-- Whether the actuator moves by itself only in a certain way. -/
def Natural (moves : σ → σ → Prop) (c : Context σ) (s : Scheduler σ) (os : List (Occurrence σ)) :
    Prop :=
  ∀ before moved rest, os = before ++ .moved moved :: rest →
    moves (s.undergoAll c before).line.actuator moved

section natural

variable {moves : σ → σ → Prop} {c : Context σ} {s : Scheduler σ} {os : List (Occurrence σ)}

/-- Both parts of a natural course are natural. -/
theorem Natural.of_append {first second : List (Occurrence σ)}
    (h : Natural moves c s (first ++ second)) :
    Natural moves c s first ∧ Natural moves c (s.undergoAll c first) second := by
  constructor
  · intro before moved rest he
    exact h before moved (rest ++ second) (by rw [he, List.append_assoc]; rfl)
  · intro before moved rest he
    rw [← undergoAll_append]
    exact h (first ++ before) moved rest (by rw [he, List.append_assoc])

/-- A course without occurrences is natural. -/
theorem Natural.nil (moves : σ → σ → Prop) (c : Context σ) (s : Scheduler σ) :
    Natural moves c s [] := by
  intro before moved rest he
  simp at he

/-- A course is natural where more moves are allowed. -/
theorem Natural.mono {moves' : σ → σ → Prop} (h : Natural moves c s os)
    (hm : ∀ {a b : σ}, moves a b → moves' a b) : Natural moves' c s os :=
  fun before moved rest he => hm (h before moved rest he)

/-- One more natural occurrence makes a natural course. -/
theorem Natural.concat (h : Natural moves c s os) {o : Occurrence σ}
    (hm : ∀ moved, o = .moved moved → moves (s.undergoAll c os).line.actuator moved) :
    Natural moves c s (os ++ [o]) := by
  intro before moved rest he
  rcases List.eq_nil_or_concat rest with rfl | ⟨rest, last, rfl⟩
  · obtain ⟨rfl, hlast⟩ := List.append_inj' he rfl
    exact hm moved (List.singleton_inj.1 hlast)
  · have he' : os ++ [o] = (before ++ .moved moved :: rest) ++ [last] := by simp [he]
    obtain ⟨rfl, -⟩ := List.append_inj' he' rfl
    exact h before moved rest rfl

/-- While an input is handled the actuator moves only when it is called. -/
theorem Natural.handled (h : Natural moves c s os) (happening : Happening) :
    Natural moves c s (os ++ [.handled happening]) :=
  h.concat fun _ he => by cases he

/-- **What holds of the line throughout a natural course**: what the actuator by itself and every
word of a talk preserve. -/
theorem natural_preserves {J : Line σ → Prop}
    (hm : ∀ {l : Line σ} {a : σ}, moves l.actuator a → J l → J { l with actuator := a })
    (hj : ∀ {d : Context σ} {l l' : Line σ} {orders : List Order},
      d.device = c.device → Talk d l orders l' → J l → J l')
    (hs : s.Settled) (ho : ∀ v ∈ asked os, v.IsNew) (hn : Natural moves c s os) (h : J s.line) :
    J (s.undergoAll c os).line := by
  induction os generalizing s with
  | nil => exact h
  | cons o rest ih =>
    obtain ⟨hv, hrest⟩ := isNew_of_cons ho
    obtain ⟨hr, hs'⟩ := undergo_spec (c := c) hs hv
    have hn' : Natural moves c s ([o] ++ rest) := hn
    refine ih hs' hrest hn'.of_append.2 ?_
    have hshifted : J (s.shifted o).line := by
      cases o with
      | moved moved => exact hm (hn [] moved rest rfl) h
      | _ => exact h
    have hdevice : (o.during c).device = c.device := by
      cases o <;> rfl
    exact holds_of_talks (fun ht => hj hdevice ht) hr hshifted

end natural

/-! ## On the bench -/

/-- The connection breaks. -/
def breaks (s : Scheduler Bench) : Occurrence Bench :=
  .moved { s.line.actuator with motor := s.line.actuator.motor.kill }

/-- The oldest event is taken, to be handled. -/
def hears (s : Scheduler Bench) : Occurrence Bench :=
  .moved ((s.line.actuator.hear.map Prod.snd).getD s.line.actuator)

/-- A connection that breaks is a drift. -/
theorem drifts_breaks (s : Scheduler Bench) :
    ∀ moved, breaks s = .moved moved → s.line.actuator.Drifts moved := by
  rintro _ ⟨⟩
  exact Bench.drifts_kill _

/-- An event that is heard is a drift. -/
theorem drifts_hears (s : Scheduler Bench) :
    ∀ moved, hears s = .moved moved → s.line.actuator.Drifts moved := by
  rintro _ ⟨⟩
  cases he : s.line.actuator.hear with
  | none => exact Bench.drifts_of_alike (.refl _) rfl rfl
  | some heard => exact Bench.drifts_hear he

end Haptics.Scheduler
