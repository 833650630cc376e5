import Haptics.Proofs.Scheduler.Operations
import Mathlib.Data.List.Induction

/-!
# The course of a scheduler

From its start a scheduler goes through *occurrences*: it handles an input, each at its own time and
under the policy of that time, it is stopped, and in between its actuator moves by itself. Actuator
and policy are free: any call may succeed or fail, and any event may come at any time.

* `undergo_spec`: an occurrence is made of changes and leaves the scheduler settled.
* `slots_in_order`: what the slots hold, in every state of every course.
* `onTimer_eq_undergoAll`: a deadline that waits for the events to be heard is a course as well.
-/

namespace Haptics

/-- Something that occurs to a scheduler and its actuator. -/
inductive Occurrence (σ : Type) where
  /-- The actuator has moved by itself. -/
  | moved (actuator : σ)
  /-- An input has been handled. -/
  | handled (happening : Happening)
  /-- Everything has been stopped. -/
  | stopped (now : Nat)

/-- A vibration as it is when it is asked for. -/
def Vibration.IsNew (v : Vibration) : Prop := ∃ r, v = .ofRequest v.id r

/-- A new vibration waits. -/
theorem Vibration.IsNew.status {v : Vibration} (h : v.IsNew) : v.status = .pending := by
  obtain ⟨r, hr⟩ := h
  rw [hr]
  rfl

/-- A new vibration has no end. -/
theorem Vibration.IsNew.endedMs {v : Vibration} (h : v.IsNew) : v.endedMs = none := by
  obtain ⟨r, hr⟩ := h
  rw [hr]
  rfl

namespace Occurrence

variable {σ : Type}

/-- The context in which something occurs. -/
def during (c : Context σ) : Occurrence σ → Context σ
  | moved _ => c
  | handled h => c.during h
  | stopped now => { c with now }

/-- The vibration that is asked for. -/
def asks : Occurrence σ → Option Vibration
  | handled { input := .vibrate v, .. } => some v
  | _ => none

/-- Whether a vibration that has been told to stop may go. -/
def frees (p : Playback) : Occurrence σ → Prop
  | moved _ => False
  | handled h => h.input.frees h.now p
  | stopped _ => True

/-- The vibrations that are asked for, in turn. -/
def asked (os : List (Occurrence σ)) : List Vibration := os.filterMap asks

/-- What is asked for in two parts is asked for one part after the other. -/
theorem asked_append (first second : List (Occurrence σ)) :
    asked (first ++ second) = asked first ++ asked second :=
  List.filterMap_append

/-- What comes first is asked for first. -/
theorem asked_cons (o : Occurrence σ) (rest : List (Occurrence σ)) :
    asked (o :: rest) = o.asks.toList ++ asked rest := by
  cases h : o.asks <;> simp [asked, h]

/-- What comes last is asked for last. -/
theorem asked_concat (os : List (Occurrence σ)) (o : Occurrence σ) :
    asked (os ++ [o]) = asked os ++ o.asks.toList := by
  rw [asked_append, asked_cons]
  exact congrArg _ (List.append_nil _)

/-- The vibrations of a course are new where it begins and behind. -/
theorem isNew_of_cons {o : Occurrence σ} {rest : List (Occurrence σ)}
    (h : ∀ v ∈ asked (o :: rest), v.IsNew) :
    (∀ v ∈ o.asks, v.IsNew) ∧ ∀ v ∈ asked rest, v.IsNew := by
  rw [asked_cons] at h
  constructor
  · intro v hv
    exact h v (List.mem_append_left _ (Option.mem_toList.2 hv))
  · intro v hv
    exact h v (List.mem_append_right _ hv)

/-- The vibrations of a course are new before it ends and where it does. -/
theorem isNew_of_concat {os : List (Occurrence σ)} {o : Occurrence σ}
    (h : ∀ v ∈ asked (os ++ [o]), v.IsNew) :
    (∀ v ∈ asked os, v.IsNew) ∧ ∀ v ∈ o.asks, v.IsNew := by
  rw [asked_concat] at h
  constructor
  · intro v hv
    exact h v (List.mem_append_left _ hv)
  · intro v hv
    exact h v (List.mem_append_right _ (Option.mem_toList.2 hv))

/-- Every vibration is asked for as a new one, and under a number of its own. -/
structure Proper (os : List (Occurrence σ)) : Prop where
  new : ∀ v ∈ asked os, v.IsNew
  fresh : ((asked os).map (·.id)).Nodup

/-- What comes first in a proper course is one. -/
theorem Proper.of_append {first second : List (Occurrence σ)} (h : Proper (first ++ second)) :
    Proper first := by
  obtain ⟨hn, hf⟩ := h
  rw [asked_append] at hn hf
  rw [List.map_append] at hf
  exact ⟨fun v hv => hn v (List.mem_append_left _ hv), (List.nodup_append.1 hf).1⟩

end Occurrence

namespace Scheduler

open Occurrence

variable {σ : Type}

/-! ## Courses -/

/-- The state after an occurrence. -/
def undergo (c : Context σ) (o : Occurrence σ) (s : Scheduler σ) : Scheduler σ :=
  match o with
  | .moved actuator => { s with line := { s.line with actuator } }
  | .handled h => s.step (c.during h) h.input
  | .stopped now => s.stopAll { c with now }

/-- The state after occurrences in turn. -/
def undergoAll (c : Context σ) (os : List (Occurrence σ)) (s : Scheduler σ) : Scheduler σ :=
  os.foldl (fun s o => s.undergo c o) s

/-- The state after occurrences from the start. -/
def after (c : Context σ) (actuator : σ) (os : List (Occurrence σ)) : Scheduler σ :=
  (create c.config actuator).undergoAll c os

section courses

variable (c : Context σ) (s : Scheduler σ)

/-- Where nothing occurs nothing changes. -/
@[simp] theorem undergoAll_nil : s.undergoAll c [] = s := rfl

/-- A course in two parts is gone through one part after the other. -/
theorem undergoAll_append (first second : List (Occurrence σ)) :
    s.undergoAll c (first ++ second) = (s.undergoAll c first).undergoAll c second :=
  List.foldl_append

/-- Before anything has occurred a scheduler is as it was created. -/
@[simp] theorem after_nil (actuator : σ) : after c actuator [] = create c.config actuator := rfl

/-- So it is from the start on. -/
theorem after_append (actuator : σ) (first second : List (Occurrence σ)) :
    after c actuator (first ++ second) = (after c actuator first).undergoAll c second :=
  undergoAll_append c _ first second

/-- The last occurrence comes behind the others. -/
theorem after_concat (actuator : σ) (os : List (Occurrence σ)) (o : Occurrence σ) :
    after c actuator (os ++ [o]) = (after c actuator os).undergo c o :=
  after_append c actuator os [o]

end courses

/-! ## Timers -/

/-- To hear the events that wait is a course. -/
theorem drain_eq_undergoAll (c : Context σ) (limit : Nat) (s t : Scheduler σ)
    (h : s.drain c limit = some t) : ∃ os, asked os = [] ∧ t = s.undergoAll c os := by
  induction limit generalizing s with
  | zero =>
    unfold drain at h
    split at h
    · cases h
      exact ⟨[], rfl, rfl⟩
    · cases h
  | succ limit ih =>
    unfold drain at h
    split at h
    · cases h
      exact ⟨[], rfl, rfl⟩
    · next event s' he =>
      obtain ⟨⟨event', actuator⟩, -, heq⟩ := Option.map_eq_some_iff.1 he
      cases heq
      obtain ⟨os, ha, rfl⟩ := ih _ h
      exact ⟨.moved actuator :: .handled ⟨c.policy, c.now, .event event⟩ :: os, ha, rfl⟩

/-- **A deadline that waits for the events to be heard is a course.** -/
theorem onTimer_eq_undergoAll (c : Context σ) (limit : Nat) (s t : Scheduler σ)
    (h : s.onTimer c limit = some t) : ∃ os, asked os = [] ∧ t = s.undergoAll c os := by
  obtain ⟨s', hd, rfl⟩ := Option.map_eq_some_iff.1 h
  obtain ⟨os, ha, rfl⟩ := drain_eq_undergoAll c limit s s' hd
  refine ⟨os ++ [.handled ⟨c.policy, c.now, .deadline⟩], ?_, ?_⟩
  · rw [asked_append, ha]
    rfl
  · rw [undergoAll_append]
    rfl

/-! ## What an occurrence does -/

/-- The state that an occurrence meets: the actuator may have moved. -/
def shifted (o : Occurrence σ) (s : Scheduler σ) : Scheduler σ :=
  match o with
  | .moved actuator => { s with line := { s.line with actuator } }
  | _ => s

section shifted

variable (o : Occurrence σ) (s : Scheduler σ)

/-- What happens outside leaves the holder of the motor alone. -/
@[simp] theorem current_shifted : (s.shifted o).current = s.current := by
  cases o <;> rfl

/-- So it does with whoever waits. -/
@[simp] theorem next_shifted : (s.shifted o).next = s.next := by
  cases o <;> rfl

/-- So it does with the session. -/
@[simp] theorem external_shifted : (s.shifted o).external = s.external := by
  cases o <;> rfl

/-- So it does with the journal. -/
@[simp] theorem journal_shifted : (s.shifted o).journal = s.journal := by
  cases o <;> rfl

end shifted

/-- **An occurrence is made of changes**, after which the scheduler is settled and whoever asked has
found a place. -/
theorem undergo_spec {c : Context σ} {s : Scheduler σ} (h : s.Settled) {o : Occurrence σ}
    (ho : ∀ v ∈ o.asks, v.IsNew) :
    Relation.ReflTransGen (Change (o.during c) (o.frees ·)) ⟨o.asks, s.shifted o⟩
        ⟨none, s.undergo c o⟩ ∧
      (s.undergo c o).Settled := by
  cases o with
  | moved actuator => exact ⟨.refl, h.of_places rfl rfl rfl⟩
  | stopped now =>
    obtain ⟨hr, hc, hn, he⟩ := stopAll_spec { c with now } s
    refine ⟨hr none, ?_, ?_, ?_, ?_, ?_⟩
    · rw [undergo, hc]; simp
    · rw [undergo, hc]; simp
    · rw [undergo, hn]; simp
    · rw [undergo, he]; simp
    · rw [undergo, hc]; simp
  | handled happening =>
    obtain ⟨policy, now, input⟩ := happening
    -- a request is the one input that brings somebody new
    by_cases hi : ∃ v, input = .vibrate v
    · obtain ⟨v, rfl⟩ := hi
      exact vibrate_spec h (ho v rfl).status
    · have hn : ∀ v, input ≠ .vibrate v := fun v hv => hi ⟨v, hv⟩
      have hs := settles_step (c := c.during ⟨policy, now, input⟩) h hn
      have ha : asks (σ := σ) (.handled ⟨policy, now, input⟩) = none := by
        cases input with
        | vibrate v => exact absurd rfl (hn v)
        | _ => rfl
      rw [ha]
      exact ⟨hs.reaches none, hs.settled⟩

/-- A scheduler that has just been created is settled. -/
theorem settled_create (config : Config) (actuator : σ) : (create config actuator).Settled where
  holder := by simp [create]
  engaged := by simp [create]
  waiting := by simp [create]
  session := by simp [create]
  timed := by simp [create]

/-- Between two occurrences a scheduler is settled. -/
theorem settled_undergoAll {c : Context σ} {s : Scheduler σ} (h : s.Settled)
    {os : List (Occurrence σ)} (ho : ∀ v ∈ asked os, v.IsNew) : (s.undergoAll c os).Settled := by
  induction os generalizing s with
  | nil => exact h
  | cons o rest ih =>
    obtain ⟨hv, hrest⟩ := isNew_of_cons ho
    exact ih (undergo_spec h hv).2 hrest

/-- **Every state of every course is settled.** -/
theorem settled_after (c : Context σ) (actuator : σ) {os : List (Occurrence σ)}
    (ho : ∀ v ∈ asked os, v.IsNew) : (after c actuator os).Settled :=
  settled_undergoAll (settled_create c.config actuator) ho

/-- **What every change preserves holds throughout a course**, if it holds at its start. -/
theorem undergoAll_preserves {c : Context σ} {I : Scheduler σ → Prop}
    (hm : ∀ {s : Scheduler σ} (o : Occurrence σ), I s → I (s.shifted o))
    (hI : ∀ {c : Context σ} {leave : Playback → Prop} {m m' : Moment σ},
      Change c leave m m' → I m.scheduler → I m'.scheduler)
    {s : Scheduler σ} (hs : s.Settled) {os : List (Occurrence σ)}
    (ho : ∀ v ∈ asked os, v.IsNew) (h : I s) : I (s.undergoAll c os) := by
  induction os generalizing s with
  | nil => exact h
  | cons o rest ih =>
    obtain ⟨hv, hrest⟩ := isNew_of_cons ho
    obtain ⟨hr, hs'⟩ := undergo_spec (c := c) hs hv
    refine ih hs' hrest ?_
    exact holds_of_changes (I := fun m => I m.scheduler) hI hr (hm o h)

/-- So does what lasts while a vibration holds the motor. -/
theorem Lasting.after {P : Playback → Prop} (hP : ∀ c : Context σ, Lasting c P) (c : Context σ)
    (actuator : σ) {os : List (Occurrence σ)} (ho : ∀ v ∈ asked os, v.IsNew) :
    ∀ p ∈ (after c actuator os).current, P p :=
  undergoAll_preserves (I := fun t => ∀ p ∈ t.current, P p) (fun o ht => by rwa [current_shifted])
    (fun hc ht => (hP _).change hc ht) (settled_create c.config actuator) ho
    fun p hp => by cases hp

/-! ## A course on the bench

A stream plays, and a push is asked for. The stream is told to stop and holds the motor until the
actuator reports its end; until then the push waits.
-/

/-- A motor that reports the end of a command when it is told to. -/
def bench : Bench := { motor := { config := { completion := .manual } } }

/-- A scheduler for it. -/
def onBench : Context Bench :=
  { device := Bench.device, policy := .permissive, config := {}, now := 0 }

/-- A stream. -/
def hum : VibrationRequest :=
  { uid := 1, package := "player", token := 1, effect := .stream { words := [recordTag] } }

/-- A push. -/
def push : VibrationRequest :=
  { uid := 1, package := "keyboard", token := 2, effect := .oneShot 20 128 }

/-- The stream is asked for. -/
def humAsked : Happening := ⟨.permissive, 0, .vibrate (.ofRequest 1 hum)⟩

/-- The push is asked for. -/
def pushAsked : Happening := ⟨.permissive, 5, .vibrate (.ofRequest 2 push)⟩

/-- The stream is asked for, and then the push. -/
def preemption : List (Occurrence Bench) := [.handled humAsked, .handled pushAsked]

/-- The actuator reports the end of the stream. -/
def completion : List (Occurrence Bench) := [.handled ⟨.permissive, 9, .event (.complete 1)⟩]

/-- The stream and the push make a proper course. -/
theorem proper_completion : Proper (preemption ++ completion) where
  new v hv := by
    rcases List.mem_cons.1 hv with rfl | hv
    · exact ⟨hum, rfl⟩
    · exact ⟨push, by rw [List.mem_singleton.1 hv]; rfl⟩
  fresh := by decide

/-! ## The slots -/

/-- **The slots are in order**, in every state of every course.

* A vibration waits only while it is pending, and behind one that is being stopped.
* The vibration that holds the motor is running and not being stopped; or it is being stopped, has
  been cancelled, and has a stream in flight.
* Beside a session no vibration waits.
* A session that has the motor has it alone, and one that waits for it waits for a vibration that is
  being stopped. -/
theorem slots_in_order (c : Context σ) (actuator : σ) (os : List (Occurrence σ))
    (h : ∀ v ∈ asked os, v.IsNew) :
    let s := after c actuator os
    (∀ q ∈ s.next, q.vibration.status = .pending ∧ ∃ p ∈ s.current, p.stopping = true) ∧
    (∀ p ∈ s.current,
      (p.vibration.status = .running ∧ p.stopping = false) ∨
      (p.stopping = true ∧ p.vibration.status.isCancelled = true ∧
        p.hasStreamInFlight = true)) ∧
    (s.external.isSome = true → s.next = none) ∧
    (∀ e ∈ s.external,
      if e.active then s.current = none else ∃ p ∈ s.current, p.stopping = true) := by
  have hs := settled_after c actuator h
  refine ⟨fun q hq => ?_, fun p hp => ?_, fun he => ?_, fun e he => ?_⟩
  · obtain ⟨hu, p, hp, hst⟩ := hs.waiting q hq
    exact ⟨hu.pending, p, hp, hst.stopping⟩
  · rcases hs.holder p hp with hr | hst
    · exact .inl ⟨hr.running, hr.stopping⟩
    · exact .inr ⟨hst.stopping, hst.cancelled, hst.inFlight⟩
  · obtain ⟨e, he⟩ := Option.isSome_iff_exists.1 he
    exact (hs.session e he).1
  · have h' := (hs.session e he).2
    split at h'
    · next ha => rwa [if_pos ha]
    · next ha =>
      obtain ⟨p, hp, hst⟩ := h'
      rw [if_neg ha]
      exact ⟨p, hp, hst.stopping⟩

/-- The push waits, and so it does behind the stream, which is being stopped. -/
theorem slots_in_order_preemption :
    (∀ v ∈ asked preemption, v.IsNew) ∧
    let s := after onBench bench preemption
    (s.next.map (·.id) = some 2 ∧ s.current.map (·.id) = some 1) ∧
    (∀ q ∈ s.next, q.vibration.status = .pending ∧ ∃ p ∈ s.current, p.stopping = true) ∧
    (∀ p ∈ s.current,
      (p.vibration.status = .running ∧ p.stopping = false) ∨
      (p.stopping = true ∧ p.vibration.status.isCancelled = true ∧
        p.hasStreamInFlight = true)) ∧
    (s.external.isSome = true → s.next = none) ∧
    (∀ e ∈ s.external,
      if e.active then s.current = none else ∃ p ∈ s.current, p.stopping = true) :=
  ⟨proper_completion.of_append.new, by decide,
    slots_in_order onBench bench preemption proper_completion.of_append.new⟩

end Scheduler

end Haptics
