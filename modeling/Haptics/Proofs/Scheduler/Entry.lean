import Haptics.Proofs.Scheduler.Precedence
import Haptics.Proofs.Scheduler.Release
import Haptics.Proofs.Waveform

/-!
# What becomes of a request for a vibration

A request is turned away because its client may not vibrate, because there is a session, or because
the vibration that holds the motor has precedence (`TurnedAway`). It is entered in the history and
nothing else changes, except that the packets of a stream are no longer let in if the request
carries the sender that they are let in for. Otherwise the request is let in: whoever waits goes,
whoever plays is cancelled, and the request *lands* somewhere (`Lands`). It waits if a stream has to
come to its end first; else it has the motor at once, where its first step is in flight, was refused
by the actuator, or is missing.

* `nextStep_eq_none_iff`: only a waveform without any length has no step.
* `genuine_after`: what is in flight as a stream is one.
* `letIn_place`: where a request lands that is let in.
* `request_finds_its_place`: all of it, in every state of every course.
* `turned_away_shuts_stream`: a request that is turned away takes the packets of the stream that
  plays with it.
-/

namespace Haptics

/-- The vibration that holds the motor keeps a request away: it is still going on, the request ends
by itself, and its rank is positive and not exceeded. -/
def Vibration.Bars (holder request : Vibration) : Prop :=
  holder.hasEnded = false ∧ request.isRepeating = false ∧ 0 < holder.holderRank ∧
    request.requestRank ≤ holder.holderRank

namespace Vibration

variable {holder request : Vibration}

/-- Whoever bars a request refuses it. -/
theorem refusal?_of_bars (h : holder.Bars request) :
    holder.refusal? request = some holder.refusalStatus := by
  obtain ⟨hlive, hends, hpositive, hrank⟩ := h
  unfold refusal?
  rw [hlive, hends, if_neg (by decide), if_neg (by omega)]

/-- Whoever does not bar it lets it in. -/
theorem refusal?_of_not_bars (h : ¬holder.Bars request) : holder.refusal? request = none := by
  rw [← Option.not_isSome_iff_eq_none, refusal?_isSome_iff]
  exact h

end Vibration

/-! ## Effects without a step -/

/-- **Only a waveform without any length has no step.** -/
theorem Playback.nextStep_eq_none_iff {v : Vibration} (h : v.effect.check = .ok ()) :
    nextStep { vibration := v } = none ↔
      ∃ w, v.effect = .waveform w ∧ ∀ ms ∈ w.timingsMs, ms = 0 := by
  cases he : v.effect with
  | waveform w =>
    have hw : w.check = .ok () := by rwa [he] at h
    have hstep : nextStep { vibration := v } = w.seek (w.timingsMs.length + 1) 0 := by
      simp only [nextStep, he]
    rw [hstep]
    constructor
    · intro hnone
      refine ⟨w, rfl, fun ms hms => Decidable.not_not.1 fun hne => ?_⟩
      obtain ⟨index, hi, rfl⟩ := List.getElem_of_mem hms
      have hfound : (w.seek (w.timingsMs.length + 1) 0).isSome = true :=
        Waveform.isSome_seek (Nat.le_of_eq (w.length_eq_of_check hw))
          (w.isSome_stepAt? hw hi hne) (.inl ⟨Nat.zero_le _, by omega⟩)
      rw [hnone] at hfound
      cases hfound
    · rintro ⟨_, ⟨⟩, hzero⟩
      refine Option.eq_none_iff_forall_not_mem.2 fun next hnext => ?_
      obtain ⟨index, -, hs, -⟩ := Waveform.seek_spec hnext
      unfold Waveform.stepAt? at hs
      split at hs
      · next ms amplitude hms _ =>
        rw [if_pos (hzero ms (List.mem_of_getElem? hms))] at hs
        cases hs
      · cases hs
  | _ => simp [nextStep, he, singleStep?]

/-- What is in flight as a stream is one. -/
def Playback.Genuine (p : Playback) : Prop :=
  p.hasStreamInFlight = true → p.vibration.effect.isStream = true

/-- Whoever begins has nothing in flight yet. -/
theorem Playback.Untouched.genuine_begin {q : Playback} (h : q.Untouched) : q.begin.Genuine := by
  intro hf
  rw [h.eq] at hf
  cases hf

namespace Scheduler

open Occurrence

variable {σ : Type} {c : Context σ} {leave : Playback → Prop} {s t u : Scheduler σ} {p q : Playback}
  {v : Vibration} {gone : List Vibration}

/-! ## What is in flight as a stream -/

/-- Only the step of a stream puts one in flight. -/
theorem Turn.genuine {p p' : Playback} (h : Turn c p p') (hp : p.Genuine) : p'.Genuine := by
  cases h with
  | launched reported hr hn =>
    intro hf
    obtain ⟨stream, -, he, -⟩ := Playback.effect_of_nextStep hn (Option.some.inj (beq_iff_eq.1 hf))
    change p.vibration.effect.isStream = true
    rw [he]
    rfl
  | ended hs =>
    intro hf
    rw [show (p.finish _ c.now).vibration.effect = _ from
      (Vibration.becomes_finish p.vibration hs c.now).effect_eq]
    exact hp hf
  | lapsed hr hd hle => exact hp

/-- That what is in flight as a stream is one lasts while it holds the motor. -/
theorem lasting_genuine (c : Context σ) : Lasting c Playback.Genuine :=
  ⟨fun hq => hq.genuine_begin, fun ht hp => ht.genuine hp, fun _ _ hp => hp⟩

/-- **What is in flight as a stream is one**, in every state of every course. -/
theorem genuine_after (c : Context σ) (actuator : σ) {os : List (Occurrence σ)}
    (ho : ∀ v ∈ asked os, v.IsNew) : ∀ p ∈ (after c actuator os).current, p.Genuine :=
  Lasting.after lasting_genuine c actuator ho

/-! ## Requests that are turned away -/

/-- A request that is turned away has ended at once. -/
theorem turnedAway_of_pending {status : Status} (hv : v.status = .pending)
    (h : s.refusal? c v = some status) :
    TurnedAway status (v.endedAs status c.now) s (s.vibrate c v) := by
  have hended : v.finish status c.now = v.endedAs status c.now :=
    Vibration.finish_of_live (Vibration.hasEnded_of_pending hv) (isTerminal_of_refusal? h) c.now
  rw [← hended]
  exact turnedAway_of_refusal? h

/-! ## Requests that are let in -/

/-- Where a request has come to in `t` that was let in at `s`, if those of `gone` have gone for
it. -/
inductive Lands (c : Context σ) (v : Vibration) (gone : List Vibration) (s t : Scheduler σ) :
    Prop where
  /-- It waits for a stream that has been told to stop. -/
  | waits {p : Playback} (hp : t.current = some p) (hst : p.Stops)
      (he : p.vibration.effect.isStream = true) (hn : t.next = some { vibration := v })
      (hr : t.retired = gone ++ s.retired)
  /-- It has the motor and runs. -/
  | runs {p : Playback} (hp : t.current = some p) (hv : p.vibration = v.running)
      (hst : p.stopping = false) (hn : t.next = none) (hr : t.retired = gone ++ s.retired)
  /-- It has had the motor, and the actuator has refused its first step. -/
  | fails {u w : Scheduler σ} {step : Step} {cursor : Nat} {e : Failure}
      (hstep : Playback.nextStep { vibration := v } = some (step, cursor))
      (hu : u.current = some (.begin { vibration := v }))
      (hl : u.launch c (.begin { vibration := v }) step = (.error e, w))
      (ht : t = ({ w.disconnect with current := none } : Scheduler σ).retire
        (v.endedAs .ignoredErrorScheduling c.now))
      (hc : t.current = none) (hn : t.next = none)
      (hr : t.retired = v.endedAs .ignoredErrorScheduling c.now :: gone ++ s.retired)
  /-- It has had the motor, and is a waveform without any length. -/
  | ends {w : Waveform} (he : v.effect = .waveform w) (hzero : ∀ ms ∈ w.timingsMs, ms = 0)
      (hc : t.current = none) (hn : t.next = none)
      (hr : t.retired = v.endedAs .finished c.now :: gone ++ s.retired)

/-- A request that gets the motor lands. -/
theorem Begun.lands (h : Begun c { vibration := v } u t) (hv : v.status = .pending)
    (hcheck : v.effect.check = .ok ()) (hn : u.next = none) (hr : u.retired = gone ++ s.retired) :
    Lands c v gone s t := by
  cases h with
  | runs hstep hl =>
    have hw := stays_launch hl
    exact .runs rfl (Playback.untouched_of_pending hv).vibration_begin rfl (hw.next.trans hn)
      (hw.retired.trans hr)
  | fails hstep hl =>
    have hw := stays_launch hl
    exact .fails hstep rfl hl rfl rfl (hw.next.trans hn)
      (congrArg (v.endedAs _ _ :: ·) (hw.retired.trans hr))
  | ends hstep =>
    obtain ⟨w, he, hzero⟩ := (Playback.nextStep_eq_none_iff hcheck).1 hstep
    exact .ends he hzero rfl hn (congrArg (v.endedAs _ _ :: ·) hr)

/-- What becomes of the others when a request is let in, and of the request. -/
structure LetIn (c : Context σ) (v : Vibration) (s t : Scheduler σ) : Prop where
  /-- Whoever waited is gone. -/
  replaced : ∀ q ∈ s.next, q.vibration.endedAs .ignoredSuperseded c.now ∈ t.retired
  /-- Whoever played has ended. -/
  preempted : ∀ p ∈ s.current, p.stopping = false →
    t.Ended (p.vibration.endedAs .cancelledSuperseded c.now)
  /-- Whoever was stopping is left alone. -/
  awaited : ∀ p ∈ s.current, p.stopping = true → t.current = some p
  /-- The request has landed, and nobody else is gone for it. -/
  lands : ∃ gone, Lands c v gone s t ∧ ∀ w ∈ gone,
    (∃ q ∈ s.next, w = q.vibration.endedAs .ignoredSuperseded c.now) ∨
      ∃ p ∈ s.current, p.stopping = false ∧
        w = p.vibration.endedAs .cancelledSuperseded c.now
  /-- It waits if a stream has to come to its end, and only then. -/
  waits_iff : t.next = some { vibration := v } ↔
    ∃ p ∈ t.current, p.stopping = true ∧ p.vibration.effect.isStream = true

/-- A request waits behind a stream that is stopping, and nowhere else. -/
theorem Lands.waits_iff (h : Lands c v gone s t) :
    t.next = some { vibration := v } ↔
      ∃ p ∈ t.current, p.stopping = true ∧ p.vibration.effect.isStream = true := by
  have hempty (hc : t.current = none) (hn : t.next = none) :
      t.next = some { vibration := v } ↔
        ∃ p ∈ t.current, p.stopping = true ∧ p.vibration.effect.isStream = true := by
    rw [hc, hn]
    simp
  cases h with
  | waits hp hst he hn hr => exact ⟨fun _ => ⟨_, hp, hst.stopping, he⟩, fun _ => hn⟩
  | runs hp hv hst hn hr =>
    rw [hp, hn]
    simp [hst]
  | fails hstep hu hl ht hc hn hr => exact hempty hc hn
  | ends he hzero hc hn hr => exact hempty hc hn

/-- Whoever has gone for a request is gone. -/
theorem Lands.mem_retired {w : Vibration} (h : Lands c v gone s t) (hw : w ∈ gone) :
    w ∈ t.retired := by
  have hmem : w ∈ gone ++ s.retired := List.mem_append_left _ hw
  cases h with
  | waits hp hst he hn hr => rwa [hr]
  | runs hp hv hst hn hr => rwa [hr]
  | fails hstep hu hl ht hc hn hr =>
    rw [hr]
    exact List.mem_cons_of_mem _ hmem
  | ends he hzero hc hn hr =>
    rw [hr]
    exact List.mem_cons_of_mem _ hmem

/-- A request waits behind a stream that is stopping already, in the place of whoever waits. -/
theorem letIn_of_stops (hp : s.current = some p) (hst : p.Stops)
    (hstream : p.vibration.effect.isStream = true) (hw : ∀ q ∈ s.next, q.Untouched) :
    LetIn c v s (s.place c v) := by
  let gone := s.next.toList.map fun q => q.vibration.endedAs .ignoredSuperseded c.now
  have hplace := place_of_stopping (c := c) (v := v) hp hst.stopping
  have hcurrent : (s.place c v).current = some p := by
    rw [hplace]
    exact (current_dropNext c s .ignoredSuperseded).trans hp
  have hretired : (s.place c v).retired = gone ++ s.retired := by
    rw [hplace]
    change (s.dropNext c .ignoredSuperseded).retired = _
    cases hq : s.next with
    | none => simp [gone, dropNext, hq]
    | some q =>
      rw [dropNext_ended hq (hw q hq) rfl, retired_retire]
      simp only [gone, hq]
      rfl
  have hlands : Lands c v gone s (s.place c v) :=
    .waits hcurrent hst hstream (by rw [hplace]) hretired
  refine ⟨fun q hq => ?_, fun p' hp' hrun => ?_, fun p' hp' _ => ?_, ⟨gone, hlands, ?_⟩,
    hlands.waits_iff⟩
  · rw [hretired]
    exact List.mem_append_left _ (List.mem_map_of_mem (Option.mem_toList.2 hq))
  · cases hp.symm.trans hp'
    rw [hst.stopping] at hrun
    cases hrun
  · rw [hcurrent, ← hp]
    exact hp'
  · intro w hm
    obtain ⟨q, hq, rfl⟩ := List.mem_map.1 hm
    exact .inl ⟨q, Option.mem_toList.1 hq, rfl⟩

/-- A request takes the motor that nobody holds. -/
theorem place_of_free (hp : s.current = none) (hn : s.next = none) :
    s.place c v = (s.letIn v).occupy c { vibration := v } := by
  rw [place_of_none hp, readyFor, dropNext, hn]

/-- A request waits for a vibration that plays, which is cancelled for it. -/
theorem place_of_plays (h : s.Plays p) :
    s.place c v =
      (({ s.letIn v with next := some { vibration := v } } : Scheduler σ).cancelCurrent c
        .cancelledSuperseded).2 := by
  rw [place_of_some h.current, readyFor, dropNext, h.next]

section place

variable (hv : v.status = .pending) (hcheck : v.effect.check = .ok ())

include hv hcheck

/-- A request gets the motor that nobody holds. -/
theorem letIn_of_free (hp : s.current = none) (hn : s.next = none) (he : s.external = none) :
    LetIn c v s (s.place c v) := by
  have hlands : Lands c v [] s (s.place c v) := by
    rw [place_of_free hp hn]
    have hu := Playback.untouched_of_pending hv
    exact (begun_occupy (s := s.letIn v) hu hn he).lands hv hcheck hn rfl
  refine ⟨?_, ?_, ?_, ⟨[], hlands, by simp⟩, hlands.waits_iff⟩
  · rw [hn]; simp
  · rw [hp]; simp
  · rw [hp]; simp

/-- A request is let in for a vibration that plays, which ends. -/
theorem letIn_of_plays (h : s.Plays p) (hg : p.Genuine) : LetIn c v s (s.place c v) := by
  let w : Scheduler σ := { s.letIn v with next := some { vibration := v } }
  let ended := p.vibration.endedAs .cancelledSuperseded c.now
  -- what there is to say of the others follows from where the request has landed
  have hletIn {gone : List Vibration} {t : Scheduler σ} (hlands : Lands c v gone s t)
      (hgone : ∀ v ∈ gone, v = ended) (hended : t.Ended ended) : LetIn c v s t := by
    refine ⟨?_, ?_, ?_, ⟨gone, hlands, fun v hv => .inr ?_⟩, hlands.waits_iff⟩
    · rw [h.next]; simp
    · rw [h.current]
      rintro _ ⟨⟩ _
      exact hended
    · rw [h.current]
      rintro _ ⟨⟩ hst
      rw [h.runs.stopping] at hst
      cases hst
    · exact ⟨p, h.current, h.runs.stopping, hgone v hv⟩
  have hcancel :=
    cancellation_cancelCurrent (s := w) h.current h.runs.stopping c .cancelledSuperseded
  rw [place_of_plays h]
  generalize (w.cancelCurrent c .cancelledSuperseded).2 = t at hcancel
  cases hcancel with
  | @halted line hf hl =>
    have hs : Status.isCancelled .cancelledSuperseded = true := rfl
    obtain ⟨p', hp', hst, hv'⟩ := stops_halted (s := w) (c := c) line h.current h.runs hf hs
    have hretired := retired_told line [.stop] (w.finishCurrent c .cancelledSuperseded)
    have hstream : p'.vibration.effect.isStream = true := by
      rw [hv']
      exact hg hf
    have hlands : Lands c v [] s _ := .waits hp' hst hstream rfl hretired
    exact hletIn hlands (by simp) (.inr ⟨p', hp', hst, hv'⟩)
  | @released line orders hl ho =>
    rw [release_cancelled (s := w) h.current h.runs rfl h.external rfl]
    generalize hu : ({ (w.told line orders).retire _ with
      current := none, next := none } : Scheduler σ) = u
    have hretired : u.retired = [ended] ++ s.retired := by
      rw [← hu]
      exact congrArg (ended :: ·) (retired_told line orders w)
    have hbegun : Begun c { vibration := v } u (u.occupy c { vibration := v }) :=
      begun_occupy (Playback.untouched_of_pending hv) (by rw [← hu])
        (by rw [← hu]; exact h.external)
    have hlands := hbegun.lands hv hcheck (by rw [← hu]) hretired
    exact hletIn hlands (by simp) (.inl (hlands.mem_retired (List.mem_singleton.2 rfl)))

/-- **A request that is let in lands**, between two inputs. -/
theorem letIn_place (h : s.Settled) (he : s.external = none) (hg : ∀ p ∈ s.current, p.Genuine) :
    LetIn c v s (s.place c v) := by
  rcases h.cases with ⟨hp, hn⟩ | ⟨p, hplays⟩ | ⟨p, hp, hst, hw⟩
  · exact letIn_of_free hv hcheck hp hn he
  · exact letIn_of_plays hv hcheck hplays (hg p hplays.current)
  · exact letIn_of_stops hp hst (hg p hp hst.inFlight) hw

end place

/-! ## In every state of every course -/

/-- Who is not allowed to vibrate, or meets a session, is turned away for it; else it is up to the
vibration that holds the motor. -/
theorem refusal?_eq (c : Context σ) (v : Vibration) (s : Scheduler σ) :
    (c.policy.allows v.uid v.package v.attributes = false →
      s.refusal? c v = some .ignoredAppOps) ∧
    (c.policy.allows v.uid v.package v.attributes = true →
      (s.external.isSome = true → s.refusal? c v = some .ignoredForExternal) ∧
      (s.external = none →
        (∀ p ∈ s.current, p.vibration.Bars v →
          s.refusal? c v = some p.vibration.refusalStatus) ∧
        ((∀ p ∈ s.current, ¬p.vibration.Bars v) → s.refusal? c v = none))) := by
  unfold refusal?
  refine ⟨fun ha => by simp [ha], fun ha => ⟨fun he => by simp [ha, he], fun he => ⟨?_, ?_⟩⟩⟩
  · intro p hp hbars
    simp [ha, he, show s.current = some p from hp, Vibration.refusal?_of_bars hbars]
  · intro hno
    cases hp : s.current with
    | none => simp [ha, he]
    | some p => simp [ha, he, Vibration.refusal?_of_not_bars (hno p hp)]

/-- **Every request finds its place**, in every state `s` of every course.

* If the policy does not let its client vibrate, it is turned away for that; else if there is a
  session, waiting or with the motor, for the session; else if the vibration that holds the motor is
  going on, the request ends by itself, and the rank of the holder is positive and not exceeded, for
  the holder. Then nothing changes but the history and, if the request is of the transmission whose
  packets are let in, the note of it, which goes.
* Otherwise it is let in. Whoever waits is gone as superseded, whoever plays ends as superseded,
  and whoever is stopping already is left as it is. The request waits exactly if a stream that is
  stopping holds the motor. Else it runs, or is gone because the actuator has refused its first
  step, or because it is a waveform without any length. -/
theorem request_finds_its_place (c : Context σ) (actuator : σ) (os : List (Occurrence σ))
    (h : ∀ v ∈ asked os, v.IsNew) (id : Nat) (r : VibrationRequest)
    (hr : r.effect.check = .ok ()) (policy : Policy) (now : Nat) :
    let s := after c actuator os
    let v := Vibration.ofRequest id r
    let d := c.during ⟨policy, now, .vibrate v⟩
    let answer := s.vibrate d v
    (policy.allows v.uid v.package v.attributes = false →
      TurnedAway .ignoredAppOps (v.endedAs .ignoredAppOps now) s answer) ∧
    (policy.allows v.uid v.package v.attributes = true →
      (s.external.isSome = true →
        TurnedAway .ignoredForExternal (v.endedAs .ignoredForExternal now) s answer) ∧
      (s.external = none →
        (∀ p ∈ s.current, p.vibration.Bars v →
          let status := p.vibration.refusalStatus
          TurnedAway status (v.endedAs status now) s answer) ∧
        ((∀ p ∈ s.current, ¬p.vibration.Bars v) → LetIn d v s answer.2))) := by
  intro s v d answer
  obtain ⟨hdenied, hallowed⟩ := refusal?_eq d v s
  refine ⟨fun ha => turnedAway_of_pending rfl (hdenied ha), fun ha => ?_⟩
  obtain ⟨hsession, hrank⟩ := hallowed ha
  refine ⟨fun he => turnedAway_of_pending rfl (hsession he), fun he => ?_⟩
  obtain ⟨hbarred, hfree⟩ := hrank he
  refine ⟨fun p hp hbars => turnedAway_of_pending rfl (hbarred p hp hbars), fun hno => ?_⟩
  have hplace : answer.2 = s.place d v := by
    simp only [answer, vibrate, hfree hno]
  rw [hplace]
  exact letIn_place rfl hr (settled_after c actuator h) he (genuine_after c actuator h)

/-- A push is asked for while a stream plays: it is let in, the stream is told to stop, and the push
waits for it. -/
theorem request_finds_its_place_push :
    let os : List (Occurrence Bench) := [.handled humAsked]
    let s := after onBench bench os
    let v := Vibration.ofRequest 2 push
    let d := onBench.during ⟨.permissive, 5, .vibrate v⟩
    let t := (s.vibrate d v).2
    (∀ v ∈ asked os, v.IsNew) ∧ push.effect.check = .ok () ∧
      (Policy.permissive.allows v.uid v.package v.attributes = true ∧ s.external = none ∧
        ∀ p ∈ s.current, ¬p.vibration.Bars v) ∧
      (t.next.map (·.id) = some 2 ∧ t.current.map (·.vibration.status) =
        some .cancelledSuperseded) ∧
      LetIn d v s t := by
  intro os s v d t
  have hnew : ∀ v ∈ asked os, v.IsNew := by
    intro v hv
    rw [List.mem_singleton.1 hv]
    exact ⟨hum, rfl⟩
  have hrank : s.current.all (fun p => p.vibration.holderRank = 0) = true := by decide
  have hno : ∀ p ∈ s.current, ¬p.vibration.Bars v := by
    rintro p hp ⟨-, -, hpositive, -⟩
    have hzero := (Option.all_eq_true _ _).1 hrank p hp
    exact absurd (of_decide_eq_true hzero) (Nat.ne_of_gt hpositive)
  have hallowed : Policy.permissive.allows v.uid v.package v.attributes = true := rfl
  have hsession : s.external = none := by decide
  have hplaced := request_finds_its_place onBench bench os hnew 2 push rfl .permissive 5
  exact ⟨hnew, rfl, ⟨hallowed, hsession, hno⟩, by decide,
    ((hplaced.2 hallowed).2 hsession).2 hno⟩

/-- A client opens a transmission for a purpose. -/
def openingFor (usage : Usage) : VibrationRequest :=
  { uid := 1, package := "player", token := 1, attributes := { usage }
    effect := .stream { words := [packetTag, 2, 7, 2, 65538, 0, 0, 0] } }

/-- **A request that is turned away shuts the stream that plays.** An alarm plays a stream, and its
packets are let in. A touch of the same transmission is asked for and turned away for the alarm,
which plays on; but its packets are dropped from then on. -/
theorem turned_away_shuts_stream :
    let os : List (Occurrence Bench) :=
      [.handled ⟨.permissive, 0, .vibrate (.ofRequest 1 (openingFor .alarm))⟩]
    let s := after onBench bench os
    let r := openingFor .touch
    let v := Vibration.ofRequest 2 r
    let d := onBench.during ⟨.permissive, 5, .vibrate v⟩
    let t := (s.vibrate d v).2
    let packet : Stream := { words := [packetTag, 2, 7, 2, 65538, 1, 0, 0] }
    (∀ v ∈ asked os, v.IsNew) ∧ r.effect.check = .ok () ∧
      Policy.permissive.allows v.uid v.package v.attributes = true ∧ s.external = none ∧
      (∃ p ∈ s.current, p.vibration.Bars v) ∧
      (s.vibrate d v).1 = .ignoredForAlarm ∧ t.admitted ≠ s.admitted ∧
      (s.packet d packet).1 = .forwarded 1 ∧ (t.packet d packet).1 = .dropped := by
  intro os s r v d t packet
  have hnew : ∀ v ∈ asked os, v.IsNew := by
    intro v hv
    rw [List.mem_singleton.1 hv]
    exact ⟨openingFor .alarm, rfl⟩
  have hbars : s.current.any (fun p => p.vibration.hasEnded = false &&
      (0 < p.vibration.holderRank && v.requestRank ≤ p.vibration.holderRank)) = true := by decide
  obtain ⟨p, hp, hbars⟩ := (Option.any_eq_true _ _).1 hbars
  simp only [Bool.and_eq_true, decide_eq_true_eq] at hbars
  obtain ⟨hlive, hpositive, hrank⟩ := hbars
  exact ⟨hnew, by decide, rfl, by decide, ⟨p, hp, hlive, rfl, hpositive, hrank⟩, by decide,
    by decide, by decide, by decide⟩

end Scheduler

end Haptics
