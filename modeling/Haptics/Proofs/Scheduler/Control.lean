import Haptics.Proofs.Scheduler.Hands
import Haptics.Proofs.Scheduler.Natural

/-!
# External control and its session

A session that ends has the motor taken back as far as there is a connection. While a session has
the motor the connection may break; when it then ends there is nobody to tell, and the motor stays
in the hands of the external source. The next one to connect finds it there, and a vibration plays
on it.

So the motor is in those hands as long as a session has it, and also after one that ended without a
connection, until another session takes the motor (`LeftBehind`).

* `seizes_or_ends_undergo`: what an occurrence does about it.
* `control_follows_session`: in every state of every course on the bench.
* `control_left_behind`: a vibration plays on a motor that no session has and that is still in the
  hands of an external source.
-/

namespace Haptics.Scheduler

open Occurrence

variable {c : Context Bench} {s t u : Scheduler Bench}

/-! ## What an occurrence does -/

/-- A session that has the motor ends. The motor is taken back if there is a connection. -/
structure Ends (s t : Scheduler Bench) : Prop where
  before : s.inSession = true
  after : t.inSession = false
  hands : t.handedOver = (s.handedOver && !s.line.connected)

/-- What can be relied upon: calls get through, and only a motor that can be put in other hands is,
and it is when a session has it. -/
structure Governed (s : Scheduler Bench) : Prop where
  sound : s.line.actuator.Sound
  able : s.handedOver = true → s.line.actuator.motor.config.info.can .externalControl = true
  given : s.inSession = true → s.handedOver = true

/-- **The end of a session** that has the motor has it taken back, if there is a connection. -/
theorem seizes_or_ends_endExternal (hd : c.device = Bench.device) (hg : s.Governed)
    (status : Status) : Seizes s (s.endExternal c status) ∨ Ends s (s.endExternal c status) := by
  unfold endExternal
  split
  · exact .inl (.kept rfl rfl)
  · next e he =>
    split
    · next ha =>
      have hs : s.inSession = true := by rw [inSession, he]; exact ha
      refine .inr ⟨hs, rfl, ?_⟩
      cases hc : s.line.connected with
      | false => simp [issueIfConnected, hc, dismiss, handedOver]
      | true =>
        have hm : s.line.actuator.motor.missing? (.externalControl false) = none :=
          if_pos (hg.able (hg.given hs))
        have hp := hg.sound.perform_eq hm (fun h => by cases h) c.now
        have hi := issue_of_ok (c := c) (s := s) (by rw [hd]; exact hp)
        have hhands :
            (s.line.actuator.obeyed c.now (.externalControl false)).motor.externalControl = false :=
          Motor.externalControl_obey ..
        simp [issueIfConnected, hc, hi, dismiss, handedOver, hhands]
    · next ha => exact .inl (.kept rfl (by simp [inSession, he, ha, dismiss]))

/-- The end of a session that waits changes nothing about it. -/
theorem seizes_endExternal (c : Context Bench) (hs : s.inSession = false) (status : Status) :
    Seizes s (s.endExternal c status) := by
  unfold endExternal
  split
  · exact .kept rfl rfl
  · next e he =>
    have ha : e.active = false := by
      rw [inSession, he] at hs
      exact hs
    rw [if_neg (by simp [ha])]
    exact .kept rfl hs.symm

/-- To put a session in place does not hand the motor over. -/
theorem handedOver_install (c : Context Bench) (e : ExternalSession) (s : Scheduler Bench) :
    (s.install c e).handedOver = s.handedOver := by
  unfold install
  split <;> rfl

/-- A session that takes the place of another one has the motor if that one had it. If not, it takes
the motor, or waits for it, or is gone. -/
theorem seizes_grant (hd : c.device = Bench.device) (request : ExternalRequest)
    (scale : ExternalScale) (s : Scheduler Bench) : Seizes s (s.grant c request scale).2 := by
  have hh := handedOver_install c { request, scale } s
  unfold grant
  simp only
  split
  · next ha => exact .kept hh ha.symm
  · next ha =>
    have hs : (s.install c { request, scale }).inSession = s.inSession := by
      rw [inSession, external_install, inSession, ha]
      rfl
    exact Seizes.trans (.kept hh hs) ((moves_makeWay c _).passes hd).seizes

/-- A source that asks for the motor can only take it. -/
theorem seizes_startExternal (hd : c.device = Bench.device) (request : ExternalRequest)
    (s : Scheduler Bench) : Seizes s (s.startExternal c request).2 := by
  have hk : Seizes s (s.info? c).2 := ((errands_info? c false s).asides.moves.passes hd).seizes
  unfold startExternal openExternal
  split
  · exact .kept rfl rfl
  · split
    · next hi => rwa [hi] at hk
    · next u hi =>
      rw [hi] at hk
      split
      · exact hk
      · split
        · exact hk
        · exact hk.trans (seizes_grant hd request _ u)

/-- A session that has waited long enough ends only if it still waits. -/
theorem seizes_externalTimedOut (c : Context Bench) (id : Nat) (s : Scheduler Bench) :
    Seizes s (s.externalTimedOut c id).2 := by
  unfold externalTimedOut
  split
  · exact .kept rfl rfl
  · next e he =>
    split
    · exact .kept rfl rfl
    · next ha =>
      refine seizes_endExternal c ?_ _
      rw [inSession, (Option.filter_eq_some_iff.1 he).1]
      simpa using ha

/-- When a source gives the motor back its session ends. -/
theorem seizes_or_ends_stopExternal (hd : c.device = Bench.device) (hg : s.Governed) (id : Nat) :
    Seizes s (s.stopExternal c id).2 ∨ Ends s (s.stopExternal c id).2 := by
  unfold stopExternal
  split
  · exact seizes_or_ends_endExternal hd hg .finished
  · exact .inl (.kept rfl rfl)

/-- Where a session has the motor or waits for it, no vibration is left to be cancelled. -/
theorem cancelWhere_of_external (h : s.Settled) {e : ExternalSession} (he : s.external = some e)
    (status : Status) (condition : Vibration → Bool) :
    (s.cancelWhere c status condition).2 = s := by
  obtain ⟨hn, hc⟩ := h.session e he
  have hnext : s.nextMatches condition = false := by simp [nextMatches, hn]
  have hcurrent : s.currentMatches condition = false := by
    split at hc
    · simp [currentMatches, hc]
    · obtain ⟨p, hp, hst⟩ := hc
      simp [currentMatches, Option.mem_def.1 hp, hst.stopping]
  rw [snd_cancelWhere c status condition s s (by simp [hnext]), hcurrent]
  rfl

/-- When a client cancels its session may end. -/
theorem seizes_or_ends_cancel (hd : c.device = Bench.device) (h : s.Settled) (hg : s.Governed)
    (filter : UsageFilter) (token : Nat) :
    Seizes s (s.cancel c filter token).2 ∨ Ends s (s.cancel c filter token).2 := by
  have hw : Conduct c false s (s.cancelWhere c .cancelledByUser fun v =>
      v.token = token && filter.accepts v.usage).2 := conduct_cancelWhere c false rfl _ s
  have hp := hw.moves.passes hd
  unfold cancel
  simp only
  cases he : s.external with
  | some e =>
    rw [cancelWhere_of_external h he]
    split
    · exact seizes_or_ends_endExternal hd hg .cancelledByUser
    · exact .inl (.kept rfl rfl)
  | none =>
    generalize (s.cancelWhere c .cancelledByUser
      fun v => v.token = token && filter.accepts v.usage).2 = t at hp
    rw [if_neg (by simp [externalMatches, hp.none he])]
    exact .inl hp.seizes

/-- What is done before the session ends when everything is stopped. -/
def clear (c : Context Bench) (s : Scheduler Bench) : Scheduler Bench :=
  (((s.dropNext c .cancelledByUser).silence c).finishCurrent c .cancelledByUser).dropCurrent c

/-- To clear the places does not concern sessions. -/
theorem clear_spec (hd : c.device = Bench.device) (s : Scheduler Bench) :
    (s.clear c).handedOver = s.handedOver ∧ (s.clear c).external = s.external := by
  have hdropped (u : Scheduler Bench) :
      (u.dropNext c .cancelledByUser).handedOver = u.handedOver := by
    unfold dropNext
    split <;> rfl
  have hgone (u : Scheduler Bench) : (u.dropCurrent c).handedOver = u.handedOver := by
    unfold dropCurrent
    split <;> rfl
  have hsilent (u : Scheduler Bench) : (u.silence c).handedOver = u.handedOver ∧
      (u.silence c).external = u.external := by
    unfold silence
    split
    · exact ⟨rfl, rfl⟩
    · next p hp =>
      -- to stop a vibration takes the motor out of nobody's hands
      have ho : (stopOrder p).control? = none := by
        unfold stopOrder
        split <;> rfl
      have hi := dispatch_issueIfConnected c (stopOrder p) u
      generalize u.issueIfConnected c (stopOrder p) = answer at hi
      cases hi with
      | taken ht reported =>
        refine ⟨(ht.externalControl_eq hd).trans ?_, rfl⟩
        simp [ho, handedOver]
      | refused ht e => exact ⟨ht.externalControl_eq hd, rfl⟩
  obtain ⟨hh, he⟩ := hsilent (s.dropNext c .cancelledByUser)
  constructor
  · exact (hgone _).trans (hh.trans (hdropped s))
  · exact (external_dropCurrent c _).trans (he.trans (external_dropNext c s _))

/-- Where a session has the motor there is nothing to be done before. -/
theorem clear_of_inSession (h : s.Settled) (hs : s.inSession = true) : s.clear c = s := by
  obtain ⟨e, he, ha⟩ := (Option.any_eq_true _ _).1 hs
  obtain ⟨hn, hc⟩ := h.session e he
  rw [if_pos ha] at hc
  simp [clear, dropNext, hn, silence, hc, finishCurrent_of_none c hc, dropCurrent]

/-- When everything stops the session ends. -/
theorem seizes_or_ends_stopAll (hd : c.device = Bench.device) (h : s.Settled) (hg : s.Governed) :
    Seizes s (s.stopAll c) ∨ Ends s (s.stopAll c) := by
  change Seizes s ((s.clear c).endExternal c .cancelledByUser) ∨
    Ends s ((s.clear c).endExternal c .cancelledByUser)
  cases hs : s.inSession with
  | true =>
    rw [clear_of_inSession h hs]
    exact seizes_or_ends_endExternal hd hg .cancelledByUser
  | false =>
    obtain ⟨hh, he⟩ := clear_spec hd s
    have hs' : (s.clear c).inSession = s.inSession := by rw [inSession, he, inSession]
    exact .inl (Seizes.trans (.kept hh hs') (seizes_endExternal c (hs'.trans hs) _))

/-- **What an occurrence does** about the hands in which the motor is: nothing, or a session takes
the motor, or one that has it ends. -/
theorem seizes_or_ends_undergo (hd : c.device = Bench.device) (h : s.Settled) (hg : s.Governed)
    {o : Occurrence Bench} (hm : ∀ moved, o = .moved moved → s.line.actuator.Drifts moved) :
    Seizes s (s.undergo c o) ∨ Ends s (s.undergo c o) := by
  cases o with
  | moved moved => exact .inl (.kept (hm moved rfl).externalControl rfl)
  | stopped now => exact seizes_or_ends_stopAll (c := { c with now }) hd h hg
  | handled happening =>
    obtain ⟨policy, now, input⟩ := happening
    generalize hc : c.during ⟨policy, now, input⟩ = d
    have hd' : d.device = Bench.device := by rw [← hc]; exact hd
    rw [undergo, hc]
    cases input with
    | cancel filter token => exact seizes_or_ends_cancel hd' h hg filter token
    | startExternal request => exact .inl (seizes_startExternal hd' request s)
    | externalTimedOut id => exact .inl (seizes_externalTimedOut d id s)
    | stopExternal id => exact seizes_or_ends_stopExternal hd' hg id
    | _ => exact .inl ((moves_step rfl d s).passes hd').seizes

/-! ## What can be relied upon -/

/-- What of it is known of the line. -/
structure Able (l : Line Bench) : Prop where
  sound : l.actuator.Sound
  able : l.actuator.motor.externalControl = true →
    l.actuator.motor.config.info.can .externalControl = true

/-- A talk leaves the actuator able to change hands. -/
theorem Able.talk (hd : c.device = Bench.device) {l m : Line Bench} {orders : List Order}
    (h : Able l) (ht : Talk c l orders m) : Able m := by
  refine ht.holds_of_words (motive := fun _ m => Able m) hd h
    (fun ih => ⟨⟨ih.sound.faults, ih.sound.failing⟩, ih.able⟩) (fun ih => ⟨ih.sound, ih.able⟩)
    (@fun _ m o ih hr => ⟨ih.sound.obeyed _ _, ?_⟩) (fun o ih => ⟨ih.sound.called o, ih.able⟩)
  change (m.actuator.motor.obey c.now o).externalControl = true →
    (m.actuator.motor.obey c.now o).config.info.can .externalControl = true
  rw [(Motor.alike_obey ..).config, Motor.externalControl_obey]
  intro hc
  cases o with
  | externalControl enabled =>
    have hmissing := Motor.missing?_of_refusal? hr
    simpa [Motor.missing?, Motor.need?] using hmissing
  | _ => exact ih.able hc

/-- The actuator is able to change hands in every state of every natural course. -/
theorem able_after (c : Context Bench) (hd : c.device = Bench.device) {actuator : Bench}
    (hs : actuator.Sound) (hf : actuator.motor.externalControl = false)
    {os : List (Occurrence Bench)} (ho : ∀ v ∈ asked os, v.IsNew)
    (hn : Natural Bench.Drifts c (create c.config actuator) os) :
    Able (after c actuator os).line := by
  refine natural_preserves (J := Able) (fun hb h => ?_) (fun hd' ht h => h.talk (hd'.trans hd) ht)
    (settled_create c.config actuator) ho hn ⟨hs, fun h => ?_⟩
  · refine ⟨⟨hb.faults.trans h.sound.faults, hb.failing.trans h.sound.failing⟩, ?_⟩
    rw [hb.config, hb.externalControl]
    exact h.able
  · cases hf.symm.trans h

/-! ## In every state of every course on the bench -/

/-- Whether a session that had the motor has ended without a connection, and none has had it
since. -/
def LeftBehind (c : Context Bench) (actuator : Bench) (os : List (Occurrence Bench)) : Prop :=
  ∃ before o rest, os = before ++ o :: rest ∧
    (after c actuator before).inSession = true ∧
    (after c actuator before).line.connected = false ∧
    ∀ first, first <+: rest → (after c actuator (before ++ o :: first)).inSession = false

section leftBehind

variable {actuator : Bench} {os : List (Occurrence Bench)} {o : Occurrence Bench}

/-- Then no session has the motor. -/
theorem LeftBehind.inSession (h : LeftBehind c actuator os) :
    (after c actuator os).inSession = false := by
  obtain ⟨before, o, rest, rfl, -, -, hnone⟩ := h
  exact hnone rest List.prefix_rfl

/-- The motor stays left behind until a session has it again. -/
theorem LeftBehind.concat (h : LeftBehind c actuator os)
    (hs : (after c actuator (os ++ [o])).inSession = false) :
    LeftBehind c actuator (os ++ [o]) := by
  obtain ⟨before, o', rest, rfl, hb, hc, hnone⟩ := h
  refine ⟨before, o', rest ++ [o], by simp, hb, hc, fun first hfirst => ?_⟩
  rcases List.prefix_concat_iff.1 hfirst with rfl | hfirst
  · simpa using hs
  · exact hnone first hfirst

/-- The motor was left behind before, or has just been left. -/
theorem LeftBehind.of_concat (h : LeftBehind c actuator (os ++ [o])) :
    LeftBehind c actuator os ∨ (after c actuator os).inSession = true ∧
      (after c actuator os).line.connected = false := by
  obtain ⟨before, o', rest, he, hb, hc, hnone⟩ := h
  rcases List.eq_nil_or_concat rest with rfl | ⟨rest, last, rfl⟩
  · obtain ⟨rfl, -⟩ := List.append_inj' he rfl
    exact .inr ⟨hb, hc⟩
  · have he' : os ++ [o] = (before ++ o' :: rest) ++ [last] := by simp [he]
    obtain ⟨rfl, -⟩ := List.append_inj' he' rfl
    refine .inl ⟨before, o', rest, rfl, hb, hc, fun first hfirst => hnone first ?_⟩
    rw [List.concat_eq_append]
    exact hfirst.trans (List.prefix_append ..)

end leftBehind

/-- Nothing is left behind before anything has happened. -/
theorem not_leftBehind_nil (c : Context Bench) (actuator : Bench) :
    ¬ LeftBehind c actuator [] := by
  rintro ⟨before, o, rest, he, -⟩
  simp at he

/-- **Who has the motor**, in every state of every natural course: it is handed over exactly while a
session has it, or where one has left it behind. -/
theorem handedOver_iff (c : Context Bench) (hd : c.device = Bench.device) (actuator : Bench)
    (hs : actuator.Sound) (hf : actuator.motor.externalControl = false)
    (os : List (Occurrence Bench)) (ho : ∀ v ∈ asked os, v.IsNew)
    (hn : Natural Bench.Drifts c (create c.config actuator) os) :
    (after c actuator os).handedOver = true ↔
      (after c actuator os).inSession = true ∨ LeftBehind c actuator os := by
  induction os using List.reverseRecOn with
  | nil =>
    rw [show (after c actuator []).handedOver = false from hf]
    simp [not_leftBehind_nil, inSession, create]
  | append_singleton os o ih =>
    obtain ⟨hos, -⟩ := isNew_of_concat ho
    obtain ⟨hn₁, hn₂⟩ := hn.of_append
    have ih := ih hos hn₁
    have hable := able_after c hd hs hf hos hn₁
    have hg : (after c actuator os).Governed := ⟨hable.sound, hable.able, fun h => ih.2 (.inl h)⟩
    have hstep := seizes_or_ends_undergo hd (settled_after c actuator hos) hg (o := o)
      fun moved he => hn₂ [] moved [] (by rw [he]; rfl)
    rw [← after_concat] at hstep
    rcases hstep with (⟨hh, hs⟩ | ⟨hh, hs⟩) | ⟨hb, ha, hh⟩
    · -- nothing has changed, and what was left behind is left behind
      rw [hh, ih]
      constructor
      · rintro (h | h)
        · exact .inl (hs.trans h)
        · exact .inr (h.concat (hs.trans h.inSession))
      · rintro (h | h)
        · exact .inl (hs.symm.trans h)
        · rcases h.of_concat with h' | ⟨h', -⟩
          · exact .inr h'
          · exact .inl h'
    · simp [hh, hs]
    · -- a session has ended, so the motor is left behind just if there was no connection
      have hgiven : (after c actuator os).handedOver = true := hg.given hb
      rw [hh, hgiven, ha]
      constructor
      · intro hc
        have hc : (after c actuator os).line.connected = false := by simpa using hc
        refine .inr ⟨os, o, [], rfl, hb, hc, fun first hfirst => ?_⟩
        rw [List.prefix_nil.1 hfirst]
        exact ha
      · rintro (h | h)
        · cases h
        · rcases h.of_concat with h' | ⟨-, hc⟩
          · cases hb.symm.trans h'.inSession
          · simp [hc]

/-- **External control follows the session, but for a motor that has been left behind**, in every
state of every course on the bench in which calls get through, wherever the connection breaks.

* The motor is in the hands of an external source just as long as a session has it, or after one
  that had it has ended without a connection, until another one has it.
* A vibration holds a motor in those hands only in the second case. -/
theorem control_follows_session (c : Context Bench) (hd : c.device = Bench.device)
    (actuator : Bench) (hs : actuator.Sound) (hf : actuator.motor.externalControl = false)
    (os : List (Occurrence Bench)) (ho : ∀ v ∈ asked os, v.IsNew)
    (hn : Natural Bench.Drifts c (create c.config actuator) os) :
    let s := after c actuator os
    (s.handedOver = true ↔ s.inSession = true ∨ LeftBehind c actuator os) ∧
    ∀ p ∈ s.current, (s.handedOver = true ↔ LeftBehind c actuator os) := by
  intro s
  have hiff := handedOver_iff c hd actuator hs hf os ho hn
  refine ⟨hiff, fun p hp => ?_⟩
  have hsettled : s.Settled := settled_after c actuator ho
  -- a session that has the motor has it alone
  have hnone : s.inSession = false := by
    refine Bool.eq_false_iff.2 fun h => ?_
    obtain ⟨e, he, ha⟩ := (Option.any_eq_true _ _).1 h
    have hc := (hsettled.session e he).2
    rw [if_pos ha] at hc
    cases hc.symm.trans hp
  rw [hiff, show (after c actuator os).inSession = false from hnone]
  simp

/-- The bench is sound. -/
theorem sound_bench : bench.Sound := ⟨rfl, rfl⟩

/-- The sound system asks for the motor. -/
def soundAsked : Occurrence Bench :=
  .handled ⟨.permissive, 0, .startExternal { id := 7, uid := 2, package := "sound", token := 3 }⟩

/-- The sound system has the motor when the connection breaks. -/
def soundCut : List (Occurrence Bench) := [soundAsked, breaks (after onBench bench [soundAsked])]

/-- The cut is natural. -/
theorem natural_soundCut : Natural Bench.Drifts onBench (create onBench.config bench) soundCut := by
  have hasked : Natural Bench.Drifts onBench (create onBench.config bench) ([] ++ [soundAsked]) :=
    (Natural.nil _ _ _).handled _
  exact hasked.concat (drifts_breaks _)

/-- The session has the motor although the connection is broken, and the motor is in its hands. -/
theorem control_follows_session_cut :
    bench.Sound ∧ bench.motor.externalControl = false ∧ (∀ v ∈ asked soundCut, v.IsNew) ∧
    Natural Bench.Drifts onBench (create onBench.config bench) soundCut ∧
    let s := after onBench bench soundCut
    s.inSession = true ∧ s.line.actuator.motor.attached = false ∧
      (s.handedOver = true ↔ s.inSession = true ∨ LeftBehind onBench bench soundCut) ∧
      ∀ p ∈ s.current, (s.handedOver = true ↔ LeftBehind onBench bench soundCut) := by
  have hnew : ∀ v ∈ asked soundCut, v.IsNew := by simp [soundCut, soundAsked, breaks, asked, asks]
  exact ⟨sound_bench, rfl, hnew, natural_soundCut, by decide, by decide,
    control_follows_session onBench rfl bench sound_bench rfl soundCut hnew natural_soundCut⟩

/-- The break is heard of, the session ends, and a push is asked for. -/
def soundStopped : List (Occurrence Bench) :=
  soundCut ++ [hears (after onBench bench soundCut),
    .handled ⟨.permissive, 1, .event .died⟩, .handled ⟨.permissive, 2, .stopExternal 7⟩,
    .handled ⟨.permissive, 3, .vibrate (.ofRequest 1 push)⟩]

/-- **A motor is left behind**: the break has been heard of, no session is there any more, and yet
the motor is in the hands of an external source, from which it was not taken back before it was
switched on for the push. -/
theorem control_left_behind :
    (∀ v ∈ asked soundStopped, v.IsNew) ∧
    Natural Bench.Drifts onBench (create onBench.config bench) soundStopped ∧
    let s := after onBench bench soundStopped
    s.line.actuator.motor.events = [] ∧ s.external = none ∧ s.handedOver = true ∧
      s.line.actuator.motor.commands =
        [.externalControl true, .setAmplitude 128, .on 20 1] := by
  refine ⟨?_, ?_, by decide, by decide, by decide, by decide⟩
  · intro v hv
    have hv : .ofRequest 1 push = v := by
      simpa [soundStopped, soundCut, soundAsked, breaks, hears, asked, asks] using hv
    exact ⟨push, by rw [← hv]; rfl⟩
  · have hheard := natural_soundCut.concat (drifts_hears (after onBench bench soundCut))
    have hpush := ((hheard.handled ⟨.permissive, 1, .event .died⟩).handled
      ⟨.permissive, 2, .stopExternal 7⟩).handled ⟨.permissive, 3, .vibrate (.ofRequest 1 push)⟩
    simpa [soundStopped] using hpush

end Haptics.Scheduler
