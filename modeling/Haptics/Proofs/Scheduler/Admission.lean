import Haptics.Proofs.Scheduler.Conservation

/-!
# A stream that is live stays admitted

Packets are let in for one transmission at a time. A request names it when it is let in, and from
then on its packets reach it: they are kept while it waits, and sent while it plays. This goes on
whatever else is asked for, as long as no vibration of the same transmission is retired meanwhile
and the connection to the actuator is not lost.

* `Change.steady`, `steady_undergo`: a change, and an occurrence, that leaves the note of the
  transmission alone (`Steady`).
* `Change.without`, `without_place`: who is no longer live does not come back, and nobody is
  live beside a request that has just been let in (`Moment.Without`).
* `streams_after`: a stream that plays is in flight.
* `live_stream_admitted`: the whole, in every state of every course.
-/

namespace Haptics

/-- The effect stays. -/
theorem Vibration.Becomes.effect_eq {v w : Vibration} (h : v.Becomes w) : w.effect = v.effect := by
  cases h <;> rfl

/-- So does the transmission. -/
theorem Vibration.Becomes.sender_eq {v w : Vibration} (h : v.Becomes w) : w.sender = v.sender := by
  cases h <;> rfl

/-- A vibration of a transmission plays a stream. -/
theorem Vibration.IsNew.isStream {v : Vibration} (h : v.IsNew) {x : SenderId}
    (hx : v.sender = some x) : v.effect.isStream = true := by
  obtain ⟨r, hr⟩ := h
  rw [hr] at hx ⊢
  change r.effect.sender? = some x at hx
  change r.effect.isStream = true
  cases he : r.effect with
  | stream s => rfl
  | _ =>
    rw [he] at hx
    cases hx

namespace Playback

/-- A step in flight of a stream is the stream. -/
def Streams (p : Playback) : Prop :=
  p.vibration.effect.isStream = true → p.stage.isSome = true → p.hasStreamInFlight = true

/-- A stream has no other step than itself. -/
theorem stage_of_nextStep {p : Playback} {step : Step} {cursor : Nat}
    (hp : p.vibration.effect.isStream = true) (hn : p.nextStep = some (step, cursor)) :
    step.stage = .stream := by
  cases he : p.vibration.effect with
  | stream s =>
    simp only [nextStep, he, singleStep?, Option.map_some] at hn
    split at hn
    · cases hn
    · cases hn
      rfl
  | _ =>
    rw [he] at hp
    cases hp

/-- Whoever begins has no step in flight yet. -/
theorem Untouched.streams_begin {p : Playback} (h : p.Untouched) : p.begin.Streams := by
  intro _ hs
  rw [h.eq] at hs
  cases hs

end Playback

/-- Only a request for a vibration asks for one. -/
theorem Occurrence.eq_of_asks {σ : Type} {o : Occurrence σ} {v : Vibration} (h : o.asks = some v) :
    ∃ policy now, o = .handled ⟨policy, now, .vibrate v⟩ := by
  unfold asks at h
  split at h
  · cases h
    exact ⟨_, _, rfl⟩
  · cases h

/-- A proper course where a vibration is asked for: it has not been asked for before, and is not
asked for again. -/
theorem Occurrence.Proper.of_ask {σ : Type} {before rest : List (Occurrence σ)} {o : Occurrence σ}
    {v : Vibration} (h : Proper (before ++ o :: rest)) (ho : o.asks = some v) :
    (∀ w ∈ asked before, w.IsNew) ∧ v.IsNew ∧ (∀ w ∈ asked rest, w.IsNew) ∧
      v.id ∉ (asked before).map (·.id) ∧ ∀ w ∈ asked rest, w.id ≠ v.id := by
  obtain ⟨hnew, hfresh⟩ := h
  rw [asked_append, asked_cons, ho, Option.toList_some, List.singleton_append] at hnew hfresh
  rw [List.map_append, List.map_cons, List.nodup_append, List.nodup_cons] at hfresh
  obtain ⟨-, ⟨hlater, -⟩, hdisjoint⟩ := hfresh
  refine ⟨fun w hw => ?_, ?_, fun w hw => ?_, fun hm => ?_, fun w hw hid => ?_⟩
  · exact hnew w (List.mem_append_left _ hw)
  · exact hnew v (List.mem_append_right _ List.mem_cons_self)
  · exact hnew w (List.mem_append_right _ (List.mem_cons_of_mem _ hw))
  · exact hdisjoint _ hm _ List.mem_cons_self rfl
  · rw [← hid] at hlater
    exact hlater (List.mem_map_of_mem hw)

/-- The scheduler hears that the connection is gone. -/
def Occurrence.IsDeath {σ : Type} : Occurrence σ → Prop
  | handled h => h.input = .event .died
  | _ => False

/-- Nothing but the loss of the connection lets every vibration go that has been told to stop. -/
theorem Input.exists_not_frees {input : Input} (h : input ≠ .event .died) (now : Nat) :
    ∃ p : Playback, p.stopping = true ∧ ¬input.frees now p := by
  let v (id : Nat) : Vibration :=
    { id, uid := 0, package := "", token := 0, attributes := {}, effect := .oneShot 0 0,
      sender := none }
  cases input with
  | event e =>
    cases e with
    | complete id =>
      refine ⟨{ vibration := v (id + 1), stopping := true }, rfl, ?_⟩
      rintro ⟨-, hid⟩
      exact absurd hid (Nat.ne_of_lt (Nat.lt_succ_self id))
    | died => exact absurd rfl h
  | deadline =>
    refine ⟨{ vibration := v 0, stopping := true }, rfl, ?_⟩
    rintro ⟨-, d, hd, -⟩
    cases hd
  | _ =>
    refine ⟨{ vibration := v 0, stopping := true }, rfl, ?_⟩
    rintro ⟨-, hno⟩
    exact hno

namespace Scheduler

open Occurrence

variable {σ : Type} {c : Context σ} {leave : Playback → Prop} {s t u : Scheduler σ} {n : Nat}

/-! ## Streams in flight -/

/-- A turn leaves a stream in flight, or puts it there. -/
theorem Turn.streams {p p' : Playback} (h : Turn c p p') (hp : p.Streams) : p'.Streams := by
  cases h with
  | launched reported hr hn =>
    intro he _
    have hp' : p.vibration.effect.isStream = true := he
    exact beq_iff_eq.2 (congrArg some (Playback.stage_of_nextStep hp' hn))
  | ended hs =>
    intro he hst
    have heff := (Vibration.becomes_finish p.vibration hs c.now).effect_eq
    exact hp (heff ▸ he) hst
  | lapsed hr hd hle => exact hp

/-- That a stream which plays is in flight lasts while it holds the motor. -/
theorem lasting_streams (c : Context σ) : Lasting c Playback.Streams :=
  ⟨fun hq => hq.streams_begin, fun ht hp => ht.streams hp, fun _ _ hp => hp⟩

/-- **A stream that plays is in flight**, in every state of every course. -/
theorem streams_after (c : Context σ) (actuator : σ) {os : List (Occurrence σ)}
    (ho : ∀ v ∈ asked os, v.IsNew) : ∀ p ∈ (after c actuator os).current, p.Streams :=
  Lasting.after lasting_streams c actuator ho

/-! ## Vibrations that are not live -/

/-- No vibration of a number asks to be let in or waits, and none holds the motor unless it has been
told to stop. -/
structure Moment.Without (n : Nat) (m : Moment σ) : Prop where
  asking : ∀ v ∈ m.asking, v.id ≠ n
  waiting : ∀ q ∈ m.scheduler.next, q.id ≠ n
  holding : ∀ p ∈ m.scheduler.current, p.id = n → p.stopping = true

/-- **Who is not live does not come back.** -/
theorem Change.without {m m' : Moment σ} (hc : Change c leave m m') (h : m.Without n) :
    m'.Without n := by
  obtain ⟨ha, hw, hh⟩ := h
  cases hc with
  | refused hs => exact ⟨by simp, hw, hh⟩
  | queued hn =>
    refine ⟨by simp, ?_, hh⟩
    rintro _ ⟨⟩
    exact ha _ rfl
  | entered hc he hv =>
    refine ⟨by simp, hw, ?_⟩
    rintro _ ⟨⟩ hid
    -- who begins was asking, or was waiting
    rw [Playback.id_begin] at hid
    exact absurd hid (ha _ rfl)
  | promoted hq hc he hu =>
    refine ⟨ha, by simp [takenBy], ?_⟩
    rintro _ ⟨⟩ hid
    rw [Playback.id_begin] at hid
    exact absurd hid (hw _ hq)
  | @stacked x s q hq packet =>
    refine ⟨ha, ?_, hh⟩
    rintro _ ⟨⟩
    exact hw q hq
  | dropped hq hs => exact ⟨ha, by simp [retire], hh⟩
  | turned hp ht =>
    refine ⟨ha, hw, ?_⟩
    rintro _ ⟨⟩ hid
    rw [ht.stopping_eq]
    exact hh _ hp (ht.id_eq.symm.trans hid)
  | @halted x s p line hp hs hf hc ht =>
    refine ⟨ha, hw, ?_⟩
    rw [current_halted hp c line]
    rintro _ ⟨⟩ _
    rfl
  | left hp hl => exact ⟨ha, hw, by simp [retire]⟩
  | _ => exact ⟨ha, hw, hh⟩

/-- Who holds the motor when it is given up is not live afterwards. -/
theorem without_release (hy : s.Yields leave) (he : s.external = none)
    (hn : ∀ q ∈ s.next, q.id ≠ n) : Moment.Without n ⟨none, s.release c⟩ := by
  obtain ⟨-, hv, hkept⟩ := vacate_spec c hy
  have hfree : Moment.Without n ⟨none, s.vacate c⟩ := by
    refine ⟨by simp, ?_, ?_⟩
    · rw [(hkept he).1]
      exact hn
    · rw [hv.current]
      simp
  have hr : Reaches c (fun _ => False) (s.vacate c) (s.release c) := (settles_handOver hv).reaches
  exact holds_of_changes Change.without (hr none) hfree

/-- Who is cancelled is not live afterwards: it has been told to stop, or has given up the motor. -/
theorem without_cancelCurrent {p : Playback} {status : Status} (hp : s.current = some p)
    (hy : s.Yields fun _ => True) (hn : ∀ q ∈ s.next, q.id ≠ n) (he : s.external = none) :
    Moment.Without n ⟨none, (s.cancelCurrent c status).2⟩ := by
  by_cases hs : p.stopping = true
  · rw [cancelCurrent_of_stopping hp hs]
    refine ⟨by simp, hn, fun p' hp' _ => ?_⟩
    cases hp.symm.trans hp'
    exact hs
  · rw [Bool.not_eq_true] at hs
    have hq : (s.finishCurrent c status).current = some (p.finish status c.now) := by
      rw [finishCurrent_of_some c hp]
    have hc := cancellation_cancelCurrent hp hs c status
    generalize (s.cancelCurrent c status).2 = t at hc
    cases hc with
    | @halted line hf hl =>
      refine ⟨by simp, hn, fun p' hp' _ => ?_⟩
      cases (current_halted hq c line).symm.trans hp'
      rfl
    | released hl ho =>
      have hy' : (s.finishCurrent c status).Yields fun _ => False :=
        (hy.of_not_stopping hp hs).finishCurrent hp hs c status
      exact without_release (hy'.of_places rfl rfl rfl) he hn

/-- **Nobody is live beside a request that has just been let in.** -/
theorem without_place (h : s.Settled) {v : Vibration} (hv : v.status = .pending)
    (he : s.external = none) (hid : v.id ≠ n) : Moment.Without n ⟨none, s.place c v⟩ := by
  cases hc : s.current with
  | none =>
    obtain ⟨t, -, hplaced, ht⟩ := @placed_place σ c (fun _ => False) s h v hv he
    have hasking : Moment.Without n ⟨some v, s.dropNext c .ignoredSuperseded⟩ := by
      refine ⟨?_, by simp, by simp [hc]⟩
      rintro _ ⟨⟩
      exact hid
    exact holds_of_changes Change.without (ht.reaches none) (hplaced.without hasking)
  | some p =>
    have he' : (s.readyFor c v).external = none := (external_readyFor c v s).trans he
    rw [place_of_some hc]
    refine without_cancelCurrent ((current_readyFor c v s).trans hc)
      (yields_queued hv ((external_dropNext c s .ignoredSuperseded).trans he)) ?_ he'
    rintro _ ⟨⟩
    exact hid

/-- **Who is not live does not come back** in an occurrence, unless it is asked for. -/
theorem without_undergo (h : s.Settled) {o : Occurrence σ} (ho : ∀ v ∈ o.asks, v.IsNew)
    (hn : ∀ v ∈ o.asks, v.id ≠ n) (hs : Moment.Without n ⟨none, s⟩) :
    Moment.Without n ⟨none, s.undergo c o⟩ := by
  have hstart : Moment.Without n ⟨o.asks, s.shifted o⟩ := by
    refine ⟨hn, ?_, ?_⟩
    · rw [next_shifted]
      exact hs.waiting
    · rw [current_shifted]
      exact hs.holding
  exact holds_of_changes Change.without (undergo_spec h ho).1 hstart

/-- Nor does it in a course. -/
theorem without_undergoAll (h : s.Settled) {os : List (Occurrence σ)}
    (ho : ∀ v ∈ asked os, v.IsNew) (hn : ∀ v ∈ asked os, v.id ≠ n)
    (hs : Moment.Without n ⟨none, s⟩) : Moment.Without n ⟨none, s.undergoAll c os⟩ := by
  induction os generalizing s with
  | nil => exact hs
  | cons o rest ih =>
    obtain ⟨hv, hrest⟩ := isNew_of_cons ho
    rw [asked_cons] at hn
    refine ih (undergo_spec (c := c) h hv).2 hrest ?_ ?_
    · intro v hm
      exact hn v (List.mem_append_right _ hm)
    · apply without_undergo h hv ?_ hs
      intro v hm
      exact hn v (List.mem_append_left _ (Option.mem_toList.2 hm))

/-! ## The transmission that is let in -/

/-- Between two states the note of the transmission is kept, unless a vibration of it has been
retired. -/
def Steady (s t : Scheduler σ) : Prop :=
  ∃ new, t.retired = new ++ s.retired ∧
    (t.admitted = s.admitted ∨ ∃ w ∈ new, w.sender = s.admitted)

/-- Where nobody is retired and the note stays, it is kept. -/
theorem Steady.of_eq (hr : t.retired = s.retired) (ha : t.admitted = s.admitted) : Steady s t :=
  ⟨[], hr, .inl ha⟩

/-- A note that is kept twice in turn is kept. -/
theorem Steady.trans (h : Steady s t) (h' : Steady t u) : Steady s u := by
  obtain ⟨first, hr, ha⟩ := h
  obtain ⟨second, hr', ha'⟩ := h'
  refine ⟨second ++ first, by rw [hr', hr, List.append_assoc], ?_⟩
  rcases ha with ha | ⟨w, hw, hx⟩
  · rw [ha] at ha'
    rcases ha' with ha' | ⟨w, hw, hx⟩
    · exact .inl ha'
    · exact .inr ⟨w, List.mem_append_left _ hw, hx⟩
  · exact .inr ⟨w, List.mem_append_right _ hw, hx⟩

/-- A vibration takes the note with it only if it is of that transmission. -/
theorem steady_retire (s : Scheduler σ) (w : Vibration) : Steady s (s.retire w) := by
  refine ⟨[w], rfl, ?_⟩
  by_cases hw : w.sender.isSome ∧ w.sender = s.admitted
  · exact .inr ⟨w, List.mem_singleton_self w, hw.2⟩
  · exact .inl (if_neg hw)

/-- **A change keeps the note of the transmission**, if nobody asks to be let in and not everybody
may go. -/
theorem Change.steady {m m' : Moment σ} (hc : Change c leave m m') (ha : m.asking = none)
    (hl : ∃ p : Playback, p.stopping = true ∧ ¬leave p) :
    m'.asking = none ∧ Steady m.scheduler m'.scheduler := by
  cases hc with
  | talked ht hp => exact ⟨ha, .of_eq (retired_told ..) rfl⟩
  | noted admitted callState alwaysOn hkept =>
    rcases hkept with rfl | ⟨-, hall⟩
    · exact ⟨ha, .of_eq rfl rfl⟩
    · obtain ⟨p, hp, hno⟩ := hl
      exact absurd (hall p hp) hno
  | refused hs => cases ha
  | queued hn => cases ha
  | entered hc he hv => cases ha
  | dropped hq hs => exact ⟨ha, (Steady.of_eq rfl rfl).trans (steady_retire _ _)⟩
  | left hp hl' => exact ⟨ha, (Steady.of_eq rfl rfl).trans (steady_retire _ _)⟩
  | @halted x s p line hp hs hf hc ht => exact ⟨ha, .of_eq (retired_told line [.stop] s) rfl⟩
  | _ => exact ⟨ha, .of_eq rfl rfl⟩

/-- Changes keep the note, unless everybody may go who has been told to stop. -/
theorem steady_of_reaches (hr : Reaches c leave s t)
    (hl : ∃ p : Playback, p.stopping = true ∧ ¬leave p) : Steady s t := by
  have h : (none : Option Vibration) = none ∧ Steady s t :=
    holds_of_changes (I := fun m => m.asking = none ∧ Steady s m.scheduler)
      (fun hc ⟨ha, hs⟩ => by
        obtain ⟨ha', hs'⟩ := hc.steady ha hl
        exact ⟨ha', hs.trans hs'⟩)
      (hr none) ⟨rfl, .of_eq rfl rfl⟩
  exact h.2

/-- **An occurrence keeps the note of the transmission**, or lets another request in, or ends
everything; unless it is the loss of the connection. -/
theorem steady_undergo (h : s.Settled) {o : Occurrence σ} (ho : ∀ v ∈ o.asks, v.IsNew)
    (hd : ¬o.IsDeath) (hn : ∀ v ∈ o.asks, v.id ≠ n) :
    Steady s (s.undergo c o) ∨ Moment.Without n ⟨none, s.undergo c o⟩ := by
  cases o with
  | moved actuator => exact .inl (.of_eq rfl rfl)
  | stopped now =>
    obtain ⟨-, hc, hnext, -⟩ := stopAll_spec { c with now } s
    refine .inr ⟨by simp, ?_, ?_⟩
    · rw [undergo, hnext]
      simp
    · rw [undergo, hc]
      simp
  | handled happening =>
    obtain ⟨policy, now, input⟩ := happening
    by_cases hi : ∃ v, input = .vibrate v
    · obtain ⟨v, rfl⟩ := hi
      change Steady s (s.vibrate _ v).2 ∨ Moment.Without n ⟨none, (s.vibrate _ v).2⟩
      cases hr : s.refusal? (c.during ⟨policy, now, .vibrate v⟩) v with
      | some status =>
        rw [vibrate_of_refusal? hr]
        exact .inl (steady_retire s _)
      | none =>
        rw [vibrate_of_welcome hr]
        -- a request that is let in leaves nobody else live
        exact .inr (without_place h (ho v rfl).status (external_of_refusal?_eq_none hr) (hn v rfl))
    · have hother : ∀ v, input ≠ .vibrate v := fun v hv => hi ⟨v, hv⟩
      have hs := settles_step (c := c.during ⟨policy, now, input⟩) h hother
      exact .inl (steady_of_reaches hs.reaches (Input.exists_not_frees hd now))

/-- **A course keeps the note of a transmission** while a vibration that was there at its start is
live. -/
theorem steady_undergoAll (h : s.Settled) {os : List (Occurrence σ)}
    (ho : ∀ v ∈ asked os, v.IsNew) (hd : ∀ o ∈ os, ¬o.IsDeath) (hn : ∀ v ∈ asked os, v.id ≠ n)
    (hlive : ¬Moment.Without n ⟨none, s.undergoAll c os⟩) : Steady s (s.undergoAll c os) := by
  induction os generalizing s with
  | nil => exact .of_eq rfl rfl
  | cons o rest ih =>
    obtain ⟨hv, hrest⟩ := isNew_of_cons ho
    rw [asked_cons] at hn
    have hfirst : ∀ v ∈ o.asks, v.id ≠ n := fun v hm =>
      hn v (List.mem_append_left _ (Option.mem_toList.2 hm))
    have hothers : ∀ v ∈ asked rest, v.id ≠ n := fun v hm => hn v (List.mem_append_right _ hm)
    obtain ⟨hdo, hdrest⟩ := List.forall_mem_cons.1 hd
    have hs := (undergo_spec (c := c) h hv).2
    have hlater : Steady (s.undergo c o) ((s.undergo c o).undergoAll c rest) :=
      ih hs hrest hdrest hothers hlive
    rcases steady_undergo (c := c) h hv hdo hfirst with hsteady | hwithout
    · exact hsteady.trans hlater
    · exact absurd (without_undergoAll hs hrest hothers hwithout) hlive

/-- The vibrations that have been retired since an earlier state, the latest first. -/
def retiredSince (s t : Scheduler σ) : List Vibration :=
  t.retired.take (t.retired.length - s.retired.length)

/-- What has come in front of the earlier ones has been retired since. -/
theorem retiredSince_of_append {new : List Vibration} (h : t.retired = new ++ s.retired) :
    retiredSince s t = new := by
  rw [retiredSince, h, List.length_append, Nat.add_sub_cancel, List.take_left]

/-- Whoever waits is retired when it is dropped. -/
theorem retired_dropNext (s : Scheduler σ) (status : Status) :
    (s.dropNext c status).retired =
      (s.next.toList.map fun q => q.vibration.finish status c.now) ++ s.retired := by
  unfold dropNext
  cases hn : s.next <;> rfl

/-- A request that is live when it has been handled was let in, after the vibration that waited had
gone: from then on the note of its transmission is kept. -/
theorem steady_vibrate (h : s.Settled) {v : Vibration} (hv : v.status = .pending)
    (hs : Moment.Without v.id ⟨none, s⟩)
    (hlive : ¬Moment.Without v.id ⟨none, (s.vibrate c v).2⟩) :
    ∃ t, t.admitted = v.sender.or (s.dropNext c .ignoredSuperseded).admitted ∧
      t.retired = (s.dropNext c .ignoredSuperseded).retired ∧ Steady t (s.vibrate c v).2 := by
  cases hr : s.refusal? c v with
  | some status =>
    rw [vibrate_of_refusal? hr] at hlive
    exact absurd ⟨hs.asking, hs.waiting, hs.holding⟩ hlive
  | none =>
    rw [vibrate_of_welcome hr]
    obtain ⟨t, hplace, -, ht⟩ :=
      @placed_place σ c (fun _ => False) s h v hv (external_of_refusal?_eq_none hr)
    have hsteady : Steady t (s.place c v) :=
      steady_of_reaches ht.reaches ⟨{ vibration := v, stopping := true }, rfl, id⟩
    refine ⟨t, ?_, ?_, hsteady⟩
    · rcases hplace with ⟨-, rfl⟩ | rfl <;> rfl
    · rcases hplace with ⟨-, rfl⟩ | rfl <;> rfl

/-! ## Live streams -/

/-- A vibration plays, and has not been told to stop, or waits. -/
def IsLive (s : Scheduler σ) (p : Playback) : Prop :=
  (s.current = some p ∧ p.vibration.status = .running ∧ p.stopping = false) ∨
    (s.next = some p ∧ p.vibration.status = .pending)

/-- Who is live is there. -/
theorem IsLive.not_without {p : Playback} (h : s.IsLive p) : ¬Moment.Without p.id ⟨none, s⟩ := by
  intro hw
  rcases h with ⟨hp, -, hst⟩ | ⟨hq, -⟩
  · have := hw.holding p hp rfl
    rw [hst] at this
    cases this
  · exact hw.waiting p hq rfl

/-- Who is live is one of the vibrations. -/
theorem IsLive.mem_vibrations {p : Playback} (h : s.IsLive p) : p.vibration ∈ s.vibrations := by
  have hp : p ∈ s.current.toList ++ s.next.toList := by
    rcases h with ⟨hp, -⟩ | ⟨hq, -⟩
    · exact List.mem_append_left _ (Option.mem_toList.2 hp)
    · exact List.mem_append_right _ (Option.mem_toList.2 hq)
  exact List.mem_append_left _ (List.mem_map_of_mem hp)

/-- Before a vibration has been asked for it is nowhere. -/
theorem without_of_fresh {c : Context σ} {actuator : σ} {os : List (Occurrence σ)}
    (ho : ∀ v ∈ asked os, v.IsNew) (hn : n ∉ (asked os).map (·.id)) :
    Moment.Without n ⟨none, after c actuator os⟩ := by
  have hids := (renews_after c actuator ho).perm_ids
  have hne (w : Vibration) (hw : w ∈ (after c actuator os).vibrations) : w.id ≠ n := by
    rintro rfl
    exact hn (hids.mem_iff.2 (List.mem_map_of_mem hw))
  refine ⟨by simp, fun q hq => ?_, fun p hp hid => ?_⟩
  · apply hne q.vibration
    rw [(vibrations_of_next hq).mem_iff]
    exact List.mem_cons_self
  · refine absurd hid (hne p.vibration ?_)
    rw [vibrations_of_current hp]
    exact List.mem_cons_self

/-- Who is live and holds the motor has not been told to stop. -/
theorem Settled.stopping_of_isLive (h : s.Settled) {p : Playback} (hl : s.IsLive p)
    (hp : s.current = some p) : p.stopping = false := by
  rcases hl with ⟨-, -, hst⟩ | ⟨-, hpending⟩
  · exact hst
  · rcases h.holder p hp with hr | hst
    · exact hr.stopping
    · have hc := hst.cancelled
      rw [hpending] at hc
      cases hc

section packets

variable {p : Playback} {x : SenderId} {packet : Stream}

/-- A packet is kept for the vibration of its transmission that waits. -/
theorem packet_of_waiting (hq : s.next = some p) (hx : p.vibration.sender = some x)
    (ha : s.admitted = some x) (hpacket : packet.sender? = some x) :
    s.packet c packet =
      (.forwarded p.id, { s with next := some { p with packets := p.packets ++ [packet] } }) := by
  simp [Scheduler.packet, hpacket, ha, hq, hx]

/-- A packet is given to the actuator for the stream of its transmission that plays. -/
theorem packet_of_playing (h : s.Settled) (hp : s.current = some p) (hst : p.stopping = false)
    (hf : p.hasStreamInFlight = true) (hx : p.vibration.sender = some x)
    (ha : s.admitted = some x) (hpacket : packet.sender? = some x) :
    s.packet c packet = s.sendPacket c packet p := by
  have hn : s.next = none := (h.plays hp hst).next
  simp [Scheduler.packet, passPacket, takesPackets, hpacket, ha, hn, hp, hx, hst, hf]

end packets

/-- **The transmission of a request is let in while the request is live**, unless the connection is
lost or another vibration of the transmission is retired than the one that waited before. -/
theorem admitted_of_live (hs : s.Settled) {policy : Policy} {now : Nat} {v : Vibration}
    (hv : v.IsNew) {x : SenderId} (hx : v.sender = some x)
    (hwithout : Moment.Without v.id ⟨none, s⟩) {rest : List (Occurrence σ)}
    (hrest : ∀ w ∈ asked rest, w.IsNew) (hne : ∀ w ∈ asked rest, w.id ≠ v.id)
    (hdeath : ∀ o ∈ rest, ¬o.IsDeath)
    (ht : t = s.undergoAll c (.handled ⟨policy, now, .vibrate v⟩ :: rest))
    (hlive : ¬Moment.Without v.id ⟨none, t⟩) (hnodup : (t.retired.map (·.id)).Nodup)
    (hothers : ∀ w ∈ retiredSince s t, w.sender = some x → ∃ q ∈ s.next, q.id = w.id) :
    t.admitted = some x := by
  have hu := (undergo_spec (c := c) (o := .handled ⟨policy, now, .vibrate v⟩) hs
    (by rintro _ ⟨⟩; exact hv)).2
  subst ht
  have hsince := steady_undergoAll hu hrest hdeath hne hlive
  obtain ⟨placed, hadmitted, hretired, hsteady⟩ :=
    steady_vibrate (c := c.during ⟨policy, now, .vibrate v⟩) hs hv.status hwithout
      fun hw => hlive (without_undergoAll hu hrest hne hw)
  obtain ⟨new, hgrown, ha⟩ := hsteady.trans hsince
  rw [hadmitted, hx, Option.some_or] at ha
  rcases ha with ha | ⟨w, hw, hwx⟩
  · exact ha
  · exfalso
    -- the vibration that waited has gone before, so it is not among those retired since
    rw [hretired, retired_dropNext, ← List.append_assoc] at hgrown
    change (s.undergoAll c (.handled ⟨policy, now, .vibrate v⟩ :: rest)).retired = _ at hgrown
    rw [retiredSince_of_append hgrown] at hothers
    obtain ⟨q, hq, hid⟩ := hothers w (List.mem_append_left _ hw) hwx
    rw [hgrown, List.map_append, List.map_append] at hnodup
    have hdisjoint := (List.nodup_append.1 (List.nodup_append.1 hnodup).1).2.2
    refine hdisjoint w.id (List.mem_map_of_mem hw) w.id ?_ rfl
    rw [List.map_map]
    refine List.mem_map.2 ⟨q, Option.mem_toList.2 hq, ?_⟩
    exact (Playback.id_finish q _ _).trans hid

/-- **A live stream stays admitted**, in every state `t` of every course. A vibration of a
transmission `x` that plays and has not been told to stop, or that waits, was asked for in the
course, in a state `s`. If since then

* the connection to the actuator has not been found to be gone, and
* no other vibration of `x` has been retired than the one that waited in `s`, if there was one,

then `x` is the transmission whose packets are let in, whatever else has been asked for, turned
away, replaced or cancelled; and its packets are accepted: they are kept for the vibration while it
waits, and given to the actuator while it plays. -/
theorem live_stream_admitted (c : Context σ) (actuator : σ) (os : List (Occurrence σ))
    (h : Proper os) :
    let t := after c actuator os
    ∀ p x, t.IsLive p → p.vibration.sender = some x →
      ∃ before ask rest v, os = before ++ .handled ask :: rest ∧
        ask.input = .vibrate v ∧ v.id = p.id ∧
        let s := after c actuator before
        ((∀ o ∈ rest, ¬o.IsDeath) →
          (∀ w ∈ retiredSince s t, w.sender = some x → ∃ q ∈ s.next, q.id = w.id) →
          t.admitted = some x ∧
            ∀ (c' : Context σ) (packet : Stream), packet.sender? = some x →
              (t.next = some p → t.packet c' packet =
                (.forwarded p.id,
                  { t with next := some { p with packets := p.packets ++ [packet] } })) ∧
              (t.current = some p → t.packet c' packet = t.sendPacket c' packet p)) := by
  intro t p x hlive hx
  have hsettled : t.Settled := settled_after c actuator h.new
  obtain ⟨v, hv, hbecomes⟩ := (renews_after c actuator h.new).exists_became hlive.mem_vibrations
  have hid : v.id = p.id := hbecomes.id_eq
  have hvx : v.sender = some x := hbecomes.sender_eq.symm.trans hx
  obtain ⟨o, ho, hasks⟩ := List.mem_filterMap.1 hv
  obtain ⟨before, rest, rfl⟩ := List.append_of_mem ho
  obtain ⟨policy, now, rfl⟩ := Occurrence.eq_of_asks hasks
  refine ⟨before, ⟨policy, now, .vibrate v⟩, rest, v, rfl, rfl, hid, fun hdeath hothers => ?_⟩
  obtain ⟨hbefore, hnew, hrest, habsent, hne⟩ := h.of_ask hasks
  have hadmitted : t.admitted = some x := by
    refine admitted_of_live (settled_after c actuator hbefore) hnew hvx
      (without_of_fresh hbefore habsent) hrest hne hdeath (after_append ..) ?_ ?_ hothers
    · rw [hid]
      exact hlive.not_without
    · have hnodup := nodup_ids_after c actuator h
      rw [vibrations, List.map_append] at hnodup
      exact (List.nodup_append.1 hnodup).2.1
  refine ⟨hadmitted, fun c' packet hpacket => ⟨fun hq => ?_, fun hp => ?_⟩⟩
  · exact packet_of_waiting hq hx hadmitted hpacket
  · refine packet_of_playing hsettled hp (hsettled.stopping_of_isLive hlive hp) ?_ hx hadmitted
      hpacket
    apply streams_after c actuator h.new p hp
    · rw [hbecomes.effect_eq]
      exact hnew.isStream hvx
    · exact hsettled.engaged p hp

/-! ## Two transmissions on the bench -/

/-- A vibration plays and is of a transmission, as far as one can tell by looking. -/
theorem exists_isLive {x : SenderId}
    (h : s.current.any (fun p => p.vibration.status = .running && p.stopping = false &&
      p.vibration.sender = some x) = true) :
    ∃ p, s.IsLive p ∧ p.vibration.sender = some x := by
  obtain ⟨p, hp, hlive⟩ := (Option.any_eq_true _ _).1 h
  simp only [Bool.and_eq_true, decide_eq_true_eq] at hlive
  obtain ⟨⟨hrunning, hstopping⟩, hx⟩ := hlive
  exact ⟨p, .inl ⟨hp, hrunning, hstopping⟩, hx⟩

/-- A client opens a transmission. -/
def opening (policy : Policy) (now id transmission : Nat) : Occurrence Bench :=
  .handled ⟨policy, now, .vibrate (.ofRequest id {
    uid := 1, package := "player", token := 1
    effect := .stream
      { words := [packetTag, 2, 7, Word.ofNat transmission, 65538, 0, 0, 0] } })⟩

/-- An opening asks for a new vibration. -/
theorem isNew_opening {policy : Policy} {now id transmission : Nat} {v : Vibration}
    (h : v ∈ (opening policy now id transmission).asks) : v.IsNew := by
  cases h
  exact ⟨_, rfl⟩

/-- A client who is denied the motor. -/
def denied : Policy := Settings.policy { denied := [1] }

/-- The second transmission is opened while the stream of the first plays, and waits for it to stop;
the third is turned away. -/
def openings : List (Occurrence Bench) :=
  [opening .permissive 0 1 1, opening .permissive 5 2 2, opening denied 6 3 3]

/-- The openings make a proper course, whatever follows that asks for nothing. -/
theorem proper_openings (o : Occurrence Bench) (ho : o.asks = none) : Proper (openings ++ [o]) where
  new v hv := by
    obtain ⟨o', hm, hasks⟩ := List.mem_filterMap.1 hv
    simp only [openings, List.cons_append, List.nil_append, List.mem_cons, List.not_mem_nil,
      or_false] at hm
    rcases hm with rfl | rfl | rfl | rfl
    · exact isNew_opening hasks
    · exact isNew_opening hasks
    · exact isNew_opening hasks
    · rw [ho] at hasks
      cases hasks
  fresh := by
    rw [asked_concat, ho]
    decide

/-- The actuator reports the end of the first stream. -/
def firstEnded : Occurrence Bench := .handled ⟨.permissive, 9, .event (.complete 1)⟩

/-- The second stream plays when the first has come to its end, and its packets are let in. -/
theorem live_stream_admitted_firstEnded :
    Proper (openings ++ [firstEnded]) ∧
      let t := after onBench bench (openings ++ [firstEnded])
      ∃ p, t.IsLive p ∧ p.vibration.sender = some ⟨7, 2⟩ ∧ t.admitted = some ⟨7, 2⟩ := by
  refine ⟨proper_openings _ rfl, ?_⟩
  intro t
  obtain ⟨p, hp, hx⟩ : ∃ p, t.IsLive p ∧ p.vibration.sender = some ⟨7, 2⟩ :=
    exists_isLive (by decide)
  refine ⟨p, hp, hx, ?_⟩
  obtain ⟨before, ask, rest, v, hos, -, -, h⟩ := live_stream_admitted onBench bench
    (openings ++ [firstEnded]) (proper_openings _ rfl) p ⟨7, 2⟩ hp hx
  refine (h (fun o ho hdeath => ?_) fun w hw hwx => ?_).1
  · have hall : ∀ o ∈ openings ++ [firstEnded], ¬o.IsDeath := by
      simp [openings, opening, firstEnded, IsDeath]
    rw [hos] at hall
    exact hall o (List.mem_append_right _ (List.mem_cons_of_mem _ ho)) hdeath
  · have hall : ∀ w ∈ t.retired, w.sender ≠ some ⟨7, 2⟩ := by decide
    exact absurd hwx (hall w (List.mem_of_mem_take hw))

/-- The connection is found to be gone. -/
def died : Occurrence Bench := .handled ⟨.permissive, 9, .event .died⟩

/-- The transmission of the stream that plays is opened again, and this is turned away. -/
def reopenings : List (Occurrence Bench) :=
  [opening .permissive 0 1 2, opening denied 5 2 2]

/-- So do the openings of which one comes back. -/
theorem proper_reopenings : Proper reopenings where
  new v hv := by
    obtain ⟨o, hm, hasks⟩ := List.mem_filterMap.1 hv
    simp only [reopenings, List.mem_cons, List.not_mem_nil, or_false] at hm
    rcases hm with rfl | rfl
    · exact isNew_opening hasks
    · exact isNew_opening hasks
  fresh := by decide

/-- A stream of a transmission is live at the end of a course, but the transmission is let in no
longer: a packet of it is dropped. -/
def Forgets (os : List (Occurrence Bench)) : Prop :=
  let t := after onBench bench os
  let packet : Stream := { words := [packetTag, 2, 7, 2, 65538, 1, 0, 0] }
  ∃ x, packet.sender? = some x ∧ (∃ p, t.IsLive p ∧ p.vibration.sender = some x) ∧
    t.admitted ≠ some x ∧ (t.packet onBench packet).1 = .dropped

/-- When the connection is lost instead, the second stream plays as well, but its packets are let in
no longer; nor are those of a stream whose transmission is asked for again in vain. -/
theorem live_stream_forgotten :
    (Proper (openings ++ [died]) ∧ Forgets (openings ++ [died])) ∧
      Proper reopenings ∧ Forgets reopenings := by
  refine ⟨⟨proper_openings _ rfl, ?_⟩, proper_reopenings, ?_⟩
  · exact ⟨⟨7, 2⟩, by decide, exists_isLive (by decide), by decide, by decide⟩
  · exact ⟨⟨7, 2⟩, by decide, exists_isLive (by decide), by decide, by decide⟩

end Scheduler

end Haptics
