import Haptics.Proofs.Player.Order
import Haptics.Proofs.Actuator.Log

/-!
# A document is played, or nothing happens

A player looks at its document, asks whether the actuator plays it, reads it and compiles it before
it requests a vibration. As long as the service answers, nothing can fail from then on: a document
that can be read is compiled to streams, the first of which is let in as a request and the others
pass as packets. So a player that fails has done no more than ask what the actuator plays
(`Service.Unmoved`).

* `HapticDocument.opens_of_read`: the first stream of a document opens what it is sent as.
* `Player.submitAll_of_running`, `Player.send_of_running`: what is sent to a service that answers.
* `Service.Comes`: the course that a service has come by; whatever has been placed on it is
  somewhere from then on (`Player.exists_vibration_of_send`).
* `Player.played_or_unmoved`: the whole.
-/

namespace Haptics

variable {σ α : Type}

/-! ## The first stream of a document -/

/-- The stream can be requested as a vibration. -/
def Stream.Opens (st : Stream) : Prop := st.words ≠ [] ∧ st.isContinuation = false

/-- The first packet of a set starts with its first pattern. -/
theorem Transmission.opens_of_paginate {set : PatternSet} {sender : SenderId}
    {options : PlayOptions} {tailMs : Nat} (h : set.patterns ≠ []) :
    ∃ first rest, paginate set sender options tailMs = first :: rest ∧ first.Opens := by
  obtain ⟨pattern, rest, hp⟩ := List.exists_cons_of_ne_nil h
  unfold paginate
  rw [pages_of_ne_nil (by decide) h, List.mapIdx_cons]
  refine ⟨_, _, rfl, ?_⟩
  rw [hp]
  exact ⟨List.cons_ne_nil _ _, rfl⟩

/-- **The first stream of a document opens what it is sent as**, if the document can be read. -/
theorem HapticDocument.opens_of_read {text : String} {document : HapticDocument}
    (h : HapticDocument.read text = .ok document) (options : PlayOptions) (sender : SenderId)
    (tailMs : Nat) :
    ∃ first rest, document.compile options sender tailMs = first :: rest ∧ first.Opens := by
  cases document with
  | v1 pattern => exact ⟨_, [], rfl, List.cons_ne_nil _ _, rfl⟩
  | v2 set =>
    obtain ⟨raw, -, hvalid⟩ := bind_eq_ok_iff.1 h
    have hs := RawDocument.sendable_of_validate hvalid
    exact Transmission.opens_of_paginate (List.length_pos_iff.1 hs.count.1)

/-! ## Services that answer -/

namespace Service

open Occurrence Scheduler

variable {c : Context σ} {actuator : σ} {s t : Service σ α} {os : List (Occurrence σ)}
  {P : Stream → Prop}

/-- A service that answers makes the call. -/
theorem call_of_running {β : Type} (h : s.running = true) (f : Scheduler σ → β × Scheduler σ) :
    s.call f = (.ok (f s.scheduler).1, s.update (f s.scheduler).2) := by
  unfold call
  rw [if_pos h]

/-- A call leaves a service answering. -/
@[simp] theorem running_call {β : Type} (f : Scheduler σ → β × Scheduler σ) (s : Service σ α) :
    (s.call f).2.running = s.running := by
  unfold call
  split <;> rfl

/-- A request whose stream opens a transmission passes. -/
theorem checkRequest_of_opens {r : VibrationRequest} {first : Stream}
    (hr : r.effect = .stream first) (h : first.Opens) : checkRequest r = .ok () := by
  have hcheck : r.effect.check = .ok () := by
    rw [hr]
    exact (Effect.check_stream_eq_ok_iff first).2 h.1
  unfold checkRequest
  rw [hcheck, hr]
  simp [h.2]

/-- A service that answers places a request that passes. -/
theorem vibrate_of_running (h : s.running = true) {r : VibrationRequest}
    (hr : checkRequest r = .ok ()) (c : Context σ) :
    ∃ status t, s.vibrate c r = (.ok ⟨s.nextVibration, status⟩, t) ∧ t.running = true ∧
      t.scheduler = (s.scheduler.vibrate c (.ofRequest s.nextVibration r)).2 ∧
      t.nextVibration = s.nextVibration + 1 := by
  unfold vibrate
  rw [hr]
  have hnext : ({ s with nextVibration := s.nextVibration + 1 } : Service σ α).running = true := h
  simp only
  rw [call_of_running hnext]
  exact ⟨_, _, rfl, h, rfl, rfl⟩

/-- Only the end makes a service stop answering. -/
theorem running_undergo (c : Context σ) (s : Service σ α) {a : Affair σ α} (ha : a ≠ .shutdown) :
    (s.undergo c a).running = s.running := by
  cases hi : a.input? with
  | some input =>
    obtain ⟨β, f, hf, -⟩ := exists_call_of_input? hi c s
    rw [hf, running_call]
  | none =>
    cases a with
    | shutdown => exact absurd rfl ha
    | heard =>
      change ((s.handleEvent? c).getD s).running = s.running
      unfold handleEvent?
      split
      · cases s.scheduler.hear c <;> rfl
      · rfl
    | deadline =>
      change (s.handleDeadline c).running = s.running
      unfold handleDeadline
      split <;> rfl
    | vibrate r =>
      change (s.vibrate c r).2.running = s.running
      unfold vibrate
      split
      · rfl
      · have hcall := running_call (fun t => t.vibrate c (.ofRequest s.nextVibration r))
          { s with nextVibration := s.nextVibration + 1 }
        simp only
        split <;> next hs => rwa [hs] at hcall
    | dump => exact running_call ..
    | moved actuator => rfl
    | takeSequence => rfl
    | takeToken => rfl
    | register listener => rfl
    | unregister id => rfl
    | _ => cases hi

/-- Affairs in turn do not make a service stop answering either. -/
theorem running_undergoAll {occasions : List (Occasion σ α)}
    (ho : ∀ o ∈ occasions, o.affair ≠ .shutdown) (c : Context σ) (s : Service σ α) :
    (s.undergoAll c occasions).running = s.running := by
  induction occasions generalizing s with
  | nil => rfl
  | cons o rest ih =>
    obtain ⟨hfirst, hrest⟩ := List.forall_mem_cons.1 ho
    exact (ih hrest _).trans (running_undergo _ _ hfirst)

/-! ## Services that have not moved -/

/-- A service has been asked what the actuator plays, perhaps, and that is all: no vibration has
been created, everybody is where they were, and the actuator has been given no order. -/
structure Unmoved (device : Device σ) (s t : Service σ α) : Prop where
  nextVibration : t.nextVibration = s.nextVibration
  current : t.scheduler.current = s.scheduler.current
  next : t.scheduler.next = s.scheduler.next
  external : t.scheduler.external = s.scheduler.external
  history : t.scheduler.history = s.scheduler.history
  alwaysOn : t.scheduler.alwaysOn = s.scheduler.alwaysOn
  journal : t.scheduler.journal = s.scheduler.journal
  /-- Whatever log the actuator keeps has not grown. -/
  log : ∀ log, Logs device log →
    log t.scheduler.line.actuator = log s.scheduler.line.actuator

/-- A service to which nothing happens is unmoved. -/
theorem Unmoved.refl (device : Device σ) (s : Service σ α) : Unmoved device s s :=
  ⟨rfl, rfl, rfl, rfl, rfl, rfl, rfl, fun _ _ => rfl⟩

/-- To ask the actuator about itself is to reach it. -/
theorem snd_info? (c : Context σ) (s : Scheduler σ) : (s.info? c).2 = (s.reach c).2 := by
  unfold info?
  split <;> next h => rw [h]

/-- To ask what the actuator plays is to connect to it at most. -/
theorem unmoved_actuatorInfo (c : Context σ) (s : Service σ α) :
    Unmoved c.device s (s.actuatorInfo c).2 := by
  have hcalled := called_call (fun t => t.info? c) s
  unfold actuatorInfo
  generalize s.call _ = answer at hcalled
  cases hcalled with
  | stopped e => exact .refl c.device s
  | answered hs hn =>
    rw [snd_info?, reach_eq] at hs
    refine ⟨hn, ?_, ?_, ?_, ?_, ?_, ?_, fun log hlog => ?_⟩
    all_goals simp only [hs]
    all_goals first | rfl | exact hlog.reach _

/-! ## The course of a service -/

/-- The scheduler of a service has come to its state by a course, with numbers that the service has
given out. -/
structure Comes (c : Context σ) (actuator : σ) (os : List (Occurrence σ)) (s : Service σ α) :
    Prop where
  scheduler : s.scheduler = after c actuator os
  proper : Proper os
  below : ∀ v ∈ asked os, v.id < s.nextVibration

/-- A service that has just been created comes from nothing. -/
theorem comes_create (h : create c.config actuator = .ok s) : s.Comes c actuator [] := by
  rw [eq_of_create h]
  exact ⟨rfl, ⟨List.forall_mem_nil _, List.nodup_nil⟩, List.forall_mem_nil _⟩

/-- A request is placed under the number that is given out next. -/
theorem Comes.placed (h : s.Comes c actuator os) (i : Instant) (r : VibrationRequest)
    (hs : t.scheduler = s.scheduler.undergo c (ofRequest i s.nextVibration r))
    (hn : t.nextVibration = s.nextVibration + 1) :
    t.Comes c actuator (os ++ [ofRequest i s.nextVibration r]) where
  scheduler := by rw [after_concat, ← h.scheduler, hs]
  proper := h.proper.concat_ofRequest h.below i r
  below := by
    rw [hn]
    exact lt_of_mem_asked_concat h.below i r

/-- Whatever stirs the scheduler continues its course. -/
theorem Comes.stirs (h : s.Comes c actuator os) (hs : Stirs c P s t) :
    ∃ more, t.Comes c actuator (os ++ more) := by
  cases hs with
  | idle hs hn =>
    refine ⟨[], ?_⟩
    rw [List.append_nil]
    exact ⟨hs.trans h.scheduler, h.proper, fun v hv => (h.below v hv).trans_le hn⟩
  | occurred o hs hn ho hb =>
    refine ⟨[o], ?_, h.proper.concat_of_none ho, ?_⟩
    · rw [after_concat, ← h.scheduler, hs]
    · rw [asked_concat, ho, hn]
      simpa using h.below
  | requested i r hs hn hb => exact ⟨_, h.placed i r hs hn⟩

/-- **A course goes on**, whatever happens to the service. -/
theorem Comes.stirsAll (h : s.Comes c actuator os) (hs : Relation.ReflTransGen (Stirs c P) s t) :
    ∃ more, t.Comes c actuator (os ++ more) := by
  induction hs with
  | refl => exact ⟨[], by rwa [List.append_nil]⟩
  | tail _ hstep ih =>
    obtain ⟨more, hmore⟩ := ih
    obtain ⟨last, hlast⟩ := hmore.stirs hstep
    exact ⟨more ++ last, by rwa [List.append_assoc] at hlast⟩

/-- Whatever has been asked for is somewhere, with its number and its effect. -/
theorem Comes.exists_vibration (h : s.Comes c actuator os) {v : Vibration} (hv : v ∈ asked os) :
    ∃ w ∈ s.scheduler.vibrations, w.id = v.id ∧ w.effect = v.effect := by
  obtain ⟨w, hw, hvw⟩ := (renews_after c actuator h.proper.new).exists_becomes hv
  rw [h.scheduler]
  exact ⟨w, hw, hvw.id_eq.symm, hvw.effect_eq⟩

end Service

/-! ## Players -/

namespace Player

open Service Scheduler Occurrence

variable {c : Nat → Context σ} {others : Nat → Service σ α → Service σ α} {s : Service σ α}
  {text : String} {r : PlayRequest}

/-- The others do not stop the service. -/
def Spares (others : Nat → Service σ α → Service σ α) : Prop :=
  ∀ n t, t.running = true → (others n t).running = true

/-- Packets pass or are dropped, as long as the service answers. -/
theorem submitAll_of_running (c : Nat → Context σ) (ho : Spares others) (calls : Nat)
    (rest : List Stream) (h : s.running = true) :
    (submitAll c others calls rest s).1 = .ok () := by
  induction rest generalizing calls s with
  | nil => rfl
  | cons packet rest ih =>
    have hrun : (s.update ((s.scheduler.packet (c calls) packet).2)).running = true := h
    unfold submitAll submit
    rw [call_of_running h]
    cases (s.scheduler.packet (c calls) packet).1 with
    | forwarded n => exact ih (calls + 1) (ho calls _ hrun)
    | dropped => rfl

/-- What comes of playing a document: the player fails before it has asked, or when it has; or it
sends the streams of a document that can be read. -/
theorem play_cases (c : Nat → Context σ) (others : Nat → Service σ α → Service σ α) (text : String)
    (r : PlayRequest) (p : Player) (s : Service σ α) :
    let asked := others 0 (s.actuatorInfo (c 0)).2
    (∃ e, p.play c others text r s = (.error e, p, s)) ∨
    (∃ e, p.play c others text r s = (.error e, p, asked)) ∨
    ∃ options version document, prepare text r = .ok (options, version) ∧
      HapticDocument.read text = .ok document ∧
      p.play c others text r s = p.send c others
        (document.compile options (p.takeSender version asked).1 (c 0).config.transientTailMs)
        (p.takeSender version asked).2 := by
  intro asked
  cases hprepare : prepare text r with
  | error e => exact .inl ⟨.failure e, by simp only [play, hprepare]⟩
  | ok prepared =>
    obtain ⟨options, version⟩ := prepared
    cases hread : HapticDocument.read text with
    | ok document =>
      rcases play_eq_or c others hprepare hread p s with hfailed | hsent
      · exact .inr (.inl hfailed)
      · exact .inr (.inr ⟨options, version, document, rfl, rfl, hsent⟩)
    | error e =>
      refine .inr (.inl ?_)
      have hasked : asked = others 0 (s.actuatorInfo (c 0)).2 := rfl
      unfold play
      rw [hprepare]
      simp only
      generalize s.actuatorInfo (c 0) = answer at hasked
      rcases answer with ⟨e | info, t⟩
      · exact ⟨e, by rw [hasked]⟩
      · have hnone : ∃ e, readFor info version text = .error e := by
          unfold readFor
          split
          · exact ⟨_, rfl⟩
          · split
            · exact ⟨e, hread⟩
            · exact ⟨_, rfl⟩
        obtain ⟨e, he⟩ := hnone
        exact ⟨.failure e, by simp only [he, hasked]⟩

/-- **What is sent to a service that answers is sent whole.** The first stream is placed under the
number that is given out next, and none of the packets fails. -/
theorem send_of_running (c : Nat → Context σ) (ho : Spares others) (h : s.running = true)
    {first : Stream} (hfirst : first.Opens) (rest : List Stream) (p : Player) :
    ∃ request status t, request.effect = .stream first ∧
      t.scheduler = (s.scheduler.vibrate (c 1) (.ofRequest s.nextVibration request)).2 ∧
      t.nextVibration = s.nextVibration + 1 ∧
      p.send c others (first :: rest) s =
        (.ok ⟨s.nextVibration, status⟩, { p with started := true },
          (submitAll c others 2 rest (others 1 t)).2) := by
  unfold send
  simp only
  generalize hr : VibrationRequest.mk p.uid p.package p.token p.attributes (.stream first) = request
  have heffect : request.effect = .stream first := by rw [← hr]
  obtain ⟨status, t, hplaced, hrun, hs, hn⟩ :=
    vibrate_of_running h (checkRequest_of_opens heffect hfirst) (c 1)
  refine ⟨request, status, t, heffect, hs, hn, ?_⟩
  have hsubmitted := submitAll_of_running c ho 2 rest (ho 1 t hrun)
  rw [hplaced]
  simp only
  generalize submitAll c others 2 rest (others 1 t) = answer at hsubmitted ⊢
  obtain ⟨result, u⟩ := answer
  obtain rfl : result = .ok () := hsubmitted
  rfl

/-- What comes of packets is what comes of a service that is called and has others call it. -/
theorem stirs_submitAll {c : Context σ} {P : Stream → Prop} (times : Nat → Instant)
    (ho : ∀ n t, Relation.ReflTransGen (Stirs c P) t (others n t)) {rest : List Stream}
    (hrest : ∀ packet ∈ rest, P packet) (calls : Nat) (s : Service σ α) :
    Relation.ReflTransGen (Stirs c P) s
      (submitAll (fun n => c.asOf (times n)) others calls rest s).2 := by
  induction rest generalizing calls s with
  | nil => exact .refl
  | cons packet rest ih =>
    obtain ⟨hpacket, hlater⟩ := List.forall_mem_cons.1 hrest
    have hsubmitted : Relation.ReflTransGen (Stirs c P) s
        (s.submit (c.asOf (times calls)) packet).2 := by
      apply stirs_undergo (a := .submit packet)
      intro st hst
      rwa [List.mem_singleton.1 hst]
    unfold submitAll
    generalize s.submit (c.asOf (times calls)) packet = answer at hsubmitted ⊢
    obtain ⟨result, t⟩ := answer
    have hbehind := hsubmitted.trans (ho calls t)
    rcases result with e | (n | -)
    · exact hbehind
    · exact hbehind.trans (ih hlater (calls + 1) _)
    · exact hbehind

section whole

variable {c : Context σ} {actuator : σ} {os : List (Occurrence σ)}

/-- A service has come to where a player finds it to send its streams. -/
theorem exists_comes_takeSender {s₀ : Service σ α}
    (hs₀ : Service.create c.config actuator = .ok s₀) (w : Surroundings σ α) (p : Player)
    (version : Version) :
    let found := s₀.undergoAll c w.before
    let asked := ((found.actuatorInfo (c.asOf (w.calls 0))).2).undergoAll c (w.between 0)
    ∃ os, ((p.takeSender version asked).2).Comes c actuator os := by
  intro found asked
  have hinfo : Relation.ReflTransGen (Stirs c w.Brings) found
      (found.actuatorInfo (c.asOf (w.calls 0))).2 :=
    stirs_undergo (a := .actuatorInfo) (w.calls 0) (List.forall_mem_nil _) found
  have hasked : Relation.ReflTransGen (Stirs c w.Brings) s₀ asked :=
    ((w.stirs_before s₀).trans hinfo).trans (w.stirs_between 0 _)
  have htaken : Stirs c w.Brings asked (p.takeSender version asked).2 := by
    cases version <;> exact .idle rfl (Nat.le_refl _)
  exact ⟨_, ((comes_create hs₀).stirsAll (hasked.tail htaken)).choose_spec⟩

/-- A vibration that has been placed is somewhere from then on, whatever happens. -/
theorem exists_vibration_of_placed (hs : s.Comes c actuator os) {t u : Service σ α} (i : Instant)
    {request : VibrationRequest}
    (ht : t.scheduler = (s.scheduler.vibrate (c.asOf i) (.ofRequest s.nextVibration request)).2)
    (hn : t.nextVibration = s.nextVibration + 1) {P : Stream → Prop}
    (hu : Relation.ReflTransGen (Stirs c P) t u) :
    ∃ v ∈ u.scheduler.vibrations, v.id = s.nextVibration ∧ v.effect = request.effect := by
  obtain ⟨more, hcomes⟩ := (hs.placed i request ht hn).stirsAll hu
  refine hcomes.exists_vibration (v := .ofRequest s.nextVibration request) ?_
  rw [asked_append, asked_concat]
  exact List.mem_append_left _ (List.mem_append_right _ List.mem_cons_self)

/-- **Streams that are sent to a service that answers are played**, as a vibration with the number
that is reported and with the first of them, which is somewhere from then on. -/
theorem exists_vibration_of_send (hs : s.Comes c actuator os) (w : Surroundings σ α)
    (hw : Spares fun n t => t.undergoAll c (w.between n)) (hrun : s.running = true)
    {first : Stream} (hfirst : first.Opens) (rest : List Stream) (p : Player) :
    ∃ report u, p.send (fun n => c.asOf (w.calls n)) (fun n t => t.undergoAll c (w.between n))
        (first :: rest) s = (.ok report, { p with started := true }, u) ∧
      ∃ v ∈ (u.undergoAll c w.later).scheduler.vibrations,
        v.id = report.id ∧ v.effect = .stream first := by
  obtain ⟨request, status, t, heffect, ht, hn, hsent⟩ :=
    send_of_running (fun n => c.asOf (w.calls n)) hw hrun hfirst rest p
  refine ⟨_, _, hsent, ?_⟩
  rw [← heffect]
  apply exists_vibration_of_placed hs (w.calls 1) ht hn (P := fun st => w.Brings st ∨ st ∈ rest)
  have hothers (n : Nat) (t : Service σ α) :
      Relation.ReflTransGen (Stirs c fun st => w.Brings st ∨ st ∈ rest) t
        (t.undergoAll c (w.between n)) :=
    stirs_undergoAll (fun o ho st hst => .inl ⟨o, .inr (.inl ⟨n, ho⟩), hst⟩) t
  refine ((hothers 1 t).trans ?_).trans
    (stirs_undergoAll (fun o ho st hst => .inl ⟨o, .inr (.inr ho), hst⟩) _)
  exact stirs_submitAll w.calls hothers (fun packet hpacket => .inr hpacket) 2 _

end whole

/-- **A document is played, or nothing happens.** A player plays a text, whatever it says, on a
service that others call before, between and behind the player's calls and do not shut down.

* If the player fails, it is the player that it was, and the service is as it was found but for what
  others have done since: nobody has been placed, moved or put away, no always-on effect and no
  external session has changed, and the actuator has been given no order.
* If it reports a number, the text is a document that can be read, and at every later moment there
  is a vibration with this number that carries the first stream of the document. -/
theorem played_or_unmoved (c : Context σ) (actuator : σ) {s₀ : Service σ α}
    (hs₀ : Service.create c.config actuator = .ok s₀) (w : Surroundings σ α) (p : Player)
    (text : String) (r : PlayRequest) :
    let found := s₀.undergoAll c w.before
    let asked := ((found.actuatorInfo (c.asOf (w.calls 0))).2).undergoAll c (w.between 0)
    let answer := p.play (fun n => c.asOf (w.calls n)) (fun n t => t.undergoAll c (w.between n))
      text r found
    found.running = true → (∀ n, ∀ o ∈ w.between n, o.affair ≠ .shutdown) →
    (∀ e, answer.1 = .error e →
      answer.2.1 = p ∧
        ∃ t, Unmoved c.device found t ∧
          (answer.2.2 = t ∨ answer.2.2 = t.undergoAll c (w.between 0))) ∧
    ∀ report, answer.1 = .ok report →
      answer.2.1 = { p with started := true } ∧
        ∃ options version document first,
          prepare text r = .ok (options, version) ∧
          HapticDocument.read text = .ok document ∧
          (document.compile options (p.takeSender version asked).1
            c.config.transientTailMs).head? = some first ∧
          ∃ v ∈ (answer.2.2.undergoAll c w.later).scheduler.vibrations,
            v.id = report.id ∧ v.effect = .stream first := by
  intro found asked answer hrun hothers
  have hspares : Spares fun n (t : Service σ α) => t.undergoAll c (w.between n) :=
    fun n t ht => (running_undergoAll (hothers n) c t).trans ht
  have hunmoved : Unmoved c.device found (found.actuatorInfo (c.asOf (w.calls 0))).2 :=
    unmoved_actuatorInfo (c.asOf (w.calls 0)) found
  rcases play_cases (fun n => c.asOf (w.calls n)) (fun n t => t.undergoAll c (w.between n)) text r p
    found with ⟨e, hfailed⟩ | ⟨e, hfailed⟩ | ⟨options, version, document, hprepare, hread, hsent⟩
  · have hanswer : answer = (.error e, p, found) := hfailed
    rw [hanswer]
    exact ⟨fun _ _ => ⟨rfl, found, .refl c.device found, .inl rfl⟩, fun _ he => absurd he (by simp)⟩
  · have hanswer : answer = (.error e, p, asked) := hfailed
    rw [hanswer]
    exact ⟨fun _ _ => ⟨rfl, _, hunmoved, .inr rfl⟩, fun _ he => absurd he (by simp)⟩
  · obtain ⟨first, rest, hstreams, hopens⟩ := HapticDocument.opens_of_read hread options
      (p.takeSender version asked).1 c.config.transientTailMs
    have hasked : asked.running = true :=
      hspares 0 _ ((running_undergo (c.asOf (w.calls 0)) found (a := .actuatorInfo) (by simp)).trans
        hrun)
    have htaken : ((p.takeSender version asked).2).running = true := by
      cases version <;> exact hasked
    obtain ⟨os, hcomes⟩ := exists_comes_takeSender hs₀ w p version
    obtain ⟨report, u, hresult, hplayed⟩ :=
      exists_vibration_of_send hcomes w hspares htaken hopens rest p
    have hanswer : answer = (.ok report, { p with started := true }, u) := by
      rw [← hresult, ← hstreams]
      exact hsent
    rw [hanswer]
    refine ⟨fun _ he => absurd he (by simp), fun _ he => ⟨rfl, ?_⟩⟩
    cases he
    exact ⟨options, version, document, first, hprepare, hread, by rw [hstreams]; rfl, hplayed⟩

/-- Twelve taps wait behind the other stream, and are somewhere from then on with their first
packet. A text that is no document leaves the player as it was. -/
theorem played_or_unmoved_behindHum :
    (Service.create onBench.config bench =
        .ok ({ scheduler := .create onBench.config bench } : Service Bench Unit) ∧
      (({ scheduler := .create onBench.config bench } : Service Bench Unit).undergoAll onBench
        behindHum.before).running = true ∧
      ∀ n, ∀ o ∈ behindHum.between n, o.affair ≠ .shutdown) ∧
    ((playedBehindHum tapsText).1 = .ok ⟨2, .pending⟩ ∧
      (playedBehindHum tapsText).2.1 = { tapper with started := true } ∧
      ∃ first, tapsStreams.head? = some first ∧
        ∃ v ∈ ((playedBehindHum tapsText).2.2.undergoAll onBench
          behindHum.later).scheduler.vibrations, v.id = 2 ∧ v.effect = .stream first) ∧
    (∃ e, (playedBehindHum "").1 = .error e) ∧ (playedBehindHum "").2.1 = tapper := by
  have hcreate : Service.create onBench.config bench =
      .ok ({ scheduler := .create onBench.config bench } : Service Bench Unit) := by rfl
  have hrun : (({ scheduler := .create onBench.config bench } : Service Bench Unit).undergoAll
      onBench behindHum.before).running = true := by decide +kernel
  have hspared : ∀ n, ∀ o ∈ behindHum.between n, o.affair ≠ .shutdown := by
    intro n o ho
    cases ho
  have hreport := (playedBehindHum_eq prepare_tapsText read_tapsText).1
  have hfailed : ∃ e, (playedBehindHum "").1 = .error e := by
    refine ⟨.failure (.malformed .unreadable), ?_⟩
    have hversion : HapticDocument.declaredVersion "" = .error (.malformed .unreadable) := by
      rw [← String.ofList_nil, HapticDocument.declaredVersion_ofList]
      decide
    unfold playedBehindHum play prepare
    rw [hversion]
    rfl
  refine ⟨⟨hcreate, hrun, hspared⟩, ⟨hreport, ?_⟩, hfailed, ?_⟩
  · obtain ⟨hstarted, options, version, document, first, hprepare, hread, hfirst, hcarried⟩ :=
      (played_or_unmoved onBench bench hcreate behindHum tapper tapsText {} hrun hspared).2 _ hreport
    unfold playedBehindHum
    refine ⟨by rw [hstarted], first, ?_, hcarried⟩
    cases prepare_tapsText.symm.trans hprepare
    cases read_tapsText.symm.trans hread
    have hsender : (tapper.takeSender .two
        (((({ scheduler := .create onBench.config bench } : Service Bench Unit).undergoAll onBench
          behindHum.before).actuatorInfo (onBench.asOf (behindHum.calls 0))).2.undergoAll onBench
            (behindHum.between 0))).1 = ⟨7, 1⟩ := by decide +kernel
    rw [hsender] at hfirst
    exact hfirst
  · obtain ⟨e, he⟩ := hfailed
    exact ((played_or_unmoved onBench bench hcreate behindHum tapper "" {} hrun hspared).1 e he).1

end Player

end Haptics
