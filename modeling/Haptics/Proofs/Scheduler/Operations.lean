import Haptics.Proofs.Scheduler.Settled

/-!
# Every operation settles things

An input is handled by changes that lead from a settled state to a settled one. A vibration that has
been told to stop goes only if the input frees it (`Input.frees`): its stream has come to its end,
the connection is gone, or the deadline that it was given has passed.

* `settles_advance`: the next step of a vibration.
* `cancelCurrent_cases`, `settles_cancelCurrent`: what a cancellation does.
* `Conduct.settles`, `settles_packet`: what is demanded, and a packet.
* `settles_step`: every input but a request for a vibration.
* `vibrate_spec`: a request for a vibration, which finds its place meanwhile.
* `stopAll_spec`: the end, after which nobody is left.
-/

namespace Haptics

/-- Whether an input at a time lets a vibration go that has been told to stop. -/
def Input.frees (input : Input) (now : Nat) (p : Playback) : Prop :=
  p.stopping = true ∧
    match input with
    | .event (.complete id) => id = p.id
    | .event .died => True
    | .deadline => ∃ deadline ∈ p.deadline, deadline ≤ now
    | _ => False

namespace Scheduler

variable {σ : Type} {c : Context σ} {leave : Playback → Prop} {b : Bool} {s t : Scheduler σ}
  {p : Playback}

/-! ## The next step, and cancelling -/

/-- **The next step settles things**: it is in flight, or the motor has been given up. -/
theorem settles_advance (h : s.Plays p) : Settles c leave s (s.advance c) := by
  have hs := started_startStep (c := c) h.current
  have hr : Reaches c leave s (s.startStep c).2 := hs.reaches h
  unfold advance
  rcases hb : s.startStep c with ⟨b, t⟩
  rw [hb] at hs hr
  cases b with
  | true => exact hr.settles (settles_release (hs.isOver h).yields)
  | false => exact ⟨hr, hs.settled h⟩

/-- Whether the motor can be given up depends on the places only. -/
theorem Yields.of_places (h : s.Yields leave) (hc : t.current = s.current) (hn : t.next = s.next)
    (he : t.external = s.external) : t.Yields leave where
  waiting := by rw [hn]; exact h.waiting
  session := by rw [hn, he]; exact h.session
  leave := by rw [hc]; exact h.leave

/-- Whoever is about to end can be asked to leave as before. -/
theorem Yields.finishCurrent (h : s.Yields leave) (hp : s.current = some p)
    (hs : p.stopping = false) (c : Context σ) (status : Status) :
    (s.finishCurrent c status).Yields leave where
  waiting := h.waiting
  session := h.session
  leave := by
    rw [finishCurrent_of_some c hp]
    rintro _ ⟨⟩ hs'
    rw [show (p.finish status c.now).stopping = p.stopping from rfl, hs] at hs'
    cases hs'

/-- **What a cancellation does** to a vibration that has not been told to stop: it ends; then a
stream in flight is told to stop, and is waited for, or the motor is given up, which may have been
switched off before. -/
inductive Cancellation (c : Context σ) (status : Status) (p : Playback) (s : Scheduler σ) :
    Scheduler σ → Prop where
  | halted {line : Line σ} (hf : p.hasStreamInFlight = true)
      (h : Talk c (s.finishCurrent c status).line [.stop] line) :
      Cancellation c status p s (((s.finishCurrent c status).told line [.stop]).awaitStop c)
  | released {line : Line σ} {orders : List Order}
      (h : Talk c (s.finishCurrent c status).line orders line) (ho : ∀ o ∈ orders, o = .off) :
      Cancellation c status p s (((s.finishCurrent c status).told line orders).release c)

/-- To cancel whoever holds the motor comes to one of the two. -/
theorem cancellation_cancelCurrent (hp : s.current = some p) (hs : p.stopping = false)
    (c : Context σ) (status : Status) :
    Cancellation c status p s (s.cancelCurrent c status).2 := by
  unfold cancelCurrent
  cases hf : p.hasStreamInFlight with
  | true =>
    simp only [hp, hs, hf, Bool.false_eq_true, if_false, if_true]
    have hd := dispatch_issueIfConnected c .stop (s.finishCurrent c status)
    generalize (s.finishCurrent c status).issueIfConnected c .stop = answer at hd
    cases hd with
    | taken hl reported => exact .halted hf hl
    | refused hl e => exact .released (.reset hl) (by simp)
  | false =>
    simp only [hp, hs, hf, Bool.false_eq_true, if_false]
    have hd := dispatch_issueIfConnected c .off (s.finishCurrent c status)
    generalize (s.finishCurrent c status).issueIfConnected c .off = answer at hd
    cases hd with
    | taken hl reported => exact .released hl (by simp)
    | refused hl e => exact .released hl (by simp)

/-- A cancellation finds nobody but one who has been told to stop, and does nothing; or it finds
somebody else, and is a `Cancellation`. -/
theorem cancelCurrent_cases (c : Context σ) (status : Status) (s : Scheduler σ) :
    ((s.cancelCurrent c status).2 = s ∧ ∀ p ∈ s.current, p.stopping = true) ∨
      ∃ p, s.current = some p ∧ p.stopping = false ∧
        Cancellation c status p s (s.cancelCurrent c status).2 := by
  cases hp : s.current with
  | none => exact .inl ⟨by rw [cancelCurrent_of_none hp], by simp⟩
  | some p =>
    cases hs : p.stopping with
    | true => exact .inl ⟨by rw [cancelCurrent_of_stopping hp hs], by simpa using hs⟩
    | false => exact .inr ⟨p, rfl, hs, cancellation_cancelCurrent hp hs c status⟩

/-- Who has not been told to stop may be asked to leave. -/
theorem Yields.of_not_stopping (hy : s.Yields fun _ => True) (hp : s.current = some p)
    (hs : p.stopping = false) : s.Yields leave where
  waiting := hy.waiting
  session := hy.session
  leave p' hp' hs' := by
    cases hp.symm.trans hp'
    rw [hs] at hs'
    cases hs'

/-- **To cancel settles things**, whoever waits for the motor. -/
theorem settles_cancelCurrent {status : Status} (hp : s.current = some p)
    (hh : p.Runs ∨ p.Stops) (hy : s.Yields fun _ => True) (hs : status.isCancelled = true) :
    Settles c leave s (s.cancelCurrent c status).2 := by
  rcases hh with hr | hst
  · have ht := Status.isTerminal_of_isCancelled hs
    have hq : (s.finishCurrent c status).current = some (p.finish status c.now) := by
      rw [finishCurrent_of_some c hp]
    refine (reaches_finishCurrent c leave s ht).settles ?_
    have hc := cancellation_cancelCurrent hp hr.stopping c status
    generalize (s.cancelCurrent c status).2 = t at hc
    cases hc with
    | @halted line hf hl =>
      have hstatus : (p.finish status c.now).vibration.status.isCancelled = true := by
        rw [hr.status_finish ht]
        exact hs
      refine ⟨reaches_of_change fun _ => .halted hq hr.stopping hf hstatus hl, ?_⟩
      exact .of_stops (current_halted hq c line) ⟨hstatus, rfl, hf⟩ hy.waiting hy.session
    | released hl ho =>
      have hoff : (s.finishCurrent c status).Permits leave .off := .of_quiet ⟨rfl, by simp⟩ (by simp)
      refine (reaches_told hl fun o hm => ?_).settles (settles_release ?_)
      · rw [ho o hm]
        exact hoff
      · have hy' : s.Yields leave := hy.of_not_stopping hp hr.stopping
        exact (hy'.finishCurrent hp hr.stopping c status).of_places rfl rfl rfl
  · rw [cancelCurrent_of_stopping hp hst.stopping]
    exact ⟨.refl c leave s, .of_stops hp hst hy.waiting hy.session⟩

/-- To cancel whoever holds the motor leaves things settled. -/
theorem Settled.settles_cancelCurrent (h : s.Settled) {status : Status}
    (hs : status.isCancelled = true) : Settles c leave s (s.cancelCurrent c status).2 := by
  cases hc : s.current with
  | none => rw [cancelCurrent_of_none hc]; exact h.settles
  | some p =>
    exact Scheduler.settles_cancelCurrent hc (h.holder p hc) (h.yields hc fun _ => trivial) hs

/-- So does the end of whoever waits. -/
theorem Settled.settles_dropNext (h : s.Settled) {status : Status}
    (hs : status.isTerminal = true) : Settles c leave s (s.dropNext c status) := by
  refine ⟨reaches_dropNext c leave s hs, ?_⟩
  unfold dropNext
  cases hn : s.next with
  | none => exact h
  | some q =>
    exact ⟨h.holder, h.engaged, by simp [retire], fun e he => by
      have := (h.session e he).2
      exact ⟨rfl, this⟩, h.timed⟩

/-! ## Sessions -/

/-- A session that ends is gone, and changes no place of a vibration. -/
theorem endExternal_spec (c : Context σ) (leave : Playback → Prop) (s : Scheduler σ)
    {status : Status} (hs : status.isTerminal = true) :
    Reaches c leave s (s.endExternal c status) ∧
      (s.endExternal c status).current = s.current ∧ (s.endExternal c status).next = s.next ∧
      (s.endExternal c status).external = none := by
  unfold endExternal
  cases he : s.external with
  | none => exact ⟨.refl c leave s, rfl, rfl, he⟩
  | some e =>
    simp only
    split
    · have hd := dispatch_issueIfConnected c (.externalControl false) s
      have hq : s.Permits leave (.externalControl false) := .of_quiet ⟨rfl, by simp⟩ (by simp)
      generalize s.issueIfConnected c (.externalControl false) = answer at hd
      cases hd with
      | taken hl reported =>
        refine ⟨?_, rfl, rfl, rfl⟩
        exact (reaches_told hl (by simpa using hq)).trans
          (reaches_of_change fun _ => .dismissed he hs)
      | refused hl e' =>
        refine ⟨?_, rfl, rfl, rfl⟩
        exact (reaches_told hl (by simp)).trans (reaches_of_change fun _ => .dismissed he hs)
    · exact ⟨reaches_of_change fun _ => .dismissed he hs, rfl, rfl, rfl⟩

/-- A session that ends leaves the rest settled. -/
theorem settles_endExternal (h : s.Settled) {status : Status} (hs : status.isTerminal = true) :
    Settles c leave s (s.endExternal c status) := by
  obtain ⟨hr, hc, hn, he⟩ := endExternal_spec c leave s hs
  refine ⟨hr, ?_, ?_, ?_, by rw [he]; simp, ?_⟩
  · rw [hc]; exact h.holder
  · rw [hc]; exact h.engaged
  · rw [hn, hc]; exact h.waiting
  · rw [hc]; exact h.timed

/-- In a settled state no session waits for a motor that is free. -/
theorem Settled.activateExternal (h : s.Settled) (c : Context σ) : s.activateExternal c = s := by
  unfold Scheduler.activateExternal
  split
  · next e hc he =>
    have hs := (h.session e he).2
    split at hs
    · next ha => rw [if_pos ha]
    · obtain ⟨p, hp, -⟩ := hs
      rw [hc] at hp
      cases hp
  · rfl

/-- A new session is in place of the one that is there. -/
theorem reaches_install (c : Context σ) (leave : Playback → Prop) (request : ExternalRequest)
    (scale : ExternalScale) (s : Scheduler σ) :
    Reaches c leave s (s.install c { request, scale }) := by
  unfold install
  cases he : s.external with
  | none => exact reaches_of_change fun _ => .installed he request scale
  | some previous =>
    have hd : Reaches c leave s (s.dismiss c .cancelledSuperseded previous) :=
      reaches_of_change fun _ => .dismissed he rfl
    exact hd.trans (reaches_of_change fun _ => .installed rfl request scale)

section install

variable (c : Context σ) (e : ExternalSession) (s : Scheduler σ)

/-- To put a session in place leaves the holder of the motor alone. -/
@[simp] theorem current_install : (s.install c e).current = s.current := by
  unfold install
  split <;> rfl

/-- So it does with whoever waits. -/
@[simp] theorem next_install : (s.install c e).next = s.next := by
  unfold install
  split <;> rfl

/-- The session is in place. -/
@[simp] theorem external_install : (s.install c e).external = some e := by
  unfold install
  split <;> rfl

end install

/-- **To make way settles things**: the session that waits has the motor, is gone, or waits for a
vibration that has been told to stop. -/
theorem settles_makeWay (hh : ∀ p ∈ s.current, p.Runs ∨ p.Stops) {e : ExternalSession}
    (he : s.external = some e) (ha : e.active = false) :
    Settles c leave s (s.makeWay c) := by
  have hd : Reaches c leave s (s.dropNext c .ignoredForExternal) := reaches_dropNext c leave s rfl
  refine hd.settles ?_
  unfold makeWay
  have hc' := current_dropNext c s .ignoredForExternal
  have hn' := next_dropNext c s .ignoredForExternal
  have he' := (external_dropNext c s .ignoredForExternal).trans he
  generalize s.dropNext c .ignoredForExternal = t at hc' hn' he'
  cases hc : t.current with
  | none =>
    rw [cancelCurrent_of_none hc]
    obtain ⟨hr, hc'', hn'', he''⟩ := activateExternal_spec c leave hc he' ha
    rw [hn'] at hn''
    refine ⟨hr, Vacant.settled ⟨hc'', by simp [hn''], ?_⟩ hn''⟩
    rcases he'' with he'' | he'' <;> rw [he''] <;> simp [ExternalSession.activate, hn'']
  | some p =>
    -- a session that waits is no obstacle to the cancellation
    have hy : t.Yields fun _ => True := by
      refine ⟨by simp [hn'], ?_, fun _ _ _ => trivial⟩
      rw [he']
      rintro _ ⟨⟩
      exact ⟨ha, hn'⟩
    have h : Settles c leave t (t.cancelCurrent c .cancelledSuperseded).2 :=
      settles_cancelCurrent hc (hh p (hc' ▸ hc)) hy rfl
    rw [h.settled.activateExternal]
    exact h

/-- To grant a session leaves things settled. -/
theorem settles_grant (h : s.Settled) (request : ExternalRequest) (scale : ExternalScale) :
    Settles c leave s (s.grant c request scale).2 := by
  have hi := reaches_install c leave request scale s
  unfold grant
  cases ha : s.external.any (·.active) with
  | true =>
    obtain ⟨e, he, ha⟩ := (Option.any_eq_true _ _).1 ha
    obtain ⟨hn, hs⟩ := h.session e he
    rw [if_pos ha] at hs
    have hc : (s.install c { request, scale }).current = none := (current_install ..).trans hs
    have hn' : (s.install c { request, scale }).next = none := (next_install ..).trans hn
    have he' := external_install c { request, scale } s
    refine hi.settles ⟨reaches_of_change fun _ => .seized he' rfl hc, ?_⟩
    refine Vacant.settled ⟨hc, fun q hq => ?_, ?_⟩ hn'
    · cases hn'.symm.trans hq
    · rintro _ ⟨⟩
      exact ⟨rfl, hn'⟩
  | false =>
    refine hi.settles ?_
    refine settles_makeWay ?_ (external_install c _ s) rfl
    rw [current_install]
    exact h.holder

/-! ## Demands -/

/-- An errand leaves a state settled. -/
theorem Errand.settles (h : s.Settled) (he : Errand c b s t) : Settles c leave s t := by
  cases he with
  | talked ht ho hstop =>
    refine h.settles_told ht fun o hm => ⟨fun id hid => ?_, fun hc => ?_, fun hc p hp hst => ?_⟩
    · rw [(ho o hm).1] at hid
      cases hid
    · rw [hc] at hm
      cases (ho _ hm).2
    · rw [hstop (hc ▸ hm) p hp] at hst
      cases hst
  | noted callState alwaysOn =>
    exact ⟨reaches_of_change fun _ => .noted s.admitted callState alwaysOn (.inl rfl),
      h.of_places rfl rfl rfl⟩
  | ended hb hs => exact settles_endExternal h hs

/-- So does whatever leaves the holder of the motor alone. -/
theorem Asides.settles (h : s.Settled) (ha : Asides c b s t) : Settles c leave s t := by
  induction ha with
  | refl => exact h.settles
  | tail _ ha ih =>
    refine ih.trans ?_
    cases ha with
    | errand he => exact he.settles ih.settled
    | dropped hs => exact ih.settled.settles_dropNext hs

/-- **Whatever is demanded settles things.** -/
theorem Conduct.settles (h : s.Settled) (hc : Conduct c b s t) : Settles c leave s t := by
  cases hc with
  | aside ha => exact ha.settles h
  | @stroke u v _ ha hs ha' =>
    have hbefore : Settles c leave s u := ha.settles h
    have hstroke : Settles c leave u v := by
      cases hs with
      | cancelled hs => exact hbefore.settled.settles_cancelCurrent hs
      | granted hb request scale => exact settles_grant hbefore.settled request scale
    exact (hbefore.trans hstroke).trans (ha'.settles hstroke.settled)

/-! ## Packets -/

/-- **A packet settles things**: if the actuator refuses it, the stream that plays gives up the
motor. -/
theorem settles_packet (h : s.Settled) (packet : Stream) :
    Settles c leave s (s.packet c packet).2 := by
  have hpassed := passed_packet c packet s
  generalize s.packet c packet = answer at hpassed
  cases hpassed with
  | @kept q x hx hq hsender =>
    obtain ⟨hu, hp⟩ := h.waiting q hq
    refine ⟨reaches_of_change fun _ => .stacked hq packet, h.holder, h.engaged, ?_, fun e he => ?_,
      h.timed⟩
    · rintro _ ⟨⟩
      refine ⟨⟨hu.pending, ?_⟩, hp⟩
      rw [hu.eq]
    · rw [(h.session e he).1] at hq
      cases hq
  | @taken p x reported a hx hp hst hsender hf ht =>
    have hplays := h.plays hp hst
    refine h.settles_told (.taken (.silence _) ht) fun o ho => ?_
    rw [List.mem_singleton.1 ho]
    refine ⟨fun id hid => ?_, by simp, by simp⟩
    exact ⟨hplays.external, p, hp, hplays.runs, Option.some.inj hid⟩
  | @refused p x line hx hp hst hsender ht =>
    have hy : (s.told line []).disconnect.Yields leave :=
      (h.yields hp fun hs => by rw [hst] at hs; cases hs).of_places rfl rfl rfl
    refine (reaches_told ht (by simp)).settles ((reaches_disconnect c leave _).settles ?_)
    exact (reaches_finishCurrent c leave _ rfl).settles
      (settles_release (hy.finishCurrent hp hst c _))
  | ignored => exact h.settles

/-! ## Requests -/

/-- A request is turned away with a final status. -/
theorem isTerminal_of_refusal? {v : Vibration} {status : Status}
    (h : s.refusal? c v = some status) : status.isTerminal = true := by
  unfold refusal? at h
  split at h
  · cases h; rfl
  · split at h
    · cases h; rfl
    · obtain ⟨p, -, h⟩ := Option.bind_eq_some_iff.1 h
      unfold Vibration.refusal? at h
      split at h
      · cases h
      · split at h
        · cases h
        · cases h
          unfold Vibration.refusalStatus
          split <;> rfl

/-- A request is let in only while there is no session. -/
theorem external_of_refusal?_eq_none {v : Vibration} (h : s.refusal? c v = none) :
    s.external = none := by
  unfold refusal? at h
  split at h
  · cases h
  · split at h
    · cases h
    · next he => simpa using he

/-- The places that a request can be let in to: it has the motor, which is free, or it waits. -/
def Placed (v : Vibration) (s t : Scheduler σ) : Prop :=
  (s.current = none ∧ t = (s.letIn v).takenBy { vibration := v }) ∨
    t = { s.letIn v with next := some { vibration := v } }

/-- A request that waits can be given the motor. -/
theorem yields_queued {v : Vibration} (hv : v.status = .pending) (he : s.external = none) :
    { s.letIn v with next := some { vibration := v } }.Yields fun _ => True := by
  refine ⟨?_, ?_, fun _ _ _ => trivial⟩
  · rintro _ ⟨⟩
    exact Playback.untouched_of_pending hv
  · rw [show (s.letIn v).external = none from he]
    simp

/-- A request that is let in finds a place, once the vibration that waits has gone: it has the
motor, or waits behind the vibration that is cancelled for it. -/
theorem placed_place (h : s.Settled) {v : Vibration} (hv : v.status = .pending)
    (he : s.external = none) :
    ∃ t, Placed v (s.dropNext c .ignoredSuperseded) t ∧
      Change c leave ⟨some v, s.dropNext c .ignoredSuperseded⟩ ⟨none, t⟩ ∧
      Settles c leave t (s.place c v) := by
  have hc' := current_dropNext c s .ignoredSuperseded
  have hn' := next_dropNext c s .ignoredSuperseded
  have he' := (external_dropNext c s .ignoredSuperseded).trans he
  cases hc : s.current with
  | none =>
    rw [place_of_none hc, readyFor]
    generalize s.dropNext c .ignoredSuperseded = t at hc' hn' he'
    have hp : ((t.letIn v).takenBy { vibration := v }).Plays
        (Playback.begin { vibration := v }) :=
      ⟨rfl, (Playback.untouched_of_pending hv).runs_begin, hn', he'⟩
    have hfree := hc'.trans hc
    exact ⟨_, .inl ⟨hfree, rfl⟩, .entered hfree he' hv, settles_advance hp⟩
  | some p =>
    rw [place_of_some hc, readyFor]
    generalize s.dropNext c .ignoredSuperseded = t at hc' hn' he'
    have hh : p.Runs ∨ p.Stops := h.holder p hc
    exact ⟨_, .inr rfl, .queued hn',
      settles_cancelCurrent (hc'.trans hc) hh (yields_queued hv he') rfl⟩

/-- A request that is let in finds its place, and things are settled again. -/
theorem place_spec (h : s.Settled) {v : Vibration} (hv : v.status = .pending)
    (he : s.external = none) :
    Relation.ReflTransGen (Change c leave) ⟨some v, s⟩ ⟨none, s.place c v⟩ ∧
      (s.place c v).Settled := by
  have hd : Reaches c leave s (s.dropNext c .ignoredSuperseded) := reaches_dropNext c leave s rfl
  obtain ⟨t, -, hplaced, ht⟩ := @placed_place σ c leave s h v hv he
  exact ⟨((hd (some v)).tail hplaced).trans (ht.reaches none), ht.settled⟩

/-- **A request for a vibration finds its place**, or is turned away; then things are settled
again. -/
theorem vibrate_spec (h : s.Settled) {v : Vibration} (hv : v.status = .pending) :
    Relation.ReflTransGen (Change c leave) ⟨some v, s⟩ ⟨none, (s.vibrate c v).2⟩ ∧
      (s.vibrate c v).2.Settled := by
  cases hr : s.refusal? c v with
  | some status =>
    rw [vibrate_of_refusal? hr]
    exact ⟨.single (.refused (isTerminal_of_refusal? hr)), h.of_places rfl rfl rfl⟩
  | none =>
    rw [vibrate_of_welcome hr]
    exact place_spec h hv (external_of_refusal?_eq_none hr)

/-! ## What happens by itself -/

/-- The end of a command settles things: the motor is given up, or its holder goes on. -/
theorem settles_completed (h : s.Settled) (id : Nat) :
    Settles c ((Input.event (.complete id)).frees c.now) s (s.completed c id) := by
  rcases completed_cases c id s with heq | ⟨p, hp, hid, ⟨hs, heq⟩ | ⟨hs, -, heq⟩⟩
  · rw [heq]
    exact h.settles
  · rw [heq]
    exact settles_release (h.yields hp fun hs => ⟨hs, hid.symm⟩)
  · rw [heq]
    exact settles_advance (h.plays hp hs)

/-- The loss of the connection settles things: whoever holds the motor goes, and the next one gets
it. -/
theorem settles_lost (h : s.Settled) :
    Settles c ((Input.event .died).frees c.now) s (s.lost c) := by
  have hn : Reaches c ((Input.event .died).frees c.now) s { s.disconnect with admitted := none } :=
    (reaches_disconnect c _ s).trans
      (reaches_of_change fun _ =>
        .noted none s.callState s.alwaysOn (.inr ⟨rfl, fun _ hs => ⟨hs, trivial⟩⟩))
  have hstruck : Reaches c ((Input.event .died).frees c.now) s (s.struck c) :=
    hn.trans (reaches_finishCurrent c _ _ rfl)
  cases hp : s.current with
  | none =>
    rw [lost_of_none hp]
    have hc : (s.struck c).current = s.current := (congrArg (Option.map _) hp).trans hp.symm
    exact ⟨hstruck, h.of_places hc rfl rfl⟩
  | some p =>
    rw [lost_of_some hp]
    have hy : s.Yields fun _ => True := h.yields hp fun _ => trivial
    refine hstruck.settles (settles_release ?_)
    exact ⟨hy.waiting, hy.session, fun _ _ hs => ⟨hs, trivial⟩⟩

/-- To handle an event leaves things settled. -/
theorem settles_handleEvent (h : s.Settled) (event : ActuatorEvent) :
    Settles c ((Input.event event).frees c.now) s (s.handleEvent c event) := by
  cases event with
  | complete id => exact settles_completed h id
  | died => exact settles_lost h

/-- A deadline settles things, as the end of a command does. -/
theorem settles_handleDeadline (h : s.Settled) :
    Settles c (Input.deadline.frees c.now) s (s.handleDeadline c) := by
  rcases handleDeadline_cases c s with heq | ⟨p, deadline, hp, hd, hle, ⟨hs, heq⟩ | ⟨hs, heq⟩⟩
  · rw [heq]
    exact h.settles
  · rw [heq]
    exact settles_release (h.yields hp fun hs => ⟨hs, deadline, hd, hle⟩)
  · rw [heq]
    have hpl := h.plays hp hs
    refine (reaches_of_change fun _ => .turned hp (.lapsed hpl.runs hd hle)).settles ?_
    exact settles_advance ⟨rfl, ⟨hpl.runs.running, hpl.runs.stopping⟩, hpl.next, hpl.external⟩

/-! ## All inputs -/

/-- **Every input settles things**, other than a request for a vibration. A vibration that has been
told to stop goes only if the input frees it. -/
theorem settles_step (h : s.Settled) {input : Input} (hi : ∀ v, input ≠ .vibrate v) :
    Settles c (input.frees c.now) s (s.step c input) := by
  cases input with
  | vibrate v => exact absurd rfl (hi v)
  | packet packet => exact settles_packet h packet
  | event event => exact settles_handleEvent h event
  | deadline => exact settles_handleDeadline h
  | _ => exact (conduct_step rfl c s).settles h

/-! ## The end -/

/-- To tell the actuator to stop moves nobody. -/
theorem silence_spec (c : Context σ) (s : Scheduler σ) :
    Reaches c (fun _ => True) s (s.silence c) ∧ (s.silence c).next = s.next := by
  unfold silence
  cases hc : s.current with
  | none => exact ⟨.refl c _ s, rfl⟩
  | some p =>
    have hp : s.Permits (fun _ => True) (stopOrder p) := by
      unfold stopOrder
      split
      · exact ⟨fun id hid => (by cases hid), by simp, fun _ _ _ _ => trivial⟩
      · exact .of_quiet ⟨rfl, by simp⟩ (by simp)
    have hd := dispatch_issueIfConnected c (stopOrder p) s
    simp only
    generalize s.issueIfConnected c (stopOrder p) = answer at hd
    cases hd with
    | taken hl reported => exact ⟨reaches_told hl (by simpa using hp), rfl⟩
    | refused hl e => exact ⟨reaches_told hl (by simp), rfl⟩

/-- **Everything stops**: nobody holds the motor any more, waits for it or has a session. -/
theorem stopAll_spec (c : Context σ) (s : Scheduler σ) :
    Reaches c (fun _ => True) s (s.stopAll c) ∧ (s.stopAll c).current = none ∧
      (s.stopAll c).next = none ∧ (s.stopAll c).external = none := by
  have hd : Reaches c (fun _ => True) s (s.dropNext c .cancelledByUser) :=
    reaches_dropNext c _ s rfl
  have hn := next_dropNext (c := c) s .cancelledByUser
  unfold stopAll
  generalize s.dropNext c .cancelledByUser = t at hd hn
  obtain ⟨hs, hn'⟩ := silence_spec c t
  have hf : Reaches c (fun _ => True) (t.silence c)
      ((t.silence c).finishCurrent c .cancelledByUser) := reaches_finishCurrent c _ _ rfl
  have hg : Reaches c (fun _ => True) ((t.silence c).finishCurrent c .cancelledByUser)
      (((t.silence c).finishCurrent c .cancelledByUser).dropCurrent c) :=
    reaches_dropCurrent c _ _ fun _ _ _ => trivial
  have hn'' : (((t.silence c).finishCurrent c .cancelledByUser).dropCurrent c).next = none := by
    rw [next_dropCurrent]
    exact hn'.trans hn
  have ht : Status.isTerminal .cancelledByUser = true := rfl
  obtain ⟨hr, hc', hne, he⟩ := endExternal_spec c (fun _ => True)
    (((t.silence c).finishCurrent c .cancelledByUser).dropCurrent c) ht
  exact ⟨(((hd.trans hs).trans hf).trans hg).trans hr, hc'.trans (current_dropCurrent c _),
    hne.trans hn'', he⟩

end Scheduler

end Haptics
