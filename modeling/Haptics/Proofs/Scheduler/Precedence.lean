import Haptics.Proofs.Scheduler.Admission
import Haptics.Proofs.Scheduler.Deadlines

/-!
# Who gives way to whom

A request is weighed against the vibration that holds the motor, as long as that one has not been
told to stop. If it ranks below, and ends by itself, it is turned away.

A request that is turned away leaves everybody where he is (`TurnedAway`). It is kept like any other
vibration that has ended, and like any other it takes its transmission with it: if that is the one
whose packets are let in, they are let in no longer, even if it is the stream of the holder.

The vibration that waits is never weighed. It waits behind one that has been told to stop, which
keeps nobody away any more, so that every request that its client may make is let in and takes the
place of the one that waits: the latest request wins, whatever the ranks.

* `turnedAway_of_refusal?`: what a request that is turned away changes.
* `refusal?_of_outranked`: why a request below the holder is turned away.
* `place_of_stopping`: a request that is let in behind a vibration that has been told to stop.
* `holder_keeps_rank`: both, in every state of every course.
* `waiting_alarm_replaced`: an alarm that waits goes for a request of the lowest rank.
-/

namespace Haptics

/-- A vibration that is going on and ranks above a request that ends by itself turns it away. -/
theorem Vibration.refusal?_of_lt {holder request : Vibration} (hl : holder.hasEnded = false)
    (hr : request.isRepeating = false) (h : request.requestRank < holder.holderRank) :
    holder.refusal? request = some holder.refusalStatus := by
  have hrank : ¬ (holder.holderRank = 0 ∨ holder.holderRank < request.requestRank) := by omega
  unfold refusal?
  rw [hl, hr, if_neg (by decide), if_neg hrank]

/-- A vibration that has ended turns nobody away. -/
theorem Vibration.refusal?_of_hasEnded {holder : Vibration} (h : holder.hasEnded = true)
    (request : Vibration) : holder.refusal? request = none := by
  unfold refusal?
  rw [h, Bool.true_or, if_pos rfl]

namespace Scheduler

open Occurrence

variable {σ : Type} {c : Context σ} {s : Scheduler σ} {p : Playback} {v : Vibration}

/-! ## Requests that are turned away -/

/-- A request is turned away with a status and ends as `ended`: this is the answer, and the request
goes into the history. If it is of the transmission whose packets are let in, they are let in no
longer. Nothing else changes. -/
structure TurnedAway (status : Status) (ended : Vibration) (s : Scheduler σ)
    (answer : Status × Scheduler σ) : Prop where
  answered : answer.1 = status
  journal : answer.2.journal = .retired ended :: s.journal
  history : answer.2.history = s.history.record ended.info
  /-- The one thing beside the history that can change. -/
  admitted : answer.2.admitted = if ended.sender = s.admitted then none else s.admitted
  current : answer.2.current = s.current
  next : answer.2.next = s.next
  external : answer.2.external = s.external
  line : answer.2.line = s.line
  alwaysOn : answer.2.alwaysOn = s.alwaysOn
  callState : answer.2.callState = s.callState

/-- A vibration that is gone takes its transmission with it. -/
theorem admitted_retire (v : Vibration) (s : Scheduler σ) :
    (s.retire v).admitted = if v.sender = s.admitted then none else s.admitted := by
  unfold retire
  cases hv : v.sender with
  | some x => simp
  | none =>
    -- a vibration without a transmission leaves the note as it is, which may be empty already
    cases ha : s.admitted <;> simp

/-- **What a request that is turned away changes.** -/
theorem turnedAway_of_refusal? {status : Status} (h : s.refusal? c v = some status) :
    TurnedAway status (v.finish status c.now) s (s.vibrate c v) := by
  rw [vibrate_of_refusal? h]
  exact ⟨rfl, rfl, rfl, admitted_retire .., rfl, rfl, rfl, rfl, rfl, rfl⟩

/-! ## The vibration that holds the motor -/

/-- The status with which a request is turned away that ranks below the vibration that holds the
motor: that of its client if it may not vibrate at all, else that of the holder. -/
def outrankedStatus (c : Context σ) (holder request : Vibration) : Status :=
  if c.policy.allows request.uid request.package request.attributes then holder.refusalStatus
  else .ignoredAppOps

/-- A request that is outranked is ignored. -/
theorem isIgnored_outrankedStatus (c : Context σ) (holder request : Vibration) :
    (outrankedStatus c holder request).isIgnored = true := by
  unfold outrankedStatus Vibration.refusalStatus
  split
  · split <;> rfl
  · rfl

/-- A request that ranks below whoever plays is turned away. -/
theorem refusal?_of_outranked (h : s.Plays p) (hr : v.isRepeating = false)
    (hrank : v.requestRank < p.vibration.holderRank) :
    s.refusal? c v = some (outrankedStatus c p.vibration v) := by
  unfold refusal? outrankedStatus
  cases c.policy.allows v.uid v.package v.attributes with
  | false => rfl
  | true =>
    have hp : p.vibration.refusal? v = some p.vibration.refusalStatus :=
      Vibration.refusal?_of_lt h.runs.hasEnded hr hrank
    simp [h.external, h.current, hp]

/-! ## The vibration that waits -/

/-- Behind a vibration that has been told to stop every request is let in that its client may
make. -/
theorem refusal?_of_stops (hp : s.current = some p) (hst : p.Stops) (he : s.external = none) :
    s.refusal? c v =
      if c.policy.allows v.uid v.package v.attributes then none else some .ignoredAppOps := by
  have hended : p.vibration.hasEnded = true := Status.isTerminal_of_isCancelled hst.cancelled
  unfold refusal?
  cases c.policy.allows v.uid v.package v.attributes with
  | false => rfl
  | true => simp [he, hp, Vibration.refusal?_of_hasEnded hended]

/-- A request that is let in behind a vibration that has been told to stop takes the place of the
one that waits. -/
theorem place_of_stopping (hp : s.current = some p) (hst : p.stopping = true) :
    s.place c v =
      { (s.dropNext c .ignoredSuperseded).letIn v with next := some { vibration := v } } := by
  have hc : ({ s.readyFor c v with next := some { vibration := v } } : Scheduler σ).current =
      some p := (current_readyFor c v s).trans hp
  rw [place_of_some hp]
  exact congrArg Prod.snd (cancelCurrent_of_stopping hc hst c .cancelledSuperseded)

/-- What becomes of a vibration that waits when a request takes its place: it has ended as
superseded, the request waits, and the holder of the motor is still there. -/
structure Replaced (q : Playback) (v : Vibration) (now : Nat) (s t : Scheduler σ) : Prop where
  retired : .retired (q.vibration.finish .ignoredSuperseded now) ∈ t.journal
  next : t.next = some { vibration := v }
  current : t.current = s.current

/-- A request that is let in behind a vibration that has been told to stop replaces whoever waits.
-/
theorem replaced_of_stops {q : Playback} (hq : s.next = some q) (hp : s.current = some p)
    (hst : p.Stops) (he : s.external = none)
    (ha : c.policy.allows v.uid v.package v.attributes = true) :
    Replaced q v c.now s (s.vibrate c v).2 := by
  have hr : s.refusal? c v = none := by
    rw [refusal?_of_stops hp hst he, if_pos ha]
  rw [vibrate_of_welcome hr]
  change Replaced q v c.now s (s.place c v)
  rw [place_of_stopping hp hst.stopping]
  refine ⟨?_, rfl, current_dropNext c s .ignoredSuperseded⟩
  simp [letIn, dropNext, hq, retire]

/-! ## In every state of every course -/

/-- **The vibration that holds the motor keeps its rank**, in every state of every course; the one
that waits has none.

* If it runs, has not been told to stop and ranks above a request that ends by itself, the request
  is turned away. Whoever holds the motor, waits for it or has a session still does, and beside the
  history only the note of the transmission whose packets are let in can change: it goes if the
  request is of that transmission.
* The vibration that waits goes for every request that its client may make, whatever the ranks of
  the two, and stays for any other. -/
theorem holder_keeps_rank (c : Context σ) (actuator : σ) (os : List (Occurrence σ))
    (h : ∀ v ∈ asked os, v.IsNew) (v : Vibration) (hv : v.isRepeating = false) (policy : Policy)
    (now : Nat) :
    let s := after c actuator os
    let d := c.during ⟨policy, now, .vibrate v⟩
    (∀ p ∈ s.current, p.vibration.status = .running → p.stopping = false →
      v.requestRank < p.vibration.holderRank →
        let status := outrankedStatus d p.vibration v
        status.isIgnored = true ∧ TurnedAway status (v.finish status now) s (s.vibrate d v)) ∧
    ∀ q ∈ s.next,
      if policy.allows v.uid v.package v.attributes then Replaced q v now s (s.vibrate d v).2
      else TurnedAway .ignoredAppOps (v.finish .ignoredAppOps now) s (s.vibrate d v) := by
  intro s d
  have hs : s.Settled := settled_after c actuator h
  refine ⟨fun p hp _ hst hrank => ?_, fun q hq => ?_⟩
  · have hr := refusal?_of_outranked (c := d) (hs.plays hp hst) hv hrank
    exact ⟨isIgnored_outrankedStatus d p.vibration v, turnedAway_of_refusal? hr⟩
  · obtain ⟨-, p, hp, hst⟩ := hs.waiting q hq
    -- a session would have kept the vibration from waiting
    have he : s.external = none := by
      refine Option.eq_none_iff_forall_not_mem.2 fun e he => ?_
      rw [(hs.session e he).1] at hq
      cases hq
    split
    · next ha => exact replaced_of_stops (c := d) hq hp hst he ha
    · next ha =>
      have hr : s.refusal? d v = some .ignoredAppOps :=
        (refusal?_of_stops hp hst he).trans (if_neg ha)
      exact turnedAway_of_refusal? hr

/-- An alarm. -/
def alarm : VibrationRequest :=
  { uid := 1, package := "clock", token := 3, attributes := { usage := .alarm }
    effect := .oneShot 1000 255 }

/-- A push is asked for while an alarm is on: the alarm goes on, and the push is turned away for
it. -/
theorem holder_keeps_rank_alarm :
    let os : List (Occurrence Bench) := [.handled ⟨.permissive, 0, .vibrate (.ofRequest 1 alarm)⟩]
    let v : Vibration := .ofRequest 2 push
    let s := after onBench bench os
    let d := onBench.during ⟨.permissive, 5, .vibrate v⟩
    (∀ v ∈ asked os, v.IsNew) ∧ v.isRepeating = false ∧
      ∃ p ∈ s.current, p.vibration.status = .running ∧ p.stopping = false ∧
        v.requestRank < p.vibration.holderRank ∧ (s.vibrate d v).1 = .ignoredForAlarm ∧
        let status := outrankedStatus d p.vibration v
        status.isIgnored = true ∧ TurnedAway status (v.finish status 5) s (s.vibrate d v) := by
  intro os v s d
  have hnew : ∀ v ∈ asked os, v.IsNew := by
    intro v hv
    rw [List.mem_singleton.1 hv]
    exact ⟨alarm, rfl⟩
  have hv : v.isRepeating = false := rfl
  have hlive : s.current.any (fun p => p.vibration.status = .running && p.stopping = false &&
      v.requestRank < p.vibration.holderRank) = true := by decide
  obtain ⟨p, hp, hlive⟩ := (Option.any_eq_true _ _).1 hlive
  simp only [Bool.and_eq_true, decide_eq_true_eq] at hlive
  obtain ⟨⟨hrunning, hst⟩, hrank⟩ := hlive
  have hkept := (holder_keeps_rank onBench bench os hnew v hv .permissive 5).1
  exact ⟨hnew, hv, p, hp, hrunning, hst, hrank, by decide, hkept p hp hrunning hst hrank⟩

/-- A stream plays, and an alarm is asked for, which waits for it to stop. -/
def alarmWaits : List (Occurrence Bench) :=
  [.handled humAsked, .handled ⟨.permissive, 5, .vibrate (.ofRequest 2 alarm)⟩]

/-- **An alarm that waits goes for a push**: it is live and ranks above the push, which ends by
itself, and yet the push is let in and the alarm has ended. -/
theorem waiting_alarm_replaced :
    let v : Vibration := .ofRequest 3 push
    let s := after onBench bench alarmWaits
    let t := s.undergo onBench (.handled ⟨.permissive, 6, .vibrate v⟩)
    (∀ v ∈ asked alarmWaits, v.IsNew) ∧ v.isRepeating = false ∧
      ∃ q, s.IsLive q ∧ v.requestRank < q.vibration.holderRank ∧
        .retired (q.vibration.finish .ignoredSuperseded 6) ∈ t.journal ∧
        t.next = some { vibration := v } := by
  intro v s t
  have hnew : ∀ v ∈ asked alarmWaits, v.IsNew := by
    intro v hv
    rcases List.mem_cons.1 hv with rfl | hv
    · exact ⟨hum, rfl⟩
    · exact ⟨alarm, by rw [List.mem_singleton.1 hv]; rfl⟩
  have hwaits : s.next = some { vibration := .ofRequest 2 alarm } := by decide
  refine ⟨hnew, rfl, _, .inr ⟨hwaits, rfl⟩, by decide, by decide, by decide⟩

end Scheduler

end Haptics
