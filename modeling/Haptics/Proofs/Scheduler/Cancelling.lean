import Haptics.Proofs.Scheduler.Release

/-!
# A cancellation hits what it is meant for

A cancellation has a condition and a status. It looks at the vibration that waits, and then at the
one that holds the motor. Both cannot be live between two inputs: a vibration waits only behind one
that has been told to stop, and that one is left alone. So whoever is cancelled was live and
satisfied the condition, whoever was live and satisfied it is cancelled, and nobody takes a place
that becomes free by it (`Hits`).

* `hits_cancelWhere`: a cancellation between two inputs, and what it answers.
* `cancelling_hits_exactly`: the same in every state of every course, and what follows for the
  requests that cancel.
-/

namespace Haptics

namespace Scheduler

open Occurrence

variable {σ : Type} {c : Context σ} {s t u : Scheduler σ} {p : Playback} {status : Status}
  {condition : Vibration → Bool} {now : Nat}

/-! ## Who is there -/

/-- The vibrations that hold the motor or wait for it and have not ended. -/
def live (s : Scheduler σ) : List Playback :=
  (s.current.toList ++ s.next.toList).filter fun p => !p.vibration.hasEnded

/-- Whoever plays is the only one live. -/
theorem Plays.live_eq (h : s.Plays p) : s.live = [p] := by
  simp [live, h.current, h.next, h.runs.hasEnded]

/-- Behind a vibration that has been told to stop only those who wait are live. -/
theorem live_of_stops (hp : s.current = some p) (hst : p.Stops)
    (hw : ∀ q ∈ s.next, q.Untouched) : s.live = s.next.toList := by
  have hended : p.vibration.hasEnded = true := Status.isTerminal_of_isCancelled hst.cancelled
  cases hq : s.next with
  | none => simp [live, hp, hq, hended]
  | some q =>
    have hlive := Vibration.hasEnded_of_pending (hw q hq).pending
    simp [live, hp, hq, hended, hlive]

/-! ## What a cancellation hits -/

/-- What becomes of the vibrations when those that satisfy a condition are cancelled with a status:
from `s` to `t`. -/
structure Hits (condition : Vibration → Bool) (status : Status) (now : Nat) (s t : Scheduler σ) :
    Prop where
  /-- Whoever is live now was so before, and does not satisfy the condition. -/
  spared : ∀ p ∈ t.live, p ∈ s.live ∧ condition p.vibration = false
  /-- Whoever was live and satisfied it has ended with the status. -/
  ended : ∀ p ∈ s.live, condition p.vibration = true →
    t.Ended (p.vibration.endedAs status now)
  /-- Whoever held the motor still does, if it did not satisfy the condition or was stopping. -/
  holder : ∀ p ∈ s.current, condition p.vibration = false ∨ p.stopping = true →
    t.current = some p
  /-- Whoever waited still does, if it did not satisfy the condition. -/
  waiter : ∀ q ∈ s.next, condition q.vibration = false → t.next = some q
  /-- Nobody is gone but those that are cancelled. -/
  gone : ∃ gone, t.retired = gone ++ s.retired ∧
    ∀ v ∈ gone, ∃ p ∈ s.live, condition p.vibration = true ∧ v = p.vibration.endedAs status now

/-- What a cancellation hits depends on the places only. -/
theorem Hits.of_stays {s' t' : Scheduler σ} (h : Hits condition status now s t) (hs : Stays s s')
    (ht : Stays t t') : Hits condition status now s' t' := by
  have hls : s'.live = s.live := by rw [live, hs.current, hs.next, live]
  have hlt : t'.live = t.live := by rw [live, ht.current, ht.next, live]
  refine ⟨?_, ?_, ?_, ?_, ?_⟩
  · rw [hlt, hls]
    exact h.spared
  · intro p hp hc
    rw [hls] at hp
    rw [Ended, ht.retired, ht.current]
    exact h.ended p hp hc
  · rw [hs.current, ht.current]
    exact h.holder
  · rw [hs.next, ht.next]
    exact h.waiter
  · rw [hls, hs.retired, ht.retired]
    exact h.gone

/-- Where nobody live satisfies the condition nothing happens. -/
theorem hits_self (h : ∀ p ∈ s.live, condition p.vibration = false) :
    Hits condition status now s s where
  spared p hp := ⟨hp, h p hp⟩
  ended p hp hc := by rw [h p hp] at hc; cases hc
  holder _ hp _ := hp
  waiter _ hq _ := hq
  gone := ⟨[], rfl, by simp⟩

/-- Where one vibration was alone, it is the one that is hit. -/
theorem Plays.hits_of_ended (h : s.Plays p) (hc : condition p.vibration = true)
    (hl : t.live = []) (he : t.Ended (p.vibration.endedAs status now)) (gone : List Vibration)
    (hr : t.retired = gone ++ s.retired)
    (hg : ∀ v ∈ gone, v = p.vibration.endedAs status now) : Hits condition status now s t where
  spared := by rw [hl]; simp
  ended := by
    rw [h.live_eq]
    intro p' hp' _
    rwa [List.mem_singleton.1 hp']
  holder := by
    rw [h.current]
    rintro _ ⟨⟩ hkept
    rw [hc, h.runs.stopping] at hkept
    simp at hkept
  waiter := by rw [h.next]; simp
  gone := by
    rw [h.live_eq]
    exact ⟨gone, hr, fun v hv => ⟨p, List.mem_singleton.2 rfl, hc, hg v hv⟩⟩

/-- A vibration that is alone ends when it is cancelled: it is gone, or has been told to stop. -/
theorem Plays.hits_cancelCurrent (h : s.Plays p) (hc : condition p.vibration = true)
    (hs : status.isCancelled = true) :
    Hits condition status c.now s (s.cancelCurrent c status).2 := by
  have ht := Status.isTerminal_of_isCancelled hs
  have hcancel := cancellation_cancelCurrent h.current h.runs.stopping c status
  generalize (s.cancelCurrent c status).2 = t at hcancel
  cases hcancel with
  | @halted line hf hl =>
    -- it has to be told to stop, and stays where it is
    obtain ⟨p', hp', hst, hv⟩ := stops_halted (c := c) line h.current h.runs hf hs
    generalize hu : ((s.finishCurrent c status).told line [.stop]).awaitStop c = u at hp'
    have hn : u.next = none := by rw [← hu]; exact h.next
    have hr : u.retired = s.retired := by
      rw [← hu]
      exact retired_told line [.stop] (s.finishCurrent c status)
    refine h.hits_of_ended hc ?_ (.inr ⟨p', hp', hst, hv⟩) [] hr (by simp)
    rw [live_of_stops hp' hst (by rw [hn]; simp), hn]
    rfl
  | @released line orders hl ho =>
    -- it can be gone at once
    have hplays : (s.told line orders).Plays p := ⟨h.current, h.runs, h.next, h.external⟩
    have hgone := hplays.release_ended (c := c) ht
    change ((s.finishCurrent c status).told line orders).release c = _ at hgone
    rw [hgone]
    refine h.hits_of_ended hc ?_ (.inl (List.mem_cons_self ..))
      [p.vibration.endedAs status c.now] ?_ (by simp)
    · simp [live, retire, h.next]
    · exact congrArg (_ :: ·) (retired_told line orders s)

/-- Whoever plays is cancelled, and the answer says so. -/
theorem Plays.fst_cancelCurrent (h : s.Plays p) (c : Context σ) (status : Status) :
    (s.cancelCurrent c status).1 = true := by
  cases hb : s.cancelCurrent c status with
  | mk cancelled t =>
    cases cancelled with
    | true => rfl
    | false =>
      have hst := (eq_and_stopping_of_cancelCurrent hb).2 p h.current
      rw [h.runs.stopping] at hst
      cases hst

/-- What is left of a vibration that waits when it is cancelled. -/
theorem hits_dropNext {q : Playback} (hp : s.current = some p) (hst : p.Stops)
    (hq : s.next = some q) (hu : q.Untouched) (hc : condition q.vibration = true)
    (hs : status.isTerminal = true) : Hits condition status c.now s (s.dropNext c status) := by
  have hlive : s.live = [q] := by
    rw [live_of_stops hp hst (by rw [hq]; rintro _ ⟨⟩; exact hu), hq]
    rfl
  have hended : p.vibration.hasEnded = true := Status.isTerminal_of_isCancelled hst.cancelled
  rw [dropNext_ended hq hu hs]
  constructor
  · simp [live, retire, hp, hended]
  · rw [hlive]
    intro q' hq' _
    rw [List.mem_singleton.1 hq']
    exact .inl (List.mem_cons_self ..)
  · exact fun _ hp' _ => hp'
  · rw [hq]
    rintro _ ⟨⟩ hc'
    rw [hc] at hc'
    cases hc'
  · rw [hlive]
    exact ⟨[_], rfl, fun v hv => ⟨q, List.mem_singleton.2 rfl, hc, List.mem_singleton.1 hv⟩⟩

/-- **A cancellation hits exactly the live vibrations that satisfy its condition**, and answers how
many they were. -/
theorem hits_cancelWhere (h : s.Settled) (hs : status.isCancelled = true)
    (condition : Vibration → Bool) :
    let answer := s.cancelWhere c status condition
    Hits condition status c.now s answer.2 ∧
      answer.1 = s.live.countP fun p => condition p.vibration := by
  intro answer
  -- at most one vibration is live: the one that plays, or who waits for one that is stopping
  rcases h.cases with ⟨hp, hq⟩ | ⟨p, hplays⟩ | ⟨p, hp, hst, hw⟩
  · have ha : answer = (0, s) := by simp [answer, cancelWhere, nextMatches, currentMatches, hp, hq]
    have hl : s.live = [] := by simp [live, hp, hq]
    rw [ha, hl]
    exact ⟨hits_self (by rw [hl]; simp), rfl⟩
  · cases hc : condition p.vibration with
    | true =>
      have ha : answer = (1, (s.cancelCurrent c status).2) := by
        have hfst := hplays.fst_cancelCurrent c status
        simp [answer, cancelWhere, nextMatches, currentMatches, hplays.next, hplays.current,
          hplays.runs.stopping, hc, hfst]
      rw [ha, hplays.live_eq]
      exact ⟨hplays.hits_cancelCurrent hc hs, by simp [hc]⟩
    | false =>
      have ha : answer = (0, s) := by
        simp [answer, cancelWhere, nextMatches, currentMatches, hplays.next, hplays.current, hc]
      rw [ha, hplays.live_eq]
      exact ⟨hits_self (by rw [hplays.live_eq]; simpa using hc), by simp [hc]⟩
  · have hmatches : s.currentMatches condition = false := by
      simp [currentMatches, hp, hst.stopping]
    have hl := live_of_stops hp hst hw
    cases hc : s.next.any fun q => condition q.vibration with
    | true =>
      obtain ⟨q, hq, hcq⟩ := (Option.any_eq_true _ _).1 hc
      have hmatches' : (s.dropNext c status).currentMatches condition = false := by
        rw [currentMatches, current_dropNext]
        exact hmatches
      have ha : answer = (1, s.dropNext c status) := by
        simp [answer, cancelWhere, nextMatches, hc, hmatches']
      rw [ha, hl, show s.next = some q from hq]
      have ht := Status.isTerminal_of_isCancelled hs
      exact ⟨hits_dropNext hp hst hq (hw q hq) hcq ht, by simp [hcq]⟩
    | false =>
      have hnone : ∀ q ∈ s.live, condition q.vibration = false := by
        rw [hl]
        simpa [Option.any_eq_false] using hc
      have ha : answer = (0, s) := by
        simp [answer, cancelWhere, nextMatches, hc, hmatches]
      rw [ha]
      refine ⟨hits_self hnone, ?_⟩
      rw [eq_comm, List.countP_eq_zero]
      simpa using hnone

/-! ## The requests that cancel -/

/-- **An errand leaves every vibration where it is.** -/
theorem Errands.stays {b : Bool} (h : Errands c b s t) : Stays s t := by
  induction h with
  | refl => exact .refl s
  | @tail u _ _ he ih =>
    refine ih.trans ?_
    cases he with
    | talked ht ho hs => exact stays_told ..
    | noted callState alwaysOn => exact ⟨rfl, rfl, rfl⟩
    | ended hb hs =>
      unfold endExternal
      split
      · exact .refl u
      · split
        · have hd := dispatch_issueIfConnected c (.externalControl false) u
          generalize u.issueIfConnected c _ = answer at hd
          cases hd with
          | taken ht reported => exact (stays_told ..).trans ⟨rfl, rfl, rfl⟩
          | refused ht e => exact (stays_told ..).trans ⟨rfl, rfl, rfl⟩
        · exact ⟨rfl, rfl, rfl⟩

/-- A client reaches the vibrations of its token whose usage its filter accepts. -/
theorem hits_cancel (h : s.Settled) (filter : UsageFilter) (token : Nat) :
    Hits (fun v => v.token = token && filter.accepts v.usage) .cancelledByUser c.now s
      (s.cancel c filter token).2 := by
  have hs : Status.isCancelled .cancelledByUser = true := rfl
  have hw := (hits_cancelWhere (c := c) h hs fun v =>
    v.token = token && filter.accepts v.usage).1
  unfold cancel
  simp only
  split
  · exact hw.of_stays (.refl s) (errands_endExternal c rfl _).stays
  · exact hw

/-- New settings reach the vibrations that they mute. -/
theorem hits_settingsChanged (h : s.Settled) :
    Hits (fun v => c.policy.mutes v.uid v.attributes) .cancelledBySettingsUpdate c.now s
      (s.settingsChanged c).2 :=
  (hits_cancelWhere (c := c) h rfl fun v => c.policy.mutes v.uid v.attributes).1.of_stays
    (.refl s) (errands_refreshAlwaysOn c false _).stays

/-- Only a telephone that is used for a call ends streams. -/
theorem hits_setCallState (h : s.Settled) (state : CallState) :
    Hits (fun v => state.isCalling && v.effect.isStream) .cancelledBySettingsUpdate c.now s
      (s.setCallState c state).2 := by
  have hn : Stays s { s with callState := state } := ⟨rfl, rfl, rfl⟩
  have hn' : Stays { s with callState := state } s := ⟨rfl, rfl, rfl⟩
  unfold setCallState
  cases state.isCalling with
  | true =>
    have hs : ({ s with callState := state } : Scheduler σ).Settled := h.of_places rfl rfl rfl
    simp only [if_true, Bool.true_and]
    exact (hits_cancelWhere hs rfl _).1.of_stays hn' (.refl _)
  | false =>
    simp only [Bool.false_eq_true, if_false, Bool.false_and]
    exact (hits_self fun _ _ => rfl).of_stays (.refl s) hn

/-! ## In every state of every course -/

/-- **Cancelling hits exactly the vibrations that it is meant for**, in every state of every
course.

* Whatever the condition, and whatever the status of a cancellation: nobody who is live afterwards
  satisfies the condition; everybody who was live and satisfied it has ended with the status, and
  the answer is how many they were; everybody else stands where it stood.
* So it is with the requests that cancel: that of a client reaches the vibrations of its token whose
  usage its filter accepts; a dark screen those that end with it; new settings those that they mute;
  a call the streams.
* The request of a client leaves the vibrations of every other token alone. -/
theorem cancelling_hits_exactly (c : Context σ) (actuator : σ) (os : List (Occurrence σ))
    (h : ∀ v ∈ asked os, v.IsNew) (policy : Policy) (now : Nat) :
    let s := after c actuator os
    let d := { c with policy, now }
    (∀ status : Status, status.isCancelled = true → ∀ condition : Vibration → Bool,
      let answer := s.cancelWhere d status condition
      Hits condition status now s answer.2 ∧
        answer.1 = s.live.countP fun p => condition p.vibration) ∧
    (∀ filter token,
      let t := (s.cancel d filter token).2
      Hits (fun v => v.token = token && filter.accepts v.usage) .cancelledByUser now s t ∧
        (∀ p ∈ s.current, p.vibration.token ≠ token → t.current = some p) ∧
        ∀ q ∈ s.next, q.vibration.token ≠ token → t.next = some q) ∧
    Hits (fun v => policy.endsOnScreenOff v.uid v.attributes) .cancelledByScreenOff now s
      (s.screenOff d).2 ∧
    Hits (fun v => policy.mutes v.uid v.attributes) .cancelledBySettingsUpdate now s
      (s.settingsChanged d).2 ∧
    ∀ state : CallState,
      Hits (fun v => state.isCalling && v.effect.isStream) .cancelledBySettingsUpdate now s
        (s.setCallState d state).2 := by
  intro s d
  have hs : s.Settled := settled_after c actuator h
  refine ⟨fun status hc condition => hits_cancelWhere (c := d) hs hc condition,
    fun filter token => ?_, (hits_cancelWhere (c := d) hs rfl _).1,
    hits_settingsChanged (c := d) hs, fun state => hits_setCallState (c := d) hs state⟩
  have hhits := hits_cancel (c := d) hs filter token
  exact ⟨hhits, fun p hp hne => hhits.holder p hp (.inl (by simp [hne])),
    fun q hq hne => hhits.waiter q hq (by simp [hne])⟩

/-- The push that waits is cancelled for its client: it is gone, nothing live is left, and the
stream in front of it, which has been told to stop, still holds the motor. -/
theorem cancelling_hits_exactly_preemption :
    (∀ v ∈ asked preemption, v.IsNew) ∧ Status.isCancelled .cancelledByUser = true ∧
    let s := after onBench bench preemption
    let d := { onBench with policy := .permissive, now := 6 }
    let condition (v : Vibration) : Bool := v.token = 2
    let answer := s.cancelWhere d .cancelledByUser condition
    (answer.1 = 1 ∧ answer.2.live = [] ∧ answer.2.current = s.current ∧
      answer.2.retired.map (·.id) = [2]) ∧
    Hits condition .cancelledByUser 6 s answer.2 ∧
      answer.1 = s.live.countP fun p => condition p.vibration :=
  ⟨proper_completion.of_append.new, rfl, by decide,
    (cancelling_hits_exactly onBench bench preemption proper_completion.of_append.new
      .permissive 6).1 .cancelledByUser rfl fun v => v.token = 2⟩

end Scheduler

end Haptics
