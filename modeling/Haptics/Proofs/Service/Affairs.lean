import Haptics.Service
import Haptics.Proofs.Scheduler.Relay

/-!
# The affairs of a service

Clients call a service, the actuator moves by itself and is heard, deadlines come: these are the
*affairs* of a service, each at its own time and under the policy of that time. For the scheduler
nothing has occurred then, or one thing has; a request comes under the number that is given out next
(`Stirs`).

* `called_call`, `requested_vibrate`: what comes of a call, and of a request.
* `exists_call_of_input?`: most affairs are calls, each with its input for the scheduler.
* `stirs_undergo`, `stirs_undergoAll`: an affair stirs the scheduler, and so do affairs in turn.
* `handleEvents_eq_undergoAll`: to handle the events of the actuator is to hear one after another.
-/

namespace Haptics

variable {σ α : Type}

/-- A time, and the policy at that time. -/
structure Instant where
  /-- The policy at that time. -/
  policy : Policy
  /-- The time. -/
  now : Nat

/-- The context of a call at some time: the actuator and the configuration stay. -/
def Context.asOf (c : Context σ) (i : Instant) : Context σ :=
  { c with policy := i.policy, now := i.now }

namespace Occurrence

/-- Somebody asks for a vibration, which gets a number. -/
def ofRequest (i : Instant) (id : Nat) (r : VibrationRequest) : Occurrence σ :=
  .handled ⟨i.policy, i.now, .vibrate (.ofRequest id r)⟩

variable {os : List (Occurrence σ)} {n : Nat}

/-- A course stays proper when a vibration gets a number beyond those given out. -/
theorem Proper.concat_ofRequest (h : Proper os) (hlt : ∀ v ∈ asked os, v.id < n) (i : Instant)
    (r : VibrationRequest) : Proper (os ++ [ofRequest i n r]) :=
  h.concat_of_some rfl ⟨r, rfl⟩ fun w hw => (hlt w hw).ne

/-- A request under the next number leaves all numbers below the one after it. -/
theorem lt_of_mem_asked_concat (hlt : ∀ v ∈ asked os, v.id < n) (i : Instant)
    (r : VibrationRequest) : ∀ v ∈ asked (os ++ [ofRequest i n r]), v.id < n + 1 := by
  intro v hv
  rw [asked_concat] at hv
  rcases List.mem_append.1 hv with hv | hv
  · exact (hlt v hv).trans (Nat.lt_succ_self n)
  · cases List.mem_singleton.1 hv
    exact Nat.lt_succ_self n

end Occurrence

/-- What can happen to a service. -/
inductive Affair (σ α : Type) where
  /-- The actuator moves by itself. -/
  | moved (actuator : σ)
  /-- The oldest event of the actuator that waits is heard. -/
  | heard
  /-- A deadline comes. -/
  | deadline
  | vibrate (request : VibrationRequest)
  | submit (packet : Stream)
  | cancel (filter : UsageFilter) (token : Nat)
  | screenOff
  | settingsChanged
  | setCallState (state : CallState)
  | startExternal (request : ExternalRequest)
  | giveUp (id : Nat) (scale : ExternalScale)
  | stopExternal (id : Nat)
  | setAlwaysOn (request : AlwaysOnRequest)
  | updateControls (controls : Controls) (token : Option Nat)
  | setMode (mode : Word)
  | actuatorInfo
  | dump
  | takeSequence
  | takeToken
  | register (listener : α)
  | unregister (id : Nat)
  | shutdown

/-- The streams that an affair brings. -/
def Affair.brings : Affair σ α → List Stream
  | vibrate r => r.effect.stream?.toList
  | submit packet => [packet]
  | _ => []

/-- What the scheduler is asked in an affair that is a call and nothing else. -/
def Affair.input? : Affair σ α → Option Input
  | submit packet => some (.packet packet)
  | cancel filter token => some (.cancel filter token)
  | screenOff => some .screenOff
  | settingsChanged => some .settingsChanged
  | setCallState state => some (.callState state)
  | startExternal r => some (.startExternal r)
  | giveUp id _ => some (.externalTimedOut id)
  | stopExternal id => some (.stopExternal id)
  | setAlwaysOn r => some (.setAlwaysOn r)
  | updateControls controls token => some (.updateControls controls token)
  | setMode mode => some (.setMode mode)
  | actuatorInfo => some .askInfo
  | _ => none

/-- A call lets in no vibration, and brings the streams that the affair brings. -/
theorem Affair.quiet_of_input? {a : Affair σ α} {input : Input} (h : a.input? = some input)
    (i : Instant) :
    let o : Occurrence σ := .handled ⟨i.policy, i.now, input⟩
    o.asks = none ∧ o.brings = a.brings := by
  cases a <;> cases h <;> exact ⟨rfl, rfl⟩

/-- An affair at its time. -/
structure Occasion (σ α : Type) where
  /-- When it happens, and what the policy is then. -/
  instant : Instant
  /-- What happens. -/
  affair : Affair σ α

namespace Service

open Occurrence

/-- The service after an affair. -/
def undergo (c : Context σ) (s : Service σ α) : Affair σ α → Service σ α
  | .moved actuator =>
    { s with scheduler := { s.scheduler with line := { s.scheduler.line with actuator } } }
  | .heard => (s.handleEvent? c).getD s
  | .deadline => s.handleDeadline c
  | .vibrate r => (s.vibrate c r).2
  | .submit packet => (s.submit c packet).2
  | .cancel filter token => (s.cancel c filter token).2
  | .screenOff => (s.screenOff c).2
  | .settingsChanged => (s.settingsChanged c).2
  | .setCallState state => (s.setCallState c state).2
  | .startExternal r => (s.startExternal c r).2
  | .giveUp id scale => (s.giveUp c id scale).2
  | .stopExternal id => (s.stopExternal c id).2
  | .setAlwaysOn r => (s.setAlwaysOn c r).2
  | .updateControls controls token => (s.updateControls c controls token).2
  | .setMode mode => (s.setMode c mode).2
  | .actuatorInfo => (s.actuatorInfo c).2
  | .dump => s.dump.2
  | .takeSequence => s.takeSequence.2
  | .takeToken => s.takeToken.2
  | .register listener => (s.register listener).2
  | .unregister id => (s.unregister id).2
  | .shutdown => s.shutdown c

/-- The service after affairs in turn. -/
def undergoAll (c : Context σ) (occasions : List (Occasion σ α)) (s : Service σ α) :
    Service σ α :=
  occasions.foldl (fun s o => s.undergo (c.asOf o.instant) o.affair) s

/-- Events are handled one by one. -/
theorem handleEvents_succ (c : Context σ) (limit : Nat) (s : Service σ α) :
    s.handleEvents c (limit + 1) = ((s.handleEvent? c).getD s).handleEvents c limit := by
  rw [handleEvents]
  cases he : s.handleEvent? c with
  | some t => rfl
  | none =>
    -- nothing is left to be heard, however often one listens
    cases limit with
    | zero => rfl
    | succ limit =>
      rw [Option.getD_none, handleEvents, he]

/-- To handle the events of the actuator is to hear one after another. -/
theorem handleEvents_eq_undergoAll (c : Context σ) (i : Instant) (limit : Nat) (s : Service σ α) :
    s.handleEvents (c.asOf i) limit = s.undergoAll c (List.replicate limit ⟨i, .heard⟩) := by
  induction limit generalizing s with
  | zero => rfl
  | succ limit ih =>
    rw [handleEvents_succ, ih]
    rfl

/-! ## Calls -/

section calls

variable {s : Service σ α} {β : Type}

/-- What comes of a call: the scheduler does not answer, or it answers and goes on. -/
inductive Called (f : Scheduler σ → β × Scheduler σ) (s : Service σ α) :
    Except ServiceError β × Service σ α → Prop where
  | stopped (e : ServiceError) : Called f s (.error e, s)
  | answered {t : Service σ α} (hs : t.scheduler = (f s.scheduler).2)
      (hn : t.nextVibration = s.nextVibration) : Called f s (.ok (f s.scheduler).1, t)

/-- A call is answered, or the service has stopped. -/
theorem called_call (f : Scheduler σ → β × Scheduler σ) (s : Service σ α) :
    Called f s (s.call f) := by
  unfold call
  split
  · exact .answered rfl rfl
  · exact .stopped _

/-- **An affair that is a call** comes to the scheduler as its input, whatever the service makes of
the answer. -/
theorem exists_call_of_input? {a : Affair σ α} {input : Input} (h : a.input? = some input)
    (c : Context σ) (s : Service σ α) :
    ∃ (β : Type) (f : Scheduler σ → β × Scheduler σ),
      s.undergo c a = (s.call f).2 ∧ ∀ t, (f t).2 = t.step c input := by
  cases a with
  | giveUp id scale =>
    cases h
    refine ⟨_, fun t => t.externalTimedOut c id, ?_, fun _ => rfl⟩
    rw [undergo, giveUp]
    split <;> next h => rw [h]
  | stopExternal id =>
    cases h
    refine ⟨_, fun t => t.stopExternal c id, ?_, fun _ => rfl⟩
    rw [undergo, stopExternal]
    split <;> next h => rw [h]
  | setMode mode =>
    cases h
    refine ⟨_, fun t => t.setMode c mode, ?_, fun _ => rfl⟩
    rw [undergo, setMode]
    split <;> next h => rw [h]
  | _ => cases h <;> exact ⟨_, _, rfl, fun _ => rfl⟩

/-- What comes of a request: it is turned away before the scheduler sees it, or the scheduler does
not answer; or it is placed under the next number. -/
inductive Requested (c : Context σ) (r : VibrationRequest) (s : Service σ α) :
    Except ServiceError VibrationReport × Service σ α → Prop where
  | failed {t : Service σ α} (e : ServiceError) (hs : t.scheduler = s.scheduler)
      (hn : s.nextVibration ≤ t.nextVibration) : Requested c r s (.error e, t)
  | placed {t : Service σ α} (status : Status)
      (hs : t.scheduler = (s.scheduler.vibrate c (.ofRequest s.nextVibration r)).2)
      (hn : t.nextVibration = s.nextVibration + 1) :
      Requested c r s (.ok { id := s.nextVibration, status }, t)

/-- A request fails before it has come to the scheduler, or is placed. -/
theorem requested_vibrate (c : Context σ) (r : VibrationRequest) (s : Service σ α) :
    Requested c r s (s.vibrate c r) := by
  unfold vibrate
  split
  · exact .failed _ rfl (Nat.le_refl _)
  · have hcalled := called_call (fun t => t.vibrate c (.ofRequest s.nextVibration r))
      { s with nextVibration := s.nextVibration + 1 }
    simp only
    generalize Service.call _ _ = answer at hcalled
    cases hcalled with
    | stopped e => exact .failed e rfl (Nat.le_succ _)
    | answered hs hn => exact .placed _ hs hn

end calls

/-! ## What an affair is for the scheduler -/

/-- One service comes from another: nothing has occurred to its scheduler, or one thing that brings
only streams of some kind, or a request of that kind under the next number. -/
inductive Stirs (c : Context σ) (P : Stream → Prop) (s t : Service σ α) : Prop where
  | idle (hs : t.scheduler = s.scheduler) (hn : s.nextVibration ≤ t.nextVibration)
  | occurred (o : Occurrence σ) (hs : t.scheduler = s.scheduler.undergo c o)
      (hn : t.nextVibration = s.nextVibration) (ho : o.asks = none) (hb : ∀ st ∈ o.brings, P st)
  | requested (i : Instant) (r : VibrationRequest)
      (hs : t.scheduler = s.scheduler.undergo c (ofRequest i s.nextVibration r))
      (hn : t.nextVibration = s.nextVibration + 1) (hb : ∀ st ∈ r.effect.stream?, P st)

section stirs

variable {c : Context σ} {P : Stream → Prop} {s t : Service σ α}

/-- The next number never goes back. -/
theorem Stirs.grows (h : Stirs c P s t) : s.nextVibration ≤ t.nextVibration := by
  cases h with
  | idle hs hn => exact hn
  | occurred o hs hn ho hb => exact hn.ge
  | requested i r hs hn hb => exact hn.ge.trans' (Nat.le_succ _)

/-- Nor does it in the long run. -/
theorem grows_of_stirs (h : Relation.ReflTransGen (Stirs c P) s t) :
    s.nextVibration ≤ t.nextVibration := by
  induction h with
  | refl => exact Nat.le_refl _
  | tail _ hstep ih => exact ih.trans hstep.grows

/-- A call that hands an input to the scheduler. -/
theorem Called.stirs {β : Type} {f : Scheduler σ → β × Scheduler σ}
    {answer : Except ServiceError β × Service σ α} (h : Called f s answer) (happening : Happening)
    (hf : (f s.scheduler).2 = s.scheduler.undergo c (.handled happening))
    (ha : (Occurrence.handled happening : Occurrence σ).asks = none)
    (hb : ∀ st ∈ (Occurrence.handled happening : Occurrence σ).brings, P st) :
    Stirs c P s answer.2 := by
  cases h with
  | stopped e => exact .idle rfl (Nat.le_refl _)
  | answered hs hn => exact .occurred _ (hs.trans hf) hn ha hb

/-- To look at the scheduler stirs nothing. -/
theorem Called.stirs_dump {answer : Except ServiceError Dump × Service σ α}
    (h : Called (fun t => (t.dump, t)) s answer) : Stirs c P s answer.2 := by
  cases h with
  | stopped e => exact .idle rfl (Nat.le_refl _)
  | answered hs hn => exact .idle hs hn.ge

/-- A request for a vibration stirs the scheduler with its own stream only. -/
theorem stirs_vibrate (i : Instant) {r : VibrationRequest} (hb : ∀ st ∈ r.effect.stream?, P st)
    (s : Service σ α) : Stirs c P s (s.vibrate (c.asOf i) r).2 := by
  have h := requested_vibrate (c.asOf i) r s
  generalize s.vibrate (c.asOf i) r = answer at h
  cases h with
  | failed e hs hn => exact .idle hs hn
  | placed status hs hn => exact .requested i r hs hn hb

/-- To hear an event is to let the actuator move and to handle the event. -/
theorem stirs_handleEvent? (i : Instant) (h : s.handleEvent? (c.asOf i) = some t) :
    Relation.ReflTransGen (Stirs c P) s t := by
  unfold handleEvent? at h
  split at h
  · obtain ⟨⟨event, heard⟩, he, rfl⟩ := Option.map_eq_some_iff.1 h
    obtain ⟨⟨event', actuator⟩, -, heq⟩ := Option.map_eq_some_iff.1 he
    cases heq
    have hmoved : Stirs c P s { s with scheduler := s.scheduler.undergo c (.moved actuator) } :=
      .occurred (.moved actuator) rfl rfl rfl (List.forall_mem_nil _)
    refine (Relation.ReflTransGen.single hmoved).tail ?_
    exact .occurred (.handled ⟨i.policy, i.now, .event event⟩) rfl rfl rfl (List.forall_mem_nil _)
  · cases h

/-- So does a deadline, with none. -/
theorem stirs_handleDeadline (i : Instant) (s : Service σ α) :
    Stirs c P s (s.handleDeadline (c.asOf i)) := by
  unfold handleDeadline
  split
  · exact .occurred (.handled ⟨i.policy, i.now, .deadline⟩) rfl rfl rfl (List.forall_mem_nil _)
  · exact .idle rfl (Nat.le_refl _)

/-- So does the end, with none. -/
theorem stirs_shutdown (i : Instant) (s : Service σ α) :
    Stirs c P s (s.shutdown (c.asOf i)) := by
  unfold shutdown
  split
  · exact .occurred (.stopped i.now) rfl rfl rfl (List.forall_mem_nil _)
  · exact .idle rfl (Nat.le_refl _)

/-- **An affair stirs the scheduler**, with no other streams than it brings. -/
theorem stirs_undergo (i : Instant) {a : Affair σ α} (hb : ∀ st ∈ a.brings, P st)
    (s : Service σ α) :
    Relation.ReflTransGen (Stirs c P) s (s.undergo (c.asOf i) a) := by
  cases hi : a.input? with
  | some input =>
    obtain ⟨β, f, hf, hstep⟩ := exists_call_of_input? hi (c.asOf i) s
    obtain ⟨ha, hbrings⟩ := Affair.quiet_of_input? hi i
    rw [hf]
    refine .single ((called_call f s).stirs ⟨i.policy, i.now, input⟩ (hstep s.scheduler) ha ?_)
    rwa [hbrings]
  | none =>
    have hnone : ∀ st ∈ ([] : List Stream), P st := List.forall_mem_nil _
    cases a with
    | moved actuator => exact .single (.occurred (.moved actuator) rfl rfl rfl hnone)
    | heard =>
      change Relation.ReflTransGen _ s ((s.handleEvent? (c.asOf i)).getD s)
      cases he : s.handleEvent? (c.asOf i) with
      | none => exact .refl
      | some t => exact stirs_handleEvent? i he
    | deadline => exact .single (stirs_handleDeadline i s)
    | vibrate r => exact .single (stirs_vibrate i (fun st hst => hb st (Option.mem_toList.2 hst)) s)
    | dump => exact .single (called_call _ s).stirs_dump
    | takeSequence => exact .single (.idle rfl (Nat.le_refl _))
    | takeToken => exact .single (.idle rfl (Nat.le_refl _))
    | register listener => exact .single (.idle rfl (Nat.le_refl _))
    | unregister id => exact .single (.idle rfl (Nat.le_refl _))
    | shutdown => exact .single (stirs_shutdown i s)
    | _ => cases hi

/-- **So do affairs in turn**, with no other streams than they bring. -/
theorem stirs_undergoAll {occasions : List (Occasion σ α)}
    (hb : ∀ o ∈ occasions, ∀ st ∈ o.affair.brings, P st) (s : Service σ α) :
    Relation.ReflTransGen (Stirs c P) s (s.undergoAll c occasions) := by
  induction occasions generalizing s with
  | nil => exact .refl
  | cons o rest ih =>
    obtain ⟨hfirst, hrest⟩ := List.forall_mem_cons.1 hb
    exact (stirs_undergo o.instant hfirst s).trans (ih hrest _)

end stirs

end Service

end Haptics
