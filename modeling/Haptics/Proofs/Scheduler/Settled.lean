import Haptics.Proofs.Scheduler.Change
import Haptics.Proofs.Scheduler.Conduct

/-!
# Who is where between two inputs

Between two inputs a scheduler is *settled* (`Scheduler.Settled`): the vibration that holds the
motor runs or has been told to stop; one waits only behind one that has been told to stop; and a
session has the motor alone, or waits for a vibration that has been told to stop, with no vibration
waiting beside it.

Every operation leads by changes from a settled state to a settled one (`Settles`). While it is
under way a state may only be *yielding* (`Yields`): the motor is about to be given up, so whoever
holds it no longer counts.

* `settles_release`: giving up the motor settles a yielding state.
-/

namespace Haptics.Scheduler

variable {σ : Type}

/-! ## Settled and yielding states -/

/-- Who may be where between two inputs. -/
structure Settled (s : Scheduler σ) : Prop where
  /-- The vibration that holds the motor runs, or has been told to stop. -/
  holder : ∀ p ∈ s.current, p.Runs ∨ p.Stops
  /-- A step of it is in flight. -/
  engaged : ∀ p ∈ s.current, p.stage.isSome = true
  /-- One waits only behind a vibration that has been told to stop. -/
  waiting : ∀ q ∈ s.next, q.Untouched ∧ ∃ p ∈ s.current, p.Stops
  /-- A session keeps vibrations from waiting. It has the motor alone, or waits for a vibration that
  has been told to stop. -/
  session : ∀ e ∈ s.external,
    s.next = none ∧ if e.active then s.current = none else ∃ p ∈ s.current, p.Stops
  /-- Its step has a deadline, unless it is a stream without a duration or has been told to stop. -/
  timed : ∀ p ∈ s.current, p.stopping = false → p.deadline = none → p.Endless

/-- The motor can be given up: to a session that waits, or else to a vibration that waits. -/
structure Yields (leave : Playback → Prop) (s : Scheduler σ) : Prop where
  waiting : ∀ q ∈ s.next, q.Untouched
  session : ∀ e ∈ s.external, e.active = false ∧ s.next = none
  leave : ∀ p ∈ s.current, p.stopping = true → leave p

/-- Nobody holds the motor but perhaps a session, and then no vibration waits. -/
structure Vacant (s : Scheduler σ) : Prop where
  current : s.current = none
  waiting : ∀ q ∈ s.next, q.Untouched
  session : ∀ e ∈ s.external, e.active = true ∧ s.next = none

/-- A vibration runs, and there is nobody else. -/
structure Plays (s : Scheduler σ) (p : Playback) : Prop where
  current : s.current = some p
  runs : p.Runs
  next : s.next = none
  external : s.external = none

/-- A vibration that has not been told to stop is about to go, and there is nobody else. -/
structure Over (s : Scheduler σ) : Prop where
  current : ∀ p ∈ s.current, p.stopping = false
  next : s.next = none
  external : s.external = none

/-- Changes lead from one state to another, which is settled. -/
structure Settles (c : Context σ) (leave : Playback → Prop) (s t : Scheduler σ) : Prop where
  reaches : Reaches c leave s t
  settled : t.Settled

section places

variable {leave : Playback → Prop} {s t : Scheduler σ} {p : Playback}

/-- Whether a state is settled depends on the places only. -/
theorem Settled.of_places (h : s.Settled) (hc : t.current = s.current) (hn : t.next = s.next)
    (he : t.external = s.external) : t.Settled where
  holder := by rw [hc]; exact h.holder
  engaged := by rw [hc]; exact h.engaged
  waiting := by rw [hn, hc]; exact h.waiting
  session := by rw [he, hn, hc]; exact h.session
  timed := by rw [hc]; exact h.timed

/-- A vibration that plays with a step in flight is settled. -/
theorem Plays.settled (h : s.Plays p) (hs : p.stage.isSome = true)
    (ht : p.deadline = none → p.Endless) : s.Settled where
  holder := by
    rw [h.current]
    rintro _ ⟨⟩
    exact .inl h.runs
  engaged := by
    rw [h.current]
    rintro _ ⟨⟩
    exact hs
  waiting := by rw [h.next]; simp
  session := by rw [h.external]; simp
  timed := by
    rw [h.current]
    rintro _ ⟨⟩ _
    exact ht

/-- A vibration that is over can give up the motor. -/
theorem Over.yields (h : s.Over) : s.Yields leave where
  waiting := by rw [h.next]; simp
  session := by rw [h.external]; simp
  leave p hp hs := by rw [h.current p hp] at hs; cases hs

/-- A vibration that has not been told to stop is alone in a settled state, and runs. -/
theorem Settled.plays (h : s.Settled) (hp : s.current = some p) (hr : p.stopping = false) :
    s.Plays p := by
  have hnone : ∀ p' ∈ s.current, ¬ p'.Stops := by
    intro p' hp' hs
    cases hp.symm.trans hp'
    rw [hs.stopping] at hr
    cases hr
  constructor
  · exact hp
  · exact (h.holder p hp).resolve_right (hnone p hp)
  · refine Option.eq_none_iff_forall_not_mem.2 fun q hq => ?_
    obtain ⟨-, p', hp', hs⟩ := h.waiting q hq
    exact hnone p' hp' hs
  · refine Option.eq_none_iff_forall_not_mem.2 fun e he => ?_
    have hs := (h.session e he).2
    split at hs
    · rw [hp] at hs
      cases hs
    · obtain ⟨p', hp', hs⟩ := hs
      exact hnone p' hp' hs

/-- Where the holder of the motor has been told to stop, others may wait. -/
theorem Settled.of_stops (hp : s.current = some p) (hst : p.Stops)
    (hw : ∀ q ∈ s.next, q.Untouched) (he : ∀ e ∈ s.external, e.active = false ∧ s.next = none) :
    s.Settled := by
  constructor
  · intro p' hp'
    cases hp.symm.trans hp'
    exact .inr hst
  · intro p' hp'
    cases hp.symm.trans hp'
    rw [beq_iff_eq.1 hst.inFlight]
    rfl
  · intro q hq
    exact ⟨hw q hq, p, hp, hst⟩
  · intro e hm
    obtain ⟨ha, hn⟩ := he e hm
    refine ⟨hn, ?_⟩
    rw [if_neg (by simp [ha])]
    exact ⟨p, hp, hst⟩
  · intro p' hp' hs
    cases hp.symm.trans hp'
    rw [hst.stopping] at hs
    cases hs

/-- A vibration that has been told to stop and may go leaves a yielding state. -/
theorem Settled.yields (h : s.Settled) (hp : s.current = some p)
    (hl : p.stopping = true → leave p) : s.Yields leave where
  waiting q hq := (h.waiting q hq).1
  session e he := by
    obtain ⟨hn, hs⟩ := h.session e he
    split at hs
    · rw [hp] at hs; cases hs
    · next ha => exact ⟨by simpa using ha, hn⟩
  leave p' hp' := by rw [hp] at hp'; cases hp'; exact hl

/-- A motor that is free is settled where nobody waits. -/
theorem Vacant.settled (h : s.Vacant) (hn : s.next = none) : s.Settled where
  holder := by rw [h.current]; simp
  engaged := by rw [h.current]; simp
  waiting := by rw [hn]; simp
  session e he := by simp [hn, (h.session e he).1, h.current]
  timed := by rw [h.current]; simp

end places

section Settles

variable {c : Context σ} {leave : Playback → Prop} {s t u : Scheduler σ}

/-- Where nothing happens things stay settled. -/
theorem Settled.settles (h : s.Settled) : Settles c leave s s := ⟨.refl c leave s, h⟩

/-- Changes can come first. -/
theorem Reaches.settles (h : Reaches c leave s t) (h' : Settles c leave t u) :
    Settles c leave s u := ⟨h.trans h'.reaches, h'.settled⟩

/-- What settles twice in turn settles. -/
theorem Settles.trans (h : Settles c leave s t) (h' : Settles c leave t u) :
    Settles c leave s u := h.reaches.settles h'

/-- A talk leaves a state settled. -/
theorem Settled.settles_told (h : s.Settled) {line : Line σ} {orders : List Order}
    (ht : Talk c s.line orders line) (hp : ∀ o ∈ orders, s.Permits leave o) :
    Settles c leave s (s.told line orders) :=
  ⟨reaches_told ht hp, h.of_places rfl rfl rfl⟩

end Settles

/-! ## The end of a vibration -/

section ends

variable (c : Context σ) (leave : Playback → Prop) (s : Scheduler σ)

/-- The end of whoever holds the motor is a change. -/
theorem reaches_finishCurrent {status : Status} (h : status.isTerminal = true) :
    Reaches c leave s (s.finishCurrent c status) := by
  cases hc : s.current with
  | none => rw [finishCurrent_of_none c hc]; exact .refl c leave s
  | some p =>
    rw [finishCurrent_of_some c hc]
    exact reaches_of_change fun _ => .turned hc (.ended h)

/-- The end of whoever waits is one, too. -/
theorem reaches_dropNext {status : Status} (h : status.isTerminal = true) :
    Reaches c leave s (s.dropNext c status) := by
  unfold dropNext
  cases hn : s.next with
  | none => exact .refl c leave s
  | some q => exact reaches_of_change fun _ => .dropped hn h

/-- Whoever holds the motor can go, if it may leave it. -/
theorem reaches_dropCurrent (h : ∀ p ∈ s.current, p.stopping = true → leave p) :
    Reaches c leave s (s.dropCurrent c) := by
  unfold dropCurrent
  cases hc : s.current with
  | none => exact .refl c leave s
  | some p => exact reaches_of_change fun _ => .left hc (h p hc)

end ends

/-! ## From step to step -/

section steps

variable {c : Context σ} {leave : Playback → Prop} {s : Scheduler σ} {p : Playback}

/-- What can come of the attempt to start the next step of a vibration: the step is in flight, there
is none, or it has failed after some of its orders. -/
inductive Started (c : Context σ) (s : Scheduler σ) (p : Playback) : Bool × Scheduler σ → Prop where
  | launched {line : Line σ} {step : Step} {cursor : Nat} {info : ActuatorInfo}
      (hn : p.nextStep = some (step, cursor))
      (ht : Talk c s.line (step.orders info p.id p.packets).reverse line) (reported : Nat) :
      Started c s p
        (false, { s.told line (step.orders info p.id p.packets).reverse with
          current := some
            (p.launch step cursor c.now (step.span reported c.config.prebakedFallbackMs)) })
  | exhausted (hn : p.nextStep = none) : Started c s p (true, s.finishCurrent c .finished)
  | failed {line : Line σ} {step : Step} {cursor : Nat} {info : ActuatorInfo} {given : List Order}
      (hn : p.nextStep = some (step, cursor)) (ht : Talk c s.line given.reverse line)
      (hg : given <+: step.orders info p.id p.packets) :
      Started c s p (true, (s.told line given.reverse).failCurrent c)

/-- To launch a step is to give its orders in turn. -/
theorem dispatchAll_launch (c : Context σ) (p : Playback) (step : Step) (s : Scheduler σ) :
    ∃ info, DispatchAll c (step.orders info p.id p.packets) s (s.launch c p step) := by
  have ht : Talk c s.line [] (s.line.reach c.device).2 := .reach (.silence _)
  unfold launch
  rw [reach_eq]
  cases (s.line.reach c.device).1 with
  | error e =>
    exact ⟨⟨0, 0⟩, .refused [] ht List.nil_prefix e⟩
  | ok u =>
    refine ⟨c.device.info (s.line.reach c.device).2.actuator, ?_⟩
    exact (dispatchAll_issueAll c _ _).after ht

/-- The attempt to start a step comes to one of the three. -/
theorem started_startStep (hp : s.current = some p) : Started c s p (s.startStep c) := by
  unfold startStep
  rw [hp]
  cases hn : p.nextStep with
  | none => simpa only [hn] using .exhausted hn
  | some next =>
    obtain ⟨step, cursor⟩ := next
    obtain ⟨info, h⟩ := dispatchAll_launch c p step s
    simp only [hn]
    generalize s.launch c p step = answer at h
    cases h with
    | taken ht reported => exact .launched hn ht reported
    | refused given ht hg e => exact .failed hn ht hg

/-- A step is an affair between the vibration that holds the motor and the actuator. -/
theorem Started.frame {answer : Bool × Scheduler σ} (h : Started c s p answer) :
    answer.2.next = s.next ∧ answer.2.external = s.external := by
  cases h <;> exact ⟨rfl, rfl⟩

/-- The orders of a step are permitted while its vibration runs and there is no session. -/
theorem Plays.permits (h : s.Plays p) {step : Step} {info : ActuatorInfo} {packets : List Stream}
    {o : Order} (ho : o ∈ step.orders info p.id packets) : s.Permits leave o where
  starts id hid := by
    refine ⟨h.external, p, h.current, h.runs, ?_⟩
    rcases Step.owner_of_mem_orders ho with hn | hs
    · rw [hn] at hid; cases hid
    · rw [hs] at hid; exact Option.some.inj hid
  hands ho' := by
    subst ho'
    cases step <;> simp [Step.orders] at ho
  stops ho' := by
    subst ho'
    cases step <;> simp [Step.orders] at ho

/-- It is made of changes. -/
theorem Started.reaches {answer : Bool × Scheduler σ} (hs : Started c s p answer) (h : s.Plays p) :
    Reaches c leave s answer.2 := by
  cases hs with
  | launched hn ht reported =>
    refine (reaches_told ht fun o ho => ?_).trans
      (reaches_of_change fun _ => .turned h.current (.launched reported h.runs hn))
    exact h.permits (List.mem_reverse.1 ho)
  | exhausted hn => exact reaches_finishCurrent c leave s rfl
  | failed hn ht hg =>
    refine (reaches_told ht fun o ho => ?_).trans
      ((reaches_disconnect c leave _).trans (reaches_finishCurrent c leave _ rfl))
    exact h.permits (hg.subset (List.mem_reverse.1 ho))

/-- A step in flight leaves its vibration running, with nobody else. -/
theorem Started.settled {t : Scheduler σ} (hs : Started c s p (false, t)) (h : s.Plays p) :
    t.Settled := by
  cases hs with
  | @launched line step cursor info hn ht reported =>
    have hp : Plays { s.told line (step.orders info p.id p.packets).reverse with
        current := some
          (p.launch step cursor c.now (step.span reported c.config.prebakedFallbackMs)) } _ :=
      ⟨rfl, h.runs.launch _ _ _ _, h.next, h.external⟩
    exact hp.settled rfl fun hd => Playback.endless_launch hn (Option.map_eq_none_iff.1 hd)

/-- A vibration whose next step is not in flight is about to go. -/
theorem Started.isOver {t : Scheduler σ} (hs : Started c s p (true, t)) (h : s.Plays p) :
    t.Over := by
  have hc (s' : Scheduler σ) (hc' : s'.current = some p) (status : Status) :
      ∀ p' ∈ (s'.finishCurrent c status).current, p'.stopping = false := by
    rw [finishCurrent_of_some c hc']
    rintro _ ⟨⟩
    exact h.runs.stopping
  cases hs with
  | exhausted hn => exact ⟨hc s h.current _, h.next, h.external⟩
  | failed hn ht hg => exact ⟨hc _ h.current _, h.next, h.external⟩

end steps

/-! ## Giving up the motor -/

section release

variable {c : Context σ} {leave : Playback → Prop} {s : Scheduler σ}

/-- When the holder is gone nobody holds the motor. -/
@[simp] theorem current_dropCurrent (c : Context σ) (s : Scheduler σ) :
    (s.dropCurrent c).current = none := by
  unfold dropCurrent
  split
  · assumption
  · rfl

/-- Whoever waits still does. -/
@[simp] theorem next_dropCurrent (c : Context σ) (s : Scheduler σ) :
    (s.dropCurrent c).next = s.next := by
  unfold dropCurrent
  split <;> rfl

/-- The session is still there. -/
@[simp] theorem external_dropCurrent (c : Context σ) (s : Scheduler σ) :
    (s.dropCurrent c).external = s.external := by
  unfold dropCurrent
  split <;> rfl

/-- What becomes of the session, if there is one, when the motor may be free: it is left as it is,
takes the motor, or is gone because the actuator cannot be handed over. -/
inductive Activated (c : Context σ) (s : Scheduler σ) : Scheduler σ → Prop where
  | idle (h : ∀ e, s.current = none → s.external = some e → e.active = true) : Activated c s s
  | seized {line : Line σ} {e : ExternalSession} (hc : s.current = none)
      (he : s.external = some e) (ha : e.active = false)
      (ht : Talk c s.line [.externalControl true] line) :
      Activated c s ((s.told line [.externalControl true]).seize e)
  | failed {line : Line σ} {e : ExternalSession} (hc : s.current = none)
      (he : s.external = some e) (ha : e.active = false) (ht : Talk c s.line [] line) :
      Activated c s ((s.told line []).dismiss c .ignoredErrorScheduling e)

/-- To give the motor to a session comes to one of the three. -/
theorem activated_activateExternal (c : Context σ) (s : Scheduler σ) :
    Activated c s (s.activateExternal c) := by
  have hd := dispatch_reachAndIssue c (.externalControl true) s
  unfold activateExternal
  split
  · next e hc he =>
    split
    · next ha =>
      refine .idle fun e' _ he' => ?_
      cases he.symm.trans he'
      exact ha
    · next ha =>
      rw [Bool.not_eq_true] at ha
      generalize s.reachAndIssue c (.externalControl true) = answer at hd
      cases hd with
      | taken ht reported => exact .seized hc he ha ht
      | @refused line ht e' =>
        have hend : (s.told line []).disconnect.endExternal c .ignoredErrorScheduling =
            (s.told line.reset []).dismiss c .ignoredErrorScheduling e := by
          simp [endExternal, disconnect_eq, he, ha]
        simp only [hend]
        exact .failed hc he ha (.reset ht)
  · next hno => exact .idle fun e hc he => absurd he (hno e hc)

/-- A session that waits can only be handed the motor, and vibrations stay where they are. -/
theorem talk_activateExternal (c : Context σ) (s : Scheduler σ) :
    (∃ orders, Talk c s.line orders (s.activateExternal c).line ∧
        ∀ o ∈ orders, o = .externalControl true) ∧
      (s.activateExternal c).current = s.current ∧ (s.activateExternal c).next = s.next := by
  have h := activated_activateExternal c s
  generalize s.activateExternal c = t at h
  cases h with
  | idle h => exact ⟨⟨[], .silence _, by simp⟩, rfl, rfl⟩
  | seized hc he ha ht => exact ⟨⟨_, ht, by simp⟩, rfl, rfl⟩
  | failed hc he ha ht => exact ⟨⟨[], ht, by simp⟩, rfl, rfl⟩

/-- When the motor has been given up nobody holds it. -/
theorem current_vacate (c : Context σ) (s : Scheduler σ) :
    (s.vacate c).current = none :=
  (talk_activateExternal c _).2.1.trans (current_dropCurrent c s)

/-- Whoever waits still does. -/
theorem next_vacate (c : Context σ) (s : Scheduler σ) : (s.vacate c).next = s.next :=
  (talk_activateExternal c _).2.2.trans (next_dropCurrent c s)

/-- What becomes of a session that waits once the motor is free: it takes the motor, or it is gone
because the actuator cannot be handed over. -/
theorem activateExternal_spec (c : Context σ) (leave : Playback → Prop) {s : Scheduler σ}
    {e : ExternalSession} (hc : s.current = none)
    (he : s.external = some e) (ha : e.active = false) :
    Reaches c leave s (s.activateExternal c) ∧ (s.activateExternal c).current = none ∧
      (s.activateExternal c).next = s.next ∧
      ((s.activateExternal c).external = some e.activate ∨
        (s.activateExternal c).external = none) := by
  have h := activated_activateExternal c s
  generalize s.activateExternal c = t at h
  cases h with
  | idle h =>
    rw [h e hc he] at ha
    cases ha
  | seized hc' he' ha' ht =>
    cases he.symm.trans he'
    refine ⟨?_, hc, rfl, .inl rfl⟩
    refine (reaches_told ht ?_).trans (reaches_of_change fun _ => .seized he ha hc)
    intro o ho
    rw [List.mem_singleton.1 ho]
    exact ⟨fun id hid => (by cases hid), fun _ => hc, fun ho' => (by cases ho')⟩
  | failed hc' he' ha' ht =>
    cases he.symm.trans he'
    refine ⟨?_, hc, rfl, .inr rfl⟩
    exact (reaches_told ht (by simp)).trans (reaches_of_change fun _ => .dismissed he rfl)

/-- **To give up the motor** leaves it free for whoever waits, or to the session. -/
theorem vacate_spec (c : Context σ) {leave : Playback → Prop} {s : Scheduler σ}
    (h : s.Yields leave) :
    Reaches c leave s (s.vacate c) ∧ (s.vacate c).Vacant ∧
      (s.external = none → (s.vacate c).next = s.next ∧ (s.vacate c).external = none) := by
  have hd := reaches_dropCurrent c leave s h.leave
  unfold vacate
  cases he : s.external with
  | none =>
    have ha : (s.dropCurrent c).activateExternal c = s.dropCurrent c := by
      simp [activateExternal, he]
    rw [ha]
    exact ⟨hd, ⟨by simp, by simpa using h.waiting, by simp [he]⟩, fun _ => by simp [he]⟩
  | some e =>
    obtain ⟨ha, hn⟩ := h.session e he
    obtain ⟨hr, hc', hn', he'⟩ := activateExternal_spec c leave (current_dropCurrent c s)
      ((external_dropCurrent c s).trans he) ha
    rw [next_dropCurrent, hn] at hn'
    refine ⟨hd.trans hr, ⟨hc', by simp [hn'], ?_⟩, by simp⟩
    rcases he' with he' | he' <;> rw [he'] <;> simp [ExternalSession.activate, hn']

/-- Where nobody else is, the motor is free once the last vibration has gone. -/
theorem Over.settles_vacate (h : s.Over) : Settles c leave s (s.vacate c) := by
  have hy : s.Yields leave := h.yields
  obtain ⟨hr, hv, hp⟩ := vacate_spec c hy
  exact ⟨hr, hv.settled ((hp h.external).1.trans h.next)⟩

/-- A vibration that waits and gets the motor runs, or is gone again. -/
theorem settles_begin {q : Playback} (h : (s.takenBy q).Plays q.begin) :
    Settles c leave (s.takenBy q)
      (match s.begin c q with
      | (true, s) => s.vacate c
      | (false, s) => s) := by
  have hs := started_startStep (c := c) h.current
  change Started c (s.takenBy q) q.begin (s.begin c q) at hs
  have hr : Reaches c leave _ _ := hs.reaches h
  rcases hb : s.begin c q with ⟨b, t⟩
  rw [hb] at hs hr
  cases b with
  | true => exact hr.settles (hs.isOver h).settles_vacate
  | false => exact ⟨hr, hs.settled h⟩

/-- A motor that is free goes to the vibration that waits, if there is no session. -/
theorem settles_handOver (hv : (s.vacate c).Vacant) :
    Settles c leave (s.vacate c) (s.release c) := by
  unfold release
  simp only
  split
  · next q he hn =>
    have hu := hv.waiting q hn
    refine Reaches.settles ?_ (settles_begin ⟨rfl, hu.runs_begin, rfl, he⟩)
    exact reaches_of_change fun _ => .promoted hn hv.current he hu
  · next hne =>
    refine ⟨.refl c leave _, hv.settled ?_⟩
    cases he : (s.vacate c).external with
    | some e => exact (hv.session e he).2
    | none =>
      refine Option.eq_none_iff_forall_not_mem.2 fun q hq => hne q he hq

/-- **To give up the motor settles things.** It goes to the session that waits, or else to the
vibration that waits. -/
theorem settles_release (h : s.Yields leave) : Settles c leave s (s.release c) := by
  obtain ⟨hr, hv, -⟩ := vacate_spec c h
  exact hr.settles (settles_handOver hv)

end release

end Haptics.Scheduler
