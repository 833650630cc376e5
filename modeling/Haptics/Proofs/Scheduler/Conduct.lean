import Haptics.Proofs.Actuator.Motor
import Haptics.Proofs.Scheduler.Talk
import Mathlib.Logic.Relation

/-!
# What an input comes down to

Each input is taken apart here, once: into pieces that every proof about it can go by.

* An *errand* leaves every vibration where it is and starts nothing (`Errand`). The scheduler talks
  to its actuator, makes a note, or ends a session.
* Beside errands the vibration that waits may end: all of this leaves the holder of the motor alone
  (`Aside`).
* One *stroke* may concern the holder: it is cancelled, or a session is put in place (`Stroke`).

What is demanded of a scheduler (`Input.isDemand`) comes down to asides, then one stroke or none,
then asides (`Conduct`, `conduct_step`). The other inputs are requests for vibrations, packets, and
what happens by itself; for them there is a lemma each.

* `vibrate_of_refusal?`, `vibrate_of_welcome`, `place_of_none`, `place_of_some`: a request.
* `passed_packet`: a packet.
* `completed_cases`, `handleDeadline_cases`, `lost_of_none`, `lost_of_some`: the end of a command, a
  deadline, and the loss of the connection.
-/

namespace Haptics

/-- Whether an input is about sessions: it asks for one, or may end one. -/
def Input.isForSessions : Input → Bool
  | .cancel _ _ | .startExternal _ | .externalTimedOut _ | .stopExternal _ => true
  | _ => false

/-- Whether an input demands something of the scheduler other than to let in a vibration or a
packet. -/
def Input.isDemand : Input → Bool
  | .vibrate _ | .packet _ | .event _ | .deadline => false
  | _ => true

/-- An order starts nothing and leaves the motor in the hands in which it is. -/
def Order.Harmless (o : Order) : Prop := o.owner? = none ∧ o.control? = none

/-- Orders about always-on effects are harmless. -/
theorem Order.harmless_of_isAlwaysOn {o : Order} (h : o.isAlwaysOn = true) : o.Harmless := by
  cases o <;> first | exact ⟨rfl, rfl⟩ | cases h

namespace Scheduler

variable {σ : Type} {c : Context σ} {b : Bool} {s t u : Scheduler σ} {p : Playback}

/-! ## Errands -/

/-- Something that leaves every vibration where it is and starts nothing. Sessions end only where
the errand is about sessions. -/
inductive Errand (c : Context σ) (sessions : Bool) (s : Scheduler σ) : Scheduler σ → Prop where
  /-- It talks to the actuator. It tells it to stop only where whoever holds the motor has been told
  to stop before. -/
  | talked {line : Line σ} {orders : List Order} (ht : Talk c s.line orders line)
      (ho : ∀ o ∈ orders, o.Harmless)
      (hs : .stop ∈ orders → ∀ p ∈ s.current, p.stopping = true) :
      Errand c sessions s (s.told line orders)
  /-- It makes a note. -/
  | noted (callState : CallState) (alwaysOn : AlwaysOn) :
      Errand c sessions s { s with callState, alwaysOn }
  /-- The session, if there is one, ends. -/
  | ended {status : Status} (hb : sessions = true) (hs : status.isTerminal = true) :
      Errand c sessions s (s.endExternal c status)

/-- Errands lead from one state to another. -/
def Errands (c : Context σ) (sessions : Bool) : Scheduler σ → Scheduler σ → Prop :=
  Relation.ReflTransGen (Errand c sessions)

/-- A single errand. -/
theorem Errand.errands (h : Errand c b s t) : Errands c b s t := .single h

/-- No errand at all. -/
theorem Errands.refl (s : Scheduler σ) : Errands c b s s := Relation.ReflTransGen.refl

/-- Errands after errands. -/
theorem Errands.trans (h : Errands c b s t) (h' : Errands c b t u) : Errands c b s u :=
  Relation.ReflTransGen.trans h h'

/-- To talk without an order is an errand. -/
theorem errands_told {line : Line σ} (ht : Talk c s.line [] line) :
    Errands c b s (s.told line []) :=
  (Errand.talked ht (by simp) (by simp)).errands

/-- A harmless order is an errand, taken or refused. -/
theorem Dispatch.errands {o : Order} {answer : Except Failure Nat × Scheduler σ}
    (h : Dispatch c o s answer) (ho : o.Harmless)
    (hs : o = .stop → ∀ p ∈ s.current, p.stopping = true) : Errands c b s answer.2 := by
  cases h with
  | taken ht reported =>
    refine (Errand.talked ht (by simpa using ho) fun hm => ?_).errands
    exact hs (List.mem_singleton.1 hm).symm
  | refused ht e => exact errands_told ht

/-- To talk about always-on effects is an errand. -/
theorem Chat.errands (h : Chat c s t) : Errands c b s t := by
  obtain ⟨line, orders, ht, ho, rfl⟩ := h
  refine (Errand.talked ht (fun o hm => Order.harmless_of_isAlwaysOn (ho o hm))
    fun hm => ?_).errands
  cases ho _ hm

/-- To connect is an errand. -/
theorem errands_reach (c : Context σ) (b : Bool) (s : Scheduler σ) :
    Errands c b s (s.reach c).2 :=
  errands_told (.reach (.silence _))

/-- To ask the actuator about itself is an errand. -/
theorem errands_info? (c : Context σ) (b : Bool) (s : Scheduler σ) :
    Errands c b s (s.info? c).2 := by
  have hr := errands_reach c b s
  unfold info?
  split <;> next hs => rwa [hs] at hr

/-- To bring the actuator in line with the registry is an errand. -/
theorem errands_refreshAlwaysOn (c : Context σ) (b : Bool) (s : Scheduler σ) :
    Errands c b s (s.refreshAlwaysOn c) := by
  have hr := errands_reach c b s
  unfold refreshAlwaysOn
  split
  · exact .refl s
  · split
    · next hs => rwa [hs] at hr
    · next t hs =>
      rw [hs] at hr
      have hc := (chat_refresh c c.policy t.alwaysOn t).errands (b := b)
      exact (hr.trans hc).tail (.noted ..)

/-- An always-on request is an errand. -/
theorem errands_setAlwaysOn (c : Context σ) (b : Bool) (request : AlwaysOnRequest)
    (s : Scheduler σ) : Errands c b s (s.setAlwaysOn c request).2 := by
  have hi := errands_info? c b s
  unfold setAlwaysOn
  split
  · next hs => rwa [hs] at hi
  · next t hs =>
    rw [hs] at hi
    split
    · exact hi
    · have hc := (chat_apply c c.policy t.alwaysOn request t).errands (b := b)
      split <;> next ht =>
        rw [ht] at hc
        exact (hi.trans hc).tail (.noted ..)

/-- To change the controls of the running stream is an errand. -/
theorem errands_updateControls (c : Context σ) (b : Bool) (controls : Controls)
    (token : Option Nat) (s : Scheduler σ) :
    Errands c b s (s.updateControls c controls token).2 := by
  have hd := (dispatch_issueIfConnected c (.controls controls) s).errands (b := b) ⟨rfl, rfl⟩
    (by simp)
  unfold updateControls
  split
  · split <;> next hs => rwa [hs] at hd
  · exact .refl s

/-- To end the session is an errand about sessions. -/
theorem errands_endExternal (c : Context σ) {status : Status} (hs : status.isTerminal = true)
    (s : Scheduler σ) : Errands c true s (s.endExternal c status) :=
  (Errand.ended rfl hs).errands

/-- A source that has waited long enough: its session may end. -/
theorem errands_externalTimedOut (c : Context σ) (id : Nat) (s : Scheduler σ) :
    Errands c true s (s.externalTimedOut c id).2 := by
  unfold externalTimedOut
  split
  · exact .refl s
  · split
    · exact .refl s
    · exact errands_endExternal c rfl s

/-- A source gives the motor back: its session may end. -/
theorem errands_stopExternal (c : Context σ) (id : Nat) (s : Scheduler σ) :
    Errands c true s (s.stopExternal c id).2 := by
  unfold stopExternal
  split
  · exact errands_endExternal c rfl s
  · exact .refl s

/-! ## Asides -/

/-- Something that leaves the holder of the motor alone. -/
inductive Aside (c : Context σ) (sessions : Bool) (s : Scheduler σ) : Scheduler σ → Prop where
  /-- It is an errand. -/
  | errand {t : Scheduler σ} (h : Errand c sessions s t) : Aside c sessions s t
  /-- The vibration that waits, if there is one, ends and is gone. -/
  | dropped {status : Status} (hs : status.isTerminal = true) :
      Aside c sessions s (s.dropNext c status)

/-- Asides lead from one state to another. -/
def Asides (c : Context σ) (sessions : Bool) : Scheduler σ → Scheduler σ → Prop :=
  Relation.ReflTransGen (Aside c sessions)

/-- Errands are asides. -/
theorem Errands.asides (h : Errands c b s t) : Asides c b s t :=
  Relation.ReflTransGen.mono (fun _ _ h => .errand h) _ _ h

/-- No aside at all. -/
theorem Asides.refl (s : Scheduler σ) : Asides c b s s := Relation.ReflTransGen.refl

/-- Asides after asides. -/
theorem Asides.trans (h : Asides c b s t) (h' : Asides c b t u) : Asides c b s u :=
  Relation.ReflTransGen.trans h h'

/-! ## The end of a vibration, and cancelling -/

/-- The end of whoever waits leaves the holder of the motor alone. -/
@[simp] theorem current_dropNext (c : Context σ) (s : Scheduler σ) (status : Status) :
    (s.dropNext c status).current = s.current := by
  unfold dropNext
  split <;> rfl

/-- Then nobody waits. -/
@[simp] theorem next_dropNext (c : Context σ) (s : Scheduler σ) (status : Status) :
    (s.dropNext c status).next = none := by
  unfold dropNext
  split
  · assumption
  · rfl

/-- The end of whoever waits leaves the session alone. -/
@[simp] theorem external_dropNext (c : Context σ) (s : Scheduler σ) (status : Status) :
    (s.dropNext c status).external = s.external := by
  unfold dropNext
  split <;> rfl

/-- Where nobody holds the motor nobody ends. -/
theorem finishCurrent_of_none (c : Context σ) (h : s.current = none) (status : Status) :
    s.finishCurrent c status = s := by
  obtain ⟨line, current, next, external, admitted, callState, alwaysOn, history, journal⟩ := s
  subst h
  rfl

/-- Whoever holds the motor ends, and is still there. -/
theorem finishCurrent_of_some (c : Context σ) (h : s.current = some p) (status : Status) :
    s.finishCurrent c status = { s with current := some (p.finish status c.now) } := by
  simp [finishCurrent, h]

/-- Where nobody holds the motor nobody is cancelled. -/
theorem cancelCurrent_of_none (hc : s.current = none) (c : Context σ) (status : Status) :
    s.cancelCurrent c status = (false, s) := by
  simp [cancelCurrent, hc]

/-- Whoever has been told to stop is not cancelled again. -/
theorem cancelCurrent_of_stopping (hp : s.current = some p) (hs : p.stopping = true)
    (c : Context σ) (status : Status) : s.cancelCurrent c status = (false, s) := by
  simp [cancelCurrent, hp, hs]

/-- What is not cancelled has been told to stop before. -/
theorem eq_and_stopping_of_cancelCurrent {status : Status}
    (h : s.cancelCurrent c status = (false, t)) :
    t = s ∧ ∀ p ∈ s.current, p.stopping = true := by
  cases hc : s.current with
  | none =>
    rw [cancelCurrent_of_none hc] at h
    cases h
    exact ⟨rfl, by simp⟩
  | some p =>
    cases hs : p.stopping with
    | true =>
      rw [cancelCurrent_of_stopping hc hs] at h
      cases h
      exact ⟨rfl, by simpa using hs⟩
    | false =>
      unfold cancelCurrent at h
      simp only [hc, hs, Bool.false_eq_true, if_false] at h
      split at h
      · split at h <;> cases h
      · cases h

/-- The vibration that waits is looked at first, then the one that holds the motor. -/
theorem snd_cancelWhere (c : Context σ) (status : Status) (condition : Vibration → Bool)
    (s t : Scheduler σ) (ht : t = if s.nextMatches condition then s.dropNext c status else s) :
    (s.cancelWhere c status condition).2 =
      if t.currentMatches condition then (t.cancelCurrent c status).2 else t := by
  subst ht
  unfold cancelWhere
  simp only
  generalize (if s.nextMatches condition then s.dropNext c status else s) = t
  split <;> rfl

/-! ## Demands -/

/-- The one thing about the holder of the motor: it is cancelled, or a session is put in place, for
which vibrations make way. -/
inductive Stroke (c : Context σ) (sessions : Bool) (s : Scheduler σ) : Scheduler σ → Prop where
  | cancelled {status : Status} (hs : status.isCancelled = true) :
      Stroke c sessions s (s.cancelCurrent c status).2
  | granted (hb : sessions = true) (request : ExternalRequest) (scale : ExternalScale) :
      Stroke c sessions s (s.grant c request scale).2

/-- What a demand comes down to: asides, and among them one stroke or none. -/
inductive Conduct (c : Context σ) (sessions : Bool) (s : Scheduler σ) : Scheduler σ → Prop where
  | aside {t : Scheduler σ} (h : Asides c sessions s t) : Conduct c sessions s t
  | stroke {t u v : Scheduler σ} (h : Asides c sessions s t) (hs : Stroke c sessions t u)
      (h' : Asides c sessions u v) : Conduct c sessions s v

/-- Errands are a conduct. -/
theorem Errands.conduct (h : Errands c b s t) : Conduct c b s t := .aside h.asides

/-- Asides can come first. -/
theorem Asides.conduct (h : Asides c b s t) (h' : Conduct c b t u) : Conduct c b s u := by
  cases h' with
  | aside h' => exact .aside (h.trans h')
  | stroke h₁ hs h₂ => exact .stroke (h.trans h₁) hs h₂

/-- Errands can come last. -/
theorem Conduct.errands (h : Conduct c b s t) (h' : Errands c b t u) : Conduct c b s u := by
  cases h with
  | aside h => exact .aside (h.trans h'.asides)
  | stroke h₁ hs h₂ => exact .stroke h₁ hs (h₂.trans h'.asides)

/-- **To cancel by a condition**: the vibration that waits may end, and then the holder may be
cancelled. -/
theorem conduct_cancelWhere (c : Context σ) (b : Bool) {status : Status}
    (hs : status.isCancelled = true) (condition : Vibration → Bool) (s : Scheduler σ) :
    Conduct c b s (s.cancelWhere c status condition).2 := by
  -- the vibration that waits is looked at before the holder, and its end is an aside
  have hd : Asides c b s (if s.nextMatches condition then s.dropNext c status else s) := by
    split
    · exact .single (.dropped ((Status.isTerminal_iff _).2 (.inr (.inl hs))))
    · exact .refl s
  rw [snd_cancelWhere c status condition s _ rfl]
  generalize (if s.nextMatches condition then s.dropNext c status else s) = t at hd
  split
  · exact .stroke hd (.cancelled hs) (.refl _)
  · exact .aside hd

/-- A client cancels: vibrations may, and then the session may end. -/
theorem conduct_cancel (c : Context σ) (filter : UsageFilter) (token : Nat) (s : Scheduler σ) :
    Conduct c true s (s.cancel c filter token).2 := by
  have hw : Conduct c true s (s.cancelWhere c .cancelledByUser fun v =>
      v.token = token && filter.accepts v.usage).2 := conduct_cancelWhere c true rfl _ s
  unfold cancel
  simp only
  split
  · exact hw.errands (errands_endExternal c rfl _)
  · exact hw

/-- Settings change: vibrations may be cancelled, and the always-on effects are looked at. -/
theorem conduct_settingsChanged (c : Context σ) (b : Bool) (s : Scheduler σ) :
    Conduct c b s (s.settingsChanged c).2 :=
  (conduct_cancelWhere c b rfl _ s).errands (errands_refreshAlwaysOn c b _)

/-- A call is noted, and may cancel vibrations. -/
theorem conduct_setCallState (c : Context σ) (b : Bool) (state : CallState) (s : Scheduler σ) :
    Conduct c b s (s.setCallState c state).2 := by
  have hn : Errands c b s { s with callState := state } := (Errand.noted state s.alwaysOn).errands
  unfold setCallState
  split
  · exact hn.asides.conduct (conduct_cancelWhere c b rfl _ _)
  · exact hn.conduct

/-- A source asks for the motor: the actuator is asked, and a session may be put in place. -/
theorem conduct_startExternal (c : Context σ) (request : ExternalRequest) (s : Scheduler σ) :
    Conduct c true s (s.startExternal c request).2 := by
  have hi := errands_info? c true s
  unfold startExternal openExternal
  split
  · exact .aside (.refl s)
  · split
    · next hs =>
      rw [hs] at hi
      exact hi.conduct
    · next hs =>
      rw [hs] at hi
      split
      · exact hi.conduct
      · split
        · exact hi.conduct
        · exact .stroke hi.asides (.granted rfl request _) (.refl _)

/-- To quiet the motor: its holder is cancelled or, where there is nothing to cancel, the actuator
is told to stop. -/
theorem conduct_quiesce (c : Context σ) (b : Bool) (s : Scheduler σ) :
    Conduct c b s (s.quiesce c).2 := by
  have hc : Conduct c b s (s.cancelCurrent c .cancelledBySettingsUpdate).2 :=
    .stroke (.refl s) (.cancelled rfl) (.refl _)
  unfold quiesce
  split
  · next hs => rwa [hs] at hc
  · next t hs =>
    obtain ⟨rfl, hstopping⟩ := eq_and_stopping_of_cancelCurrent hs
    -- nothing has been cancelled, so whoever holds the motor has been told to stop before
    have hd := (dispatch_reachAndIssue c .stop t).errands (b := b) ⟨rfl, rfl⟩ fun _ => hstopping
    split <;> next hr =>
      rw [hr] at hd
      exact hd.conduct

/-- To set the mode: the motor is quieted, and the actuator is told. -/
theorem conduct_setMode (c : Context σ) (b : Bool) (mode : Word) (s : Scheduler σ) :
    Conduct c b s (s.setMode c mode).2 := by
  have hq := conduct_quiesce c b s
  unfold setMode
  split
  · next hs => rwa [hs] at hq
  · next t hs =>
    rw [hs] at hq
    have hd := (dispatch_reachAndIssue c (.haptic (modeParameter mode)) t).errands (b := b)
      ⟨rfl, rfl⟩ (by simp)
    split <;> next hr =>
      rw [hr] at hd
      exact hq.errands hd

/-- **What a demand comes down to.** -/
theorem conduct_step {input : Input} (h : input.isDemand = true) (c : Context σ)
    (s : Scheduler σ) : Conduct c input.isForSessions s (s.step c input) := by
  cases input with
  | cancel filter token => exact conduct_cancel c filter token s
  | screenOff => exact conduct_cancelWhere c _ rfl _ s
  | settingsChanged => exact conduct_settingsChanged c _ s
  | callState state => exact conduct_setCallState c _ state s
  | startExternal request => exact conduct_startExternal c request s
  | externalTimedOut id => exact (errands_externalTimedOut c id s).conduct
  | stopExternal id => exact (errands_stopExternal c id s).conduct
  | setAlwaysOn request => exact (errands_setAlwaysOn c _ request s).conduct
  | updateControls controls token => exact (errands_updateControls c _ controls token s).conduct
  | setMode mode => exact conduct_setMode c _ mode s
  | askInfo => exact (errands_info? c _ s).conduct
  | vibrate v => cases h
  | packet packet => cases h
  | event event => cases h
  | deadline => cases h

/-! ## Requests -/

section requests

variable {v : Vibration}

/-- A request that is turned away is gone at once. -/
theorem vibrate_of_refusal? {status : Status} (h : s.refusal? c v = some status) :
    s.vibrate c v = (status, s.retire (v.finish status c.now)) := by
  unfold vibrate
  rw [h]

/-- A request that is welcome is given a place. -/
theorem vibrate_of_welcome (h : s.refusal? c v = none) :
    s.vibrate c v = ((s.place c v).statusOf v.id, s.place c v) := by
  unfold vibrate
  rw [h]

/-- Whoever waits has gone, and the packets of the request are let in. -/
def readyFor (c : Context σ) (v : Vibration) (s : Scheduler σ) : Scheduler σ :=
  (s.dropNext c .ignoredSuperseded).letIn v

/-- To make ready for a request leaves the holder of the motor alone. -/
@[simp] theorem current_readyFor (c : Context σ) (v : Vibration) (s : Scheduler σ) :
    (s.readyFor c v).current = s.current :=
  current_dropNext c s .ignoredSuperseded

/-- Nobody waits any more when things are ready for a request. -/
@[simp] theorem next_readyFor (c : Context σ) (v : Vibration) (s : Scheduler σ) :
    (s.readyFor c v).next = none :=
  next_dropNext c s .ignoredSuperseded

/-- To make ready for a request leaves the session alone. -/
@[simp] theorem external_readyFor (c : Context σ) (v : Vibration) (s : Scheduler σ) :
    (s.readyFor c v).external = s.external :=
  external_dropNext c s .ignoredSuperseded

/-- A motor that is free goes to the request. -/
theorem place_of_none (h : s.current = none) (c : Context σ) (v : Vibration) :
    s.place c v = (s.readyFor c v).occupy c { vibration := v } := by
  have hc := (current_readyFor c v s).trans h
  unfold readyFor at hc ⊢
  simp only [place, hc]

/-- Where somebody holds the motor the request waits, and the holder is cancelled. -/
theorem place_of_some (h : s.current = some p) (c : Context σ) (v : Vibration) :
    s.place c v = (({ s.readyFor c v with next := some { vibration := v } } : Scheduler σ
      ).cancelCurrent c .cancelledSuperseded).2 := by
  have hc := (current_readyFor c v s).trans h
  unfold readyFor at hc ⊢
  simp only [place, hc]

end requests

/-! ## Packets -/

section packets

variable {packet : Stream} {x : SenderId}

/-- What can become of a packet: it is kept for the vibration that waits, or taken by the actuator
for the one that plays, which is gone if the actuator refuses it; or it is dropped. -/
inductive Passed (c : Context σ) (packet : Stream) (s : Scheduler σ) :
    PacketFate × Scheduler σ → Prop where
  | kept {q : Playback} {x : SenderId} (hx : packet.sender? = some x) (hq : s.next = some q)
      (hs : q.vibration.sender = some x) :
      Passed c packet s
        (.forwarded q.id, { s with next := some { q with packets := q.packets ++ [packet] } })
  | taken {p : Playback} {x : SenderId} {reported : Nat} {a : σ} (hx : packet.sender? = some x)
      (hp : s.current = some p) (hst : p.stopping = false) (hs : p.vibration.sender = some x)
      (hf : p.hasStreamInFlight = true)
      (ht : c.device.perform c.now (.stream packet p.id) s.line.actuator = (.ok reported, a)) :
      Passed c packet s
        (.forwarded p.id, s.told { s.line with actuator := a } [.stream packet p.id])
  | refused {p : Playback} {x : SenderId} {line : Line σ} (hx : packet.sender? = some x)
      (hp : s.current = some p) (hst : p.stopping = false) (hs : p.vibration.sender = some x)
      (ht : Talk c s.line [] line) :
      Passed c packet s (.dropped, ((s.told line []).failCurrent c).release c)
  | ignored : Passed c packet s (.dropped, s)

/-- What becomes of a packet that is sent to the stream that plays. -/
theorem passed_sendPacket (hx : packet.sender? = some x) (hp : s.current = some p)
    (hst : p.stopping = false) (hs : p.vibration.sender = some x)
    (hf : p.hasStreamInFlight = true) : Passed c packet s (s.sendPacket c packet p) := by
  unfold sendPacket issueIfConnected
  by_cases hline : s.line.connected = true
  · rw [if_pos hline]
    rcases ht : c.device.perform c.now (.stream packet p.id) s.line.actuator with ⟨e | reported, a⟩
    · rw [issue_of_error ht]
      exact .refused hx hp hst hs (.refused (.silence _) ht)
    · rw [issue_of_ok ht]
      exact .taken hx hp hst hs hf ht
  · rw [if_neg hline]
    exact .refused hx hp hst hs (.silence _)

/-- What becomes of a packet for which nobody waits. -/
theorem passed_passPacket (hx : packet.sender? = some x) :
    Passed c packet s (s.passPacket c packet) := by
  unfold passPacket
  cases hp : s.current with
  | none => exact .ignored
  | some p =>
    by_cases ht : takesPackets packet.sender? p = true
    · simp only [ht, if_true]
      simp only [takesPackets, Bool.and_eq_true, Bool.not_eq_true', decide_eq_true_eq] at ht
      obtain ⟨⟨hs, hstopping⟩, hf⟩ := ht
      exact passed_sendPacket hx hp hstopping (hs.trans hx) hf
    · simp only [ht]
      exact .ignored

/-- **What becomes of a packet.** -/
theorem passed_packet (c : Context σ) (packet : Stream) (s : Scheduler σ) :
    Passed c packet s (s.packet c packet) := by
  unfold Scheduler.packet
  by_cases ha : packet.sender? = none ∨ packet.sender? ≠ s.admitted
  · rw [if_pos ha]
    exact .ignored
  · rw [if_neg ha]
    rw [not_or] at ha
    -- the packet is of the transmission that is let in, so it has a sender
    obtain ⟨x, hx⟩ := Option.ne_none_iff_exists'.1 ha.1
    cases hq : s.next with
    | none => exact passed_passPacket hx
    | some q =>
      by_cases hs : q.vibration.sender = packet.sender?
      · simp only [hs, if_true]
        exact .kept hx hq (hs.trans hx)
      · simp only [hs, if_false]
        exact passed_passPacket hx

end packets

/-! ## What happens by itself -/

/-- Whether the deadline is still set makes no difference to a vibration that is gone. -/
theorem release_congr (h : s.dropCurrent c = t.dropCurrent c) : s.release c = t.release c := by
  unfold release vacate
  rw [h]

/-- The end of a command is handled by whoever holds the motor, or by nobody. -/
theorem completed_cases (c : Context σ) (id : Nat) (s : Scheduler σ) :
    s.completed c id = s ∨ ∃ p, s.current = some p ∧ p.id = id ∧
      (p.stopping = true ∧ s.completed c id = s.release c ∨
        p.stopping = false ∧ (p.stage = some .awaiting ∨ p.stage = some .stream) ∧
          s.completed c id = s.advance c) := by
  unfold completed
  split
  · exact .inl rfl
  · next p hp =>
    split
    · exact .inl rfl
    · next hid =>
      have hid := Decidable.not_not.1 hid
      split
      · next hst => exact .inr ⟨p, hp, hid, .inl ⟨hst, rfl⟩⟩
      · next hst =>
        split
        · next hstage => exact .inr ⟨p, hp, hid, .inr ⟨by simpa using hst, hstage, rfl⟩⟩
        · exact .inl rfl

/-- The deadline is handled if it has passed: a vibration that was stopping gives up the motor, and
another one goes on. -/
theorem handleDeadline_cases (c : Context σ) (s : Scheduler σ) :
    s.handleDeadline c = s ∨ ∃ p deadline, s.current = some p ∧ p.deadline = some deadline ∧
      deadline ≤ c.now ∧
        (p.stopping = true ∧ s.handleDeadline c = s.release c ∨
          p.stopping = false ∧ s.handleDeadline c =
            ({ s with current := some { p with deadline := none } } : Scheduler σ).advance c) := by
  unfold handleDeadline
  split
  · exact .inl rfl
  · next p hp =>
    split
    · next hdue =>
      obtain ⟨deadline, hd, hle⟩ := (Option.any_eq_true _ _).1 hdue
      refine .inr ⟨p, deadline, hp, hd, by simpa using hle, ?_⟩
      cases hst : p.stopping with
      | true => exact .inl ⟨rfl, release_congr (by simp [dropCurrent, hp, retire])⟩
      | false => exact .inr ⟨rfl, rfl⟩
    · exact .inl rfl

/-- What a death strikes: the connection is given up, no packets are let in any more, and the
vibration that holds the motor has failed. -/
def struck (c : Context σ) (s : Scheduler σ) : Scheduler σ :=
  ({ s.disconnect with admitted := none } : Scheduler σ).finishCurrent c .ignoredErrorScheduling

/-- A death that finds a free motor. -/
theorem lost_of_none (hp : s.current = none) : s.lost c = s.struck c := by
  have hnone : ({ s.disconnect with admitted := none } : Scheduler σ).current = none := hp
  rw [struck, finishCurrent_of_none c hnone, lost, hp]

/-- A death that finds a vibration: the motor is given up. -/
theorem lost_of_some (hp : s.current = some p) : s.lost c = (s.struck c).release c := by
  rw [struck, lost, hp]

end Scheduler

end Haptics
