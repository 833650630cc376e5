import Haptics.Proofs.Scheduler.Course

/-!
# What a scheduler sees of an actuator

A scheduler sees of an actuator what its device shows, and no more. So if the states of one actuator
are those of another with something behind them, and the devices show the same (`Device.Shows`),
then a scheduler does the same with both: what it does with the one, looked at `through` the map
that forgets what is behind, is what it does with the other.

* `through_step`, `through_stopAll`: what is asked for, and the end of everything.
* `through_hear`, `through_handleEvent`, `through_handleDeadline`: what happens by itself.
-/

namespace Haptics

variable {σ τ : Type}

/-- A device shows what another one shows of the states that `f` makes of its own. -/
structure Device.Shows (d : Device τ) (f : τ → σ) (e : Device σ) : Prop where
  info : ∀ a, e.info (f a) = d.info a
  connect : ∀ a, e.connect (f a) = (d.connect a).map id f
  perform : ∀ now o a, e.perform now o (f a) = (d.perform now o a).map id f
  hear : ∀ a, e.hear (f a) = (d.hear a).map (Prod.map id f)

/-- The context with another device. -/
def Context.onto (c : Context τ) (e : Device σ) : Context σ :=
  { device := e, policy := c.policy, config := c.config, now := c.now }

/-- The line to the actuator as it is seen. -/
def Line.through (f : τ → σ) (l : Line τ) : Line σ := ⟨f l.actuator, l.connected⟩

/-- To connect looks the same. -/
theorem Line.through_reach {d : Device τ} {f : τ → σ} {e : Device σ} (h : d.Shows f e)
    (l : Line τ) : (l.through f).reach e = (l.reach d).map id (Line.through f) := by
  obtain ⟨a, connected⟩ := l
  unfold reach through
  cases connected with
  | true => rfl
  | false =>
    simp only [h.connect]
    rcases d.connect a with ⟨_ | _, a'⟩ <;> rfl

namespace AlwaysOn

/-! ## The always-on registry -/

variable {issue : Order → τ → Except Failure Nat × τ} {issue' : Order → σ → Except Failure Nat × σ}
  {f : τ → σ} (h : ∀ o t, issue' o (f t) = (issue o t).map id f)

include h

/-- Calls in turn look the same. -/
theorem through_issueAll (orders : List Order) (t : τ) :
    issueAll issue' orders (f t) = (issueAll issue orders t).map id f := by
  induction orders generalizing t with
  | nil => rfl
  | cons o rest ih =>
    unfold issueAll
    rw [h]
    rcases issue o t with ⟨e | n, t'⟩
    · rfl
    · exact ih t'

/-- To put an entry in place looks the same. -/
theorem through_sync (policy : Policy) (id' : Int) (entry : AlwaysOnEntry) (t : τ) :
    sync issue' policy id' entry (f t) = (sync issue policy id' entry t).map id f := by
  unfold sync
  rw [through_issueAll h]
  rcases issueAll issue (syncOrders id' entry.effects (isAllowed policy entry)) t with ⟨e | u, t'⟩
  · rfl
  · rfl

/-- So does taking one back. -/
theorem through_rollback (id' : Int) (failed : AlwaysOnEntry) (effects : Table UInt8 Prebaked)
    (registry : AlwaysOn) (t : τ) :
    rollback issue' id' failed effects registry (f t) =
      (rollback issue id' failed effects registry t).map id f := by
  induction effects generalizing registry t with
  | nil => rfl
  | cons effect rest ih =>
    obtain ⟨channel, effect⟩ := effect
    unfold rollback
    split
    · exact ih registry t
    · rw [h]
      rcases issue (.alwaysOnDisable channel id') t with ⟨e | n, t'⟩
      · exact ih _ t'
      · exact ih _ t'

/-- So does a request about one. -/
theorem through_apply (policy : Policy) (registry : AlwaysOn) (r : AlwaysOnRequest) (t : τ) :
    AlwaysOn.apply issue' policy registry r (f t) =
      (AlwaysOn.apply issue policy registry r t).map id (Prod.map id f) := by
  unfold AlwaysOn.apply
  split
  · unfold clear
    split
    · rfl
    · next previous _ =>
      rw [through_issueAll h]
      rcases issueAll issue (disableOrders r.id previous.effects.keys) t with ⟨e | u, t'⟩
      · rfl
      · rfl
  · next effects _ =>
    unfold set
    rw [through_issueAll h]
    rcases issueAll issue (disableOrders r.id (dropped registry r.id effects)) t with ⟨e | u, t'⟩
    · rfl
    · simp only [Prod.map, id]
      rw [through_sync h]
      rcases sync issue policy r.id _ t' with ⟨e | entry, t''⟩
      · simp only [Prod.map, id]
        rw [through_rollback h]
        rfl
      · rfl

/-- So does a look at all of them. -/
theorem through_refresh (policy : Policy) (registry : AlwaysOn) (t : τ) :
    refresh issue' policy registry (f t) =
      (refresh issue policy registry t).map id (Prod.map id f) := by
  induction registry generalizing t with
  | nil => rfl
  | cons entry rest ih =>
    obtain ⟨id', entry⟩ := entry
    unfold refresh
    rw [through_sync h]
    rcases sync issue policy id' entry t with ⟨e | entry', t'⟩
    · simp only [Prod.map, id]
      rw [ih]
      rfl
    · simp only [Prod.map, id]
      rw [ih]
      rfl

end AlwaysOn

namespace Scheduler

/-- The scheduler with its actuator as it is seen. -/
def through (f : τ → σ) (s : Scheduler τ) : Scheduler σ where
  line := s.line.through f
  current := s.current
  next := s.next
  external := s.external
  admitted := s.admitted
  callState := s.callState
  alwaysOn := s.alwaysOn
  history := s.history
  journal := s.journal

variable {c : Context τ} {f : τ → σ} {e : Device σ} (h : c.device.Shows f e)

/-! ## Without the actuator -/

/-- Who holds the motor has nothing to do with the actuator. -/
@[simp] theorem current_through (f : τ → σ) (s : Scheduler τ) :
    (s.through f).current = s.current := rfl

/-- Nor has who waits. -/
@[simp] theorem next_through (f : τ → σ) (s : Scheduler τ) : (s.through f).next = s.next := rfl

/-- Nor has the session. -/
@[simp] theorem external_through (f : τ → σ) (s : Scheduler τ) :
    (s.through f).external = s.external := rfl

/-- The end of whoever waits looks the same. -/
theorem through_dropNext (status : Status) (s : Scheduler τ) :
    (s.through f).dropNext (c.onto e) status = (s.dropNext c status).through f := by
  unfold dropNext
  rw [next_through]
  cases s.next <;> rfl

/-- So does the end of whoever holds the motor. -/
theorem through_dropCurrent (s : Scheduler τ) :
    (s.through f).dropCurrent (c.onto e) = (s.dropCurrent c).through f := by
  unfold dropCurrent
  rw [current_through]
  cases s.current <;> rfl

/-! ## Dealing with the actuator -/

section dealing

include h

/-- To reach the actuator looks the same. -/
theorem through_reach (s : Scheduler τ) :
    (s.through f).reach (c.onto e) = (s.reach c).map id (through f) := by
  have hl := Line.through_reach h s.line
  unfold reach
  rw [show (s.through f).line.reach (c.onto e).device = _ from hl]
  rfl

/-- An order looks the same. -/
theorem through_issue (o : Order) (s : Scheduler τ) :
    (s.through f).issue (c.onto e) o = (s.issue c o).map id (through f) := by
  have hp : e.perform c.now o (f s.line.actuator) =
      (c.device.perform c.now o s.line.actuator).map id f := h.perform _ _ _
  rcases hr : c.device.perform c.now o s.line.actuator with ⟨failure | reported, a⟩
  · rw [hr] at hp
    rw [issue_of_error hr]
    exact issue_of_error hp
  · rw [hr] at hp
    rw [issue_of_ok hr]
    exact issue_of_ok hp

/-- So do orders in turn. -/
theorem through_issueAll (orders : List Order) (s : Scheduler τ) :
    (s.through f).issueAll (c.onto e) orders = (s.issueAll c orders).map id (through f) := by
  induction orders generalizing s with
  | nil => rfl
  | cons o rest ih =>
    cases rest with
    | nil => exact through_issue h o s
    | cons o' rest =>
      unfold issueAll
      rw [through_issue h]
      rcases s.issue c o with ⟨failure | reported, t⟩
      · rfl
      · exact ih t

/-- So does an order that is given only over a connection. -/
theorem through_issueIfConnected (o : Order) (s : Scheduler τ) :
    (s.through f).issueIfConnected (c.onto e) o =
      (s.issueIfConnected c o).map id (through f) := by
  by_cases hl : s.line.connected = true
  · have hl' : (s.through f).line.connected = true := hl
    unfold issueIfConnected
    rw [if_pos hl, if_pos hl']
    exact through_issue h o s
  · have hl' : ¬ (s.through f).line.connected = true := hl
    unfold issueIfConnected
    rw [if_neg hl, if_neg hl']
    rfl

/-- So does one for which a connection is made first. -/
theorem through_reachAndIssue (o : Order) (s : Scheduler τ) :
    (s.through f).reachAndIssue (c.onto e) o = (s.reachAndIssue c o).map id (through f) := by
  unfold reachAndIssue
  rw [through_reach h]
  rcases s.reach c with ⟨failure | u, t⟩
  · rfl
  · exact through_issue h o t

/-- What the actuator says about itself is the same. -/
theorem through_info? (s : Scheduler τ) :
    (s.through f).info? (c.onto e) = (s.info? c).map id (through f) := by
  unfold info?
  rw [through_reach h]
  rcases s.reach c with ⟨failure | u, t⟩
  · rfl
  · exact Prod.ext (congrArg some (h.info _)) rfl

/-- The end of a session looks the same. -/
theorem through_endExternal (status : Status) (s : Scheduler τ) :
    (s.through f).endExternal (c.onto e) status = (s.endExternal c status).through f := by
  unfold endExternal
  rw [through_issueIfConnected h, external_through]
  cases s.external with
  | none => rfl
  | some session => by_cases ha : session.active = true <;> simp only [ha] <;> rfl

/-- So does a session that takes the motor. -/
theorem through_activateExternal (s : Scheduler τ) :
    (s.through f).activateExternal (c.onto e) = (s.activateExternal c).through f := by
  unfold activateExternal
  rw [through_reachAndIssue h, current_through, external_through]
  split
  · split
    · rfl
    · rcases s.reachAndIssue c (.externalControl true) with ⟨failure | reported, t⟩
      · exact through_endExternal h _ t.disconnect
      · rfl
  · rfl

/-! ## From step to step -/

/-- The orders of a step look the same, as they depend on what the actuator says. -/
theorem through_launch (p : Playback) (step : Step) (s : Scheduler τ) :
    (s.through f).launch (c.onto e) p step = (s.launch c p step).map id (through f) := by
  unfold launch
  rw [through_reach h]
  rcases s.reach c with ⟨failure | u, t⟩
  · rfl
  · change (t.through f).issueAll (c.onto e) (step.orders (e.info (f t.line.actuator)) p.id
      p.packets) = _
    rw [h.info]
    exact through_issueAll h _ t

/-- So does the attempt to start a step. -/
theorem through_startStep (s : Scheduler τ) :
    (s.through f).startStep (c.onto e) = (s.startStep c).map id (through f) := by
  unfold startStep
  rw [current_through]
  split
  · rfl
  · next p hp =>
    split
    · rfl
    · next step cursor hn =>
      rw [through_launch h]
      rcases s.launch c p step with ⟨failure | reported, t⟩
      · rfl
      · rfl

/-- So it does when a vibration takes the motor. -/
theorem through_begin (q : Playback) (s : Scheduler τ) :
    (s.through f).begin (c.onto e) q = (s.begin c q).map id (through f) :=
  through_startStep h (s.takenBy q)

/-- To give up the motor looks the same. -/
theorem through_vacate (s : Scheduler τ) :
    (s.through f).vacate (c.onto e) = (s.vacate c).through f := by
  unfold vacate
  rw [through_dropCurrent, through_activateExternal h]

/-- So it does when it goes to whoever waits. -/
theorem through_release (s : Scheduler τ) :
    (s.through f).release (c.onto e) = (s.release c).through f := by
  unfold release
  simp only
  rw [through_vacate h]
  generalize s.vacate c = u
  have hb (q : Playback) := through_begin h q { u with next := none }
  obtain ⟨line, current, next, external, admitted, callState, alwaysOn, history, journal⟩ := u
  cases external with
  | some session => rfl
  | none =>
    cases next with
    | none => rfl
    | some q =>
      simp only [through] at hb ⊢
      rw [hb q]
      rcases begin c q _ with ⟨_ | _, t⟩
      · rfl
      · exact through_vacate h t

/-- So it does when whoever holds the motor goes on. -/
theorem through_advance (s : Scheduler τ) :
    (s.through f).advance (c.onto e) = (s.advance c).through f := by
  unfold advance
  rw [through_startStep h]
  rcases s.startStep c with ⟨_ | _, t⟩
  · rfl
  · exact through_release h t

/-! ## Cancelling -/

/-- To cancel whoever holds the motor looks the same. -/
theorem through_cancelCurrent (status : Status) (s : Scheduler τ) :
    (s.through f).cancelCurrent (c.onto e) status =
      (s.cancelCurrent c status).map id (through f) := by
  have hf : (s.through f).finishCurrent (c.onto e) status = (s.finishCurrent c status).through f :=
    rfl
  unfold cancelCurrent
  rw [hf, through_issueIfConnected h, through_issueIfConnected h, current_through]
  split
  · rfl
  · next p hp =>
    split
    · rfl
    · split
      · rcases (s.finishCurrent c status).issueIfConnected c .stop with ⟨failure | reported, t⟩
        · exact congrArg (Prod.mk true) (through_release h t.disconnect)
        · rfl
      · exact congrArg (Prod.mk true) (through_release h _)

/-- So does cancelling by a condition. -/
theorem through_cancelWhere (status : Status) (condition : Vibration → Bool) (s : Scheduler τ) :
    (s.through f).cancelWhere (c.onto e) status condition =
      (s.cancelWhere c status condition).map id (through f) := by
  have hd : (if (s.through f).nextMatches condition then (s.through f).dropNext (c.onto e) status
      else s.through f) =
        (if s.nextMatches condition then s.dropNext c status else s).through f := by
    rw [through_dropNext,
      show (s.through f).nextMatches condition = s.nextMatches condition from rfl]
    split <;> rfl
  unfold cancelWhere
  simp only
  rw [hd]
  generalize (if s.nextMatches condition then s.dropNext c status else s) = t
  have hc : (if (t.through f).currentMatches condition
      then (t.through f).cancelCurrent (c.onto e) status else (false, t.through f)) =
        (if t.currentMatches condition then t.cancelCurrent c status else (false, t)).map id
          (through f) := by
    rw [through_cancelCurrent h,
      show (t.through f).currentMatches condition = t.currentMatches condition from rfl]
    split <;> rfl
  rw [hc]
  rfl

/-! ## Letting vibrations and packets in -/

/-- A vibration that gets the motor at once looks the same. -/
theorem through_occupy (q : Playback) (s : Scheduler τ) :
    (s.through f).occupy (c.onto e) q = (s.occupy c q).through f := by
  unfold occupy
  rw [through_begin h]
  rcases s.begin c q with ⟨_ | _, t⟩
  · rfl
  · exact through_release h t

/-- So does one that is given a place. -/
theorem through_place (v : Vibration) (s : Scheduler τ) :
    (s.through f).place (c.onto e) v = (s.place c v).through f := by
  unfold place
  simp only
  rw [through_dropNext]
  have hl (t : Scheduler τ) : (t.through f).letIn v = (t.letIn v).through f := rfl
  rw [hl]
  generalize (s.dropNext c .ignoredSuperseded).letIn v = t
  have hc := through_cancelCurrent h .cancelledSuperseded
    { t with next := some { vibration := v } }
  rw [current_through]
  split
  · exact through_occupy h _ _
  · exact congrArg Prod.snd hc

/-- **A request looks the same**, and is answered the same. -/
theorem through_vibrate (v : Vibration) (s : Scheduler τ) :
    (s.through f).vibrate (c.onto e) v = (s.vibrate c v).map id (through f) := by
  have hr : (s.through f).refusal? (c.onto e) v = s.refusal? c v := rfl
  unfold vibrate
  rw [hr]
  cases s.refusal? c v with
  | some status => rfl
  | none =>
    simp only
    rw [through_place h]
    rfl

/-- A packet that is sent to the stream that plays looks the same. -/
theorem through_sendPacket (packet : Stream) (p : Playback) (s : Scheduler τ) :
    (s.through f).sendPacket (c.onto e) packet p =
      (s.sendPacket c packet p).map id (through f) := by
  unfold sendPacket
  rw [through_issueIfConnected h]
  rcases s.issueIfConnected c (.stream packet p.id) with ⟨failure | reported, t⟩
  · exact congrArg (Prod.mk PacketFate.dropped) (through_release h (t.failCurrent c))
  · rfl

/-- So does one for which nobody waits. -/
theorem through_passPacket (packet : Stream) (s : Scheduler τ) :
    (s.through f).passPacket (c.onto e) packet = (s.passPacket c packet).map id (through f) := by
  unfold passPacket
  rw [current_through]
  split
  · rfl
  · next p hp =>
    rw [through_sendPacket h]
    split <;> rfl

/-- **A packet looks the same**, and is answered the same. -/
theorem through_packet (packet : Stream) (s : Scheduler τ) :
    (s.through f).packet (c.onto e) packet = (s.packet c packet).map id (through f) := by
  have ha : (s.through f).admitted = s.admitted := rfl
  unfold Scheduler.packet
  rw [through_passPacket h, next_through, ha]
  split
  · rfl
  · split
    · rfl
    · split <;> rfl

/-! ## What happens by itself -/

/-- The end of a command looks the same. -/
theorem through_completed (id : Nat) (s : Scheduler τ) :
    (s.through f).completed (c.onto e) id = (s.completed c id).through f := by
  unfold completed
  rw [through_release h, through_advance h, current_through]
  split
  · rfl
  · split
    · rfl
    · split
      · rfl
      · split <;> rfl

/-- So does the loss of the connection. -/
theorem through_lost (s : Scheduler τ) :
    (s.through f).lost (c.onto e) = (s.lost c).through f := by
  unfold lost
  rw [current_through]
  cases s.current with
  | none => rfl
  | some p =>
    exact through_release h (finishCurrent c .ignoredErrorScheduling
      { s.disconnect with admitted := none })

/-- **Every event looks the same.** -/
theorem through_handleEvent (event : ActuatorEvent) (s : Scheduler τ) :
    (s.through f).handleEvent (c.onto e) event = (s.handleEvent c event).through f := by
  cases event with
  | complete id => exact through_completed h id s
  | died => exact through_lost h s

/-- So does a deadline. -/
theorem through_handleDeadline (s : Scheduler τ) :
    (s.through f).handleDeadline (c.onto e) = (s.handleDeadline c).through f := by
  unfold handleDeadline
  rw [current_through]
  split
  · rfl
  · next p hp =>
    have hr := through_release h { s with current := some { p with deadline := none } }
    have ha := through_advance h { s with current := some { p with deadline := none } }
    have hn : (c.onto e).now = c.now := rfl
    rw [hn]
    split
    · simp only
      split
      · exact hr
      · exact ha
    · rfl

/-- The same event is heard, and the rest looks the same. -/
theorem through_hear (s : Scheduler τ) :
    (s.through f).hear (c.onto e) = (s.hear c).map (Prod.map id (through f)) := by
  unfold hear
  rw [show (c.onto e).device.hear (s.through f).line.actuator = _ from h.hear _, Option.map_map,
    Option.map_map]
  rfl

/-! ## External sources -/

/-- A source that asks for the motor looks the same. -/
theorem through_startExternal (request : ExternalRequest) (s : Scheduler τ) :
    (s.through f).startExternal (c.onto e) request =
      (s.startExternal c request).map id (through f) := by
  have hinstall (session : ExternalSession) (t : Scheduler τ) :
      (t.through f).install (c.onto e) session = (t.install c session).through f := by
    unfold install
    rw [external_through]
    cases t.external <;> rfl
  have hmake (t : Scheduler τ) : (t.through f).makeWay (c.onto e) = (t.makeWay c).through f := by
    unfold makeWay
    rw [through_dropNext, through_cancelCurrent h]
    exact through_activateExternal h _
  have hgrant (scale : ExternalScale) (t : Scheduler τ) :
      (t.through f).grant (c.onto e) request scale =
        (t.grant c request scale).map id (through f) := by
    unfold grant
    simp only
    rw [hinstall, hmake, external_through]
    split <;> rfl
  unfold startExternal openExternal
  rw [external_through, through_info? h]
  split
  · rfl
  · rcases s.info? c with ⟨_ | info, t⟩
    · rfl
    · simp only [Prod.map, id]
      rw [hgrant, show (c.onto e).policy = c.policy from rfl]
      split
      · rfl
      · split <;> rfl

/-- So does one that has waited long enough. -/
theorem through_externalTimedOut (id' : Nat) (s : Scheduler τ) :
    (s.through f).externalTimedOut (c.onto e) id' =
      (s.externalTimedOut c id').map id (through f) := by
  unfold externalTimedOut
  rw [external_through, through_endExternal h]
  split
  · rfl
  · split <;> rfl

/-- So does one that gives the motor back. -/
theorem through_stopExternal (id' : Nat) (s : Scheduler τ) :
    (s.through f).stopExternal (c.onto e) id' = (s.stopExternal c id').map id (through f) := by
  unfold stopExternal
  rw [external_through, through_endExternal h]
  split <;> rfl

/-! ## The other requests -/

/-- So does a client that cancels. -/
theorem through_cancel (filter : UsageFilter) (token : Nat) (s : Scheduler τ) :
    (s.through f).cancel (c.onto e) filter token =
      (s.cancel c filter token).map id (through f) := by
  unfold cancel
  rw [through_cancelWhere h]
  rcases s.cancelWhere c .cancelledByUser _ with ⟨count, t⟩
  simp only [Prod.map, id]
  rw [through_endExternal h,
    show (t.through f).externalMatches filter token = t.externalMatches filter token from rfl]
  split <;> rfl

/-- A look at the always-on effects looks the same. -/
theorem through_refreshAlwaysOn (s : Scheduler τ) :
    (s.through f).refreshAlwaysOn (c.onto e) = (s.refreshAlwaysOn c).through f := by
  have ha (t : Scheduler τ) : (t.through f).alwaysOn = t.alwaysOn := rfl
  unfold refreshAlwaysOn
  rw [through_reach h, ha]
  split
  · rfl
  · rcases s.reach c with ⟨failure | u, t⟩
    · rfl
    · simp only [Prod.map, id]
      rw [ha, AlwaysOn.through_refresh (through_issue h)]
      rfl

/-- So do new settings. -/
theorem through_settingsChanged (s : Scheduler τ) :
    (s.through f).settingsChanged (c.onto e) = (s.settingsChanged c).map id (through f) := by
  unfold settingsChanged
  rw [through_cancelWhere h]
  exact congrArg (Prod.mk _) (through_refreshAlwaysOn h _)

/-- So does a call. -/
theorem through_setCallState (state : CallState) (s : Scheduler τ) :
    (s.through f).setCallState (c.onto e) state = (s.setCallState c state).map id (through f) := by
  unfold setCallState
  split
  · exact through_cancelWhere h _ _ { s with callState := state }
  · rfl

/-- So does a request about an always-on effect. -/
theorem through_setAlwaysOn (request : AlwaysOnRequest) (s : Scheduler τ) :
    (s.through f).setAlwaysOn (c.onto e) request =
      (s.setAlwaysOn c request).map id (through f) := by
  unfold setAlwaysOn
  rw [through_info? h]
  rcases s.info? c with ⟨_ | info, t⟩
  · rfl
  · simp only [Prod.map, id]
    rw [show (t.through f).alwaysOn = t.alwaysOn from rfl, AlwaysOn.through_apply (through_issue h),
      show (c.onto e).policy = c.policy from rfl]
    split
    · rfl
    · rcases AlwaysOn.apply (issue c) c.policy t.alwaysOn request t with ⟨failure | u, registry, t'⟩
      · rfl
      · rfl

/-- So do new controls. -/
theorem through_updateControls (controls : Controls) (token : Option Nat) (s : Scheduler τ) :
    (s.through f).updateControls (c.onto e) controls token =
      (s.updateControls c controls token).map id (through f) := by
  unfold updateControls
  rw [current_through, through_issueIfConnected h]
  split
  · rcases s.issueIfConnected c (.controls controls) with ⟨failure | reported, t⟩
    · rfl
    · rfl
  · rfl

/-- So does a new mode. -/
theorem through_setMode (mode : Word) (s : Scheduler τ) :
    (s.through f).setMode (c.onto e) mode = (s.setMode c mode).map id (through f) := by
  have hq : (s.through f).quiesce (c.onto e) = (s.quiesce c).map id (through f) := by
    unfold quiesce
    rw [through_cancelCurrent h]
    rcases s.cancelCurrent c .cancelledBySettingsUpdate with ⟨_ | _, t⟩
    · simp only [Prod.map, id]
      rw [through_reachAndIssue h]
      rcases t.reachAndIssue c .stop with ⟨failure | reported, t'⟩
      · rfl
      · rfl
    · rfl
  unfold setMode
  rw [hq]
  rcases s.quiesce c with ⟨failure | u, t⟩
  · rfl
  · simp only [Prod.map, id]
    rw [through_reachAndIssue h]
    rcases t.reachAndIssue c (.haptic (modeParameter mode)) with ⟨failure | reported, t'⟩
    · rfl
    · rfl

/-! ## The whole -/

/-- **A scheduler does the same with both actuators** when it handles an input. -/
theorem through_step (input : Input) (s : Scheduler τ) :
    (s.through f).step (c.onto e) input = (s.step c input).through f := by
  cases input with
  | vibrate v => exact congrArg Prod.snd (through_vibrate h v s)
  | packet packet => exact congrArg Prod.snd (through_packet h packet s)
  | cancel filter token => exact congrArg Prod.snd (through_cancel h filter token s)
  | screenOff => exact congrArg Prod.snd (through_cancelWhere h _ _ s)
  | settingsChanged => exact congrArg Prod.snd (through_settingsChanged h s)
  | callState state => exact congrArg Prod.snd (through_setCallState h state s)
  | startExternal request => exact congrArg Prod.snd (through_startExternal h request s)
  | externalTimedOut id => exact congrArg Prod.snd (through_externalTimedOut h id s)
  | stopExternal id => exact congrArg Prod.snd (through_stopExternal h id s)
  | setAlwaysOn request => exact congrArg Prod.snd (through_setAlwaysOn h request s)
  | updateControls controls token =>
    exact congrArg Prod.snd (through_updateControls h controls token s)
  | setMode mode => exact congrArg Prod.snd (through_setMode h mode s)
  | askInfo => exact congrArg Prod.snd (through_info? h s)
  | event event => exact through_handleEvent h event s
  | deadline => exact through_handleDeadline h s

/-- So it does when everything is stopped. -/
theorem through_stopAll (s : Scheduler τ) :
    (s.through f).stopAll (c.onto e) = (s.stopAll c).through f := by
  have hs (t : Scheduler τ) : (t.through f).silence (c.onto e) = (t.silence c).through f := by
    unfold silence
    rw [current_through]
    split
    · rfl
    · next p hp => exact congrArg Prod.snd (through_issueIfConnected h (stopOrder p) t)
  have hf (t : Scheduler τ) : (t.through f).finishCurrent (c.onto e) .cancelledByUser =
      (t.finishCurrent c .cancelledByUser).through f := rfl
  unfold stopAll
  rw [through_dropNext, hs, hf, through_dropCurrent, through_endExternal h]

end dealing

end Scheduler

end Haptics
