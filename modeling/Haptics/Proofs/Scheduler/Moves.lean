import Haptics.Proofs.Actuator.Motor
import Haptics.Proofs.Scheduler.Operations

/-!
# What is done beside sessions

Most of what a scheduler does is about vibrations. A session comes into it in one way only: when the
motor is free the session that waits takes it, or is gone because the actuator cannot be handed
over. No session is put in place, and none ends that has the motor. So it is made of *moves* of a
few kinds (`Move`), and what every move keeps is kept by all of it.

* `moves_activateExternal`: the session that waits takes the motor.
* `moves_release`, `moves_cancelCurrent` and so on: the pieces of work.
* `moves_step`: every input that is not about sessions (`Input.isForSessions`).
-/

namespace Haptics

/-- The session that a deed has dismissed. -/
def Deed.dismissed? : Deed → Option ExternalSession
  | .dismissed e => some e
  | _ => none

/-- The steps of a vibration leave the motor in the hands in which it is. -/
theorem Step.control?_of_mem_orders {step : Step} {info : ActuatorInfo} {id : Nat}
    {packets : List Stream} {o : Order} (h : o ∈ step.orders info id packets) :
    o.control? = none := by
  cases o with
  | externalControl enabled => cases step <;> simp [Step.orders] at h
  | _ => rfl

namespace Scheduler

variable {σ : Type} {c : Context σ} {s t u : Scheduler σ} {p q : Playback}

/-! ## Moves -/

/-- The sessions that have ended, the earliest first. -/
def departed (s : Scheduler σ) : List ExternalSession :=
  (s.journal.filterMap Deed.dismissed?).reverse

/-- A talk ends no session. -/
theorem departed_told (line : Line σ) (orders : List Order) (s : Scheduler σ) :
    (s.told line orders).departed = s.departed := by
  have ho : (orders.map Deed.issued).filterMap Deed.dismissed? = [] := by
    rw [List.filterMap_eq_nil_iff]
    intro d hd
    obtain ⟨o, -, rfl⟩ := List.mem_map.1 hd
    rfl
  rw [departed, journal_told, List.filterMap_append, ho]
  rfl

/-- How a scheduler stands with its actuator and with sessions. -/
structure Standing (σ : Type) where
  /-- The actuator. -/
  actuator : σ
  /-- The session that waits for the motor or has it. -/
  external : Option ExternalSession
  /-- The sessions that have ended, the earliest first. -/
  departed : List ExternalSession
  /-- Those of them that are kept. -/
  externals : List ExternalInfo
  /-- How many are kept. -/
  externalLimit : Nat

/-- How the scheduler stands with its actuator and with sessions. -/
def standing (s : Scheduler σ) : Standing σ where
  actuator := s.line.actuator
  external := s.external
  departed := s.departed
  externals := s.history.externals
  externalLimit := s.history.externalLimit

/-- One of the things that a scheduler does beside sessions. -/
inductive Move (c : Context σ) (s : Scheduler σ) : Scheduler σ → Prop where
  /-- It talks to the actuator, but not about the hands in which the motor is. -/
  | talked {line : Line σ} {orders : List Order} (ht : Talk c s.line orders line)
      (ho : ∀ o ∈ orders, o.control? = none) : Move c s (s.told line orders)
  /-- It sees to vibrations. -/
  | tended {t : Scheduler σ} (h : t.standing = s.standing) : Move c s t
  /-- The session that waits takes the motor. -/
  | seized {line : Line σ} {e : ExternalSession} (ht : Talk c s.line [.externalControl true] line)
      (he : s.external = some e) (ha : e.active = false) :
      Move c s ((s.told line [.externalControl true]).seize e)
  /-- The session that waits is gone, as the actuator cannot be handed over. -/
  | failed {line : Line σ} {e : ExternalSession} (ht : Talk c s.line [] line)
      (he : s.external = some e) (ha : e.active = false) :
      Move c s ((s.told line []).dismiss c .ignoredErrorScheduling e)

/-- Moves lead from one state to another. -/
def Moves (c : Context σ) (s t : Scheduler σ) : Prop := Relation.ReflTransGen (Move c) s t

/-- A single move. -/
theorem Move.moves (h : Move c s t) : Moves c s t := .single h

/-- No move at all. -/
theorem Moves.refl (c : Context σ) (s : Scheduler σ) : Moves c s s := Relation.ReflTransGen.refl

/-- Moves after moves. -/
theorem Moves.trans (h : Moves c s t) (h' : Moves c t u) : Moves c s u :=
  Relation.ReflTransGen.trans h h'

/-- To see to vibrations only is a move. -/
theorem moves_tended (h : t.standing = s.standing) : Moves c s t := (Move.tended h).moves

/-! ## Talks -/

/-- An order that leaves the motor in its hands is a move, taken or refused. -/
theorem Dispatch.moves {o : Order} {answer : Except Failure Nat × Scheduler σ}
    (h : Dispatch c o s answer) (ho : o.control? = none) : Moves c s answer.2 := by
  cases h with
  | taken ht reported => exact (Move.talked ht (by simpa using ho)).moves
  | refused ht e => exact (Move.talked ht (List.forall_mem_nil _)).moves

/-! ## Pieces of work -/

/-- The end of whoever waits is a move. -/
theorem moves_dropNext (c : Context σ) (status : Status) (s : Scheduler σ) :
    Moves c s (s.dropNext c status) := by
  unfold dropNext
  split
  · exact .refl c s
  · exact moves_tended rfl

/-- So is the end of whoever holds the motor. -/
theorem moves_dropCurrent (c : Context σ) (s : Scheduler σ) : Moves c s (s.dropCurrent c) := by
  unfold dropCurrent
  split
  · exact .refl c s
  · exact moves_tended rfl

/-- **The session that waits takes the motor**, or is gone. -/
theorem moves_activateExternal (c : Context σ) (s : Scheduler σ) :
    Moves c s (s.activateExternal c) := by
  have h := activated_activateExternal c s
  generalize s.activateExternal c = t at h
  cases h with
  | idle h => exact .refl c s
  | seized hc he ha ht => exact (Move.seized ht he ha).moves
  | failed hc he ha ht => exact (Move.failed ht he ha).moves

/-- To give up the motor is made of moves. -/
theorem moves_vacate (c : Context σ) (s : Scheduler σ) : Moves c s (s.vacate c) :=
  (moves_dropCurrent c s).trans (moves_activateExternal c _)

/-- So is the attempt to start a step. -/
theorem Started.moves {answer : Bool × Scheduler σ} (h : Started c s p answer) :
    Moves c s answer.2 := by
  cases h with
  | exhausted hn => exact moves_tended rfl
  | failed hn ht hg =>
    refine (Move.talked ht fun o ho => ?_).moves.trans (moves_tended rfl)
    exact Step.control?_of_mem_orders (hg.subset (List.mem_reverse.1 ho))
  | launched hn ht reported =>
    refine (Move.talked ht fun o ho => ?_).moves.trans (moves_tended rfl)
    exact Step.control?_of_mem_orders (List.mem_reverse.1 ho)

/-- So it is when a vibration takes the motor. -/
theorem moves_begin (c : Context σ) (q : Playback) (s : Scheduler σ) :
    Moves c s (s.begin c q).2 := by
  have ht : Moves c s (s.takenBy q) := moves_tended rfl
  exact ht.trans (started_startStep (s := s.takenBy q) rfl).moves

/-- So it is when the motor is given up and goes to whoever waits. -/
theorem moves_release (c : Context σ) (s : Scheduler σ) : Moves c s (s.release c) := by
  have hv := moves_vacate c s
  unfold release
  simp only
  split
  · next q he hq =>
    have hn : Moves c (s.vacate c) { s.vacate c with next := none } := moves_tended rfl
    have hb := (hv.trans hn).trans (moves_begin c q _)
    split
    · next t ht =>
      rw [ht] at hb
      exact hb.trans (moves_vacate c t)
    · next t ht => rwa [ht] at hb
  · exact hv

/-- So it is when whoever holds the motor goes on. -/
theorem moves_advance (c : Context σ) (s : Scheduler σ) : Moves c s (s.advance c) := by
  have hs : Moves c s (s.startStep c).2 := by
    cases hp : s.current with
    | none =>
      unfold startStep
      rw [hp]
      exact .refl c s
    | some p => exact (started_startStep hp).moves
  unfold advance
  split
  · next t ht =>
    rw [ht] at hs
    exact hs.trans (moves_release c t)
  · next t ht => rwa [ht] at hs

/-- So it is when whoever holds the motor is cancelled. -/
theorem moves_cancelCurrent (c : Context σ) (status : Status) (s : Scheduler σ) :
    Moves c s (s.cancelCurrent c status).2 := by
  rcases cancelCurrent_cases c status s with ⟨heq, -⟩ | ⟨p, -, -, hc⟩
  · rw [heq]
    exact .refl c s
  · have hf : Moves c s (s.finishCurrent c status) := moves_tended rfl
    generalize (s.cancelCurrent c status).2 = t at hc
    cases hc with
    | halted hflight ht =>
      have htold := (Move.talked ht (by simp [Order.control?])).moves
      exact (hf.trans htold).trans (moves_tended rfl)
    | released ht ho =>
      have htold := (Move.talked ht fun o hm => by rw [ho o hm]; rfl).moves
      exact (hf.trans htold).trans (moves_release c _)

/-- To make way for a session that waits. -/
theorem moves_makeWay (c : Context σ) (s : Scheduler σ) : Moves c s (s.makeWay c) :=
  ((moves_dropNext c .ignoredForExternal s).trans (moves_cancelCurrent c _ _)).trans
    (moves_activateExternal c _)

/-- When everything is stopped, the actuator is told to stop what holds the motor. -/
theorem moves_silence (c : Context σ) (s : Scheduler σ) : Moves c s (s.silence c) := by
  unfold silence
  split
  · exact .refl c s
  · next p hp =>
    refine (dispatch_issueIfConnected c (stopOrder p) s).moves ?_
    unfold stopOrder
    split <;> rfl

/-! ## Inputs -/

/-- An errand that is not about sessions is a move. -/
theorem Errand.moves (h : Errand c false s t) : Moves c s t := by
  cases h with
  | talked ht ho hs => exact (Move.talked ht fun o hm => (ho o hm).2).moves
  | noted callState alwaysOn => exact moves_tended rfl
  | ended hb hs => cases hb

/-- Whatever leaves the holder of the motor alone, and is not about sessions, is made of moves. -/
theorem Asides.moves (h : Asides c false s t) : Moves c s t := by
  induction h with
  | refl => exact .refl c s
  | tail _ ha ih =>
    refine ih.trans ?_
    cases ha with
    | errand he => exact he.moves
    | dropped hs => exact moves_dropNext c _ _

/-- **A demand that is not about sessions is made of moves.** -/
theorem Conduct.moves (h : Conduct c false s t) : Moves c s t := by
  cases h with
  | aside ha => exact ha.moves
  | stroke ha hs ha' =>
    cases hs with
    | cancelled hs => exact (ha.moves.trans (moves_cancelCurrent c _ _)).trans ha'.moves
    | granted hb request scale => cases hb

/-- So is what becomes of a packet. -/
theorem moves_packet (c : Context σ) (packet : Stream) (s : Scheduler σ) :
    Moves c s (s.packet c packet).2 := by
  have hpassed := passed_packet c packet s
  generalize s.packet c packet = answer at hpassed
  cases hpassed with
  | kept hx hq hs => exact moves_tended rfl
  | taken hx hp hst hs hf ht =>
    exact (Move.talked (.taken (.silence _) ht) (by simp [Order.control?])).moves
  | @refused p x line hx hp hst hs ht =>
    have htold : Moves c s (s.told line []) := (Move.talked ht (List.forall_mem_nil _)).moves
    have hfailed : Moves c (s.told line []) ((s.told line []).failCurrent c) := moves_tended rfl
    exact (htold.trans hfailed).trans (moves_release c _)
  | ignored => exact .refl c s

/-- So is what becomes of a request. -/
theorem moves_vibrate (c : Context σ) (v : Vibration) (s : Scheduler σ) :
    Moves c s (s.vibrate c v).2 := by
  cases hr : s.refusal? c v with
  | some status =>
    rw [vibrate_of_refusal? hr]
    exact moves_tended rfl
  | none =>
    rw [vibrate_of_welcome hr]
    -- whoever waits goes first; then the motor is taken or its holder is cancelled
    have hready : Moves c s (s.readyFor c v) :=
      (moves_dropNext c .ignoredSuperseded s).trans (moves_tended rfl)
    cases hc : s.current with
    | none =>
      rw [place_of_none hc]
      have hb := hready.trans (moves_begin c { vibration := v } _)
      unfold occupy
      split
      · next t ht =>
        rw [ht] at hb
        exact hb.trans (moves_release c t)
      · next t ht => rwa [ht] at hb
    | some p =>
      rw [place_of_some hc]
      have hn : Moves c s { s.readyFor c v with next := some { vibration := v } } :=
        hready.trans (moves_tended rfl)
      exact hn.trans (moves_cancelCurrent c .cancelledSuperseded _)

/-- So is what becomes of an event of the actuator. -/
theorem moves_handleEvent (c : Context σ) (event : ActuatorEvent) (s : Scheduler σ) :
    Moves c s (s.handleEvent c event) := by
  cases event with
  | complete id =>
    change Moves c s (s.completed c id)
    rcases completed_cases c id s with heq | ⟨p, -, -, ⟨-, heq⟩ | ⟨-, -, heq⟩⟩ <;> rw [heq]
    · exact .refl c s
    · exact moves_release c s
    · exact moves_advance c s
  | died =>
    have hstruck : Moves c s (s.struck c) := moves_tended rfl
    change Moves c s (s.lost c)
    cases hp : s.current with
    | none => rwa [lost_of_none hp]
    | some p =>
      rw [lost_of_some hp]
      exact hstruck.trans (moves_release c _)

/-- So is what becomes of a deadline. -/
theorem moves_handleDeadline (c : Context σ) (s : Scheduler σ) :
    Moves c s (s.handleDeadline c) := by
  rcases handleDeadline_cases c s with heq | ⟨p, -, -, -, -, ⟨-, heq⟩ | ⟨-, heq⟩⟩ <;> rw [heq]
  · exact .refl c s
  · exact moves_release c s
  · have hn : Moves c s { s with current := some { p with deadline := none } } := moves_tended rfl
    exact hn.trans (moves_advance c _)

/-- **An input that is not about sessions is made of moves.** -/
theorem moves_step {input : Input} (h : input.isForSessions = false) (c : Context σ)
    (s : Scheduler σ) : Moves c s (s.step c input) := by
  have hconduct (hd : input.isDemand = true) : Moves c s (s.step c input) := by
    have hstep := conduct_step hd c s
    rw [h] at hstep
    exact hstep.moves
  cases input with
  | vibrate v => exact moves_vibrate c v s
  | packet packet => exact moves_packet c packet s
  | event event => exact moves_handleEvent c event s
  | deadline => exact moves_handleDeadline c s
  | cancel filter token => cases h
  | startExternal request => cases h
  | externalTimedOut id => cases h
  | stopExternal id => cases h
  | _ => exact hconduct rfl

end Scheduler

end Haptics
