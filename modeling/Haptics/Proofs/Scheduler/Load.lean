import Haptics.Proofs.Scheduler.Admission
import Haptics.Proofs.Scheduler.Words
import Haptics.Proofs.Waveform

/-!
# What is still to come

An actuator that reports the end of a command while the command is given answers every step with an
event at once, and this event starts the next step. So the events that wait to be heard are not all
that is still to come: each start order that a vibration may be given before one of its steps is
ended by its time alone brings one more (`Playback.ahead`). Only for a restless waveform there is no
end to them.

* `starts_add_ahead_le`: the start orders of a step are paid for by what was ahead.
* `Talk.brings`: what a talk brings is paid for by its start orders.
* `load_handleEvent`: to handle an event makes nothing more to come.
* `restful_handleEvent`: nor does it bring a restless waveform.
-/

namespace Haptics

/-- Whether an effect is a restless waveform. -/
def Effect.isRestless : Effect → Bool
  | waveform w => w.isRestless
  | _ => false

/-- How many of the orders start the motor. -/
def Order.starts (orders : List Order) : Nat := orders.countP Order.isStart

/-- How many orders start something does not depend on their order. -/
theorem Order.starts_reverse (orders : List Order) : starts orders.reverse = starts orders :=
  List.countP_reverse

namespace Playback

variable {p : Playback} {step : Step} {cursor : Nat}

/-- How many start orders the vibration may still need before one of its steps is ended by its time
alone, or before it has come to its end. -/
def ahead (p : Playback) : Nat :=
  match p.vibration.effect with
  | .waveform w => if p.stage = some .timed then 0 else w.stretch p.cursor
  | _ => if p.cursor = 0 then 1 + p.packets.length else 0

/-- To begin changes nothing about the effect. -/
theorem effect_begin (p : Playback) : p.begin.vibration.effect = p.vibration.effect := by
  unfold begin Vibration.start
  split <;> rfl

/-- To begin changes nothing about what is ahead. -/
theorem ahead_begin (p : Playback) : p.begin.ahead = p.ahead := by
  unfold ahead
  rw [effect_begin]
  rfl

/-- What is ahead of a waveform is its next stretch, unless it is silent. -/
theorem ahead_of_waveform {w : Waveform} (h : p.vibration.effect = .waveform w) :
    p.ahead = if p.stage = some .timed then 0 else w.stretch p.cursor := by
  rw [ahead, h]

/-- What is ahead of a single step is the step with its packets, unless it is in flight. -/
theorem ahead_of_single (h : ∀ w, p.vibration.effect ≠ .waveform w) :
    p.ahead = if p.cursor = 0 then 1 + p.packets.length else 0 := by
  unfold ahead
  split
  · next w hw => exact absurd hw (h w)
  · rfl

/-- Every effect but a waveform is one step. -/
theorem cursor_of_single (h : ∀ w, p.vibration.effect ≠ .waveform w)
    (hn : p.nextStep = some (step, cursor)) : p.cursor = 0 ∧ cursor = 1 := by
  unfold nextStep at hn
  split at hn
  · next w hw => exact absurd hw (h w)
  · split at hn
    · cases hn
    · next hzero =>
      obtain ⟨step', -, heq⟩ := Option.map_eq_some_iff.1 hn
      cases heq
      exact ⟨Nat.eq_zero_of_not_pos hzero, rfl⟩

/-- A step without packets needs one start order, or none if it is silent. -/
theorem starts_orders_le (hs : step.stage ≠ .stream) (info : ActuatorInfo) (id : Nat)
    (packets : List Stream) :
    Order.starts (step.orders info id packets) ≤ if step.stage = .timed then 0 else 1 := by
  cases step with
  | stream s => exact absurd rfl hs
  | off durationMs => exact Nat.le_refl _
  | prebaked effect => exact Nat.le_refl _
  | on durationMs amplitude =>
    simp only [Step.orders]
    split <;> exact Nat.le_refl _
  | envelope e =>
    simp only [Step.orders]
    split <;> exact Nat.le_refl _

/-- A stream needs one for itself and one for every packet that has been kept. -/
theorem starts_orders_stream (s : Stream) (info : ActuatorInfo) (id : Nat)
    (packets : List Stream) :
    Order.starts ((Step.stream s).orders info id packets) = 1 + packets.length := by
  have hp : Order.starts (packets.map fun packet => .stream packet id) = packets.length := by
    rw [Order.starts, List.countP_map]
    exact List.countP_eq_length.2 fun _ _ => rfl
  rw [Step.orders, Order.starts, List.countP_cons_of_pos rfl, Nat.add_comm]
  exact congrArg (1 + ·) hp

/-- **The orders of a step are paid for** by what is ahead of the vibration. -/
theorem starts_add_ahead_le (hr : p.vibration.effect.isRestless = false)
    (hs : p.stage ≠ some .timed) (hn : p.nextStep = some (step, cursor)) (info : ActuatorInfo)
    (id now : Nat) (span : Option Nat) :
    Order.starts (step.orders info id p.packets) + (p.launch step cursor now span).ahead ≤
      p.ahead := by
  by_cases hw : ∃ w, p.vibration.effect = .waveform w
  · obtain ⟨w, hw⟩ := hw
    have hseek : w.seek (w.timingsMs.length + 1) p.cursor = some (step, cursor) := by
      rw [← hn, nextStep, hw]
    have hstream := Waveform.stage_seek hseek
    have hstarts := starts_orders_le hstream info id p.packets
    rw [ahead_of_waveform hw, if_neg hs,
      ahead_of_waveform (p := p.launch step cursor now span) hw]
    cases hstage : step.stage with
    | stream => exact absurd hstage hstream
    | timed =>
      simp [launch, hstage] at hstarts ⊢
      omega
    | awaiting =>
      have hlt := Waveform.stretch_lt (by simpa [hw, Effect.isRestless] using hr) hseek hstage
      simp [launch, hstage] at hstarts ⊢
      omega
  · have hw : ∀ w, p.vibration.effect ≠ .waveform w := fun w he => hw ⟨w, he⟩
    obtain ⟨hzero, rfl⟩ := cursor_of_single hw hn
    rw [ahead_of_single hw, if_pos hzero, ahead_of_single (p := p.launch step 1 now span) hw]
    by_cases hstage : step.stage = .stream
    · obtain ⟨s, rfl, -⟩ := effect_of_nextStep hn hstage
      rw [starts_orders_stream]
      exact Nat.le_refl _
    · have hstarts := starts_orders_le hstage info id p.packets
      have hone : (if step.stage = .timed then 0 else 1) ≤ 1 := by split <;> decide
      rw [if_neg (show (p.launch step 1 now span).cursor ≠ 0 from Nat.one_ne_zero)]
      omega

/-- Whether the vibration comes to rest with a motor of this set-up, even if nothing holds it up but
the reports of the motor. -/
def Rests (config : MotorConfig) (p : Playback) : Prop :=
  config.completion = .immediate → p.vibration.effect.isRestless = false

/-- Whether a vibration comes to rest is told by its effect. -/
instance (config : MotorConfig) (p : Playback) : Decidable (p.Rests config) :=
  inferInstanceAs (Decidable (_ → _))

/-- It depends on the effect only. -/
theorem Rests.of_effect {config : MotorConfig} {q : Playback} (h : p.Rests config)
    (he : q.vibration.effect = p.vibration.effect) : q.Rests config := by
  intro hmode
  rw [he]
  exact h hmode

end Playback

/-! ## What orders bring -/

namespace Motor

/-- Commands echo one by one. -/
theorem echo_add (m : Motor) (a b : Nat) : m.echo (a + b) = m.echo a + m.echo b := by
  unfold echo
  split <;> rfl

/-- What the orders of a step bring is paid for by what is ahead of the vibration. -/
theorem echo_launch_le (m : Motor) {p : Playback} (hr : p.Rests m.config)
    (hs : p.stage ≠ some .timed) {step : Step} {cursor : Nat}
    (hn : p.nextStep = some (step, cursor)) (info : ActuatorInfo) (id now : Nat)
    (span : Option Nat) :
    m.echo (Order.starts (step.orders info id p.packets)) +
      m.echo (p.launch step cursor now span).ahead ≤ m.echo p.ahead := by
  unfold echo
  split
  · next hmode => exact Playback.starts_add_ahead_le (hr hmode) hs hn info id now span
  · exact Nat.le_refl 0

/-- Where nothing is started nothing echoes. -/
theorem echo_zero (m : Motor) : m.echo 0 = 0 := by
  unfold echo
  split <;> rfl

/-- More commands echo more. -/
theorem echo_mono (m : Motor) {a b : Nat} (h : a ≤ b) : m.echo a ≤ m.echo b := by
  unfold echo
  split
  · exact h
  · exact Nat.le_refl 0

end Motor

/-- Of two states of the bench, what orders have brought that start the motor so many times. -/
structure Bench.Brings (starts : Nat) (b b' : Bench) : Prop where
  config : b'.motor.config = b.motor.config
  events : b'.motor.events.length ≤ b.motor.events.length + b.motor.echo starts

namespace Bench.Brings

variable {b b' b'' : Bench} {m n : Nat}

/-- Where nothing happens no event comes. -/
theorem refl (b : Bench) : Brings 0 b b := ⟨rfl, Nat.le_add_right ..⟩

/-- The motor echoes as before. -/
theorem echo (h : Brings n b b') (k : Nat) : b'.motor.echo k = b.motor.echo k := by
  unfold Motor.echo
  rw [h.config]

/-- What two goes bring adds up. -/
theorem trans (h : Brings m b b') (h' : Brings n b' b'') : Brings (n + m) b b'' where
  config := h'.config.trans h.config
  events := by
    have hle := h.events
    have hle' := h'.events
    rw [h.echo] at hle'
    rw [Motor.echo_add]
    omega

/-- A connection brings no event. -/
theorem attached (b : Bench) : Brings 0 b b.attached := ⟨rfl, Nat.le_add_right ..⟩

/-- Nor does a call that fails. -/
theorem called (o : Order) (b : Bench) : Brings 0 b (b.called o) := ⟨rfl, Nat.le_add_right ..⟩

/-- An order brings what its start echoes. -/
theorem obeyed {o : Order} (ho : o ≠ .stop) (now : Nat) (b : Bench) :
    Brings o.isStart.toNat b (b.obeyed now o) :=
  ⟨(Motor.alike_obey ..).config, Motor.length_events_obey b.motor now ho⟩

end Bench.Brings

namespace Scheduler

variable {c : Context Bench} {s t : Scheduler Bench} {p q : Playback}

/-- **What a talk brings** is paid for by its start orders, if nothing is told to stop in it. -/
theorem Talk.brings (hd : c.device = Bench.device) {l m : Line Bench} {orders : List Order}
    (h : Talk c l orders m) (ho : Order.stop ∉ orders) :
    Bench.Brings (Order.starts orders) l.actuator m.actuator := by
  refine h.holds_of_words
    (motive := fun os m => Order.stop ∉ os → Bench.Brings (Order.starts os) l.actuator m.actuator)
    hd (fun _ => .refl _) (fun ih ho => ?_) (fun ih => ih) (@fun os m o ih _ ho => ?_)
    (fun o ih ho => ?_) ho
  · simpa using (ih ho).trans (.attached _)
  · rw [List.mem_cons, not_or] at ho
    have hstarts : Order.starts (o :: os) = o.isStart.toNat + Order.starts os := by
      cases hs : o.isStart <;> simp [Order.starts, hs, Nat.add_comm]
    rw [hstarts]
    exact (ih ho.2).trans (.obeyed (Ne.symm ho.1) c.now _)
  · simpa using (ih ho).trans (.called o _)

/-- How many events wait to be heard. -/
def unheard (s : Scheduler Bench) : Nat := s.line.actuator.motor.events.length

/-- How many events so many start orders bring while they are given. -/
def echo (s : Scheduler Bench) (starts : Nat) : Nat := s.line.actuator.motor.echo starts

/-- What is still to come without whoever holds the motor: the events that wait, and those for the
start orders that the vibration needs that waits. -/
def backlog (s : Scheduler Bench) : Nat := s.unheard + s.echo (s.next.elim 0 Playback.ahead)

/-- What is still to come. -/
def load (s : Scheduler Bench) : Nat := s.backlog + s.echo (s.current.elim 0 Playback.ahead)

/-- The set-up of the motor. -/
def setUp (s : Scheduler Bench) : MotorConfig := s.line.actuator.motor.config

/-- Where the same vibration waits, what is still to come grows by what orders have brought. -/
theorem backlog_le {starts : Nat} (h : Bench.Brings starts s.line.actuator t.line.actuator)
    (hn : t.next = s.next) : t.backlog ≤ s.backlog + s.echo starts := by
  have he := h.events
  unfold backlog unheard echo
  rw [hn, h.echo]
  omega

/-- A step does not silence anything. -/
theorem stop_not_mem_orders (step : Step) (info : ActuatorInfo) (id : Nat)
    (packets : List Stream) : Order.stop ∉ step.orders info id packets := by
  cases step <;> simp [Step.orders]

/-- **A step makes nothing more to come.** -/
theorem Started.load_le {answer : Bool × Scheduler Bench} (h : Started c s p answer)
    (hd : c.device = Bench.device) (hp : s.current = some p) (hr : p.Rests s.setUp)
    (hs : p.stage ≠ some .timed) :
    answer.2.backlog ≤ s.load ∧ (answer.1 = false → answer.2.load ≤ s.load) := by
  have hload : s.load = s.backlog + s.echo p.ahead := by rw [load, hp]; rfl
  cases h with
  | exhausted hn => exact ⟨Nat.le_add_right .., fun hb => (by cases hb)⟩
  | @failed line step cursor info given hn ht hg =>
    have hb := ht.brings hd fun hm =>
      stop_not_mem_orders step info p.id p.packets (hg.subset (List.mem_reverse.1 hm))
    have hle := backlog_le (t := (s.told line given.reverse).failCurrent c) hb rfl
    have hpaid := s.line.actuator.motor.echo_launch_le hr hs hn info p.id 0 none
    -- the orders that were taken are some of those of the step, and echo no more than these
    have hgiven : s.echo (Order.starts given.reverse) ≤
        s.echo (Order.starts (step.orders info p.id p.packets)) := by
      refine Motor.echo_mono _ ?_
      rw [Order.starts_reverse]
      exact hg.sublist.countP_le
    refine ⟨Nat.le_trans hle ?_, fun hb => (by cases hb)⟩
    unfold echo at *
    omega
  | @launched line step cursor info hn ht reported =>
    have hb := ht.brings hd fun hm =>
      stop_not_mem_orders step info p.id p.packets (List.mem_reverse.1 hm)
    rw [Order.starts_reverse] at hb
    have hle := backlog_le (t := s.told line (step.orders info p.id p.packets).reverse) hb rfl
    have hpaid := s.line.actuator.motor.echo_launch_le hr hs hn info p.id c.now
      (step.span reported c.config.prebakedFallbackMs)
    -- what was ahead pays for the orders of the step and for what is ahead of it
    have hsum : s.backlog + s.echo (Order.starts (step.orders info p.id p.packets)) +
        s.echo (p.launch step cursor c.now
          (step.span reported c.config.prebakedFallbackMs)).ahead ≤ s.load := by
      unfold echo at *
      omega
    refine ⟨Nat.le_trans hle (Nat.le_trans (Nat.le_add_right ..) hsum), fun _ => ?_⟩
    refine Nat.le_trans (Nat.add_le_add hle ?_) hsum
    exact Nat.le_of_eq (hb.echo _)

/-! ## Giving up the motor -/

/-- Whoever holds the motor goes without an event. -/
theorem brings_vacate (hd : c.device = Bench.device) (s : Scheduler Bench) :
    Bench.Brings 0 s.line.actuator (s.vacate c).line.actuator := by
  have hline : (s.dropCurrent c).line = s.line := by
    unfold dropCurrent
    split <;> rfl
  obtain ⟨orders, ht, ho⟩ := (talk_activateExternal c (s.dropCurrent c)).1
  have hb := ht.brings hd fun hm => by cases ho _ hm
  have hstarts : Order.starts orders = 0 := by
    refine List.countP_eq_zero.2 fun o hm => ?_
    rw [ho o hm]
    decide
  rwa [hstarts, hline] at hb

/-- Who gives up the motor takes along what was ahead of it. -/
theorem load_vacate (hd : c.device = Bench.device) (s : Scheduler Bench) :
    (s.vacate c).load ≤ s.backlog := by
  have hle := backlog_le (brings_vacate hd s) (next_vacate c s)
  unfold load
  rw [current_vacate]
  simpa [echo, Motor.echo_zero] using hle

/-- A vibration that begins is paid for by what is ahead of it. -/
theorem load_begin (hd : c.device = Bench.device) (hn : s.next = none) (hr : q.Rests s.setUp)
    (hs : q.stage ≠ some .timed) :
    (s.begin c q).2.backlog ≤ s.unheard + s.echo q.ahead ∧
      ((s.begin c q).1 = false → (s.begin c q).2.load ≤ s.unheard + s.echo q.ahead) := by
  have hstarted := started_startStep (c := c) (s := s.takenBy q) rfl
  have hr' : q.begin.Rests s.setUp := hr.of_effect q.effect_begin
  have hload : (s.takenBy q).load = s.unheard + s.echo q.ahead := by
    rw [← Playback.ahead_begin q, load, backlog]
    change s.unheard + s.echo (s.next.elim 0 Playback.ahead) + _ = _
    rw [hn]
    simp [echo, Motor.echo_zero, takenBy]
  rw [← hload]
  exact hstarted.load_le hd rfl hr' hs

/-- **To give up the motor makes nothing more to come**: what whoever waits for it needs has been
counted. -/
theorem load_release (hd : c.device = Bench.device)
    (hq : ∀ q ∈ s.next, q.Rests s.setUp ∧ q.stage ≠ some .timed) :
    (s.release c).load ≤ s.backlog := by
  have hv := load_vacate hd s
  have hconfig : ({ s.vacate c with next := none } : Scheduler Bench).setUp = s.setUp :=
    (brings_vacate hd s).config
  unfold release
  simp only
  split
  · next q he hn =>
    obtain ⟨hr, hstage⟩ := hq q ((next_vacate c s).symm.trans hn)
    obtain ⟨hb, hl⟩ :=
      load_begin (s := { s.vacate c with next := none }) hd rfl (hconfig ▸ hr) hstage
    -- what was ahead of the one who waited is now ahead of the one who holds the motor
    have hahead : (s.vacate c).backlog = (s.vacate c).unheard + (s.vacate c).echo q.ahead := by
      rw [backlog, hn]
      rfl
    have hle : (s.vacate c).backlog ≤ s.backlog := Nat.le_trans (Nat.le_add_right ..) hv
    rw [hahead] at hle
    split
    · next t ht =>
      rw [ht] at hb
      exact Nat.le_trans (load_vacate hd t) (Nat.le_trans hb hle)
    · next t ht =>
      rw [ht] at hl
      exact Nat.le_trans (hl rfl) hle
  · exact hv

/-! ## Handling an event -/

/-- Whether nobody can keep the motor busy without end. -/
structure Restful (s : Scheduler Bench) : Prop where
  holder : ∀ p ∈ s.current, p.Rests s.setUp
  waiting : ∀ q ∈ s.next, q.Rests s.setUp

/-- The load is what waits and what is ahead. -/
theorem backlog_le_load (s : Scheduler Bench) : s.backlog ≤ s.load := Nat.le_add_right ..

/-- A vibration that waits has no step in flight. -/
theorem Settled.stage_of_next {σ : Type} {s : Scheduler σ} (h : s.Settled) (hq : s.next = some q) :
    q.stage ≠ some .timed := by
  rw [(h.waiting q hq).1.eq]
  simp

/-- A step leaves the motor set up as it is. -/
theorem Started.setUp_eq {answer : Bool × Scheduler Bench} (h : Started c s p answer)
    (hd : c.device = Bench.device) : answer.2.setUp = s.setUp := by
  cases h with
  | exhausted hn => rfl
  | failed hn ht hg => exact (Talk.reset ht).config_eq hd
  | launched hn ht reported => exact ht.config_eq hd

/-- Whoever goes on has so much less ahead. -/
theorem load_advance (hd : c.device = Bench.device) (h : s.Settled) (hr : s.Restful)
    (hp : s.current = some p) (hs : p.stage ≠ some .timed) : (s.advance c).load ≤ s.load := by
  have hstarted := started_startStep (c := c) hp
  have hnext := hstarted.frame.1
  have hsetUp := hstarted.setUp_eq hd
  obtain ⟨hb, hl⟩ := hstarted.load_le hd hp (hr.holder p hp) hs
  unfold advance
  split
  · next t ht =>
    rw [ht] at hnext hsetUp hb
    refine Nat.le_trans (load_release hd fun q hq => ?_) hb
    have hq : s.next = some q := hnext.symm.trans hq
    exact ⟨hsetUp ▸ hr.waiting q hq, h.stage_of_next hq⟩
  · next t ht =>
    rw [ht] at hl
    exact hl rfl

/-- The end of a command makes nothing more to come. -/
theorem load_completed (hd : c.device = Bench.device) (h : s.Settled) (hr : s.Restful) (id : Nat) :
    (s.completed c id).load ≤ s.load := by
  rcases completed_cases c id s with heq | ⟨p, hp, -, ⟨-, heq⟩ | ⟨-, hstage, heq⟩⟩
  · exact Nat.le_of_eq (congrArg load heq)
  · rw [heq]
    refine Nat.le_trans (load_release hd fun q hq => ?_) s.backlog_le_load
    exact ⟨hr.waiting q hq, h.stage_of_next hq⟩
  · rw [heq]
    refine load_advance hd h hr hp ?_
    rcases hstage with hstage | hstage <;> simp [hstage]

/-- Nor does the loss of the connection. -/
theorem load_lost (hd : c.device = Bench.device) (h : s.Settled) (hr : s.Restful) :
    (s.lost c).load ≤ s.load := by
  cases hp : s.current with
  | none =>
    have hcut : ({ s.disconnect with admitted := none } : Scheduler Bench).current = none := hp
    rw [lost_of_none hp, struck, finishCurrent_of_none c hcut]
    exact Nat.le_refl _
  | some p =>
    rw [lost_of_some hp]
    refine Nat.le_trans (load_release hd fun q hq => ?_) s.backlog_le_load
    exact ⟨hr.waiting q hq, h.stage_of_next hq⟩

/-- **To handle an event makes nothing more to come.** -/
theorem load_handleEvent (hd : c.device = Bench.device) (h : s.Settled) (hr : s.Restful)
    (event : ActuatorEvent) : (s.handleEvent c event).load ≤ s.load := by
  cases event with
  | complete id => exact load_completed hd h hr id
  | died => exact load_lost hd h hr

/-- It depends on how the motor is set up and on who is there. -/
theorem Restful.of_setUp (hr : s.Restful) (hs : t.setUp = s.setUp) (hc : t.current = s.current)
    (hn : t.next = s.next) : t.Restful where
  holder := by rw [hc, hs]; exact hr.holder
  waiting := by rw [hn, hs]; exact hr.waiting

/-- Where nobody is asking, nobody new comes by a change. -/
theorem Change.restful {leave : Playback → Prop} {m m' : Moment Bench}
    (hc : Change c leave m m') (hd : c.device = Bench.device)
    (h : m.asking = none ∧ m.scheduler.Restful) : m'.asking = none ∧ m'.scheduler.Restful := by
  -- nobody is asking, which rules out the changes that let a request in
  obtain ⟨ha, hr⟩ := h
  cases hc with
  | talked ht hp => exact ⟨ha, hr.of_setUp (ht.config_eq hd) rfl rfl⟩
  | refused hs => cases ha
  | queued hn => cases ha
  | entered hc he hv => cases ha
  | @promoted x s q hq hc he hu =>
    refine ⟨ha, ?_, by simp [takenBy]⟩
    rintro _ ⟨⟩
    exact (hr.waiting q hq).of_effect q.effect_begin
  | @stacked x s q hq packet =>
    refine ⟨ha, hr.holder, ?_⟩
    rintro _ ⟨⟩
    exact (hr.waiting q hq).of_effect rfl
  | dropped hq hs => exact ⟨ha, hr.holder, by simp [retire]⟩
  | @turned x s p p' hp ht =>
    refine ⟨ha, ?_, hr.waiting⟩
    rintro _ ⟨⟩
    exact (hr.holder p hp).of_effect ht.becomes.effect_eq
  | @halted x s p line hp hs hf hc ht =>
    have htold : (s.told line [.stop]).Restful := hr.of_setUp (ht.config_eq hd) rfl rfl
    refine ⟨ha, ?_, htold.waiting⟩
    rw [current_halted hp c line]
    rintro _ ⟨⟩
    exact (htold.holder p hp).of_effect rfl
  | left hp hl => exact ⟨ha, by simp [retire], hr.waiting⟩
  | _ => exact ⟨ha, hr.of_setUp rfl rfl rfl⟩

/-- To handle an event leaves nobody who can keep the motor busy without end. -/
theorem restful_handleEvent (hd : c.device = Bench.device) (h : s.Settled) (hr : s.Restful)
    (event : ActuatorEvent) : (s.handleEvent c event).Restful := by
  have hreach := (settles_handleEvent (c := c) h event).reaches none
  exact (holds_of_changes (I := fun m => m.asking = none ∧ m.scheduler.Restful)
    (fun hc hm => hc.restful hd hm) hreach ⟨rfl, hr⟩).2

end Scheduler

end Haptics
