import Haptics.Proofs.Scheduler.Deaths
import Haptics.Proofs.Scheduler.Entry
import Haptics.Proofs.Scheduler.Starts
import Haptics.Proofs.Waveform

/-!
# Steps of waveforms and their start orders

A loud step of a waveform comes with one start order, and a silent step with none. So of a waveform
that has just taken the motor the start orders tell which step is in flight
(`Playback.Stepped`).

What a scheduler does when it is called, when it is stopped or when the connection is gone is of two
kinds, as far as waveforms are concerned: it gives no start order and leaves the waveform that holds
the motor as it is, or another waveform takes the motor (`Succeeds`). Only the end of a step makes a
waveform go on.

* `stepped_launch`: the start orders of a step.
* `advance_cases`: what comes of the end of a step.
* `debuts_release`: who takes the motor when it is given up.
* `succeeds_step`, `succeeds_lost`: what a client asks for, and the loss of the connection.
-/

namespace Haptics

/-- Whether an input comes from a client. -/
def Input.isClient : Input → Bool
  | .event _ | .deadline => false
  | _ => true

/-- The step of a waveform has been launched: its start order, if it is loud, is behind the
earlier ones. -/
inductive Playback.Stepped (p : Playback) (earlier : List Order) : List Order → Prop
  | loud {w : Waveform} {durationMs : Nat} {amplitude : UInt8}
      (hw : p.vibration.effect = .waveform w) (hs : p.stage = some .awaiting)
      (hstep : w.stepAt? (p.cursor - 1) = some (.on durationMs amplitude)) :
      p.Stepped earlier (.on durationMs p.id :: earlier)
  | silent (hs : p.stage = some .timed) : p.Stepped earlier earlier

/-- A step that the actuator may end has a start order. -/
theorem Playback.Stepped.length_lt {p : Playback} {earlier orders : List Order}
    (h : p.Stepped earlier orders) (hs : p.stage = some .awaiting) :
    earlier.length < orders.length := by
  cases h with
  | loud hw hs' hstep => exact Nat.lt_succ_self _
  | silent hs' => cases hs.symm.trans hs'

/-- The next step of a waveform is that of the entry before the cursor. -/
theorem Playback.stepAt?_of_nextStep {p : Playback} {w : Waveform}
    (hw : p.vibration.effect = .waveform w) {step : Step} {cursor : Nat}
    (hn : p.nextStep = some (step, cursor)) : w.stepAt? (cursor - 1) = some step := by
  have hseek : w.seek (w.timingsMs.length + 1) p.cursor = some (step, cursor) := by
    rw [← hn, nextStep, hw]
  obtain ⟨index, rfl, hstep, -⟩ := Waveform.seek_spec hseek
  exact hstep

/-- **The start orders of a step.** -/
theorem Playback.stepped_launch {p : Playback} {w : Waveform}
    (hw : p.vibration.effect = .waveform w) {step : Step} {cursor : Nat}
    (hn : p.nextStep = some (step, cursor)) (info : ActuatorInfo) (now : Nat) (span : Option Nat)
    (earlier : List Order) :
    (p.launch step cursor now span).Stepped earlier
      ((step.orders info p.id p.packets).reverse.filter Order.isStart ++ earlier) := by
  have hstep := stepAt?_of_nextStep hw hn
  rcases Waveform.on_or_off_of_stepAt? hstep with ⟨durationMs, amplitude, rfl⟩ | ⟨durationMs, rfl⟩
  · have ho : ((Step.on durationMs amplitude).orders info p.id p.packets).reverse.filter
        Order.isStart = [.on durationMs p.id] := by
      simp only [Step.orders]
      split <;> rfl
    rw [ho]
    exact .loud hw rfl hstep
  · exact .silent rfl

/-- What is in flight as a stream is no waveform. -/
theorem Playback.Genuine.ne_waveform {p : Playback} (h : p.Genuine)
    (hf : p.hasStreamInFlight = true) (w : Waveform) : p.vibration.effect ≠ .waveform w := by
  intro hw
  have hs := h hf
  rw [hw] at hs
  cases hs

namespace Scheduler

open Occurrence

variable {σ : Type} {c : Context σ} {s t u : Scheduler σ} {p q : Playback} {v : Vibration}
  {x : Option Vibration}

/-! ## Who takes the motor -/

/-- A waveform that was asked for, or has waited, has taken the motor, and its first step has been
launched. Before it nobody has been started but who was there. -/
structure Debuts (x : Option Vibration) (s t : Scheduler σ) (q : Playback) : Prop where
  awaited : (∃ v ∈ x, v.id = q.id) ∨ ∃ q' ∈ s.next, q'.id = q.id
  launched : ∃ earlier, q.Stepped earlier t.startOrders ∧ s.startOrders <:+ earlier ∧
    ∀ o ∈ earlier, o ∈ s.startOrders ∨ ∃ p ∈ s.current, o.owner? = some p.id

/-- Whichever waveform holds the motor has just taken it. -/
def GivesWay (x : Option Vibration) (s t : Scheduler σ) : Prop :=
  ∀ q ∈ t.current, ∀ w, q.vibration.effect = .waveform w → Debuts x s t q

/-- Whichever waveform holds the motor has been holding it, and nothing has been started, or it has
just taken it. -/
def Succeeds (x : Option Vibration) (s t : Scheduler σ) : Prop :=
  ∀ q ∈ t.current, ∀ w, q.vibration.effect = .waveform w →
    s.current = some q ∧ t.startOrders = s.startOrders ∨ Debuts x s t q

/-- Whichever waveform has just taken the motor succeeds. -/
theorem GivesWay.succeeds (h : GivesWay x s t) : Succeeds x s t :=
  fun q hq w hw => .inr (h q hq w hw)

/-- Where nothing is started the waveform stays that holds the motor. -/
theorem StartsNothing.succeeds (h : StartsNothing s t) : Succeeds x s t := by
  intro q hq w hw
  rw [h.current] at hq
  exact .inl ⟨hq, h.startOrders⟩

/-- It can come first that nothing is started. -/
theorem StartsNothing.then_succeeds (h : StartsNothing s t) (h' : Succeeds x t u) :
    Succeeds x s u := by
  intro q hq w hw
  rcases h' q hq w hw with ⟨hc, ho⟩ | ⟨ha, earlier, hl, hsuffix, hearlier⟩
  · exact .inl ⟨h.current ▸ hc, ho.trans h.startOrders⟩
  · rw [h.startOrders] at hsuffix hearlier
    rw [h.current] at hearlier
    refine .inr ⟨ha.imp_right ?_, earlier, hl, hsuffix, hearlier⟩
    rintro ⟨q', hq', hid⟩
    exact ⟨q', h.next q' hq', hid⟩

/-- It can come last that nothing is started. -/
theorem Succeeds.then_startsNothing (h : Succeeds x s t) (h' : StartsNothing t u) :
    Succeeds x s u := by
  intro q hq w hw
  rw [h'.current] at hq
  rcases h q hq w hw with ⟨hc, ho⟩ | ⟨ha, hl⟩
  · exact .inl ⟨hc, h'.startOrders.trans ho⟩
  · refine .inr ⟨ha, ?_⟩
    rwa [h'.startOrders]

/-- A waveform whose first step is in flight has been launched. -/
theorem stepped_begin {w : Waveform} (hw : p.vibration.effect = .waveform w)
    (hp : (s.begin c q).2.current = some p) (hb : (s.begin c q).1 = false) :
    p.id = q.id ∧ p.Stepped s.startOrders (s.begin c q).2.startOrders := by
  have hs := started_startStep (c := c) (s := s.takenBy q) rfl
  change Started c (s.takenBy q) q.begin (s.begin c q) at hs
  have ho : (s.takenBy q).startOrders = s.startOrders := startOrders_of_deed rfl rfl
  generalize s.begin c q = answer at hs hp hb
  cases hs with
  | exhausted hn => cases hb
  | failed hn ht hg => cases hb
  | @launched line step cursor info hn ht reported =>
    cases hp
    refine ⟨q.id_begin, ?_⟩
    have hl := Playback.stepped_launch (p := q.begin) hw hn info c.now
      (step.span reported c.config.prebakedFallbackMs) s.startOrders
    rw [← ho, ← startOrders_told line] at hl
    exact ho ▸ hl

/-- **Who takes the motor when it is given up** has waited for it. -/
theorem debuts_release (hq : (s.release c).current = some q) {w : Waveform}
    (hw : q.vibration.effect = .waveform w) :
    (∃ q' ∈ s.next, q'.id = q.id) ∧ q.Stepped s.startOrders (s.release c).startOrders := by
  obtain ⟨q', hnext, hb⟩ := begin_of_release hq
  have hdropped : (s.dropCurrent c).startOrders = s.startOrders := by
    unfold dropCurrent
    split
    · rfl
    · exact startOrders_of_deed rfl rfl
  have hvacated : (s.vacate c).startOrders = s.startOrders :=
    (startsNothing_activateExternal c _).startOrders.trans hdropped
  have hl := stepped_begin (s := { s.vacate c with next := none }) (c := c) (q := q') hw
  rw [hb] at hl
  obtain ⟨hid, hl⟩ := hl hq rfl
  exact ⟨⟨q', hnext, hid.symm⟩, hvacated ▸ hl⟩

/-- So it is if before that nothing was started but for whoever held it. -/
theorem givesWay_release {given : List Order} (hn : ∀ q ∈ t.next, q ∈ s.next)
    (ho : t.startOrders = given ++ s.startOrders)
    (hg : ∀ o ∈ given, ∃ p ∈ s.current, o.owner? = some p.id) : GivesWay x s (t.release c) := by
  intro q hq w hw
  obtain ⟨⟨q', hq', hid⟩, hl⟩ := debuts_release hq hw
  refine ⟨.inr ⟨q', hn q' hq', hid⟩, t.startOrders, hl, ⟨given, ho.symm⟩, fun o hm => ?_⟩
  rw [ho] at hm
  rcases List.mem_append.1 hm with hm | hm
  · exact .inr (hg o hm)
  · exact .inl hm

/-- Nothing was started at all before it. -/
theorem givesWay_release_of_eq (hn : t.next = s.next) (ho : t.startOrders = s.startOrders) :
    GivesWay x s (t.release c) :=
  givesWay_release (fun _ hq => hn ▸ hq) (show _ = [] ++ s.startOrders from ho) (by simp)

/-- **What comes of the end of a step**: the next step is in flight, or another vibration takes the
motor. -/
theorem advance_cases (hp : s.current = some p) (c : Context σ) :
    Started c s p (false, s.advance c) ∨ GivesWay x s (s.advance c) := by
  have hs := started_startStep (c := c) hp
  unfold advance
  generalize s.startStep c = answer at hs ⊢
  cases hs with
  | launched hn ht reported => exact .inl (.launched hn ht reported)
  | exhausted hn => exact .inr (givesWay_release_of_eq rfl rfl)
  | @failed line step cursor info given hn ht hg =>
    have ho : ((s.told line given.reverse).failCurrent c).startOrders =
        given.reverse.filter Order.isStart ++ s.startOrders := startOrders_told line given.reverse s
    refine .inr (givesWay_release (fun _ hq => hq) ho fun o hm => ⟨p, hp, ?_⟩)
    obtain ⟨hm, hstart⟩ := List.mem_filter.1 hm
    have hown := Step.owner_of_mem_orders (hg.subset (List.mem_reverse.1 hm))
    refine hown.resolve_left fun hnone => ?_
    rw [Order.isStart, hnone] at hstart
    cases hstart

/-! ## Cancelling -/

/-- To cancel makes no waveform go on: a waveform that is cancelled is gone at once. -/
theorem succeeds_cancelCurrent (hg : ∀ p ∈ s.current, p.Genuine) (c : Context σ)
    (status : Status) : Succeeds x s (s.cancelCurrent c status).2 := by
  rcases cancelCurrent_cases c status s with ⟨heq, -⟩ | ⟨p, hp, -, hcancelled⟩
  · rw [heq]
    exact (StartsNothing.refl s).succeeds
  · generalize (s.cancelCurrent c status).2 = t at hcancelled
    cases hcancelled with
    | halted hf ht =>
      have hcurrent : (s.finishCurrent c status).current = some (p.finish status c.now) := by
        rw [finishCurrent_of_some c hp]
      intro q hq w hw
      rw [current_halted hcurrent c _] at hq
      cases hq
      have he : (p.finish status c.now).vibration.effect = p.vibration.effect := by
        unfold Playback.finish Vibration.finish
        split <;> rfl
      -- what has to come to its end first is a stream, and not a waveform
      exact absurd (he.symm.trans hw) ((hg p hp).ne_waveform hf w)
    | @released line orders ht ho =>
      refine GivesWay.succeeds (givesWay_release_of_eq rfl ?_)
      refine (startsNothing_told line (fun o hm => ?_) (s.finishCurrent c status)).startOrders
      rw [ho o hm]
      rfl

/-! ## Inputs -/

/-- A vibration that takes the motor, where nobody waits, has been asked for. -/
theorem succeeds_occupy (hn : s.next = none) :
    Succeeds (some v) s (s.occupy c { vibration := v }) := by
  intro q hq w hw
  have hframe := begin_frame c { vibration := v } s
  have hl := stepped_begin (s := s) (c := c) (q := { vibration := v }) hw
  unfold occupy at hq ⊢
  rcases hb : s.begin c { vibration := v } with ⟨ended, t⟩
  rw [hb] at hq hframe hl
  cases ended with
  | true =>
    obtain ⟨⟨q', hnext, -⟩, -⟩ := debuts_release hq hw
    cases (hframe.1.trans hn).symm.trans hnext
  | false =>
    obtain ⟨hid, hl⟩ := hl hq rfl
    exact .inr ⟨.inl ⟨v, rfl, hid.symm⟩, _, hl, List.suffix_refl _, fun o ho => .inl ho⟩

/-- A vibration that waits for the motor while whoever holds it is cancelled has been asked for. -/
theorem succeeds_queued (hg : ∀ p ∈ s.current, p.Genuine) (c : Context σ) :
    Succeeds (some v) s
      ({ s with next := some { vibration := v } }.cancelCurrent c .cancelledSuperseded).2 := by
  intro q hq w hw
  have hc := succeeds_cancelCurrent (x := none) (s := { s with next := some { vibration := v } })
    hg c .cancelledSuperseded q hq w hw
  rcases hc with hkept | ⟨ha, hl⟩
  · exact .inl hkept
  · obtain ⟨_, ⟨⟩, hid⟩ := ha.resolve_left (by simp)
    exact .inr ⟨.inl ⟨v, rfl, hid⟩, hl⟩

/-- A session that is put in place makes the vibrations go. -/
theorem succeeds_grant (hg : ∀ p ∈ s.current, p.Genuine) (c : Context σ)
    (request : ExternalRequest) (scale : ExternalScale) :
    Succeeds x s (s.grant c request scale).2 := by
  have hinstalled := startsNothing_install c { request, scale } s
  unfold grant
  simp only
  split
  · exact (hinstalled.trans (startsNothing_seize ..)).succeeds
  · unfold makeWay
    have hdropped := hinstalled.trans (startsNothing_dropNext c .ignoredForExternal _)
    rw [← hdropped.current] at hg
    have hcancelled := hdropped.then_succeeds
      (succeeds_cancelCurrent (x := x) hg c .cancelledSuperseded)
    exact hcancelled.then_startsNothing (startsNothing_activateExternal ..)

/-- A request makes no waveform go on. -/
theorem succeeds_vibrate (hg : ∀ p ∈ s.current, p.Genuine) (c : Context σ) (v : Vibration) :
    Succeeds (some v) s (s.vibrate c v).2 := by
  cases hr : s.refusal? c v with
  | some status =>
    rw [vibrate_of_refusal? hr]
    exact (startsNothing_retire ..).succeeds
  | none =>
    rw [vibrate_of_welcome hr]
    have hready : StartsNothing s (s.readyFor c v) :=
      (startsNothing_dropNext c .ignoredSuperseded s).trans (.of_journal rfl rfl rfl)
    refine hready.then_succeeds ?_
    cases hp : s.current with
    | none =>
      rw [place_of_none hp]
      exact succeeds_occupy (next_readyFor c v s)
    | some p =>
      rw [place_of_some hp]
      rw [← hready.current] at hg
      exact succeeds_queued hg c

/-- A packet is passed on only to a stream. -/
theorem succeeds_packet (hg : ∀ p ∈ s.current, p.Genuine) (c : Context σ) (packet : Stream) :
    Succeeds x s (s.packet c packet).2 := by
  have hpassed := passed_packet c packet s
  generalize s.packet c packet = answer at hpassed
  cases hpassed with
  | kept hx hq hs => exact fun q hq w hw => .inl ⟨hq, startOrders_of_journal rfl⟩
  | taken hx hp hst hs hf ht =>
    intro q hq w hw
    cases hp.symm.trans hq
    exact absurd hw ((hg _ hp).ne_waveform hf w)
  | @refused p x line hx hp hst hs ht =>
    have htold := startsNothing_told line (List.forall_mem_nil _) s
    exact GivesWay.succeeds (givesWay_release_of_eq rfl htold.startOrders)
  | ignored => exact (StartsNothing.refl s).succeeds

/-- **What is demanded** makes no waveform go on. -/
theorem Conduct.succeeds {b : Bool} (h : Conduct c b s t) (hg : ∀ p ∈ s.current, p.Genuine) :
    Succeeds x s t := by
  cases h with
  | aside ha => exact ha.startsNothing.succeeds
  | stroke ha hstroke ha' =>
    rw [← ha.startsNothing.current] at hg
    refine (ha.startsNothing.then_succeeds ?_).then_startsNothing ha'.startsNothing
    cases hstroke with
    | cancelled hs => exact succeeds_cancelCurrent hg c _
    | granted hb request scale => exact succeeds_grant hg c request scale

/-- The connection is gone, and whoever waits takes the motor. -/
theorem succeeds_lost (c : Context σ) (s : Scheduler σ) : Succeeds x s (s.lost c) := by
  cases hp : s.current with
  | none =>
    -- nobody holds the motor afterwards
    rw [lost_of_none hp]
    intro q hq
    obtain ⟨p, hp', -⟩ := Option.map_eq_some_iff.1 hq
    cases hp.symm.trans hp'
  | some p =>
    rw [lost_of_some hp]
    exact GivesWay.succeeds (givesWay_release_of_eq rfl rfl)

/-- **What a client asks for** makes no waveform go on. -/
theorem succeeds_step {h : Happening} (hg : ∀ p ∈ s.current, p.Genuine)
    (hi : h.input.isClient = true) (c : Context σ) :
    Succeeds (asks (σ := σ) (.handled h)) s (s.step c h.input) := by
  obtain ⟨policy, now, input⟩ := h
  cases input with
  | vibrate v => exact succeeds_vibrate hg c v
  | packet packet => exact succeeds_packet hg c packet
  | event event => cases hi
  | deadline => cases hi
  | _ => exact (conduct_step rfl c s).succeeds hg

end Scheduler

end Haptics
