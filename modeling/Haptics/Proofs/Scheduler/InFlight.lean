import Haptics.Proofs.Scheduler.Incidents
import Haptics.Proofs.Scheduler.Load
import Haptics.Proofs.Scheduler.SafeBoundary

/-!
# Which command a report is about

While a step of a waveform is in flight, whatever waits to be heard for the waveform is about the
step, not about an earlier one (`InFlight`): of a loud step the start command is the latest, and all
reports for the waveform are about the latest command; of a silent step there is no report, and none
can come.

The waveform goes on for one of two reasons. The report of the latest command has been heard: it was
the only one, and nothing else waits for the waveform. Or the deadline has passed: then all events
have been heard, and nothing waits at all. So the next step finds nothing that is about an earlier
one (`Started.fresh`). A waveform that takes the motor has been started by no earlier command, and
finds nothing either (`Debuts.fresh`).

* `InFlight.of_quiet`: what is in flight stays so as long as nothing is started.
* `fresh_advance`: what is in flight when a step has ended.
* `kept_or_retired`: what becomes of a waveform where nobody goes on.
-/

namespace Haptics

/-- The start commands are those of the start orders. -/
theorem Command.starts_comp_command : Command.starts ∘ Order.command = Order.isStart := by
  funext o
  unfold Function.comp Command.starts Order.isStart
  rw [Order.owner?_command]

namespace Scheduler

open Occurrence

variable {c : Context Noted} {leave : Playback → Prop} {s t u : Scheduler Noted} {p q : Playback}
  {x : Option Vibration}

/-! ## Start orders and start commands -/

/-- The log has the start orders of the journal. -/
theorem Tells.startCommands (h : s.Tells (·.bench.motor.commands)) :
    s.notes.bench.motor.startCommands = s.startOrders.reverse.map Order.command := by
  change (s.line.actuator.bench.motor.commands).filter Command.starts = _
  rw [show s.line.actuator.bench.motor.commands = _ from h, List.filter_map,
    Command.starts_comp_command, List.filter_reverse]
  rfl

/-- The notes count the start orders. -/
theorem Tells.started (h : s.Tells (·.bench.motor.commands)) :
    s.notes.started = s.startOrders.length := by
  change s.notes.bench.motor.startCommands.length = _
  rw [h.startCommands, List.length_map, List.length_reverse]

/-! ## Steps in flight -/

/-- A step of a waveform is in flight, and what waits to be heard for it is about the step. -/
inductive InFlight (s : Scheduler Noted) (p : Playback) : Prop
  | loud {w : Waveform} {durationMs : Nat} {amplitude : UInt8} {earlier : List Order}
      (hw : p.vibration.effect = .waveform w) (hs : p.stage = some .awaiting)
      (hstep : w.stepAt? (p.cursor - 1) = some (.on durationMs amplitude))
      (ho : s.startOrders = .on durationMs p.id :: earlier) (ha : s.notes.Answers p.id)
  | silent (hs : p.stage = some .timed) (hq : s.notes.Silent p.id)

/-- As long as nothing is started, the step stays in flight. -/
theorem InFlight.of_quiet (h : s.InFlight p) (ho : t.startOrders = s.startOrders)
    (hq : Noted.Quiet s.notes t.notes) : t.InFlight p := by
  cases h with
  | loud hw hs hstep hlatest ha => exact .loud hw hs hstep (ho.trans hlatest) (ha.quiet hq)
  | silent hs hsilent => exact .silent hs (hsilent.quiet hq)

/-- **The first step of a waveform** that no earlier order was for. -/
theorem inFlight_of_stepped {earlier : List Order} (h : q.Stepped earlier t.startOrders)
    (ht : t.Tells (·.bench.motor.commands)) (hn : t.notes.Tallies)
    (he : ∀ o ∈ earlier, o.owner? ≠ some q.id) : t.InFlight q := by
  have hc := ht.startCommands
  have hcommands : ∀ command ∈ earlier.reverse.map Order.command,
      command.owner? ≠ some q.id := by
    intro command hcommand
    obtain ⟨o, ho, rfl⟩ := List.mem_map.1 hcommand
    rw [Order.owner?_command]
    exact he o (List.mem_reverse.1 ho)
  generalize horders : t.startOrders = orders at h hc
  cases h with
  | loud hw hs hstep =>
    rw [List.reverse_cons, List.map_append] at hc
    exact .loud hw hs hstep horders (Motor.Tallied.eq_started_of_latest hn hc hcommands)
  | silent hs =>
    obtain ⟨hclear, hflight⟩ := Motor.Tallied.ne_of_never hn (hc ▸ hcommands)
    exact .silent hs ⟨hclear, hflight⟩

/-- A step of a waveform is in flight that was launched since an earlier state. -/
structure Fresh (s t : Scheduler Noted) (q : Playback) : Prop where
  inFlight : t.InFlight q
  /-- If it is loud, its command has been started since then. -/
  lt : q.stage = some .awaiting → s.startOrders.length < t.startOrders.length

/-- **The next step of a waveform** for which nothing waits to be heard. -/
theorem Started.fresh (h : Started c s p (false, t)) (hd : c.device = Noted.device)
    (hclear : ∀ w, p.vibration.effect = .waveform w → s.notes.Clear p.id)
    (hs : s.Tells (·.bench.motor.commands)) (ht : t.Orderly) :
    ∀ q ∈ t.current, ∀ w, q.vibration.effect = .waveform w → s.Fresh t q := by
  have hstarted := ht.tells.started
  have htallies := ht.tallies
  cases h with
  | @launched line step cursor info hn htalk reported =>
    rintro _ ⟨⟩ w hw
    have hw : p.vibration.effect = .waveform w := hw
    have horders := startOrders_told line (step.orders info p.id p.packets).reverse s
    have hl := Playback.stepped_launch hw hn info c.now
      (step.span reported c.config.prebakedFallbackMs) s.startOrders
    rw [← horders] at hl
    have hnostop : Order.stop ∉ (step.orders info p.id p.packets).reverse := fun hm =>
      stop_not_mem_orders step info p.id p.packets (List.mem_reverse.1 hm)
    -- what waits to be heard for the waveform is about a command of this step
    have hnew : ∀ r ∈ line.actuator.reports, r.1 = p.id →
        s.startOrders.length < r.2 ∧ r.2 ≤ line.actuator.started :=
      hs.started ▸ htalk.bounds_of_clear hd hnostop htallies (hclear w hw)
    change line.actuator.started =
      (s.told line (step.orders info p.id p.packets).reverse).startOrders.length at hstarted
    refine ⟨?_, fun hstage => hl.length_lt hstage⟩
    generalize horders' :
      (s.told line (step.orders info p.id p.packets).reverse).startOrders = orders at hl hstarted
    cases hl with
    | loud hw' hstage hstep =>
      refine .loud hw' hstage hstep horders' fun r hr hid => ?_
      obtain ⟨hlt, hle⟩ := hnew r hr hid
      rw [List.length_cons] at hstarted
      exact Nat.le_antisymm hle (hstarted ▸ hlt)
    | silent hstage =>
      refine .silent hstage ⟨fun r hr hid => ?_, ?_⟩
      · obtain ⟨hlt, hle⟩ := hnew r hr hid
        exact absurd hle (Nat.not_le_of_lt (hstarted ▸ hlt))
      · cases step with
        | off durationMs =>
          have hoff := htalk.inFlight_off hd
          intro hi
          cases hoff.symm.trans hi
        | _ => cases hstage

/-! ## What becomes of whoever holds the motor -/

/-- A change is a talk on the line, and its orders are added to the journal. -/
theorem Change.startOrders {m m' : Moment Noted} (h : Change c leave m m') :
    ∃ orders, Talk c m.scheduler.line orders m'.scheduler.line ∧
      m'.scheduler.startOrders = orders.filter Order.isStart ++ m.scheduler.startOrders := by
  cases h with
  | talked ht hp => exact ⟨_, ht, startOrders_told ..⟩
  | @halted x s p line hp hs hf hc ht => exact ⟨_, ht, startOrders_told line [.stop] s⟩
  | noted admitted callState alwaysOn ha => exact ⟨[], .silence _, startOrders_of_journal rfl⟩
  | queued hn => exact ⟨[], .silence _, startOrders_of_journal rfl⟩
  | stacked hq packet => exact ⟨[], .silence _, startOrders_of_journal rfl⟩
  | turned hp ht => exact ⟨[], .silence _, startOrders_of_journal rfl⟩
  | installed he request scale => exact ⟨[], .silence _, startOrders_of_journal rfl⟩
  | _ => exact ⟨[], .silence _, startOrders_of_deed rfl rfl⟩

/-- Start orders are only added; and as long as none is, little becomes of what waits to be
heard. -/
theorem quiet_of_changes (hd : c.device = Noted.device) {m m' : Moment Noted}
    (hr : Relation.ReflTransGen (Change c leave) m m') :
    m.scheduler.startOrders <:+ m'.scheduler.startOrders ∧
      (m'.scheduler.startOrders = m.scheduler.startOrders →
        Noted.Quiet m.scheduler.notes m'.scheduler.notes) := by
  refine holds_of_changes (I := fun m' => m.scheduler.startOrders <:+ m'.scheduler.startOrders ∧
      (m'.scheduler.startOrders = m.scheduler.startOrders →
        Noted.Quiet m.scheduler.notes m'.scheduler.notes)) (fun {m₁ m₂} hc ih => ?_) hr
    ⟨List.suffix_refl _, fun _ => .refl _⟩
  obtain ⟨hsuffix, hquiet⟩ := ih
  obtain ⟨orders, ht, ho⟩ := hc.startOrders
  refine ⟨hsuffix.trans ⟨_, ho.symm⟩, fun heq => ?_⟩
  have hnone : orders.filter Order.isStart = [] := by
    have hle := hsuffix.length_le
    have hlen := congrArg List.length (ho.symm.trans heq)
    rw [List.length_append] at hlen
    exact List.eq_nil_of_length_eq_zero (by omega)
  have hsame : m₁.scheduler.startOrders = m.scheduler.startOrders := by
    rw [← heq, ho, hnone]
    rfl
  refine (hquiet hsame).trans (ht.quiet hd fun o hm => ?_)
  exact Bool.eq_false_iff.2 fun hstart => List.filter_eq_nil_iff.1 hnone o hm hstart

/-- Whoever holds the motor does so later on, or is gone. -/
theorem holds_or_retired {m m' : Moment Noted} (hp : m.scheduler.current = some p)
    (hr : Relation.ReflTransGen (Change c leave) m m') :
    (∃ p' ∈ m'.scheduler.current, p'.id = p.id ∧ p'.vibration.effect = p.vibration.effect) ∨
      ∃ v ∈ m'.scheduler.retired, v.id = p.id := by
  refine holds_of_changes (I := fun m' =>
    (∃ p' ∈ m'.scheduler.current, p'.id = p.id ∧ p'.vibration.effect = p.vibration.effect) ∨
      ∃ v ∈ m'.scheduler.retired, v.id = p.id) (fun {m₁ m₂} hc ih => ?_) hr
    (.inl ⟨p, hp, rfl, rfl⟩)
  rcases ih with ⟨p', hp', hid, he⟩ | ⟨v, hv, hid⟩
  · cases hc.motion with
    | aside hcur hj => exact .inl ⟨p', hcur ▸ hp', hid, he⟩
    | deed hne hcur hj => exact .inl ⟨p', hcur ▸ hp', hid, he⟩
    | talked orders hpermits hcur hj => exact .inl ⟨p', hcur ▸ hp', hid, he⟩
    | taken hf hs => cases hf.symm.trans hp'
    | @turned p₁ p₂ hp₁ hturn hcur hj =>
      cases hp₁.symm.trans hp'
      exact .inl ⟨p₂, hcur, hturn.id_eq.trans hid, hturn.becomes.effect_eq.trans he⟩
    | @halted p₁ hp₁ hs hst hcur hj =>
      cases hp₁.symm.trans hp'
      exact .inl ⟨_, hcur, hid, he⟩
    | @left p₁ hp₁ hl hcur hj =>
      cases hp₁.symm.trans hp'
      refine .inr ⟨_, ?_, (p'.id_finish .finished c.now).trans hid⟩
      rw [retired, hj]
      exact List.mem_cons_self
  · exact .inr ⟨v, (hc.journal_suffix.filterMap _).subset hv, hid⟩

/-- A waveform that has just taken the motor has its first step in flight. -/
theorem Debuts.fresh (h : Debuts x s t q) (hs : Driven ⟨x, s⟩) (ht : t.Orderly) : s.Fresh t q := by
  obtain ⟨ha, earlier, hl, hsuffix, hearlier⟩ := h
  have hnew : q.id ∉ s.starts ∧ ∀ p ∈ s.current, q.id ≠ p.id := by
    rcases ha with ⟨v, hv, hid⟩ | ⟨q', hq', hid⟩
    · rw [← hid]
      exact ⟨hs.asking v hv, fun p hp => (hs.ne_of_current hp).1 v hv⟩
    · rw [← hid]
      exact ⟨hs.waiting q' hq', fun p hp => (hs.ne_of_current hp).2 q' hq'⟩
  refine ⟨inFlight_of_stepped hl ht.tells ht.tallies fun o ho hid => ?_, fun hstage => ?_⟩
  · rcases hearlier o ho with ho | ⟨p, hp, hown⟩
    · exact hnew.1 (mem_starts_of_mem_startOrders ho hid)
    · exact hnew.2 p hp (Option.some.inj (hid.symm.trans hown))
  · exact Nat.lt_of_le_of_lt hsuffix.length_le (hl.length_lt hstage)

/-- **When a step has ended** for whose waveform nothing waits to be heard, the step in flight is
the next one, or the first one of another waveform. -/
theorem fresh_advance (hp : s.current = some p)
    (hclear : ∀ w, p.vibration.effect = .waveform w → s.notes.Clear p.id)
    (hd : c.device = Noted.device) (hdriven : Driven ⟨none, s⟩)
    (hs : s.Tells (·.bench.motor.commands)) (ht : (s.advance c).Orderly) :
    ∀ q ∈ (s.advance c).current, ∀ w, q.vibration.effect = .waveform w →
      s.Fresh (s.advance c) q := by
  rcases advance_cases (x := none) hp c with hstarted | hgives
  · exact hstarted.fresh hd hclear hs ht
  · exact fun q hq w hw => (hgives q hq w hw).fresh hdriven ht

/-- Where nobody goes on, whichever waveform has held the motor holds it as before, or is gone. -/
theorem kept_or_retired (h : Succeeds x s t) (hs : Driven ⟨x, s⟩)
    (hr : Relation.ReflTransGen (Change c leave) ⟨x, s⟩ ⟨none, t⟩) (hp : s.current = some p)
    {w : Waveform} (hw : p.vibration.effect = .waveform w) :
    t.current = some p ∧ t.startOrders = s.startOrders ∨ ∃ v ∈ t.retired, v.id = p.id := by
  rcases holds_or_retired hp hr with ⟨p', hp', hid, he⟩ | hgone
  · rcases h p' hp' w (he.trans hw) with ⟨hc, ho⟩ | ⟨ha, -⟩
    · cases hp.symm.trans hc
      exact .inl ⟨hp', ho⟩
    · obtain ⟨hasked, hwaiting⟩ := hs.ne_of_current hp
      rcases ha with ⟨v, hv, hid'⟩ | ⟨q, hq, hid'⟩
      · exact absurd (hid'.trans hid) (hasked v hv)
      · exact absurd (hid'.trans hid) (hwaiting q hq)
  · exact .inr hgone

end Scheduler

end Haptics
