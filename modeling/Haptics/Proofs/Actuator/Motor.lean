import Haptics.Proofs.Actuator.Log

/-!
# What orders change of a motor

An order leaves the set-up of the motor as it is, and whether somebody listens (`Motor.Alike`). Only
one kind of order hands the motor over or takes it back, and only a start order or a `stop` can
report the end of a command while it is given, and then one end.

* `alike_obey`, `externalControl_obey`, `length_events_obey`: an order that is carried out.
* `Bench.reach_eq`, `Bench.perform_ok`, `Bench.perform_error`: what a call makes of the bench.
* `Bench.Idles`, `Bench.Drifts`: what becomes of it while nobody calls.
* `Bench.Sound.perform_eq`: an order on a bench where nothing goes wrong.
-/

namespace Haptics

/-- Whether an order starts the motor. -/
def Order.isStart (o : Order) : Bool := o.owner?.isSome

/-- Whether an order has the motor in the hands of an external source, where it says so. -/
def Order.control? : Order → Option Bool
  | externalControl enabled => some enabled
  | _ => none

namespace Motor

/-- Two states of one motor under the same circumstances. -/
structure Alike (m m' : Motor) : Prop where
  config : m'.config = m.config
  failing : m'.failing = m.failing
  attached : m'.attached = m.attached

/-- A motor is like itself. -/
theorem Alike.refl (m : Motor) : Alike m m := ⟨rfl, rfl, rfl⟩

/-- The end of a command leaves the motor what it is. -/
theorem Alike.finish {m m' : Motor} (h : Alike m m') (generation : Nat) :
    Alike m (m'.finish generation).2 := by
  unfold Motor.finish
  split
  · exact h
  · split
    · exact h
    · exact ⟨h.config, h.failing, h.attached⟩

/-- So does a start order. -/
theorem alike_start (m : Motor) (now : Nat) (o : Order) (id : Nat) :
    Alike m (m.start now o id) := by
  unfold start
  simp only
  split
  · apply Alike.finish
    exact ⟨rfl, rfl, rfl⟩
  · split <;> exact ⟨rfl, rfl, rfl⟩
  · exact ⟨rfl, rfl, rfl⟩

/-- So does every order that is carried out. -/
theorem alike_obey (m : Motor) (now : Nat) (o : Order) : Alike m (m.obey now o) := by
  cases o with
  | on durationMs id => exact alike_start ..
  | prebaked effect id => exact alike_start ..
  | envelope params steep id => exact alike_start ..
  | stream stream id => exact alike_start ..
  | stop =>
    unfold obey
    simp only
    split
    · exact ⟨rfl, rfl, rfl⟩
    · apply Alike.finish
      exact ⟨rfl, rfl, rfl⟩
    · apply Alike.finish
      exact ⟨rfl, rfl, rfl⟩
  | _ => exact ⟨rfl, rfl, rfl⟩

/-! ## Who drives the motor -/

/-- The end of a command leaves the motor in the hands in which it is. -/
theorem externalControl_finish (m : Motor) (generation : Nat) :
    (m.finish generation).2.externalControl = m.externalControl := by
  unfold finish
  split
  · rfl
  · split <;> rfl

/-- So does a start order. -/
theorem externalControl_start (m : Motor) (now : Nat) (o : Order) (id : Nat) :
    (m.start now o id).externalControl = m.externalControl := by
  unfold start
  simp only
  split
  · exact externalControl_finish ..
  · split <;> rfl
  · rfl

/-- The motor is in the hands in which the last order that says so has put it. -/
theorem externalControl_obey (m : Motor) (now : Nat) (o : Order) :
    (m.obey now o).externalControl = o.control?.getD m.externalControl := by
  cases o with
  | on durationMs id => exact externalControl_start ..
  | prebaked effect id => exact externalControl_start ..
  | envelope params steep id => exact externalControl_start ..
  | stream stream id => exact externalControl_start ..
  | stop =>
    unfold obey
    simp only
    split
    · rfl
    · exact externalControl_finish ..
    · exact externalControl_finish ..
  | _ => rfl

/-! ## Events -/

/-- The end of a command brings one event at most. -/
theorem length_events_finish (m : Motor) (generation : Nat) :
    (m.finish generation).2.events.length ≤ m.events.length + 1 := by
  unfold finish
  split
  · exact Nat.le_succ _
  · split
    · exact Nat.le_succ _
    · simp only
      split
      · simp
      · exact Nat.le_succ _

/-- How many events so many start orders bring while they are given. -/
def echo (m : Motor) (starts : Nat) : Nat :=
  if m.config.completion = .immediate then starts else 0

/-- A start order brings what it echoes at once, and no more. -/
theorem length_events_start (m : Motor) (now : Nat) (o : Order) (id : Nat) :
    (m.start now o id).events.length ≤ m.events.length + m.echo 1 := by
  unfold start echo
  simp only
  split
  · next hmode =>
    rw [if_pos hmode]
    exact length_events_finish ..
  · split <;> exact Nat.le_add_right ..
  · exact Nat.le_add_right ..

/-- Of the orders but `stop` only a start order brings an event while it is given. -/
theorem length_events_obey (m : Motor) (now : Nat) {o : Order} (h : o ≠ .stop) :
    (m.obey now o).events.length ≤ m.events.length + m.echo o.isStart.toNat := by
  cases o with
  | on durationMs id => exact length_events_start ..
  | prebaked effect id => exact length_events_start ..
  | envelope params steep id => exact length_events_start ..
  | stream stream id => exact length_events_start ..
  | stop => exact absurd rfl h
  | _ => exact Nat.le_add_right ..

/-- A motor that reports at once reports the end of a command while it is given. -/
theorem events_obey_on {m : Motor} (hm : m.config.completion = .immediate)
    (ha : m.attached = true) (now durationMs id : Nat) :
    (m.obey now (.on durationMs id)).events = m.events ++ [.complete id] := by
  simp [obey, start, finish, note, hm, ha]

/-- Nobody listens over a connection that has broken. -/
theorem attached_kill (m : Motor) : m.kill.attached = false := by
  unfold kill detach
  cases m.attached <;> rfl

/-! ## Refusals -/

/-- The motor can carry out an order that it does not refuse. -/
theorem missing?_of_refusal? {m : Motor} {o : Order} (h : m.refusal? o = none) :
    m.missing? o = none := by
  unfold refusal? at h
  split at h
  · cases h
  · assumption

/-- A start order that is not refused has found a listener. -/
theorem attached_of_refusal? {m : Motor} {o : Order} (h : m.refusal? o = none)
    (ho : o.isStart = true) : m.attached = true := by
  unfold refusal? at h
  rw [missing?_of_refusal? h, show o.owner?.isSome = true from ho] at h
  cases ha : m.attached with
  | true => rfl
  | false =>
    rw [ha] at h
    simp only at h
    split at h <;> cases h

end Motor

namespace Bench

/-! ## Calls -/

/-- The bench after a connection: one more is counted, and somebody listens. -/
def attached (b : Bench) : Bench :=
  { b with motor := b.motor.attach, connections := b.connections + 1 }

/-- The bench after a call that has failed: the script has been told of it. -/
def called (o : Order) (b : Bench) : Bench :=
  { b with faults := (FaultRule.consult o.method b.faults).2 }

/-- The bench after an order that was carried out. -/
def obeyed (now : Nat) (o : Order) (b : Bench) : Bench :=
  { b.called o with motor := b.motor.obey now o }

/-- A line connects to its bench, unless there is a connection, or the bench lets nobody connect. -/
theorem reach_eq (l : Line Bench) :
    (l.reach device).2 = l ∨ (l.reach device).2 = ⟨l.actuator.attached, true⟩ := by
  unfold Line.reach
  split
  · exact .inl rfl
  · next hl =>
    rw [Bool.not_eq_true] at hl
    by_cases ha : l.actuator.available = true
    · have hc : device.connect l.actuator = (.ok (), l.actuator.attached) := if_pos ha
      rw [hc]
      exact .inr rfl
    · have hc : device.connect l.actuator =
          (.error ActuatorError.offline.toFailure, l.actuator) := if_neg ha
      rw [hc]
      exact .inl (by rw [← hl])

/-- An order is carried out only if the motor does not refuse it. -/
theorem perform_ok {now : Nat} {o : Order} {b b' : Bench} {reported : Nat}
    (h : b.perform now o = (.ok reported, b')) :
    b.motor.refusal? o = none ∧ b' = b.obeyed now o := by
  unfold perform at h
  split at h
  · cases h
  · next faults hf =>
    cases hr : b.motor.refusal? o with
    | some e =>
      rw [Motor.perform_of_refusal hr] at h
      cases h
    | none =>
      rw [Motor.perform_of_accepted hr] at h
      cases h
      rw [obeyed, called, hf]
      exact ⟨rfl, rfl⟩

/-- A call that fails, by the script or by the motor, leaves the motor as it is. -/
theorem perform_error {now : Nat} {o : Order} {b b' : Bench} {e : Failure}
    (h : b.perform now o = (.error e, b')) : b' = b.called o := by
  unfold perform at h
  split at h
  · next faults hf =>
    cases h
    rw [called, hf]
  · next faults hf =>
    cases hr : b.motor.refusal? o with
    | some e =>
      rw [Motor.perform_of_refusal hr] at h
      cases h
      rw [called, hf]
    | none =>
      rw [Motor.perform_of_accepted hr] at h
      cases h

/-! ## A bench by itself -/

/-- What can become of a bench while nobody calls: nobody connects to it and the motor obeys no
order, whatever else is done to it. -/
structure Idles (b b' : Bench) : Prop where
  connections : b'.connections = b.connections
  attached : b'.motor.attached = true → b.motor.attached = true
  commands : b'.motor.commands = b.motor.commands

/-- What a bench does by itself meanwhile: its motor may report the end of a command, may be heard,
and may lose its listener. -/
structure Drifts (b b' : Bench) : Prop extends Idles b b' where
  config : b'.motor.config = b.motor.config
  failing : b'.motor.failing = b.motor.failing
  externalControl : b'.motor.externalControl = b.motor.externalControl
  available : b'.available = b.available
  faults : b'.faults = b.faults

/-- A motor that is alike, in the same hands and with the same commands has drifted only. -/
theorem drifts_of_alike {b : Bench} {m : Motor} (h : b.motor.Alike m)
    (he : m.externalControl = b.motor.externalControl) (hc : m.commands = b.motor.commands) :
    Drifts b { b with motor := m } where
  connections := rfl
  attached ha := h.attached ▸ ha
  commands := hc
  config := h.config
  failing := h.failing
  externalControl := he
  available := rfl
  faults := rfl

/-- The connection breaks. -/
theorem drifts_kill (b : Bench) : Drifts b { b with motor := b.motor.kill } := by
  unfold Motor.kill Motor.detach
  cases b.motor.attached <;>
    exact ⟨⟨rfl, fun ha => (by cases ha), rfl⟩, rfl, rfl, rfl, rfl, rfl⟩

/-- A timer goes off. -/
theorem drifts_wake (b : Bench) (place : Nat) :
    Drifts b { b with motor := b.motor.wake place } := by
  unfold Motor.wake
  split
  · exact drifts_of_alike (.refl _) rfl rfl
  · refine drifts_of_alike ?_ (Motor.externalControl_finish ..) (Motor.commands_finish ..)
    apply Motor.Alike.finish
    exact ⟨rfl, rfl, rfl⟩

/-- The end of the command in flight is reported by hand. -/
theorem drifts_completeInFlight (b : Bench) :
    Drifts b { b with motor := b.motor.completeInFlight.2 } :=
  drifts_of_alike (.finish (.refl _) _) (Motor.externalControl_finish ..) (Motor.commands_finish ..)

/-- An event is heard. -/
theorem drifts_hear {b b' : Bench} {event : ActuatorEvent} (h : b.hear = some (event, b')) :
    Drifts b b' := by
  obtain ⟨⟨event', m⟩, hm, heq⟩ := Option.map_eq_some_iff.1 h
  cases heq
  unfold Motor.hear at hm
  split at hm
  · cases hm
  · cases hm
    exact drifts_of_alike ⟨rfl, rfl, rfl⟩ rfl rfl

/-! ## A bench where nothing goes wrong -/

/-- Whether no call is made to fail. -/
structure Sound (b : Bench) : Prop where
  faults : b.faults = []
  failing : b.motor.failing = false

/-- On a sound bench an order is carried out, unless the motor cannot do it or a start order finds
no listener. -/
theorem Sound.perform_eq {b : Bench} (h : b.Sound) {o : Order} (hm : b.motor.missing? o = none)
    (ha : o.isStart = true → b.motor.attached = true) (now : Nat) :
    b.perform now o = (.ok (b.motor.reported o), b.obeyed now o) := by
  have hr : b.motor.refusal? o = none := by
    unfold Motor.refusal?
    rw [hm]
    cases hs : o.isStart with
    | false => simp [h.failing, show o.owner?.isSome = false from hs]
    | true => simp [h.failing, ha hs]
  unfold perform obeyed called
  rw [h.faults]
  simp [FaultRule.consult, Motor.perform_of_accepted hr]

/-- A call that fails leaves the bench sound. -/
theorem Sound.called {b : Bench} (h : b.Sound) (o : Order) : (b.called o).Sound := by
  refine ⟨?_, h.failing⟩
  rw [Bench.called, h.faults]
  rfl

/-- So does an order that is carried out. -/
theorem Sound.obeyed {b : Bench} (h : b.Sound) (now : Nat) (o : Order) : (b.obeyed now o).Sound :=
  ⟨(h.called o).faults, (Motor.alike_obey b.motor now o).failing.trans h.failing⟩

end Bench

end Haptics
