import Haptics.Actuator.Line

/-!
# The log of an actuator

An actuator may keep a log of the orders it takes: a command for each of them, in turn, and nothing
else (`Logs`). The motor on the bench does (`logs_bench`), whatever it is told and whichever calls
fail.
-/

namespace Haptics

/-- Whether a log, read off the state of an actuator, tells the orders that the actuator has
taken. -/
structure Logs {σ : Type} (d : Device σ) (log : σ → List Command) : Prop where
  /-- A connection is not in the log. -/
  connect : ∀ a, log (d.connect a).2 = log a
  /-- An order that was taken comes last in the log. -/
  taken : ∀ {now : Nat} {o : Order} {a a' : σ} {reported : Nat},
    d.perform now o a = (.ok reported, a') → log a' = log a ++ [o.command]
  /-- An order that was refused is not in it. -/
  refused : ∀ {now : Nat} {o : Order} {a a' : σ} {e : Failure},
    d.perform now o a = (.error e, a') → log a' = log a

/-- To connect when need be does not change the log. -/
theorem Logs.reach {σ : Type} {d : Device σ} {log : σ → List Command} (h : Logs d log)
    (l : Line σ) : log (l.reach d).2.actuator = log l.actuator := by
  unfold Line.reach
  split
  · rfl
  · have hc := h.connect l.actuator
    split <;> next hr => rwa [hr] at hc

namespace Motor

/-- The end of a command is no command. -/
theorem commands_finish (m : Motor) (generation : Nat) :
    (m.finish generation).2.commands = m.commands := by
  unfold finish
  split
  · rfl
  · split <;> rfl

/-- A start order is noted once. -/
theorem commands_start (m : Motor) (now : Nat) (o : Order) (id : Nat) :
    (m.start now o id).commands = m.commands ++ [o.command] := by
  unfold start
  simp only
  split
  · rw [commands_finish]
    rfl
  · split <;> rfl
  · rfl

/-- An order that is carried out comes last in the log of the motor. -/
theorem commands_obey (m : Motor) (now : Nat) (o : Order) :
    (m.obey now o).commands = m.commands ++ [o.command] := by
  cases o with
  | on durationMs id => exact commands_start ..
  | prebaked effect id => exact commands_start ..
  | envelope params steep id => exact commands_start ..
  | stream stream id => exact commands_start ..
  | stop =>
    unfold obey
    simp only
    split
    · rfl
    · rw [commands_finish]
      rfl
    · rw [commands_finish]
      rfl
  | _ => rfl

end Motor

namespace Bench

/-- A call that gets through to the motor is obeyed by it. -/
theorem motor_of_perform_ok {now : Nat} {o : Order} {b b' : Bench} {reported : Nat}
    (h : b.perform now o = (.ok reported, b')) : b'.motor = b.motor.obey now o := by
  unfold perform at h
  split at h
  · simp at h
  · rcases hr : b.motor.refusal? o with _ | e
    · simp only [Motor.perform_of_accepted hr, Prod.mk.injEq] at h
      rw [← h.2]
    · simp [Motor.perform_of_refusal hr] at h

/-- A call that fails, by the script or by the motor, leaves the motor as it is. -/
theorem motor_of_perform_error {now : Nat} {o : Order} {b b' : Bench} {e : Failure}
    (h : b.perform now o = (.error e, b')) : b'.motor = b.motor := by
  unfold perform at h
  split at h
  · simp only [Prod.mk.injEq] at h
    rw [← h.2]
  · rcases hr : b.motor.refusal? o with _ | e
    · simp [Motor.perform_of_accepted hr] at h
    · simp only [Motor.perform_of_refusal hr, Prod.mk.injEq] at h
      rw [← h.2]

end Bench

/-- **The motor on the bench keeps a log.** -/
theorem logs_bench : Logs Bench.device (·.motor.commands) where
  connect b := by
    change (Bench.connect b).2.motor.commands = _
    unfold Bench.connect
    split <;> rfl
  taken {now o a a' reported} h := by
    rw [Bench.motor_of_perform_ok h, Motor.commands_obey]
  refused {now o a a' e} h := by
    rw [Bench.motor_of_perform_error h]

end Haptics
