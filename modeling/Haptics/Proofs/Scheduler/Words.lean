import Haptics.Proofs.Actuator.Motor
import Haptics.Proofs.Scheduler.Talk

/-!
# Talks on the bench

On the bench a word of a talk does one of few things: a connection is made, or given up; an order is
carried out, or fails. So what is kept by each of them is kept by the talk (`Talk.holds_of_words`).

* `Talk.config_eq`: the set-up of the motor.
* `Talk.externalControl_eq`: in whose hands the motor is.
-/

namespace Haptics.Scheduler

variable {c : Context Bench} {l m : Line Bench} {orders : List Order}

/-- **What holds of a talk on the bench**: what holds without a word and is kept by each. -/
theorem Talk.holds_of_words {motive : List Order → Line Bench → Prop}
    (hd : c.device = Bench.device) (h : Talk c l orders m) (silence : motive [] l)
    (attached : ∀ {os : List Order} {m : Line Bench}, motive os m →
      motive os ⟨m.actuator.attached, true⟩)
    (reset : ∀ {os : List Order} {m : Line Bench}, motive os m → motive os m.reset)
    (obeyed : ∀ {os : List Order} {m : Line Bench} {o : Order}, motive os m →
      m.actuator.motor.refusal? o = none →
        motive (o :: os) { m with actuator := m.actuator.obeyed c.now o })
    (failed : ∀ {os : List Order} {m : Line Bench} (o : Order), motive os m →
      motive os { m with actuator := m.actuator.called o }) : motive orders m := by
  induction h with
  | silence => exact silence
  | @reach m orders _ ih =>
    rw [hd]
    rcases Bench.reach_eq m with hr | hr <;> rw [hr]
    · exact ih
    · exact attached ih
  | reset _ ih => exact reset ih
  | taken _ hp ih =>
    rw [hd] at hp
    obtain ⟨hr, rfl⟩ := Bench.perform_ok hp
    exact obeyed ih hr
  | refused _ hp ih =>
    rw [hd] at hp
    cases Bench.perform_error hp
    exact failed _ ih

/-- A motor keeps its set-up in a talk. -/
theorem Talk.config_eq (hd : c.device = Bench.device) (h : Talk c l orders m) :
    m.actuator.motor.config = l.actuator.motor.config := by
  refine h.holds_of_words (motive := fun _ m => m.actuator.motor.config = l.actuator.motor.config)
    hd rfl (fun ih => ih) (fun ih => ih) (fun ih _ => ?_) (fun _ ih => ih)
  exact (Motor.alike_obey ..).config.trans ih

/-- A motor is in the hands in which the latest order has put it that says so. -/
theorem Talk.externalControl_eq (hd : c.device = Bench.device) (h : Talk c l orders m) :
    m.actuator.motor.externalControl =
      (orders.findSome? Order.control?).getD l.actuator.motor.externalControl := by
  refine h.holds_of_words (motive := fun os m => m.actuator.motor.externalControl =
      (os.findSome? Order.control?).getD l.actuator.motor.externalControl)
    hd rfl (fun ih => ih) (fun ih => ih) (@fun os m o ih _ => ?_) (fun _ ih => ih)
  change (m.actuator.motor.obey c.now o).externalControl = _
  rw [Motor.externalControl_obey, ih]
  cases ho : o.control? <;> simp [ho]

end Haptics.Scheduler
