import Haptics.Proofs.Scheduler.Moves
import Haptics.Proofs.Scheduler.Words

/-!
# In whose hands the motor is

A session that takes the motor has the actuator put it in the hands of the external source. No other
piece of work does so, and none takes the motor back, but the end of a session: whatever else a
scheduler does leaves the motor in the hands in which it is and the session as it is, unless the
session that waits takes the motor (`Passes`).

* `Move.passes`: each move does.
* `Moves.passes`: so does all that is made of moves.
-/

namespace Haptics.Scheduler

variable {c : Context Bench} {s t u : Scheduler Bench}

/-- Whether the motor is in the hands of an external source. -/
def handedOver (s : Scheduler Bench) : Bool := s.line.actuator.motor.externalControl

/-- Whether a session has the motor. -/
def inSession (s : Scheduler Bench) : Bool := s.external.any (·.active)

/-! ## Passing the motor on -/

/-- What may happen as long as no session ends that has the motor: nothing about it, or a session
takes the motor. -/
inductive Seizes (s t : Scheduler Bench) : Prop where
  | kept (hh : t.handedOver = s.handedOver) (hs : t.inSession = s.inSession)
  | taken (hh : t.handedOver = true) (hs : t.inSession = true)

/-- If no session ends that has the motor, twice in turn, none does on the whole. -/
theorem Seizes.trans (h : Seizes s t) (h' : Seizes t u) : Seizes s u := by
  cases h with
  | kept hh hs =>
    cases h' with
    | kept hh' hs' => exact .kept (hh'.trans hh) (hs'.trans hs)
    | taken hh' hs' => exact .taken hh' hs'
  | taken hh hs =>
    cases h' with
    | kept hh' hs' => exact .taken (hh'.trans hh) (hs'.trans hs)
    | taken hh' hs' => exact .taken hh' hs'

/-- That much, where no session is there but the one that was there. -/
structure Passes (s t : Scheduler Bench) : Prop where
  seizes : Seizes s t
  none : s.external = none → t.external = none

/-- Where neither the hands nor the session change it is so. -/
theorem Passes.of_eq (hh : t.handedOver = s.handedOver) (he : t.external = s.external) :
    Passes s t :=
  ⟨.kept hh (by rw [inSession, he, inSession]), fun hn => he.trans hn⟩

/-- Where nothing happens it is so. -/
theorem Passes.refl (s : Scheduler Bench) : Passes s s := .of_eq rfl rfl

/-- Where it is so twice in turn it is so on the whole. -/
theorem Passes.trans (h : Passes s t) (h' : Passes t u) : Passes s u :=
  ⟨h.seizes.trans h'.seizes, fun hn => h'.none (h.none hn)⟩

/-- **A move passes the motor on**, or leaves it where it is. -/
theorem Move.passes (h : Move c s t) (hd : c.device = Bench.device) : Passes s t := by
  cases h with
  | @talked line orders ht ho =>
    refine .of_eq ((ht.externalControl_eq hd).trans ?_) rfl
    rw [List.findSome?_eq_none_iff.2 ho]
    rfl
  | tended h =>
    have hb : t.line.actuator = s.line.actuator := congrArg Standing.actuator h
    exact .of_eq (by rw [handedOver, hb, handedOver]) (congrArg Standing.external h)
  | seized ht he ha =>
    exact ⟨.taken (ht.externalControl_eq hd) rfl, fun hn => by cases he.symm.trans hn⟩
  | failed ht he ha =>
    refine ⟨.kept (ht.externalControl_eq hd) ?_, fun _ => rfl⟩
    simp [inSession, he, ha, dismiss]

/-- **Whatever is done beside sessions** leaves the motor in its hands, or the session that waits
takes it. -/
theorem Moves.passes (h : Moves c s t) (hd : c.device = Bench.device) : Passes s t := by
  induction h with
  | refl => exact .refl s
  | tail _ hm ih => exact ih.trans (hm.passes hd)

end Haptics.Scheduler
