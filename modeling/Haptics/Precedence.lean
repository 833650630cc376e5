import Haptics.Vibration

/-!
# Precedence

There is one motor, so a request and the vibration that holds it compete. Alarms rank above
ringtones and ringtones above the rest; of the rest, a vibration that goes on until it is stopped is
not interrupted by a request that ends by itself.

`Vibration.refusal?` compares the two. A request that goes on until it is stopped always takes the
motor, and a vibration that has ended never keeps it.
-/

namespace Haptics.Vibration

/-- The rank of a vibration that holds the motor. -/
def holderRank (v : Vibration) : Nat :=
  match v.usage with
  | .alarm => 3
  | .ringtone => 2
  | _ => if v.isRepeating then 1 else 0

/-- The rank of a vibration that asks for the motor. -/
def requestRank (v : Vibration) : Nat :=
  match v.usage with
  | .alarm => 3
  | .ringtone => 2
  | _ => 0

/-- The status of a request that the holder of the motor turns away. -/
def refusalStatus (holder : Vibration) : Status :=
  match holder.usage with
  | .alarm => .ignoredForAlarm
  | .ringtone => .ignoredForRingtone
  | _ => .ignoredForOngoing

/-- Whether the holder of the motor turns a request away, and with what status. -/
def refusal? (holder request : Vibration) : Option Status :=
  if holder.hasEnded || request.isRepeating then none
  else if holder.holderRank = 0 ∨ holder.holderRank < request.requestRank then none
  else some holder.refusalStatus

/-- The holder turns a request away exactly when it is still going on, the request ends by itself,
and the holder's rank is positive and not exceeded. -/
theorem refusal?_isSome_iff (holder request : Vibration) :
    (refusal? holder request).isSome = true ↔
      holder.hasEnded = false ∧ request.isRepeating = false ∧
        0 < holder.holderRank ∧ request.requestRank ≤ holder.holderRank := by
  unfold refusal?
  cases holder.hasEnded <;> cases request.isRepeating <;>
    simp only [Bool.or_self, Bool.or_true, Bool.or_false,
      Bool.false_eq_true, if_true, if_false, Option.isSome_none, reduceCtorEq, false_and, and_false,
      true_and]
  split
  · simp only [Option.isSome_none, Bool.false_eq_true, false_iff]; omega
  · simp only [Option.isSome_some, true_iff]; omega

end Haptics.Vibration
