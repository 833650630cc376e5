import Haptics.Failure

/-!
# How often a stream is played

A stream is played a number of times or until it is stopped. A request writes this as one word:
`-1` is without end, `0` and `1` are once, and `n` is `n` times. The actuator takes the count as a
word too, where the largest word stands for "without end".
-/

namespace Haptics

/-- How often a stream is played. -/
inductive LoopCount where
  | finite (times : Nat)
  | infinite
  deriving DecidableEq

namespace LoopCount

/-- A stream is played once unless it asks for more. -/
def once : LoopCount := finite 1

/-- Reads the word of a request. -/
def ofWord (raw : Word) : Except Failure LoopCount :=
  if raw.toInt = -1 then .ok infinite
  else if raw.toInt = 0 then .ok once
  else if 0 < raw.toInt then .ok (finite raw.toInt.toNat)
  else .error (.outOfRange .loopCount)

/-- The word that the actuator takes: counts beyond its range are cut to the largest word. -/
def toWord : LoopCount → Word
  | finite times => Word.ofNat (min times 2147483647)
  | infinite => Word.ofNat 2147483647

/-- Whether the stream plays until it is stopped. -/
def isInfinite : LoopCount → Bool
  | finite _ => false
  | infinite => true

/-- Exactly the words below `-1` are refused. -/
theorem ofWord_eq_error_iff (raw : Word) :
    (∃ e, ofWord raw = .error e) ↔ raw.toInt < -1 := by
  unfold ofWord
  split
  · simp only [reduceCtorEq, exists_false, false_iff]; omega
  · split
    · simp only [reduceCtorEq, exists_false, false_iff]; omega
    · split
      · simp only [reduceCtorEq, exists_false, false_iff]; omega
      · simp only [Except.error.injEq, exists_eq', true_iff]; omega

end LoopCount

end Haptics
