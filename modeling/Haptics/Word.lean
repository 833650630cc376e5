/-!
# Words

Effects travel to an actuator as buffers of 32-bit words in two's complement. This module holds
the word type and the two ways in which a word is shown: as a number, and as its bits.

* `Word.hex` shows the bits of a word, so a negative word reads as its two's complement;
* `Word.ofNat` keeps the low 32 bits of a number, and `Word.toInt_ofNat` says that numbers below
  `2 ^ 31` come back unchanged.
-/

namespace Haptics

/-- A word of a wire buffer: 32 bits, read as a signed number. -/
abbrev Word := Int32

namespace Word

/-- The largest number a word can hold. -/
def maxInt : Int := 2147483647

/-- The low 32 bits of a natural number, as a word. -/
def ofNat (n : Nat) : Word := Int32.ofNat n

/-- The low 32 bits of an integer, as a word. -/
def ofInt (n : Int) : Word := Int32.ofInt n

/-- The bits of a word in lower-case hexadecimal, without leading zeros, after `0x`. -/
def hex (w : Word) : String :=
  "0x" ++ String.ofList (Nat.toDigits 16 w.toUInt32.toNat)

/-- The number a word stands for, in decimal. -/
def decimal (w : Word) : String := toString w.toInt

/-- A natural number that fits comes back from its word. -/
theorem toInt_ofNat {n : Nat} (h : n < 2147483648) : (ofNat n).toInt = n := by
  unfold ofNat
  exact Int32.toInt_ofNat_of_lt (by simpa using h)

/-- An integer that fits comes back from its word. -/
theorem toInt_ofInt {n : Int} (lo : -2147483648 ≤ n) (hi : n ≤ maxInt) : (ofInt n).toInt = n := by
  unfold ofInt
  exact Int32.toInt_ofInt_of_le (by simpa using lo) (by unfold maxInt at hi; omega)

/-- A word comes back from its number. -/
@[simp] theorem ofInt_toInt (w : Word) : ofInt w.toInt = w := by
  unfold ofInt
  exact Int32.ofInt_toInt w

end Word

end Haptics
