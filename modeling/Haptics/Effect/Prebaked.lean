import Haptics.Failure

/-!
# Effects that live in the hardware

An actuator keeps some effects ready to play. They are asked for by number, with a strength from 1
to 100; numbers from `0x1000` on are the vendor's own.
-/

namespace Haptics

/-- The named strengths. -/
inductive Strength where
  | light
  | medium
  | strong
  deriving DecidableEq

namespace Strength

/-- The strength on the scale from 1 to 100. -/
def scale : Strength → UInt8
  | light => 69
  | medium => 89
  | strong => 99

/-- The name of a strength. -/
def name : Strength → String
  | light => "Light"
  | medium => "Medium"
  | strong => "Strong"

end Strength

/-- An effect that lives in the hardware. -/
structure Prebaked where
  /-- The number of the effect. -/
  effectId : Word
  /-- The strength, from 1 to 100. -/
  strength : UInt8
  deriving DecidableEq

namespace Prebaked

/-- The number of the first effect of the vendor. -/
def vendorStart : Word := 0x1000

/-- An effect at a named strength. -/
def ofStrength (effectId : Word) (strength : Strength) : Prebaked :=
  ⟨effectId, strength.scale⟩

/-- The vendor's effect of the given number, at a strength from 1 to 100. -/
def vendor (effectId strength : Word) : Except Failure Prebaked :=
  if 1 ≤ strength.toInt ∧ strength.toInt ≤ 100 then
    .ok ⟨vendorStart + effectId, UInt8.ofNat strength.toInt.toNat⟩
  else .error (.outOfRange .strength)

/-- Whether the effect is one of the vendor's. -/
def isVendor (p : Prebaked) : Bool :=
  vendorStart.toInt ≤ p.effectId.toInt

end Prebaked

end Haptics
