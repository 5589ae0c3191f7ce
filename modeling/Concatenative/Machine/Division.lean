import Concatenative.Error.Cause

/-!
# Division

The quotient is rounded toward zero and the remainder has the sign of the dividend.
-/

namespace Concatenative

/-- The quotient and the remainder of a division. -/
structure Division where
  quotient : Int
  remainder : Int
  deriving DecidableEq

namespace Division

/-- Divides the magnitudes, then restores the signs. -/
def ofIntegers (dividend divisor : Int) : Except Error.Cause Division :=
  if divisor = 0 then .error (.zeroDivisor dividend)
  else
    let magnitude : Int := (dividend.natAbs / divisor.natAbs : Nat)
    let quotient := if decide (dividend < 0) = decide (divisor < 0) then magnitude else -magnitude
    .ok ⟨quotient, dividend - divisor * quotient⟩

end Division
end Concatenative
