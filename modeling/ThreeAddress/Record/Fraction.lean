import ThreeAddress.Rounding

/-!
# Fractions

A fraction is written in decimal and held in binary. What is held is the nearest number with 53
significant binary digits, none of them below the place of 2⁻¹⁰⁷⁴; from 2¹⁰²⁴ on it is infinite.
-/

namespace ThreeAddress

/-- The number with at most `digits` significant binary digits that is nearest to `n / d`. -/
def roundQuotientTo (digits n d : Nat) : Nat :=
  roundDiv n (d * lastPlace digits (n / d)) * lastPlace digits (n / d)

/-- The decimal fraction `mantissa / 10 ^ scale`. -/
structure Fraction where
  mantissa : Int
  scale : Nat
deriving DecidableEq, Repr, Inhabited

namespace Fraction

/-- The number that is held for a fraction, in grains. -/
def grains (f : Fraction) : Int :=
  f.mantissa.sign *
    roundQuotientTo precision (f.mantissa.natAbs * grainsPerUnit) (Nat.pow 10 f.scale)

def isFinite (f : Fraction) : Bool :=
  f.grains.natAbs < infinity * grainsPerUnit

def isWhole (f : Fraction) : Bool :=
  f.grains % grainsPerUnit = 0

/-- The integer that is held for a whole fraction. -/
def whole (f : Fraction) : Int :=
  f.grains / grainsPerUnit

end Fraction

end ThreeAddress
