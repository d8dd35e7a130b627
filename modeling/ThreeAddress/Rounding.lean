import ThreeAddress.Text.Decimal

/-!
# Rounding

Quotients rounded to the nearest integer, and integers rounded to a number of significant binary
digits. Of two equally near neighbours the even one is taken. Numbers that are held in binary are
whole numbers of grains, so that rounding them is rounding integers.
-/

namespace ThreeAddress

/-- How many significant binary digits times and fractions keep. -/
def precision : Nat := 53

/-- Times and fractions of this size or more are infinite. -/
def infinity : Nat := Nat.pow 2 1024

/-- How many grains, the smallest numbers that are held, make up one. -/
def grainsPerUnit : Nat := Nat.pow 2 1074

/-- The integer nearest to `n / d`, for a positive `d`. -/
def roundDiv (n d : Nat) : Nat :=
  if 2 * (n % d) < d ∨ 2 * (n % d) = d ∧ n / d % 2 = 0 then n / d else n / d + 1

/-- The value of the last binary digit that is kept when `n` is rounded to `digits` of them. -/
def lastPlace (digits n : Nat) : Nat :=
  Nat.pow 2 (Text.bitLength n - digits)

/-- The nearest natural number with at most `digits` significant binary digits. -/
def roundNatTo (digits n : Nat) : Nat :=
  roundDiv n (lastPlace digits n) * lastPlace digits n

/-- The nearest integer with at most `digits` significant binary digits. -/
def roundTo (digits : Nat) (n : Int) : Int :=
  n.sign * roundNatTo digits n.natAbs

end ThreeAddress
