import ThreeAddress.Operator

/-!
# Arithmetic

What the operators mean on integers, said apart from how a compilation computes it. The value of a
phrase, the execution of code and the pass over the nodes of a tree are stated with this arithmetic,
and `Operator.compute?_eq_meaning?` says that the computation agrees with it.
-/

namespace ThreeAddress.Operator

/-- Sum, difference, product, and the quotient truncated toward zero, which is missing by zero. -/
def meaning? (op : Operator) (a b : Int) : Option Int :=
  match op with
  | add => some (a + b)
  | sub => some (a - b)
  | mul => some (a * b)
  | div => if b = 0 then none else some (a.tdiv b)

theorem meaning?_eq_none_iff {op : Operator} {a b : Int} :
    op.meaning? a b = none ↔ op = div ∧ b = 0 := by
  cases op <;> simp [meaning?]

theorem not_zero_division_of_meaning? {op : Operator} {a b value : Int}
    (h : op.meaning? a b = some value) : ¬(op = div ∧ b = 0) := by
  intro hzero
  rw [meaning?_eq_none_iff.mpr hzero] at h
  cases h

theorem quotient?_eq_tdiv (a b : Int) :
    quotient? a b = if b = 0 then none else some (a.tdiv b) := by
  by_cases hb : b = 0
  · rw [quotient?, if_pos hb, if_pos hb]
  · rw [quotient?, if_neg hb, if_neg hb]
    have hnonneg (k : Nat) : ¬Int.ofNat k < 0 := Int.not_lt.mpr (Int.natCast_nonneg k)
    refine congrArg some ?_
    cases a with
    | ofNat m =>
      cases b with
      | ofNat n => exact if_pos (iff_of_false (hnonneg m) (hnonneg n))
      | negSucc n => exact if_neg fun h => hnonneg m (h.mpr (Int.negSucc_lt_zero n))
    | negSucc m =>
      cases b with
      | ofNat n => exact if_neg fun h => hnonneg n (h.mp (Int.negSucc_lt_zero m))
      | negSucc n => exact if_pos (iff_of_true (Int.negSucc_lt_zero m) (Int.negSucc_lt_zero n))

theorem compute?_eq_meaning? (op : Operator) (a b : Int) : op.compute? a b = op.meaning? a b := by
  cases op with
  | add | sub | mul => rfl
  | div => exact quotient?_eq_tdiv a b

end ThreeAddress.Operator
