/-!
# Classes of characters

A class of characters is given by intervals of code points. Membership is a search through the
intervals, so a table of intervals is all that a property of characters needs.
-/

namespace ThreeAddress.Text

/-- The code points from `first` to `last`, both included. -/
structure CodeRange where
  first : Nat
  last : Nat
deriving DecidableEq, Repr

namespace CodeRange

def contains (range : CodeRange) (c : Char) : Bool :=
  range.first ≤ c.toNat && c.toNat ≤ range.last

end CodeRange

/-- Whether some interval of the table contains the character. -/
def inClass (table : List CodeRange) (c : Char) : Bool :=
  table.any (·.contains c)

theorem inClass_eq_true_iff {table : List CodeRange} {c : Char} :
    inClass table c = true ↔ ∃ range ∈ table, range.first ≤ c.toNat ∧ c.toNat ≤ range.last := by
  simp [inClass, CodeRange.contains]

end ThreeAddress.Text
