import ThreeAddress.Operator
import ThreeAddress.Span

/-!
# Expressions

An expression as it is read from a source text: literals and binary operations. Each operation
keeps the span of its operator and the temporary that will hold its value.
-/

namespace ThreeAddress

/-- A name of the generated code, told from the others by its index. -/
structure Temporary where
  index : Nat
deriving DecidableEq, Repr

namespace Temporary

def name (t : Temporary) : String :=
  "t" ++ t.index.repr

/-- Different temporaries have different names. -/
theorem name_injective {s t : Temporary} (h : s.name = t.name) : s = t := by
  have hlist := congrArg String.toList h
  simp only [name, String.toList_append, Nat.toList_repr] at hlist
  have hdigits := List.append_cancel_left hlist
  have hindex := congrArg (fun digits => Nat.ofDigitChars 10 digits 0) hdigits
  simp only [Nat.ofDigitChars_ten_toDigits] at hindex
  cases s
  cases t
  exact congrArg Temporary.mk hindex

end Temporary

inductive Expr where
  | literal (value : Nat) (span : Span)
  | binary (op : Operator) (target : Temporary) (span : Span) (left right : Expr)
deriving DecidableEq, Repr

namespace Expr

/-- The number of nodes on the longest way from the root to a literal. -/
def height : Expr → Nat
  | literal .. => 1
  | binary _ _ _ left right => 1 + max left.height right.height

/-- The number of operations. -/
def operationCount : Expr → Nat
  | literal .. => 0
  | binary _ _ _ left right => left.operationCount + right.operationCount + 1

end Expr

end ThreeAddress
