import ThreeAddress.Expr

/-!
# Terms

What an expression says, without the place it was read from and the names its operations got. An
expression that is to keep the names can forget the place alone.
-/

namespace ThreeAddress

inductive Term where
  | number (value : Nat)
  | binary (op : Operator) (left right : Term)
deriving DecidableEq, Repr

namespace Term

def height : Term → Nat
  | number _ => 1
  | binary _ left right => 1 + max left.height right.height

end Term

namespace Expr

/-- Forgets spans and temporaries. -/
def term : Expr → Term
  | literal value _ => .number value
  | binary op _ _ left right => .binary op left.term right.term

@[simp]
theorem height_term (e : Expr) : e.term.height = e.height := by
  induction e with
  | literal value span => rfl
  | binary op target span left right ihl ihr => simp [term, Term.height, height, ihl, ihr]

/-- Forgets spans and keeps temporaries. -/
def unlocated : Expr → Expr
  | literal value _ => literal value .unknown
  | binary op target _ left right => binary op target .unknown left.unlocated right.unlocated

end Expr

end ThreeAddress
