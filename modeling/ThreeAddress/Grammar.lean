import ThreeAddress.Term
import ThreeAddress.Token

/-!
# The grammar

Phrases have three ranks. An operand is a number or a sum in parentheses, a product is a chain of
operands with `*` and `/` between them, and a sum is a chain of products with `+` and `-` between
them. Chains are read from the left.
-/

namespace ThreeAddress

inductive Rank where
  | operand
  | product
  | sum
deriving DecidableEq, Repr

/-- Phrases of each rank: in `Derives rank kinds t` the token kinds read as the term `t`. -/
inductive Derives : Rank → List TokenKind → Term → Prop where
  | number (value : Nat) : Derives .operand [.number value] (.number value)
  | group {kinds : List TokenKind} {t : Term} (inner : Derives .sum kinds t) :
      Derives .operand (.opening :: kinds ++ [.closing]) t
  | ofOperand {kinds : List TokenKind} {t : Term} (h : Derives .operand kinds t) :
      Derives .product kinds t
  | ofProduct {kinds : List TokenKind} {t : Term} (h : Derives .product kinds t) :
      Derives .sum kinds t
  | extendProduct {op : Operator} {kinds more : List TokenKind} {s t : Term}
      (tight : op = .mul ∨ op = .div) (left : Derives .product kinds s)
      (right : Derives .operand more t) :
      Derives .product (kinds ++ .operator op :: more) (.binary op s t)
  | extendSum {op : Operator} {kinds more : List TokenKind} {s t : Term}
      (loose : op = .add ∨ op = .sub) (left : Derives .sum kinds s)
      (right : Derives .product more t) :
      Derives .sum (kinds ++ .operator op :: more) (.binary op s t)

/-- The largest number of parentheses that are open at once, when `depth` are open before. -/
def nestingFrom (depth : Nat) : List TokenKind → Nat
  | [] => 0
  | .opening :: kinds => max (depth + 1) (nestingFrom (depth + 1) kinds)
  | .closing :: kinds => nestingFrom (depth - 1) kinds
  | _ :: kinds => nestingFrom depth kinds

def nesting (kinds : List TokenKind) : Nat :=
  nestingFrom 0 kinds

end ThreeAddress
