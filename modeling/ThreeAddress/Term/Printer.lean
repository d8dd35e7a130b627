import ThreeAddress.Term
import ThreeAddress.Token

/-!
# Printing terms

A term as the tokens that say it with as few parentheses as the grammar allows: a left operand
needs them when its operator binds less tightly, a right operand also when it binds equally.
-/

namespace ThreeAddress.Term

/-- Whether the term needs parentheses as the left operand of `op`: a sum or a difference does in a
product or a quotient. -/
def looseLeftOf (op : Operator) : Term → Bool
  | number _ => false
  | binary inner _ _ => (op = .mul || op = .div) && (inner = .add || inner = .sub)

/-- Whether the term needs parentheses as the right operand of `op`: every operation does in a
product or a quotient, and a sum or a difference everywhere. -/
def looseRightOf (op : Operator) : Term → Bool
  | number _ => false
  | binary inner _ _ => (op = .mul || op = .div) || (inner = .add || inner = .sub)

def enclosed (needed : Bool) (kinds : List TokenKind) : List TokenKind :=
  if needed then .opening :: kinds ++ [.closing] else kinds

def tokenKinds : Term → List TokenKind
  | number value => [.number value]
  | binary op left right =>
    enclosed (left.looseLeftOf op) left.tokenKinds ++
      .operator op :: enclosed (right.looseRightOf op) right.tokenKinds

/-- The shortest text of a term. -/
def text (t : Term) : String :=
  String.join (t.tokenKinds.map TokenKind.text)

end ThreeAddress.Term
