import ThreeAddress.Operator
import ThreeAddress.Span

/-!
# Tokens

The words of an expression. Every source text ends with a token that marks its end.
-/

namespace ThreeAddress

inductive TokenKind where
  | number (value : Nat)
  | operator (op : Operator)
  | opening
  | closing
  | endOfInput
deriving DecidableEq, Repr

namespace TokenKind

/-- The kind of a token that is a single character. -/
def ofChar? (c : Char) : Option TokenKind :=
  if c = '(' then some opening
  else if c = ')' then some closing
  else (Operator.ofSymbol? c).map operator

def text : TokenKind → String
  | number value => value.repr
  | operator op => op.symbol.toString
  | opening => "("
  | closing => ")"
  | endOfInput => "end of input"

end TokenKind

structure Token where
  kind : TokenKind
  span : Span
deriving DecidableEq, Repr

namespace Token

def text (t : Token) : String :=
  t.kind.text

/-- Whether the token marks the end of the source text. -/
def isEnd (t : Token) : Bool :=
  t.kind = .endOfInput

end Token

end ThreeAddress
