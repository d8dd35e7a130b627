import ThreeAddress.Span
import ThreeAddress.Text.Quoted

/-!
# Diagnostics

An issue is a cause and the span it concerns. Filed under a category it is a diagnostic, the form
in which a compilation fails. A cause is worded here and nowhere else.
-/

namespace ThreeAddress

/-- Why a source text or a tree was refused. -/
inductive Cause where
  | unexpectedCharacter (c : Char)
  | literalTooLong
  | operandExpected
  | closingExpected
  | trailingToken
  | nestedTooDeeply
  | expressionTooLong
  | malformedNode
  | divisionByZero
  | other (text : String)
deriving DecidableEq, Repr

namespace Cause

def message : Cause → String
  | unexpectedCharacter c => "unexpected character " ++ Text.quoted c
  | literalTooLong => "integer literal too long"
  | operandExpected => "number or '(' expected"
  | closingExpected => "')' expected"
  | trailingToken => "unexpected token after expression"
  | nestedTooDeeply => "expression nested too deeply"
  | expressionTooLong => "expression too long"
  | malformedNode => "unknown operator/operand"
  | divisionByZero => "division by zero"
  | other text => text

end Cause

structure Issue where
  cause : Cause
  span : Span
deriving DecidableEq, Repr

/-- What kind of failure a diagnostic reports. -/
inductive Category where
  | general
  | badSource
  | badTree
  | zeroDivisor
deriving DecidableEq, Repr

namespace Category

/-- Every category is a case of `general`, and of itself. -/
def includes (wide narrow : Category) : Bool :=
  wide = general || wide = narrow

end Category

structure Diagnostic extends Issue where
  category : Category
deriving DecidableEq, Repr

namespace Issue

def fileUnder (issue : Issue) (category : Category) : Diagnostic :=
  { issue with category }

end Issue

namespace Diagnostic

def message (d : Diagnostic) : String :=
  d.cause.message

/-- The message, followed by the position at which its span starts when the span is known. -/
def text (d : Diagnostic) : String :=
  if d.span.isKnown then d.message ++ " at " ++ d.span.start.text else d.message

end Diagnostic

end ThreeAddress
