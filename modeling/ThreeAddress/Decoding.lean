import ThreeAddress.Expr
import ThreeAddress.Instruction
import ThreeAddress.Text.Decimal

/-!
# Decoding listings

Reads an expression back from the plain listing of its code. A line has five fields between blanks.
A numeral among the operands is a literal; any other operand names the latest operation that no
instruction has used yet. So operations wait on a stack, and a right operand leaves it first.

A line of an annotated listing is such a line with a comment behind it, from which the span of the
instruction is read.
-/

namespace ThreeAddress

namespace Temporary

def ofName? (name : String) : Option Temporary :=
  match name.toList with
  | 't' :: digits =>
    if digits ≠ [] ∧ digits.all Char.isDigit then some ⟨Nat.ofDigitChars 10 digits 0⟩ else none
  | _ => none

end Temporary

namespace Instruction

/-- Reads an instruction off its line, which does not say where the instruction comes from. -/
def ofText? (line : List Char) : Option Instruction :=
  match List.splitOn ' ' line with
  | [result, ['='], left, [symbol], right] =>
    (Operator.ofSymbol? symbol).map fun op =>
      ⟨String.ofList result, op, String.ofList left, String.ofList right, .unknown⟩
  | _ => none

end Instruction

/-- The text in front of the first occurrence of a marker, and the text behind it. -/
def Text.cut? (marker : List Char) : List Char → Option (List Char × List Char)
  | [] => none
  | c :: rest =>
    if marker.isPrefixOf (c :: rest) then some ([], (c :: rest).drop marker.length)
    else (cut? marker rest).map fun parts => (c :: parts.1, parts.2)

def Position.ofText? (text : List Char) : Option Position :=
  match List.splitOn ':' text with
  | [line, column] => do
    return ⟨← Text.readInteger? (.ofList line), ← Text.readInteger? (.ofList column)⟩
  | _ => none

def Span.ofText? (text : List Char) : Option Span :=
  match List.splitOn '-' text with
  | [start, stop] => do return ⟨← Position.ofText? start, ← Position.ofText? stop⟩
  | _ => none

namespace Instruction

/-- What stands between an instruction and its span. -/
def commentMarker : List Char := [' ', ' ', '#', ' ']

/-- An annotated line without its comment. -/
def withoutComment (line : List Char) : List Char :=
  ((Text.cut? commentMarker line).map Prod.fst).getD line

/-- Reads an instruction and where it comes from off an annotated line. -/
def ofAnnotated? (line : List Char) : Option Instruction := do
  let (text, comment) ← Text.cut? commentMarker line
  let i ← ofText? text
  let span ← Span.ofText? comment
  return { i with span }

end Instruction

namespace Expr

/-- The expression that an operand stands for, and the stack without it. -/
def ofOperand? (text : String) (stack : List Expr) : Option (Expr × List Expr) :=
  match Text.readInteger? text, stack with
  | some (.ofNat value), stack => some (literal value .unknown, stack)
  | none, binary op target span left right :: stack =>
    if target.name = text then some (binary op target span left right, stack) else none
  | _, _ => none

end Expr

/-- Puts the operation of an instruction on the stack, in place of its operands. -/
def Instruction.rebuild? (i : Instruction) (stack : List Expr) : Option (List Expr) := do
  let (right, stack) ← Expr.ofOperand? i.right stack
  let (left, stack) ← Expr.ofOperand? i.left stack
  let target ← Temporary.ofName? i.result
  return .binary i.op target .unknown left right :: stack

def rebuild? : List Instruction → List Expr → Option (List Expr)
  | [], stack => some stack
  | i :: code, stack => (i.rebuild? stack).bind (rebuild? code)

/-- The expression of a listing, without spans. -/
def decodeListing? (text : String) : Option Expr := do
  let code ← (List.splitOn '\n' text.toList).mapM Instruction.ofText?
  match ← rebuild? code [] with
  | [e] => return e
  | _ => none

end ThreeAddress
