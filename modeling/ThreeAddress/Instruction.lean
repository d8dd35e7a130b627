import ThreeAddress.Operator
import ThreeAddress.Span

/-!
# Instructions

One instruction names a result, an operator and two operands. Code is a list of instructions; it
is listed one instruction a line, on request with the span that each comes from.
-/

namespace ThreeAddress

structure Instruction where
  result : String
  op : Operator
  left : String
  right : String
  span : Span
deriving DecidableEq, Repr

namespace Instruction

def text (i : Instruction) : String :=
  i.result ++ " = " ++ i.left ++ " " ++ i.op.symbol.toString ++ " " ++ i.right

/-- The text, followed by a comment with the span when it is known. -/
def annotated (i : Instruction) : String :=
  if i.span.isKnown then i.text ++ "  # " ++ i.span.text else i.text

end Instruction

/-- One line for each instruction. -/
def listingLines (annotate : Bool) (code : List Instruction) : List String :=
  code.map fun i => if annotate then i.annotated else i.text

def listing (annotate : Bool) (code : List Instruction) : String :=
  "\n".intercalate (listingLines annotate code)

/-- How often each operator occurs; an operator that does not occur is left out. -/
def operatorCounts (code : List Instruction) : List (Operator × Nat) :=
  (Operator.all.map fun op => (op, code.countP (·.op = op))).filter (0 < ·.2)

end ThreeAddress
