import ThreeAddress.Diagnostic
import ThreeAddress.Instruction
import ThreeAddress.Tree

/-!
# Evaluation

The value of a tree, computed from the leaves up and from left to right. Every operation emits one
instruction when its value is known. Instructions go to a sink of any type: `emit` says how the
sink takes one more, and the sink keeps what it has when evaluation fails.
-/

namespace ThreeAddress

/-- What stops an evaluation. -/
inductive Fault where
  | diagnostic (d : Diagnostic)
  /-- An operation was computed that has no value. -/
  | noValue
  /-- A literal operand has more digits than a numeral may have. -/
  | numeralTooLong
deriving DecidableEq, Repr

namespace Fault

def malformedNode (span : Span) : Fault :=
  .diagnostic ⟨⟨.malformedNode, span⟩, .badTree⟩

def divisionByZero (span : Span) : Fault :=
  .diagnostic ⟨⟨.divisionByZero, span⟩, .zeroDivisor⟩

end Fault

namespace Instruction

/-- The instruction for an operation on two nodes, if both have an operand text. -/
def ofLabels? (op : Operator) (name : String) (span : Span) (left right : Label) :
    Option Instruction := do
  let left ← left.operand?
  let right ← right.operand?
  return { result := name, op, left, right, span }

end Instruction

/-- Computes an operation from the values of its operands and emits its instruction. The divisor is
checked first. -/
def Operator.perform {σ : Type} (emit : Instruction → σ → σ) (op : Operator) (name : String)
    (span : Span) (left right : Label) (leftValue rightValue : Int) : EStateM Fault σ Int :=
  if op = div ∧ rightValue = 0 then throw (.divisionByZero span)
  else
    match op.compute? leftValue rightValue with
    | none => throw .noValue
    | some value =>
      match Instruction.ofLabels? op name span left right with
      | none => throw .numeralTooLong
      | some instruction => do
        modify (emit instruction)
        return value

namespace Tree

/-- Evaluates a tree, sending its instructions to the sink. -/
def evaluate {σ : Type} (emit : Instruction → σ → σ) : Tree → EStateM Fault σ Int
  | nil => throw (.malformedNode .unknown)
  | node (.literal value) _ _ _ => return value
  | node (.unknown ..) span _ _ => throw (.malformedNode span)
  | node (.operator op name) span left right =>
    match left.label?, right.label? with
    | some leftLabel, some rightLabel => do
      let leftValue ← left.evaluate emit
      let rightValue ← right.evaluate emit
      op.perform emit name span leftLabel rightLabel leftValue rightValue
    | _, _ => throw (.malformedNode span)

end Tree

end ThreeAddress
