import ThreeAddress.Arithmetic
import ThreeAddress.Grammar

/-!
# The value of a phrase

The grammar gives every phrase a value without a detour through trees: a chain is folded from the
left, operands before operators. A division by zero has no value; it is known by the span of its
operator, and the first one decides.
-/

namespace ThreeAddress

/-- The value of an operation at `span` from the outcomes of its operands, the left one first. -/
def Operator.combine (op : Operator) (span : Span) (left right : Except Span Int) :
    Except Span Int := do
  let a ← left
  let b ← right
  match op.meaning? a b with
  | some value => return value
  | none => throw span

/-- Values of phrases: in `Denotes rank tokens outcome` the tokens are a phrase of the rank. -/
inductive Denotes : Rank → List Token → Except Span Int → Prop where
  | number (value : Nat) (span : Span) : Denotes .operand [⟨.number value, span⟩] (.ok value)
  | group {tokens : List Token} {outcome : Except Span Int} (start stop : Span)
      (inner : Denotes .sum tokens outcome) :
      Denotes .operand (⟨.opening, start⟩ :: tokens ++ [⟨.closing, stop⟩]) outcome
  | ofOperand {tokens : List Token} {outcome : Except Span Int}
      (h : Denotes .operand tokens outcome) : Denotes .product tokens outcome
  | ofProduct {tokens : List Token} {outcome : Except Span Int}
      (h : Denotes .product tokens outcome) : Denotes .sum tokens outcome
  | extendProduct {op : Operator} {span : Span} {tokens more : List Token}
      {left right : Except Span Int} (tight : op = .mul ∨ op = .div)
      (hleft : Denotes .product tokens left) (hright : Denotes .operand more right) :
      Denotes .product (tokens ++ ⟨.operator op, span⟩ :: more) (op.combine span left right)
  | extendSum {op : Operator} {span : Span} {tokens more : List Token}
      {left right : Except Span Int} (loose : op = .add ∨ op = .sub)
      (hleft : Denotes .sum tokens left) (hright : Denotes .product more right) :
      Denotes .sum (tokens ++ ⟨.operator op, span⟩ :: more) (op.combine span left right)

end ThreeAddress
