import ThreeAddress.Arithmetic
import ThreeAddress.Evaluation

/-!
# Passes over nodes with a stack

The nodes of a tree, children before their parent, are a program for a stack of values: a literal
is pushed, and an operation replaces its two operands by its value. Evaluation never looks below a
literal or a malformed node, so such nodes lose their children before the nodes are listed. A node
lets the pass go on (`Visits`) or stops it (`Halts`).
-/

namespace ThreeAddress

namespace Tree

/-- Whether the label at the root is unknown, or an operator there lacks an operand. -/
def isMalformed : Tree → Bool
  | nil | node (.literal _) _ _ _ => false
  | node (.unknown ..) _ _ _ => true
  | node (.operator ..) _ left right => left.label?.isNone || right.label?.isNone

/-- The tree without what is below literals and malformed nodes. -/
def prune : Tree → Tree
  | nil => nil
  | node label span left right =>
    if (node label span left right).isLeaf || (node label span left right).isMalformed then
      node label span nil nil
    else node label span left.prune right.prune

/-- Whether the root is a literal with more than 4300 digits. -/
def isOverlong : Tree → Bool
  | node (.literal value) _ _ _ => 4300 < value.natAbs.repr.length
  | _ => false

/-- How an instruction refers to the root: a literal by its numeral, other nodes by their name. -/
def operandText : Tree → String
  | nil => ""
  | node (.literal value) _ _ _ => value.repr
  | node (.operator _ name) _ _ _ | node (.unknown _ name) _ _ _ => name

/-- The instruction of an operation at the root. -/
def instruction? : Tree → Option Instruction
  | node (.operator op name) span left right =>
    some ⟨name, op, left.operandText, right.operandText, span⟩
  | _ => none

end Tree

/-- In `Visits node stack stack'` the node takes its operands from the stack, the right one first,
and leaves its value there. -/
inductive Visits : Tree → List Int → List Int → Prop where
  | literal (value : Int) (span : Span) (left right : Tree) (stack : List Int) :
      Visits (.node (.literal value) span left right) stack (value :: stack)
  | operation {op : Operator} {name : String} {span : Span} {left right : Tree} {a b value : Int}
      {stack : List Int}
      (hformed : (Tree.node (.operator op name) span left right).isMalformed = false)
      (hvalue : op.meaning? a b = some value) (hleft : left.isOverlong = false)
      (hright : right.isOverlong = false) :
      Visits (.node (.operator op name) span left right) (b :: a :: stack) (value :: stack)

/-- In `Halts node stack fault` the node stops the pass. A zero divisor is noticed before an
operand that is too long. -/
inductive Halts : Tree → List Int → Fault → Prop where
  | malformed {label : Label} {span : Span} {left right : Tree} {stack : List Int}
      (h : (Tree.node label span left right).isMalformed = true) :
      Halts (.node label span left right) stack (.diagnostic ⟨⟨.malformedNode, span⟩, .badTree⟩)
  | divisionByZero {name : String} {span : Span} {left right : Tree} {dividend : Int}
      {stack : List Int}
      (hformed : (Tree.node (.operator .div name) span left right).isMalformed = false) :
      Halts (.node (.operator .div name) span left right) (0 :: dividend :: stack)
        (.diagnostic ⟨⟨.divisionByZero, span⟩, .zeroDivisor⟩)
  | numeralTooLong {op : Operator} {name : String} {span : Span} {left right : Tree} {a b : Int}
      {stack : List Int}
      (hformed : (Tree.node (.operator op name) span left right).isMalformed = false)
      (hdivisor : ¬(op = .div ∧ b = 0)) (hlong : (left.isOverlong || right.isOverlong) = true) :
      Halts (.node (.operator op name) span left right) (b :: a :: stack) .numeralTooLong

/-- In `Passes nodes stack stack'` every node lets the pass go on. -/
inductive Passes : List Tree → List Int → List Int → Prop where
  | nil (stack : List Int) : Passes [] stack stack
  | cons {node : Tree} {nodes : List Tree} {stack stack₁ stack' : List Int}
      (h : Visits node stack stack₁) (hrest : Passes nodes stack₁ stack') :
      Passes (node :: nodes) stack stack'

end ThreeAddress
