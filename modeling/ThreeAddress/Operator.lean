/-!
# Operators

The four binary operators, their symbols, the two ranks in which they bind, and what they compute.
-/

namespace ThreeAddress

inductive Operator where
  | add
  | sub
  | mul
  | div
deriving DecidableEq, Repr

namespace Operator

def all : List Operator := [add, sub, mul, div]

def symbol : Operator → Char
  | add => '+'
  | sub => '-'
  | mul => '*'
  | div => '/'

def ofSymbol? (c : Char) : Option Operator :=
  all.find? (·.symbol = c)

@[simp]
theorem ofSymbol?_symbol (op : Operator) : ofSymbol? op.symbol = some op := by
  cases op <;> rfl

theorem symbol_eq_of_ofSymbol? {c : Char} {op : Operator} (h : ofSymbol? c = some op) :
    op.symbol = c := by
  simpa using List.find?_some h

/-- Multiplication and division bind more tightly than addition and subtraction. -/
def bindsTightly : Operator → Bool
  | mul | div => true
  | add | sub => false

theorem bindsTightly_iff {op : Operator} : op.bindsTightly = true ↔ op = mul ∨ op = div := by
  cases op <;> decide

theorem bindsTightly_eq_false_iff {op : Operator} :
    op.bindsTightly = false ↔ op = add ∨ op = sub := by
  cases op <;> decide

/-- Whether `next`, standing behind the right operand of `op`, takes that operand for itself. -/
def takesOperandFrom (next op : Operator) : Bool :=
  next.bindsTightly && !op.bindsTightly

/-- The quotient of the magnitudes, taken negative when the signs differ. There is none by zero. -/
def quotient? (dividend divisor : Int) : Option Int :=
  if divisor = 0 then none
  else
    let magnitude := dividend.natAbs / divisor.natAbs
    some (if dividend < 0 ↔ divisor < 0 then magnitude else -magnitude)

theorem quotient?_eq_none_iff {dividend divisor : Int} :
    quotient? dividend divisor = none ↔ divisor = 0 := by
  simp [quotient?]

/-- The value of an operation; a division by zero has none. -/
def compute? (op : Operator) (left right : Int) : Option Int :=
  match op with
  | add => some (left + right)
  | sub => some (left - right)
  | mul => some (left * right)
  | div => quotient? left right

end Operator

end ThreeAddress
