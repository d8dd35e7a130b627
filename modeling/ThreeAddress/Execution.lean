import ThreeAddress.Arithmetic
import ThreeAddress.Instruction
import ThreeAddress.Text.Decimal

/-!
# Execution of code

Code runs on an environment of named values. A numeral stands for itself, any other operand for
the value that was last stored under it, and an instruction stores what its operator means on its
operands. Execution has no result when an operand is not set or a divisor is zero.
-/

namespace ThreeAddress

/-- Stored values, the latest in front. -/
abbrev Environment := List (String × Int)

namespace Environment

def operand? (env : Environment) (text : String) : Option Int :=
  (Text.readInteger? text).or (env.lookup text)

end Environment

namespace Instruction

def execute? (i : Instruction) (env : Environment) : Option Environment := do
  let left ← env.operand? i.left
  let right ← env.operand? i.right
  let value ← i.op.meaning? left right
  return (i.result, value) :: env

end Instruction

def execute? : List Instruction → Environment → Option Environment
  | [], env => some env
  | i :: code, env => (i.execute? env).bind (execute? code)

theorem execute?_append (code more : List Instruction) (env : Environment) :
    execute? (code ++ more) env = (execute? code env).bind (execute? more) := by
  induction code generalizing env with
  | nil => rfl
  | cons i code ih =>
    rw [List.cons_append, execute?, execute?]
    cases i.execute? env with
    | none => rfl
    | some env' => exact ih env'

end ThreeAddress
