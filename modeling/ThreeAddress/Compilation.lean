import ThreeAddress.Pipeline

/-!
# Compilation

Compiling a source text gives its value, its code and its tree. Three short forms give the value
alone, the listed code, and how often each operator occurs in it.
-/

namespace ThreeAddress

structure Compilation where
  value : Int
  code : List Instruction
  tree : Expr
deriving DecidableEq, Repr

def compile (source : String) (limits : Limits) : Pipeline Compilation := do
  Pipeline.record (.compiling source.utf8ByteSize)
  let parsed ← Pipeline.parse source limits
  let (value, code) ← Pipeline.evaluate false parsed.tree.toTree
  return { value, code, tree := parsed.tree }

def compileToValue (source : String) (limits : Limits) : Pipeline Int := do
  return (← compile source limits).value

def compileToListing (annotate : Bool) (source : String) (limits : Limits) : Pipeline String := do
  return listing annotate (← compile source limits).code

def compileToCounts (source : String) (limits : Limits) : Pipeline (List (Operator × Nat)) := do
  return operatorCounts (← compile source limits).code

end ThreeAddress
