import ThreeAddress.Parser.Measure

/-!
# Parsing

A parser reads one expression from its scanner, step by step. It can be used again after a
failure: its scanner stands where reading stopped, and parentheses that were open stay counted in
`depth`.
-/

namespace ThreeAddress

namespace Parser

/-- Carries a task to its end. -/
def run (task : Task) (p : Parser) : EStateM.Result Diagnostic Parser Expr :=
  match h : (step task).run p with
  | .ok (.more task') p' =>
    have := measure_lt_of_step h
    run task' p'
  | .ok (.done e) p' => .ok e p'
  | .error d p' => .error d p'
termination_by measure task p

theorem run_eq (task : Task) (p : Parser) :
    run task p =
      match (step task).run p with
      | .ok (.more task') p' => run task' p'
      | .ok (.done e) p' => .ok e p'
      | .error d p' => .error d p' := by
  rw [run]
  split <;> rename_i h <;> simp only [h]

/-- Reads the longest expression that starts at the current token. -/
def expression (p : Parser) : EStateM.Result Diagnostic Parser Expr :=
  run ⟨[], .operand⟩ p

/-- Reads an expression that extends to the end of the input. -/
def parse (p : Parser) : EStateM.Result Diagnostic Parser Expr :=
  match p.expression with
  | .ok e p =>
    if p.scanner.current.isEnd then .ok e p
    else (fail .trailingToken p.scanner.current.span).run p
  | .error d p => .error d p

/-- A parser on the first token of a scanner, with no temporary taken. -/
def ofScanner (scanner : Scanner) (limits : Limits) : Parser :=
  { scanner, temporaries := 0, depth := 0, limits, category := .badSource }

end Parser

/-- An expression with what its reader counted. -/
structure Parsed where
  tree : Expr
  tokens : Nat
  temporaries : Nat
deriving DecidableEq, Repr

/-- Reads a whole source text as an expression. -/
def parse (source : String) (limits : Limits) : Except Diagnostic Parsed := do
  let scanner ← Scanner.ofSource source .badSource
  match (Parser.ofScanner scanner limits).parse with
  | .ok tree p => return ⟨tree, p.scanner.count, p.temporaries⟩
  | .error d _ => throw d

end ThreeAddress
