import ThreeAddress.Expr
import ThreeAddress.Scanner

/-!
# Steps of the parser

The grammar has two ranks of left-associative operators over literals and parenthesised
expressions:

    expression := product (("+" | "-") product)*
    product    := operand (("*" | "/") operand)*
    operand    := number | "(" expression ")"

A parser works on a stack of frames, one for each open parenthesis and each operator that waits for
its right operand. A step moves past one token or joins two operands. Temporaries are taken in the
order in which operations are built.
-/

namespace ThreeAddress

/-- Bounds on what is accepted; both may be zero or negative. -/
structure Limits where
  /-- How many parentheses may be open at once. -/
  nesting : Int := 100
  /-- How high an operation's tree may be. -/
  height : Int := 500
deriving DecidableEq, Repr

structure Parser where
  scanner : Scanner
  /-- How many temporaries have been taken. -/
  temporaries : Nat
  /-- How many parentheses have been opened and not closed. -/
  depth : Nat
  limits : Limits
  category : Category
deriving DecidableEq, Repr

namespace Parser

/-- A part of the expression that is still open. -/
inductive Frame where
  | group
  | operation (op : Operator) (span : Span) (left : Expr)
deriving DecidableEq, Repr

/-- What the parser looks at next: the place of an operand, or what follows a complete one. -/
inductive Focus where
  | operand
  | complete (e : Expr)
deriving DecidableEq, Repr

structure Task where
  stack : List Frame
  focus : Focus
deriving DecidableEq, Repr

/-- The result of one step: another task, or the expression. -/
inductive Progress where
  | more (task : Task)
  | done (e : Expr)
deriving DecidableEq, Repr

def fail {α : Type} (cause : Cause) (span : Span) : EStateM Diagnostic Parser α := fun p =>
  .error (Issue.fileUnder ⟨cause, span⟩ p.category) p

/-- Moves the scanner past the current token. -/
def advance : EStateM Diagnostic Parser Unit := fun p =>
  match p.scanner.advance with
  | .ok _ scanner => .ok () { p with scanner }
  | .error d scanner => .error d { p with scanner }

/-- Counts one more open parenthesis, the one at `span`. -/
def openGroup (span : Span) : EStateM Diagnostic Parser Unit := do
  modify fun p => { p with depth := p.depth + 1 }
  let p ← get
  if p.limits.nesting < p.depth then fail .nestedTooDeeply span

def closeGroup : EStateM Diagnostic Parser Unit :=
  modify fun p => { p with depth := p.depth - 1 }

/-- Builds an operation, naming it with the next temporary. -/
def join (op : Operator) (span : Span) (left right : Expr) : EStateM Diagnostic Parser Expr := do
  let p ← get
  let e := Expr.binary op ⟨p.temporaries⟩ span left right
  set { p with temporaries := p.temporaries + 1 }
  if p.limits.height < e.height then fail .expressionTooLong span else return e

/-- Reads a literal, or opens a group. -/
def stepOperand (stack : List Frame) : EStateM Diagnostic Parser Progress := do
  let token := (← get).scanner.current
  match token.kind with
  | .number value =>
    advance
    return .more ⟨stack, .complete (.literal value token.span)⟩
  | .opening =>
    advance
    openGroup token.span
    return .more ⟨.group :: stack, .operand⟩
  | _ => fail .operandExpected token.span

/-- Moves past an operator whose left operand is complete. -/
def shift (op : Operator) (span : Span) (left : Expr) (stack : List Frame) :
    EStateM Diagnostic Parser Progress := do
  advance
  return .more ⟨.operation op span left :: stack, .operand⟩

/-- Gives a waiting operation its right operand. -/
def reduce (op : Operator) (span : Span) (left right : Expr) (stack : List Frame) :
    EStateM Diagnostic Parser Progress := do
  let e ← join op span left right
  return .more ⟨stack, .complete e⟩

/-- Goes on behind a complete operand. An operation that waits for it is joined unless the next
operator binds more tightly. -/
def stepComplete (stack : List Frame) (e : Expr) : EStateM Diagnostic Parser Progress := do
  let token := (← get).scanner.current
  match stack with
  | .operation op span left :: rest =>
    match token.kind with
    | .operator next =>
      if next.takesOperandFrom op then shift next token.span e stack
      else reduce op span left e rest
    | _ => reduce op span left e rest
  | .group :: rest =>
    match token.kind with
    | .operator next => shift next token.span e stack
    | .closing =>
      advance
      closeGroup
      return .more ⟨rest, .complete e⟩
    | _ => fail .closingExpected token.span
  | [] =>
    match token.kind with
    | .operator next => shift next token.span e stack
    | _ => return .done e

def step (task : Task) : EStateM Diagnostic Parser Progress :=
  match task.focus with
  | .operand => stepOperand task.stack
  | .complete e => stepComplete task.stack e

end Parser

end ThreeAddress
