import ThreeAddress.Evaluation
import ThreeAddress.Journal
import ThreeAddress.Parser

/-!
# The compilation pipeline

A pipeline is a computation that may stop with a fault and that leaves behind a journal and the
lines it printed, also when it stops. Its two stages are reading an expression from a source text
and evaluating a tree into code.
-/

namespace ThreeAddress

/-- What a pipeline leaves behind besides its result. -/
structure Output where
  journal : Array Event := #[]
  printed : Array String := #[]
deriving DecidableEq, Repr

namespace Output

def record (event : Event) (out : Output) : Output :=
  { out with journal := out.journal.push event }

def print (line : String) (out : Output) : Output :=
  { out with printed := out.printed.push line }

/-- The journal as it is written. -/
def entries (out : Output) : List Entry :=
  out.journal.toList.map Event.entry

/-- All printed lines as one text. -/
def printedText (out : Output) : String :=
  String.join (out.printed.toList.map (· ++ "\n"))

end Output

abbrev Pipeline := EStateM Fault Output

namespace Pipeline

def record (event : Event) : Pipeline Unit :=
  modify (Output.record event)

def print (line : String) : Pipeline Unit :=
  modify (Output.print line)

/-- Stops with a diagnostic that is recorded first. -/
def report {α : Type} (d : Diagnostic) : Pipeline α := do
  record (.reported d)
  throw (.diagnostic d)

/-- Reads all tokens of a source text and records the outcome. -/
def tokenize (source : String) (category : Category) : Pipeline (List Token) := do
  match ThreeAddress.tokenize source with
  | .ok tokens =>
    record (.scanned tokens.length)
    return tokens
  | .error issue => report (issue.fileUnder category)

/-- Reads a whole source text as an expression and records the outcome. -/
def parse (source : String) (limits : Limits) : Pipeline Parsed := do
  match ThreeAddress.parse source limits with
  | .ok parsed =>
    record (.parsed parsed.tree.height parsed.temporaries)
    return parsed
  | .error d => report d

/-- Takes an instruction into the code and the journal, and prints it when `echo` is set. -/
def emit (echo : Bool) (instruction : Instruction) :
    Array Instruction × Output → Array Instruction × Output
  | (code, out) =>
    (code.push instruction,
      if echo then (out.record (.emitted instruction)).print ("  " ++ instruction.text)
      else out.record (.emitted instruction))

/-- Evaluates a tree, adding to the code. -/
def evaluateInto (echo : Bool) (tree : Tree) : EStateM Fault (Array Instruction × Output) Int :=
  tree.evaluate (emit echo)

/-- The value of a tree and the code that computes it. -/
def evaluate (echo : Bool) (tree : Tree) : Pipeline (Int × List Instruction) := fun out =>
  match (evaluateInto echo tree).run (#[], out) with
  | .ok value (code, out) => .ok (value, code.toList) out
  | .error fault (_, out) => .error fault out

end Pipeline

end ThreeAddress
