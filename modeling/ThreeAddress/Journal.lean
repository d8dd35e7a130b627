import ThreeAddress.Diagnostic
import ThreeAddress.Duration
import ThreeAddress.Instruction
import ThreeAddress.Text.Decimal

/-!
# The journal

What a compilation does is recorded as a sequence of events. An event is written as an entry, which
names the part of the compiler that it comes from and has a level and a text.
-/

namespace ThreeAddress

inductive Event where
  /-- A compilation of a source text of so many bytes begins. -/
  | compiling (bytes : Nat)
  /-- A source text was read as so many tokens. -/
  | scanned (tokens : Nat)
  /-- A source text was read as an expression. -/
  | parsed (height temporaries : Nat)
  | emitted (instruction : Instruction)
  | reported (d : Diagnostic)
  /-- A timed run ended with a value. -/
  | finished (value : Int) (instructions : Nat) (time : Duration)
deriving DecidableEq, Repr

inductive Level where
  | debug
  | info
  | error
deriving DecidableEq, Repr

/-- The part of the compiler that an entry comes from. -/
inductive Origin where
  | compiler
  | scanner
  | parser
  | evaluator
  | reporter
  | timedRun
deriving DecidableEq, Repr

structure Entry where
  origin : Origin
  level : Level
  text : String
deriving DecidableEq, Repr

namespace Event

def origin : Event → Origin
  | compiling .. => .compiler
  | scanned .. => .scanner
  | parsed .. => .parser
  | emitted .. => .evaluator
  | reported .. => .reporter
  | finished .. => .timedRun

def level : Event → Level
  | compiling .. | finished .. => .info
  | scanned .. | parsed .. | emitted .. => .debug
  | reported .. => .error

def text : Event → String
  | compiling bytes => "Compiling expression (" ++ bytes.repr ++ " bytes)"
  | scanned tokens => "Scanned " ++ tokens.repr ++ " tokens"
  | parsed height temporaries =>
    "Parsed tree of height " ++ height.repr ++ " using " ++ temporaries.repr ++ " temporaries"
  | emitted instruction => "Emitted " ++ instruction.text
  | reported d => d.text
  | finished value instructions time =>
    "Evaluated to " ++ Text.valueText value ++ " with " ++ instructions.repr ++
      " IR instructions in " ++ time.milliseconds ++ "ms"

def entry (e : Event) : Entry :=
  ⟨e.origin, e.level, e.text⟩

end Event

end ThreeAddress
