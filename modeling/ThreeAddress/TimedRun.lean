import ThreeAddress.Compilation
import ThreeAddress.Statistics

/-!
# Timed runs

A compilation that reads a clock before and after each stage. A verbose run prints its code as it
is emitted, then the result and the report of its statistics.
-/

namespace ThreeAddress

/-- The readings of a clock. A clock with too few readings stands at zero. -/
abbrev Clock := List Duration

namespace Clock

/-- The reading with the given number. -/
def reading (clock : Clock) (n : Nat) : Duration :=
  clock.getD n ⟨0⟩

/-- The time between two readings. -/
def elapsed (clock : Clock) (first second : Nat) : Duration :=
  Duration.between (clock.reading first) (clock.reading second)

end Clock

namespace Statistics

/-- The statistics of a compilation. The clock was read at the start, around parsing, around
evaluation, and at the end. -/
def ofRun (source : String) (parsed : Parsed) (code : List Instruction) (clock : Clock) :
    Statistics where
  sourceBytes := source.utf8ByteSize
  tokens := parsed.tokens
  nodes := parsed.tree.toTree.size
  height := parsed.tree.height
  temporaries := parsed.temporaries
  instructions := code.length
  parseTime := clock.elapsed 1 2
  evaluationTime := clock.elapsed 3 4
  totalTime := clock.elapsed 0 5

end Statistics

/-- What a verbose run prints behind its code. -/
def resultLines (value : Int) (statistics : Statistics) : List String :=
  ["", "═══ Result ═══", "  " ++ Text.valueText value, ""] ++ statistics.reportLines

def runTimed (source : String) (limits : Limits) (verbose : Bool) (clock : Clock) :
    Pipeline (Compilation × Statistics) := do
  let parsed ← Pipeline.parse source limits
  if verbose then Pipeline.print "═══ IR ═══"
  let (value, code) ← Pipeline.evaluate verbose parsed.tree.toTree
  let statistics := Statistics.ofRun source parsed code clock
  Pipeline.record (.finished value code.length statistics.totalTime)
  if verbose then (resultLines value statistics).forM Pipeline.print
  return ({ value, code, tree := parsed.tree }, statistics)

end ThreeAddress
