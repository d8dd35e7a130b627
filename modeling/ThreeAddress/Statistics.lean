import ThreeAddress.Duration
import ThreeAddress.Text.Column

/-!
# Statistics of a run

Sizes and times of one timed run, and the report that shows them as a table.
-/

namespace ThreeAddress

structure Statistics where
  sourceBytes : Int := 0
  tokens : Int := 0
  nodes : Int := 0
  height : Int := 0
  temporaries : Int := 0
  instructions : Int := 0
  parseTime : Duration := ⟨0⟩
  evaluationTime : Duration := ⟨0⟩
  totalTime : Duration := ⟨0⟩
deriving DecidableEq, Repr

namespace Statistics

open Text

/-- Milliseconds in a column of eight characters, with their unit. -/
def timeCell (d : Duration) : String :=
  alignRight 8 d.milliseconds ++ "ms"

/-- A row of the table: a stage, its time and its output. -/
def row (stage time output : String) : String :=
  "  " ++ alignLeft 20 stage ++ " " ++ alignRight 10 time ++ "  " ++ alignRight 30 output

/-- The line above and below the stages. -/
def rule : String :=
  row (repeated 20 '─') (repeated 10 '─') (repeated 30 '─')

def reportLines (s : Statistics) : List String :=
  [ "═══ Pipeline Statistics ═══",
    "  Source: " ++ s.sourceBytes.repr ++ " bytes, " ++ s.tokens.repr ++ " tokens",
    "",
    row "Stage" "Time" "Output",
    rule,
    row "Parse" (timeCell s.parseTime) (s.nodes.repr ++ " nodes, height " ++ s.height.repr),
    row "Evaluate + emit" (timeCell s.evaluationTime) (s.instructions.repr ++ " IR instructions"),
    rule,
    "  " ++ alignLeft 20 "Total" ++ " " ++ timeCell s.totalTime,
    "",
    "  Temporaries allocated: " ++ s.temporaries.repr ]

def report (s : Statistics) : String :=
  "\n".intercalate s.reportLines

end Statistics

end ThreeAddress
