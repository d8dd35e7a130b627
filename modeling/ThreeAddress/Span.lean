/-!
# Positions and spans

Where a piece of source text stands: a position is a line and a column, both counted from one, and
a span runs from one position to another. Spans that are not read off a source text hold any
integers; the span of four zeros says that the place is unknown.
-/

namespace ThreeAddress

structure Position where
  line : Int
  column : Int
deriving DecidableEq, Repr

namespace Position

/-- The position of the first character of a text. -/
def start : Position := ⟨1, 1⟩

/-- The position behind one more character. Only a line feed starts a new line. -/
def after (p : Position) (c : Char) : Position :=
  if c = '\n' then ⟨p.line + 1, 1⟩ else ⟨p.line, p.column + 1⟩

/-- The position behind a run of characters. -/
def afterAll (p : Position) (text : List Char) : Position :=
  text.foldl after p

def text (p : Position) : String :=
  p.line.repr ++ ":" ++ p.column.repr

end Position

/-- The text from `start` up to but not including `stop`. -/
structure Span where
  start : Position
  stop : Position
deriving DecidableEq, Repr

namespace Span

def unknown : Span := ⟨⟨0, 0⟩, ⟨0, 0⟩⟩

def isKnown (s : Span) : Bool :=
  s ≠ unknown

def text (s : Span) : String :=
  if s.isKnown then s.start.text ++ "-" ++ s.stop.text else "<unknown>"

end Span

end ThreeAddress
