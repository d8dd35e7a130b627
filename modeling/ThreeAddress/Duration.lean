import ThreeAddress.Rounding

/-!
# Durations

A time is held in binary, as a whole number of grains of 2⁻¹⁰⁷⁴ seconds. Every time that is computed
keeps 53 significant binary digits. A duration is shown in milliseconds with one decimal place, a
half going to the even neighbour and the sign of a negative time being kept even when all digits are
zero. Where the milliseconds are infinite, that is shown instead.
-/

namespace ThreeAddress

/-- A time in seconds, as a number of grains. -/
structure Duration where
  grains : Int
deriving DecidableEq, Repr

namespace Duration

/-- The time that is held for a number of grains. -/
def ofGrains (grains : Int) : Duration :=
  ⟨roundTo precision grains⟩

/-- The time from one clock reading to another. -/
def between (start stop : Duration) : Duration :=
  ofGrains (stop.grains - start.grains)

/-- A thousandfold duration; its seconds are the milliseconds of the given one. -/
def thousandfold (d : Duration) : Duration :=
  ofGrains (1000 * d.grains)

def isFinite (d : Duration) : Bool :=
  d.grains.natAbs < infinity * grainsPerUnit

/-- The size of a finite duration in tenths of a second. -/
def tenths (d : Duration) : Nat :=
  roundDiv (10 * d.grains.natAbs) grainsPerUnit

/-- The seconds with one decimal place. -/
def seconds (d : Duration) : String :=
  (if d.grains < 0 then "-" else "") ++
    if d.isFinite then (d.tenths / 10).repr ++ "." ++ (d.tenths % 10).repr else "inf"

def milliseconds (d : Duration) : String :=
  d.thousandfold.seconds

end Duration

end ThreeAddress
