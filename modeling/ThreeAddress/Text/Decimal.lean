/-!
# Decimal numerals

Literals are read and values written up to `digitLimit` digits. A value whose numeral would be
longer has no decimal text; where a text is needed all the same, its size in binary digits is named
instead.
-/

namespace ThreeAddress.Text

/-- The largest number of decimal digits that is read or written, a sign not counted. -/
def digitLimit : Nat := 4300

/-- The value of a run of decimal digits, unless the run is too long. Leading zeros count. -/
def readDigits? (digits : List Char) : Option Nat :=
  if digits.length ≤ digitLimit then some (Nat.ofDigitChars 10 digits 0) else none

/-- The value of a text of decimal digits, with a minus sign in front of them or not. -/
def readInteger? (text : String) : Option Int :=
  match text.toList with
  | '-' :: digits => (natural? digits).map fun n => -n
  | digits => (natural? digits).map fun n => n
where
  natural? (digits : List Char) : Option Nat :=
    if digits ≠ [] ∧ digits.all Char.isDigit then some (Nat.ofDigitChars 10 digits 0) else none

/-- The decimal numeral of an integer, unless it has too many digits. -/
def decimal? (n : Int) : Option String :=
  if n.natAbs.repr.length ≤ digitLimit then some n.repr else none

/-- The number of binary digits of a natural number; zero has none. -/
def bitLength (n : Nat) : Nat :=
  if n = 0 then 0 else n.log2 + 1

/-- The decimal numeral of a value, or its size when the numeral is too long. -/
def valueText (n : Int) : String :=
  match decimal? n with
  | some text => text
  | none => "<" ++ (bitLength n.natAbs).repr ++ "-bit integer>"

end ThreeAddress.Text
