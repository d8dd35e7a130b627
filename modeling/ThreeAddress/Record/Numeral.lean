import ThreeAddress.Text.Blank
import ThreeAddress.Text.Decimal

/-!
# Numerals in fields

A plain numeral has no leading zeros and at most `digitLimit` digits, with a minus sign in front of
them or not. The numeral of a field is tidied before it is read as a plain one: white space around
it, a plus sign, leading zeros, a fraction of zeros and underscores are dropped. A text that starts
with more digits than a numeral may have is refused for that before anything else.
-/

namespace ThreeAddress.Text

/-- Why a text is not read as a numeral. -/
inductive NumeralError where
  | malformed
  | tooLong
deriving DecidableEq, Repr

def isPlain : List Char → Bool
  | ['0'] => true
  | c :: rest => c ≠ '0' && (c :: rest).all Char.isDigit
  | [] => false

def plainNatural? (text : List Char) : Option Nat :=
  if isPlain text then readDigits? text else none

def plainInteger? : List Char → Option Int
  | '-' :: digits => (plainNatural? digits).map fun n => -n
  | digits => (plainNatural? digits).map fun n => n

/-- Whether the text starts, after a minus sign or not, with too many digits for a plain numeral. -/
def isOverlong : List Char → Bool
  | '-' :: text => tooManyDigits text
  | text => tooManyDigits text
where
  tooManyDigits (text : List Char) : Bool :=
    text.head? ≠ some '0' && digitLimit < (text.takeWhile Char.isDigit).length

/-- White space is what is blank, the four information separators apart. -/
def isSpace (c : Char) : Bool :=
  isBlank c && !(CodeRange.mk 0x001c 0x001f).contains c

/-- The text without the white space around it. -/
def trim (text : List Char) : List Char :=
  ((text.dropWhile isSpace).reverse.dropWhile isSpace).reverse

/-- Whether a character is dropped after a leading zero. -/
def isPadding (c : Char) : Bool :=
  c = '0' || c = '_'

/-- Drops the zeros in front of a number, which may have a minus sign of its own after them. One zero
stays where no number follows. -/
def dropLeadingZeros? : List Char → Option (List Char)
  | '0' :: rest =>
    match rest.dropWhile isPadding with
    | [] => zeroBefore [] rest
    | c :: number =>
      if c.isDigit || c = '-' then some (c :: number) else zeroBefore (c :: number) rest
  | c :: rest => if c.isDigit then some (c :: rest) else none
  | [] => none
where
  /-- A zero and what follows it, unless there is an underscore between them. -/
  zeroBefore (tail rest : List Char) : Option (List Char) :=
    if (rest.takeWhile isPadding).getLast? = some '_' then none else some ('0' :: tail)

/-- Drops a point at which one zero or more follow and nothing else. -/
def dropZeroFraction (text : List Char) : List Char :=
  match text.dropWhile (· ≠ '.') with
  | '.' :: '0' :: zeros => if zeros.all (· = '0') then text.takeWhile (· ≠ '.') else text
  | _ => text

/-- Drops underscores, each of which must stand alone between two other characters. -/
def dropUnderscores? : List Char → Option (List Char)
  | [] => none
  | '_' :: _ => none
  | [c] => some [c]
  | c :: '_' :: rest => (dropUnderscores? rest).map (c :: ·)
  | c :: rest => (dropUnderscores? rest).map (c :: ·)

def tidy? (text : List Char) : Option (List Char) := do
  let number ←
    match trim text with
    | '-' :: body => (dropLeadingZeros? body).map ('-' :: ·)
    | '+' :: body => dropLeadingZeros? body
    | body => dropLeadingZeros? body
  dropUnderscores? (dropZeroFraction number)

def readNumeral (text : String) : Except NumeralError Int :=
  if isOverlong text.toList then .error .tooLong
  else
    match (tidy? text.toList).bind plainInteger? with
    | some n => .ok n
    | none => .error .malformed

end ThreeAddress.Text
