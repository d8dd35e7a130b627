import ThreeAddress.Instruction
import ThreeAddress.Record.Fraction
import ThreeAddress.Record.Numeral

/-!
# Records of unchecked fields

Spans and instructions can be made from records whose fields hold values of any sort. Each field is
checked on its own and all flaws are collected, in the order in which the fields are declared.
Fields that are not declared are ignored. Records are an outer layer: a compilation makes its spans
and instructions itself, and nothing else builds on this one.
-/

namespace ThreeAddress

/-- A value that has not been checked. -/
inductive RawValue where
  | null
  | flag (b : Bool)
  | integer (n : Int)
  | fraction (f : Fraction)
  | text (s : String)
  | list
  | record (fields : List (String × RawValue))
deriving Inhabited

abbrev RawRecord := List (String × RawValue)

/-- What is wrong with a field. -/
inductive Flaw where
  | missing
  | notInteger
  | notNumeral
  | notWhole
  | notFinite
  | tooLarge
  | notText
  | notOperator
  | notRecord
  | readOnly
deriving DecidableEq, Repr

/-- A flaw and the names that lead to its field. -/
structure FieldError where
  flaw : Flaw
  path : List String
deriving DecidableEq, Repr

abbrev Checked (α : Type) := Except (List FieldError) α

namespace Checked

/-- Both values, or the flaws of both. -/
def both {α β : Type} : Checked α → Checked β → Checked (α × β)
  | .ok a, .ok b => .ok (a, b)
  | .ok _, .error errors => .error errors
  | .error errors, .ok _ => .error errors
  | .error errors, .error more => .error (errors ++ more)

/-- Places the flaws inside the field of the given name. -/
def within {α : Type} (name : String) (checked : Checked α) : Checked α :=
  checked.mapError (·.map fun error => { error with path := name :: error.path })

end Checked

namespace RawValue

/-- Whole fractions count as integers below this size. -/
def wholeLimit : Nat := Nat.pow 2 63

/-- Truth values, whole fractions and numerals count as integers. -/
def toInteger : RawValue → Except Flaw Int
  | integer n => .ok n
  | flag b => .ok (if b then 1 else 0)
  | fraction f =>
    if !f.isFinite then .error .notFinite
    else if !f.isWhole then .error .notWhole
    else if f.whole.natAbs < wholeLimit then .ok f.whole
    else .error .tooLarge
  | text s =>
    match Text.readNumeral s with
    | .ok n => .ok n
    | .error .malformed => .error .notNumeral
    | .error .tooLong => .error .tooLarge
  | null | list | record _ => .error .notInteger

def toText : RawValue → Except Flaw String
  | text s => .ok s
  | _ => .error .notText

def toOperator : RawValue → Except Flaw Operator
  | text s =>
    match Operator.all.find? (·.symbol.toString = s) with
    | some op => .ok op
    | none => .error .notOperator
  | _ => .error .notOperator

end RawValue

namespace RawRecord

/-- Checks the field of the given name, which must be there. -/
def field {α : Type} (fields : RawRecord) (name : String) (check : RawValue → Except Flaw α) :
    Checked α :=
  match fields.lookup name with
  | none => .error [⟨.missing, [name]⟩]
  | some value => (check value).mapError fun flaw => [⟨flaw, [name]⟩]

def toPosition (fields : RawRecord) (line column : String) : Checked Position := do
  let (line, column) ←
    (fields.field line RawValue.toInteger).both (fields.field column RawValue.toInteger)
  return { line, column }

def toSpan (fields : RawRecord) : Checked Span := do
  let (start, stop) ←
    (fields.toPosition "start_line" "start_col").both (fields.toPosition "end_line" "end_col")
  return { start, stop }

/-- The span of an instruction, which is unknown when the field is not there. -/
def toSourceSpan (fields : RawRecord) : Checked Span :=
  match fields.lookup "source_location" with
  | none => .ok .unknown
  | some (.record inner) => (toSpan inner).within "source_location"
  | some _ => .error [⟨.notRecord, ["source_location"]⟩]

def toInstruction (fields : RawRecord) : Checked Instruction := do
  let result := fields.field "result" RawValue.toText
  let op := fields.field "operator" RawValue.toOperator
  let left := fields.field "left" RawValue.toText
  let right := fields.field "right" RawValue.toText
  let ((result, op), (left, right), span) ←
    (result.both op).both ((left.both right).both fields.toSourceSpan)
  return { result, op, left, right, span }

end RawRecord

namespace Span

/-- Spans do not change: assigning to a field always fails. A name with an underscore in front is
never that of a field, and assigning to it leaves the span as it is. -/
def assign (s : Span) (name : String) : Checked Span :=
  if name.toList.head? = some '_' then .ok s else .error [⟨.readOnly, [name]⟩]

end Span

end ThreeAddress
