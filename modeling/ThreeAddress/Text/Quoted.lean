import ThreeAddress.Text.Printable

/-!
# Quoted characters

How a message shows a single character: between quotes, with a backslash sequence where the bare
character would be ambiguous or invisible.
-/

namespace ThreeAddress.Text

/-- Lower-case hexadecimal digits, filled up with zeros to the given width. -/
def hexadecimal (width n : Nat) : String :=
  String.ofList (List.leftpad width '0' (Nat.toDigits 16 n))

/-- The code point behind a backslash, in the shortest of the three forms that can hold it. -/
def codePointEscape (n : Nat) : String :=
  if n < 0x100 then "\\x" ++ hexadecimal 2 n
  else if n < 0x10000 then "\\u" ++ hexadecimal 4 n
  else "\\U" ++ hexadecimal 8 n

/-- What stands between the quotes. -/
def escaped (c : Char) : String :=
  if c = '\\' then "\\\\"
  else if c = '\t' then "\\t"
  else if c = '\n' then "\\n"
  else if c = '\r' then "\\r"
  else if isPrintable c then String.singleton c
  else codePointEscape c.toNat

/-- A character in single quotes, and the single quote itself in double quotes. -/
def quoted (c : Char) : String :=
  if c = '\'' then "\"'\"" else "'" ++ escaped c ++ "'"

end ThreeAddress.Text
