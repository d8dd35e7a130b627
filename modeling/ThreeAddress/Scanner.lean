import ThreeAddress.Cursor

/-!
# Scanners

A scanner is a cursor that is one token ahead: the current token is read, the text behind it is
not. It counts the tokens it has read and files lexical issues under a category of its own.

Main statement: moving past a token other than the end makes the scanner smaller
(`Scanner.size_lt_of_advance`).
-/

namespace ThreeAddress

structure Scanner where
  cursor : Cursor
  current : Token
  count : Nat
  category : Category
deriving DecidableEq, Repr

namespace Scanner

/-- A scanner on the first token of a source text. -/
def ofSource (source : String) (category : Category) : Except Diagnostic Scanner :=
  match (Cursor.ofSource source).next with
  | .ok token cursor => .ok ⟨cursor, token, 1, category⟩
  | .error issue _ => .error (issue.fileUnder category)

/-- Moves to the next token. A failure leaves the current token and the count as they are. -/
def advance (scanner : Scanner) : EStateM.Result Diagnostic Scanner Token :=
  match scanner.cursor.next with
  | .ok token cursor =>
    .ok token { scanner with cursor, current := token, count := scanner.count + 1 }
  | .error issue cursor => .error (issue.fileUnder scanner.category) { scanner with cursor }

/-- How much is ahead: the unread characters, and the current token unless it is the end. -/
def size (scanner : Scanner) : Nat :=
  scanner.cursor.rest.length + if scanner.current.isEnd then 0 else 1

theorem size_lt_of_advance {scanner scanner' : Scanner} {token : Token}
    (h : scanner.advance = .ok token scanner') (hcurrent : scanner.current.isEnd = false) :
    scanner'.size < scanner.size := by
  unfold advance at h
  split at h
  · rename_i token' cursor hnext
    simp only [EStateM.Result.ok.injEq] at h
    obtain ⟨rfl, rfl⟩ := h
    have hle := Cursor.length_rest_le_of_next hnext
    by_cases hend : token'.isEnd = true
    · simp [size, hcurrent, hend]
      omega
    · have hlt := Cursor.length_rest_lt_of_next hnext (by simpa using hend)
      simp [size, hcurrent, hend]
      omega
  · cases h

end Scanner

end ThreeAddress
