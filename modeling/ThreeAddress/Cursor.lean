import ThreeAddress.Diagnostic
import ThreeAddress.Text.Blank
import ThreeAddress.Text.Decimal
import ThreeAddress.Token

/-!
# Reading tokens off a text

A cursor is a place in a source text: what is still unread, and the position where it starts.
`Cursor.next` reads one token. It also says where reading goes on after a failure: a literal that
is too long is behind the cursor, a character that starts no token stays in front of it.

Main statement: a token other than the end takes at least one character
(`Cursor.length_rest_lt_of_next`), so reading all tokens ends.
-/

namespace ThreeAddress

structure Cursor where
  rest : List Char
  position : Position
deriving DecidableEq, Repr

namespace Cursor

def ofSource (source : String) : Cursor :=
  ⟨source.toList, Position.start⟩

/-- The cursor behind the longest run of characters that satisfy `p`. -/
def skip (p : Char → Bool) (cursor : Cursor) : Cursor :=
  ⟨cursor.rest.dropWhile p, cursor.position.afterAll (cursor.rest.takeWhile p)⟩

/-- Reads the digits in front of the cursor as one literal. -/
def literal (cursor : Cursor) : EStateM.Result Issue Cursor Token :=
  match Text.readDigits? (cursor.rest.takeWhile Char.isDigit) with
  | some value =>
    .ok ⟨.number value, cursor.position, (cursor.skip Char.isDigit).position⟩
      (cursor.skip Char.isDigit)
  | none =>
    .error ⟨.literalTooLong, cursor.position, (cursor.skip Char.isDigit).position⟩
      (cursor.skip Char.isDigit)

/-- Reads the token that starts at the cursor itself. -/
def lexeme (cursor : Cursor) : EStateM.Result Issue Cursor Token :=
  match cursor.rest with
  | [] => .ok ⟨.endOfInput, cursor.position, cursor.position⟩ cursor
  | c :: rest =>
    match TokenKind.ofChar? c with
    | some kind =>
      .ok ⟨kind, cursor.position, cursor.position.after c⟩ ⟨rest, cursor.position.after c⟩
    | none =>
      if c.isDigit then cursor.literal
      else .error ⟨.unexpectedCharacter c, cursor.position,
        cursor.position.line, cursor.position.column + 1⟩ cursor

/-- Reads the next token, past the blanks in front of it. -/
def next (cursor : Cursor) : EStateM.Result Issue Cursor Token :=
  (cursor.skip Text.isBlank).lexeme

theorem length_rest_skip_le (p : Char → Bool) (cursor : Cursor) :
    (cursor.skip p).rest.length ≤ cursor.rest.length :=
  (List.dropWhile_sublist p).length_le

theorem length_rest_lt_of_literal {cursor behind : Cursor} {token : Token} {c : Char}
    {rest : List Char} (h : cursor.literal = .ok token behind) (hrest : cursor.rest = c :: rest)
    (hdigit : c.isDigit = true) : behind.rest.length < cursor.rest.length := by
  unfold literal at h
  split at h
  · obtain ⟨-, rfl⟩ := EStateM.Result.ok.inj h
    have hle := (List.dropWhile_sublist Char.isDigit (l := rest)).length_le
    simpa [skip, hrest, hdigit] using Nat.lt_succ_of_le hle
  · cases h

/-- A token is the end of the input, and then all text is read, or it takes some text. -/
theorem of_lexeme_eq_ok {cursor behind : Cursor} {token : Token}
    (h : cursor.lexeme = .ok token behind) :
    token.isEnd = true ∧ behind = cursor ∨
      behind.rest.length < cursor.rest.length := by
  unfold lexeme at h
  split at h
  · obtain ⟨rfl, rfl⟩ := EStateM.Result.ok.inj h
    exact .inl ⟨rfl, rfl⟩
  · rename_i c rest hrest
    refine .inr ?_
    split at h
    · obtain ⟨-, rfl⟩ := EStateM.Result.ok.inj h
      simp [hrest]
    · split at h
      · exact length_rest_lt_of_literal h hrest (by assumption)
      · cases h

theorem length_rest_le_of_next {cursor behind : Cursor} {token : Token}
    (h : cursor.next = .ok token behind) : behind.rest.length ≤ cursor.rest.length := by
  have hskip := length_rest_skip_le Text.isBlank cursor
  rcases of_lexeme_eq_ok h with ⟨-, rfl⟩ | hlt
  · exact hskip
  · omega

theorem length_rest_lt_of_next {cursor behind : Cursor} {token : Token}
    (h : cursor.next = .ok token behind) (hend : token.isEnd = false) :
    behind.rest.length < cursor.rest.length := by
  have hskip := length_rest_skip_le Text.isBlank cursor
  rcases of_lexeme_eq_ok h with ⟨htrue, -⟩ | hlt
  · simp [htrue] at hend
  · omega

/-- The tokens from the cursor on, up to the end or to the first issue. -/
def readAll (cursor : Cursor) : List Token × Option Issue :=
  match h : cursor.next with
  | .error issue _ => ([], some issue)
  | .ok token behind =>
    if hend : token.isEnd then ([token], none)
    else
      have := length_rest_lt_of_next h (by simpa using hend)
      let (tokens, issue?) := behind.readAll
      (token :: tokens, issue?)
termination_by cursor.rest.length

theorem readAll_eq (cursor : Cursor) :
    cursor.readAll =
      match cursor.next with
      | .error issue _ => ([], some issue)
      | .ok token behind =>
        if token.isEnd then ([token], none)
        else (token :: behind.readAll.1, behind.readAll.2) := by
  rw [readAll]
  split <;> rename_i h <;> simp only [h]
  split <;> simp

end Cursor

/-- All tokens of a source text, the end included. -/
def tokenize (source : String) : Except Issue (List Token) :=
  match (Cursor.ofSource source).readAll with
  | (tokens, none) => .ok tokens
  | (_, some issue) => .error issue

end ThreeAddress
