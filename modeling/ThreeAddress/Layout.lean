import ThreeAddress.Text.Blank
import ThreeAddress.Text.Decimal
import ThreeAddress.Token

/-!
# Layouts

A source text seen as words: each is a lexeme with the blanks in front of it, and more blanks may
follow the last one. A layout says what its text is, and which tokens stand where in that text.
Places are counted from the start of the text: the line by the line feeds in front of them, the
column by the characters since the last line feed.
-/

namespace ThreeAddress

/-- The position behind a text that starts a source. -/
def Position.behind (text : List Char) : Position :=
  ⟨1 + text.count '\n', 1 + (text.reverse.takeWhile (· ≠ '\n')).length⟩

/-- The value of decimal digits, each weighted by the digits behind it. -/
def decimalValue : List Char → Nat
  | [] => 0
  | c :: digits => (c.toNat - '0'.toNat) * Nat.pow 10 digits.length + decimalValue digits

abbrev Blanks := { text : List Char // ∀ c ∈ text, Text.isBlank c = true }

/-- Digits that make up a literal: at least one, and no more than may be read. -/
@[ext]
structure Numeral where
  digits : List Char
  ne_nil : digits ≠ []
  isDigit : ∀ c ∈ digits, c.isDigit = true
  length_le : digits.length ≤ Text.digitLimit
deriving DecidableEq

/-- The written form of a token other than the end. -/
inductive Lexeme where
  | opening
  | closing
  | operator (op : Operator)
  | numeral (n : Numeral)
deriving DecidableEq

namespace Lexeme

def text : Lexeme → List Char
  | opening => ['(']
  | closing => [')']
  | operator op => [op.symbol]
  | numeral n => n.digits

def kind : Lexeme → TokenKind
  | opening => .opening
  | closing => .closing
  | operator op => .operator op
  | numeral n => .number (decimalValue n.digits)

def isNumeral : Lexeme → Bool
  | numeral _ => true
  | _ => false

end Lexeme

structure Word where
  blanks : Blanks
  lexeme : Lexeme
deriving DecidableEq

namespace Word

def text (w : Word) : List Char :=
  w.blanks ++ w.lexeme.text

/-- The word's token, when `before` is the text in front of the word. -/
def token (before : List Char) (w : Word) : Token :=
  ⟨w.lexeme.kind, .behind (before ++ w.blanks), .behind (before ++ w.text)⟩

end Word

/-- The tokens of words, when `before` is the text in front of them. -/
def wordTokens (before : List Char) : List Word → List Token
  | [] => []
  | w :: words => w.token before :: wordTokens (before ++ w.text) words

structure Layout where
  words : List Word
  trailing : Blanks
deriving DecidableEq

namespace Layout

def text (layout : Layout) : List Char :=
  layout.words.flatMap Word.text ++ layout.trailing

def tokens (layout : Layout) : List Token :=
  wordTokens [] layout.words ++ [⟨.endOfInput, .behind layout.text, .behind layout.text⟩]

/-- Every numeral is a whole run of digits: no digit stands right in front of it or behind it. -/
def IsMaximal (layout : Layout) : Prop :=
  ∀ before w after, layout.words = before ++ w :: after → w.lexeme.isNumeral = true →
    (∀ c ∈ (before.flatMap Word.text ++ w.blanks).getLast?, c.isDigit = false) ∧
    ∀ c ∈ (after.flatMap Word.text ++ layout.trailing).head?, c.isDigit = false

end Layout

end ThreeAddress
