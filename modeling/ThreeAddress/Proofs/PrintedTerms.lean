import Mathlib
import ThreeAddress.Term.Printer
import ThreeAddress.Proofs.Acceptance
import ThreeAddress.Proofs.LexicalLayout
import ThreeAddress.Proofs.OperationNames

/-!
# Reading back what was printed

A term is printed with the parentheses that its operators need. Further pairs around any part of it
and blanks around any token change nothing: the text reads as the same term. Two facts carry this.
What is printed for a term derives it at the rank of its operator (`Term.Spells.derives`), and the
tokens of a derivation can be told apart without blanks, because no number stands next to another
(`Derives.isChain`).
-/

namespace ThreeAddress

namespace Term

def rank : Term → Rank
  | number _ => .operand
  | binary op _ _ => op.rank

/-- Every literal can be written within the digit limit. -/
def Short : Term → Prop
  | number value => value.repr.length ≤ Text.digitLimit
  | binary _ left right => left.Short ∧ right.Short

instance decidableShort : (t : Term) → Decidable t.Short
  | number value => inferInstanceAs (Decidable (value.repr.length ≤ Text.digitLimit))
  | binary _ left right => @instDecidableAnd _ _ (decidableShort left) (decidableShort right)

/-- In `Spells t kinds` the tokens say `t` with the parentheses that it needs, and with any number
of further pairs around any part of it. -/
inductive Spells : Term → List TokenKind → Prop where
  | number (value : Nat) : Spells (number value) [.number value]
  | binary {op : Operator} {left right : Term} {kinds more : List TokenKind}
      (hleft : Spells left kinds) (hright : Spells right more) :
      Spells (binary op left right)
        (enclosed (left.looseLeftOf op) kinds ++
          .operator op :: enclosed (right.looseRightOf op) more)
  | extra {t : Term} {kinds : List TokenKind} (h : Spells t kinds) :
      Spells t (enclosed true kinds)

end Term

namespace Derives

variable {rank : Rank} {kinds : List TokenKind} {t : Term}

lemma toProduct (h : Derives rank kinds t) (hrank : rank ≠ .sum) : Derives .product kinds t := by
  cases rank with
  | operand => exact .ofOperand h
  | product => exact h
  | sum => exact absurd rfl hrank

lemma toSum (h : Derives rank kinds t) : Derives .sum kinds t := by
  by_cases hrank : rank = .sum
  · exact hrank ▸ h
  · exact .ofProduct (h.toProduct hrank)

lemma enclosed (h : Derives rank kinds t) : Derives .operand (Term.enclosed true kinds) t :=
  .group h.toSum

lemma toRank (h : Derives .operand kinds t) (rank : Rank) : Derives rank kinds t := by
  cases rank with
  | operand => exact h
  | product => exact .ofOperand h
  | sum => exact h.toSum

end Derives

namespace Term

variable {op : Operator} {kinds : List TokenKind} {t : Term}

lemma looseLeftOf_binary (op inner : Operator) (left right : Term) :
    (binary inner left right).looseLeftOf op = (op.bindsTightly && !inner.bindsTightly) := by
  cases op <;> cases inner <;> rfl

lemma looseRightOf_binary (op inner : Operator) (left right : Term) :
    (binary inner left right).looseRightOf op = (op.bindsTightly || !inner.bindsTightly) := by
  cases op <;> cases inner <;> rfl

lemma rank_ne_sum_of_tight (htight : op.bindsTightly = true) (h : t.looseLeftOf op = false) :
    t.rank ≠ .sum := by
  cases t with
  | number value => simp [rank]
  | binary inner left right =>
    simp only [looseLeftOf_binary, htight, Bool.true_and, Bool.not_eq_false'] at h
    simp [rank, Operator.rank, h]

lemma rank_ne_sum_of_looseRightOf (h : t.looseRightOf op = false) : t.rank ≠ .sum := by
  cases t with
  | number value => simp [rank]
  | binary inner left right =>
    simp only [looseRightOf_binary, Bool.or_eq_false_iff, Bool.not_eq_false'] at h
    simp [rank, Operator.rank, h.2]

lemma rank_eq_operand_of_tight (htight : op.bindsTightly = true) (h : t.looseRightOf op = false) :
    t.rank = .operand := by
  cases t with
  | number value => rfl
  | binary inner left right => simp [looseRightOf_binary, htight] at h

/-- Operands that stand without parentheses have the ranks that the grammar asks for, and
parentheses make an operand of anything. -/
theorem Spells.derives (h : t.Spells kinds) : Derives t.rank kinds t := by
  induction h with
  | number value => exact .number value
  | extra _ ih => exact ih.enclosed.toRank _
  | binary _ _ ihl ihr =>
    rename_i op left right kinds more _ _
    cases htight : op.bindsTightly with
    | true =>
      have hleft : Derives .product (enclosed (left.looseLeftOf op) kinds) left := by
        cases hloose : left.looseLeftOf op with
        | true => exact .ofOperand ihl.enclosed
        | false => exact ihl.toProduct (rank_ne_sum_of_tight htight hloose)
      have hright : Derives .operand (enclosed (right.looseRightOf op) more) right := by
        cases hloose : right.looseRightOf op with
        | true => exact ihr.enclosed
        | false => exact rank_eq_operand_of_tight htight hloose ▸ ihr
      have hrank : (Term.binary op left right).rank = .product := by
        simp [rank, Operator.rank, htight]
      rw [hrank]
      exact .extendProduct (Operator.bindsTightly_iff.mp htight) hleft hright
    | false =>
      have hleft : Derives .sum (enclosed (left.looseLeftOf op) kinds) left := by
        cases left.looseLeftOf op with
        | true => exact ihl.enclosed.toSum
        | false => exact ihl.toSum
      have hright : Derives .product (enclosed (right.looseRightOf op) more) right := by
        cases hloose : right.looseRightOf op with
        | true => exact .ofOperand ihr.enclosed
        | false => exact ihr.toProduct (rank_ne_sum_of_looseRightOf hloose)
      have hrank : (Term.binary op left right).rank = .sum := by simp [rank, Operator.rank, htight]
      rw [hrank]
      exact .extendSum (Operator.bindsTightly_eq_false_iff.mp htight) hleft hright

end Term

namespace TokenKind

end TokenKind

namespace Term

end Term

/-- The text of tokens in a row, each behind blanks of its own, with more blanks at the end. -/
def spacedText (words : List (Blanks × TokenKind)) (trailing : Blanks) : List Char :=
  words.flatMap (fun w => w.1 ++ w.2.text.toList) ++ trailing

def Blanks.none : Blanks := ⟨[], by simp⟩

lemma Term.toList_text (t : Term) :
    t.text.toList = spacedText (t.tokenKinds.map (Blanks.none, ·)) .none := by
  simp [text, spacedText, Blanks.none, String.toList_join, List.flatMap_map]

/-- A literal is written as its decimal numeral. -/
def Numeral.ofNat (value : Nat) (h : value.repr.length ≤ Text.digitLimit) : Numeral where
  digits := value.repr.toList
  ne_nil := by
    rw [Nat.toList_repr]
    exact Nat.toDigits_ne_nil
  isDigit := by
    intro c hc
    rw [Nat.toList_repr] at hc
    exact Nat.isDigit_of_mem_toDigits (by decide) (by decide) hc
  length_le := h

lemma decimalValue_repr (value : Nat) : decimalValue value.repr.toList = value := by
  have hvalue := ofDigitChars_eq_decimalValue value.repr.toList 0
  rw [Nat.zero_mul, Nat.zero_add, Nat.toList_repr, Nat.ofDigitChars_ten_toDigits] at hvalue
  rw [Nat.toList_repr, ← hvalue]

lemma map_kind_wordTokens (before : List Char) (words : List Word) :
    (wordTokens before words).map Token.kind = words.map fun w => w.lexeme.kind := by
  induction words generalizing before with
  | nil => rfl
  | cons w words ih => rw [wordTokens, List.map_cons, List.map_cons, ih, Word.token]

end ThreeAddress
