import Mathlib
import ThreeAddress.Proofs.OpenParentheses

/-!
# The longest expression

A parser that reads an expression stops in front of a token that is no operator. Behind a complete
expression only an operator can go on, so nothing longer that begins with the tokens taken is an
expression. Readers that follow each other on one scanner therefore cut what is ahead of it into
longest expressions, one behind the other.
-/

open ThreeAddress.Parser

namespace ThreeAddress

/-- Only an operator continues a sum. -/
theorem Derives.exists_operator_of_viable {kinds more : List TokenKind} {kind : TokenKind}
    {t : Term} (h : Derives .sum kinds t) (hviable : Viable (kinds ++ kind :: more)) :
    ∃ op, kind = .operator op := by
  by_contra hnot
  have hnext : Outline.next ⟨0, false⟩ kind = none := by
    cases kind with
    | operator op => exact absurd ⟨op, rfl⟩ hnot
    | number _ | opening | closing | endOfInput => rfl
  apply not_viable_of_behind_eq_none _ hviable
  rw [← List.singleton_append, Outline.behind_append, h.behind_eq 0, Option.bind_some,
    Outline.behind_append, Outline.behind_singleton, hnext, Option.bind_none]

/-- The tokens read as `e`, and no longer beginning of what is ahead is an expression. -/
structure Longest (tokens ahead : List Token) (e : Expr) : Prop where
  reads : Reads .sum tokens e
  starts : tokens <+: ahead
  longest : ∀ longer t, longer <+: ahead → Derives .sum (longer.map Token.kind) t →
    longer.length ≤ tokens.length

lemma longest_of_not_operator {tokens rest : List Token} {k : Token} {e : Expr}
    (hreads : Reads .sum tokens e) (hk : ∀ op, k.kind ≠ .operator op) :
    Longest tokens (tokens ++ k :: rest) e := by
  refine ⟨hreads, List.prefix_append _ _, ?_⟩
  intro longer t hlonger hderives
  by_contra hlength
  have hnext : tokens ++ [k] <+: tokens ++ k :: rest := ⟨rest, by simp⟩
  have hbegins : tokens ++ [k] <+: longer := by
    apply List.prefix_of_prefix_length_le hnext hlonger
    rw [List.length_append, List.length_singleton]
    omega
  obtain ⟨more, rfl⟩ := hbegins
  have hviable : Viable (tokens.map Token.kind ++ k.kind :: more.map Token.kind) :=
    ⟨[], t, by simpa using hderives⟩
  obtain ⟨op, hop⟩ := hreads.derives.exists_operator_of_viable hviable
  exact hk op hop

namespace Parser

lemma exists_reaches_of_expression {p q : Parser} {e : Expr} (h : p.expression = .ok e q) :
    ∃ taken, Reaches ⟨[], .operand⟩ p taken ⟨[], .complete e⟩ q ∧
      ∀ op, q.scanner.current.kind ≠ .operator op := by
  rw [expression] at h
  obtain ⟨taken, e', q', hrun, hreach, hcurrent⟩ | ⟨taken, task, q', d, q'', hrun, -⟩ :=
    run_outcome ⟨[], .operand⟩ p
  · rw [hrun] at h
    obtain ⟨rfl, rfl⟩ := EStateM.Result.ok.inj h
    exact ⟨taken, hreach, hcurrent⟩
  · rw [hrun] at h
    cases h

/-- The parser takes the longest expression ahead and reads one token behind it, not more. -/
structure TakesLongest (p : Parser) (taken : List Token) (e : Expr) (q : Parser) : Prop where
  moved : p.scanner.MovesPast taken q.scanner
  count : q.scanner.count = p.scanner.count + taken.length
  ahead : p.scanner.ahead = taken ++ q.scanner.ahead
  longest : Longest taken p.scanner.ahead e
  stops : ∀ op, q.scanner.current.kind ≠ .operator op

theorem exists_takesLongest {p q : Parser} {e : Expr} (h : p.expression = .ok e q) :
    ∃ taken, TakesLongest p taken e q := by
  obtain ⟨taken, hreach, hcurrent⟩ := exists_reaches_of_expression h
  have hahead := hreach.continues.ahead
  refine ⟨taken, hreach.movesPast, hreach.continues.count, hahead, ?_, hcurrent⟩
  rw [hahead, Scanner.ahead]
  exact longest_of_not_operator hreach.reads hcurrent

end Parser

/-- In `s.Yields es s'` the expressions are read off the scanner one after another, each by any
parser that stands on it. -/
inductive Scanner.Yields : Scanner → List Expr → Scanner → Prop where
  | nil (s : Scanner) : Yields s [] s
  | cons {p q : Parser} {e : Expr} {es : List Expr} {s' : Scanner} (h : p.expression = .ok e q)
      (hrest : q.scanner.Yields es s') : Yields p.scanner (e :: es) s'

/-- In `Splits ahead pieces es rest` the tokens ahead are the pieces and the rest, and each piece is
the longest expression where it stands. -/
inductive Splits : List Token → List (List Token) → List Expr → List Token → Prop where
  | nil (rest : List Token) : Splits rest [] [] rest
  | cons {piece more rest : List Token} {pieces : List (List Token)} {e : Expr} {es : List Expr}
      (hpiece : Longest piece (piece ++ more) e) (hrest : Splits more pieces es rest) :
      Splits (piece ++ more) (piece :: pieces) (e :: es) rest

lemma Splits.eq_append {ahead rest : List Token} {pieces : List (List Token)} {es : List Expr}
    (h : Splits ahead pieces es rest) : ahead = pieces.flatten ++ rest := by
  induction h with
  | nil rest => rfl
  | cons hpiece _ ih => rw [ih, List.flatten_cons, List.append_assoc]

theorem Scanner.Yields.exists_splits {s s' : Scanner} {es : List Expr} (h : s.Yields es s') :
    ∃ pieces, s.MovesPast pieces.flatten s' ∧ Splits s.ahead pieces es s'.ahead := by
  induction h with
  | nil s => exact ⟨[], .refl s, .nil _⟩
  | cons hexpression _ ih =>
    obtain ⟨taken, htaken⟩ := exists_takesLongest hexpression
    obtain ⟨pieces, hmoved, hsplits⟩ := ih
    have hlongest := htaken.longest
    rw [htaken.ahead] at hlongest ⊢
    exact ⟨taken :: pieces, htaken.moved.trans hmoved, .cons hlongest hsplits⟩

/-- Reading an expression, from any state of parser and scanner, takes the longest expression ahead
and shows the token behind it, which is no operator. Reading again and again cuts the tokens into
such expressions, without dropping a token or taking one twice. -/
theorem expression_takes_longest :
    (∀ (p q : Parser) (e : Expr), p.expression = .ok e q →
      ∃ taken, TakesLongest p taken e q) ∧
    ∀ (s s' : Scanner) (es : List Expr), s.Yields es s' →
      ∃ pieces, s.MovesPast pieces.flatten s' ∧ Splits s.ahead pieces es s'.ahead ∧
        s.ahead = pieces.flatten ++ s'.ahead := by
  refine ⟨fun p q e h => exists_takesLongest h, fun s s' es h => ?_⟩
  obtain ⟨pieces, hmoved, hsplits⟩ := h.exists_splits
  exact ⟨pieces, hmoved, hsplits, hsplits.eq_append⟩

/-- Two parsers with limits of their own read one behind the other. -/
theorem expression_takes_longest_of_two_parsers :
    ∃ s p q e e', Scanner.ofSource "(1+2)*3 4-5)" .badSource = .ok s ∧
      (ofScanner s {}).expression = .ok e p ∧
      (ofScanner p.scanner ⟨0, 2⟩).expression = .ok e' q ∧
      (∃ taken, TakesLongest (ofScanner s {}) taken e p) ∧
      ∃ pieces, s.MovesPast pieces.flatten q.scanner ∧
        Splits s.ahead pieces [e, e'] q.scanner.ahead ∧
        s.ahead = pieces.flatten ++ q.scanner.ahead := by
  obtain ⟨s, hs, e, p, hfirst, e', q, hsecond⟩ :
      ∃ s, Scanner.ofSource "(1+2)*3 4-5)" .badSource = .ok s ∧
        ∃ e p, (ofScanner s {}).expression = .ok e p ∧
          ∃ e' q, (ofScanner p.scanner ⟨0, 2⟩).expression = .ok e' q :=
    ⟨_, by cbv, _, _, by cbv, _, _, by cbv⟩
  have hyields : s.Yields [e, e'] q.scanner :=
    .cons (p := ofScanner s {}) hfirst
      (.cons (p := ofScanner p.scanner ⟨0, 2⟩) hsecond (.nil _))
  exact ⟨s, p, q, e, e', hs, hfirst, hsecond, expression_takes_longest.1 _ _ _ hfirst,
    expression_takes_longest.2 _ _ _ hyields⟩

end ThreeAddress
