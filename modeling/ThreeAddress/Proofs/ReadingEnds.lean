import Mathlib
import ThreeAddress.Proofs.OpenParentheses
import ThreeAddress.Proofs.RecursiveDescent

/-!
# Reading ends

Reading a text as a loop that asks for one token after another, and reading an expression by
descent, both end. What bounds them is what lies ahead: a call of the parser moves past each token
at most once, and it never moves past the end.
-/

open ThreeAddress.Parser

namespace ThreeAddress

/-- The tokens from the cursor on, up to the end or to the first issue, if there are no more than
the number of times that the loop may go on. -/
def Cursor.readOn? : Nat → Cursor → Option (List Token × Option Issue)
  | 0, _ => none
  | n + 1, cursor =>
    match cursor.next with
    | .error issue _ => some ([], some issue)
    | .ok token behind =>
      if token.isEnd then some ([token], none)
      else do
        let scan ← behind.readOn? n
        return (token :: scan.1, scan.2)

lemma Cursor.readOn?_eq {cursor : Cursor} {n : Nat} (hn : cursor.rest.length < n) :
    cursor.readOn? n = some cursor.readAll := by
  induction n generalizing cursor with
  | zero => cases hn
  | succ n ih =>
    rw [readOn?, readAll_eq]
    cases hnext : cursor.next with
    | error issue behind => rfl
    | ok token behind =>
      by_cases hend : token.isEnd = true
      · simp [hend]
      · have hlength := length_rest_lt_of_next hnext (by simpa using hend)
        have hrest : behind.readOn? n = some behind.readAll := ih (by omega)
        simp [hend, hrest]

/-- A token other than the end takes text. -/
lemma Scanner.exists_text_of_advance {s s' : Scanner} {token : Token}
    (h : s.advance = .ok token s') (hend : token.isEnd = false) :
    ∃ text, text ≠ [] ∧ s.cursor.rest = text ++ s'.cursor.rest := by
  obtain ⟨cursor, hnext, rfl⟩ := advance_eq_ok h
  obtain ⟨hend', -⟩ | ⟨-, w, hrest, -⟩ := Cursor.next_cases hnext
  · rw [hend] at hend'
    cases hend'
  · exact ⟨w.text, List.append_ne_nil_of_right_ne_nil _ w.lexeme.text_ne_nil, hrest⟩

/-- What moving past tokens other than the end takes from the tokens ahead. -/
theorem Scanner.MovesPast.ahead_eq {s s' : Scanner} {tokens : List Token}
    (h : s.MovesPast tokens s') (hend : ∀ token ∈ tokens, token.isEnd = false) :
    s.ahead = tokens ++ s'.ahead ∧ s'.count = s.count + tokens.length := by
  induction h with
  | refl s => exact ⟨rfl, rfl⟩
  | @head s s₁ s' token rest hadvance hrest ih =>
    obtain ⟨hahead, hcount⟩ := ih (fun token htoken => hend token (List.mem_cons_of_mem _ htoken))
    obtain ⟨s₂, hok, hfollowing, hcount₁, -⟩ | ⟨issue, s₂, herror, -⟩ :=
      s.advance_cases (hend _ List.mem_cons_self)
    · rw [hadvance] at hok
      obtain ⟨-, rfl⟩ := EStateM.Result.ok.inj hok
      constructor
      · rw [ahead, hfollowing, hahead, List.cons_append]
      · rw [hcount, hcount₁, List.length_cons]
        omega
    · rw [hadvance] at herror
      cases herror

namespace Parser

variable {task task' : Task} {p q : Parser} {taken : List Token}

lemma Proceeds.isEnd_eq_false (h : Proceeds task p taken task' q) :
    ∀ token ∈ taken, token.isEnd = false := by
  cases h with
  | take htakes hadvance hdepth =>
    intro token htoken
    obtain rfl := List.mem_singleton.mp htoken
    exact htakes.isEnd_eq_false
  | join hlook hheight => simp

lemma Reaches.isEnd_eq_false (h : Reaches task p taken task' q) :
    ∀ token ∈ taken, token.isEnd = false := by
  induction h with
  | refl task p => simp
  | head hstep _ ih => exact List.forall_mem_append.mpr ⟨hstep.isEnd_eq_false, ih⟩

/-- What a step does that leads to an operand: it moves past an opening parenthesis or past an
operator, which it leaves on the stack. -/
structure StartsOperand (task : Task) (p : Parser) (task' : Task) (q : Parser) : Prop where
  advance_eq : p.scanner.advance = .ok q.scanner.current q.scanner
  size_lt : q.scanner.size < p.scanner.size
  pushed : p.scanner.current.kind = .opening ∧ task'.stack = .group :: task.stack ∨
    ∃ op e, p.scanner.current.kind = .operator op ∧ task.focus = .complete e ∧
      task'.stack = .operation op p.scanner.current.span e :: task.stack

lemma Proceeds.startsOperand (h : Proceeds task p taken task' q)
    (hfocus : task'.focus = .operand) : StartsOperand task p task' q := by
  cases h with
  | join hlook hheight => cases hfocus
  | take htakes hadvance hdepth =>
    refine ⟨hadvance, Scanner.size_lt_of_advance hadvance htakes.isEnd_eq_false, ?_⟩
    cases htakes with
    | literal hkind | closing hkind => cases hfocus
    | opening hkind => exact .inl ⟨hkind, rfl⟩
    | operator hkind hfits => exact .inr ⟨_, _, hkind, rfl, rfl⟩

lemma startsOperand_of_step (hstep : (step task).run p = .ok (.more task') q)
    (hfocus : task'.focus = .operand) : StartsOperand task p task' q := by
  have houtcome := step_outcome task p
  rw [hstep] at houtcome
  obtain ⟨hproceeds⟩ := houtcome
  exact hproceeds.startsOperand hfocus

/-- What a call moves past: the tokens in `taken`, one after another, and then at most a token at
which the scanner fails. -/
structure MovesBeforeEnd (p : Parser) (result : EStateM.Result Diagnostic Parser Expr)
    (taken : List Token) : Prop where
  moved : ∃ s, p.scanner.MovesPast taken s ∧
    ((leftBy result).scanner = s ∨
      s.current.isEnd = false ∧ ∃ d, s.advance = .error d (leftBy result).scanner)
  isEnd_eq_false : ∀ token ∈ taken, token.isEnd = false
  count_eq : (leftBy result).scanner.count = p.scanner.count + taken.length
  length_le : taken.length ≤ (p.scanner.ahead.takeWhile (!·.isEnd)).length

lemma movesBeforeEnd_of_movesPast {result : EStateM.Result Diagnostic Parser Expr} {s : Scanner}
    (h : p.scanner.MovesPast taken s) (hend : ∀ token ∈ taken, token.isEnd = false)
    (hleft : (leftBy result).scanner = s ∨
      s.current.isEnd = false ∧ ∃ d, s.advance = .error d (leftBy result).scanner) :
    MovesBeforeEnd p result taken := by
  obtain ⟨hahead, hcount⟩ := h.ahead_eq hend
  refine ⟨⟨s, h, hleft⟩, hend, ?_, ?_⟩
  · rw [← hcount]
    obtain hscanner | ⟨-, d, herror⟩ := hleft
    · rw [hscanner]
    · obtain ⟨issue, cursor, -, -, hscanner⟩ := Scanner.advance_eq_error herror
      rw [hscanner]
  · rw [hahead, List.takeWhile_append_of_pos (by simpa using hend), List.length_append]
    exact Nat.le_add_right _ _

theorem exists_movesBeforeEnd (p : Parser) (call : Call) :
    ∃ taken, MovesBeforeEnd p (p.call call) taken := by
  generalize hresult : p.call call = result
  have houtcome := p.call_outcome call
  rw [hresult] at houtcome
  cases houtcome with
  | read hreach | trailing hreach =>
    exact ⟨_, movesBeforeEnd_of_movesPast hreach.movesPast hreach.isEnd_eq_false (.inl rfl)⟩
  | failed hreach hfails =>
    have hmoves := hreach.movesPast
    have hend := hreach.isEnd_eq_false
    cases hfails with
    | operandExpected hnot | closingExpected hnot | expressionTooLong hlook hheight =>
      exact ⟨_, movesBeforeEnd_of_movesPast hmoves hend (.inl rfl)⟩
    | lexical htakes hadvance =>
      exact ⟨_, movesBeforeEnd_of_movesPast hmoves hend
        (.inr ⟨htakes.isEnd_eq_false, _, hadvance⟩)⟩
    | nestedTooDeeply hkind hadvance hdeep =>
      refine ⟨_, movesBeforeEnd_of_movesPast (hmoves.trans (.single hadvance)) ?_ (.inl rfl)⟩
      rw [List.forall_mem_append, List.forall_mem_singleton]
      exact ⟨hend, by simp [Token.isEnd, hkind]⟩

/-- Reading the tokens of a text and reading an expression end, from every state and whatever moving
past the end would do: what is ahead bounds how often the loop goes on and how deep the descent
goes. An operand is read anew only behind a parenthesis or an operator that has
been moved past, a token other than the end takes text, and a call moves past no more tokens than
lie ahead before the end and before the first lexical issue. -/
theorem reading_ends :
    (∀ (cursor : Cursor) (n : Nat), cursor.rest.length < n →
      cursor.readOn? n = some cursor.readAll) ∧
    (∀ move, Descent.MovesOn move → ∀ (p : Parser) (n : Nat), 3 * p.scanner.size + 3 ≤ n →
      Descent.expression move n p = some (Descent.answer p.expression) ∧
      Descent.parse move n p = some (Descent.answer p.parse)) ∧
    (∀ (task task' : Task) (p q : Parser), (step task).run p = .ok (.more task') q →
      task'.focus = .operand → StartsOperand task p task' q) ∧
    (∀ (s s' : Scanner) (token : Token), s.advance = .ok token s' → token.isEnd = false →
      ∃ text, text ≠ [] ∧ s.cursor.rest = text ++ s'.cursor.rest) ∧
    ∀ (p : Parser) (call : Call), ∃ taken, MovesBeforeEnd p (p.call call) taken := by
  refine ⟨?_, ?_, ?_, ?_, exists_movesBeforeEnd⟩
  · intro cursor n hn
    exact Cursor.readOn?_eq hn
  · intro move hmove p n hn
    exact ⟨Descent.expression_eq hmove hn, Descent.parse_eq hmove hn⟩
  · intro task task' p q hstep hfocus
    exact startsOperand_of_step hstep hfocus
  · intro s s' token hadvance hend
    exact Scanner.exists_text_of_advance hadvance hend

/-- Moving on that gives nothing at the end. -/
def stuckAtEnd : Descent Unit := fun p =>
  if p.scanner.current.isEnd then none else Descent.perform advance p

theorem reading_ends_of_missing_operand :
    ∃ s d q taken, Scanner.ofSource "(7\n*" .badSource = .ok s ∧ s.size = 4 ∧
      Descent.MovesOn stuckAtEnd ∧
      Descent.parse stuckAtEnd 15 (ofScanner s {}) = some (.error d, q) ∧
      d.cause = .operandExpected ∧ MovesBeforeEnd (ofScanner s {}) (.error d q) taken ∧
      taken.length = 3 := by
  obtain ⟨s, hs, hsize, d, q, hparse, hcause, hcount⟩ :
      ∃ s, Scanner.ofSource "(7\n*" .badSource = .ok s ∧ s.size = 4 ∧
        ∃ d q, (ofScanner s {}).parse = .error d q ∧ d.cause = .operandExpected ∧
          q.scanner.count = s.count + 3 :=
    ⟨_, by cbv, by decide, _, _, by cbv, by decide, by decide⟩
  have hmove : Descent.MovesOn stuckAtEnd := by
    intro p hend
    simp [stuckAtEnd, hend]
  have hdepth : 3 * s.size + 3 ≤ 15 := by omega
  have hdescent := (reading_ends.2.1 stuckAtEnd hmove (ofScanner s {}) 15 hdepth).2
  obtain ⟨taken, hmoves⟩ := reading_ends.2.2.2.2 (ofScanner s {}) .parse
  rw [call, hparse] at hmoves
  rw [hparse] at hdescent
  have hlength : q.scanner.count = s.count + taken.length := hmoves.count_eq
  exact ⟨s, d, q, taken, hs, hsize, hmove, hdescent, hcause, hmoves, by omega⟩

end Parser

end ThreeAddress
