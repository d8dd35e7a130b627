import Mathlib
import ThreeAddress.Proofs.LexicalLayout
import ThreeAddress.Proofs.TimedAgreement

/-!
# Where trees and instructions come from

Walking through an expression from left to right, each operator between its operands, meets the
numbers and operators of the source text in their order, each once and with its span. Tokens stand
one behind the other, so the spans met on the way increase. Every instruction has the span of its
operator, which is one character of the text, and no two instructions have the same.
-/

namespace ThreeAddress

namespace Position

/-- Reading order: by lines, and within a line by columns. -/
def Before (p q : Position) : Prop :=
  p.line < q.line ∨ p.line = q.line ∧ p.column < q.column

lemma Before.trans {p q r : Position} (h : p.Before q) (h' : q.Before r) : p.Before r := by
  unfold Before at *
  omega

lemma not_before_self (p : Position) : ¬p.Before p := by
  unfold Before
  omega

lemma before_after (p : Position) (c : Char) : p.Before (p.after c) := by
  unfold Before after
  split <;> dsimp only <;> omega

theorem behind_before (text : List Char) {more : List Char} (h : more ≠ []) :
    (behind text).Before (behind (text ++ more)) := by
  induction more generalizing text with
  | nil => exact absurd rfl h
  | cons c more ih =>
    have hfirst := before_after (behind text) c
    rw [after_behind] at hfirst
    by_cases hmore : more = []
    · rw [hmore]
      exact hfirst
    · have hrest := ih (text ++ [c]) hmore
      rw [List.append_assoc, List.singleton_append] at hrest
      exact hfirst.trans hrest

end Position

/-- The first span is not empty, and it ends where the second starts or before. -/
structure Span.Precedes (s t : Span) : Prop where
  start_before_stop : s.start.Before s.stop
  apart : s.stop = t.start ∨ s.stop.Before t.start

lemma Span.Precedes.start_before {s t : Span} (h : s.Precedes t) : s.start.Before t.start := by
  obtain heq | hbefore := h.apart
  · exact heq ▸ h.start_before_stop
  · exact h.start_before_stop.trans hbefore

lemma Span.Precedes.ne {s t : Span} (h : s.Precedes t) : s ≠ t := by
  rintro rfl
  exact s.start.not_before_self h.start_before

/-- In `StandsAt text front l` the lexeme stands in the text, behind `front`. -/
def StandsAt (text front : List Char) (l : Lexeme) : Prop :=
  ∃ back, text = front ++ l.text ++ back

lemma exists_of_mem_wordTokens {before : List Char} {words : List Word} {token : Token}
    (h : token ∈ wordTokens before words) :
    ∃ more l, StandsAt (before ++ words.flatMap Word.text) (before ++ more) l ∧
      token = ⟨l.kind, .behind (before ++ more), .behind (before ++ more ++ l.text)⟩ := by
  induction words generalizing before with
  | nil => cases h
  | cons w words ih =>
    obtain rfl | h := List.mem_cons.mp h
    · refine ⟨w.blanks, w.lexeme, ⟨words.flatMap Word.text, ?_⟩, ?_⟩
      · simp [Word.text]
      · rw [Word.token, Word.text, List.append_assoc]
    · obtain ⟨more, l, ⟨back, hback⟩, rfl⟩ := ih h
      refine ⟨w.text ++ more, l, ⟨back, ?_⟩, ?_⟩
      · simpa using hback
      · simp

theorem pairwise_wordTokens (before : List Char) (words : List Word) :
    ((wordTokens before words).map Token.span).Pairwise Span.Precedes := by
  induction words generalizing before with
  | nil => exact .nil
  | cons w words ih =>
    rw [wordTokens, List.map_cons, List.pairwise_cons]
    refine ⟨?_, ih _⟩
    intro span hspan
    obtain ⟨token, htoken, rfl⟩ := List.mem_map.mp hspan
    obtain ⟨more, l, -, rfl⟩ := exists_of_mem_wordTokens htoken
    refine ⟨?_, ?_⟩
    · have hstart := Position.behind_before (before ++ w.blanks) w.lexeme.text_ne_nil
      rwa [List.append_assoc] at hstart
    · by_cases hmore : more = []
      · exact .inl (by simp [Word.token, hmore])
      · exact .inr (Position.behind_before _ hmore)

/-- Neither a parenthesis nor the end. -/
def TokenKind.isContent : TokenKind → Bool
  | number _ | operator _ => true
  | _ => false

/-- The tokens of an expression, from left to right. -/
def Expr.inorder : Expr → List Token
  | literal value span => [⟨.number value, span⟩]
  | binary op _ span left right => left.inorder ++ ⟨.operator op, span⟩ :: right.inorder

theorem Reads.inorder_eq {rank : Rank} {tokens : List Token} {e : Expr} (h : Reads rank tokens e) :
    e.inorder = tokens.filter fun token => token.kind.isContent := by
  induction h with
  | literal hkind =>
    rename_i token value
    obtain ⟨kind, span⟩ := token
    obtain rfl : kind = .number value := hkind
    rfl
  | group hstart hstop _ ih => simp [hstart, hstop, TokenKind.isContent, ih]
  | ofOperand _ ih => exact ih
  | ofProduct _ ih => exact ih
  | extendProduct hkind tight _ _ ihl ihr | extendSum hkind loose _ _ ihl ihr =>
    rename_i token op target tokens more left right _ _
    obtain ⟨kind, span⟩ := token
    obtain rfl : kind = .operator op := hkind
    rw [Expr.inorder, ihl, ihr, List.filter_append, List.filter_cons_of_pos rfl]

/-- The operator that an instruction comes from. -/
def Instruction.token (i : Instruction) : Token :=
  ⟨.operator i.op, i.span⟩

/-- Every instruction comes from an operator of its own, also where a division by zero cuts the code
short. -/
theorem Expr.code_subperm_inorder (e : Expr) :
    (e.code.map Instruction.token).Subperm e.inorder := by
  induction e with
  | literal value span => exact List.nil_subperm
  | binary op target span left right ihl ihr =>
    have hboth : ((left.code ++ right.code).map Instruction.token).Subperm
        (left.inorder ++ right.inorder) := by
      rw [List.map_append]
      exact ihl.append ihr
    have hwhole : (left.inorder ++ right.inorder).Subperm
        (binary op target span left right).inorder :=
      ((List.sublist_cons_self _ _).append_left _).subperm
    have hleft : (left.code.map Instruction.token).Subperm
        (binary op target span left right).inorder :=
      ihl.trans (List.sublist_append_left _ _).subperm
    rw [code]
    split
    · exact hleft
    · exact hboth.trans hwhole
    · split
      · exact hboth.trans hwhole
      · have hperm : (left.inorder ++ right.inorder ++ [Token.mk (.operator op) span]).Perm
            (binary op target span left right).inorder := by
          rw [List.append_assoc, inorder]
          exact List.perm_append_comm.append_left _
        rw [List.map_append]
        exact (hboth.append (List.Subperm.refl _)).trans hperm.subperm

def Event.instruction? : Event → Option Instruction
  | emitted instruction => some instruction
  | _ => none

/-- The instructions that the journal records, in their order. -/
def Output.emitted (out : Output) : List Instruction :=
  out.journal.toList.filterMap Event.instruction?

/-- What a pipeline leaves behind, with a result or with a fault. -/
def Pipeline.output {α : Type} (p : Pipeline α) (out : Output) : Output :=
  match p.run out with
  | .ok _ out' => out'
  | .error _ out' => out'

lemma emitted_foldl_emit (code : List Instruction) (out : Output) :
    (code.foldl (Output.emit false) out).emitted = out.emitted ++ code := by
  induction code generalizing out with
  | nil => simp
  | cons i code ih =>
    rw [List.foldl_cons, ih]
    simp [Output.emit, Output.emitted, Output.record, Event.instruction?]

lemma emitted_output_compile {source : String} {limits : Limits} {parsed : Parsed}
    (h : parse source limits = .ok parsed) :
    ((compile source limits).output {}).emitted = parsed.tree.code := by
  have hcompiled : (({} : Output).compiled source parsed).emitted = parsed.tree.code := by
    rw [Output.compiled, emitted_foldl_emit]
    simp [Output.emitted, Output.record, Event.instruction?]
  rw [Pipeline.output, compile_of_parse h]
  cases parsed.tree.outcome with
  | ok value => exact hcompiled
  | error span => exact hcompiled

/-- The span of one character, the symbol of the operator, in the source text. -/
def IsSymbolSpan (source : String) (op : Operator) (span : Span) : Prop :=
  ∃ front back, source.toList = front ++ op.symbol :: back ∧
    span = ⟨.behind front, .behind (front ++ [op.symbol])⟩

lemma isSymbolSpan_of_mem_wordTokens {source : String} {words : List Word} {trailing : Blanks}
    {op : Operator} {span : Span} (htext : (Layout.mk words trailing).text = source.toList)
    (h : ⟨.operator op, span⟩ ∈ wordTokens [] words) : IsSymbolSpan source op span := by
  obtain ⟨front, l, ⟨back, hback⟩, htoken⟩ := exists_of_mem_wordTokens h
  obtain ⟨hkind, hspan⟩ := Token.mk.inj htoken
  obtain rfl : l = .operator op := by
    cases l with
    | operator op' => rw [TokenKind.operator.inj hkind]
    | opening | closing | numeral _ => cases hkind
  refine ⟨front, back ++ trailing, ?_, hspan⟩
  rw [List.nil_append] at hback
  rw [← htext, Layout.text, hback]
  simp [Lexeme.text]

/-- Walking through an accepted tree from left to right visits the tokens of the text other than
parentheses and the end, in their order and each once, with their spans, which therefore increase.
Whatever instructions are emitted, each has as its span that of one character, its operator in the
text, and no two have the same. -/
theorem tree_visits_tokens_in_order {source : String} {limits : Limits} {parsed : Parsed}
    (h : parse source limits = .ok parsed) :
    (∃ tokens, tokenize source = .ok tokens ∧
      parsed.tree.inorder = tokens.filter fun token => token.kind.isContent) ∧
    (parsed.tree.inorder.map Token.span).Pairwise Span.Precedes ∧
    (∀ out c, (compile source limits).answer out = .ok c →
      c.tree = parsed.tree ∧ c.code = ((compile source limits).output {}).emitted) ∧
    (∀ i ∈ ((compile source limits).output {}).emitted, IsSymbolSpan source i.op i.span) ∧
    (((compile source limits).output {}).emitted.map Instruction.span).Nodup := by
  obtain ⟨tokens, last, htokens, hlast, hreads, -⟩ := exists_reads_of_parse h
  obtain ⟨words, trailing, htext, -, hlayout⟩ := exists_words_of_tokenize htokens
  obtain ⟨rfl, -⟩ := List.append_inj' hlayout rfl
  have hinorder := hreads.inorder_eq
  have hpairwise : (parsed.tree.inorder.map Token.span).Pairwise Span.Precedes := by
    rw [hinorder]
    exact (pairwise_wordTokens [] words).sublist (List.filter_sublist.map _)
  have hsubperm := parsed.tree.code_subperm_inorder
  rw [emitted_output_compile h]
  refine ⟨⟨_, htokens, ?_⟩, hpairwise, ?_, ?_, ?_⟩
  · rw [hinorder, List.filter_append]
    simp [hlast, TokenKind.isContent]
  · intro out c hc
    obtain ⟨parsed', hparse, htree, -, hcode⟩ := exists_parse_of_answer_compile hc
    obtain rfl := Except.ok.inj (h.symm.trans hparse)
    exact ⟨htree, hcode.trans (congrArg Expr.code htree)⟩
  · intro i hi
    have hmem := hsubperm.subset (List.mem_map_of_mem hi)
    rw [hinorder] at hmem
    exact isSymbolSpan_of_mem_wordTokens htext (List.mem_of_mem_filter hmem)
  · -- The spans are among those that the walk visits, which are all different.
    have hnodup : (parsed.tree.inorder.map Token.span).Nodup := hpairwise.imp Span.Precedes.ne
    obtain ⟨visited, hperm, hsublist⟩ := hsubperm
    have hspans := (hperm.map Token.span).nodup_iff.mp (hnodup.sublist (hsublist.map _))
    rwa [List.map_map] at hspans

/-- An operator that waits while a group on its right is read, and a division by zero that ends the
evaluation behind three instructions. -/
theorem tree_visits_tokens_in_order_of_waiting_operator :
    ∃ parsed, parse "8*\n(2-1)/(3-3)" {} = .ok parsed ∧
      (parsed.tree.inorder.map Token.span).Pairwise Span.Precedes ∧
      ((compile "8*\n(2-1)/(3-3)" {}).output {}).emitted.length = 3 ∧
      ∀ i ∈ ((compile "8*\n(2-1)/(3-3)" {}).output {}).emitted,
        IsSymbolSpan "8*\n(2-1)/(3-3)" i.op i.span := by
  obtain ⟨parsed, hparse⟩ : ∃ parsed, parse "8*\n(2-1)/(3-3)" {} = .ok parsed := ⟨_, by cbv⟩
  obtain ⟨-, hpairwise, -, hsymbols, -⟩ := tree_visits_tokens_in_order hparse
  exact ⟨parsed, hparse, hpairwise, by cbv, hsymbols⟩

end ThreeAddress
