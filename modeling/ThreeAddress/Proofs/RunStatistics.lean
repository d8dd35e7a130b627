import Mathlib
import ThreeAddress.Proofs.Composition
import ThreeAddress.Proofs.JournalTrace

/-!
# The statistics of a run

The sizes that a run reports come from its stages one by one: the scanner counts tokens, the tree
its nodes and its height, the parser temporaries, and the code its instructions. They fit together,
because every token but the last is a node or one of a pair of parentheses, every sign of the text
is a token (`count_of_tokenize`), and every operation joins two operands.
-/

namespace ThreeAddress

lemma Lexeme.kind_injective {l l' : Lexeme} (hsign : l.isNumeral = false) (h : l.kind = l'.kind) :
    l = l' := by
  cases l <;> cases l' <;> simp_all [kind, isNumeral]

lemma Lexeme.count_text {c : Char} {kind : TokenKind} (h : TokenKind.ofChar? c = some kind)
    (l : Lexeme) : l.text.count c = if l.kind = kind then 1 else 0 := by
  obtain ⟨sign, htext, hsign, rfl⟩ := exists_of_ofChar? h
  by_cases hkind : l.kind = sign.kind
  · rw [if_pos hkind, ← kind_injective hsign hkind.symm, htext, List.count_singleton_self]
  · rw [if_neg hkind, List.count_eq_zero]
    intro hmem
    have hdigit : c.isDigit = false := by
      rw [isDigit_of_mem_text (l := sign) (by simp [htext]), hsign]
    rw [isDigit_of_mem_text hmem] at hdigit
    obtain ⟨c', hc'⟩ := exists_text_eq_singleton hdigit
    obtain rfl : c = c' := by simpa [hc'] using hmem
    exact hkind (congrArg Lexeme.kind (text_injective (hc'.trans htext.symm)))

lemma Blanks.count_eq_zero {c : Char} {kind : TokenKind} (h : TokenKind.ofChar? c = some kind)
    (blanks : Blanks) : blanks.val.count c = 0 := by
  obtain ⟨sign, htext, -, -⟩ := Lexeme.exists_of_ofChar? h
  have hblank := sign.isBlank_eq_false_of_head? (c := c) (by simp [htext])
  rw [List.count_eq_zero]
  intro hmem
  rw [blanks.property c hmem] at hblank
  contradiction

lemma Word.count_text {c : Char} {kind : TokenKind} (h : TokenKind.ofChar? c = some kind)
    (w : Word) (before : List Char) :
    w.text.count c = [w.token before].countP (·.kind = kind) := by
  rw [text, List.count_append, Blanks.count_eq_zero h, Lexeme.count_text h, Nat.zero_add,
    List.countP_singleton]
  simp only [decide_eq_true_eq]
  rfl

lemma count_words {c : Char} {kind : TokenKind} (h : TokenKind.ofChar? c = some kind)
    (words : List Word) (before : List Char) :
    (words.flatMap Word.text).count c = (wordTokens before words).countP (·.kind = kind) := by
  induction words generalizing before with
  | nil => rfl
  | cons w words ih =>
    rw [List.flatMap_cons, List.count_append, w.count_text h before, ih (before ++ w.text),
      ← List.countP_append]
    rfl

/-- A character with a token of its own occurs as often as the token. -/
theorem count_of_tokenize {source : String} {tokens : List Token} {c : Char} {kind : TokenKind}
    (htokens : tokenize source = .ok tokens) (h : TokenKind.ofChar? c = some kind) :
    source.toList.count c = tokens.countP (·.kind = kind) := by
  obtain ⟨words, trailing, htext, -, rfl⟩ := exists_words_of_tokenize htokens
  have hend : kind ≠ .endOfInput := by
    obtain ⟨sign, -, -, rfl⟩ := Lexeme.exists_of_ofChar? h
    cases sign <;> exact TokenKind.noConfusion
  rw [← htext, Layout.text, List.count_append, Blanks.count_eq_zero h, count_words h words [],
    Layout.tokens, List.countP_append, List.countP_singleton]
  simp [hend.symm]

/-- Besides the parentheses, which come in pairs, there is a token for each literal and each
operation. -/
lemma Reads.length_eq {rank : Rank} {tokens : List Token} {e : Expr} (h : Reads rank tokens e) :
    tokens.length = e.toTree.size + 2 * tokens.countP (·.kind = .opening) := by
  rw [Expr.size_toTree]
  induction h with
  | literal hkind => simp [hkind, Expr.operationCount]
  | group hstart hstop _ ih =>
    simp only [List.length_append, List.length_cons, List.length_nil, List.countP_append,
      List.countP_cons, List.countP_nil, hstart, hstop, decide_true, decide_false, if_true,
      reduceCtorEq, Bool.false_eq_true, if_false]
    omega
  | ofOperand _ ih | ofProduct _ ih => exact ih
  | extendProduct hkind _ _ _ ihl ihr | extendSum hkind _ _ _ ihl ihr =>
    simp only [List.length_append, List.length_cons, List.countP_append, List.countP_cons, hkind,
      Expr.operationCount, decide_false, reduceCtorEq, Bool.false_eq_true, if_false]
    omega

lemma tokens_of_parse {source : String} {limits : Limits} {parsed : Parsed} {tokens : List Token}
    (h : parse source limits = .ok parsed) (htokens : tokenize source = .ok tokens) :
    parsed.tokens = tokens.length := by
  have hout := parse_outcome source limits
  rw [h] at hout
  cases hout with
  | accepted hstart hreach hend =>
    rename_i s taken e p
    have hahead : s.ahead = taken ++ p.scanner.ahead := hreach.continues.ahead
    have hcount : p.scanner.count = s.count + taken.length := hreach.continues.count
    have hlast := (Scanner.ahead_of_isEnd (s := p.scanner) (by simp [Token.isEnd, hend])).1
    rw [tokenize_eq_ok_iff, hstart.readAll, hahead, hlast] at htokens
    obtain ⟨rfl, -⟩ := Prod.mk.inj htokens
    rw [hcount, hstart.count, List.length_append, List.length_singleton, Nat.add_comm]

/-- The scanner has also counted the end of the text, which is no node. -/
lemma tokens_eq_of_parse {source : String} {limits : Limits} {parsed : Parsed}
    (h : parse source limits = .ok parsed) :
    parsed.tokens = parsed.tree.toTree.size + 2 * source.toList.count '(' + 1 := by
  obtain ⟨tokens, last, htokens, hlast, hreads, -⟩ := exists_reads_of_parse h
  have hsign : TokenKind.ofChar? '(' = some .opening := rfl
  have hopening : source.toList.count '(' = tokens.countP (·.kind = .opening) := by
    rw [count_of_tokenize htokens hsign, List.countP_append]
    simp [hlast]
  rw [tokens_of_parse h htokens, List.length_append, hreads.length_eq, hopening]
  rfl

def Label.isOperator : Label → Bool
  | operator .. => true
  | _ => false

/-- Whether an operator stands at the root. -/
def Tree.isOperation (t : Tree) : Bool :=
  t.label?.any Label.isOperator

namespace Expr

lemma countP_isOperation (e : Expr) :
    e.toTree.postorder.countP Tree.isOperation = e.operationCount := by
  induction e with
  | literal value span => rfl
  | binary op target span left right ihl ihr =>
    rw [toTree, Tree.postorder, List.countP_append, List.countP_append, ihl, ihr, operationCount]
    rfl

/-- A tree of a given number of operations is highest when they follow each other in a chain. -/
lemma height_le (e : Expr) : e.height ≤ e.operationCount + 1 := by
  induction e with
  | literal value span => exact Nat.le_refl _
  | binary op target span left right ihl ihr =>
    rw [height, operationCount]
    omega

/-- A tree of a given height has the most operations when it is full. -/
lemma operationCount_lt_pow (e : Expr) : e.operationCount + 1 ≤ 2 ^ (e.height - 1) := by
  induction e with
  | literal value span => exact Nat.le_refl _
  | binary op target span left right ihl ihr =>
    have hleft : 2 ^ (left.height - 1) ≤ 2 ^ (max left.height right.height - 1) :=
      Nat.pow_le_pow_right Nat.two_pos (by omega)
    have hright : 2 ^ (right.height - 1) ≤ 2 ^ (max left.height right.height - 1) :=
      Nat.pow_le_pow_right Nat.two_pos (by omega)
    have hpos := left.height_pos
    have hheight : 1 + max left.height right.height - 1 =
        max left.height right.height - 1 + 1 := by omega
    rw [height, operationCount, hheight, Nat.pow_succ]
    omega

end Expr

lemma exists_of_answer_runTimed {source : String} {limits : Limits} {verbose : Bool}
    {clock : Clock} {out : Output} {c : Compilation} {s : Statistics}
    (h : (runTimed source limits verbose clock).answer out = .ok (c, s)) :
    ∃ parsed, parse source limits = .ok parsed ∧ c.tree = parsed.tree ∧
      c.tree.outcome = .ok c.value ∧ c.code = c.tree.code ∧
      s = Statistics.ofRun source parsed c.code clock := by
  have hcompile := map_fst_answer_runTimed source limits verbose clock out out
  rw [h] at hcompile
  obtain ⟨parsed, hparse, htree, houtcome, hcode⟩ := exists_parse_of_answer_compile hcompile.symm
  refine ⟨parsed, hparse, htree, houtcome, hcode, ?_⟩
  rw [answer_runTimed, hparse] at h
  simp only [Expr.compilation, ← htree, houtcome] at h
  rw [hcode]
  exact (congrArg Prod.snd (Except.ok.inj h)).symm

/-- The figures of a run that succeeds: the tokens of the source, of which all but the
parentheses and the end are nodes; the nodes and the height of the tree; and its operations, which
are the temporaries and the instructions. -/
theorem statistics_fit_together {source : String} {limits : Limits} {verbose : Bool}
    {clock : Clock} {out : Output} {c : Compilation} {s : Statistics}
    (h : (runTimed source limits verbose clock).answer out = .ok (c, s)) :
    (∃ tokens, tokenize source = .ok tokens ∧ s.tokens = tokens.length) ∧
    s.tokens = s.nodes + 2 * source.toList.count '(' + 1 ∧
    s.nodes = c.tree.toTree.postorder.length ∧
    s.nodes = 2 * s.temporaries + 1 ∧
    s.temporaries = s.instructions ∧
    s.instructions = c.code.length ∧
    s.temporaries = c.tree.toTree.postorder.countP Tree.isOperation ∧
    s.height = c.tree.toTree.height ∧
    s.height ≤ s.temporaries + 1 ∧
    s.temporaries + 1 ≤ 2 ^ (c.tree.toTree.height - 1) := by
  obtain ⟨parsed, hparse, htree, houtcome, hcode, rfl⟩ := exists_of_answer_runTimed h
  obtain ⟨tokens, last, htokens, -⟩ := exists_reads_of_parse hparse
  have hscanned := tokens_of_parse hparse htokens
  have htokenCount := tokens_eq_of_parse hparse
  have hwalk := parsed.tree.toTree.length_postorder
  have hsize := parsed.tree.size_toTree
  have htemporaries := temporaries_of_parse hparse
  have hinstructions := Expr.length_code houtcome
  have hoperations := parsed.tree.countP_isOperation
  have hheight := parsed.tree.height_toTree
  have hchain := parsed.tree.height_le
  have hfull := parsed.tree.operationCount_lt_pow
  rw [← hcode, htree] at hinstructions
  rw [htree, hwalk, hoperations, hheight]
  unfold Statistics.ofRun
  dsimp only
  refine ⟨⟨_, htokens, congrArg Nat.cast hscanned⟩, ?_, rfl, ?_, ?_, rfl, ?_, rfl, ?_, ?_⟩
  · omega
  · omega
  · omega
  · omega
  · omega
  · rw [htemporaries]
    exact_mod_cast hfull

/-- Of the ten tokens of this source four are parentheses and one is the end. -/
theorem statistics_fit_together_of_groups :
    ∃ c s, (runTimed "((1+2))*3" {} true [⟨0⟩, ⟨2⟩, ⟨3⟩, ⟨5⟩, ⟨7⟩, ⟨9⟩]).answer {} = .ok (c, s) ∧
      s.nodes = 5 ∧ s.tokens = 10 ∧ s.temporaries = 2 ∧ s.instructions = 2 ∧ s.height ≤ 3 ∧
      3 ≤ (2 : Int) ^ (c.tree.toTree.height - 1) := by
  obtain ⟨c, s, hrun, hnodes⟩ : ∃ c s,
      (runTimed "((1+2))*3" {} true [⟨0⟩, ⟨2⟩, ⟨3⟩, ⟨5⟩, ⟨7⟩, ⟨9⟩]).answer {} = .ok (c, s) ∧
        s.nodes = 5 := ⟨_, _, by rw [answer_runTimed]; cbv, by cbv⟩
  obtain ⟨-, htokens, -, htemporaries, hinstructions, -, -, -, hheight, hpow⟩ :=
    statistics_fit_together hrun
  have hopening : "((1+2))*3".toList.count '(' = 2 := by cbv
  rw [hopening] at htokens
  have htwo : s.temporaries = 2 := by omega
  rw [htwo] at hheight hpow
  refine ⟨c, s, hrun, hnodes, ?_, htwo, ?_, hheight, hpow⟩
  · omega
  · omega

end ThreeAddress
