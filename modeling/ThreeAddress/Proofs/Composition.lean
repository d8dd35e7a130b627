import Mathlib
import ThreeAddress.Proofs.LayoutIrrelevance
import ThreeAddress.Proofs.PrintedTerms

/-!
# Compilation is compositional

Two source texts that compile can be put in parentheses on both sides of an operator. The text that
results compiles to the code of the first, the code of the second with its temporaries shifted past
those of the first, and one more instruction. Every stage has its part in this. Words keep apart
behind a closing parenthesis (`Separated.append_cons`), a phrase in parentheses nests one level
deeper (`Derives.nesting_group_le`), and expressions that say the same have the same code up to the
temporary at which their numbering starts (`Compilation.isCopy_of_term_eq`).
-/

open ThreeAddress.Parser

namespace ThreeAddress

lemma Temporary.ofName?_repr (value : Nat) : ofName? (value : Int).repr = none := by
  unfold ofName?
  split
  · rename_i digits hname
    rw [Text.toList_repr_natCast] at hname
    have hletter := isDigit_of_mem_toDigits_ten (hname ▸ List.mem_cons_self : 't' ∈ _)
    exact absurd hletter (by decide)
  · rfl

/-- The name of the temporary `n` places further on; a text that names no temporary stays. -/
def shiftName (n : Nat) (text : String) : String :=
  match Temporary.ofName? text with
  | some t => (Temporary.mk (t.index + n)).name
  | none => text

def Instruction.shifted (n : Nat) (i : Instruction) : Instruction :=
  { i with
    result := shiftName n i.result
    left := shiftName n i.left
    right := shiftName n i.right }

@[simp]
lemma shiftName_name (n : Nat) (t : Temporary) :
    shiftName n t.name = (Temporary.mk (t.index + n)).name := by
  rw [shiftName, Temporary.ofName?_name]

@[simp]
lemma shiftName_repr (n value : Nat) : shiftName n (value : Int).repr = (value : Int).repr := by
  rw [shiftName, Temporary.ofName?_repr]

namespace Expr

/-- The expression with all its temporaries `n` places further on. -/
def shifted (n : Nat) : Expr → Expr
  | literal value span => literal value span
  | binary op target span left right =>
    binary op ⟨target.index + n⟩ span (left.shifted n) (right.shifted n)

variable (n : Nat) (e : Expr)

lemma shifted_zero : e.shifted 0 = e := by
  induction e with
  | literal value span => rfl
  | binary op target span left right ihl ihr => rw [shifted, ihl, ihr, Nat.add_zero]

@[simp]
lemma term_shifted : (e.shifted n).term = e.term := by
  induction e with
  | literal value span => rfl
  | binary op target span left right ihl ihr => rw [shifted, term, term, ihl, ihr]

@[simp]
lemma operationCount_shifted : (e.shifted n).operationCount = e.operationCount := by
  induction e with
  | literal value span => rfl
  | binary op target span left right ihl ihr =>
    rw [shifted, operationCount, operationCount, ihl, ihr]

@[simp]
lemma outcome_shifted : (e.shifted n).outcome = e.outcome := by
  induction e with
  | literal value span => rfl
  | binary op target span left right ihl ihr => rw [shifted, outcome, outcome, ihl, ihr]

@[simp]
lemma operandText_shifted : (e.shifted n).operandText = shiftName n e.operandText := by
  cases e with
  | literal value span => exact (shiftName_repr n value).symm
  | binary op target span left right => exact (shiftName_name n target).symm

theorem code_shifted : (e.shifted n).code = e.code.map (Instruction.shifted n) := by
  induction e with
  | literal value span => rfl
  | binary op target span left right ihl ihr =>
    simp only [shifted, code, outcome_shifted, operandText_shifted, ihl, ihr]
    cases left.outcome with
    | error _ => rfl
    | ok a =>
      cases right.outcome with
      | error _ => simp
      | ok b =>
        dsimp only
        cases op.meaning? a b with
        | none => simp
        | some value => simp [Instruction.shifted]

variable {n e}

lemma Numbered.shifted {start : Nat} (h : e.Numbered start) :
    (e.shifted n).Numbered (start + n) := by
  induction e generalizing start with
  | literal value span => trivial
  | binary op target span left right ihl ihr =>
    obtain ⟨hleft, hright, htarget⟩ := h
    refine ⟨ihl hleft, ?_, ?_⟩
    · have hshifted := ihr hright
      rwa [operationCount_shifted, Nat.add_right_comm]
    · simp only [operationCount_shifted]
      omega

lemma operationCount_eq_of_term_eq {e e' : Expr} (h : e.term = e'.term) :
    e.operationCount = e'.operationCount := by
  induction e generalizing e' with
  | literal value span =>
    cases e' with
    | literal value' span' => rfl
    | binary => cases h
  | binary op target span left right ihl ihr =>
    cases e' with
    | literal => cases h
    | binary op' target' span' left' right' =>
      obtain ⟨-, hleft, hright⟩ := Term.binary.inj h
      rw [operationCount, operationCount, ihl hleft, ihr hright]

/-- Expressions that say the same and are numbered from the same temporary on differ in their spans
at most. -/
theorem alike_of_term_eq {e e' : Expr} (h : e.term = e'.term) (hnumbered : e.Numbered n)
    (hnumbered' : e'.Numbered n) : e.Alike (fun _ _ => True) e' := by
  induction e generalizing e' n with
  | literal value span =>
    cases e' with
    | literal value' span' =>
      obtain rfl : value = value' := Term.number.inj h
      exact .literal trivial
    | binary => cases h
  | binary op target span left right ihl ihr =>
    cases e' with
    | literal => cases h
    | binary op' target' span' left' right' =>
      obtain ⟨rfl, hterm, hterm'⟩ := Term.binary.inj h
      obtain ⟨hleft, hright, htarget⟩ := hnumbered
      obtain ⟨hleft', hright', htarget'⟩ := hnumbered'
      rw [← operationCount_eq_of_term_eq hterm] at hright' htarget'
      rw [← operationCount_eq_of_term_eq hterm', ← htarget] at htarget'
      obtain rfl : target = target' := congrArg Temporary.mk htarget'.symm
      exact .binary trivial (ihl hterm hleft hleft') (ihr hterm' hright hright')

lemma length_code {value : Int} (h : e.outcome = .ok value) : e.code.length = e.operationCount := by
  induction e generalizing value with
  | literal literal span => rfl
  | binary op target span left right ihl ihr =>
    obtain ⟨a, b, hleft, hright, -, hcode⟩ := exists_of_outcome_binary h
    rw [hcode, List.length_append, List.length_append, ihl hleft, ihr hright, operationCount]
    rfl

end Expr

namespace Compilation

/-- How an instruction refers to a compiled text whose temporaries are those from `n` on. -/
def operandText (n : Nat) (c : Compilation) : String :=
  if c.code.length = 0 then c.value.repr else (Temporary.mk (n + c.code.length - 1)).name

/-- The expression is that of a compiled text, wherever it is written, with its temporaries
numbered from `n` on. -/
structure IsCopy (n : Nat) (c : Compilation) (e : Expr) : Prop where
  numbered : e.Numbered n
  outcome : e.outcome = .ok c.value
  height : e.height = c.tree.height
  operationCount : e.operationCount = c.code.length
  lines : listingLines false e.code = listingLines false (c.code.map (Instruction.shifted n))
  operandText : e.operandText = c.operandText n

variable {n : Nat} {c : Compilation} {e : Expr}

theorem isCopy_of_term_eq (hvalue : c.tree.outcome = .ok c.value) (hcode : c.code = c.tree.code)
    (hstart : c.tree.Numbered 0) (hterm : e.term = c.tree.term) (hnumbered : e.Numbered n) :
    c.IsCopy n e := by
  have hshifted : (c.tree.shifted n).Numbered n := by simpa using hstart.shifted (n := n)
  have halike : e.Alike _ (c.tree.shifted n) :=
    Expr.alike_of_term_eq (by rw [hterm, Expr.term_shifted]) hnumbered hshifted
  have houtcome : (c.tree.shifted n).outcome = .ok c.value := by rw [Expr.outcome_shifted, hvalue]
  have houtcome' : e.outcome = .ok c.value := by
    obtain ⟨value, h, h'⟩ | ⟨span, span', -, h', -⟩ := halike.outcome_cases
    · rw [h, ← h', houtcome]
    · rw [houtcome] at h'
      cases h'
  have hcount : e.operationCount = c.code.length := by
    rw [hcode, Expr.length_code hvalue, Expr.operationCount_eq_of_term_eq hterm]
  refine ⟨hnumbered, houtcome', ?_, hcount, ?_, ?_⟩
  · rw [← Expr.height_term, hterm, Expr.height_term]
  · rw [hcode, ← Expr.code_shifted]
    exact halike.listingLines_eq houtcome' houtcome
  · rw [operandText, ← hcount]
    cases e with
    | literal value span =>
      obtain hvalue := Except.ok.inj houtcome'
      rw [← hvalue]
      rfl
    | binary op target span left right =>
      obtain ⟨-, -, htarget⟩ := hnumbered
      rw [Expr.operationCount, if_neg (Nat.succ_ne_zero _), Nat.add_succ_sub_one, ← Nat.add_assoc,
        ← htarget]
      rfl

/-- A copy numbered from the first temporary on has the lines of the text itself. -/
lemma IsCopy.lines_zero (h : c.IsCopy 0 e) (hcode : c.code = c.tree.code) :
    listingLines false e.code = listingLines false c.code := by
  rw [h.lines, hcode, ← Expr.code_shifted, Expr.shifted_zero]

end Compilation

lemma listingLines_append (annotate : Bool) (code more : List Instruction) :
    listingLines annotate (code ++ more) =
      listingLines annotate code ++ listingLines annotate more :=
  List.map_append

lemma nestingFrom_le_add_one {depth depth' : Nat} (h : depth' ≤ depth + 1)
    (kinds : List TokenKind) : nestingFrom depth' kinds ≤ nestingFrom depth kinds + 1 := by
  induction kinds generalizing depth depth' with
  | nil => exact Nat.zero_le _
  | cons kind kinds ih =>
    by_cases hkind : kind = .opening
    · have hrest : nestingFrom (depth' + 1) kinds ≤ nestingFrom (depth + 1) kinds + 1 :=
        ih (Nat.succ_le_succ h)
      rw [hkind, nestingFrom_cons_opening, nestingFrom_cons_opening]
      omega
    · rw [nestingFrom_cons hkind, nestingFrom_cons hkind]
      apply ih
      cases kind with
      | opening => exact absurd rfl hkind
      | closing =>
        simp only [TokenKind.depthAfter]
        omega
      | number _ | operator _ | endOfInput => exact h

namespace Derives

variable {kinds more : List TokenKind} {t t' : Term}

/-- A phrase leaves as many parentheses open as there were before. -/
theorem nestingFrom_append {rank : Rank} (h : Derives rank kinds t) (depth : Nat)
    (more : List TokenKind) :
    nestingFrom depth (kinds ++ more) = max (nestingFrom depth kinds) (nestingFrom depth more) := by
  induction h generalizing depth more with
  | number value => simp [nestingFrom]
  | group _ ih =>
    rw [List.append_assoc, List.cons_append, List.cons_append, List.cons_append,
      nestingFrom_cons_opening, nestingFrom_cons_opening, ih, ih]
    simp only [nestingFrom, List.nil_append, Nat.add_sub_cancel]
    omega
  | ofOperand _ ih | ofProduct _ ih => exact ih depth more
  | extendProduct _ _ _ ihl ihr | extendSum _ _ _ ihl ihr =>
    rw [List.append_assoc, List.cons_append, ihl, ihl, nestingFrom_cons (by simp),
      nestingFrom_cons (by simp), ihr, Nat.max_assoc]
    rfl

lemma nesting_group_le (h : Derives .sum kinds t) :
    nesting (.opening :: kinds ++ [.closing]) ≤ nesting kinds + 1 := by
  have hdeeper : nestingFrom (0 + 1) kinds ≤ nestingFrom 0 kinds + 1 :=
    nestingFrom_le_add_one (Nat.le_refl _) kinds
  rw [nesting, List.cons_append, nestingFrom_cons_opening, h.nestingFrom_append, nesting]
  simp only [nestingFrom]
  omega

end Derives

lemma wordTokens_append (before : List Char) (words more : List Word) :
    wordTokens before (words ++ more) =
      wordTokens before words ++ wordTokens (before ++ words.flatMap Word.text) more := by
  induction words generalizing before with
  | nil => simp [wordTokens]
  | cons w words ih => simp [wordTokens, ih]

/-- A lexeme that is no numeral keeps the words in front of it apart from those behind it. -/
theorem Separated.append_cons {trailing trailing' : Blanks} {words more : List Word} {l : Lexeme}
    (h : Separated trailing words) (hsign : l.isNumeral = false)
    (hmore : Separated trailing' more) :
    Separated trailing' (words ++ ⟨trailing, l⟩ :: more) := by
  induction words with
  | nil => exact ⟨by simp [hsign], hmore⟩
  | cons w words ih =>
    refine ⟨?_, ih h.2⟩
    intro hnumeral c hc
    have htext : (Layout.mk (words ++ ⟨trailing, l⟩ :: more) trailing').text =
        (Layout.mk words trailing).text ++ (l.text ++ (Layout.mk more trailing').text) := by
      simp [Layout.text, Word.text]
    change c ∈ (Layout.mk (words ++ ⟨trailing, l⟩ :: more) trailing').text.head? at hc
    rw [htext, List.head?_append] at hc
    cases hfirst : (Layout.mk words trailing).text.head? with
    | some d =>
      rw [hfirst] at hc
      obtain rfl := Option.some.inj hc
      exact h.1 hnumeral d hfirst
    | none =>
      obtain ⟨d, rest, hl⟩ := List.exists_cons_of_ne_nil l.text_ne_nil
      rw [hfirst, hl] at hc
      obtain rfl := Option.some.inj hc
      rw [Lexeme.isDigit_of_mem_text (l := l) (by simp [hl]), hsign]

namespace Layout

/-- The words of a text in parentheses. The blanks at its end stand in front of the parenthesis
that closes. -/
def enclosed (layout : Layout) : List Word :=
  ⟨.none, .opening⟩ :: layout.words ++ [⟨layout.trailing, .closing⟩]

lemma text_enclosed (layout : Layout) :
    layout.enclosed.flatMap Word.text = '(' :: layout.text ++ [')'] := by
  simp [enclosed, text, Word.text, Lexeme.text, Blanks.none]

lemma map_kind_enclosed (layout : Layout) (before : List Char) :
    (wordTokens before layout.enclosed).map Token.kind =
      .opening :: (wordTokens [] layout.words).map Token.kind ++ [.closing] := by
  rw [map_kind_wordTokens, map_kind_wordTokens]
  simp [enclosed, Lexeme.kind]

lemma separated_enclosed {layout : Layout} (h : Separated layout.trailing layout.words)
    {trailing : Blanks} {more : List Word} (hmore : Separated trailing more) :
    Separated trailing (layout.enclosed ++ more) := by
  have hseparated := h.append_cons (l := .closing) rfl hmore
  refine ⟨by simp [Lexeme.isNumeral], ?_⟩
  simpa using hseparated

end Layout

/-! ### Two texts and an operator -/

/-- The text of an operation on two source texts, both in parentheses. -/
def operationSource (op : Operator) (a b : String) : String :=
  "(" ++ a ++ ")" ++ op.symbol.toString ++ "(" ++ b ++ ")"

/-- The span of the operator in the text of an operation. -/
def operatorSpan (op : Operator) (a : String) : Span :=
  ⟨.behind ("(" ++ a ++ ")").toList, .behind ("(" ++ a ++ ")" ++ op.symbol.toString).toList⟩

/-- The limits admit one more level than a compiled text has: of parentheses around the text, and of
operations above its tree. -/
structure RoomAbove (limits : Limits) (source : String) (c : Compilation) : Prop where
  nesting_le : (1 + nesting ((scannedTokens source).map Token.kind) : Int) ≤ limits.nesting
  height_le : (1 + c.tree.height : Int) ≤ limits.height

/-- What is known of a compiled text: its words, the phrase that they are and its expression. -/
structure Compiles (source : String) (c : Compilation) (layout : Layout) : Prop where
  text : layout.text = source.toList
  separated : Separated layout.trailing layout.words
  derives : Derives .sum ((wordTokens [] layout.words).map Token.kind) c.tree.term
  nesting_eq : nesting ((wordTokens [] layout.words).map Token.kind) =
    nesting ((scannedTokens source).map Token.kind)
  numbered : c.tree.Numbered 0
  outcome : c.tree.outcome = .ok c.value
  code : c.code = c.tree.code

theorem exists_compiles {source : String} {limits : Limits} {out : Output} {c : Compilation}
    (h : (compile source limits).answer out = .ok c) : ∃ layout, Compiles source c layout := by
  obtain ⟨parsed, hparse, htree, houtcome, hcode⟩ := exists_parse_of_answer_compile h
  obtain ⟨tokens, last, htokens, hlast, hreads, hnumbered, -⟩ := exists_reads_of_parse hparse
  obtain ⟨words, trailing, htext, hseparated, hlayout⟩ := exists_words_of_tokenize htokens
  obtain ⟨rfl, -⟩ := List.append_inj' hlayout rfl
  have hscanned : scannedTokens source = wordTokens [] words ++ [last] :=
    congrArg Prod.fst (tokenize_eq_ok_iff.mp htokens)
  rw [← htree] at hreads hnumbered
  refine ⟨⟨words, trailing⟩, htext, hseparated, hreads.derives, ?_, hnumbered, houtcome, hcode⟩
  rw [hscanned, List.map_append, List.map_singleton, hlast]
  exact (nestingFrom_append_endOfInput 0 _).symm

namespace Compiles

variable {a b source : String} {c ca cb : Compilation} {layout left right : Layout}

/-- A compiled text in parentheses is an operand wherever it stands. -/
theorem exists_isCopy (h : Compiles source c layout) (n : Nat) (before : List Char) :
    ∃ e, Reads .operand (wordTokens before layout.enclosed) e ∧ c.IsCopy n e := by
  have hderives := Derives.group h.derives
  rw [← layout.map_kind_enclosed before] at hderives
  obtain ⟨e, hreads, hnumbered, hterm⟩ := hderives.exists_reads n rfl
  exact ⟨e, hreads, Compilation.isCopy_of_term_eq h.outcome h.code h.numbered hterm hnumbered⟩

/-- The words of both texts keep apart around the operator. -/
lemma tokenize_operationSource (op : Operator) (ha : Compiles a ca left)
    (hb : Compiles b cb right) :
    ∃ before last, last.kind = .endOfInput ∧ tokenize (operationSource op a b) =
      .ok (wordTokens [] left.enclosed ++
        ⟨.operator op, operatorSpan op a⟩ :: wordTokens before right.enclosed ++ [last]) := by
  have hright : Separated .none (right.enclosed ++ []) :=
    Layout.separated_enclosed hb.separated trivial
  have hmiddle : Separated .none (⟨.none, .operator op⟩ :: right.enclosed) :=
    ⟨by simp [Lexeme.isNumeral], by rwa [List.append_nil] at hright⟩
  have hseparated := Layout.separated_enclosed ha.separated hmiddle
  have hfront : left.enclosed.flatMap Word.text = ("(" ++ a ++ ")").toList := by
    simp [left.text_enclosed, ha.text]
  have hback : right.enclosed.flatMap Word.text = ("(" ++ b ++ ")").toList := by
    simp [right.text_enclosed, hb.text]
  have htext : (Layout.mk (left.enclosed ++ ⟨.none, .operator op⟩ :: right.enclosed) .none).text =
      (operationSource op a b).toList := by
    rw [Layout.text, List.flatMap_append, List.flatMap_cons, hfront, hback]
    simp [operationSource, Word.text, Lexeme.text, Blanks.none]
  have hreadAll := Cursor.readAll_of_separated hseparated []
  rw [htext, wordTokens_append, hfront, wordTokens] at hreadAll
  have htoken : Word.token ([] ++ ("(" ++ a ++ ")").toList) ⟨.none, .operator op⟩ =
      ⟨.operator op, operatorSpan op a⟩ := by
    simp [Word.token, Word.text, Lexeme.kind, Lexeme.text, Blanks.none, operatorSpan]
  rw [htoken] at hreadAll
  exact ⟨_, _, rfl, tokenize_eq_ok_iff.mpr hreadAll⟩

/-- The nesting of both texts, one level deeper. -/
lemma nestsWithin_operation (op : Operator) (ha : Compiles a ca left) (hb : Compiles b cb right)
    {limits : Limits} (hroomA : RoomAbove limits a ca) (hroomB : RoomAbove limits b cb)
    (span : Span) (before before' : List Char) :
    NestsWithin limits.nesting 0 ((wordTokens before left.enclosed ++
      ⟨.operator op, span⟩ :: wordTokens before' right.enclosed).map Token.kind) := by
  have hleft := ha.derives.nesting_group_le
  have hright := hb.derives.nesting_group_le
  rw [ha.nesting_eq] at hleft
  rw [hb.nesting_eq] at hright
  have hleftRoom := hroomA.nesting_le
  have hrightRoom := hroomB.nesting_le
  right
  rw [List.map_append, List.map_cons, left.map_kind_enclosed, right.map_kind_enclosed,
    (Derives.group ha.derives).nestingFrom_append, nestingFrom_cons (by simp)]
  simp only [nesting, TokenKind.depthAfter] at hleft hright hleftRoom hrightRoom ⊢
  omega

theorem exists_parse_operationSource (op : Operator) (ha : Compiles a ca left)
    (hb : Compiles b cb right) {limits : Limits} (hroomA : RoomAbove limits a ca)
    (hroomB : RoomAbove limits b cb) :
    ∃ parsed e e', parse (operationSource op a b) limits = .ok parsed ∧
      ca.IsCopy 0 e ∧ cb.IsCopy ca.code.length e' ∧
      parsed.tree =
        .binary op ⟨ca.code.length + cb.code.length⟩ (operatorSpan op a) e e' := by
  obtain ⟨before, last, hlast, htokens⟩ := tokenize_operationSource op ha hb
  obtain ⟨e, hreads, he⟩ := ha.exists_isCopy 0 []
  obtain ⟨e', hreads', he'⟩ := hb.exists_isCopy ca.code.length before
  let token : Token := ⟨.operator op, operatorSpan op a⟩
  let tree : Expr := .binary op ⟨ca.code.length + cb.code.length⟩ (operatorSpan op a) e e'
  have hkind : token.kind = .operator op := rfl
  have hfits : Rank.operand.fits [.operation op token.span e] = true := rfl
  have hleft := reads_left hreads hkind (by simp)
  have hphrase : Reads op.rank _ tree := reads_operation hkind hleft hreads' hfits
  have hnumbered : tree.Numbered 0 := by
    refine ⟨he.numbered, ?_, ?_⟩
    · rw [he.operationCount, Nat.zero_add]
      exact he'.numbered
    · rw [he.operationCount, he'.operationCount, Nat.zero_add]
  have hheight : HeightWithin limits.height tree := by
    have hleftRoom := hroomA.height_le
    have hrightRoom := hroomB.height_le
    right
    rw [Expr.height, he.height, he'.height]
    omega
  obtain ⟨parsed, hparse, htree⟩ := exists_parse_of_reads htokens hlast hphrase.toSum hnumbered
    (nestsWithin_operation op ha hb hroomA hroomB (operatorSpan op a) [] before) hheight
  exact ⟨parsed, e, e', hparse, he, he', htree⟩

end Compiles

/-- Two texts that compile, put in parentheses on both sides of an operator, compile to the
operation on their values. The lines of the listing are those of the first text, those of the second
with its temporaries shifted past those of the first, and one for the operation. If the operation is
a division by zero, it fails at its operator. The limits need to admit one more level than both
texts have. -/
theorem compile_is_compositional {a b : String} {limitsA limitsB limits : Limits}
    {outA outB : Output} {ca cb : Compilation} (op : Operator)
    (ha : (compile a limitsA).answer outA = .ok ca)
    (hb : (compile b limitsB).answer outB = .ok cb) (hroomA : RoomAbove limits a ca)
    (hroomB : RoomAbove limits b cb) (out : Output) :
    (op = .div ∧ cb.value = 0 →
      (compile (operationSource op a b) limits).answer out =
        .error (.divisionByZero (operatorSpan op a))) ∧
    (¬(op = .div ∧ cb.value = 0) →
      ∃ c, (compile (operationSource op a b) limits).answer out = .ok c ∧
        op.meaning? ca.value cb.value = some c.value ∧
        listingLines false c.code = listingLines false ca.code ++
          listingLines false (cb.code.map (Instruction.shifted ca.code.length)) ++
          [(Temporary.mk (ca.code.length + cb.code.length)).name ++ " = " ++ ca.operandText 0 ++
            " " ++ op.symbol.toString ++ " " ++ cb.operandText ca.code.length]) := by
  obtain ⟨left, ha⟩ := exists_compiles ha
  obtain ⟨right, hb⟩ := exists_compiles hb
  obtain ⟨parsed, e, e', hparse, he, he', htree⟩ :=
    ha.exists_parse_operationSource op hb hroomA hroomB
  have houtcome : parsed.tree.outcome =
      op.combine (operatorSpan op a) (.ok ca.value) (.ok cb.value) := by
    rw [htree, Expr.outcome, he.outcome, he'.outcome]
  rw [answer_compile, hparse]
  dsimp only [Expr.compilation]
  constructor
  · intro hzero
    rw [houtcome, Operator.combine_of_none (Operator.meaning?_eq_none_iff.mpr hzero)]
  · intro hnonzero
    obtain ⟨value, hvalue⟩ : ∃ value, op.meaning? ca.value cb.value = some value :=
      Option.ne_none_iff_exists'.mp (mt Operator.meaning?_eq_none_iff.mp hnonzero)
    rw [Operator.combine_of_some hvalue] at houtcome
    rw [houtcome]
    refine ⟨_, rfl, hvalue, ?_⟩
    rw [htree] at houtcome
    obtain ⟨-, -, -, -, -, hcode⟩ := Expr.exists_of_outcome_binary houtcome
    rw [htree, hcode, listingLines_append, listingLines_append, he.lines_zero ha.code, he'.lines,
      he.operandText, he'.operandText]
    rfl

/-- A text over two lines, divided by a text with a value and by zero. -/
theorem compile_is_compositional_of_line_break :
    ∃ ca cb cz, (compile "7-\n5" {}).answer {} = .ok ca ∧ RoomAbove ⟨1, 3⟩ "7-\n5" ca ∧
      (compile "6/3 " {}).answer {} = .ok cb ∧ RoomAbove ⟨1, 3⟩ "6/3 " cb ∧
      (compile "0" ⟨0, 0⟩).answer {} = .ok cz ∧ RoomAbove ⟨1, 3⟩ "0" cz ∧
      (∃ c, (compile "(7-\n5)/(6/3 )" ⟨1, 3⟩).answer {} = .ok c ∧ c.value = 1 ∧
        listingLines false c.code = ["t0 = 7 - 5", "t1 = 6 / 3", "t2 = t0 / t1"]) ∧
      (compile "(7-\n5)/(0)" ⟨1, 3⟩).answer {} =
        .error (.divisionByZero ⟨⟨2, 3⟩, ⟨2, 4⟩⟩) := by
  have hflatA : nesting ((scannedTokens "7-\n5").map Token.kind) = 0 := by cbv
  have hflatB : nesting ((scannedTokens "6/3 ").map Token.kind) = 0 := by cbv
  have hflatZ : nesting ((scannedTokens "0").map Token.kind) = 0 := by cbv
  obtain ⟨ca, ha, hroomA, hvalueA, hlengthA, hlinesA⟩ :
      ∃ ca, (compile "7-\n5" {}).answer {} = .ok ca ∧ RoomAbove ⟨1, 3⟩ "7-\n5" ca ∧ ca.value = 2 ∧
        ca.code.length = 1 ∧ listingLines false ca.code = ["t0 = 7 - 5"] :=
    ⟨_, by cbv, ⟨by simp [hflatA], by decide⟩, rfl, rfl, by cbv⟩
  obtain ⟨cb, hb, hroomB, hvalueB, hlengthB, hlinesB⟩ :
      ∃ cb, (compile "6/3 " {}).answer {} = .ok cb ∧ RoomAbove ⟨1, 3⟩ "6/3 " cb ∧ cb.value = 2 ∧
        cb.code.length = 1 ∧
        listingLines false (cb.code.map (Instruction.shifted 1)) = ["t1 = 6 / 3"] :=
    ⟨_, by cbv, ⟨by simp [hflatB], by decide⟩, rfl, rfl, by cbv⟩
  obtain ⟨cz, hz, hroomZ, hvalueZ⟩ :
      ∃ cz, (compile "0" ⟨0, 0⟩).answer {} = .ok cz ∧ RoomAbove ⟨1, 3⟩ "0" cz ∧ cz.value = 0 :=
    ⟨_, by cbv, ⟨by simp [hflatZ], by decide⟩, rfl⟩
  refine ⟨ca, cb, cz, ha, hroomA, hb, hroomB, hz, hroomZ, ?_, ?_⟩
  · obtain ⟨c, hc, hvalue, hlines⟩ :=
      (compile_is_compositional .div ha hb hroomA hroomB {}).2 (by simp [hvalueB])
    have hsource : operationSource .div "7-\n5" "6/3 " = "(7-\n5)/(6/3 )" := by cbv
    rw [hvalueA, hvalueB] at hvalue
    refine ⟨c, hsource ▸ hc, (Option.some.inj hvalue).symm, ?_⟩
    rw [hlines, hlinesA, hlengthA, hlinesB]
    simp only [Compilation.operandText, hlengthA, hlengthB]
    cbv
  · have hsource : operationSource .div "7-\n5" "0" = "(7-\n5)/(0)" := by cbv
    have hspan : operatorSpan .div "7-\n5" = ⟨⟨2, 3⟩, ⟨2, 4⟩⟩ := by cbv
    rw [← hsource, ← hspan]
    exact (compile_is_compositional .div ha hz hroomA hroomZ {}).1 ⟨rfl, hvalueZ⟩

end ThreeAddress
