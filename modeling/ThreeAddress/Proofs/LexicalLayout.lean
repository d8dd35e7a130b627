import Mathlib.Tactic.Lemma
import ThreeAddress.Layout
import ThreeAddress.Proofs.TokenStream

/-!
# Tokens as the words of a layout

Reading tokens and laying out words are inverse to each other. A cursor that stands on a word reads
the word's token (`Cursor.next_of_word`), and whatever token a cursor reads was a word
(`Cursor.next_cases`). So a text has tokens exactly when it has a layout whose numerals are
whole runs of digits, and it has one such layout at most.
-/

namespace ThreeAddress

namespace Position

lemma after_behind (text : List Char) (c : Char) :
    (behind text).after c = behind (text ++ [c]) := by
  by_cases hc : c = '\n'
  · simp [after, behind, hc, Int.add_assoc]
  · have hcount : (text ++ [c]).count '\n' = text.count '\n' := by simp [hc]
    have hrun : ((text ++ [c]).reverse.takeWhile (· ≠ '\n')).length =
        (text.reverse.takeWhile (· ≠ '\n')).length + 1 := by simp [hc]
    rw [after, if_neg hc, behind, behind, hcount, hrun]
    simp [Int.add_assoc]

lemma afterAll_behind (text more : List Char) :
    (behind text).afterAll more = behind (text ++ more) := by
  induction more generalizing text with
  | nil => simp [afterAll]
  | cons c more ih =>
    have hrest := ih (text ++ [c])
    rw [afterAll, List.foldl_cons, after_behind]
    simpa [afterAll] using hrest

end Position

lemma ofDigitChars_eq_decimalValue (digits : List Char) (start : Nat) :
    Nat.ofDigitChars 10 digits start =
      start * Nat.pow 10 digits.length + decimalValue digits := by
  induction digits generalizing start with
  | nil => simp [decimalValue]
  | cons c digits ih =>
    have hpow : Nat.pow 10 (c :: digits).length = 10 * Nat.pow 10 digits.length :=
      Nat.mul_comm _ _
    rw [Nat.ofDigitChars_cons, ih, decimalValue, hpow, Nat.add_mul, Nat.add_assoc,
      ← Nat.mul_assoc, Nat.mul_comm start]

lemma readDigits?_eq_decimalValue {digits : List Char} (h : digits.length ≤ Text.digitLimit) :
    Text.readDigits? digits = some (decimalValue digits) := by
  rw [Text.readDigits?, if_pos h, ofDigitChars_eq_decimalValue, Nat.zero_mul, Nat.zero_add]

lemma isDigit_eq_false_of_isBlank {c : Char} (h : Text.isBlank c = true) : c.isDigit = false := by
  obtain ⟨range, hmem, hfirst, hlast⟩ := Text.inClass_eq_true_iff.mp h
  have hnot : ¬(48 ≤ c.toNat ∧ c.toNat ≤ 57) := by
    simp only [Text.blankRanges, List.mem_cons, List.not_mem_nil, or_false] at hmem
    rcases hmem with rfl | rfl | rfl | rfl | rfl | rfl | rfl | rfl | rfl | rfl <;>
      simp only at hfirst hlast <;> omega
  rw [Bool.eq_false_iff]
  intro hdigit
  simp only [Char.isDigit, Bool.and_eq_true, decide_eq_true_eq] at hdigit
  exact hnot ⟨UInt32.le_iff_toNat_le.mp hdigit.1, UInt32.le_iff_toNat_le.mp hdigit.2⟩

lemma isBlank_eq_false_of_isDigit {c : Char} (h : c.isDigit = true) : Text.isBlank c = false := by
  rw [Bool.eq_false_iff]
  intro hblank
  rw [isDigit_eq_false_of_isBlank hblank] at h
  cases h

/-- The last character of a text with blanks behind it is a blank, unless there are no blanks. -/
lemma Blanks.of_mem_getLast?_append {before : List Char} {blanks : Blanks} {c : Char}
    (h : c ∈ (before ++ blanks).getLast?) :
    c.isDigit = false ∨ blanks.val = [] ∧ c ∈ before.getLast? := by
  rw [List.getLast?_append] at h
  cases hblanks : blanks.val.getLast? with
  | some d =>
    rw [hblanks] at h
    obtain rfl := Option.some.inj h
    left
    exact isDigit_eq_false_of_isBlank (blanks.property d (List.mem_of_mem_getLast? hblanks))
  | none =>
    rw [hblanks, Option.none_or] at h
    right
    exact ⟨List.getLast?_eq_none_iff.mp hblanks, h⟩

/-- A run of a class is found whole when what follows it does not go on with the class. -/
lemma span_of_run {p : Char → Bool} {run rest : List Char} (hrun : ∀ c ∈ run, p c = true)
    (hstop : ∀ c ∈ rest.head?, p c = false) :
    (run ++ rest).takeWhile p = run ∧ (run ++ rest).dropWhile p = rest := by
  rw [List.takeWhile_append_of_pos hrun, List.dropWhile_append_of_pos hrun]
  cases rest with
  | nil => simp
  | cons c rest => simp [hstop c rfl]

namespace Lexeme

lemma isBlank_eq_false_of_head? {l : Lexeme} {c : Char} (h : c ∈ l.text.head?) :
    Text.isBlank c = false := by
  cases l with
  | opening | closing =>
    obtain rfl := Option.some.inj h
    decide
  | operator op =>
    obtain rfl := Option.some.inj h
    cases op <;> decide
  | numeral n => exact isBlank_eq_false_of_isDigit (n.isDigit c (List.mem_of_mem_head? h))

lemma isDigit_of_mem_text {l : Lexeme} {c : Char} (h : c ∈ l.text) : c.isDigit = l.isNumeral := by
  cases l with
  | opening | closing =>
    obtain rfl := List.mem_singleton.mp h
    decide
  | operator op =>
    obtain rfl := List.mem_singleton.mp h
    cases op <;> decide
  | numeral n => exact n.isDigit c h

lemma text_ne_nil (l : Lexeme) : l.text ≠ [] := by
  cases l with
  | opening | closing | operator op => exact List.cons_ne_nil _ _
  | numeral n => exact n.ne_nil

lemma ofChar?_of_text {l : Lexeme} {c : Char} (h : l.text = [c]) (hsign : l.isNumeral = false) :
    TokenKind.ofChar? c = some l.kind := by
  cases l with
  | opening | closing =>
    obtain rfl := List.singleton_inj.mp h
    rfl
  | operator op =>
    obtain rfl := List.singleton_inj.mp h
    cases op <;> rfl
  | numeral n => cases hsign

lemma exists_of_ofChar? {c : Char} {kind : TokenKind} (h : TokenKind.ofChar? c = some kind) :
    ∃ l : Lexeme, l.text = [c] ∧ l.isNumeral = false ∧ l.kind = kind := by
  unfold TokenKind.ofChar? at h
  split at h
  · rename_i hc
    exact ⟨opening, by rw [hc, text], rfl, Option.some.inj h⟩
  · split at h
    · rename_i hc
      exact ⟨closing, by rw [hc, text], rfl, Option.some.inj h⟩
    · obtain ⟨op, hop, hkind⟩ := Option.map_eq_some_iff.mp h
      exact ⟨operator op, by rw [text, Operator.symbol_eq_of_ofSymbol? hop], rfl, hkind⟩

lemma isEnd_mk_kind (l : Lexeme) (span : Span) : (Token.mk l.kind span).isEnd = false := by
  cases l <;> rfl

lemma exists_text_eq_singleton {l : Lexeme} (hsign : l.isNumeral = false) : ∃ c, l.text = [c] := by
  cases l with
  | opening | closing | operator op => exact ⟨_, rfl⟩
  | numeral n => cases hsign

lemma text_injective {l l' : Lexeme} (h : l.text = l'.text) : l = l' := by
  obtain ⟨c, hc⟩ := List.exists_mem_of_ne_nil _ l.text_ne_nil
  have hnumeral : l.isNumeral = l'.isNumeral := by
    rw [← isDigit_of_mem_text hc, isDigit_of_mem_text (h ▸ hc)]
  cases hsign : l.isNumeral with
  | false =>
    obtain ⟨c, hc⟩ := exists_text_eq_singleton hsign
    have hkind := ofChar?_of_text hc hsign
    rw [ofChar?_of_text (h ▸ hc) (hnumeral ▸ hsign)] at hkind
    cases l <;> cases l' <;> simp_all [kind, isNumeral]
  | true =>
    cases l with
    | numeral n =>
      cases l' with
      | numeral n' => exact congrArg numeral (Numeral.ext h)
      | opening | closing | operator _ => cases hnumeral
    | opening | closing | operator _ => cases hsign

end Lexeme

lemma TokenKind.ofChar?_of_isDigit {c : Char} (hc : c.isDigit = true) : ofChar? c = none := by
  rw [Option.eq_none_iff_forall_ne_some]
  intro kind hkind
  obtain ⟨l, hl, hsign, -⟩ := Lexeme.exists_of_ofChar? hkind
  rw [Lexeme.isDigit_of_mem_text (l := l) (by simp [hl]), hsign] at hc
  cases hc

lemma Word.text_injective {w w' : Word} (h : w.text = w'.text) : w = w' := by
  obtain ⟨hblanks, hlexeme⟩ := span_of_run w.blanks.property
    (fun _ hc => w.lexeme.isBlank_eq_false_of_head? hc)
  obtain ⟨hblanks', hlexeme'⟩ := span_of_run w'.blanks.property
    (fun _ hc => w'.lexeme.isBlank_eq_false_of_head? hc)
  rw [text, text] at h
  rw [h, hblanks'] at hblanks
  rw [h, hlexeme'] at hlexeme
  cases w
  cases w'
  rw [Word.mk.injEq]
  exact ⟨Subtype.ext hblanks.symm, Lexeme.text_injective hlexeme.symm⟩

lemma Word.text_append_ne_blanks (w : Word) (rest : List Char) (blanks : Blanks) :
    w.text ++ rest ≠ blanks := by
  intro h
  obtain ⟨c, more, htext⟩ := List.exists_cons_of_ne_nil w.lexeme.text_ne_nil
  have hblank := w.lexeme.isBlank_eq_false_of_head? (c := c) (by simp [htext])
  have hmem : c ∈ blanks.val := by simp [← h, text, htext]
  rw [blanks.property c hmem] at hblank
  cases hblank

lemma Word.getLast?_append_text (before : List Char) (w : Word) :
    (before ++ w.text).getLast? = w.lexeme.text.getLast? := by
  rw [text, ← List.append_assoc, List.getLast?_append]
  cases hlast : w.lexeme.text.getLast? with
  | none => exact absurd (List.getLast?_eq_none_iff.mp hlast) w.lexeme.text_ne_nil
  | some c => rfl

namespace Cursor

lemma skip_of_run {p : Char → Bool} {run rest : List Char} (hrun : ∀ c ∈ run, p c = true)
    (hstop : ∀ c ∈ rest.head?, p c = false) (before : List Char) :
    (Cursor.mk (run ++ rest) (.behind before)).skip p = ⟨rest, .behind (before ++ run)⟩ := by
  obtain ⟨htake, hdrop⟩ := span_of_run hrun hstop
  rw [skip, htake, hdrop, Position.afterAll_behind]

lemma literal_of_numeral (n : Numeral) {rest : List Char}
    (hstop : ∀ c ∈ rest.head?, c.isDigit = false) (before : List Char) :
    (Cursor.mk (n.digits ++ rest) (.behind before)).literal =
      .ok ⟨.number (decimalValue n.digits), .behind before, .behind (before ++ n.digits)⟩
        ⟨rest, .behind (before ++ n.digits)⟩ := by
  obtain ⟨htake, -⟩ := span_of_run n.isDigit hstop
  rw [literal, htake, readDigits?_eq_decimalValue n.length_le, skip_of_run n.isDigit hstop]

lemma lexeme_of_text (l : Lexeme) {rest : List Char}
    (hstop : l.isNumeral = true → ∀ c ∈ rest.head?, c.isDigit = false) (before : List Char) :
    (Cursor.mk (l.text ++ rest) (.behind before)).lexeme =
      .ok ⟨l.kind, .behind before, .behind (before ++ l.text)⟩
        ⟨rest, .behind (before ++ l.text)⟩ := by
  cases hsign : l.isNumeral with
  | false =>
    obtain ⟨c, hc⟩ := Lexeme.exists_text_eq_singleton hsign
    have hkind := Lexeme.ofChar?_of_text hc hsign
    simp only [lexeme, hc, List.singleton_append, hkind, Position.after_behind]
  | true =>
    cases l with
    | numeral n =>
      have hliteral := literal_of_numeral n (hstop rfl) before
      obtain ⟨c, digits, hdigits⟩ := List.exists_cons_of_ne_nil n.ne_nil
      have hc : c.isDigit = true := n.isDigit c (by simp [hdigits])
      have hnone := TokenKind.ofChar?_of_isDigit hc
      simp only [Lexeme.text, Lexeme.kind, ← hliteral]
      simp only [lexeme, hdigits, List.cons_append, hnone, hc, if_true]
    | opening | closing | operator _ => cases hsign

theorem next_of_word (w : Word) {rest : List Char}
    (hstop : w.lexeme.isNumeral = true → ∀ c ∈ rest.head?, c.isDigit = false)
    (before : List Char) :
    (Cursor.mk (w.text ++ rest) (.behind before)).next =
      .ok (w.token before) ⟨rest, .behind (before ++ w.text)⟩ := by
  have hhead : ∀ c ∈ (w.lexeme.text ++ rest).head?, Text.isBlank c = false := by
    obtain ⟨c, more, htext⟩ := List.exists_cons_of_ne_nil w.lexeme.text_ne_nil
    have hblank := w.lexeme.isBlank_eq_false_of_head? (c := c) (by simp [htext])
    simpa [htext] using hblank
  rw [next, Word.text, List.append_assoc, skip_of_run w.blanks.property hhead,
    lexeme_of_text w.lexeme hstop, Word.token, Word.text, List.append_assoc]

theorem next_of_blanks (blanks : Blanks) (before : List Char) :
    (Cursor.mk blanks (.behind before)).next =
      .ok ⟨.endOfInput, .behind (before ++ blanks), .behind (before ++ blanks)⟩
        ⟨[], .behind (before ++ blanks)⟩ := by
  have hstop : ∀ c ∈ ([] : List Char).head?, Text.isBlank c = false := by simp
  have hskip := skip_of_run blanks.property hstop before
  rw [List.append_nil] at hskip
  rw [next, hskip, lexeme]

lemma head?_dropWhile {p : Char → Bool} {text : List Char} {c : Char}
    (h : c ∈ (text.dropWhile p).head?) : p c = false := by
  have hnot := List.head?_dropWhile_not p text
  rw [Option.mem_def.mp h] at hnot
  exact hnot

lemma exists_numeral_of_literal {cursor behind : Cursor} {token : Token} {c : Char}
    {rest : List Char} (h : cursor.literal = .ok token behind) (hrest : cursor.rest = c :: rest)
    (hdigit : c.isDigit = true) :
    token.isEnd = false ∧ ∃ n : Numeral, cursor.rest = n.digits ++ behind.rest ∧
      ∀ c ∈ behind.rest.head?, c.isDigit = false := by
  unfold literal Text.readDigits? at h
  by_cases hlength : (cursor.rest.takeWhile Char.isDigit).length ≤ Text.digitLimit
  · rw [if_pos hlength] at h
    obtain ⟨rfl, rfl⟩ := EStateM.Result.ok.inj h
    have hne : cursor.rest.takeWhile Char.isDigit ≠ [] := by simp [hrest, hdigit]
    have hdigits := List.all_eq_true.mp (List.all_takeWhile (p := Char.isDigit) (l := cursor.rest))
    refine ⟨rfl, ⟨cursor.rest.takeWhile Char.isDigit, hne, hdigits, hlength⟩, ?_, ?_⟩
    · exact List.takeWhile_append_dropWhile.symm
    · intro c hc
      exact head?_dropWhile hc
  · rw [if_neg hlength] at h
    cases h

/-- A token is the end, and then no text is left, or its text is a lexeme. -/
lemma lexeme_cases {cursor behind : Cursor} {token : Token}
    (h : cursor.lexeme = .ok token behind) :
    token.isEnd = true ∧ cursor.rest = [] ∨
    token.isEnd = false ∧ ∃ l : Lexeme, cursor.rest = l.text ++ behind.rest ∧
      (l.isNumeral = true → ∀ c ∈ behind.rest.head?, c.isDigit = false) := by
  unfold lexeme at h
  split at h
  · rename_i hrest
    obtain ⟨rfl, -⟩ := EStateM.Result.ok.inj h
    exact .inl ⟨rfl, hrest⟩
  · rename_i c rest hrest
    refine .inr ?_
    split at h
    · rename_i kind hkind
      obtain ⟨rfl, rfl⟩ := EStateM.Result.ok.inj h
      obtain ⟨l, hl, hsign, rfl⟩ := Lexeme.exists_of_ofChar? hkind
      refine ⟨l.isEnd_mk_kind _, l, by rw [hrest, hl, List.singleton_append], ?_⟩
      intro hnumeral
      rw [hsign] at hnumeral
      cases hnumeral
    · split at h
      · rename_i hdigit
        obtain ⟨hend, n, hn, hstop⟩ := exists_numeral_of_literal h hrest hdigit
        exact ⟨hend, .numeral n, hn, fun _ => hstop⟩
      · cases h

/-- The blanks in front of a cursor. -/
def blanks (cursor : Cursor) : Blanks :=
  ⟨cursor.rest.takeWhile Text.isBlank, List.all_eq_true.mp List.all_takeWhile⟩

lemma blanks_append (cursor : Cursor) :
    cursor.blanks ++ (cursor.skip Text.isBlank).rest = cursor.rest :=
  List.takeWhile_append_dropWhile

theorem next_cases {cursor behind : Cursor} {token : Token}
    (h : cursor.next = .ok token behind) :
    token.isEnd = true ∧ cursor.rest = cursor.blanks ∨
    token.isEnd = false ∧ ∃ w : Word, cursor.rest = w.text ++ behind.rest ∧
      (w.lexeme.isNumeral = true → ∀ c ∈ behind.rest.head?, c.isDigit = false) := by
  have happend := cursor.blanks_append
  obtain ⟨hend, hnil⟩ | ⟨hend, l, hl, hstop⟩ := lexeme_cases h
  · rw [hnil, List.append_nil] at happend
    exact .inl ⟨hend, happend.symm⟩
  · refine .inr ⟨hend, ⟨cursor.blanks, l⟩, ?_, hstop⟩
    rw [Word.text, List.append_assoc, ← hl, happend]

end Cursor

/-! ### Whole texts -/

namespace Layout

@[simp]
lemma text_nil (trailing : Blanks) : (Layout.mk [] trailing).text = trailing := rfl

@[simp]
lemma text_cons (w : Word) (words : List Word) (trailing : Blanks) :
    (Layout.mk (w :: words) trailing).text = w.text ++ (Layout.mk words trailing).text := by
  simp [text]

end Layout

/-- No digit follows a numeral. This half of being a whole run is what reading from the left sees;
the other half follows from it. -/
def Separated (trailing : Blanks) : List Word → Prop
  | [] => True
  | w :: words =>
    (w.lexeme.isNumeral = true →
      ∀ c ∈ (Layout.mk words trailing).text.head?, c.isDigit = false) ∧ Separated trailing words

theorem Cursor.readAll_of_separated {trailing : Blanks} {words : List Word}
    (h : Separated trailing words) (before : List Char) :
    (Cursor.mk (Layout.mk words trailing).text (.behind before)).readAll =
      (wordTokens before words ++
        [⟨.endOfInput, .behind (before ++ (Layout.mk words trailing).text),
          .behind (before ++ (Layout.mk words trailing).text)⟩], none) := by
  induction words generalizing before with
  | nil =>
    rw [readAll_eq, Layout.text_nil, next_of_blanks]
    rfl
  | cons w words ih =>
    have hend : (w.token before).isEnd = false := w.lexeme.isEnd_mk_kind _
    have hrest := ih h.2 (before ++ w.text)
    rw [readAll_eq, Layout.text_cons, next_of_word w h.1]
    simp [hend, hrest, wordTokens]

theorem Cursor.exists_separated_of_readAll {cursor : Cursor} (h : cursor.readAll.2 = none) :
    ∃ words trailing, (Layout.mk words trailing).text = cursor.rest ∧
      Separated trailing words := by
  fun_induction readAll cursor with
  | case1 cursor issue behind hnext => cases h
  | case2 cursor token behind hnext hend =>
    obtain ⟨-, hblanks⟩ | ⟨hnot, -⟩ := next_cases hnext
    · exact ⟨[], cursor.blanks, hblanks.symm, trivial⟩
    · rw [hend] at hnot
      cases hnot
  | case3 cursor token behind hnext hend _ tokens issue? hreadAll ih =>
    rw [hreadAll] at ih
    obtain ⟨words, trailing, htext, hseparated⟩ := ih h
    obtain ⟨htrue, -⟩ | ⟨-, w, hw, hstop⟩ := next_cases hnext
    · exact absurd htrue hend
    · refine ⟨w :: words, trailing, ?_, ?_, hseparated⟩
      · rw [Layout.text_cons, htext, hw]
      · rw [htext]
        exact hstop

lemma exists_words_of_tokenize {source : String} {tokens : List Token}
    (h : tokenize source = .ok tokens) :
    ∃ words trailing, (Layout.mk words trailing).text = source.toList ∧
      Separated trailing words ∧ (Layout.mk words trailing).tokens = tokens := by
  rw [tokenize_eq_ok_iff] at h
  obtain ⟨words, trailing, htext, hseparated⟩ :=
    Cursor.exists_separated_of_readAll (congrArg Prod.snd h)
  have hread := Cursor.readAll_of_separated hseparated []
  have hsource : (Cursor.mk (Layout.mk words trailing).text (.behind [])).readAll =
      (tokens, none) := by
    rw [htext]
    exact h
  rw [hsource] at hread
  exact ⟨words, trailing, htext, hseparated, (congrArg Prod.fst hread).symm⟩

/-- Reading is determined, so the words in front of a text are. -/
theorem Separated.unique {trailing trailing' : Blanks} {words words' : List Word}
    (h : Separated trailing words) (h' : Separated trailing' words')
    (htext : (Layout.mk words trailing).text = (Layout.mk words' trailing').text) :
    words = words' ∧ trailing = trailing' := by
  induction words generalizing words' with
  | nil =>
    cases words' with
    | nil => exact ⟨rfl, Subtype.ext htext⟩
    | cons w' words' =>
      rw [Layout.text_nil, Layout.text_cons] at htext
      exact absurd htext.symm (w'.text_append_ne_blanks _ trailing)
  | cons w words ih =>
    rw [Layout.text_cons] at htext
    cases words' with
    | nil => exact absurd htext (w.text_append_ne_blanks _ trailing')
    | cons w' words' =>
      have hnext := Cursor.next_of_word w h.1 []
      rw [Layout.text_cons] at htext
      rw [htext, Cursor.next_of_word w' h'.1] at hnext
      have hrest : (Layout.mk words' trailing').text = (Layout.mk words trailing).text :=
        congrArg Cursor.rest (EStateM.Result.ok.inj hnext).2
      rw [hrest] at htext
      obtain rfl := Word.text_injective (List.append_cancel_right htext)
      obtain ⟨rfl, rfl⟩ := ih h.2 h'.2 hrest.symm
      exact ⟨rfl, rfl⟩

namespace Separated

lemma of_append {trailing : Blanks} {before after : List Word}
    (h : Separated trailing (before ++ after)) : Separated trailing after := by
  induction before with
  | nil => exact h
  | cons w before ih => exact ih h.2

lemma stops {trailing : Blanks} {before after : List Word} {w : Word}
    (h : Separated trailing (before ++ w :: after)) (hnumeral : w.lexeme.isNumeral = true) :
    ∀ c ∈ (Layout.mk after trailing).text.head?, c.isDigit = false :=
  h.of_append.1 hnumeral

/-- What stands in front of a numeral ends with a blank, with a sign, or not at all: a numeral
would be followed by a digit. -/
lemma getLast?_before {trailing : Blanks} {before after : List Word} {w : Word} {c : Char}
    (h : Separated trailing (before ++ w :: after)) (hnumeral : w.lexeme.isNumeral = true)
    (hc : c ∈ (before.flatMap Word.text ++ w.blanks).getLast?) : c.isDigit = false := by
  obtain hdigit | ⟨hnil, hc⟩ := Blanks.of_mem_getLast?_append hc
  · exact hdigit
  · obtain rfl | ⟨before, v, rfl⟩ := List.eq_nil_or_concat before
    · cases hc
    · rw [List.concat_eq_append] at h hc
      have hmem : c ∈ v.lexeme.text := by
        rw [List.flatMap_append, List.flatMap_singleton, v.getLast?_append_text] at hc
        exact List.mem_of_mem_getLast? hc
      rw [Lexeme.isDigit_of_mem_text hmem, Bool.eq_false_iff]
      intro hv
      obtain ⟨d, more, htext⟩ := List.exists_cons_of_ne_nil w.lexeme.text_ne_nil
      rw [List.append_assoc, List.singleton_append] at h
      have hd := h.stops hv d (by simp [Word.text, hnil, htext])
      rw [Lexeme.isDigit_of_mem_text (l := w.lexeme) (by simp [htext]), hnumeral] at hd
      cases hd

end Separated

lemma Layout.isMaximal_iff_separated (layout : Layout) :
    layout.IsMaximal ↔ Separated layout.trailing layout.words := by
  constructor
  · intro h
    -- Being maximal speaks of all splits of the words, so the induction goes over their ends.
    have hall : ∀ before words, layout.words = before ++ words →
        Separated layout.trailing words := by
      intro before words hwords
      induction words generalizing before with
      | nil => trivial
      | cons w words ih =>
        refine ⟨fun hnumeral => (h before w words hwords hnumeral).2, ih (before ++ [w]) ?_⟩
        rw [hwords, List.append_assoc, List.singleton_append]
    exact hall [] layout.words rfl
  · intro h before w after hwords hnumeral
    rw [hwords] at h
    exact ⟨fun c hc => h.getLast?_before hnumeral hc, h.stops hnumeral⟩

/-- A source text has tokens exactly when it can be laid out in words, with every numeral a whole
run of digits. There is one such layout then, and the tokens are those of its words in their
places, followed by the end. -/
theorem tokenize_eq_ok_iff_layout (source : String) (tokens : List Token) :
    tokenize source = .ok tokens ↔
      ∃ layout : Layout, layout.text = source.toList ∧ layout.IsMaximal ∧
        layout.tokens = tokens ∧
        ∀ other : Layout, other.text = source.toList → other.IsMaximal → other = layout := by
  have hreadAll : ∀ layout : Layout, layout.text = source.toList → layout.IsMaximal →
      (Cursor.ofSource source).readAll = (layout.tokens, none) := by
    intro layout htext hmaximal
    have hread := Cursor.readAll_of_separated (layout.isMaximal_iff_separated.mp hmaximal) []
    rw [Cursor.ofSource, ← htext]
    exact hread
  rw [tokenize_eq_ok_iff]
  constructor
  · intro h
    obtain ⟨words, trailing, htext, hseparated⟩ :=
      Cursor.exists_separated_of_readAll (congrArg Prod.snd h)
    have hmaximal := (Layout.isMaximal_iff_separated ⟨words, trailing⟩).mpr hseparated
    refine ⟨⟨words, trailing⟩, htext, hmaximal, ?_, ?_⟩
    · rw [hreadAll ⟨words, trailing⟩ htext hmaximal] at h
      exact congrArg Prod.fst h
    · intro other hother hmaximal'
      obtain ⟨hwords, htrailing⟩ := (other.isMaximal_iff_separated.mp hmaximal').unique hseparated
        (hother.trans htext.symm)
      cases other
      rw [Layout.mk.injEq]
      exact ⟨hwords, htrailing⟩
  · rintro ⟨layout, htext, hmaximal, rfl, -⟩
    exact hreadAll layout htext hmaximal

end ThreeAddress
