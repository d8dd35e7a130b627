import Mathlib
import ThreeAddress.Proofs.ComparedRuns
import ThreeAddress.Proofs.LexicalLayout
import ThreeAddress.Proofs.ListingDecoding

/-!
# Layout does not matter

Two source texts with the same words compile to the same value and the same listing, or they are
refused with the same message at corresponding places. Words are the same when their tokens are of
the same kind; where the texts break off at a lexical issue, the issues have the same message.
Changing the blanks between words and the zeros in front of a numeral keeps the words as they are.
-/

namespace ThreeAddress

namespace Expr.Alike

variable {place : Span → Span → Prop} {e e' : Expr}

lemma unlocated_eq (h : e.Alike place e') : e.unlocated = e'.unlocated := by
  induction h with
  | literal hspan => rfl
  | binary hspan _ _ ihl ihr => rw [unlocated, unlocated, ihl, ihr]

/-- The values are equal, or both expressions fail, at corresponding divisions. -/
theorem outcome_cases (h : e.Alike place e') :
    (∃ value, e.outcome = .ok value ∧ e'.outcome = .ok value) ∨
    ∃ span span', e.outcome = .error span ∧ e'.outcome = .error span' ∧ place span span' := by
  induction h with
  | literal hspan =>
    rename_i value _ _
    exact .inl ⟨value, rfl, rfl⟩
  | binary hspan _ _ ihl ihr =>
    rename_i op _ span span' _ _ _ _ _ _
    simp only [outcome, Operator.combine]
    obtain ⟨a, hleft, hleft'⟩ | ⟨failed, failed', hleft, hleft', hplace⟩ := ihl
    · simp only [hleft, hleft', bind, Except.bind]
      obtain ⟨b, hright, hright'⟩ | ⟨failed, failed', hright, hright', hplace⟩ := ihr
      · simp only [hright, hright']
        cases op.meaning? a b with
        | some value => exact .inl ⟨value, rfl, rfl⟩
        | none => exact .inr ⟨span, span', rfl, rfl, hspan⟩
      · exact .inr ⟨failed, failed', by rw [hright], by rw [hright'], hplace⟩
    · exact .inr ⟨failed, failed', by rw [hleft]; rfl, by rw [hleft']; rfl, hplace⟩

lemma listingLines_eq {value : Int} (h : e.Alike place e') (hvalue : e.outcome = .ok value)
    (hvalue' : e'.outcome = .ok value) :
    listingLines false e.code = listingLines false e'.code := by
  rw [← listingLines_map_unlocated e.code, ← listingLines_map_unlocated e'.code,
    ← code_unlocated hvalue, ← code_unlocated hvalue', h.unlocated_eq]

end Expr.Alike

/-- Where the tokens of a text stand, and behind them the issue that cuts them short, if there is
one. -/
def lexicalPlaces (source : String) : List Span :=
  (scannedTokens source).map Token.span ++ (lexicalIssue? source).toList.map Issue.span

/-- The spans belong to the tokens, or to the lexical issues, with the same index. -/
def SamePlace (source source' : String) (span span' : Span) : Prop :=
  ∃ index : Nat, (lexicalPlaces source)[index]? = some span ∧
    (lexicalPlaces source')[index]? = some span'

/-- The tokens of two texts agree in kind, and so do the messages of the issues that cut them
short. -/
structure SameWords (source source' : String) : Prop where
  kinds : (scannedTokens source).map Token.kind = (scannedTokens source').map Token.kind
  messages : (lexicalIssue? source).map (·.cause.message) =
    (lexicalIssue? source').map (·.cause.message)

/-- Answers that say the same of two texts. -/
inductive SameAnswer (source source' : String) :
    Except Fault Compilation → Except Fault Compilation → Prop where
  | compiled {c c' : Compilation} (hvalue : c.value = c'.value)
      (hlisting : listing false c.code = listing false c'.code)
      (htree : c.tree.unlocated = c'.tree.unlocated) : SameAnswer source source' (.ok c) (.ok c')
  | refused {d d' : Diagnostic} (hcategory : d.category = d'.category)
      (hmessage : d.message = d'.message) (hplace : SamePlace source source' d.span d'.span) :
      SameAnswer source source' (.error (.diagnostic d)) (.error (.diagnostic d'))

namespace SameWords

variable {source source' : String}

lemma length_eq (h : SameWords source source') :
    (scannedTokens source).length = (scannedTokens source').length := by
  simpa using congrArg List.length h.kinds

/-- Two texts compared by the places of their tokens and by messages. -/
def comparison (source source' : String) (limits : Limits) : Comparison where
  place := SamePlace source source'
  cause c c' := c.message = c'.message
  cause_refl _ := rfl
  limits := limits
  wider := limits
  nesting_le := Int.le_refl _
  height_le := Int.le_refl _

lemma forall₂_tokens (h : SameWords source source') :
    List.Forall₂ (Token.Alike (SamePlace source source')) (scannedTokens source)
      (scannedTokens source') := by
  rw [List.forall₂_iff_get]
  refine ⟨h.length_eq, fun index hindex hindex' => ⟨?_, index, ?_, ?_⟩⟩
  · have hkind := congrArg (·[index]?) h.kinds
    simpa [hindex, hindex'] using hkind
  · rw [lexicalPlaces, List.getElem?_append_left (by simpa using hindex)]
    simp [hindex]
  · rw [lexicalPlaces, List.getElem?_append_left (by simpa using hindex')]
    simp [hindex']

lemma sources (h : SameWords source source') (limits : Limits) :
    (comparison source source' limits).Sources source source' where
  tokens := h.forall₂_tokens
  issue? := by
    have hmessages := h.messages
    have hlength := h.length_eq
    cases hissue : lexicalIssue? source with
    | none =>
      cases hissue' : lexicalIssue? source' with
      | none => exact .none
      | some issue' => simp [hissue, hissue'] at hmessages
    | some issue =>
      cases hissue' : lexicalIssue? source' with
      | none => simp [hissue, hissue'] at hmessages
      | some issue' =>
        have hmessage : issue.cause.message = issue'.cause.message := by
          simpa [hissue, hissue'] using hmessages
        refine .some ⟨hmessage, (scannedTokens source).length, ?_, ?_⟩
        · simp [lexicalPlaces, hissue]
        · simp [lexicalPlaces, hissue', hlength]

end SameWords

/-- Two spellings of a token that differ in the leading zeros of a numeral at most. -/
inductive Lexeme.Respells : Lexeme → Lexeme → Prop where
  | refl (l : Lexeme) : Respells l l
  | numeral {n n' : Numeral}
      (h : n.digits.dropWhile (· = '0') = n'.digits.dropWhile (· = '0')) :
      Respells (.numeral n) (.numeral n')

/-- Two texts that differ only in the blanks in front of words and in the leading zeros of numerals,
as far as their words go. Behind the words, other blanks may stand in front of the same rest. -/
inductive Relaid : List Char → List Char → Prop where
  | rest (blanks blanks' : Blanks) (text : List Char) : Relaid (blanks ++ text) (blanks' ++ text)
  | word {w w' : Word} {text text' : List Char} (hlexeme : w.lexeme.Respells w'.lexeme)
      (hstop : w.lexeme.isNumeral = true → ∀ c ∈ text.head?, c.isDigit = false)
      (hstop' : w'.lexeme.isNumeral = true → ∀ c ∈ text'.head?, c.isDigit = false)
      (h : Relaid text text') : Relaid (w.text ++ text) (w'.text ++ text')

lemma decimalValue_dropWhile_zero (digits : List Char) :
    decimalValue (digits.dropWhile (· = '0')) = decimalValue digits := by
  induction digits with
  | nil => rfl
  | cons c digits ih =>
    by_cases hc : c = '0'
    · simp [hc, ih, decimalValue]
    · simp [hc]

lemma Lexeme.Respells.kind_eq {l l' : Lexeme} (h : l.Respells l') : l.kind = l'.kind := by
  cases h with
  | refl => rfl
  | numeral h =>
    rename_i n n'
    rw [kind, kind, ← decimalValue_dropWhile_zero n.digits, h, decimalValue_dropWhile_zero]

namespace Cursor

/-- What is read from two cursors, apart from the places. -/
def ReadAlike (cursor cursor' : Cursor) : Prop :=
  cursor.readAll.1.map Token.kind = cursor'.readAll.1.map Token.kind ∧
    cursor.readAll.2.map Issue.cause = cursor'.readAll.2.map Issue.cause

lemma readAlike_of_next {cursor cursor' behind behind' : Cursor} {token token' : Token}
    (h : cursor.next = .ok token behind) (h' : cursor'.next = .ok token' behind')
    (hkind : token.kind = token'.kind) (hbehind : token.isEnd = false → behind.ReadAlike behind') :
    cursor.ReadAlike cursor' := by
  have hend : token'.isEnd = token.isEnd := by rw [Token.isEnd, Token.isEnd, hkind]
  rw [ReadAlike, readAll_eq cursor, readAll_eq cursor', h, h']
  by_cases hlast : token.isEnd = true
  · simp [hend, hlast, hkind]
  · obtain ⟨hkinds, hcauses⟩ := hbehind (by simpa using hlast)
    simp [hend, hlast, hkind, hkinds, hcauses]

/-- The token in front of a cursor does not depend on the position. -/
lemma lexeme_of_rest_eq {cursor cursor' : Cursor} (h : cursor.rest = cursor'.rest) :
    (∃ token token' behind behind', cursor.lexeme = .ok token behind ∧
      cursor'.lexeme = .ok token' behind' ∧ token.kind = token'.kind ∧
      behind.rest = behind'.rest) ∨
    ∃ issue issue' behind behind', cursor.lexeme = .error issue behind ∧
      cursor'.lexeme = .error issue' behind' ∧ issue.cause = issue'.cause := by
  obtain ⟨text, p⟩ := cursor
  obtain ⟨text', p'⟩ := cursor'
  obtain rfl : text = text' := h
  cases text with
  | nil => exact .inl ⟨_, _, _, _, rfl, rfl, rfl, rfl⟩
  | cons c text =>
    cases hkind : TokenKind.ofChar? c with
    | some kind =>
      simp only [lexeme, hkind]
      exact .inl ⟨_, _, _, _, rfl, rfl, rfl, rfl⟩
    | none =>
      by_cases hdigit : c.isDigit = true
      · simp only [lexeme, hkind, hdigit, if_true, literal]
        cases Text.readDigits? ((c :: text).takeWhile Char.isDigit) with
        | some value => exact .inl ⟨_, _, _, _, rfl, rfl, rfl, rfl⟩
        | none => exact .inr ⟨_, _, _, _, rfl, rfl, rfl⟩
      · simp only [lexeme, hkind, hdigit, Bool.false_eq_true, if_false]
        exact .inr ⟨_, _, _, _, rfl, rfl, rfl⟩

theorem readAlike_of_rest_eq {cursor cursor' : Cursor}
    (h : (cursor.skip Text.isBlank).rest = (cursor'.skip Text.isBlank).rest) :
    cursor.ReadAlike cursor' := by
  obtain ⟨token, token', behind, behind', hnext, hnext', hkind, hrest⟩ |
    ⟨issue, issue', behind, behind', hnext, hnext', hcause⟩ := lexeme_of_rest_eq h
  · refine readAlike_of_next hnext hnext' hkind fun hend => ?_
    have hlt := length_rest_lt_of_next hnext hend
    exact readAlike_of_rest_eq (by rw [skip, skip, hrest])
  · rw [← next] at hnext hnext'
    rw [ReadAlike, readAll_eq cursor, readAll_eq cursor', hnext, hnext']
    simp [hcause]
termination_by cursor.rest.length

end Cursor

theorem Relaid.readAlike {text text' : List Char} (h : Relaid text text')
    (before before' : List Char) :
    (Cursor.mk text (.behind before)).ReadAlike ⟨text', .behind before'⟩ := by
  induction h generalizing before before' with
  | rest blanks blanks' text =>
    apply Cursor.readAlike_of_rest_eq
    simp only [Cursor.skip]
    rw [List.dropWhile_append_of_pos blanks.property, List.dropWhile_append_of_pos blanks'.property]
  | word hlexeme hstop hstop' _ ih =>
    exact Cursor.readAlike_of_next (Cursor.next_of_word _ hstop before)
      (Cursor.next_of_word _ hstop' before') hlexeme.kind_eq (fun _ => ih _ _)

/-- Two source texts with the same words have the same answer under any limits: the same value, the
same listing and the same tree up to spans, or a refusal of the same category with the same message
at the token, or lexical issue, with the same index in its own text. Other blanks, other line breaks
and other leading zeros leave the words as they are. -/
theorem layout_does_not_matter (source source' : String) :
    (SameWords source source' → ∀ limits out out',
      SameAnswer source source' ((compile source limits).answer out)
        ((compile source' limits).answer out')) ∧
    (Relaid source.toList source'.toList → SameWords source source') := by
  refine ⟨fun h limits out out' => ?_, fun h => ?_⟩
  · have houtcomes : (SameWords.comparison source source' limits).Outcomes (parse source limits)
        (parse source' limits) := Comparison.outcomes_parse (h.sources limits)
    rw [answer_compile, answer_compile]
    generalize parse source limits = outcome at houtcomes
    generalize parse source' limits = outcome' at houtcomes
    cases houtcomes with
    | ok tokens temporaries he =>
      simp only [Expr.compilation]
      obtain ⟨value, hvalue, hvalue'⟩ | ⟨span, span', hspan, hspan', hplace⟩ := he.outcome_cases
      · have hlisting := congrArg "\n".intercalate (he.listingLines_eq hvalue hvalue')
        rw [hvalue, hvalue']
        exact .compiled rfl hlisting he.unlocated_eq
      · rw [hspan, hspan']
        exact .refused rfl rfl hplace
    | error hd => exact .refused hd.category hd.issue.cause hd.issue.span
    | cutOff hlimits => exact absurd rfl hlimits
  · obtain ⟨hkinds, hcauses⟩ := h.readAlike [] []
    have hmessages := congrArg (Option.map Cause.message) hcauses
    rw [Option.map_map, Option.map_map] at hmessages
    exact ⟨hkinds, hmessages⟩

/-- A numeral with a leading zero, a line break, and behind them the same stray character. -/
theorem layout_does_not_matter_of_stray_character :
    Relaid "1+$".toList "01 +\n$".toList ∧ SameWords "1+$" "01 +\n$" ∧
      SameAnswer "1+$" "01 +\n$" ((compile "1+$" {}).answer {})
        ((compile "01 +\n$" {}).answer {}) := by
  have hrelaid : Relaid "1+$".toList "01 +\n$".toList := by
    have hspace : ∀ c ∈ [' '], Text.isBlank c = true := List.forall_mem_singleton.mpr (by decide)
    have hbreak : ∀ c ∈ ['\n'], Text.isBlank c = true := List.forall_mem_singleton.mpr (by decide)
    have hone : Lexeme.Respells (.numeral ⟨['1'], by simp, by simp, by decide⟩)
        (.numeral ⟨['0', '1'], by simp, by simp, by decide⟩) := .numeral (by simp)
    have hrest : Relaid ['$'] ['\n', '$'] := .rest ⟨[], by simp⟩ ⟨['\n'], hbreak⟩ ['$']
    have hsign : Relaid ['+', '$'] [' ', '+', '\n', '$'] :=
      @Relaid.word ⟨⟨[], by simp⟩, .operator .add⟩ ⟨⟨[' '], hspace⟩, .operator .add⟩ _ _ (.refl _)
        (by simp) (by simp) hrest
    have hall : Relaid ['1', '+', '$'] ['0', '1', ' ', '+', '\n', '$'] :=
      @Relaid.word ⟨⟨[], by simp⟩, _⟩ ⟨⟨[], by simp⟩, _⟩ _ _ hone (by simp) (by simp) hsign
    exact hall
  have hwords := (layout_does_not_matter "1+$" "01 +\n$").2 hrelaid
  exact ⟨hrelaid, hwords, (layout_does_not_matter _ _).1 hwords {} {} {}⟩

end ThreeAddress
