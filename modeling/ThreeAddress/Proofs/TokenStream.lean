import Mathlib.Tactic.Lemma
import ThreeAddress.Scanner

/-!
# The tokens ahead of a scanner

A scanner stands for the tokens from its current one on, together with the lexical issue that cuts
them short. `Scanner.advance_cases` says what moving on does to this view, so nothing else has to
look at the text behind a scanner.
-/

namespace ThreeAddress

/-- The tokens of a source text up to its end or to its first lexical issue. -/
def scannedTokens (source : String) : List Token :=
  (Cursor.ofSource source).readAll.1

lemma tokenize_eq_ok_iff {source : String} {tokens : List Token} :
    tokenize source = .ok tokens ↔ (Cursor.ofSource source).readAll = (tokens, none) := by
  unfold tokenize
  rcases (Cursor.ofSource source).readAll with ⟨scanned, _ | issue⟩ <;> simp

lemma tokenize_eq_error_iff {source : String} {issue : Issue} :
    tokenize source = .error issue ↔
      (Cursor.ofSource source).readAll = (scannedTokens source, some issue) := by
  unfold tokenize scannedTokens
  rcases (Cursor.ofSource source).readAll with ⟨scanned, _ | issue'⟩ <;> simp

def Cause.isLexical : Cause → Bool
  | unexpectedCharacter _ | literalTooLong => true
  | _ => false

/-- A literal that can be written as an operand. -/
def TokenKind.Short : TokenKind → Prop
  | number value => value < Nat.pow 10 Text.digitLimit
  | _ => True

lemma digitValue_lt {c : Char} (h : c.isDigit = true) : c.toNat - '0'.toNat < 10 := by
  have hle : c.toNat ≤ 57 := by
    simp only [Char.isDigit, Bool.and_eq_true, decide_eq_true_eq] at h
    exact UInt32.le_iff_toNat_le.mp h.2
  have hzero : '0'.toNat = 48 := rfl
  omega

lemma ofDigitChars_lt {digits : List Char} (h : ∀ c ∈ digits, c.isDigit = true) (start : Nat) :
    Nat.ofDigitChars 10 digits start < (start + 1) * Nat.pow 10 digits.length := by
  -- The digits so far are the start of the fold, so the bound has to scale with it.
  induction digits generalizing start with
  | nil => simp
  | cons c digits ih =>
    have hdigit := digitValue_lt (h c List.mem_cons_self)
    have hrest := ih (fun c hc => h c (List.mem_cons_of_mem _ hc))
      (10 * start + (c.toNat - '0'.toNat))
    rw [Nat.ofDigitChars_cons]
    calc
      _ < (10 * start + (c.toNat - '0'.toNat) + 1) * Nat.pow 10 digits.length := hrest
      _ ≤ (10 * (start + 1)) * Nat.pow 10 digits.length := by
        apply Nat.mul_le_mul_right
        omega
      _ = (start + 1) * Nat.pow 10 (c :: digits).length := by
        rw [List.length_cons, Nat.pow, Nat.mul_comm 10, Nat.mul_assoc, Nat.mul_comm 10]
        rfl

lemma ofDigitChars_lt_pow {digits : List Char} {k : Nat} (h : ∀ c ∈ digits, c.isDigit = true)
    (hlength : digits.length ≤ k) : Nat.ofDigitChars 10 digits 0 < Nat.pow 10 k := by
  have hlt := ofDigitChars_lt h 0
  rw [Nat.zero_add, Nat.one_mul] at hlt
  exact Nat.lt_of_lt_of_le hlt (Nat.pow_le_pow_right (by decide) hlength)

namespace Cursor

lemma short_of_literal {cursor behind : Cursor} {token : Token}
    (h : cursor.literal = .ok token behind) : token.kind.Short := by
  unfold literal Text.readDigits? at h
  by_cases hlength : (cursor.rest.takeWhile Char.isDigit).length ≤ Text.digitLimit
  · rw [if_pos hlength] at h
    obtain ⟨rfl, -⟩ := EStateM.Result.ok.inj h
    have hdigits := List.all_eq_true.mp (List.all_takeWhile (p := Char.isDigit) (l := cursor.rest))
    exact ofDigitChars_lt_pow hdigits hlength
  · rw [if_neg hlength] at h
    cases h

lemma short_of_ofChar? {c : Char} {kind : TokenKind} (h : TokenKind.ofChar? c = some kind) :
    kind.Short := by
  unfold TokenKind.ofChar? at h
  split at h
  · obtain rfl := Option.some.inj h
    trivial
  · split at h
    · obtain rfl := Option.some.inj h
      trivial
    · obtain ⟨op, -, rfl⟩ := Option.map_eq_some_iff.mp h
      trivial

lemma short_of_next {cursor behind : Cursor} {token : Token} (h : cursor.next = .ok token behind) :
    token.kind.Short := by
  unfold next lexeme at h
  split at h
  · obtain ⟨rfl, -⟩ := EStateM.Result.ok.inj h
    trivial
  · split at h
    · rename_i hkind
      obtain ⟨rfl, -⟩ := EStateM.Result.ok.inj h
      exact short_of_ofChar? hkind
    · split at h
      · exact short_of_literal h
      · cases h

theorem short_of_mem_readAll {cursor : Cursor} {token : Token} (h : token ∈ cursor.readAll.1) :
    token.kind.Short := by
  fun_induction readAll cursor with
  | case1 cursor issue behind hnext => cases h
  | case2 cursor token' behind hnext hend =>
    obtain rfl := List.mem_singleton.mp h
    exact short_of_next hnext
  | case3 cursor token' behind hnext hend _ tokens issue? hreadAll ih =>
    rw [hreadAll] at ih
    obtain rfl | h := List.mem_cons.mp h
    · exact short_of_next hnext
    · exact ih h

lemma isLexical_of_next {cursor behind : Cursor} {issue : Issue}
    (h : cursor.next = .error issue behind) : issue.cause.isLexical = true := by
  unfold next lexeme at h
  split at h
  · cases h
  · split at h
    · cases h
    · split at h
      · unfold literal at h
        split at h
        · cases h
        · obtain ⟨rfl, -⟩ := EStateM.Result.error.inj h
          rfl
      · obtain ⟨rfl, -⟩ := EStateM.Result.error.inj h
        rfl

lemma isLexical_of_readAll {cursor : Cursor} {issue : Issue} (h : cursor.readAll.2 = some issue) :
    issue.cause.isLexical = true := by
  fun_induction readAll cursor with
  | case1 cursor issue' behind hnext =>
    obtain rfl := Option.some.inj h
    exact isLexical_of_next hnext
  | case2 cursor token behind hnext hend => cases h
  | case3 cursor token behind hnext hend _ tokens issue? hreadAll ih =>
    rw [hreadAll] at ih
    exact ih h

end Cursor

namespace Scanner

/-- What follows the current token. Nothing follows the end. -/
def following (s : Scanner) : List Token × Option Issue :=
  if s.current.isEnd then ([], none) else s.cursor.readAll

def ahead (s : Scanner) : List Token :=
  s.current :: s.following.1

def issue? (s : Scanner) : Option Issue :=
  s.following.2

lemma readAll_of_next {cursor behind : Cursor} {token : Token}
    (h : cursor.next = .ok token behind) (count : Nat) (category : Category) :
    cursor.readAll = ((Scanner.mk behind token count category).ahead,
      (Scanner.mk behind token count category).issue?) := by
  rw [Cursor.readAll_eq, h]
  by_cases hend : token.isEnd = true
  · simp [ahead, issue?, following, hend]
  · simp [ahead, issue?, following, hend]

/-- Moving past a token that is not the end either shows the next token or fails with the issue
behind the current one. -/
theorem advance_cases (s : Scanner) (hend : s.current.isEnd = false) :
    (∃ s', s.advance = .ok s'.current s' ∧ s.following = (s'.ahead, s'.issue?) ∧
      s'.count = s.count + 1 ∧ s'.category = s.category) ∨
    ∃ issue s', s.advance = .error (issue.fileUnder s.category) s' ∧
      s.following = ([], some issue) ∧ s'.current = s.current ∧ s'.count = s.count ∧
      s'.category = s.category := by
  have hfollowing : s.following = s.cursor.readAll := by simp [following, hend]
  rw [hfollowing, advance]
  cases hnext : s.cursor.next with
  | ok token behind =>
    refine .inl ⟨⟨behind, token, s.count + 1, s.category⟩, rfl, ?_, rfl, rfl⟩
    exact readAll_of_next hnext (s.count + 1) s.category
  | error issue behind =>
    refine .inr ⟨issue, { s with cursor := behind }, rfl, ?_, rfl, rfl, rfl⟩
    rw [Cursor.readAll_eq, hnext]

theorem ofSource_cases (source : String) (category : Category) :
    (∃ s, ofSource source category = .ok s ∧
      (Cursor.ofSource source).readAll = (s.ahead, s.issue?) ∧ s.count = 1 ∧
      s.category = category) ∨
    ∃ issue, ofSource source category = .error (issue.fileUnder category) ∧
      (Cursor.ofSource source).readAll = ([], some issue) := by
  unfold ofSource
  cases hnext : (Cursor.ofSource source).next with
  | ok token behind =>
    exact .inl ⟨⟨behind, token, 1, category⟩, rfl, readAll_of_next hnext 1 category, rfl, rfl⟩
  | error issue behind =>
    refine .inr ⟨issue, rfl, ?_⟩
    rw [Cursor.readAll_eq, hnext]

lemma ahead_of_isEnd {s : Scanner} (hend : s.current.isEnd = true) :
    s.ahead = [s.current] ∧ s.issue? = none := by
  simp [ahead, issue?, following, hend]

end Scanner

end ThreeAddress
