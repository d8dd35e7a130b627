import Mathlib
import ThreeAddress.Proofs.ScannerRuns

/-!
# Scans of whole texts

Reading all tokens of a text is one call after another, up to the end or to the first call that
fails. `Scans` says which words a text is taken for on the way, and `scans_iff` that it says all
there is to know about `Cursor.readAll`. What is proved about scans is proved by induction over the
words, with the text that has been read in front of them.
-/

namespace ThreeAddress

lemma Cursor.next_of_blanks_append (blanks : Blanks) {c : Char} (hc : Text.isBlank c = false)
    (rest read : List Char) :
    (Cursor.mk (blanks ++ c :: rest) (.behind read)).next =
      (Cursor.mk (c :: rest) (.behind (read ++ blanks))).lexeme := by
  have hstop : ∀ d ∈ (c :: rest).head?, Text.isBlank d = false := by simp [hc]
  rw [next, skip_of_run blanks.property hstop]

lemma Cursor.literal_of_tooLong {digits rest : List Char}
    (hdigits : ∀ c ∈ digits, c.isDigit = true) (hlength : Text.digitLimit < digits.length)
    (hstop : ∀ c ∈ rest.head?, c.isDigit = false) (read : List Char) :
    (Cursor.mk (digits ++ rest) (.behind read)).literal =
      .error ⟨.literalTooLong, .behind read, .behind (read ++ digits)⟩
        ⟨rest, .behind (read ++ digits)⟩ := by
  have hrun := (span_of_run hdigits hstop).1
  have hnone : Text.readDigits? digits = none := by
    rw [Text.readDigits?, if_neg (Nat.not_le.mpr hlength)]
  rw [literal, hrun, hnone, skip_of_run hdigits hstop]

/-- The outcomes exclude each other, so a call has the outcome that the text ahead allows. -/
theorem NextOutcome.next_eq {read text : List Char} {result : EStateM.Result Issue Cursor Token}
    (h : NextOutcome read text result) : (Cursor.mk text (.behind read)).next = result := by
  cases h with
  | word w hstop => exact Cursor.next_of_word w hstop read
  | finished blanks => exact Cursor.next_of_blanks blanks read
  | @unexpected c rest blanks hc =>
    rw [Cursor.next_of_blanks_append blanks hc.1]
    simp [Cursor.lexeme, hc.2.1, hc.2.2, Issue.unexpectedAt]
  | @tooLong digits rest blanks hdigits hlength hstop =>
    have hliteral := Cursor.literal_of_tooLong hdigits hlength hstop (read ++ blanks)
    cases digits with
    | nil => simp at hlength
    | cons d digits =>
      have hd : d.isDigit = true := hdigits d List.mem_cons_self
      rw [List.cons_append,
        Cursor.next_of_blanks_append blanks (isBlank_eq_false_of_isDigit hd), Cursor.lexeme]
      simp only [TokenKind.ofChar?_of_isDigit hd, hd, if_true]
      rw [← List.cons_append, hliteral, List.append_assoc]

/-- In `Scans read text tokens issue?` a cursor behind `read` and in front of `text` gives the
tokens, the end included, or the tokens in front of the issue. -/
inductive Scans : List Char → List Char → List Token → Option Issue → Prop where
  | word {read rest : List Char} {tokens : List Token} {issue? : Option Issue} (w : Word)
      (hstop : w.lexeme.isNumeral = true → ∀ c ∈ rest.head?, c.isDigit = false)
      (hrest : Scans (read ++ w.text) rest tokens issue?) :
      Scans read (w.text ++ rest) (w.token read :: tokens) issue?
  | finished {read : List Char} (blanks : Blanks) :
      Scans read blanks
        [⟨.endOfInput, .behind (read ++ blanks), .behind (read ++ blanks)⟩] none
  | failed {read text : List Char} {issue : Issue} {behind : Cursor}
      (h : NextOutcome read text (.error issue behind)) : Scans read text [] (some issue)

theorem Scans.readAll_eq {read text : List Char} {tokens : List Token} {issue? : Option Issue}
    (h : Scans read text tokens issue?) :
    (Cursor.mk text (.behind read)).readAll = (tokens, issue?) := by
  induction h with
  | @word read rest tokens issue? w hstop _ ih =>
    have hend : (w.token read).isEnd = false := w.lexeme.isEnd_mk_kind _
    rw [Cursor.readAll_eq, Cursor.next_of_word w hstop]
    simp [hend, ih]
  | finished blanks =>
    rw [Cursor.readAll_eq, Cursor.next_of_blanks]
    rfl
  | failed h => rw [Cursor.readAll_eq, h.next_eq]

theorem exists_scans (read text : List Char) :
    ∃ tokens issue?, Scans read text tokens issue? := by
  have houtcome := Cursor.next_outcome read text
  generalize (Cursor.mk text (.behind read)).next = result at houtcome
  cases houtcome with
  | @word rest w hstop =>
    -- A word has a character, so the induction is on the length of the text.
    have hpos : 0 < w.text.length := by
      have hlexeme := List.length_pos_of_ne_nil w.lexeme.text_ne_nil
      simp only [Word.text, List.length_append]
      omega
    obtain ⟨tokens, issue?, hrest⟩ := exists_scans (read ++ w.text) rest
    exact ⟨_, _, .word w hstop hrest⟩
  | finished blanks => exact ⟨_, _, .finished blanks⟩
  | unexpected blanks hc => exact ⟨_, _, .failed (.unexpected blanks hc)⟩
  | tooLong blanks hdigits hlength hstop =>
    exact ⟨_, _, .failed (.tooLong blanks hdigits hlength hstop)⟩
termination_by text.length

theorem scans_iff {read text : List Char} {tokens : List Token} {issue? : Option Issue} :
    Scans read text tokens issue? ↔
      (Cursor.mk text (.behind read)).readAll = (tokens, issue?) := by
  constructor
  · exact Scans.readAll_eq
  · intro h
    obtain ⟨tokens', issue?', hscans⟩ := exists_scans read text
    rw [hscans.readAll_eq] at h
    obtain ⟨rfl, rfl⟩ := Prod.mk.inj h
    exact hscans

lemma tokenize_eq_ok_iff_scans {source : String} {tokens : List Token} :
    tokenize source = .ok tokens ↔ Scans [] source.toList tokens none := by
  rw [tokenize_eq_ok_iff, scans_iff]
  rfl

lemma tokenize_eq_error_iff_scans {source : String} {issue : Issue} :
    tokenize source = .error issue ↔ ∃ tokens, Scans [] source.toList tokens (some issue) := by
  rw [tokenize_eq_error_iff]
  constructor
  · intro h
    exact ⟨scannedTokens source, scans_iff.mpr h⟩
  · rintro ⟨tokens, hscans⟩
    have hread : (Cursor.ofSource source).readAll = (tokens, some issue) := hscans.readAll_eq
    rw [scannedTokens, hread]

/-- No run of digits goes on from the first text into the second. -/
def KeepApart (text more : List Char) : Prop :=
  (∀ c ∈ text.getLast?, c.isDigit = false) ∨ ∀ c ∈ more.head?, c.isDigit = false

lemma keepApart_nil (more : List Char) : KeepApart [] more := by
  left
  simp

/-- A word keeps apart from what stops it. -/
lemma Word.keepApart (read : List Char) {rest : List Char} (w : Word)
    (hstop : w.lexeme.isNumeral = true → ∀ c ∈ rest.head?, c.isDigit = false) :
    KeepApart (read ++ w.text) rest := by
  by_cases hnumeral : w.lexeme.isNumeral = true
  · right
    exact hstop hnumeral
  · left
    intro c hc
    rw [w.getLast?_append_text] at hc
    rw [Lexeme.isDigit_of_mem_text (List.mem_of_mem_getLast? hc)]
    simpa using hnumeral

end ThreeAddress
