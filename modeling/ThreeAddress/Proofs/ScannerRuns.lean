import Mathlib
import ThreeAddress.Proofs.LexicalLayout

/-!
# Runs of a scanner

A scanner may be asked for the next token again and again, also after it has failed. `NextOutcome`
says what one call does to the text ahead, and what runs keep follows from it: the count and the
current token go with the calls that gave a token, and the position goes with the text read. A
character that starts no token stops the scanner for good; a literal that is too long does not.
-/

namespace ThreeAddress

/-- A character that is no blank and starts no token. -/
def Unreadable (c : Char) : Prop :=
  Text.isBlank c = false ∧ TokenKind.ofChar? c = none ∧ c.isDigit = false

def Issue.unexpectedAt (c : Char) (p : Position) : Issue :=
  ⟨.unexpectedCharacter c, p, p.line, p.column + 1⟩

/-- What reading a token does when `read` is behind the cursor: the text ahead, and the result with
the cursor it leaves. -/
inductive NextOutcome (read : List Char) :
    List Char → EStateM.Result Issue Cursor Token → Prop where
  | word {rest : List Char} (w : Word)
      (hstop : w.lexeme.isNumeral = true → ∀ c ∈ rest.head?, c.isDigit = false) :
      NextOutcome read (w.text ++ rest) (.ok (w.token read) ⟨rest, .behind (read ++ w.text)⟩)
  | finished (blanks : Blanks) :
      NextOutcome read blanks
        (.ok ⟨.endOfInput, .behind (read ++ blanks), .behind (read ++ blanks)⟩
          ⟨[], .behind (read ++ blanks)⟩)
  | unexpected {c : Char} {rest : List Char} (blanks : Blanks) (hc : Unreadable c) :
      NextOutcome read (blanks ++ c :: rest)
        (.error (.unexpectedAt c (.behind (read ++ blanks)))
          ⟨c :: rest, .behind (read ++ blanks)⟩)
  | tooLong {digits rest : List Char} (blanks : Blanks) (hdigits : ∀ c ∈ digits, c.isDigit = true)
      (hlength : Text.digitLimit < digits.length) (hstop : ∀ c ∈ rest.head?, c.isDigit = false) :
      NextOutcome read (blanks ++ (digits ++ rest))
        (.error
          ⟨.literalTooLong, .behind (read ++ blanks), .behind (read ++ (blanks ++ digits))⟩
          ⟨rest, .behind (read ++ (blanks ++ digits))⟩)

namespace Cursor

lemma next_of_unreadable {c : Char} (hc : Unreadable c) (rest : List Char) (p : Position) :
    (Cursor.mk (c :: rest) p).next = .error (.unexpectedAt c p) ⟨c :: rest, p⟩ := by
  obtain ⟨hblank, hkind, hdigit⟩ := hc
  simp [next, skip, lexeme, hblank, hkind, hdigit, Position.afterAll, Issue.unexpectedAt]

lemma exists_run (p : Char → Bool) (text : List Char) :
    ∃ run rest, text = run ++ rest ∧ (∀ c ∈ run, p c = true) ∧ ∀ c ∈ rest.head?, p c = false := by
  refine ⟨text.takeWhile p, text.dropWhile p, List.takeWhile_append_dropWhile.symm, ?_, ?_⟩
  · exact List.all_eq_true.mp List.all_takeWhile
  · intro c hc
    exact head?_dropWhile hc

lemma nextOutcome_of_literal {read text : List Char} {issue : Issue} {behind : Cursor}
    (blanks : Blanks)
    (h : (Cursor.mk text (.behind (read ++ blanks))).literal = .error issue behind) :
    NextOutcome read (blanks ++ text) (.error issue behind) := by
  obtain ⟨digits, rest, rfl, hdigits, hstop⟩ := exists_run Char.isDigit text
  obtain ⟨htake, -⟩ := span_of_run hdigits hstop
  rw [literal, htake, skip_of_run hdigits hstop, List.append_assoc, Text.readDigits?] at h
  by_cases hlength : digits.length ≤ Text.digitLimit
  · rw [if_pos hlength] at h
    cases h
  · rw [if_neg hlength] at h
    obtain ⟨rfl, rfl⟩ := EStateM.Result.error.inj h
    exact .tooLong blanks hdigits (Nat.lt_of_not_le hlength) hstop

theorem next_outcome (read text : List Char) :
    NextOutcome read text (Cursor.mk text (.behind read)).next := by
  cases hnext : (Cursor.mk text (.behind read)).next with
  | ok token behind =>
    obtain ⟨-, htext⟩ | ⟨-, w, htext, hstop⟩ := next_cases hnext
    · generalize (Cursor.mk text (.behind read)).blanks = blanks at htext
      obtain rfl : text = blanks := htext
      rw [next_of_blanks] at hnext
      obtain ⟨rfl, rfl⟩ := EStateM.Result.ok.inj hnext
      exact .finished blanks
    · obtain rfl : text = w.text ++ behind.rest := htext
      rw [next_of_word w hstop] at hnext
      obtain ⟨rfl, hbehind⟩ := EStateM.Result.ok.inj hnext
      rw [← hbehind] at hstop ⊢
      exact .word w hstop
  | error issue behind =>
    obtain ⟨blanks, rest, rfl, hblanks, hstop⟩ := exists_run Text.isBlank text
    rw [next, skip_of_run hblanks hstop] at hnext
    cases rest with
    | nil => cases hnext
    | cons c rest =>
      simp only [lexeme] at hnext
      cases hkind : TokenKind.ofChar? c with
      | some kind =>
        rw [hkind] at hnext
        cases hnext
      | none =>
        simp only [hkind] at hnext
        by_cases hdigit : c.isDigit = true
        · rw [if_pos hdigit] at hnext
          exact nextOutcome_of_literal ⟨blanks, hblanks⟩ hnext
        · rw [if_neg hdigit] at hnext
          obtain ⟨rfl, rfl⟩ := EStateM.Result.error.inj hnext
          have hc : Unreadable c := ⟨hstop c rfl, hkind, Bool.eq_false_iff.mpr hdigit⟩
          exact .unexpected ⟨blanks, hblanks⟩ hc

end Cursor

namespace Scanner

/-- The scanner has read `read` off the source: the rest is ahead of it, and it stands behind
`read`. On the end nothing is ahead. -/
structure Tracks (source : String) (read : List Char) (s : Scanner) : Prop where
  text : source.toList = read ++ s.cursor.rest
  position : s.cursor.position = .behind read
  finished : s.current.isEnd = true →
    s.cursor.rest = [] ∧ s.current = ⟨.endOfInput, .behind read, .behind read⟩

/-- The answer to a call and the scanner it leaves. -/
def call (s : Scanner) : Except Diagnostic Token × Scanner :=
  match s.advance with
  | .ok token s' => (.ok token, s')
  | .error d s' => (.error d, s')

/-- The answers to a number of calls, in order, and the scanner they leave. -/
def calls : Nat → Scanner → List (Except Diagnostic Token) × Scanner
  | 0, s => ([], s)
  | n + 1, s => (s.call.1 :: (calls n s.call.2).1, (calls n s.call.2).2)

/-- The tokens among the answers. -/
def returned (answers : List (Except Diagnostic Token)) : List Token :=
  answers.filterMap Except.toOption

variable {source : String} {read : List Char}

lemma advance_eq_ok {s u : Scanner} {token : Token} (h : s.advance = .ok token u) :
    ∃ cursor, s.cursor.next = .ok token cursor ∧ u = ⟨cursor, token, s.count + 1, s.category⟩ := by
  unfold advance at h
  cases hnext : s.cursor.next with
  | ok token' cursor =>
    rw [hnext] at h
    obtain ⟨rfl, rfl⟩ := EStateM.Result.ok.inj h
    exact ⟨cursor, rfl, rfl⟩
  | error issue cursor =>
    rw [hnext] at h
    cases h

lemma advance_eq_error {s u : Scanner} {d : Diagnostic} (h : s.advance = .error d u) :
    ∃ issue cursor, s.cursor.next = .error issue cursor ∧ d = issue.fileUnder s.category ∧
      u = { s with cursor } := by
  unfold advance at h
  cases hnext : s.cursor.next with
  | ok token cursor =>
    rw [hnext] at h
    cases h
  | error issue cursor =>
    rw [hnext] at h
    obtain ⟨rfl, rfl⟩ := EStateM.Result.error.inj h
    exact ⟨issue, cursor, rfl, rfl, rfl⟩

/-- The calls that gave a token are counted, and the last token given is current. -/
theorem account_calls (n : Nat) (s : Scanner) :
    (s.calls n).2.count = s.count + (returned (s.calls n).1).length ∧
      (s.calls n).2.current = (returned (s.calls n).1).getLastD s.current := by
  induction n generalizing s with
  | zero => exact ⟨rfl, rfl⟩
  | succ n ih =>
    cases hadvance : s.advance with
    | ok token u =>
      obtain ⟨cursor, -, rfl⟩ := advance_eq_ok hadvance
      obtain ⟨hcount, hcurrent⟩ := ih ⟨cursor, token, s.count + 1, s.category⟩
      simp only [calls, call, hadvance, returned, List.filterMap_cons, Except.toOption]
      rw [List.length_cons, List.getLastD_cons]
      dsimp only [returned] at hcount hcurrent
      exact ⟨by omega, hcurrent⟩
    | error d u =>
      obtain ⟨issue, cursor, -, -, rfl⟩ := advance_eq_error hadvance
      simp only [calls, call, hadvance, returned, List.filterMap_cons, Except.toOption]
      exact ih { s with cursor }

/-- A token that was read leaves a scanner that has read the token's text. -/
lemma exists_tracks_of_nextOutcome {text : List Char} {token : Token} {cursor : Cursor}
    (h : NextOutcome read text (.ok token cursor)) (hsource : source.toList = read ++ text)
    (count : Nat) (category : Category) :
    ∃ more, Tracks source (read ++ more) ⟨cursor, token, count, category⟩ := by
  cases h with
  | @word rest w hstop =>
    refine ⟨w.text, ?_, rfl, ?_⟩
    · rw [hsource, List.append_assoc]
    · intro hend
      rw [Word.token, Lexeme.isEnd_mk_kind] at hend
      cases hend
  | finished blanks =>
    refine ⟨blanks, ?_, rfl, fun _ => ⟨rfl, rfl⟩⟩
    rw [hsource, List.append_nil]

theorem exists_tracks_of_ofSource {category : Category} {s : Scanner}
    (h : ofSource source category = .ok s) : s.count = 1 ∧ ∃ read, s.Tracks source read := by
  have houtcome := Cursor.next_outcome [] source.toList
  change NextOutcome [] source.toList (Cursor.ofSource source).next at houtcome
  unfold ofSource at h
  cases hnext : (Cursor.ofSource source).next with
  | ok token cursor =>
    rw [hnext] at h houtcome
    obtain rfl := Except.ok.inj h
    exact ⟨rfl, exists_tracks_of_nextOutcome houtcome rfl 1 category⟩
  | error issue cursor =>
    rw [hnext] at h
    cases h

namespace Tracks

variable {s : Scanner}

lemma nextOutcome (h : s.Tracks source read) : NextOutcome read s.cursor.rest s.cursor.next := by
  have houtcome := Cursor.next_outcome read s.cursor.rest
  rwa [← h.position] at houtcome

lemma advance_of_isEnd (h : s.Tracks source read) (hend : s.current.isEnd = true) :
    s.advance = .ok s.current { s with count := s.count + 1 } := by
  obtain ⟨hrest, hcurrent⟩ := h.finished hend
  have hcursor : s.cursor = ⟨[], .behind read⟩ := by rw [← hrest, ← h.position]
  have hnext : s.cursor.next = .ok s.current s.cursor := by
    rw [hcursor, hcurrent]
    rfl
  rw [advance, hnext]

/-- A failing call moves the cursor only. A character that starts no token stays ahead, and a run of
digits that is too long does not. -/
lemma of_error {d : Diagnostic} {u : Scanner} (h : s.Tracks source read)
    (hadvance : s.advance = .error d u) :
    u = { s with cursor := u.cursor } ∧
    ((∃ (blanks : Blanks) (c : Char) (rest : List Char), Unreadable c ∧
        u.Tracks source (read ++ blanks) ∧ u.cursor.rest = c :: rest ∧
        d = (Issue.unexpectedAt c u.cursor.position).fileUnder s.category) ∨
      ∃ (blanks : Blanks) (digits : List Char), (∀ c ∈ digits, c.isDigit = true) ∧
        Text.digitLimit < digits.length ∧ u.Tracks source (read ++ (blanks ++ digits)) ∧
        (∀ c ∈ u.cursor.rest.head?, c.isDigit = false) ∧
        d = Issue.fileUnder ⟨.literalTooLong, .behind (read ++ blanks), u.cursor.position⟩
          s.category) := by
  have hcurrent : ¬s.current.isEnd = true := by
    intro hend
    rw [h.advance_of_isEnd hend] at hadvance
    cases hadvance
  obtain ⟨issue, cursor, hnext, rfl, rfl⟩ := advance_eq_error hadvance
  have houtcome := h.nextOutcome
  have hsource := h.text
  rw [hnext] at houtcome
  generalize s.cursor.rest = text at houtcome hsource
  refine ⟨rfl, ?_⟩
  cases houtcome with
  | @unexpected c rest blanks hc =>
    refine .inl ⟨blanks, c, rest, hc, ⟨?_, rfl, fun hend => absurd hend hcurrent⟩, rfl, rfl⟩
    rw [hsource, List.append_assoc]
  | @tooLong digits rest blanks hdigits hlength hstop =>
    refine .inr ⟨blanks, digits, hdigits, hlength,
      ⟨?_, rfl, fun hend => absurd hend hcurrent⟩, hstop, rfl⟩
    rw [hsource, List.append_assoc, List.append_assoc]

lemma exists_call (h : s.Tracks source read) : ∃ more, s.call.2.Tracks source (read ++ more) := by
  unfold call
  cases hadvance : s.advance with
  | ok token u =>
    obtain ⟨cursor, hnext, rfl⟩ := advance_eq_ok hadvance
    have houtcome := h.nextOutcome
    rw [hnext] at houtcome
    exact exists_tracks_of_nextOutcome houtcome h.text (s.count + 1) s.category
  | error d u =>
    obtain ⟨-, ⟨blanks, c, rest, -, htracks, -⟩ | ⟨blanks, digits, -, -, htracks, -⟩⟩ :=
      h.of_error hadvance
    · exact ⟨blanks, htracks⟩
    · exact ⟨blanks ++ digits, htracks⟩

theorem exists_calls (h : s.Tracks source read) (n : Nat) :
    ∃ more, (s.calls n).2.Tracks source (read ++ more) := by
  induction n generalizing s read with
  | zero => exact ⟨[], (List.append_nil read).symm ▸ h⟩
  | succ n ih =>
    obtain ⟨more, hcall⟩ := h.exists_call
    obtain ⟨more', hcalls⟩ := ih hcall
    exact ⟨more ++ more', List.append_assoc read more more' ▸ hcalls⟩

/-- On the end every call gives the end again. -/
theorem calls_of_isEnd (h : s.Tracks source read) (hend : s.current.isEnd = true) (n : Nat) :
    s.calls n = (List.replicate n (.ok s.current), { s with count := s.count + n }) := by
  induction n generalizing s with
  | zero => rfl
  | succ n ih =>
    have hcall : s.call = (.ok s.current, { s with count := s.count + 1 }) := by
      rw [call, h.advance_of_isEnd hend]
    have hrest := ih (s := { s with count := s.count + 1 }) ⟨h.text, h.position, h.finished⟩ hend
    rw [calls, hcall, hrest, List.replicate_succ, Nat.add_right_comm, Nat.add_assoc]

end Tracks

/-- A scanner in front of a character that starts no token stays there. -/
theorem calls_of_unreadable {s : Scanner} {c : Char} {rest : List Char} (hc : Unreadable c)
    (hrest : s.cursor.rest = c :: rest) (n : Nat) :
    s.calls n =
      (List.replicate n
        (.error ((Issue.unexpectedAt c s.cursor.position).fileUnder s.category)), s) := by
  have hnext := Cursor.next_of_unreadable hc rest s.cursor.position
  rw [← hrest] at hnext
  have hcall : s.call =
      (.error ((Issue.unexpectedAt c s.cursor.position).fileUnder s.category), s) := by
    rw [call, advance, hnext]
  induction n with
  | zero => rfl
  | succ n ih => rw [calls, hcall, ih, List.replicate_succ]

/-- What a scanner of a source text keeps over any number of calls, failing ones included. The count
and the current token follow the calls that gave a token. The position is the one behind the text
read, which only grows. A failing call moves the cursor alone. If it met a character that starts no
token, all later calls fail alike; if it met a literal that is too long, the scanner is behind the
digits. On the end all calls give the end and are counted. -/
theorem calls_keep_account {category : Category} {s t : Scanner} {n : Nat}
    {answers : List (Except Diagnostic Token)} (h : ofSource source category = .ok s)
    (hcalls : s.calls n = (answers, t)) :
    t.count = 1 + (returned answers).length ∧
    t.current = (returned answers).getLastD s.current ∧
    ∃ read, t.Tracks source read ∧
      (∀ m, ∃ more, (t.calls m).2.Tracks source (read ++ more)) ∧
      (∀ d u, t.advance = .error d u → u = { t with cursor := u.cursor } ∧
        ((∃ (blanks : Blanks) (c : Char),
            d = (Issue.unexpectedAt c u.cursor.position).fileUnder t.category ∧
            u.Tracks source (read ++ blanks) ∧ c ∈ u.cursor.rest.head? ∧
            ∀ m, u.calls m = (List.replicate m (.error d), u)) ∨
          ∃ (blanks : Blanks) (digits : List Char),
            d = Issue.fileUnder ⟨.literalTooLong, .behind (read ++ blanks), u.cursor.position⟩
              t.category ∧
            u.Tracks source (read ++ (blanks ++ digits)) ∧
            (∀ c ∈ digits, c.isDigit = true) ∧ Text.digitLimit < digits.length ∧
            ∀ c ∈ u.cursor.rest.head?, c.isDigit = false)) ∧
      (t.current.isEnd = true → ∀ m,
        t.calls m = (List.replicate m (.ok t.current), { t with count := t.count + m })) := by
  obtain ⟨hcount, hcurrent⟩ := account_calls n s
  obtain ⟨hone, start, hstart⟩ := exists_tracks_of_ofSource h
  obtain ⟨more, htracks⟩ := hstart.exists_calls n
  rw [hcalls] at hcount hcurrent htracks
  rw [hone] at hcount
  refine ⟨hcount, hcurrent, start ++ more, htracks, htracks.exists_calls, ?_,
    htracks.calls_of_isEnd⟩
  intro d u hadvance
  obtain ⟨hkept, ⟨blanks, c, rest, hc, hmoved, hrest, hd⟩ |
    ⟨blanks, digits, hdigits, hlength, hmoved, hstop, hd⟩⟩ := htracks.of_error hadvance
  · refine ⟨hkept, .inl ⟨blanks, c, hd, hmoved, by simp [hrest], ?_⟩⟩
    intro m
    have hcategory : u.category = t.category := by rw [hkept]
    rw [calls_of_unreadable hc hrest, hcategory, ← hd]
  · exact ⟨hkept, .inr ⟨blanks, digits, hd, hmoved, hdigits, hlength, hstop⟩⟩

/-- A stray character on the second line: the token in front of it stays current and counted. -/
theorem calls_keep_account_of_stray_character :
    ∃ s t d u answers, ofSource "7+\n @1" .badSource = .ok s ∧ s.calls 1 = (answers, t) ∧
      t.count = 1 + (returned answers).length ∧
      t.current = (returned answers).getLastD s.current ∧ t.advance = .error d u ∧
      d.cause = .unexpectedCharacter '@' ∧ d.span.start = ⟨2, 2⟩ ∧
      u = { t with cursor := u.cursor } ∧
      ∀ m, u.calls m = (List.replicate m (.error d), u) := by
  obtain ⟨s, h, answers, t, hcalls, d, u, hadvance, hcause, hspan⟩ :
      ∃ s, ofSource "7+\n @1" .badSource = .ok s ∧ ∃ answers t, s.calls 1 = (answers, t) ∧
        ∃ d u, t.advance = .error d u ∧ d.cause = .unexpectedCharacter '@' ∧
          d.span.start = ⟨2, 2⟩ :=
    ⟨_, by cbv, _, _, by cbv, _, _, by cbv, by decide, by decide⟩
  obtain ⟨hcount, hcurrent, read, -, -, hfails, -⟩ := calls_keep_account h hcalls
  obtain ⟨hkept, ⟨_, _, _, _, _, hstuck⟩ | ⟨_, _, hd, _⟩⟩ := hfails d u hadvance
  · exact ⟨s, t, d, u, answers, h, hcalls, hcount, hcurrent, hadvance, hcause, hspan, hkept,
      hstuck⟩
  · rw [hd] at hcause
    cases hcause

end Scanner

end ThreeAddress
