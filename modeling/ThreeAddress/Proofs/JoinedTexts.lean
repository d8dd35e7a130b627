import Mathlib
import ThreeAddress.Proofs.TextScans

/-!
# Tokens of joined texts

Two texts that no run of digits joins can be read one after the other. The tokens of the second are
then those that it has on its own, at places that count on from the end of the first. Blanks at the
seam are no obstacle: those that end the first text and those that begin the second are skipped in
one go, and that makes no difference (`Scans.blanks_append`).
-/

namespace ThreeAddress

namespace Position

/-- The place `p` of a text, when the text starts at `origin` instead of the first line and column.
Only the first line has something in front of it. -/
def moved (origin p : Position) : Position :=
  ⟨p.line + origin.line - 1,
    if p.line = 1 then p.column + origin.column - 1 else p.column⟩

lemma after_moved (origin : Position) {p : Position} (hp : 1 ≤ p.line) (c : Char) :
    (moved origin p).after c = moved origin (p.after c) := by
  unfold after moved
  by_cases hc : c = '\n'
  · have hline : p.line + 1 ≠ 1 := by omega
    simp only [hc, if_true, if_neg hline, Position.mk.injEq, and_true]
    omega
  · by_cases hline : p.line = 1
    · simp only [hc, hline, if_true, if_false, Position.mk.injEq, true_and]
      omega
    · simp only [hc, hline, if_false]

lemma one_le_line_behind (text : List Char) : 1 ≤ (behind text).line := by
  unfold behind
  dsimp only
  omega

theorem moved_behind (front text : List Char) :
    moved (behind front) (behind text) = behind (front ++ text) := by
  induction text using List.reverseRecOn with
  | nil => simp [moved, behind]
  | append_singleton text c ih =>
    rw [← after_behind, ← after_moved _ (one_le_line_behind text), ih, after_behind,
      List.append_assoc]

end Position

def Span.moved (origin : Position) (s : Span) : Span :=
  ⟨.moved origin s.start, .moved origin s.stop⟩

def Token.moved (origin : Position) (t : Token) : Token :=
  { t with span := t.span.moved origin }

def Issue.moved (origin : Position) (issue : Issue) : Issue :=
  { issue with span := issue.span.moved origin }

variable {front read text more back : List Char} {tokens : List Token} {issue : Issue}
  {issue? : Option Issue}

lemma Word.token_append (w : Word) :
    w.token (front ++ read) = (w.token read).moved (.behind front) := by
  simp only [token, Token.moved, Span.moved, Position.moved_behind, List.append_assoc]

lemma Issue.unexpectedAt_moved (c : Char) (p origin : Position) :
    (unexpectedAt c p).moved origin = unexpectedAt c (.moved origin p) := by
  unfold unexpectedAt moved Span.moved Position.moved
  by_cases hline : p.line = 1
  · simp only [hline, if_true, Issue.mk.injEq, Span.mk.injEq, Position.mk.injEq, true_and]
    omega
  · simp only [hline, if_false]

lemma NextOutcome.moved {behind : Cursor} (h : NextOutcome read text (.error issue behind))
    (front : List Char) :
    ∃ behind', NextOutcome (front ++ read) text (.error (issue.moved (.behind front)) behind') := by
  cases h with
  | @unexpected c rest blanks hc =>
    rw [Issue.unexpectedAt_moved, Position.moved_behind, ← List.append_assoc]
    exact ⟨_, .unexpected blanks hc⟩
  | @tooLong digits rest blanks hdigits hlength hstop =>
    simp only [Issue.moved, Span.moved, Position.moved_behind]
    rw [← List.append_assoc front, ← List.append_assoc front]
    exact ⟨_, .tooLong blanks hdigits hlength hstop⟩

/-- More text in front moves all places and changes nothing else. -/
theorem Scans.moved (h : Scans read text tokens issue?) (front : List Char) :
    Scans (front ++ read) text (tokens.map (Token.moved (.behind front)))
      (issue?.map (Issue.moved (.behind front))) := by
  induction h with
  | @word read rest tokens issue? w hstop _ ih =>
    rw [← List.append_assoc] at ih
    rw [List.map_cons, ← w.token_append]
    exact .word w hstop ih
  | @finished read blanks =>
    simp only [List.map_singleton, Token.moved, Span.moved, Position.moved_behind]
    rw [← List.append_assoc]
    exact .finished blanks
  | failed h =>
    obtain ⟨behind', houtcome⟩ := h.moved front
    exact .failed houtcome

def Blanks.append (first second : Blanks) : Blanks :=
  ⟨first ++ second, List.forall_mem_append.mpr ⟨first.property, second.property⟩⟩

lemma NextOutcome.blanks_append {blanks : Blanks} {behind : Cursor}
    (h : NextOutcome (read ++ blanks) text (.error issue behind)) :
    NextOutcome read (blanks ++ text) (.error issue behind) := by
  cases h with
  | @unexpected c rest more hc =>
    rw [← List.append_assoc, List.append_assoc read]
    exact .unexpected (blanks.append more) hc
  | @tooLong digits rest more hdigits hlength hstop =>
    simp only [List.append_assoc]
    rw [← List.append_assoc blanks.val more.val digits, ← List.append_assoc blanks.val more.val]
    exact .tooLong (blanks.append more) hdigits hlength hstop

/-- Blanks in front of a text may be skipped before it is read, or together with its own. -/
theorem Scans.blanks_append {blanks : Blanks} (h : Scans (read ++ blanks) text tokens issue?) :
    Scans read (blanks ++ text) tokens issue? := by
  cases h with
  | @word _ rest tokens _ w hstop hrest =>
    have hword : (Word.mk (blanks.append w.blanks) w.lexeme).text = blanks ++ w.text :=
      List.append_assoc _ _ _
    have htoken : w.token (read ++ blanks) =
        (Word.mk (blanks.append w.blanks) w.lexeme).token read := by
      simp [Word.token, Word.text, Blanks.append]
    rw [List.append_assoc, ← hword] at hrest
    rw [← List.append_assoc, ← hword, htoken]
    exact .word _ hstop hrest
  | finished more =>
    rw [List.append_assoc]
    exact .finished (blanks.append more)
  | failed h => exact .failed h.blanks_append

lemma KeepApart.of_append (h : KeepApart (text ++ more) back) : KeepApart more back := by
  obtain hlast | hhead := h
  · left
    intro c hc
    apply hlast
    rw [List.getLast?_append, Option.mem_def.mp hc]
    rfl
  · right
    exact hhead

/-- What stops a run of digits stops it also with a text behind it that keeps apart. -/
lemma KeepApart.head?_append {c : Char} (h : KeepApart (text ++ more) back)
    (hc : c ∈ text.getLast?) (hdigit : c.isDigit = true)
    (hstop : ∀ d ∈ more.head?, d.isDigit = false) :
    ∀ d ∈ (more ++ back).head?, d.isDigit = false := by
  cases more with
  | cons d more => exact hstop
  | nil =>
    rw [List.append_nil] at h
    obtain hlast | hhead := h
    · rw [hlast c hc] at hdigit
      cases hdigit
    · exact hhead

lemma KeepApart.word_stop {w : Word} (h : KeepApart (w.text ++ more) back)
    (hstop : w.lexeme.isNumeral = true → ∀ c ∈ more.head?, c.isDigit = false) :
    w.lexeme.isNumeral = true → ∀ c ∈ (more ++ back).head?, c.isDigit = false := by
  intro hnumeral
  have hlast := w.getLast?_append_text []
  rw [List.nil_append, List.getLast?_eq_some_getLast w.lexeme.text_ne_nil] at hlast
  have hdigit := Lexeme.isDigit_of_mem_text (List.getLast_mem w.lexeme.text_ne_nil)
  exact h.head?_append hlast (hdigit.trans hnumeral) (hstop hnumeral)

lemma NextOutcome.append {behind : Cursor} (h : NextOutcome read text (.error issue behind))
    (hapart : KeepApart text back) :
    ∃ behind', NextOutcome read (text ++ back) (.error issue behind') := by
  cases h with
  | @unexpected c rest blanks hc =>
    rw [List.append_assoc]
    exact ⟨_, .unexpected blanks hc⟩
  | @tooLong digits rest blanks hdigits hlength hstop =>
    have hne : digits ≠ [] := List.ne_nil_of_length_pos (Nat.zero_lt_of_lt hlength)
    have hlast := List.getLast?_eq_some_getLast hne
    have hstop' := hapart.of_append.head?_append hlast (hdigits _ (List.getLast_mem hne)) hstop
    rw [List.append_assoc, List.append_assoc]
    exact ⟨_, .tooLong blanks hdigits hlength hstop'⟩

theorem Scans.append_of_some (h : Scans read text tokens (some issue))
    (hapart : KeepApart text back) : Scans read (text ++ back) tokens (some issue) := by
  generalize hissue : some issue = issue? at h
  induction h with
  | word w hstop _ ih =>
    rw [List.append_assoc]
    exact .word w (hapart.word_stop hstop) (ih hapart.of_append hissue)
  | finished blanks => cases hissue
  | failed h =>
    cases hissue
    obtain ⟨behind', houtcome⟩ := h.append hapart
    exact .failed houtcome

/-- A scan that ends goes on with the scan of what follows, in place of its last token. -/
theorem Scans.append_of_none (h : Scans read text tokens none) (hapart : KeepApart text back) :
    ∃ front, tokens = front ++ [⟨.endOfInput, .behind (read ++ text), .behind (read ++ text)⟩] ∧
      ∀ tokens' issue?, Scans (read ++ text) back tokens' issue? →
        Scans read (text ++ back) (front ++ tokens') issue? := by
  generalize hissue : none = issue? at h
  induction h with
  | @word read rest tokens issue? w hstop _ ih =>
    obtain ⟨front, rfl, hback⟩ := ih hapart.of_append hissue
    refine ⟨w.token read :: front, by simp, ?_⟩
    intro tokens' issue?' hscans
    rw [← List.append_assoc] at hscans
    rw [List.append_assoc, List.cons_append]
    exact .word w (hapart.word_stop hstop) (hback tokens' issue?' hscans)
  | finished blanks =>
    refine ⟨[], rfl, ?_⟩
    intro tokens' issue?' hscans
    exact hscans.blanks_append
  | failed h => cases hissue

/-- What is read from two texts that keep apart, when they are joined. An issue of the first is the
issue of both. Otherwise the tokens of the second, or its issue, take the place of the first one's
end, moved on by the position of that end. -/
theorem tokenize_append {a b : String} (h : KeepApart a.toList b.toList) :
    (∀ issue, tokenize a = .error issue → tokenize (a ++ b) = .error issue) ∧
    ∀ tokens, tokenize a = .ok tokens →
      ∃ front last, tokens = front ++ [last] ∧ last.kind = .endOfInput ∧
        (∀ more, tokenize b = .ok more →
          tokenize (a ++ b) = .ok (front ++ more.map (Token.moved last.span.start))) ∧
        ∀ issue, tokenize b = .error issue →
          tokenize (a ++ b) = .error (issue.moved last.span.start) := by
  constructor
  · intro issue ha
    obtain ⟨tokens, hscans⟩ := tokenize_eq_error_iff_scans.mp ha
    have hjoined := hscans.append_of_some h
    rw [← String.toList_append] at hjoined
    exact tokenize_eq_error_iff_scans.mpr ⟨tokens, hjoined⟩
  · intro tokens ha
    obtain ⟨front, rfl, hback⟩ := (tokenize_eq_ok_iff_scans.mp ha).append_of_none h
    rw [← String.toList_append] at hback
    refine ⟨front, _, rfl, rfl, ?_, ?_⟩
    · intro more hb
      have hmoved := (tokenize_eq_ok_iff_scans.mp hb).moved a.toList
      rw [List.append_nil] at hmoved
      exact tokenize_eq_ok_iff_scans.mpr (hback _ _ hmoved)
    · intro issue hb
      obtain ⟨more, hscans⟩ := tokenize_eq_error_iff_scans.mp hb
      have hmoved := hscans.moved a.toList
      rw [List.append_nil] at hmoved
      exact tokenize_eq_error_iff_scans.mpr ⟨_, hback _ _ hmoved⟩

/-- A text that ends on its second line, followed by a text that can be read and by one that cannot:
what stands on the first line of the second text is moved to the right. -/
theorem tokenize_append_of_line_break :
    KeepApart "1+\n ".toList "2\n*".toList ∧ KeepApart "1+\n ".toList "$".toList ∧
      ∃ front last more issue, tokenize "1+\n " = .ok (front ++ [last]) ∧
        last.span.start = ⟨2, 2⟩ ∧ tokenize "2\n*" = .ok more ∧
        tokenize ("1+\n " ++ "2\n*") = .ok (front ++ more.map (Token.moved ⟨2, 2⟩)) ∧
        tokenize "$" = .error issue ∧ issue.span = ⟨⟨1, 1⟩, ⟨1, 2⟩⟩ ∧
        tokenize ("1+\n " ++ "$") = .error ⟨issue.cause, ⟨⟨2, 2⟩, ⟨2, 3⟩⟩⟩ := by
  have hmore : KeepApart "1+\n ".toList "2\n*".toList := .inl (by simp)
  have hstray : KeepApart "1+\n ".toList "$".toList := .inl (by simp)
  obtain ⟨tokens, htokens, hend⟩ : ∃ tokens, tokenize "1+\n " = .ok tokens ∧
      tokens.getLast?.map (·.span.start) = some ⟨2, 2⟩ := ⟨_, by cbv, by cbv⟩
  obtain ⟨more, hb⟩ : ∃ more, tokenize "2\n*" = .ok more := ⟨_, by cbv⟩
  obtain ⟨issue, hc, hspan⟩ : ∃ issue, tokenize "$" = .error issue ∧
      issue.span = ⟨⟨1, 1⟩, ⟨1, 2⟩⟩ := ⟨_, by cbv, by cbv⟩
  obtain ⟨front, last, rfl, -, hjoined, -⟩ := (tokenize_append hmore).2 tokens htokens
  obtain ⟨front', last', heq, -, -, hfails⟩ := (tokenize_append hstray).2 _ htokens
  obtain ⟨rfl, hlast⟩ := List.append_inj' heq rfl
  obtain rfl := List.singleton_inj.mp hlast
  have hstart : last.span.start = ⟨2, 2⟩ := by simpa using hend
  refine ⟨hmore, hstray, front, last, more, issue, htokens, hstart, hb, ?_, hc, hspan, ?_⟩
  · rw [hjoined more hb, hstart]
  · rw [hfails issue hc, hstart, Issue.moved, hspan]
    rfl

end ThreeAddress
