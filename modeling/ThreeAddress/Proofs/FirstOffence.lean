import Mathlib
import ThreeAddress.Proofs.TextScans

/-!
# Why a text has no tokens

Two things keep a text from being read: a character that belongs to no token, and a run of digits
that is too long. Both are said here of the text alone, by the text in front of them. A scan stays
clear of offences as long as it gives tokens, and it fails at the offence that starts first.
-/

namespace ThreeAddress

/-- A character that is no blank, no digit, no parenthesis and no operator. -/
def IsStray (c : Char) : Prop :=
  Text.isBlank c = false ∧ c.isDigit = false ∧ c ∉ ['(', ')', '+', '-', '*', '/']

/-- What a text may not contain. -/
inductive Offence where
  | character (c : Char)
  | digits (run : List Char)

namespace Offence

def message : Offence → String
  | character c => "unexpected character " ++ Text.quoted c
  | digits _ => "integer literal too long"

/-- The span of an offence, when `front` is the text in front of it. -/
def span (front : List Char) : Offence → Span
  | character _ =>
    ⟨.behind front, ⟨(Position.behind front).line, (Position.behind front).column + 1⟩⟩
  | digits run => ⟨.behind front, .behind (front ++ run)⟩

end Offence

/-- In `Offends text front o` the offence stands in the text, right behind `front`. A run of digits
is taken as a whole: no digit stands in front of it or behind it. -/
inductive Offends (text front : List Char) : Offence → Prop where
  | character {c : Char} {back : List Char} (htext : text = front ++ c :: back)
      (hstray : IsStray c) : Offends text front (.character c)
  | digits {run back : List Char} (htext : text = front ++ (run ++ back))
      (hrun : ∀ c ∈ run, c.isDigit = true) (hlength : Text.digitLimit < run.length)
      (hfront : ∀ c ∈ front.getLast?, c.isDigit = false)
      (hback : ∀ c ∈ back.head?, c.isDigit = false) : Offends text front (.digits run)

/-- Every other offence starts further on. -/
structure FirstOffence (text front : List Char) (o : Offence) : Prop where
  offends : Offends text front o
  first : ∀ front' o', Offends text front' o' →
    front' = front ∧ o' = o ∨ front.length < front'.length

lemma ofSymbol?_eq_none_iff {c : Char} :
    Operator.ofSymbol? c = none ↔ c ∉ ['+', '-', '*', '/'] := by
  unfold Operator.ofSymbol?
  rw [List.find?_eq_none]
  simp [Operator.all, Operator.symbol, eq_comm]

lemma isStray_iff_unreadable {c : Char} : IsStray c ↔ Unreadable c := by
  have hsigns : TokenKind.ofChar? c = none ↔ c ∉ ['(', ')', '+', '-', '*', '/'] := by
    unfold TokenKind.ofChar?
    by_cases hopening : c = '('
    · simp [hopening]
    · by_cases hclosing : c = ')'
      · simp [hclosing]
      · rw [if_neg hopening, if_neg hclosing, Option.map_eq_none_iff, ofSymbol?_eq_none_iff]
        simp [hopening, hclosing]
  unfold IsStray Unreadable
  rw [hsigns]
  tauto

/-- What an offence at the start of a text would be. -/
def Offence.atStart? : List Char → Option Offence
  | [] => none
  | c :: text =>
    if c.isDigit then some (.digits ((c :: text).takeWhile Char.isDigit)) else some (.character c)

namespace Offends

variable {text front front' : List Char} {o o' : Offence}

lemma front_prefix (h : Offends text front o) : front <+: text := by
  cases h with
  | character htext hstray => exact htext ▸ List.prefix_append _ _
  | digits htext hrun hlength hfront hback => exact htext ▸ List.prefix_append _ _

/-- An offence starts with a character that is no blank and no sign. -/
lemma exists_head (h : Offends text front o) :
    ∃ c, text[front.length]? = some c ∧ Text.isBlank c = false ∧ TokenKind.ofChar? c = none := by
  cases h with
  | @character c back htext hstray =>
    have hunreadable := isStray_iff_unreadable.mp hstray
    exact ⟨c, by simp [htext], hunreadable.1, hunreadable.2.1⟩
  | @digits run back htext hrun hlength hfront hback =>
    cases run with
    | nil => simp at hlength
    | cons c run =>
      have hc : c.isDigit = true := hrun c List.mem_cons_self
      exact ⟨c, by simp [htext], isBlank_eq_false_of_isDigit hc, TokenKind.ofChar?_of_isDigit hc⟩

lemma atStart?_eq (h : Offends text front o) :
    Offence.atStart? (text.drop front.length) = some o := by
  cases h with
  | @character c back htext hstray =>
    rw [htext, List.drop_left, Offence.atStart?, if_neg (by simp [hstray.2.1])]
  | @digits run back htext hrun hlength hfront hback =>
    have hspan := (span_of_run hrun hback).1
    cases run with
    | nil => simp at hlength
    | cons c run =>
      have hc : c.isDigit = true := hrun c List.mem_cons_self
      rw [List.cons_append] at htext hspan
      rw [htext, List.drop_left, Offence.atStart?, if_pos hc, hspan]

/-- One place has one offence. -/
theorem unique (h : Offends text front o) (h' : Offends text front' o')
    (hlength : front'.length = front.length) : front' = front ∧ o' = o := by
  have hfront : front' = front :=
    (List.prefix_of_prefix_length_le h'.front_prefix h.front_prefix hlength.le).eq_of_length hlength
  rw [hfront] at h'
  have ho := h'.atStart?_eq
  rw [h.atStart?_eq] at ho
  exact ⟨hfront, (Option.some.inj ho).symm⟩

end Offends

/-- No offence starts within `read`. -/
def ClearTo (text read : List Char) : Prop :=
  ∀ front o, Offends text front o → read.length ≤ front.length

lemma ClearTo.firstOffence {text front : List Char} {o : Offence} (h : ClearTo text front)
    (ho : Offends text front o) : FirstOffence text front o := by
  refine ⟨ho, ?_⟩
  intro front' o' ho'
  have hle := h front' o' ho'
  by_cases heq : front'.length = front.length
  · left
    exact ho.unique ho' heq
  · right
    omega

lemma ClearTo.append_blanks {read rest : List Char} {blanks : Blanks}
    (h : ClearTo (read ++ (blanks ++ rest)) read) :
    ClearTo (read ++ (blanks ++ rest)) (read ++ blanks) := by
  intro front o ho
  have hle := h front o ho
  by_contra hlt
  obtain ⟨c, hc, hblank, -⟩ := ho.exists_head
  rw [List.length_append] at hlt
  rw [List.getElem?_append_right hle, List.getElem?_append_left (by omega)] at hc
  rw [blanks.property c (List.mem_of_getElem? hc)] at hblank
  cases hblank

/-- What stands in front of an offence and behind `read` is no digit of the same run. -/
lemma Offends.not_within_numeral {read rest front : List Char} {o : Offence} {n : Numeral}
    (h : Offends (read ++ (n.digits ++ rest)) front o) (hle : read.length ≤ front.length)
    (hlt : front.length < read.length + n.digits.length)
    (hstop : ∀ c ∈ rest.head?, c.isDigit = false) : False := by
  cases h with
  | @character c back htext hstray =>
    have hc : (read ++ (n.digits ++ rest))[front.length]? = some c := by simp [htext]
    rw [List.getElem?_append_right hle, List.getElem?_append_left (by omega)] at hc
    have hdigit := n.isDigit c (List.mem_of_getElem? hc)
    rw [hstray.2.1] at hdigit
    cases hdigit
  | @digits run back htext hrun hlength hfront hback =>
    by_cases heq : front.length = read.length
    · -- The run starts where the numeral does, so it is the numeral, which is not too long.
      obtain ⟨-, htail⟩ := List.append_inj htext heq.symm
      have hspan := (span_of_run hrun hback).1
      rw [← htail, (span_of_run n.isDigit hstop).1] at hspan
      have hlimit := n.length_le
      rw [hspan] at hlimit
      omega
    · -- Otherwise a digit of the numeral stands right in front of the run.
      have hindex : front.length - 1 - read.length < n.digits.length := by omega
      have hlast : front.getLast? = some (n.digits.get ⟨_, hindex⟩) := by
        have hsame := congrArg (·[front.length - 1]?) htext
        rw [List.getElem?_append_right (by omega), List.getElem?_append_left hindex,
          List.getElem?_append_left (by omega)] at hsame
        rw [List.getLast?_eq_getElem?, ← hsame]
        simp
      have hdigit := n.isDigit _ (List.get_mem n.digits ⟨_, hindex⟩)
      rw [hfront _ hlast] at hdigit
      cases hdigit

lemma ClearTo.append_lexeme {read rest : List Char} {l : Lexeme}
    (h : ClearTo (read ++ (l.text ++ rest)) read)
    (hstop : l.isNumeral = true → ∀ c ∈ rest.head?, c.isDigit = false) :
    ClearTo (read ++ (l.text ++ rest)) (read ++ l.text) := by
  intro front o ho
  have hle := h front o ho
  by_contra hlt
  rw [List.length_append] at hlt
  by_cases hnumeral : l.isNumeral = true
  · cases l with
    | numeral n => exact ho.not_within_numeral hle (Nat.lt_of_not_le hlt) (hstop rfl)
    | opening | closing | operator op => cases hnumeral
  · -- The offence would start with the sign itself.
    obtain ⟨c, hc, -, hkind⟩ := ho.exists_head
    rw [List.getElem?_append_right hle, List.getElem?_append_left (by omega)] at hc
    have hsign : l.isNumeral = false := by simpa using hnumeral
    obtain ⟨d, hd⟩ := Lexeme.exists_text_eq_singleton hsign
    have hcd : c = d := by simpa [hd] using List.mem_of_getElem? hc
    rw [hcd, Lexeme.ofChar?_of_text hd hsign] at hkind
    cases hkind

lemma ClearTo.append_word {read rest : List Char} {w : Word}
    (h : ClearTo (read ++ (w.text ++ rest)) read)
    (hstop : w.lexeme.isNumeral = true → ∀ c ∈ rest.head?, c.isDigit = false) :
    ClearTo (read ++ w.text ++ rest) (read ++ w.text) := by
  rw [Word.text, List.append_assoc] at h
  have hblanks := h.append_blanks
  rw [← List.append_assoc] at hblanks
  have hlexeme := hblanks.append_lexeme hstop
  simpa [Word.text] using hlexeme

/-- A text has no offence and no issue, or the issue is that of its first offence. -/
inductive Verdict (text : List Char) : Option Issue → Prop where
  | clear (h : ∀ front o, ¬Offends text front o) : Verdict text none
  | offence {front : List Char} {o : Offence} {issue : Issue} (h : FirstOffence text front o)
      (hmessage : issue.cause.message = o.message) (hspan : issue.span = o.span front) :
      Verdict text (some issue)

lemma KeepApart.getLast?_append_blanks {read rest : List Char} {blanks : Blanks} {c : Char}
    (h : KeepApart read (blanks ++ rest)) (hrest : ∃ d ∈ rest.head?, d.isDigit = true)
    (hc : c ∈ (read ++ blanks).getLast?) : c.isDigit = false := by
  obtain hdigit | ⟨hnil, hc⟩ := Blanks.of_mem_getLast?_append hc
  · exact hdigit
  · rw [hnil, List.nil_append] at h
    obtain hread | hhead := h
    · exact hread c hc
    · obtain ⟨d, hd, hdigit⟩ := hrest
      rw [hhead d hd] at hdigit
      cases hdigit

lemma verdict_of_failed {read text : List Char} {issue : Issue} {behind : Cursor}
    (h : NextOutcome read text (.error issue behind)) (hclear : ClearTo (read ++ text) read)
    (hapart : KeepApart read text) : Verdict (read ++ text) (some issue) := by
  cases h with
  | @unexpected c rest blanks hc =>
    have hoffends : Offends (read ++ (blanks ++ c :: rest)) (read ++ blanks) (.character c) :=
      .character (List.append_assoc _ _ _).symm (isStray_iff_unreadable.mpr hc)
    exact .offence (hclear.append_blanks.firstOffence hoffends) rfl rfl
  | @tooLong digits rest blanks hdigits hlength hstop =>
    have hhead : ∃ d ∈ (digits ++ rest).head?, d.isDigit = true := by
      cases digits with
      | nil => simp at hlength
      | cons d digits => exact ⟨d, rfl, hdigits d List.mem_cons_self⟩
    have hoffends : Offends (read ++ (blanks ++ (digits ++ rest))) (read ++ blanks)
        (.digits digits) :=
      .digits (List.append_assoc _ _ _).symm hdigits hlength
        (fun c hc => hapart.getLast?_append_blanks hhead hc) hstop
    refine .offence (hclear.append_blanks.firstOffence hoffends) rfl ?_
    rw [Offence.span, List.append_assoc]

theorem Scans.verdict {read text : List Char} {tokens : List Token} {issue? : Option Issue}
    (h : Scans read text tokens issue?) (hclear : ClearTo (read ++ text) read)
    (hapart : KeepApart read text) : Verdict (read ++ text) issue? := by
  induction h with
  | @word read rest tokens issue? w hstop _ ih =>
    rw [← List.append_assoc]
    exact ih (hclear.append_word hstop) (w.keepApart read hstop)
  | @finished read blanks =>
    apply Verdict.clear
    intro front o ho
    rw [← List.append_nil blanks.val] at hclear ho
    have hle := hclear.append_blanks front o ho
    obtain ⟨c, hc, -⟩ := ho.exists_head
    rw [List.append_nil, List.getElem?_eq_none hle] at hc
    cases hc
  | failed h => exact verdict_of_failed h hclear hapart

/-- A text has no tokens exactly when it contains a stray character or a run of digits that is too
long. The issue is that of the offence which starts first: it names the character and has its span,
or it has the span of the whole run. -/
theorem tokenize_fails_at_first_offence (source : String) :
    ((∃ issue, tokenize source = .error issue) ↔ ∃ front o, Offends source.toList front o) ∧
    ∀ issue, tokenize source = .error issue →
      ∃ front o, FirstOffence source.toList front o ∧ issue.cause.message = o.message ∧
        issue.span = o.span front := by
  have hclear : ClearTo ([] ++ source.toList) [] := fun _ _ _ => Nat.zero_le _
  have hverdict : ∀ issue, tokenize source = .error issue →
      ∃ front o, FirstOffence source.toList front o ∧ issue.cause.message = o.message ∧
        issue.span = o.span front := by
    intro issue h
    obtain ⟨tokens, hscans⟩ := tokenize_eq_error_iff_scans.mp h
    cases hscans.verdict hclear (keepApart_nil _) with
    | offence hfirst hmessage hspan => exact ⟨_, _, hfirst, hmessage, hspan⟩
  refine ⟨⟨?_, ?_⟩, hverdict⟩
  · rintro ⟨issue, h⟩
    obtain ⟨front, o, hfirst, -⟩ := hverdict issue h
    exact ⟨front, o, hfirst.offends⟩
  · rintro ⟨front, o, ho⟩
    cases htokens : tokenize source with
    | error issue => exact ⟨issue, rfl⟩
    | ok tokens =>
      have hscans := tokenize_eq_ok_iff_scans.mp htokens
      cases hscans.verdict hclear (keepApart_nil _) with
      | clear hnone => exact absurd ho (hnone front o)

/-- Two stray characters: the one on the second line stands in the text too, but not first. -/
theorem tokenize_fails_at_first_offence_of_two_characters :
    Offends "1 ?\n#".toList "1 ?\n".toList (.character '#') ∧
      ∃ issue, tokenize "1 ?\n#" = .error issue ∧ issue.span = ⟨⟨1, 3⟩, ⟨1, 4⟩⟩ ∧
        ∃ front o, FirstOffence "1 ?\n#".toList front o ∧ issue.cause.message = o.message ∧
          issue.span = o.span front := by
  have htext : "1 ?\n#".toList = "1 ?\n".toList ++ ['#'] := by simp
  have hoffends : Offends "1 ?\n#".toList "1 ?\n".toList (.character '#') :=
    .character htext ⟨by decide, by decide, by decide⟩
  obtain ⟨issue, h, hspan⟩ : ∃ issue, tokenize "1 ?\n#" = .error issue ∧
      issue.span = ⟨⟨1, 3⟩, ⟨1, 4⟩⟩ := ⟨_, by cbv, by cbv⟩
  exact ⟨hoffends, issue, h, hspan, (tokenize_fails_at_first_offence _).2 issue h⟩

end ThreeAddress
