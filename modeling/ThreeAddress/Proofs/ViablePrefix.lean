import Mathlib
import ThreeAddress.Proofs.PendingPhrases

/-!
# Where an error is reported

The outline of a list of tokens says how many parentheses it leaves open and whether an operand is
due behind it. Only the beginnings of sums have an outline, so a token that the outline in front of
it does not allow is the first that no sum continues with. Failures of the grammar are reported at
that token, and a lexical failure only when there is no such token in front of it.
-/

open ThreeAddress.Parser

namespace ThreeAddress

/-- Some sum begins with these kinds. -/
def Viable (kinds : List TokenKind) : Prop :=
  ∃ more t, Derives .sum (kinds ++ more) t

structure Outline where
  depth : Nat
  operandDue : Bool
deriving DecidableEq, Repr

namespace Outline

def next : Outline → TokenKind → Option Outline
  | ⟨depth, true⟩, .number _ => some ⟨depth, false⟩
  | ⟨depth, true⟩, .opening => some ⟨depth + 1, true⟩
  | ⟨depth, false⟩, .operator _ => some ⟨depth, true⟩
  | ⟨depth + 1, false⟩, .closing => some ⟨depth, false⟩
  | _, _ => none

def behind (outline : Outline) (kinds : List TokenKind) : Option Outline :=
  kinds.foldlM next outline

lemma behind_append (outline : Outline) (kinds more : List TokenKind) :
    outline.behind (kinds ++ more) = (outline.behind kinds).bind (behind · more) :=
  List.foldlM_append

lemma behind_singleton (outline : Outline) (kind : TokenKind) :
    outline.behind [kind] = outline.next kind := by
  simp [behind]

end Outline

/-- A phrase takes the place of an operand. -/
theorem Derives.behind_eq {rank : Rank} {kinds : List TokenKind} {t : Term}
    (h : Derives rank kinds t) (depth : Nat) :
    Outline.behind ⟨depth, true⟩ kinds = some ⟨depth, false⟩ := by
  induction h generalizing depth with
  | number value => rfl
  | group _ ih =>
    have hinner := ih (depth + 1)
    rw [List.cons_append, ← List.singleton_append, Outline.behind_append, Outline.behind_singleton]
    rw [Outline.next, Option.bind_some, Outline.behind_append, hinner, Option.bind_some,
      Outline.behind_singleton, Outline.next]
  | ofOperand _ ih => exact ih depth
  | ofProduct _ ih => exact ih depth
  | extendProduct _ _ _ ihl ihr =>
    rw [Outline.behind_append, ihl, Option.bind_some, ← List.singleton_append,
      Outline.behind_append, Outline.behind_singleton, Outline.next, Option.bind_some, ihr]
  | extendSum _ _ _ ihl ihr =>
    rw [Outline.behind_append, ihl, Option.bind_some, ← List.singleton_append,
      Outline.behind_append, Outline.behind_singleton, Outline.next, Option.bind_some, ihr]

lemma not_viable_of_behind_eq_none {kinds : List TokenKind}
    (h : Outline.behind ⟨0, true⟩ kinds = none) : ¬Viable kinds := by
  rintro ⟨more, t, hderives⟩
  have hsome := hderives.behind_eq 0
  rw [Outline.behind_append, h, Option.bind_none] at hsome
  cases hsome

namespace Parser

def openGroups : List Frame → Nat
  | [] => 0
  | .group :: stack => openGroups stack + 1
  | .operation _ _ _ :: stack => openGroups stack

def Task.outline : Task → Outline
  | ⟨stack, .operand⟩ => ⟨openGroups stack, true⟩
  | ⟨stack, .complete _⟩ => ⟨openGroups stack, false⟩

lemma Takes.next_outline {task task' : Task} {token : Token} (h : Takes task token task') :
    task.outline.next token.kind = some task'.outline := by
  cases h with
  | literal hkind | opening hkind | operator hkind _ | closing hkind =>
    rw [hkind]
    rfl

lemma Proceeds.behind_outline {task task' : Task} {p p' : Parser} {taken : List Token}
    (h : Proceeds task p taken task' p') :
    task.outline.behind (taken.map Token.kind) = some task'.outline := by
  cases h with
  | take htakes hadvance hdepth =>
    rw [List.map_singleton, Outline.behind_singleton]
    exact htakes.next_outline
  | join hlook hheight => rfl

theorem Reaches.behind_outline {task task' : Task} {p p' : Parser} {taken : List Token}
    (h : Reaches task p taken task' p') :
    task.outline.behind (taken.map Token.kind) = some task'.outline := by
  induction h with
  | refl task p => rfl
  | head hstep _ ih =>
    rw [List.map_append, Outline.behind_append, hstep.behind_outline, Option.bind_some, ih]

lemma Holds.viable {task : Task} {taken : List Token} {look : Option Token}
    (h : Holds task taken look) : Viable (taken.map Token.kind) := by
  obtain ⟨more, e, hreads⟩ := h.exists_completion
  refine ⟨more.map Token.kind, e.term, ?_⟩
  rw [← List.map_append]
  exact hreads.derives

lemma next_outline_of_operandExpected {stack : List Frame} {token : Token}
    (hnot : ∀ task', ¬Takes ⟨stack, .operand⟩ token task') :
    (Task.mk stack .operand).outline.next token.kind = none := by
  cases hkind : token.kind with
  | number value => exact absurd (.literal hkind) (hnot _)
  | opening => exact absurd (.opening hkind) (hnot _)
  | operator _ | closing | endOfInput => rfl

lemma next_outline_of_closingExpected {stack : List Frame} {e : Expr} {token : Token}
    (hnot : ∀ task', ¬Takes ⟨.group :: stack, .complete e⟩ token task') :
    (Task.mk (.group :: stack) (.complete e)).outline.next token.kind = none := by
  cases hkind : token.kind with
  | operator op => exact absurd (.operator hkind (Rank.fits_group _ _)) (hnot _)
  | closing => exact absurd (.closing hkind) (hnot _)
  | number _ | opening | endOfInput => rfl

lemma next_outline_of_complete {e : Expr} {token : Token}
    (hnot : ∀ op, token.kind ≠ .operator op) :
    (Task.mk [] (.complete e)).outline.next token.kind = none := by
  cases hkind : token.kind with
  | operator op => exact absurd hkind (hnot op)
  | number _ | opening | closing | endOfInput => rfl

end Parser

def Cause.isGrammatical : Cause → Bool
  | operandExpected | closingExpected | trailingToken => true
  | _ => false

/-- The token `k` is the first that no sum goes on with: none does behind the tokens `before` it,
and none ends there if `k` is the end. -/
structure FirstViolation (before : List Token) (k : Token) : Prop where
  viable : Viable (before.map Token.kind)
  not_viable : ¬Viable ((before ++ [k]).map Token.kind)
  not_derives : k.kind = .endOfInput → ∀ t, ¬Derives .sum (before.map Token.kind) t

lemma firstViolation_of_outline {p p' : Parser} {taken : List Token} {task : Task}
    (hreach : Reaches ⟨[], .operand⟩ p taken task p')
    (hnext : task.outline.next p'.scanner.current.kind = none)
    (hopen : p'.scanner.current.kind = .endOfInput → task.outline ≠ ⟨0, false⟩) :
    FirstViolation taken p'.scanner.current := by
  have hbehind : Outline.behind ⟨0, true⟩ (taken.map Token.kind) = some task.outline :=
    hreach.behind_outline
  refine ⟨hreach.holds_taken.viable, ?_, ?_⟩
  · apply not_viable_of_behind_eq_none
    rw [List.map_append, Outline.behind_append, hbehind, Option.bind_some, List.map_singleton,
      Outline.behind_singleton, hnext]
  · -- A sum leaves no parenthesis open and no operand due.
    intro hend t hderives
    have hsum := hderives.behind_eq 0
    rw [hbehind] at hsum
    exact hopen hend (Option.some.inj hsum)

lemma scannedTokens_of_reaches {source : String} {limits : Limits} {s : Scanner} {task : Task}
    {taken : List Token} {p : Parser} (hstart : s.StartsOn source)
    (hreach : Reaches ⟨[], .operand⟩ (ofScanner s limits) taken task p) :
    scannedTokens source = taken ++ p.scanner.current :: p.scanner.following.1 := by
  have hahead : s.ahead = taken ++ p.scanner.ahead := hreach.continues.ahead
  rw [scannedTokens, hstart.readAll, hahead, Scanner.ahead]

lemma viable_of_lexical {source : String} {limits : Limits} {s s' : Scanner} {task task' : Task}
    {taken : List Token} {p : Parser} {d : Diagnostic} (hstart : s.StartsOn source)
    (hreach : Reaches ⟨[], .operand⟩ (ofScanner s limits) taken task p)
    (htakes : Takes task p.scanner.current task') (hadvance : p.scanner.advance = .error d s') :
    ∃ issue, tokenize source = .error issue ∧ d = issue.fileUnder .badSource ∧
      Viable ((scannedTokens source).map Token.kind) := by
  obtain ⟨issue, hfollowing, rfl⟩ := following_of_lexical htakes hadvance
  have hissue : s.issue? = p.scanner.issue? := hreach.continues.issue?
  have hcategory : p.scanner.category = s.category := hreach.continues.scannerCategory
  have hscanned := scannedTokens_of_reaches hstart hreach
  refine ⟨issue, ?_, by rw [hcategory, hstart.category], ?_⟩
  · rw [tokenize_eq_error_iff, scannedTokens, hstart.readAll, hissue, Scanner.issue?, hfollowing]
  · rw [hscanned, hfollowing]
    exact (htakes.holds hreach.holds_taken none).viable

lemma isGrammatical_of_isLexical {cause : Cause} (h : cause.isLexical = true) :
    cause.isGrammatical = false := by
  cases cause with
  | unexpectedCharacter _ | literalTooLong => rfl
  | _ => cases h

lemma not_isGrammatical_of_tokenize_error {source : String} {issue : Issue}
    (h : tokenize source = .error issue) : ¬issue.cause.isGrammatical = true := by
  rw [tokenize_eq_error_iff] at h
  have hlexical := Cursor.isLexical_of_readAll (congrArg Prod.snd h)
  rw [isGrammatical_of_isLexical hlexical]
  exact Bool.false_ne_true

lemma viable_nil : Viable [] :=
  ⟨[.number 0], .number 0, .ofProduct (.ofOperand (.number 0))⟩

/-- A failure of the grammar is reported at the first token that no sum goes on with. A lexical
failure is the one of reading all tokens, and no token in front of it is such a violation. -/
theorem parse_error_at_first_violation {source : String} {limits : Limits} {d : Diagnostic}
    (h : parse source limits = .error d) :
    (d.cause.isGrammatical = true → ∃ before k after,
      scannedTokens source = before ++ k :: after ∧ d.span = k.span ∧ FirstViolation before k) ∧
    (d.cause.isLexical = true → ∃ issue, tokenize source = .error issue ∧
      d = issue.fileUnder .badSource ∧ Viable ((scannedTokens source).map Token.kind)) := by
  have hout := parse_outcome source limits
  rw [h] at hout
  cases hout with
  | unscanned hreadAll =>
    rename_i issue
    have hscanned : scannedTokens source = [] := congrArg Prod.fst hreadAll
    have htokenize : tokenize source = .error issue := by
      rw [tokenize_eq_error_iff, hreadAll, hscanned]
    refine ⟨fun hgrammatical => ?_, fun _ => ⟨issue, htokenize, rfl, ?_⟩⟩
    · exact absurd hgrammatical (not_isGrammatical_of_tokenize_error htokenize)
    · rw [hscanned]
      exact viable_nil
  | trailing hstart hreach hcurrent hend =>
    refine ⟨fun _ => ⟨_, _, _, scannedTokens_of_reaches hstart hreach, rfl, ?_⟩, fun hlexical => ?_⟩
    · exact firstViolation_of_outline hreach (next_outline_of_complete hcurrent)
        (fun hkind => absurd hkind hend)
    · cases hlexical
  | failed hstart hreach hfails =>
    have hscanned := scannedTokens_of_reaches hstart hreach
    cases hfails with
    | lexical htakes hadvance =>
      obtain ⟨issue, htokenize, rfl, hviable⟩ := viable_of_lexical hstart hreach htakes hadvance
      refine ⟨fun hgrammatical => ?_, fun _ => ⟨issue, htokenize, rfl, hviable⟩⟩
      exact absurd hgrammatical (not_isGrammatical_of_tokenize_error htokenize)
    | operandExpected hnot =>
      refine ⟨fun _ => ⟨_, _, _, hscanned, rfl, ?_⟩, fun hlexical => ?_⟩
      · apply firstViolation_of_outline hreach (next_outline_of_operandExpected hnot)
        simp [Task.outline]
      · cases hlexical
    | closingExpected hnot =>
      refine ⟨fun _ => ⟨_, _, _, hscanned, rfl, ?_⟩, fun hlexical => ?_⟩
      · apply firstViolation_of_outline hreach (next_outline_of_closingExpected hnot)
        simp [Task.outline, openGroups]
      · cases hlexical
    | nestedTooDeeply hkind hadvance hdepth =>
      exact ⟨fun hgrammatical => (by cases hgrammatical), fun hlexical => (by cases hlexical)⟩
    | expressionTooLong hlook hheight =>
      exact ⟨fun hgrammatical => (by cases hgrammatical), fun hlexical => (by cases hlexical)⟩

theorem parse_error_at_first_violation_of_two_faults :
    (parse "2*(3+) $" {} = .error ⟨⟨.operandExpected, ⟨1, 6⟩, ⟨1, 7⟩⟩, .badSource⟩ ∧
      ∃ before k after, scannedTokens "2*(3+) $" = before ++ k :: after ∧
        ⟨⟨1, 6⟩, ⟨1, 7⟩⟩ = k.span ∧ FirstViolation before k) ∧
    parse "2*(3 $ +" {} = .error ⟨⟨.unexpectedCharacter '$', ⟨1, 6⟩, ⟨1, 7⟩⟩, .badSource⟩ ∧
      ∃ issue, tokenize "2*(3 $ +" = .error issue ∧
        ⟨⟨.unexpectedCharacter '$', ⟨1, 6⟩, ⟨1, 7⟩⟩, .badSource⟩ = issue.fileUnder .badSource ∧
        Viable ((scannedTokens "2*(3 $ +").map Token.kind) := by
  have hgrammar : parse "2*(3+) $" {} =
      .error ⟨⟨.operandExpected, ⟨1, 6⟩, ⟨1, 7⟩⟩, .badSource⟩ := by cbv
  have hlexical : parse "2*(3 $ +" {} =
      .error ⟨⟨.unexpectedCharacter '$', ⟨1, 6⟩, ⟨1, 7⟩⟩, .badSource⟩ := by cbv
  exact ⟨⟨hgrammar, (parse_error_at_first_violation hgrammar).1 rfl⟩,
    hlexical, (parse_error_at_first_violation hlexical).2 rfl⟩

end ThreeAddress
