import ThreeAddress.Proofs.PendingPhrases
import ThreeAddress.Proofs.WithinLimits

/-!
# What the parser accepts

A source text is accepted exactly when its tokens are a sum of the grammar, followed by the end,
and the limits admit its nesting and its height. `exists_reads_of_parse` collects what is known of
an accepted text; `exists_parse_of_derives` says which texts are accepted.
-/

open ThreeAddress.Parser

namespace ThreeAddress

lemma Expr.height_pos (e : Expr) : 0 < e.height := by
  cases e with
  | literal value span => exact Nat.one_pos
  | binary op target span left right =>
    simp only [height]
    omega

namespace Parser

/-- What a run does that fails for one of its limits. -/
inductive CrossesLimit : Task → Parser → Diagnostic → Prop where
  | nesting {stack : List Frame} {p : Parser} (hkind : p.scanner.current.kind = .opening)
      (hdeep : p.limits.nesting < (p.depth + 1 : Int)) :
      CrossesLimit ⟨stack, .operand⟩ p
        (Issue.fileUnder ⟨.nestedTooDeeply, p.scanner.current.span⟩ p.category)
  | height {op : Operator} {span : Span} {left right : Expr} {stack : List Frame} {p : Parser}
      (hlook : p.scanner.current.kind.takesOperandFrom op = false)
      (hhigh :
        p.limits.height < ((Expr.binary op ⟨p.temporaries⟩ span left right).height : Int)) :
      CrossesLimit ⟨.operation op span left :: stack, .complete right⟩ p
        (Issue.fileUnder ⟨.expressionTooLong, span⟩ p.category)

/-- Where moves lead on to an expression, only a limit makes a run fail. -/
theorem Fails.crossesLimit {task : Task} {p p' : Parser} {d : Diagnostic} {e : Expr} {n : Nat}
    {rest : List Token} (hfails : Fails task p d p') (hissue : p.scanner.issue? = none)
    (hmoves : Moves (configuration task p) ⟨⟨[], .complete e⟩, n, rest⟩) :
    CrossesLimit task p d := by
  cases hfails with
  | lexical htakes hadvance =>
    obtain ⟨issue, hfollowing, -⟩ := following_of_lexical htakes hadvance
    simp [Scanner.issue?, hfollowing] at hissue
  | operandExpected hnot =>
    cases eq_of_moves_of_stuck (not_move_of_not_takes (by simp) hnot) hmoves
  | closingExpected hnot =>
    cases eq_of_moves_of_stuck (not_move_of_not_takes (by simp) hnot) hmoves
  | nestedTooDeeply hkind hadvance hdeep => exact .nesting hkind hdeep
  | expressionTooLong hlook hhigh => exact .height hlook hhigh

/-- Moves that lead away from an operation that is due begin by joining it. -/
lemma moves_of_join {op : Operator} {span : Span} {left right : Expr} {stack : List Frame} {n : Nat}
    {look : Token} {rest : List Token} {c : Configuration}
    (hlook : look.kind.takesOperandFrom op = false)
    (hmoves : Moves ⟨⟨.operation op span left :: stack, .complete right⟩, n, look :: rest⟩ c)
    (hne : ⟨.operation op span left :: stack, .complete right⟩ ≠ c.task) :
    Moves ⟨⟨stack, .complete (.binary op ⟨n⟩ span left right)⟩, n + 1, look :: rest⟩ c := by
  obtain rfl | ⟨c₁, hmove, hrest⟩ := hmoves.cases_head
  · exact absurd rfl hne
  · obtain rfl := move_rightUnique hmove (.join hlook)
    exact hrest

theorem Fails.not_moves {task : Task} {p p' : Parser} {d : Diagnostic} {e : Expr} {n : Nat}
    {rest : List Token} (hfails : Fails task p d p') (hissue : p.scanner.issue? = none)
    (hdepth : p.scanner.current.kind = .opening → (p.depth + 1 : Int) ≤ p.limits.nesting)
    (hheight : HeightWithin p.limits.height e) :
    ¬Moves (configuration task p) ⟨⟨[], .complete e⟩, n, rest⟩ := by
  intro hmoves
  cases hfails.crossesLimit hissue hmoves with
  | nesting hkind hdeep =>
    have hle := hdepth hkind
    omega
  | height hlook hhigh =>
    rename_i op span left right stack
    have hrest := moves_of_join hlook hmoves (by simp)
    obtain ⟨e', he', hle⟩ := exists_height_le_of_moves hrest (List.mem_cons_self ..)
    obtain rfl : e' = e := List.mem_singleton.mp he'
    obtain ⟨value, span', rfl⟩ | hbound := hheight
    · have hpos := left.height_pos
      simp only [Expr.height] at hle
      omega
    · omega

theorem run_eq_ok_of_reads {p : Parser} {tokens : List Token} {last : Token} {e : Expr}
    (hahead : p.scanner.ahead = tokens ++ [last]) (hissue : p.scanner.issue? = none)
    (hlast : last.kind = .endOfInput) (hreads : Reads .sum tokens e)
    (hnumbered : e.Numbered p.temporaries)
    (hnesting : NestsWithin p.limits.nesting p.depth (tokens.map Token.kind))
    (hheight : HeightWithin p.limits.height e) :
    ∃ p', run ⟨[], .operand⟩ p = .ok e p' ∧ p'.scanner.current = last := by
  have hnot : ∀ op, last.kind ≠ .operator op := by simp [hlast]
  have hmoves : Moves ⟨⟨[], .operand⟩, p.temporaries, tokens ++ [last]⟩
      ⟨⟨[], .complete e⟩, p.temporaries + e.operationCount, [last]⟩ :=
    hreads.moves hnumbered rfl (fun _ => TokenKind.bindsTightly_of_not_operator hnot)
  obtain ⟨taken, e', p', hrun, hreach, hcurrent⟩ | ⟨taken, task', p', d, p'', -, hreach, hfails⟩ :=
    run_outcome ⟨[], .operand⟩ p
  · have hreached := hreach.moves
    rw [configuration, hahead] at hreached
    obtain ⟨rfl, -, hlook⟩ := eq_of_moves_complete hreached hmoves hcurrent hnot
    exact ⟨p', hrun, hlook⟩
  · exfalso
    have hreached := hreach.moves
    rw [configuration, hahead] at hreached
    have hrest := moves_of_stuck hreached hmoves (not_move_of_complete hnot)
    refine hfails.not_moves ?_ ?_ ?_ hrest
    · rw [← hreach.continues.issue?, hissue]
    · intro hkind
      have hlt := hreach.lt_nestingFrom hkind
      rw [hahead, List.map_append, List.map_singleton, hlast, nestingFrom_append_endOfInput] at hlt
      rw [hreach.continues.limits]
      unfold NestsWithin at hnesting
      omega
    · rw [hreach.continues.limits]
      exact hheight

end Parser

/-- What is known of an accepted text: its tokens read as the tree, which is numbered from zero and
within the limits. -/
theorem exists_reads_of_parse {source : String} {limits : Limits} {parsed : Parsed}
    (h : parse source limits = .ok parsed) :
    ∃ tokens last, tokenize source = .ok (tokens ++ [last]) ∧ last.kind = .endOfInput ∧
      Reads .sum tokens parsed.tree ∧ parsed.tree.Numbered 0 ∧
      NestsWithin limits.nesting 0 (tokens.map Token.kind) ∧
      HeightWithin limits.height parsed.tree := by
  have hout := parse_outcome source limits
  rw [h] at hout
  cases hout with
  | accepted hstart hreach hend =>
    rename_i s taken e p
    have hcurrent : ∀ op, p.scanner.current.kind ≠ .operator op := by simp [hend]
    have hahead : s.ahead = taken ++ p.scanner.ahead := hreach.continues.ahead
    have hissue : s.issue? = p.scanner.issue? := hreach.continues.issue?
    obtain ⟨hlast, hnone⟩ := Scanner.ahead_of_isEnd (s := p.scanner) (by simp [Token.isEnd, hend])
    refine ⟨taken, p.scanner.current, ?_, hend, hreach.reads, (hreach.numbered hcurrent).1,
      hreach.nestsWithin, ?_⟩
    · rw [tokenize_eq_ok_iff, hstart.readAll, hahead, hissue, hlast, hnone]
    · exact hreach.heightWithin (by simp [Task.operands, stackOperands]) e List.mem_cons_self

theorem exists_parse_of_reads {source : String} {limits : Limits} {tokens : List Token}
    {last : Token} {e : Expr} (htokens : tokenize source = .ok (tokens ++ [last]))
    (hlast : last.kind = .endOfInput) (hreads : Reads .sum tokens e) (hnumbered : e.Numbered 0)
    (hnesting : NestsWithin limits.nesting 0 (tokens.map Token.kind))
    (hheight : HeightWithin limits.height e) :
    ∃ parsed, parse source limits = .ok parsed ∧ parsed.tree = e := by
  rw [tokenize_eq_ok_iff] at htokens
  obtain ⟨s, hscanner, hreadAll, -⟩ | ⟨issue, -, hreadAll⟩ :=
    Scanner.ofSource_cases source .badSource
  · rw [htokens] at hreadAll
    obtain ⟨hahead, hissue⟩ := Prod.mk.inj hreadAll
    obtain ⟨p', hrun, hcurrent⟩ := run_eq_ok_of_reads (p := ofScanner s limits) hahead.symm
      hissue.symm hlast hreads hnumbered hnesting hheight
    refine ⟨⟨e, p'.scanner.count, p'.temporaries⟩, ?_, rfl⟩
    rw [parse_eq_of_scanner hscanner, Parser.parse, expression, hrun]
    simp [hcurrent, Token.isEnd, hlast]
  · rw [htokens] at hreadAll
    simp at hreadAll

theorem exists_parse_of_derives {source : String} {limits : Limits} {tokens : List Token}
    {last : Token} {t : Term} (htokens : tokenize source = .ok (tokens ++ [last]))
    (hlast : last.kind = .endOfInput) (hderives : Derives .sum (tokens.map Token.kind) t)
    (hnesting : NestsWithin limits.nesting 0 (tokens.map Token.kind))
    (hheight : (∃ value, t = .number value) ∨ (t.height : Int) ≤ limits.height) :
    ∃ parsed, parse source limits = .ok parsed ∧ parsed.tree.term = t := by
  obtain ⟨e, hreads, hnumbered, rfl⟩ := hderives.exists_reads 0 rfl
  obtain ⟨parsed, hparse, rfl⟩ := exists_parse_of_reads htokens hlast hreads hnumbered hnesting
    (heightWithin_iff_term.mpr hheight)
  exact ⟨parsed, hparse, rfl⟩

/-- A source text is accepted exactly when its tokens derive a term that the limits admit, and then
the tree says what the tokens derive, which is one term and does not depend on the limits. -/
theorem parse_accepts_iff (source : String) (limits : Limits) :
    ((∃ parsed, parse source limits = .ok parsed) ↔
      ∃ tokens last t, tokenize source = .ok (tokens ++ [last]) ∧ last.kind = .endOfInput ∧
        Derives .sum (tokens.map Token.kind) t ∧
        (nesting (tokens.map Token.kind) = 0 ∨
          (nesting (tokens.map Token.kind) : Int) ≤ limits.nesting) ∧
        ((∃ value, t = .number value) ∨ (t.height : Int) ≤ limits.height)) ∧
    ∀ parsed, parse source limits = .ok parsed →
      (∃ tokens last, tokenize source = .ok (tokens ++ [last]) ∧ last.kind = .endOfInput ∧
        ∀ t, Derives .sum (tokens.map Token.kind) t ↔ t = parsed.tree.term) ∧
      ∀ limits' parsed', parse source limits' = .ok parsed' →
        parsed'.tree.term = parsed.tree.term := by
  refine ⟨⟨?_, ?_⟩, ?_⟩
  · rintro ⟨parsed, h⟩
    obtain ⟨tokens, last, htokens, hlast, hreads, -, hnesting, hheight⟩ := exists_reads_of_parse h
    exact ⟨tokens, last, parsed.tree.term, htokens, hlast, hreads.derives, hnesting,
      heightWithin_iff_term.mp hheight⟩
  · rintro ⟨tokens, last, t, htokens, hlast, hderives, hnesting, hheight⟩
    obtain ⟨parsed, h, -⟩ := exists_parse_of_derives htokens hlast hderives hnesting hheight
    exact ⟨parsed, h⟩
  · intro parsed h
    obtain ⟨tokens, last, htokens, hlast, hreads, -⟩ := exists_reads_of_parse h
    refine ⟨⟨tokens, last, htokens, hlast, ?_⟩, ?_⟩
    · intro t
      constructor
      · intro hderives
        exact hderives.unique hreads.derives
      · rintro rfl
        exact hreads.derives
    · intro limits' parsed' h'
      obtain ⟨tokens', last', htokens', -, hreads', -⟩ := exists_reads_of_parse h'
      rw [htokens] at htokens'
      obtain ⟨rfl, -⟩ := List.append_inj' (Except.ok.inj htokens') rfl
      exact hreads'.derives.unique hreads.derives

end ThreeAddress
