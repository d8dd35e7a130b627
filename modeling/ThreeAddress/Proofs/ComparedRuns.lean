import Mathlib.Data.List.Forall2
import ThreeAddress.Proofs.Transition

/-!
# Two runs of the parser side by side

The parser carries spans along and never looks at them, and it looks at its limits only to give up.
So two parsers on tokens of the same kinds take the same steps, and what they build differs in its
spans at most. If the first parser has the narrower limits it may stop where the second goes on;
there is no other way for the two to part.

A `Comparison` says which places of the two runs correspond, which causes count as the same, and
what the limits are. `Comparison.results_step` compares one step and `Comparison.results_run` whole
runs; `Comparison.outcomes_parse` is about source texts.
-/

open ThreeAddress.Parser

namespace ThreeAddress

section Places

variable (place : Span → Span → Prop)

structure Token.Alike (t t' : Token) : Prop where
  kind : t.kind = t'.kind
  span : place t.span t'.span

inductive Expr.Alike : Expr → Expr → Prop where
  | literal {value : Nat} {span span' : Span} (hspan : place span span') :
      Alike (.literal value span) (.literal value span')
  | binary {op : Operator} {target : Temporary} {span span' : Span} {left left' right right' : Expr}
      (hspan : place span span') (hleft : Alike left left') (hright : Alike right right') :
      Alike (.binary op target span left right) (.binary op target span' left' right')

inductive Parser.Frame.Alike : Frame → Frame → Prop where
  | group : Alike .group .group
  | operation {op : Operator} {span span' : Span} {left left' : Expr} (hspan : place span span')
      (hleft : left.Alike place left') : Alike (.operation op span left) (.operation op span' left')

inductive Parser.Focus.Alike : Focus → Focus → Prop where
  | operand : Alike .operand .operand
  | complete {e e' : Expr} (h : e.Alike place e') : Alike (.complete e) (.complete e')

structure Parser.Task.Alike (task task' : Task) : Prop where
  stack : List.Forall₂ (Frame.Alike place) task.stack task'.stack
  focus : task.focus.Alike place task'.focus

inductive Parser.Progress.Alike : Progress → Progress → Prop where
  | more {task task' : Task} (h : task.Alike place task') : Alike (.more task) (.more task')
  | done {e e' : Expr} (h : e.Alike place e') : Alike (.done e) (.done e')

end Places

lemma Expr.Alike.height_eq {place : Span → Span → Prop} {e e' : Expr} (h : e.Alike place e') :
    e.height = e'.height := by
  induction h with
  | literal hspan => rfl
  | binary hspan _ _ ihl ihr => rw [Expr.height, Expr.height, ihl, ihr]

/-- What cuts the tokens of a source text short, if anything does. -/
def lexicalIssue? (source : String) : Option Issue :=
  (Cursor.ofSource source).readAll.2

/-- How the second of two runs may differ from the first. -/
structure Comparison where
  /-- Which spans of the two runs stand for the same place. -/
  place : Span → Span → Prop
  /-- Which causes count as the same. -/
  cause : Cause → Cause → Prop
  cause_refl : ∀ c, cause c c
  /-- The limits of the first run. -/
  limits : Limits
  /-- The limits of the second run. -/
  wider : Limits
  nesting_le : limits.nesting ≤ wider.nesting
  height_le : limits.height ≤ wider.height

def Cause.isLimit : Cause → Bool
  | nestedTooDeeply | expressionTooLong => true
  | _ => false

namespace Comparison

variable (K : Comparison)

structure Issues (issue issue' : Issue) : Prop where
  cause : K.cause issue.cause issue'.cause
  span : K.place issue.span issue'.span

structure Diagnostics (d d' : Diagnostic) : Prop where
  issue : K.Issues d.toIssue d'.toIssue
  category : d.category = d'.category

structure Scanners (s s' : Scanner) : Prop where
  ahead : List.Forall₂ (Token.Alike K.place) s.ahead s'.ahead
  issue? : Option.Rel K.Issues s.issue? s'.issue?
  count : s.count = s'.count
  category : s.category = s'.category

structure Parsers (p p' : Parser) : Prop where
  scanner : K.Scanners p.scanner p'.scanner
  temporaries : p.temporaries = p'.temporaries
  depth : p.depth = p'.depth
  limits : p.limits = K.limits
  wider : p'.limits = K.wider
  category : p.category = p'.category

/-- Two results are alike, or the first run was cut off by limits that the second does not have. -/
inductive Results {α : Type} (related : α → α → Prop) :
    EStateM.Result Diagnostic Parser α → EStateM.Result Diagnostic Parser α → Prop where
  | ok {a a' : α} {p p' : Parser} (hvalue : related a a') (hparser : K.Parsers p p') :
      Results related (.ok a p) (.ok a' p')
  | error {d d' : Diagnostic} {p p' : Parser} (h : K.Diagnostics d d') :
      Results related (.error d p) (.error d' p')
  | cutOff {d : Diagnostic} {p : Parser} {result : EStateM.Result Diagnostic Parser α}
      (hlimits : K.limits ≠ K.wider) (hcause : d.cause.isLimit = true) :
      Results related (.error d p) result

variable {K}

lemma Results.bind {α β : Type} {related : α → α → Prop} {related' : β → β → Prop}
    {x y : EStateM Diagnostic Parser α} {f g : α → EStateM Diagnostic Parser β} {p p' : Parser}
    (h : K.Results related (x.run p) (y.run p'))
    (hnext : ∀ a a' q q', related a a' → K.Parsers q q' →
      K.Results related' ((f a).run q) ((g a').run q')) :
    K.Results related' ((x >>= f).run p) ((y >>= g).run p') := by
  rw [EStateM.run_bind, EStateM.run_bind]
  generalize x.run p = result at h
  generalize y.run p' = result' at h
  cases h with
  | ok hvalue hparser => exact hnext _ _ _ _ hvalue hparser
  | error h => exact .error h
  | cutOff hlimits hcause => exact .cutOff hlimits hcause

lemma Scanners.current {s s' : Scanner} (h : K.Scanners s s') :
    s.current.Alike K.place s'.current :=
  (List.forall₂_cons.mp h.ahead).1

/-- Scanners that are alike show tokens that are alike next, or meet issues that are alike. -/
theorem Scanners.advance {s s' : Scanner} (h : K.Scanners s s') (hend : s.current.isEnd = false) :
    (∃ u u', s.advance = .ok u.current u ∧ s'.advance = .ok u'.current u' ∧ K.Scanners u u') ∨
    ∃ d d' u u', s.advance = .error d u ∧ s'.advance = .error d' u' ∧ K.Diagnostics d d' := by
  have hend' : s'.current.isEnd = false := by
    rw [Token.isEnd, ← h.current.kind]
    exact hend
  have hahead : List.Forall₂ (Token.Alike K.place) s.following.1 s'.following.1 :=
    (List.forall₂_cons.mp h.ahead).2
  have hissue : Option.Rel K.Issues s.following.2 s'.following.2 := h.issue?
  obtain ⟨u, hu, hfollowing, hcount, hcategory⟩ | ⟨issue, u, hu, hfollowing, -⟩ :=
    s.advance_cases hend
  · obtain ⟨u', hu', hfollowing', hcount', hcategory'⟩ | ⟨issue', u', -, hfollowing', -⟩ :=
      s'.advance_cases hend'
    · rw [hfollowing, hfollowing'] at hahead hissue
      refine .inl ⟨u, u', hu, hu', hahead, hissue, ?_, ?_⟩
      · rw [hcount, hcount', h.count]
      · rw [hcategory, hcategory', h.category]
    · rw [hfollowing, hfollowing'] at hahead
      cases hahead
  · obtain ⟨u', -, hfollowing', -⟩ | ⟨issue', u', hu', hfollowing', -⟩ := s'.advance_cases hend'
    · rw [hfollowing, hfollowing'] at hahead
      cases hahead
    · rw [hfollowing, hfollowing'] at hissue
      obtain ⟨hissue⟩ := hissue
      exact .inr ⟨_, _, u, u', hu, hu', hissue, h.category⟩

variable {p p' : Parser} {stack stack' : List Frame} {span span' : Span}

lemma results_advance (h : K.Parsers p p') (hend : p.scanner.current.isEnd = false) :
    K.Results (fun _ _ => True) (advance.run p) (advance.run p') := by
  simp only [EStateM.run, Parser.advance]
  obtain ⟨u, u', hu, hu', hscanner⟩ | ⟨d, d', u, u', hu, hu', hd⟩ := h.scanner.advance hend
  · simp only [hu, hu']
    exact .ok trivial { h with scanner := hscanner }
  · simp only [hu, hu']
    exact .error hd

lemma results_fail {α : Type} {related : α → α → Prop} (h : K.Parsers p p') (cause : Cause)
    (hspan : K.place span span') :
    K.Results related ((fail cause span).run p) ((fail cause span').run p') :=
  .error ⟨⟨K.cause_refl cause, hspan⟩, h.category⟩

/-- Of two checks against a limit the first alone may fail, and only if the limits differ. -/
lemma results_within {α : Type} {related : α → α → Prop} {x y : EStateM Diagnostic Parser α}
    {size : Nat} {cause : Cause} {bound : Limits → Int} (h : K.Parsers p p')
    (hle : bound K.limits ≤ bound K.wider) (hcause : cause.isLimit = true)
    (hspan : K.place span span') (hxy : K.Results related (x.run p) (y.run p')) :
    K.Results related ((if bound p.limits < size then fail cause span else x).run p)
      ((if bound p'.limits < size then fail cause span' else y).run p') := by
  rw [h.limits, h.wider]
  by_cases hbound : bound K.limits < size
  · rw [if_pos hbound]
    by_cases hwider : bound K.wider < size
    · rw [if_pos hwider]
      exact results_fail h cause hspan
    · refine .cutOff ?_ hcause
      intro heq
      rw [heq] at hbound
      exact hwider hbound
  · have hwider : ¬bound K.wider < size := by omega
    rw [if_neg hbound, if_neg hwider]
    exact hxy

lemma results_openGroup (h : K.Parsers p p') (hspan : K.place span span') :
    K.Results (fun _ _ => True) ((openGroup span).run p) ((openGroup span').run p') := by
  have hopened : K.Parsers { p with depth := p.depth + 1 } { p' with depth := p.depth + 1 } :=
    { h with depth := rfl }
  simp only [openGroup, EStateM.run_bind, EStateM.run_modify, EStateM.run_get, ← h.depth]
  exact results_within hopened K.nesting_le rfl hspan (.ok trivial hopened)

lemma results_join {op : Operator} {left left' right right' : Expr} (h : K.Parsers p p')
    (hspan : K.place span span') (hleft : left.Alike K.place left')
    (hright : right.Alike K.place right') :
    K.Results (Expr.Alike K.place) ((join op span left right).run p)
      ((join op span' left' right').run p') := by
  have hnode : (Expr.binary op ⟨p.temporaries⟩ span left right).Alike K.place
      (.binary op ⟨p.temporaries⟩ span' left' right') := .binary hspan hleft hright
  have hjoined : K.Parsers { p with temporaries := p.temporaries + 1 }
      { p' with temporaries := p.temporaries + 1 } := { h with temporaries := rfl }
  simp only [join, EStateM.run_bind, EStateM.run_get, EStateM.run_set, ← h.temporaries,
    ← hnode.height_eq]
  exact results_within hjoined K.height_le rfl hspan (.ok hnode hjoined)

lemma results_reduce {op : Operator} {left left' right right' : Expr} (h : K.Parsers p p')
    (hstack : List.Forall₂ (Frame.Alike K.place) stack stack') (hspan : K.place span span')
    (hleft : left.Alike K.place left') (hright : right.Alike K.place right') :
    K.Results (Progress.Alike K.place) ((reduce op span left right stack).run p)
      ((reduce op span' left' right' stack').run p') :=
  (results_join h hspan hleft hright).bind fun _ _ _ _ hnode hq =>
    .ok (.more ⟨hstack, .complete hnode⟩) hq

lemma results_shift {op : Operator} {e e' : Expr} (h : K.Parsers p p')
    (hkind : p.scanner.current.kind = .operator op)
    (hstack : List.Forall₂ (Frame.Alike K.place) stack stack') (he : e.Alike K.place e') :
    K.Results (Progress.Alike K.place) ((shift op p.scanner.current.span e stack).run p)
      ((shift op p'.scanner.current.span e' stack').run p') :=
  (results_advance h (by simp [Token.isEnd, hkind])).bind fun _ _ _ _ _ hq =>
    .ok (.more ⟨.cons (.operation h.scanner.current.span he) hstack, .operand⟩) hq

lemma results_stepOperand (h : K.Parsers p p')
    (hstack : List.Forall₂ (Frame.Alike K.place) stack stack') :
    K.Results (Progress.Alike K.place) ((stepOperand stack).run p)
      ((stepOperand stack').run p') := by
  have hcurrent := h.scanner.current
  simp only [stepOperand, EStateM.run_bind, EStateM.run_get, ← hcurrent.kind]
  cases hkind : p.scanner.current.kind with
  | number value =>
    refine (results_advance h (by simp [Token.isEnd, hkind])).bind fun _ _ q q' _ hq => ?_
    exact .ok (.more ⟨hstack, .complete (.literal hcurrent.span)⟩) hq
  | opening =>
    refine (results_advance h (by simp [Token.isEnd, hkind])).bind fun _ _ q q' _ hq => ?_
    refine (results_openGroup hq hcurrent.span).bind fun _ _ r r' _ hr => ?_
    exact .ok (.more ⟨.cons .group hstack, .operand⟩) hr
  | operator _ | closing | endOfInput => exact results_fail h .operandExpected hcurrent.span

lemma results_stepComplete {e e' : Expr} (h : K.Parsers p p')
    (hstack : List.Forall₂ (Frame.Alike K.place) stack stack') (he : e.Alike K.place e') :
    K.Results (Progress.Alike K.place) ((stepComplete stack e).run p)
      ((stepComplete stack' e').run p') := by
  have hcurrent := h.scanner.current
  simp only [stepComplete, EStateM.run_bind, EStateM.run_get, ← hcurrent.kind]
  cases hstack with
  | nil =>
    cases hkind : p.scanner.current.kind with
    | operator next => exact results_shift h hkind .nil he
    | number _ | opening | closing | endOfInput => exact .ok (.done he) h
  | cons hframe hrest =>
    cases hframe with
    | group =>
      cases hkind : p.scanner.current.kind with
      | operator next => exact results_shift h hkind (.cons .group hrest) he
      | closing =>
        refine (results_advance h (by simp [Token.isEnd, hkind])).bind fun _ _ q q' _ hq => ?_
        have hclosed :
            K.Parsers { q with depth := q.depth - 1 } { q' with depth := q'.depth - 1 } :=
          { hq with depth := congrArg (· - 1) hq.depth }
        exact .ok (.more ⟨hrest, .complete he⟩) hclosed
      | number _ | opening | endOfInput => exact results_fail h .closingExpected hcurrent.span
    | operation hspan hleft =>
      rename_i op span span' left left'
      cases hkind : p.scanner.current.kind with
      | operator next =>
        by_cases htakes : next.takesOperandFrom op = true
        · simp only [htakes, if_true]
          exact results_shift h hkind (.cons (.operation hspan hleft) hrest) he
        · simp only [htakes, Bool.false_eq_true, if_false]
          exact results_reduce h hrest hspan hleft he
      | number _ | opening | closing | endOfInput => exact results_reduce h hrest hspan hleft he

theorem results_step {task task' : Task} (h : K.Parsers p p') (htask : task.Alike K.place task') :
    K.Results (Progress.Alike K.place) ((step task).run p) ((step task').run p') := by
  obtain ⟨stack, focus⟩ := task
  obtain ⟨stack', focus'⟩ := task'
  obtain ⟨hstack, hfocus⟩ := htask
  cases hfocus with
  | operand => exact results_stepOperand h hstack
  | complete he => exact results_stepComplete h hstack he

/-! ### Whole runs -/

theorem results_run {task task' : Task} {p p' : Parser} (h : K.Parsers p p')
    (htask : task.Alike K.place task') :
    K.Results (Expr.Alike K.place) (run task p) (run task' p') := by
  have hresults := results_step h htask
  rw [run_eq task p, run_eq task' p']
  -- The first run ends, so the second is followed for as long as the first goes on.
  generalize hstep : (step task).run p = result at hresults
  generalize (step task').run p' = result' at hresults
  cases hresults with
  | ok hprogress hparser =>
    cases hprogress with
    | more htask => exact results_run hparser htask
    | done he => exact .ok he hparser
  | error hd => exact .error hd
  | cutOff hlimits hcause => exact .cutOff hlimits hcause
termination_by measure task p
decreasing_by exact measure_lt_of_step hstep

lemma results_parse (h : K.Parsers p p') :
    K.Results (Expr.Alike K.place) p.parse p'.parse := by
  have hresults : K.Results (Expr.Alike K.place) p.expression p'.expression :=
    results_run h ⟨.nil, .operand⟩
  unfold Parser.parse
  generalize p.expression = result at hresults
  generalize p'.expression = result' at hresults
  cases hresults with
  | ok he hparser =>
    rename_i e e' q q'
    have hcurrent := hparser.scanner.current
    have hend : q'.scanner.current.isEnd = q.scanner.current.isEnd := by
      rw [Token.isEnd, Token.isEnd, hcurrent.kind]
    simp only [hend]
    by_cases hlast : q.scanner.current.isEnd = true
    · simp only [hlast, if_true]
      exact .ok he hparser
    · simp only [hlast, Bool.false_eq_true, if_false]
      exact results_fail hparser .trailingToken hcurrent.span
  | error hd => exact .error hd
  | cutOff hlimits hcause => exact .cutOff hlimits hcause

variable (K)

/-- The tokens of two texts, and the issues that cut them short, are alike. -/
structure Sources (source source' : String) : Prop where
  tokens : List.Forall₂ (Token.Alike K.place) (scannedTokens source) (scannedTokens source')
  issue? : Option.Rel K.Issues (lexicalIssue? source) (lexicalIssue? source')

inductive Outcomes : Except Diagnostic Parsed → Except Diagnostic Parsed → Prop where
  | ok {e e' : Expr} (tokens temporaries : Nat) (h : e.Alike K.place e') :
      Outcomes (.ok ⟨e, tokens, temporaries⟩) (.ok ⟨e', tokens, temporaries⟩)
  | error {d d' : Diagnostic} (h : K.Diagnostics d d') : Outcomes (.error d) (.error d')
  | cutOff {d : Diagnostic} {outcome : Except Diagnostic Parsed} (hlimits : K.limits ≠ K.wider)
      (hcause : d.cause.isLimit = true) : Outcomes (.error d) outcome

variable {K}

theorem outcomes_parse {source source' : String} (h : K.Sources source source') :
    K.Outcomes (parse source K.limits) (parse source' K.wider) := by
  obtain ⟨htokens, hissue⟩ := h
  rw [scannedTokens, scannedTokens] at htokens
  rw [lexicalIssue?, lexicalIssue?] at hissue
  obtain ⟨s, hs, hreadAll, hcount, hcategory⟩ | ⟨issue, hs, hreadAll⟩ :=
    Scanner.ofSource_cases source .badSource
  · obtain ⟨s', hs', hreadAll', hcount', hcategory'⟩ | ⟨issue', -, hreadAll'⟩ :=
      Scanner.ofSource_cases source' .badSource
    · rw [hreadAll, hreadAll'] at htokens hissue
      have hscanner : K.Scanners s s' :=
        ⟨htokens, hissue, hcount.trans hcount'.symm, hcategory.trans hcategory'.symm⟩
      have hparser : K.Parsers (ofScanner s K.limits) (ofScanner s' K.wider) :=
        ⟨hscanner, rfl, rfl, rfl, rfl, rfl⟩
      have hresults := results_parse hparser
      rw [parse_eq_of_scanner hs, parse_eq_of_scanner hs']
      generalize (ofScanner s K.limits).parse = result at hresults
      generalize (ofScanner s' K.wider).parse = result' at hresults
      cases hresults with
      | ok he hparser =>
        simp only [hparser.scanner.count, hparser.temporaries]
        exact .ok _ _ he
      | error hd => exact .error hd
      | cutOff hlimits hcause => exact .cutOff hlimits hcause
    · rw [hreadAll, hreadAll'] at htokens
      cases htokens
  · obtain ⟨s', -, hreadAll', -⟩ | ⟨issue', hs', hreadAll'⟩ :=
      Scanner.ofSource_cases source' .badSource
    · rw [hreadAll, hreadAll'] at htokens
      cases htokens
    · rw [hreadAll, hreadAll'] at hissue
      obtain ⟨hissue⟩ := hissue
      simp only [parse, hs, hs', bind, Except.bind]
      exact .error ⟨hissue, rfl⟩

end Comparison

end ThreeAddress
