import Mathlib.Logic.Relation
import ThreeAddress.Grammar
import ThreeAddress.Parser
import ThreeAddress.Proofs.TokenStream

/-!
# Transitions of the parser

A step of the parser moves past one token, joins two operands, ends with an expression or fails.
`step_outcome` says all that a step can do; `run_outcome` says the same of a whole run. Seen without
scanner and limits, a run is a sequence of moves over the tokens ahead, and each move is determined
by what it starts from.
-/

open ThreeAddress.Parser

namespace ThreeAddress

namespace TokenKind

def bindsTightly : TokenKind → Bool
  | operator op => op.bindsTightly
  | _ => false

/-- Whether a token behind the right operand of `op` takes that operand for itself. -/
def takesOperandFrom (kind : TokenKind) (op : Operator) : Bool :=
  kind.bindsTightly && !op.bindsTightly

@[simp]
lemma takesOperandFrom_operator (next op : Operator) :
    (operator next).takesOperandFrom op = next.takesOperandFrom op := rfl

lemma bindsTightly_of_not_operator {kind : TokenKind} (h : ∀ next, kind ≠ operator next) :
    kind.bindsTightly = false := by
  cases kind with
  | operator next => exact absurd rfl (h next)
  | number _ | opening | closing | endOfInput => rfl

def depthAfter (depth : Nat) : TokenKind → Nat
  | opening => depth + 1
  | closing => depth - 1
  | _ => depth

end TokenKind

def Operator.rank (op : Operator) : Rank :=
  if op.bindsTightly then .product else .sum

namespace Rank

/-- Whether a phrase of the rank may stand on top of a stack: behind an operation that waits for
its right operand, only a phrase of a tighter rank may. -/
def fits : Rank → List Parser.Frame → Bool
  | product, .operation op _ _ :: _ => !op.bindsTightly
  | sum, .operation _ _ _ :: _ => false
  | _, _ => true

@[simp]
lemma fits_nil (rank : Rank) : rank.fits [] = true := by
  cases rank <;> rfl

@[simp]
lemma fits_group (rank : Rank) (stack : List Parser.Frame) :
    rank.fits (.group :: stack) = true := by
  cases rank <;> rfl

@[simp]
lemma rank_fits_operation (op waiting : Operator) (span : Span) (left : Expr)
    (stack : List Parser.Frame) :
    op.rank.fits (.operation waiting span left :: stack) = op.takesOperandFrom waiting := by
  cases op <;> cases waiting <;> rfl

lemma fits_product_of_fits_sum {stack : List Parser.Frame} (h : sum.fits stack = true) :
    product.fits stack = true := by
  unfold fits at h ⊢
  split at h <;> simp_all

end Rank

namespace Parser

/-- In `Takes task token task'` the task goes on behind the token. -/
inductive Takes : Task → Token → Task → Prop where
  | literal {stack : List Frame} {token : Token} {value : Nat}
      (hkind : token.kind = .number value) :
      Takes ⟨stack, .operand⟩ token ⟨stack, .complete (.literal value token.span)⟩
  | opening {stack : List Frame} {token : Token} (hkind : token.kind = .opening) :
      Takes ⟨stack, .operand⟩ token ⟨.group :: stack, .operand⟩
  | operator {stack : List Frame} {token : Token} {op : Operator} {e : Expr}
      (hkind : token.kind = .operator op) (hfits : op.rank.fits stack = true) :
      Takes ⟨stack, .complete e⟩ token ⟨.operation op token.span e :: stack, .operand⟩
  | closing {stack : List Frame} {token : Token} {e : Expr} (hkind : token.kind = .closing) :
      Takes ⟨.group :: stack, .complete e⟩ token ⟨stack, .complete e⟩

lemma Takes.isEnd_eq_false {task task' : Task} {token : Token} (h : Takes task token task') :
    token.isEnd = false := by
  cases h <;> simp_all [Token.isEnd]

/-- In `Proceeds task p taken task' p'` a step leads from the task to the next one, past the
tokens in `taken`. -/
inductive Proceeds : Task → Parser → List Token → Task → Parser → Prop where
  | take {task task' : Task} {p : Parser} {s : Scanner}
      (htakes : Takes task p.scanner.current task')
      (hadvance : p.scanner.advance = .ok s.current s)
      (hdepth : p.scanner.current.kind = .opening → (p.depth + 1 : Int) ≤ p.limits.nesting) :
      Proceeds task p [p.scanner.current] task'
        { p with scanner := s, depth := p.scanner.current.kind.depthAfter p.depth }
  | join {op : Operator} {span : Span} {left right : Expr} {stack : List Frame} {p : Parser}
      (hlook : p.scanner.current.kind.takesOperandFrom op = false)
      (hheight :
        ((Expr.binary op ⟨p.temporaries⟩ span left right).height : Int) ≤ p.limits.height) :
      Proceeds ⟨.operation op span left :: stack, .complete right⟩ p []
        ⟨stack, .complete (.binary op ⟨p.temporaries⟩ span left right)⟩
        { p with temporaries := p.temporaries + 1 }

inductive Fails : Task → Parser → Diagnostic → Parser → Prop where
  | lexical {task task' : Task} {p : Parser} {d : Diagnostic} {s : Scanner}
      (htakes : Takes task p.scanner.current task') (hadvance : p.scanner.advance = .error d s) :
      Fails task p d { p with scanner := s }
  | operandExpected {stack : List Frame} {p : Parser}
      (hnot : ∀ task', ¬Takes ⟨stack, .operand⟩ p.scanner.current task') :
      Fails ⟨stack, .operand⟩ p
        (Issue.fileUnder ⟨.operandExpected, p.scanner.current.span⟩ p.category) p
  | closingExpected {stack : List Frame} {e : Expr} {p : Parser}
      (hnot : ∀ task', ¬Takes ⟨.group :: stack, .complete e⟩ p.scanner.current task') :
      Fails ⟨.group :: stack, .complete e⟩ p
        (Issue.fileUnder ⟨.closingExpected, p.scanner.current.span⟩ p.category) p
  | nestedTooDeeply {stack : List Frame} {p : Parser} {s : Scanner}
      (hkind : p.scanner.current.kind = .opening) (hadvance : p.scanner.advance = .ok s.current s)
      (hdepth : p.limits.nesting < (p.depth + 1 : Int)) :
      Fails ⟨stack, .operand⟩ p
        (Issue.fileUnder ⟨.nestedTooDeeply, p.scanner.current.span⟩ p.category)
        { p with scanner := s, depth := p.depth + 1 }
  | expressionTooLong {op : Operator} {span : Span} {left right : Expr} {stack : List Frame}
      {p : Parser} (hlook : p.scanner.current.kind.takesOperandFrom op = false)
      (hheight :
        p.limits.height < ((Expr.binary op ⟨p.temporaries⟩ span left right).height : Int)) :
      Fails ⟨.operation op span left :: stack, .complete right⟩ p
        (Issue.fileUnder ⟨.expressionTooLong, span⟩ p.category)
        { p with temporaries := p.temporaries + 1 }

inductive Outcome (task : Task) (p : Parser) :
    EStateM.Result Diagnostic Parser Progress → Prop where
  | more {taken : List Token} {task' : Task} {p' : Parser}
      (h : Proceeds task p taken task' p') : Outcome task p (.ok (.more task') p')
  | done {e : Expr} (htask : task = ⟨[], .complete e⟩)
      (hcurrent : ∀ op, p.scanner.current.kind ≠ .operator op) : Outcome task p (.ok (.done e) p)
  | failed {d : Diagnostic} {p' : Parser} (h : Fails task p d p') : Outcome task p (.error d p')

lemma outcome_of_takes {task task' : Task} {p : Parser}
    (htakes : Takes task p.scanner.current task') {k : EStateM Diagnostic Parser Progress}
    (hk : ∀ s, p.scanner.advance = .ok s.current s →
      Outcome task p (k.run { p with scanner := s })) :
    Outcome task p ((advance >>= fun _ => k).run p) := by
  have hend := htakes.isEnd_eq_false
  rw [EStateM.run_bind]
  obtain ⟨s, hadvance, -⟩ | ⟨issue, s, hadvance, -⟩ := Scanner.advance_cases p.scanner hend
  · simp only [EStateM.run, Parser.advance, hadvance]
    exact hk s hadvance
  · simp only [EStateM.run, Parser.advance, hadvance]
    exact .failed (.lexical htakes hadvance)

lemma outcome_stepOperand (stack : List Frame) (p : Parser) :
    Outcome ⟨stack, .operand⟩ p ((stepOperand stack).run p) := by
  simp only [stepOperand, EStateM.run_bind, EStateM.run_get]
  split
  · rename_i value hkind
    have htakes : Takes ⟨stack, .operand⟩ p.scanner.current _ := .literal hkind
    refine outcome_of_takes htakes fun s hadvance => ?_
    have hstep := Proceeds.take htakes hadvance (by simp [hkind])
    simpa [hkind, TokenKind.depthAfter] using Outcome.more hstep
  · rename_i hkind
    have htakes : Takes ⟨stack, .operand⟩ p.scanner.current _ := .opening hkind
    refine outcome_of_takes htakes fun s hadvance => ?_
    simp only [openGroup, EStateM.run_bind, EStateM.run_modify, EStateM.run_get]
    by_cases hdepth : p.limits.nesting < (p.depth + 1 : Int)
    · simp only [Int.natCast_add, Int.cast_ofNat_Int, hdepth, if_true]
      exact .failed (.nestedTooDeeply hkind hadvance hdepth)
    · simp only [Int.natCast_add, Int.cast_ofNat_Int, hdepth, if_false]
      have hstep := Proceeds.take htakes hadvance (fun _ => Int.not_lt.mp hdepth)
      simpa [hkind, TokenKind.depthAfter] using Outcome.more hstep
  · rename_i hnumber hopening
    refine .failed (.operandExpected ?_)
    intro task' htakes
    cases htakes with
    | literal hkind => exact hnumber _ hkind
    | opening hkind => exact hopening hkind

lemma outcome_shift {stack : List Frame} {e : Expr} {op : Operator} {p : Parser}
    (hkind : p.scanner.current.kind = .operator op) (hfits : op.rank.fits stack = true) :
    Outcome ⟨stack, .complete e⟩ p ((shift op p.scanner.current.span e stack).run p) := by
  have htakes : Takes ⟨stack, .complete e⟩ p.scanner.current _ := .operator hkind hfits
  refine outcome_of_takes htakes fun s hadvance => ?_
  have hstep := Proceeds.take htakes hadvance (by simp [hkind])
  simpa [hkind, TokenKind.depthAfter] using Outcome.more hstep

lemma outcome_reduce {stack : List Frame} {left right : Expr} {op : Operator} {span : Span}
    {p : Parser} (hlook : p.scanner.current.kind.takesOperandFrom op = false) :
    Outcome ⟨.operation op span left :: stack, .complete right⟩ p
      ((reduce op span left right stack).run p) := by
  simp only [reduce, join, EStateM.run_bind, EStateM.run_get, EStateM.run_set]
  by_cases hheight :
      p.limits.height < ((Expr.binary op ⟨p.temporaries⟩ span left right).height : Int)
  · simp only [hheight, if_true]
    exact .failed (.expressionTooLong hlook hheight)
  · simp only [hheight, if_false]
    exact .more (.join hlook (Int.not_lt.mp hheight))

lemma outcome_stepComplete (stack : List Frame) (e : Expr) (p : Parser) :
    Outcome ⟨stack, .complete e⟩ p ((stepComplete stack e).run p) := by
  simp only [stepComplete, EStateM.run_bind, EStateM.run_get]
  -- What an operator behind the expression does depends on the frame below: an operation may have
  -- to be joined first, a group and the empty stack let every operator through.
  split
  · split
    · rename_i next hkind
      split
      · rename_i htakes
        exact outcome_shift hkind (by simpa using htakes)
      · rename_i htakes
        exact outcome_reduce (by simpa [hkind] using htakes)
    · rename_i hkind
      refine outcome_reduce ?_
      rw [TokenKind.takesOperandFrom, TokenKind.bindsTightly_of_not_operator hkind, Bool.false_and]
  · rename_i rest
    split
    · rename_i next hkind
      exact outcome_shift hkind (by simp)
    · rename_i hkind
      have htakes : Takes ⟨.group :: rest, .complete e⟩ p.scanner.current _ := .closing hkind
      refine outcome_of_takes htakes fun s hadvance => ?_
      have hstep := Proceeds.take htakes hadvance (by simp [hkind])
      simp only [closeGroup, EStateM.run_bind, EStateM.run_modify, EStateM.run_pure]
      simpa [hkind, TokenKind.depthAfter] using Outcome.more hstep
    · rename_i hoperator hclosing
      refine .failed (.closingExpected ?_)
      intro task' htakes
      cases htakes with
      | operator hkind _ => exact hoperator _ hkind
      | closing hkind => exact hclosing hkind
  · split
    · rename_i next hkind
      exact outcome_shift hkind (by simp)
    · rename_i hoperator
      exact .done rfl hoperator

theorem step_outcome (task : Task) (p : Parser) : Outcome task p ((step task).run p) := by
  obtain ⟨stack, focus⟩ := task
  cases focus with
  | operand => exact outcome_stepOperand stack p
  | complete e => exact outcome_stepComplete stack e p

/-- In `Reaches task p taken task' p'` steps lead from the task to another one, past the tokens in
`taken`. -/
inductive Reaches : Task → Parser → List Token → Task → Parser → Prop where
  | refl (task : Task) (p : Parser) : Reaches task p [] task p
  | head {task task₁ task' : Task} {p p₁ p' : Parser} {first rest : List Token}
      (h : Proceeds task p first task₁ p₁) (hrest : Reaches task₁ p₁ rest task' p') :
      Reaches task p (first ++ rest) task' p'

/-- A run ends behind a complete expression that no operator follows, or where a step fails. -/
theorem run_outcome (task : Task) (p : Parser) :
    (∃ taken e p', run task p = .ok e p' ∧ Reaches task p taken ⟨[], .complete e⟩ p' ∧
      ∀ op, p'.scanner.current.kind ≠ .operator op) ∨
    ∃ taken task' p' d p'', run task p = .error d p'' ∧ Reaches task p taken task' p' ∧
      Fails task' p' d p'' := by
  fun_induction run task p with
  | case1 task p task' p' hstep _ ih =>
    have hout := step_outcome task p
    rw [hstep] at hout
    obtain ⟨h⟩ := hout
    obtain ⟨taken, e, p₂, hrun, hreach, hcurrent⟩ |
      ⟨taken, task₂, p₂, d, p₃, hrun, hreach, hfails⟩ := ih
    · exact .inl ⟨_, e, p₂, hrun, .head h hreach, hcurrent⟩
    · exact .inr ⟨_, task₂, p₂, d, p₃, hrun, .head h hreach, hfails⟩
  | case2 task p e p' hstep =>
    have hout := step_outcome task p
    rw [hstep] at hout
    cases hout with
    | done htask hcurrent => exact .inl ⟨[], e, p, rfl, htask ▸ .refl task p, hcurrent⟩
  | case3 task p d p' hstep =>
    have hout := step_outcome task p
    rw [hstep] at hout
    cases hout with
    | failed h => exact .inr ⟨[], task, p, d, p', rfl, .refl task p, h⟩

/-- The parser `p'` comes from `p` by moving past the tokens in `taken`. -/
structure Continues (p : Parser) (taken : List Token) (p' : Parser) : Prop where
  ahead : p.scanner.ahead = taken ++ p'.scanner.ahead
  issue? : p.scanner.issue? = p'.scanner.issue?
  count : p'.scanner.count = p.scanner.count + taken.length
  depth : p'.depth = taken.foldl (fun depth token => token.kind.depthAfter depth) p.depth
  limits : p'.limits = p.limits
  category : p'.category = p.category
  scannerCategory : p'.scanner.category = p.scanner.category

lemma Continues.refl (p : Parser) : Continues p [] p :=
  ⟨rfl, rfl, rfl, rfl, rfl, rfl, rfl⟩

lemma Continues.trans {p p₁ p' : Parser} {first rest : List Token} (h : Continues p first p₁)
    (hrest : Continues p₁ rest p') : Continues p (first ++ rest) p' where
  ahead := by rw [h.ahead, hrest.ahead, List.append_assoc]
  issue? := h.issue?.trans hrest.issue?
  count := by rw [hrest.count, h.count, List.length_append, Nat.add_assoc]
  depth := by rw [hrest.depth, h.depth, List.foldl_append]
  limits := hrest.limits.trans h.limits
  category := hrest.category.trans h.category
  scannerCategory := hrest.scannerCategory.trans h.scannerCategory

lemma Proceeds.continues {task task' : Task} {p p' : Parser} {taken : List Token}
    (h : Proceeds task p taken task' p') : Continues p taken p' := by
  cases h with
  | take htakes hadvance hdepth =>
    rename_i s
    obtain ⟨s', hok, hfollowing, hcount, hcategory⟩ | ⟨issue, s', herror, -⟩ :=
      Scanner.advance_cases p.scanner htakes.isEnd_eq_false
    · rw [hadvance] at hok
      obtain ⟨-, rfl⟩ := EStateM.Result.ok.inj hok
      refine ⟨?_, ?_, hcount, rfl, rfl, rfl, hcategory⟩
      · simp [Scanner.ahead, hfollowing]
      · simp [Scanner.issue?, hfollowing]
    · rw [hadvance] at herror
      cases herror
  | join hlook hheight => exact ⟨rfl, rfl, rfl, rfl, rfl, rfl, rfl⟩

lemma Reaches.continues {task task' : Task} {p p' : Parser} {taken : List Token}
    (h : Reaches task p taken task' p') : Continues p taken p' := by
  induction h with
  | refl task p => exact .refl p
  | head hstep _ ih => exact hstep.continues.trans ih

lemma following_of_lexical {task task' : Task} {p : Parser} {d : Diagnostic} {s : Scanner}
    (htakes : Takes task p.scanner.current task') (hadvance : p.scanner.advance = .error d s) :
    ∃ issue, p.scanner.following = ([], some issue) ∧ d = issue.fileUnder p.scanner.category := by
  obtain ⟨s', hok, -⟩ | ⟨issue, s', herror, hfollowing, -⟩ :=
    Scanner.advance_cases p.scanner htakes.isEnd_eq_false
  · rw [hadvance] at hok
    cases hok
  · rw [hadvance] at herror
    exact ⟨issue, hfollowing, (EStateM.Result.error.inj herror).1⟩

/-! ### Moves over the tokens ahead -/

/-- What a run works on when scanner and limits are left out. -/
structure Configuration where
  task : Task
  temporaries : Nat
  ahead : List Token

inductive Move : Configuration → Configuration → Prop where
  | take {task task' : Task} {n : Nat} {token : Token} {rest : List Token}
      (htakes : Takes task token task') : Move ⟨task, n, token :: rest⟩ ⟨task', n, rest⟩
  | join {op : Operator} {span : Span} {left right : Expr} {stack : List Frame} {n : Nat}
      {token : Token} {rest : List Token} (hlook : token.kind.takesOperandFrom op = false) :
      Move ⟨⟨.operation op span left :: stack, .complete right⟩, n, token :: rest⟩
        ⟨⟨stack, .complete (.binary op ⟨n⟩ span left right)⟩, n + 1, token :: rest⟩

abbrev Moves : Configuration → Configuration → Prop :=
  Relation.ReflTransGen Move

lemma Takes.unique {task task₁ task₂ : Task} {token : Token} (h₁ : Takes task token task₁)
    (h₂ : Takes task token task₂) : task₁ = task₂ := by
  cases h₁ <;> cases h₂ <;> simp_all

lemma not_takes_of_look {op : Operator} {span : Span} {left right : Expr} {stack : List Frame}
    {token : Token} {task' : Task} (hlook : token.kind.takesOperandFrom op = false) :
    ¬Takes ⟨.operation op span left :: stack, .complete right⟩ token task' := by
  intro htakes
  cases htakes with
  | operator hkind hfits =>
    rw [hkind, TokenKind.takesOperandFrom_operator] at hlook
    rw [Rank.rank_fits_operation, hlook] at hfits
    cases hfits

lemma move_rightUnique : Relator.RightUnique Move := by
  intro c c₁ c₂ h₁ h₂
  cases h₁ with
  | take htakes =>
    cases h₂ with
    | take htakes' => rw [htakes.unique htakes']
    | join hlook => exact absurd htakes (not_takes_of_look hlook)
  | join hlook =>
    cases h₂ with
    | take htakes => exact absurd htakes (not_takes_of_look hlook)
    | join _ => rfl

lemma not_move_of_not_takes {task : Task} {n : Nat} {token : Token} {rest : List Token}
    (hjoin : ∀ op span left right stack, task ≠ ⟨.operation op span left :: stack, .complete right⟩)
    (hnot : ∀ task', ¬Takes task token task') (c : Configuration) :
    ¬Move ⟨task, n, token :: rest⟩ c := by
  intro hmove
  cases hmove with
  | take htakes => exact hnot _ htakes
  | join hlook => exact hjoin _ _ _ _ _ rfl

lemma not_move_of_complete {e : Expr} {n : Nat} {look : Token} {rest : List Token}
    (hlook : ∀ op, look.kind ≠ .operator op) (c : Configuration) :
    ¬Move ⟨⟨[], .complete e⟩, n, look :: rest⟩ c := by
  apply not_move_of_not_takes (by simp)
  intro task' htakes
  cases htakes with
  | operator hkind _ => exact hlook _ hkind

lemma eq_of_moves_of_stuck {c c' : Configuration} (hstuck : ∀ c₁, ¬Move c c₁) (h : Moves c c') :
    c = c' := by
  obtain rfl | ⟨c₁, hmove, -⟩ := h.cases_head
  · rfl
  · exact absurd hmove (hstuck c₁)

lemma moves_of_stuck {c c₁ c₂ : Configuration} (h₁ : Moves c c₁) (h₂ : Moves c c₂)
    (hstuck : ∀ c', ¬Move c₂ c') : Moves c₁ c₂ := by
  obtain h | h := Relation.ReflTransGen.total_of_right_unique move_rightUnique h₁ h₂
  · exact h
  · rw [eq_of_moves_of_stuck hstuck h]

/-- The moves from a configuration complete one expression at most. -/
lemma eq_of_moves_complete {c : Configuration} {e e' : Expr} {n n' : Nat} {look look' : Token}
    {rest rest' : List Token} (h : Moves c ⟨⟨[], .complete e⟩, n, look :: rest⟩)
    (h' : Moves c ⟨⟨[], .complete e'⟩, n', look' :: rest'⟩)
    (hlook : ∀ op, look.kind ≠ .operator op) (hlook' : ∀ op, look'.kind ≠ .operator op) :
    e = e' ∧ n = n' ∧ look = look' := by
  have hmoves := moves_of_stuck h h' (not_move_of_complete hlook')
  have heq := eq_of_moves_of_stuck (not_move_of_complete hlook) hmoves
  simp only [Configuration.mk.injEq, Task.mk.injEq, Focus.complete.injEq, List.cons.injEq] at heq
  exact ⟨heq.1.2, heq.2.1, heq.2.2.1⟩

def configuration (task : Task) (p : Parser) : Configuration :=
  ⟨task, p.temporaries, p.scanner.ahead⟩

lemma Proceeds.move {task task' : Task} {p p' : Parser} {taken : List Token}
    (h : Proceeds task p taken task' p') :
    Move (configuration task p) (configuration task' p') := by
  have hahead := h.continues.ahead
  cases h with
  | take htakes hadvance hdepth =>
    simp only [configuration, hahead]
    exact .take htakes
  | join hlook hheight => exact .join hlook

lemma Reaches.moves {task task' : Task} {p p' : Parser} {taken : List Token}
    (h : Reaches task p taken task' p') :
    Moves (configuration task p) (configuration task' p') := by
  induction h with
  | refl task p => exact .refl
  | head hstep _ ih => exact .head hstep.move ih

end Parser

structure Scanner.StartsOn (s : Scanner) (source : String) : Prop where
  readAll : (Cursor.ofSource source).readAll = (s.ahead, s.issue?)
  count : s.count = 1
  category : s.category = .badSource

lemma parse_eq_of_scanner {source : String} {limits : Limits} {s : Scanner}
    (h : Scanner.ofSource source .badSource = .ok s) :
    parse source limits =
      match (ofScanner s limits).parse with
      | .ok tree p => .ok ⟨tree, p.scanner.count, p.temporaries⟩
      | .error d _ => .error d := by
  simp only [parse, h, bind, Except.bind]
  cases (ofScanner s limits).parse <;> rfl

inductive ParseOutcome (source : String) (limits : Limits) : Except Diagnostic Parsed → Prop where
  | unscanned {issue : Issue} (hreadAll : (Cursor.ofSource source).readAll = ([], some issue)) :
      ParseOutcome source limits (.error (issue.fileUnder .badSource))
  | accepted {s : Scanner} {taken : List Token} {e : Expr} {p : Parser} (hstart : s.StartsOn source)
      (hreach : Reaches ⟨[], .operand⟩ (ofScanner s limits) taken ⟨[], .complete e⟩ p)
      (hend : p.scanner.current.kind = .endOfInput) :
      ParseOutcome source limits (.ok ⟨e, p.scanner.count, p.temporaries⟩)
  | trailing {s : Scanner} {taken : List Token} {e : Expr} {p : Parser} (hstart : s.StartsOn source)
      (hreach : Reaches ⟨[], .operand⟩ (ofScanner s limits) taken ⟨[], .complete e⟩ p)
      (hcurrent : ∀ op, p.scanner.current.kind ≠ .operator op)
      (hend : p.scanner.current.kind ≠ .endOfInput) :
      ParseOutcome source limits
        (.error (Issue.fileUnder ⟨.trailingToken, p.scanner.current.span⟩ .badSource))
  | failed {s : Scanner} {taken : List Token} {task : Task} {p p' : Parser} {d : Diagnostic}
      (hstart : s.StartsOn source)
      (hreach : Reaches ⟨[], .operand⟩ (ofScanner s limits) taken task p)
      (hfails : Fails task p d p') : ParseOutcome source limits (.error d)

theorem parse_outcome (source : String) (limits : Limits) :
    ParseOutcome source limits (parse source limits) := by
  obtain ⟨s, hscanner, hreadAll, hcount, hcategory⟩ | ⟨issue, hscanner, hreadAll⟩ :=
    Scanner.ofSource_cases source .badSource
  · have hstart : s.StartsOn source := ⟨hreadAll, hcount, hcategory⟩
    rw [parse_eq_of_scanner hscanner, Parser.parse, expression]
    obtain ⟨taken, e, p, hrun, hreach, hcurrent⟩ | ⟨taken, task, p, d, p', hrun, hreach, hfails⟩ :=
      run_outcome ⟨[], .operand⟩ (ofScanner s limits)
    · simp only [hrun]
      by_cases hend : p.scanner.current.kind = .endOfInput
      · simp only [Token.isEnd, hend, decide_true, if_true]
        exact .accepted hstart hreach hend
      · have hfiled : p.category = .badSource := hreach.continues.category
        simp only [Token.isEnd, hend, decide_false, fail, EStateM.run, hfiled]
        exact .trailing hstart hreach hcurrent hend
    · simp only [hrun]
      exact .failed hstart hreach hfails
  · simp only [parse, hscanner, bind, Except.bind]
    exact .unscanned hreadAll

lemma category_of_parse_error {source : String} {limits : Limits} {d : Diagnostic}
    (h : parse source limits = .error d) : d.category = .badSource := by
  have houtcome := parse_outcome source limits
  rw [h] at houtcome
  cases houtcome with
  | unscanned hreadAll => rfl
  | trailing hstart hreach hcurrent hend => rfl
  | failed hstart hreach hfails =>
    have hcategory := hreach.continues.category
    have hscanner := hreach.continues.scannerCategory.trans hstart.category
    cases hfails with
    | lexical htakes hadvance =>
      obtain ⟨issue, -, rfl⟩ := following_of_lexical htakes hadvance
      exact hscanner
    | operandExpected hnot => exact hcategory
    | closingExpected hnot => exact hcategory
    | nestedTooDeeply hkind hadvance hdepth => exact hcategory
    | expressionTooLong hlook hheight => exact hcategory

end ThreeAddress
