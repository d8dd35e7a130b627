import Mathlib
import ThreeAddress.Proofs.Transition

/-!
# Reading by recursive descent

The grammar as functions that call each other: a sum is a chain of products, a product is a chain of
operands, and an operand in parentheses is a sum again. A chain goes on as long as one of its
operators follows. The functions are told how many calls deep they may go and give nothing where
that is not enough, so a descent that went on for ever would give nothing at any depth.

A depth in proportion to what is ahead is enough, and the descent then gives what the parser gives
by its stack of frames (`Descent.expression_eq`). Moving past a token is a parameter of the descent,
and it may do anything when the current token is the end.
-/

open ThreeAddress.Parser

namespace ThreeAddress

namespace Rank

/-- The rank of the phrases that a chain joins. -/
def below : Rank → Rank
  | sum => product
  | product | operand => operand

/-- The operator that continues a chain, if the token is one. -/
def operator? : Rank → TokenKind → Option Operator
  | sum, .operator op => if op.bindsTightly then none else some op
  | product, .operator op => if op.bindsTightly then some op else none
  | _, _ => none

/-- How many calls lead from a phrase of the rank to the next token at most. -/
def calls : Rank → Nat
  | sum => 3
  | product => 2
  | operand => 1

end Rank

/-- A computation that may give nothing. If it gives something, it leaves a parser behind, also when
it fails. -/
abbrev Descent := ExceptT Diagnostic (StateT Parser Option)

namespace Descent

/-- What a result of the parser is as an answer. -/
def answer {α : Type} : EStateM.Result Diagnostic Parser α → Except Diagnostic α × Parser
  | .ok a p => (.ok a, p)
  | .error d p => (.error d, p)

/-- A computation of the parser, which always gives something. -/
def perform {α : Type} (x : EStateM Diagnostic Parser α) : Descent α := fun p =>
  some (answer (x.run p))

section

variable (move : Descent Unit)

/-- Ends an expression in parentheses. -/
def leaveGroup (e : Expr) : Descent Expr := do
  let token := (← get).scanner.current
  if token.kind = .closing then
    move
    perform closeGroup
    return e
  else perform (fail .closingExpected token.span)

mutual

def phrase : Nat → Rank → Descent Expr
  | 0, _ => fun _ => none
  | n + 1, .operand => do
    let token := (← get).scanner.current
    match token.kind with
    | .number value =>
      move
      return .literal value token.span
    | .opening =>
      move
      perform (openGroup token.span)
      let e ← phrase n .sum
      leaveGroup move e
    | _ => perform (fail .operandExpected token.span)
  | n + 1, rank => do
    let left ← phrase n rank.below
    chain n rank left

/-- Extends a phrase as long as an operator of its chain follows. -/
def chain : Nat → Rank → Expr → Descent Expr
  | 0, _, _ => fun _ => none
  | n + 1, rank, left => do
    let token := (← get).scanner.current
    match rank.operator? token.kind with
    | none => return left
    | some op =>
      move
      let right ← phrase n rank.below
      let e ← perform (join op token.span left right)
      chain n rank e

end

def expression (n : Nat) : Descent Expr :=
  phrase move n .sum

def parse (n : Nat) : Descent Expr := do
  let e ← expression move n
  let token := (← get).scanner.current
  if token.isEnd then return e else perform (fail .trailingToken token.span)

end

end Descent

namespace Descent

section

variable {α β : Type} {x y : Descent α} {k : α → Descent β} {p q : Parser}

lemma bind_of_ok {a : α} (h : x p = some (.ok a, q)) : (x >>= k) p = k a q := by
  change Option.bind (x p) _ = _
  rw [h]
  rfl

lemma bind_of_error {d : Diagnostic} (h : x p = some (.error d, q)) :
    (x >>= k) p = some (.error d, q) := by
  change Option.bind (x p) _ = _
  rw [h]
  rfl

lemma bind_of_eq (h : x p = y q) : (x >>= k) p = (y >>= k) q := by
  change Option.bind (x p) _ = Option.bind (y q) _
  rw [h]

lemma get_bind (k : Parser → Descent β) (p : Parser) : (get >>= k) p = k p p :=
  rfl

lemma perform_of_ok {z : EStateM Diagnostic Parser α} {a : α} (h : z.run p = .ok a q) :
    perform z p = some (.ok a, q) := by
  rw [perform, h, answer]

lemma perform_of_error {z : EStateM Diagnostic Parser α} {d : Diagnostic}
    (h : z.run p = .error d q) : perform z p = some (.error d, q) := by
  rw [perform, h, answer]

lemma perform_bind {γ : Type} (y : EStateM Diagnostic Parser α)
    (z : α → EStateM Diagnostic Parser β) (k : β → Descent γ) (p : Parser) :
    (perform y >>= fun a => perform (z a) >>= k) p = (perform (y >>= z) >>= k) p := by
  have hrun := EStateM.run_bind (s := p) y z
  cases hy : y.run p with
  | ok a q =>
    have hbind : perform (y >>= z) p = perform (z a) q := by simp only [perform, hrun, hy]
    rw [bind_of_ok (perform_of_ok hy), bind_of_eq hbind]
  | error d q =>
    rw [hy] at hrun
    rw [bind_of_error (perform_of_error hy), bind_of_error (perform_of_error hrun)]

end

end Descent

namespace Parser

/-- A run behind its first computation. -/
def goOn {α : Type} (next : α → Task) :
    EStateM.Result Diagnostic Parser α → EStateM.Result Diagnostic Parser Expr
  | .ok a q => run (next a) q
  | .error d q => .error d q

variable {stack : List Frame} {e : Expr} {p : Parser}

lemma run_of_number {value : Nat} (hkind : p.scanner.current.kind = .number value) :
    run ⟨stack, .operand⟩ p =
      goOn (fun _ => ⟨stack, .complete (.literal value p.scanner.current.span)⟩)
        (advance.run p) := by
  rw [run_eq]
  simp only [step, stepOperand, EStateM.run_bind, EStateM.run_get, hkind]
  cases advance.run p <;> rfl

lemma run_of_opening (hkind : p.scanner.current.kind = .opening) :
    run ⟨stack, .operand⟩ p =
      goOn (fun _ => ⟨.group :: stack, .operand⟩)
        ((advance >>= fun _ => openGroup p.scanner.current.span).run p) := by
  rw [run_eq]
  simp only [step, stepOperand, EStateM.run_bind, EStateM.run_get, hkind]
  cases advance.run p with
  | error d q => rfl
  | ok _ q =>
    dsimp only
    cases (openGroup p.scanner.current.span).run q <;> rfl

lemma run_of_operandExpected (hnumber : ∀ value, p.scanner.current.kind ≠ .number value)
    (hopening : p.scanner.current.kind ≠ .opening) :
    run ⟨stack, .operand⟩ p = (fail .operandExpected p.scanner.current.span).run p := by
  rw [run_eq]
  simp only [step, stepOperand, EStateM.run_bind, EStateM.run_get]
  cases hkind : p.scanner.current.kind with
  | number value => exact absurd hkind (hnumber value)
  | opening => exact absurd hkind hopening
  | operator _ | closing | endOfInput => rfl

lemma run_of_closing (hkind : p.scanner.current.kind = .closing) :
    run ⟨.group :: stack, .complete e⟩ p =
      goOn (fun _ => ⟨stack, .complete e⟩) ((advance >>= fun _ => closeGroup).run p) := by
  rw [run_eq]
  simp only [step, stepComplete, EStateM.run_bind, EStateM.run_get, hkind]
  cases advance.run p <;> rfl

lemma run_of_closingExpected (hoperator : ∀ op, p.scanner.current.kind ≠ .operator op)
    (hclosing : p.scanner.current.kind ≠ .closing) :
    run ⟨.group :: stack, .complete e⟩ p =
      (fail .closingExpected p.scanner.current.span).run p := by
  rw [run_eq]
  simp only [step, stepComplete, EStateM.run_bind, EStateM.run_get]
  cases hkind : p.scanner.current.kind with
  | operator op => exact absurd hkind (hoperator op)
  | closing => exact absurd hkind hclosing
  | number _ | opening | endOfInput => rfl

lemma run_of_complete (hoperator : ∀ op, p.scanner.current.kind ≠ .operator op) :
    run ⟨[], .complete e⟩ p = .ok e p := by
  rw [run_eq]
  simp only [step, stepComplete, EStateM.run_bind, EStateM.run_get]
  cases hkind : p.scanner.current.kind with
  | operator op => exact absurd hkind (hoperator op)
  | number _ | opening | closing | endOfInput => rfl

lemma run_of_join {op : Operator} {span : Span} {left right : Expr}
    (hlook : p.scanner.current.kind.takesOperandFrom op = false) :
    run ⟨.operation op span left :: stack, .complete right⟩ p =
      goOn (fun e => ⟨stack, .complete e⟩) ((join op span left right).run p) := by
  have hreduce : (step ⟨.operation op span left :: stack, .complete right⟩).run p =
      (reduce op span left right stack).run p := by
    simp only [step, stepComplete, EStateM.run_bind, EStateM.run_get]
    cases hkind : p.scanner.current.kind with
    | operator next =>
      rw [hkind, TokenKind.takesOperandFrom_operator] at hlook
      simp only [hlook, Bool.false_eq_true, if_false]
    | number _ | opening | closing | endOfInput => rfl
  rw [run_eq, hreduce]
  simp only [reduce, EStateM.run_bind]
  cases (join op span left right).run p <;> rfl

lemma run_of_operator {op : Operator} (hkind : p.scanner.current.kind = .operator op)
    (hfits : op.rank.fits stack = true) :
    run ⟨stack, .complete e⟩ p =
      goOn (fun _ => ⟨.operation op p.scanner.current.span e :: stack, .operand⟩)
        (advance.run p) := by
  have hshift : (step ⟨stack, .complete e⟩).run p =
      (shift op p.scanner.current.span e stack).run p := by
    simp only [step, stepComplete, EStateM.run_bind, EStateM.run_get]
    cases stack with
    | nil => simp only [hkind]
    | cons frame rest =>
      cases frame with
      | group => simp only [hkind]
      | operation waiting span left =>
        rw [Rank.rank_fits_operation] at hfits
        simp only [hkind, hfits, if_true]
  rw [run_eq, hshift]
  simp only [shift, EStateM.run_bind]
  cases advance.run p <;> rfl

end Parser

namespace Rank

/-- A token that continues neither a chain of the rank nor one of the rank below. -/
def Stops (rank : Rank) (kind : TokenKind) : Prop :=
  rank.operator? kind = none ∧ rank.below.operator? kind = none

lemma operator?_eq_some_iff {rank : Rank} {kind : TokenKind} {op : Operator} :
    rank.operator? kind = some op ↔ kind = .operator op ∧ op.rank = rank := by
  cases kind with
  | operator next => cases rank <;> cases next <;> cases op <;> decide
  | number _ | opening | closing | endOfInput => cases rank <;> simp [operator?]

lemma Stops.ne_operator {kind : TokenKind} (h : sum.Stops kind) (op : Operator) :
    kind ≠ .operator op := by
  rintro rfl
  cases op <;> simp [Stops, operator?, below, Operator.bindsTightly] at h

lemma stops_of_below {rank : Rank} {kind : TokenKind} (h : rank.operator? kind = none)
    (hbelow : rank.below.Stops kind) : rank.Stops kind :=
  ⟨h, hbelow.1⟩

lemma stops_operand (kind : TokenKind) : operand.Stops kind := by
  cases kind <;> exact ⟨rfl, rfl⟩

lemma calls_below (rank : Rank) : rank.below.calls ≤ 2 := by
  cases rank <;> decide

lemma fits_below {rank : Rank} {stack : List Parser.Frame} (h : rank.fits stack = true) :
    rank.below.fits stack = true := by
  cases rank with
  | sum => exact fits_product_of_fits_sum h
  | product | operand =>
    unfold fits
    split <;> simp_all [below]

lemma below_fits_operation (op : Operator) (span : Span) (left : Expr)
    (stack : List Parser.Frame) :
    op.rank.below.fits (.operation op span left :: stack) = true := by
  cases op <;> rfl

lemma Stops.takesOperandFrom_eq_false {op : Operator} {kind : TokenKind}
    (h : op.rank.below.Stops kind) : kind.takesOperandFrom op = false := by
  cases kind with
  | operator next =>
    cases op <;> cases next <;> first | rfl | cases h.1
  | number _ | opening | closing | endOfInput => rfl

end Rank

/-! ### The descent and the run -/

namespace Descent

/-- How the descent into a phrase of the rank answers to a run that ends with `result`: it fails as
the run does, or it ends with an expression that the run has completed on the same stack. -/
inductive Arrives (result : EStateM.Result Diagnostic Parser Expr) (bound : Nat) (rank : Rank)
    (stack : List Frame) : Option (Except Diagnostic Expr × Parser) → Prop where
  | failed {d : Diagnostic} {q : Parser} (hresult : result = .error d q) :
      Arrives result bound rank stack (some (.error d, q))
  | complete {e : Expr} {q : Parser} (hresult : result = run ⟨stack, .complete e⟩ q)
      (hsize : q.scanner.size < bound) (hstops : rank.Stops q.scanner.current.kind) :
      Arrives result bound rank stack (some (.ok e, q))

section

variable {result : EStateM.Result Diagnostic Parser Expr} {bound bound' : Nat} {rank rank' : Rank}
  {stack stack' : List Frame} {x : Descent Expr} {p : Parser}

lemma Arrives.mono {y : Option (Except Diagnostic Expr × Parser)}
    (h : Arrives result bound rank stack y) (hle : bound ≤ bound') :
    Arrives result bound' rank stack y := by
  cases h with
  | failed hresult => exact .failed hresult
  | complete hresult hsize hstops => exact .complete hresult (hsize.trans_le hle) hstops

lemma Arrives.bind {k : Expr → Descent Expr} (h : Arrives result bound rank stack (x p))
    (hk : ∀ e q, q.scanner.size < bound → rank.Stops q.scanner.current.kind →
      Arrives (run ⟨stack, .complete e⟩ q) bound' rank' stack' (k e q)) :
    Arrives result bound' rank' stack' ((x >>= k) p) := by
  generalize hx : x p = y at h
  cases h with
  | failed hresult =>
    rw [bind_of_error hx]
    exact .failed hresult
  | complete hresult hsize hstops =>
    rw [bind_of_ok hx, hresult]
    exact hk _ _ hsize hstops

lemma arrives_perform {α : Type} {y : EStateM Diagnostic Parser α} {next : α → Task}
    {k : α → Descent Expr}
    (hk : ∀ a q, y.run p = .ok a q → Arrives (run (next a) q) bound rank stack (k a q)) :
    Arrives (goOn next (y.run p)) bound rank stack ((perform y >>= k) p) := by
  cases hy : y.run p with
  | ok a q =>
    rw [bind_of_ok (perform_of_ok hy)]
    exact hk a q hy
  | error d q =>
    rw [bind_of_error (perform_of_error hy)]
    exact .failed rfl

lemma arrives_fail {cause : Cause} {span : Span} :
    Arrives ((fail cause span).run p) bound rank stack (perform (fail cause span) p) :=
  .failed rfl

end

section

variable {move : Descent Unit} {n : Nat} {stack : List Frame} {p : Parser}

/-- To move is what it is for the parser, as long as the current token is not the end. -/
def MovesOn (move : Descent Unit) : Prop :=
  ∀ p : Parser, p.scanner.current.isEnd = false → move p = perform advance p

lemma size_lt_of_advance_bind {α : Type} {y : EStateM Diagnostic Parser α} {a : α} {q : Parser}
    (h : (advance >>= fun _ => y).run p = .ok a q) (hend : p.scanner.current.isEnd = false)
    (hscanner : ∀ p₁ q, y.run p₁ = .ok a q → q.scanner = p₁.scanner) :
    q.scanner.size < p.scanner.size := by
  rw [EStateM.run_bind] at h
  cases hadvance : advance.run p with
  | ok _ p₁ =>
    rw [hadvance] at h
    rw [hscanner p₁ q h]
    exact size_lt_of_advance hadvance hend
  | error d p₁ =>
    rw [hadvance] at h
    cases h

/-- From every state with little enough ahead, phrases and chains arrive with the run. -/
structure Follows (move : Descent Unit) (n : Nat) : Prop where
  phrase : ∀ (p : Parser) rank stack, 3 * p.scanner.size + rank.calls ≤ n →
    rank.fits stack = true →
    Arrives (run ⟨stack, .operand⟩ p) p.scanner.size rank stack (phrase move n rank p)
  chain : ∀ (p : Parser) rank stack left, 3 * p.scanner.size < n → rank.fits stack = true →
    rank.below.Stops p.scanner.current.kind →
    Arrives (run ⟨stack, .complete left⟩ p) (p.scanner.size + 1) rank stack
      (chain move n rank left p)

lemma arrives_leaveGroup (hmove : MovesOn move) {e : Expr}
    (hstops : Rank.sum.Stops p.scanner.current.kind) :
    Arrives (run ⟨.group :: stack, .complete e⟩ p) p.scanner.size .operand stack
      (leaveGroup move e p) := by
  rw [leaveGroup, get_bind]
  by_cases hkind : p.scanner.current.kind = .closing
  · have hend : p.scanner.current.isEnd = false := by simp [Token.isEnd, hkind]
    rw [if_pos hkind, bind_of_eq (hmove p hend), perform_bind, run_of_closing hkind]
    apply arrives_perform
    intro _ q hrun
    have hsize := size_lt_of_advance_bind hrun hend (fun p₁ q h => by cases h; rfl)
    exact .complete rfl hsize (Rank.stops_operand _)
  · rw [if_neg hkind, run_of_closingExpected hstops.ne_operator hkind]
    exact arrives_fail

lemma arrives_operand (hmove : MovesOn move) (ih : Follows move n)
    (hn : 3 * p.scanner.size ≤ n) :
    Arrives (run ⟨stack, .operand⟩ p) p.scanner.size .operand stack
      (phrase move (n + 1) .operand p) := by
  rw [phrase, get_bind]
  cases hkind : p.scanner.current.kind with
  | number value =>
    have hend : p.scanner.current.isEnd = false := by simp [Token.isEnd, hkind]
    dsimp only
    rw [bind_of_eq (hmove p hend), run_of_number hkind]
    apply arrives_perform
    intro _ q hrun
    exact .complete rfl (size_lt_of_advance hrun hend) (Rank.stops_operand _)
  | opening =>
    have hend : p.scanner.current.isEnd = false := by simp [Token.isEnd, hkind]
    dsimp only
    rw [bind_of_eq (hmove p hend), perform_bind, run_of_opening hkind]
    apply arrives_perform
    intro _ q hrun
    have hsize := size_lt_of_advance_bind hrun hend (fun p₁ q => scanner_eq_of_openGroup)
    have hdepth : 3 * q.scanner.size + Rank.sum.calls ≤ n := by
      rw [Rank.calls]
      omega
    apply (ih.phrase q .sum (.group :: stack) hdepth (Rank.fits_group _ _)).bind
    intro e q' hsize' hstops
    exact (arrives_leaveGroup hmove hstops).mono (by omega)
  | operator _ | closing | endOfInput =>
    rw [run_of_operandExpected (by simp [hkind]) (by simp [hkind])]
    exact arrives_fail

lemma arrives_chain (hmove : MovesOn move) {rank : Rank} {left : Expr} (ih : Follows move n)
    (hn : 3 * p.scanner.size ≤ n) (hfits : rank.fits stack = true)
    (hstops : rank.below.Stops p.scanner.current.kind) :
    Arrives (run ⟨stack, .complete left⟩ p) (p.scanner.size + 1) rank stack
      (chain move (n + 1) rank left p) := by
  rw [chain, get_bind]
  cases hoperator : rank.operator? p.scanner.current.kind with
  | none => exact .complete rfl (Nat.lt_succ_self _) (Rank.stops_of_below hoperator hstops)
  | some op =>
    obtain ⟨hkind, rfl⟩ := Rank.operator?_eq_some_iff.mp hoperator
    have hend : p.scanner.current.isEnd = false := by simp [Token.isEnd, hkind]
    dsimp only
    rw [bind_of_eq (hmove p hend), run_of_operator hkind hfits]
    apply arrives_perform
    intro _ q hadvance
    have hsize := size_lt_of_advance hadvance hend
    have hcalls := Rank.calls_below op.rank
    apply (ih.phrase q _ _ (by omega) (Rank.below_fits_operation _ _ _ _)).bind
    intro right q₁ hsize₁ hstops₁
    rw [run_of_join hstops₁.takesOperandFrom_eq_false]
    apply arrives_perform
    intro e q₂ hjoin
    have hscanner := scanner_eq_of_join hjoin
    rw [← hscanner] at hsize₁ hstops₁
    apply (ih.chain q₂ op.rank stack e (by omega) hfits hstops₁).mono
    omega

lemma arrives_links {rank : Rank} (ih : Follows move n)
    (hn : 3 * p.scanner.size + rank.below.calls ≤ n) (hfits : rank.fits stack = true) :
    Arrives (run ⟨stack, .operand⟩ p) p.scanner.size rank stack
      ((phrase move n rank.below >>= chain move n rank) p) := by
  apply (ih.phrase p rank.below stack hn (Rank.fits_below hfits)).bind
  intro e q hsize hstops
  exact (ih.chain q rank stack e (by omega) hfits hstops).mono hsize

theorem follows (hmove : MovesOn move) (n : Nat) : Follows move n := by
  -- What is ahead gets smaller before a chain goes on and before a parenthesis leads back to a
  -- sum, which pays for the calls down to the next token.
  induction n with
  | zero =>
    constructor
    · intro p rank stack hn
      cases rank <;> simp [Rank.calls] at hn
    · intro p rank stack left hn
      cases hn
  | succ n ih =>
    refine ⟨fun p rank stack hn hfits => ?_, fun p rank stack left hn =>
      arrives_chain hmove ih (Nat.le_of_lt_succ hn)⟩
    cases rank with
    | operand => exact arrives_operand hmove ih (Nat.le_of_succ_le_succ hn)
    | product | sum =>
      rw [phrase]
      · exact arrives_links ih (Nat.le_of_succ_le_succ hn) hfits
      · simp

/-- The descent gives what the parser gives, whatever moving past the end would do. -/
theorem expression_eq (hmove : MovesOn move) (hn : 3 * p.scanner.size + 3 ≤ n) :
    expression move n p = some (answer p.expression) := by
  have harrives := (follows hmove n).phrase p .sum [] hn (Rank.fits_nil _)
  rw [Descent.expression, Parser.expression]
  generalize run ⟨[], .operand⟩ p = result at harrives
  generalize phrase move n .sum p = y at harrives
  cases harrives with
  | failed hresult => rw [hresult, answer]
  | complete hresult hsize hstops =>
    rw [hresult, run_of_complete hstops.ne_operator, answer]

theorem parse_eq (hmove : MovesOn move) (hn : 3 * p.scanner.size + 3 ≤ n) :
    parse move n p = some (answer p.parse) := by
  have hexpression := expression_eq hmove hn
  rw [Descent.parse, Parser.parse]
  cases hresult : p.expression with
  | error d q =>
    rw [hresult] at hexpression
    rw [bind_of_error hexpression, answer]
  | ok e q =>
    rw [hresult] at hexpression
    rw [bind_of_ok hexpression, get_bind]
    dsimp only
    by_cases hend : q.scanner.current.isEnd = true
    · rw [if_pos hend, if_pos hend]
      rfl
    · rw [if_neg hend, if_neg hend]
      rfl

end

end Descent

end ThreeAddress
