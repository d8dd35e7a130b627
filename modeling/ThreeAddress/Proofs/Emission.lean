import ThreeAddress.Compilation
import ThreeAddress.Proofs.Acceptance

/-!
# What an evaluation computes and emits

The outcome of an expression and the code it emits are functions of the expression alone, also when
a division by zero cuts the code short. `Expr.evaluate_toTree` says that evaluation computes them
for every sink, and `compile_of_parse` that compiling a source text does.
-/

namespace ThreeAddress

namespace Operator

variable {op : Operator} {span place : Span} {left right : Except Span Int}

lemma combine_eq_ok {value : Int} (h : op.combine span left right = .ok value) :
    ∃ a b, left = .ok a ∧ right = .ok b ∧ op.meaning? a b = some value := by
  cases left with
  | error _ => cases h
  | ok a =>
    cases right with
    | error _ => cases h
    | ok b =>
      refine ⟨a, b, rfl, rfl, ?_⟩
      simp only [combine, bind, Except.bind] at h
      cases hvalue : op.meaning? a b with
      | none =>
        rw [hvalue] at h
        cases h
      | some _ =>
        rw [hvalue] at h
        cases h
        rfl

lemma combine_eq_error (h : op.combine span left right = .error place) :
    left = .error place ∨ (∃ a, left = .ok a ∧ right = .error place) ∨
      ∃ a b, left = .ok a ∧ right = .ok b ∧ op.meaning? a b = none ∧ place = span := by
  cases left with
  | error _ => exact .inl h
  | ok a =>
    cases right with
    | error _ => exact .inr (.inl ⟨a, rfl, h⟩)
    | ok b =>
      refine .inr (.inr ⟨a, b, rfl, rfl, ?_⟩)
      simp only [combine, bind, Except.bind] at h
      cases hvalue : op.meaning? a b with
      | none =>
        rw [hvalue] at h
        exact ⟨rfl, (Except.error.inj h).symm⟩
      | some _ =>
        rw [hvalue] at h
        cases h

lemma combine_of_some {a b value : Int} (h : op.meaning? a b = some value) :
    op.combine span (.ok a) (.ok b) = .ok value := by
  simp only [combine, bind, Except.bind, h]
  rfl

lemma combine_of_none {a b : Int} (h : op.meaning? a b = none) :
    op.combine span (.ok a) (.ok b) = .error span := by
  simp only [combine, bind, Except.bind, h]
  rfl

end Operator

namespace Expr

/-- The value of an expression, or the operator of the first division by zero. -/
def outcome : Expr → Except Span Int
  | literal value _ => .ok value
  | binary op _ span left right => op.combine span left.outcome right.outcome

def operandText : Expr → String
  | literal value _ => (value : Int).repr
  | binary _ target _ _ _ => target.name

/-- The instructions that evaluating an expression emits. A division by zero emits none, and
nothing is emitted behind it. -/
def code : Expr → List Instruction
  | literal _ _ => []
  | binary op target span left right =>
    match left.outcome, right.outcome with
    | .error _, _ => left.code
    | .ok _, .error _ => left.code ++ right.code
    | .ok a, .ok b =>
      match op.meaning? a b with
      | none => left.code ++ right.code
      | some _ =>
        left.code ++ right.code ++ [⟨target.name, op, left.operandText, right.operandText, span⟩]

def Short : Expr → Prop
  | literal value _ => value < Nat.pow 10 Text.digitLimit
  | binary _ _ _ left right => left.Short ∧ right.Short

lemma decimal?_natCast {value : Nat} (h : value < Nat.pow 10 Text.digitLimit) :
    Text.decimal? value = some (value : Int).repr := by
  have hpos : 0 < Text.digitLimit := by decide
  rw [Text.decimal?, Int.natAbs_natCast]
  generalize Text.digitLimit = limit at h hpos ⊢
  rw [if_pos ((Nat.length_repr_le_iff hpos).mpr h)]

lemma exists_label {e : Expr} (h : e.Short) :
    ∃ label, e.toTree.label? = some label ∧ label.operand? = some e.operandText := by
  cases e with
  | literal value span => exact ⟨.literal value, rfl, decimal?_natCast h⟩
  | binary op target span left right => exact ⟨.operator op target.name, rfl, rfl⟩

end Expr

def deliver {σ : Type} (emit : Instruction → σ → σ) (code : List Instruction) (sink : σ) : σ :=
  code.foldl (fun sink i => emit i sink) sink

lemma deliver_append {σ : Type} (emit : Instruction → σ → σ) (code more : List Instruction)
    (sink : σ) : deliver emit (code ++ more) sink = deliver emit more (deliver emit code sink) :=
  List.foldl_append

lemma Operator.perform_run {σ : Type} {emit : Instruction → σ → σ} {op : Operator} {name : String}
    {span : Span} {left right : Label} {instruction : Instruction}
    (h : Instruction.ofLabels? op name span left right = some instruction) (a b : Int) (sink : σ) :
    (op.perform emit name span left right a b).run sink =
      match op.meaning? a b with
      | none => .error (.divisionByZero span) sink
      | some value => .ok value (emit instruction sink) := by
  cases hvalue : op.meaning? a b with
  | none =>
    rw [perform, if_pos (meaning?_eq_none_iff.mp hvalue)]
    rfl
  | some value =>
    rw [perform, if_neg (not_zero_division_of_meaning? hvalue)]
    simp only [compute?_eq_meaning?, hvalue, h]
    rfl

/-- Evaluation computes the outcome and sends the code to the sink, whatever the sink is. -/
theorem Expr.evaluate_toTree {σ : Type} (emit : Instruction → σ → σ) {e : Expr} (h : e.Short)
    (sink : σ) :
    (e.toTree.evaluate emit).run sink =
      match e.outcome with
      | .ok value => .ok value (deliver emit e.code sink)
      | .error span => .error (.divisionByZero span) (deliver emit e.code sink) := by
  induction e generalizing sink with
  | literal value span => rfl
  | binary op target span left right ihl ihr =>
    obtain ⟨leftLabel, hleftLabel, hleftText⟩ := exists_label h.1
    obtain ⟨rightLabel, hrightLabel, hrightText⟩ := exists_label h.2
    have hinstruction : Instruction.ofLabels? op target.name span leftLabel rightLabel =
        some ⟨target.name, op, left.operandText, right.operandText, span⟩ := by
      rw [Instruction.ofLabels?, hleftText, hrightText]
      rfl
    simp only [toTree, Tree.evaluate, hleftLabel, hrightLabel, EStateM.run_bind, ihl h.1]
    rw [outcome, code]
    cases hleft : left.outcome with
    | error place => rfl
    | ok a =>
      simp only [ihr h.2]
      cases hright : right.outcome with
      | error place =>
        simp only [deliver_append]
        rfl
      | ok b =>
        simp only [Operator.combine, bind, Except.bind, Operator.perform_run hinstruction]
        cases hvalue : op.meaning? a b with
        | none =>
          simp only [deliver_append]
          rfl
        | some value =>
          simp only [deliver_append]
          rfl

lemma Reads.short {rank : Rank} {tokens : List Token} {e : Expr} (h : Reads rank tokens e)
    (htokens : ∀ token ∈ tokens, token.kind.Short) : e.Short := by
  induction h with
  | literal hkind =>
    have hshort := htokens _ List.mem_cons_self
    rw [hkind] at hshort
    exact hshort
  | group hstart hstop _ ih => exact ih (fun token ht => htokens token (by simp [ht]))
  | ofOperand _ ih => exact ih htokens
  | ofProduct _ ih => exact ih htokens
  | extendProduct hkind tight _ _ ihl ihr | extendSum hkind loose _ _ ihl ihr =>
    exact ⟨ihl (fun token ht => htokens token (by simp [ht])),
      ihr (fun token ht => htokens token (by simp [ht]))⟩

theorem short_of_parse {source : String} {limits : Limits} {parsed : Parsed}
    (h : parse source limits = .ok parsed) : parsed.tree.Short := by
  obtain ⟨tokens, last, htokens, -, hreads, -⟩ := exists_reads_of_parse h
  rw [tokenize_eq_ok_iff] at htokens
  apply hreads.short
  intro token ht
  have hmem : token ∈ scannedTokens source := by
    rw [scannedTokens, htokens]
    exact List.mem_append_left _ ht
  exact Cursor.short_of_mem_readAll hmem

/-- The output after an instruction has been emitted. -/
def Output.emit (echo : Bool) (out : Output) (i : Instruction) : Output :=
  if echo then (out.record (.emitted i)).print ("  " ++ i.text) else out.record (.emitted i)

lemma deliver_emit (echo : Bool) (code : List Instruction) (start : Array Instruction)
    (out : Output) :
    deliver (Pipeline.emit echo) code (start, out) =
      (start ++ code.toArray, code.foldl (Output.emit echo) out) := by
  induction code generalizing start out with
  | nil => simp [deliver]
  | cons i code ih =>
    have htail := ih (start.push i) (out.emit echo i)
    rw [deliver, List.foldl_cons]
    change deliver (Pipeline.emit echo) code (start.push i, out.emit echo i) = _
    rw [htail]
    simp

namespace Pipeline

theorem evaluate_run {e : Expr} (h : e.Short) (echo : Bool) (out : Output) :
    (evaluate echo e.toTree).run out =
      match e.outcome with
      | .ok value => .ok (value, e.code) (e.code.foldl (Output.emit echo) out)
      | .error span => .error (.divisionByZero span) (e.code.foldl (Output.emit echo) out) := by
  have hrun := Expr.evaluate_toTree (emit echo) h (#[], out)
  simp only [EStateM.run, evaluate, evaluateInto] at hrun ⊢
  rw [hrun, deliver_emit]
  cases e.outcome with
  | ok value => simp
  | error span => rfl

variable {source : String} {limits : Limits}

lemma parse_run {parsed : Parsed} (h : ThreeAddress.parse source limits = .ok parsed)
    (out : Output) :
    (parse source limits).run out =
      .ok parsed (out.record (.parsed parsed.tree.height parsed.temporaries)) := by
  simp only [parse, h]
  rfl

lemma parse_run_of_error {d : Diagnostic} (h : ThreeAddress.parse source limits = .error d)
    (out : Output) :
    (parse source limits).run out = .error (.diagnostic d) (out.record (.reported d)) := by
  simp only [parse, h]
  rfl

end Pipeline

def Output.compiled (out : Output) (source : String) (parsed : Parsed) : Output :=
  parsed.tree.code.foldl (Output.emit false)
    ((out.record (.compiling source.utf8ByteSize)).record
      (.parsed parsed.tree.height parsed.temporaries))

theorem compile_of_parse {source : String} {limits : Limits} {parsed : Parsed}
    (h : parse source limits = .ok parsed) (out : Output) :
    (compile source limits).run out =
      match parsed.tree.outcome with
      | .ok value => .ok ⟨value, parsed.tree.code, parsed.tree⟩ (out.compiled source parsed)
      | .error span => .error (.divisionByZero span) (out.compiled source parsed) := by
  simp only [compile, EStateM.run_bind, Pipeline.record, EStateM.run_modify,
    Pipeline.parse_run h, Pipeline.evaluate_run (short_of_parse h)]
  cases parsed.tree.outcome <;> rfl

theorem compile_of_parse_error {source : String} {limits : Limits} {d : Diagnostic}
    (h : parse source limits = .error d) (out : Output) :
    (compile source limits).run out = .error (.diagnostic d)
      ((out.record (.compiling source.utf8ByteSize)).record (.reported d)) := by
  simp only [compile, EStateM.run_bind, Pipeline.record, EStateM.run_modify,
    Pipeline.parse_run_of_error h]

end ThreeAddress
