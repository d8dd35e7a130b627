import Mathlib
import ThreeAddress.Proofs.Emission

/-!
# Compilation computes the value of its tokens

The grammar gives a list of tokens a value without a tree. Readings connect the two: the outcome of
an expression is the value of the tokens it was read from, so a compilation returns that value or
fails at the first division by zero.
-/

namespace ThreeAddress

theorem Reads.denotes {rank : Rank} {tokens : List Token} {e : Expr} (h : Reads rank tokens e) :
    Denotes rank tokens e.outcome := by
  induction h with
  | literal hkind =>
    rename_i token value
    obtain ⟨kind, span⟩ := token
    obtain rfl : kind = .number value := hkind
    exact .number value span
  | group hstart hstop _ ih =>
    rename_i start stop tokens e _
    obtain ⟨kind, span⟩ := start
    obtain ⟨kind', span'⟩ := stop
    obtain rfl : kind = .opening := hstart
    obtain rfl : kind' = .closing := hstop
    exact .group span span' ih
  | ofOperand _ ih => exact .ofOperand ih
  | ofProduct _ ih => exact .ofProduct ih
  | extendProduct hkind tight _ _ ihl ihr =>
    rename_i token op target tokens more left right _ _
    obtain ⟨kind, span⟩ := token
    obtain rfl : kind = .operator op := hkind
    exact .extendProduct tight ihl ihr
  | extendSum hkind loose _ _ ihl ihr =>
    rename_i token op target tokens more left right _ _
    obtain ⟨kind, span⟩ := token
    obtain rfl : kind = .operator op := hkind
    exact .extendSum loose ihl ihr

theorem Denotes.exists_reads {rank : Rank} {tokens : List Token} {outcome : Except Span Int}
    (h : Denotes rank tokens outcome) (n : Nat) :
    ∃ e, Reads rank tokens e ∧ e.Numbered n ∧ e.outcome = outcome := by
  induction h generalizing n with
  | number value span => exact ⟨.literal value span, .literal rfl, trivial, rfl⟩
  | group start stop _ ih =>
    obtain ⟨e, hreads, hrest⟩ := ih n
    exact ⟨e, .group rfl rfl hreads, hrest⟩
  | ofOperand _ ih =>
    obtain ⟨e, hreads, hrest⟩ := ih n
    exact ⟨e, .ofOperand hreads, hrest⟩
  | ofProduct _ ih =>
    obtain ⟨e, hreads, hrest⟩ := ih n
    exact ⟨e, .ofProduct hreads, hrest⟩
  | extendProduct tight _ _ ihl ihr =>
    obtain ⟨left, hleft, hleftNumbered, rfl⟩ := ihl n
    obtain ⟨right, hright, hrightNumbered, rfl⟩ := ihr (n + left.operationCount)
    exact ⟨_, .extendProduct rfl tight hleft hright, ⟨hleftNumbered, hrightNumbered, rfl⟩, rfl⟩
  | extendSum loose _ _ ihl ihr =>
    obtain ⟨left, hleft, hleftNumbered, rfl⟩ := ihl n
    obtain ⟨right, hright, hrightNumbered, rfl⟩ := ihr (n + left.operationCount)
    exact ⟨_, .extendSum rfl loose hleft hright, ⟨hleftNumbered, hrightNumbered, rfl⟩, rfl⟩

theorem Denotes.unique {tokens : List Token} {first second : Except Span Int}
    (h₁ : Denotes .sum tokens first) (h₂ : Denotes .sum tokens second) : first = second := by
  obtain ⟨e, hreads, hnumbered, rfl⟩ := h₁.exists_reads 0
  obtain ⟨e', hreads', hnumbered', rfl⟩ := h₂.exists_reads 0
  rw [hreads.unique hreads' hnumbered hnumbered']

theorem Denotes.exists_division {rank : Rank} {tokens : List Token} {outcome : Except Span Int}
    (h : Denotes rank tokens outcome) {span : Span} (herror : outcome = .error span) :
    ⟨.operator .div, span⟩ ∈ tokens := by
  induction h with
  | number value _ => cases herror
  | group start stop _ ih => simp [ih herror]
  | ofOperand _ ih => exact ih herror
  | ofProduct _ ih => exact ih herror
  | extendProduct tight _ _ ihl ihr | extendSum loose _ _ ihl ihr =>
    obtain hleft | ⟨a, -, hright⟩ | ⟨a, b, -, -, hnone, rfl⟩ := Operator.combine_eq_error herror
    · simp [ihl hleft]
    · simp [ihr hright]
    · simp [(Operator.meaning?_eq_none_iff.mp hnone).1]

lemma compileToValue_run (source : String) (limits : Limits) (out : Output) :
    (compileToValue source limits).run out =
      match (compile source limits).run out with
      | .ok compilation out' => .ok compilation.value out'
      | .error fault out' => .error fault out' := by
  rw [compileToValue, EStateM.run_bind]
  cases (compile source limits).run out <;> rfl

/-- Compiling a source text, also to its value alone, gives the outcome: the value, or the failure
of a division by zero at the span. -/
def CompilesTo (source : String) (limits : Limits) : Except Span Int → Prop
  | .ok value => ∀ out, ∃ compilation out',
      (compile source limits).run out = .ok compilation out' ∧ compilation.value = value ∧
      (compileToValue source limits).run out = .ok value out'
  | .error span => ∃ d : Diagnostic,
      d.category = .zeroDivisor ∧ d.message = "division by zero" ∧ d.span = span ∧
      ∀ out, ∃ out', (compile source limits).run out = .error (.diagnostic d) out' ∧
        (compileToValue source limits).run out = .error (.diagnostic d) out'

lemma compilesTo_of_parse {source : String} {limits : Limits} {parsed : Parsed}
    (h : parse source limits = .ok parsed) : CompilesTo source limits parsed.tree.outcome := by
  have hrun := compile_of_parse h
  cases houtcome : parsed.tree.outcome with
  | ok value =>
    rw [houtcome] at hrun
    intro out
    refine ⟨_, _, hrun out, rfl, ?_⟩
    rw [compileToValue_run, hrun out]
  | error span =>
    rw [houtcome] at hrun
    refine ⟨⟨⟨.divisionByZero, span⟩, .zeroDivisor⟩, rfl, rfl, rfl, ?_⟩
    intro out
    refine ⟨_, hrun out, ?_⟩
    rw [compileToValue_run, hrun out]
    rfl

lemma CompilesTo.unique {source : String} {limits : Limits} {first second : Except Span Int}
    (h₁ : CompilesTo source limits first) (h₂ : CompilesTo source limits second) :
    first = second := by
  cases first with
  | ok a =>
    obtain ⟨_, _, -, -, hrun₁⟩ := h₁ {}
    cases second with
    | ok b =>
      obtain ⟨_, _, -, -, hrun₂⟩ := h₂ {}
      rw [hrun₁] at hrun₂
      cases hrun₂
      rfl
    | error t =>
      obtain ⟨_, -, -, -, hruns₂⟩ := h₂
      obtain ⟨_, -, hrun₂⟩ := hruns₂ {}
      rw [hrun₁] at hrun₂
      cases hrun₂
  | error s =>
    obtain ⟨_, -, -, rfl, hruns₁⟩ := h₁
    obtain ⟨_, -, hrun₁⟩ := hruns₁ {}
    cases second with
    | ok b =>
      obtain ⟨_, _, -, -, hrun₂⟩ := h₂ {}
      rw [hrun₁] at hrun₂
      cases hrun₂
    | error t =>
      obtain ⟨_, -, -, rfl, hruns₂⟩ := h₂
      obtain ⟨_, -, hrun₂⟩ := hruns₂ {}
      rw [hrun₁] at hrun₂
      cases hrun₂
      rfl

/-- Compiling an accepted text returns the one value that the grammar gives to its tokens. If that
is the failure of a division, the compilation fails at the sign of that division. -/
theorem compile_computes_denotation {source : String} {limits : Limits} {parsed : Parsed}
    (h : parse source limits = .ok parsed) :
    ∃ tokens last outcome, tokenize source = .ok (tokens ++ [last]) ∧ last.kind = .endOfInput ∧
      (∀ other, Denotes .sum tokens other ↔ other = outcome) ∧
      (∀ span, outcome = .error span → ⟨.operator .div, span⟩ ∈ tokens) ∧
      CompilesTo source limits outcome := by
  obtain ⟨tokens, last, htokens, hlast, hreads, -⟩ := exists_reads_of_parse h
  have hdenotes := hreads.denotes
  refine ⟨tokens, last, parsed.tree.outcome, htokens, hlast, ?_, ?_, compilesTo_of_parse h⟩
  · intro other
    constructor
    · intro hother
      exact hother.unique hdenotes
    · rintro rfl
      exact hdenotes
  · intro span hspan
    exact hdenotes.exists_division hspan

/-- Of two divisions by zero the first one is reported, and a quotient loses its fraction. -/
theorem compile_computes_denotation_of_two_divisions :
    (∃ parsed, parse "4/(2-2)*(1/0)" {} = .ok parsed ∧
      ∃ tokens last, tokenize "4/(2-2)*(1/0)" = .ok (tokens ++ [last]) ∧
        last.kind = .endOfInput ∧
        (∀ other, Denotes .sum tokens other ↔ other = .error ⟨⟨1, 2⟩, ⟨1, 3⟩⟩) ∧
        ⟨.operator .div, ⟨⟨1, 2⟩, ⟨1, 3⟩⟩⟩ ∈ tokens ∧
        CompilesTo "4/(2-2)*(1/0)" {} (.error ⟨⟨1, 2⟩, ⟨1, 3⟩⟩)) ∧
    ∃ parsed, parse "1-(2-9)*3/2" {} = .ok parsed ∧
      ∃ tokens last, tokenize "1-(2-9)*3/2" = .ok (tokens ++ [last]) ∧
        last.kind = .endOfInput ∧
        (∀ other, Denotes .sum tokens other ↔ other = .ok 11) ∧
        CompilesTo "1-(2-9)*3/2" {} (.ok 11) := by
  constructor
  · obtain ⟨parsed, h, houtcome⟩ : ∃ parsed, parse "4/(2-2)*(1/0)" {} = .ok parsed ∧
        parsed.tree.outcome = .error ⟨⟨1, 2⟩, ⟨1, 3⟩⟩ := ⟨_, by cbv, rfl⟩
    obtain ⟨tokens, last, outcome, htokens, hlast, hdenotes, hdivision, hcompiles⟩ :=
      compile_computes_denotation h
    obtain rfl := hcompiles.unique (houtcome ▸ compilesTo_of_parse h)
    exact ⟨parsed, h, tokens, last, htokens, hlast, hdenotes, hdivision _ rfl, hcompiles⟩
  · obtain ⟨parsed, h, houtcome⟩ : ∃ parsed, parse "1-(2-9)*3/2" {} = .ok parsed ∧
        parsed.tree.outcome = .ok 11 := ⟨_, by cbv, rfl⟩
    obtain ⟨tokens, last, outcome, htokens, hlast, hdenotes, -, hcompiles⟩ :=
      compile_computes_denotation h
    obtain rfl := hcompiles.unique (houtcome ▸ compilesTo_of_parse h)
    exact ⟨parsed, h, tokens, last, htokens, hlast, hdenotes, hcompiles⟩

end ThreeAddress
