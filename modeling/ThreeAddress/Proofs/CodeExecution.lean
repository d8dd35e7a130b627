import Mathlib
import ThreeAddress.Execution
import ThreeAddress.Proofs.Emission

/-!
# Executing the emitted code

The code of an expression, executed from any environment, leaves the value of the expression behind
under the text that instructions refer to it by. The temporaries of an expression are numbered
without gaps, so the code of a right operand cannot store over what the left operand has left.

Main statements: `Expr.exists_leaves` for an expression with a value, and `Expr.exists_zero_divisor`
for the code in front of a division by zero.
-/

namespace ThreeAddress

lemma isDigit_of_mem_toDigits_ten {n : Nat} {c : Char} (h : c ∈ Nat.toDigits 10 n) :
    c.isDigit = true :=
  Nat.isDigit_of_mem_toDigits (by decide) (by decide) h

lemma Temporary.toList_name (t : Temporary) : t.name.toList = 't' :: Nat.toDigits 10 t.index := by
  simp [name, Nat.toList_repr]

namespace Text

lemma toList_repr_natCast (n : Nat) : (n : Int).repr.toList = Nat.toDigits 10 n :=
  Nat.toList_repr

lemma toList_repr (n : Int) :
    n.repr.toList =
      if n < 0 then '-' :: Nat.toDigits 10 n.natAbs else Nat.toDigits 10 n.natAbs := by
  cases n with
  | ofNat m => exact toList_repr_natCast m
  | negSucc m =>
    rw [if_pos (Int.negSucc_lt_zero m)]
    have hdigits : (m + 1).repr.toList = Nat.toDigits 10 (m + 1) := Nat.toList_repr
    simp [Int.repr, hdigits]

lemma head?_toDigits_ne_minus (n : Nat) : (Nat.toDigits 10 n).head? ≠ some '-' := by
  intro hhead
  exact absurd (isDigit_of_mem_toDigits_ten (List.mem_of_head? hhead)) (by decide)

lemma natural?_eq_some_iff {digits : List Char} {n : Nat} :
    readInteger?.natural? digits = some n ↔
      (digits ≠ [] ∧ ∀ c ∈ digits, c.isDigit = true) ∧ Nat.ofDigitChars 10 digits 0 = n := by
  simp [readInteger?.natural?, and_assoc]

lemma natural?_toDigits (n : Nat) : readInteger?.natural? (Nat.toDigits 10 n) = some n := by
  rw [natural?_eq_some_iff]
  refine ⟨⟨Nat.toDigits_ne_nil, ?_⟩, Nat.ofDigitChars_ten_toDigits⟩
  intro c hc
  exact isDigit_of_mem_toDigits_ten hc

lemma readInteger?_of_minus {text : String} {digits : List Char}
    (h : text.toList = '-' :: digits) :
    readInteger? text = (readInteger?.natural? digits).map fun n : Nat => -(n : Int) := by
  simp only [readInteger?, h]
  cases readInteger?.natural? digits <;> rfl

lemma readInteger?_of_no_minus {text : String} (h : text.toList.head? ≠ some '-') :
    readInteger? text = (readInteger?.natural? text.toList).map fun n : Nat => (n : Int) := by
  rw [readInteger?]
  split
  · rename_i digits hlist
    exact absurd (by rw [hlist]; rfl) h
  · cases readInteger?.natural? text.toList <;> rfl

lemma readInteger?_repr (n : Int) : readInteger? n.repr = some n := by
  have hlist := toList_repr n
  by_cases hneg : n < 0
  · rw [if_pos hneg] at hlist
    rw [readInteger?_of_minus hlist, natural?_toDigits, Option.map_some,
      Int.ofNat_natAbs_of_nonpos hneg.le, neg_neg]
  · rw [if_neg hneg] at hlist
    have hhead : n.repr.toList.head? ≠ some '-' := hlist ▸ head?_toDigits_ne_minus n.natAbs
    rw [readInteger?_of_no_minus hhead, hlist, natural?_toDigits, Option.map_some,
      Int.natAbs_of_nonneg (not_lt.mp hneg)]

lemma readInteger?_name (t : Temporary) : readInteger? t.name = none := by
  rw [readInteger?, t.toList_name]
  rfl

end Text

namespace Environment

@[simp]
lemma operand?_repr (env : Environment) (n : Nat) :
    env.operand? (n : Int).repr = some (n : Int) := by
  rw [operand?, Text.readInteger?_repr]
  rfl

@[simp]
lemma operand?_name (env : Environment) (t : Temporary) :
    env.operand? t.name = env.lookup t.name := by
  rw [operand?, Text.readInteger?_name]
  rfl

/-- `env'` has the values that `env` has for the temporaries below `n`. -/
def AgreesBelow (n : Nat) (env env' : Environment) : Prop :=
  ∀ t : Temporary, t.index < n → env'.lookup t.name = env.lookup t.name

lemma AgreesBelow.trans {n m : Nat} {env env' env'' : Environment} (h : AgreesBelow n env env')
    (h' : AgreesBelow m env' env'') (hle : n ≤ m) : AgreesBelow n env env'' := by
  intro t ht
  rw [h' t (Nat.lt_of_lt_of_le ht hle), h t ht]

lemma agreesBelow_store {n : Nat} {t : Temporary} (env : Environment) (value : Int)
    (h : n ≤ t.index) : AgreesBelow n env ((t.name, value) :: env) := by
  intro u hu
  have hne : (u.name == t.name) = false := by
    rw [beq_eq_false_iff_ne]
    intro heq
    have := congrArg Temporary.index (Temporary.name_injective heq)
    omega
  rw [List.lookup_cons, hne]

end Environment

lemma Instruction.execute?_eq_some {i : Instruction} {env : Environment} {a b value : Int}
    (hleft : env.operand? i.left = some a) (hright : env.operand? i.right = some b)
    (hvalue : i.op.meaning? a b = some value) :
    i.execute? env = some ((i.result, value) :: env) := by
  simp [execute?, hleft, hright, hvalue]

namespace Expr

lemma Numbered.operand?_eq {e : Expr} {n : Nat} (h : e.Numbered n) {env env' : Environment}
    (hagrees : env.AgreesBelow (n + e.operationCount) env') :
    env'.operand? e.operandText = env.operand? e.operandText := by
  cases e with
  | literal value span => simp [operandText]
  | binary op target span left right =>
    have hindex := h.2.2
    simp only [operandText, Environment.operand?_name]
    apply hagrees
    simp only [operationCount]
    omega

/-- Executing the code of `e` from `env` ends in `env'`, where `e` has the value. The last
instruction has stored it, and no temporary below `n` has changed. -/
structure Leaves (e : Expr) (n : Nat) (value : Int) (env env' : Environment) : Prop where
  executes : execute? e.code env = some env'
  agrees : env.AgreesBelow n env'
  operand : env'.operand? e.operandText = some value
  stored : ∀ last, e.code.getLast? = some last → env'.head? = some (last.result, value)

lemma Leaves.operands {left right : Expr} {n m : Nat} {a b : Int} {env env₁ env₂ : Environment}
    (hleft : left.Leaves n a env env₁) (hnumbered : left.Numbered n)
    (hright : right.Leaves m b env₁ env₂) (hm : m = n + left.operationCount) :
    execute? (left.code ++ right.code) env = some env₂ ∧ env.AgreesBelow n env₂ ∧
      env₂.operand? left.operandText = some a ∧ env₂.operand? right.operandText = some b := by
  subst hm
  refine ⟨?_, hleft.agrees.trans hright.agrees (Nat.le_add_right n _), ?_, hright.operand⟩
  · rw [execute?_append, hleft.executes]
    exact hright.executes
  · rw [hnumbered.operand?_eq hright.agrees, hleft.operand]

theorem exists_leaves {e : Expr} {n : Nat} {value : Int} (hnumbered : e.Numbered n)
    (hvalue : e.outcome = .ok value) (env : Environment) :
    ∃ env', e.Leaves n value env env' := by
  -- The right operand runs where the left one ends, and its temporaries start where those end.
  induction e generalizing n value env with
  | literal literal span =>
    cases hvalue
    refine ⟨env, rfl, fun _ _ => rfl, by simp [operandText], ?_⟩
    intro last hlast
    cases hlast
  | binary op target span left right ihl ihr =>
    obtain ⟨hleftNumbered, hrightNumbered, hindex⟩ := hnumbered
    obtain ⟨a, b, hleft, hright, hmeaning⟩ := Operator.combine_eq_ok hvalue
    obtain ⟨env₁, hleaves₁⟩ := ihl hleftNumbered hleft env
    obtain ⟨env₂, hleaves₂⟩ := ihr hrightNumbered hright env₁
    obtain ⟨hexecutes, hagrees, hleftOperand, hrightOperand⟩ :=
      hleaves₁.operands hleftNumbered hleaves₂ rfl
    have hcode : (binary op target span left right).code = left.code ++ right.code ++
        [⟨target.name, op, left.operandText, right.operandText, span⟩] := by
      simp only [code, hleft, hright, hmeaning]
    have hstep : (Instruction.mk target.name op left.operandText right.operandText span).execute?
        env₂ = some ((target.name, value) :: env₂) :=
      Instruction.execute?_eq_some hleftOperand hrightOperand hmeaning
    refine ⟨(target.name, value) :: env₂, ?_, ?_, ?_, ?_⟩
    · rw [hcode, execute?_append, hexecutes, Option.bind_some, execute?, hstep]
      rfl
    · exact hagrees.trans (Environment.agreesBelow_store env₂ value (by omega)) (Nat.le_refl n)
    · simp [operandText]
    · intro last hlast
      rw [hcode, List.getLast?_concat] at hlast
      cases hlast
      rfl

lemma eq_literal_of_code_eq_nil {e : Expr} {value : Int} (hvalue : e.outcome = .ok value)
    (hcode : e.code = []) : ∃ literal span, e = .literal literal span ∧ value = literal := by
  cases e with
  | literal literal span =>
    cases hvalue
    exact ⟨literal, span, rfl, rfl⟩
  | binary op target span left right =>
    obtain ⟨a, b, hleft, hright, hmeaning⟩ := Operator.combine_eq_ok hvalue
    simp [code, hleft, hright, hmeaning] at hcode

/-- The code in front of a division by zero executes, and then the divisor is seen to be zero. -/
theorem exists_zero_divisor {e : Expr} {n : Nat} {span : Span} (hnumbered : e.Numbered n)
    (hshort : e.Short) (herror : e.outcome = .error span) (env : Environment) :
    ∃ env' target left right, execute? e.code env = some env' ∧
      (binary .div target span left right).toTree ∈ e.toTree.postorder ∧ right.Short ∧
      env'.operand? right.operandText = some 0 := by
  induction e generalizing n env with
  | literal literal _ => cases herror
  | binary op target place left right ihl ihr =>
    obtain ⟨hleftNumbered, hrightNumbered, -⟩ := hnumbered
    obtain hleft | ⟨a, hleft, hright⟩ | ⟨a, b, hleft, hright, hnone, rfl⟩ :=
      Operator.combine_eq_error herror
    · obtain ⟨env', t, l, r, hexecutes, hmem, hrest⟩ := ihl hleftNumbered hshort.1 hleft env
      refine ⟨env', t, l, r, ?_, ?_, hrest⟩
      · simp only [code, hleft]
        exact hexecutes
      · exact List.mem_append_left _ (List.mem_append_left _ hmem)
    · obtain ⟨env₁, hleaves⟩ := exists_leaves hleftNumbered hleft env
      obtain ⟨env', t, l, r, hexecutes, hmem, hrest⟩ := ihr hrightNumbered hshort.2 hright env₁
      refine ⟨env', t, l, r, ?_, ?_, hrest⟩
      · simp only [code, hleft, hright]
        rw [execute?_append, hleaves.executes]
        exact hexecutes
      · exact List.mem_append_left _ (List.mem_append_right _ hmem)
    · obtain ⟨rfl, rfl⟩ := Operator.meaning?_eq_none_iff.mp hnone
      obtain ⟨env₁, hleaves₁⟩ := exists_leaves hleftNumbered hleft env
      obtain ⟨env₂, hleaves₂⟩ := exists_leaves hrightNumbered hright env₁
      have hoperands := hleaves₁.operands hleftNumbered hleaves₂ rfl
      refine ⟨env₂, target, left, right, ?_, ?_, hshort.2, hleaves₂.operand⟩
      · simp only [code, hleft, hright, hnone]
        exact hoperands.1
      · exact List.mem_append_right _ List.mem_cons_self

end Expr

/-- The code of a compilation executes from the empty environment and ends by storing the value; a
compilation without code is one of a literal. Where a division by zero stops the evaluation, the
code that any sink has got by then executes too, and leaves zero in place of the divisor. -/
theorem compile_code_executes (source : String) (limits : Limits) (out : Output) :
    (∀ compilation out', (compile source limits).run out = .ok compilation out' →
      ∃ env, execute? compilation.code [] = some env ∧
        (∀ last, compilation.code.getLast? = some last →
          env.head? = some (last.result, compilation.value)) ∧
        (compilation.code = [] → ∃ value span,
          compilation.tree = .literal value span ∧ compilation.value = value)) ∧
    ∀ d out', (compile source limits).run out = .error (.diagnostic d) out' →
      d.category = .zeroDivisor →
      ∃ parsed code env name left right text, parse source limits = .ok parsed ∧
        (∀ (σ : Type) (emit : Instruction → σ → σ) (sink : σ),
          (parsed.tree.toTree.evaluate emit).run sink =
            .error (.diagnostic d) (deliver emit code sink)) ∧
        execute? code [] = some env ∧
        .node (.operator .div name) d.span left right ∈ parsed.tree.toTree.postorder ∧
        right.label?.bind Label.operand? = some text ∧ env.operand? text = some 0 := by
  cases hparse : parse source limits with
  | error d =>
    rw [compile_of_parse_error hparse out]
    refine ⟨fun _ _ h => (by cases h), ?_⟩
    intro d' out' h hcategory
    cases h
    rw [category_of_parse_error hparse] at hcategory
    cases hcategory
  | ok parsed =>
    obtain ⟨tokens, last, -, -, -, hnumbered, -⟩ := exists_reads_of_parse hparse
    have hshort := short_of_parse hparse
    rw [compile_of_parse hparse out]
    cases houtcome : parsed.tree.outcome with
    | ok value =>
      refine ⟨?_, fun _ _ h => (by cases h)⟩
      intro compilation out' h
      cases h
      obtain ⟨env, hleaves⟩ := Expr.exists_leaves hnumbered houtcome []
      refine ⟨env, hleaves.executes, hleaves.stored, ?_⟩
      intro hcode
      exact Expr.eq_literal_of_code_eq_nil houtcome hcode
    | error span =>
      refine ⟨fun _ _ h => (by cases h), ?_⟩
      intro d out' h _
      cases h
      obtain ⟨env, target, left, right, hexecutes, hmem, hrightShort, hzero⟩ :=
        Expr.exists_zero_divisor hnumbered hshort houtcome []
      obtain ⟨label, hlabel, htext⟩ := Expr.exists_label hrightShort
      refine ⟨parsed, parsed.tree.code, env, target.name, left.toTree, right.toTree,
        right.operandText, rfl, ?_, hexecutes, hmem, ?_, hzero⟩
      · intro σ emit sink
        rw [Expr.evaluate_toTree emit hshort sink, houtcome]
        rfl
      · rw [hlabel]
        exact htext

/-- The quotient of a negative dividend is stored without its fraction, and of two divisions by zero
the first one stops a compilation. -/
theorem compile_code_executes_of_division :
    (∃ compilation out', (compile "(2-9)*3/2" {}).run {} = .ok compilation out' ∧
      compilation.value = -10 ∧
      ∃ env, execute? compilation.code [] = some env ∧ env.head? = some ("t2", -10)) ∧
    ∃ d out', (compile "4/(2-2)*(1/0)" {}).run {} = .error (.diagnostic d) out' ∧
      d.category = .zeroDivisor ∧ d.span = ⟨⟨1, 2⟩, ⟨1, 3⟩⟩ ∧
      ∃ parsed code env name left right text, parse "4/(2-2)*(1/0)" {} = .ok parsed ∧
        (∀ (σ : Type) (emit : Instruction → σ → σ) (sink : σ),
          (parsed.tree.toTree.evaluate emit).run sink =
            .error (.diagnostic d) (deliver emit code sink)) ∧
        execute? code [] = some env ∧
        .node (.operator .div name) d.span left right ∈ parsed.tree.toTree.postorder ∧
        right.label?.bind Label.operand? = some text ∧ env.operand? text = some 0 := by
  constructor
  · obtain ⟨compilation, out', h, hvalue, last, hlast, hresult⟩ : ∃ compilation out',
        (compile "(2-9)*3/2" {}).run {} = .ok compilation out' ∧ compilation.value = -10 ∧
          ∃ last, compilation.code.getLast? = some last ∧ last.result = "t2" :=
      ⟨_, _, by cbv, rfl, _, rfl, rfl⟩
    obtain ⟨env, hexecutes, hstored, -⟩ := (compile_code_executes _ _ _).1 _ _ h
    refine ⟨compilation, out', h, hvalue, env, hexecutes, ?_⟩
    rw [hstored last hlast, hresult, hvalue]
  · obtain ⟨d, out', h, hcategory, hspan⟩ : ∃ d out',
        (compile "4/(2-2)*(1/0)" {}).run {} = .error (.diagnostic d) out' ∧
          d.category = .zeroDivisor ∧ d.span = ⟨⟨1, 2⟩, ⟨1, 3⟩⟩ := ⟨_, _, by cbv, rfl, rfl⟩
    exact ⟨d, out', h, hcategory, hspan, (compile_code_executes _ _ _).2 d out' h hcategory⟩

end ThreeAddress
