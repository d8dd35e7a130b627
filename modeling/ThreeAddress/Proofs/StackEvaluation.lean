import ThreeAddress.Proofs.Emission
import ThreeAddress.StackPass

/-!
# Evaluation is a pass with a stack

Evaluating a tree does what one pass over its nodes does, for every tree and every sink: the same
value or the same fault, at the same node, and the instructions of the operations in front of that
node. The induction is on the tree, general in the stack that the pass starts with.
-/

namespace ThreeAddress

namespace Tree

lemma label?_prune (t : Tree) : t.prune.label? = t.label? := by
  cases t with
  | nil => rfl
  | node label span left right =>
    rw [prune]
    split <;> rfl

lemma isOverlong_prune (t : Tree) : t.prune.isOverlong = t.isOverlong := by
  cases t with
  | nil => rfl
  | node label span left right =>
    rw [prune]
    split <;> cases label <;> rfl

lemma operandText_prune (t : Tree) : t.prune.operandText = t.operandText := by
  cases t with
  | nil => rfl
  | node label span left right =>
    rw [prune]
    split <;> cases label <;> rfl

lemma operand?_eq (t : Tree) {label : Label} (h : t.label? = some label) :
    label.operand? = if t.isOverlong then none else some t.operandText := by
  cases t with
  | nil => cases h
  | node label' span left right =>
    obtain rfl := Option.some.inj h
    cases label' with
    | literal value =>
      simp only [Label.operand?, Text.decimal?, Text.digitLimit, isOverlong, operandText]
      by_cases hlength : value.natAbs.repr.length ≤ 4300
      · simp [hlength, Nat.not_lt.mpr hlength]
      · simp [hlength, Nat.lt_of_not_le hlength]
    | operator op name | unknown kind name => rfl

lemma ofLabels?_eq {left right : Tree} {leftLabel rightLabel : Label}
    (hleft : left.label? = some leftLabel) (hright : right.label? = some rightLabel)
    (op : Operator) (name : String) (span : Span) :
    Instruction.ofLabels? op name span leftLabel rightLabel =
      if left.isOverlong || right.isOverlong then none
      else some ⟨name, op, left.operandText, right.operandText, span⟩ := by
  rw [Instruction.ofLabels?, left.operand?_eq hleft, right.operand?_eq hright]
  cases left.isOverlong <;> cases right.isOverlong <;> rfl

section

variable {label : Label} {op : Operator} {name : String} {span : Span} {left right : Tree}

lemma prune_of_isMalformed (h : (node label span left right).isMalformed = true) :
    (node label span left right).prune = node label span nil nil := by
  rw [prune, h, Bool.or_true, if_pos rfl]

lemma isMalformed_of_cut (h : (node label span left right).isMalformed = true) :
    (node label span nil nil).isMalformed = true := by
  cases label with
  | literal value => exact h
  | operator op name | unknown kind name => rfl

lemma exists_labels (h : (node (.operator op name) span left right).isMalformed = false) :
    ∃ leftLabel rightLabel, left.label? = some leftLabel ∧ right.label? = some rightLabel := by
  rw [isMalformed, Bool.or_eq_false_iff, Option.isNone_eq_false_iff,
    Option.isNone_eq_false_iff] at h
  obtain ⟨leftLabel, hleft⟩ := Option.isSome_iff_exists.mp h.1
  obtain ⟨rightLabel, hright⟩ := Option.isSome_iff_exists.mp h.2
  exact ⟨leftLabel, rightLabel, hleft, hright⟩

lemma postorder_prune_operator
    (h : (node (.operator op name) span left right).isMalformed = false) :
    (node (.operator op name) span left right).prune.postorder =
      left.prune.postorder ++ (right.prune.postorder ++
        [node (.operator op name) span left.prune right.prune]) := by
  rw [prune, h, Bool.or_false, if_neg (by simp [isLeaf, label?, Label.isLiteral]), postorder,
    List.append_assoc]

lemma evaluate_of_isMalformed {σ : Type} {emit : Instruction → σ → σ} {sink : σ}
    (h : (node label span left right).isMalformed = true) :
    ((node label span left right).evaluate emit).run sink = .error (.malformedNode span) sink := by
  cases label with
  | literal value => cases h
  | unknown kind name => rfl
  | operator op name =>
    rw [isMalformed, Bool.or_eq_true, Option.isNone_iff_eq_none, Option.isNone_iff_eq_none] at h
    rw [evaluate]
    split
    · rename_i hleft hright
      rw [hleft, hright] at h
      simp at h
    · rfl

lemma ne_nil_of_label? {t : Tree} (h : t.label? = some label) : t ≠ nil := by
  rintro rfl
  cases h

end

end Tree

/-- A node that stops the pass does not also let it go on. -/
theorem Halts.not_visits {node : Tree} {stack stack' : List Int} {fault : Fault}
    (h : Halts node stack fault) : ¬Visits node stack stack' := by
  intro hvisits
  cases hvisits with
  | literal value span left right =>
    cases h with
    | malformed hmalformed => cases hmalformed
  | operation hformed hvalue hleft hright =>
    cases h with
    | malformed hmalformed =>
      rw [hformed] at hmalformed
      cases hmalformed
    | divisionByZero => exact Operator.not_zero_division_of_meaning? hvalue ⟨rfl, rfl⟩
    | numeralTooLong _ _ hlong =>
      rw [hleft, hright] at hlong
      cases hlong

lemma Passes.append {nodes more : List Tree} {stack stack₁ stack' : List Int}
    (h : Passes nodes stack stack₁) (hmore : Passes more stack₁ stack') :
    Passes (nodes ++ more) stack stack' := by
  induction h with
  | nil stack => exact hmore
  | cons hvisits _ ih => exact .cons hvisits (ih hmore)

/-- The result of a pass over the nodes that starts with `stack` and ends with a value on `base`, or
at the first fault. The sink has the instructions of all operations, or of those in front of the
fault. -/
inductive PassResult {σ : Type} (emit : Instruction → σ → σ) (nodes : List Tree)
    (stack base : List Int) (sink : σ) : EStateM.Result Fault σ Int → Prop where
  | completed {value : Int} (hpasses : Passes nodes stack (value :: base)) :
      PassResult emit nodes stack base sink
        (.ok value (deliver emit (nodes.filterMap Tree.instruction?) sink))
  | stopped {before after : List Tree} {node : Tree} {stack' : List Int} {fault : Fault}
      (hnodes : nodes = before ++ node :: after) (hpasses : Passes before stack stack')
      (hhalts : Halts node stack' fault) :
      PassResult emit nodes stack base sink
        (.error fault (deliver emit (before.filterMap Tree.instruction?) sink))

section

variable {σ : Type} {emit : Instruction → σ → σ} {sink : σ} {stack base : List Int}

lemma Halts.passResult {node : Tree} {fault : Fault} (h : Halts node stack fault) :
    PassResult emit [node] stack base sink (.error fault sink) := by
  have hnodes : [node] = [] ++ node :: [] := rfl
  exact .stopped hnodes (.nil stack) h

/-- A pass that stops does not come to the nodes that follow. -/
lemma PassResult.extend {base' : List Int} {nodes : List Tree} {fault : Fault} {sink' : σ}
    (h : PassResult emit nodes stack base sink (.error fault sink')) (more : List Tree) :
    PassResult emit (nodes ++ more) stack base' sink (.error fault sink') := by
  cases h with
  | stopped hnodes hpasses hhalts =>
    rename_i before after node stack'
    have hsplit : nodes ++ more = before ++ node :: (after ++ more) := by
      rw [hnodes, List.append_assoc, List.cons_append]
    exact .stopped hsplit hpasses hhalts

/-- A pass goes on from the stack and the sink that the nodes passed so far have left. -/
lemma Passes.passResult {nodes more : List Tree} {stack' : List Int}
    {result : EStateM.Result Fault σ Int} (h : Passes nodes stack stack')
    (hmore : PassResult emit more stack' base
      (deliver emit (nodes.filterMap Tree.instruction?) sink) result) :
    PassResult emit (nodes ++ more) stack base sink result := by
  cases hmore with
  | completed hpasses =>
    rw [← deliver_append, ← List.filterMap_append]
    exact .completed (h.append hpasses)
  | stopped hnodes hpasses hhalts =>
    rename_i before after node stack'' fault
    have hsplit : nodes ++ more = (nodes ++ before) ++ node :: after := by
      rw [hnodes, List.append_assoc]
    rw [← deliver_append, ← List.filterMap_append]
    exact .stopped hsplit (h.append hpasses) hhalts

lemma PassResult.bind {base' : List Int} {nodes more : List Tree} {x : EStateM Fault σ Int}
    {k : Int → EStateM Fault σ Int} (h : PassResult emit nodes stack base sink (x.run sink))
    (hk : ∀ value sink',
      PassResult emit more (value :: base) base' sink' ((k value).run sink')) :
    PassResult emit (nodes ++ more) stack base' sink ((x >>= k).run sink) := by
  rw [EStateM.run_bind]
  cases hx : x.run sink with
  | error fault sink' =>
    rw [hx] at h
    exact h.extend more
  | ok value sink' =>
    rw [hx] at h
    cases h with
    | completed hpasses => exact hpasses.passResult (hk value _)

/-- An operation whose operands are on the stack. -/
lemma passResult_perform {op : Operator} {name : String} {span : Span} {left right : Tree}
    {leftLabel rightLabel : Label} (hleft : left.label? = some leftLabel)
    (hright : right.label? = some rightLabel) (a b : Int) :
    PassResult emit [.node (.operator op name) span left.prune right.prune] (b :: a :: base) base
      sink ((op.perform emit name span leftLabel rightLabel a b).run sink) := by
  have hformed :
      (Tree.node (.operator op name) span left.prune right.prune).isMalformed = false := by
    simp [Tree.isMalformed, Tree.label?_prune, hleft, hright]
  have hinstruction := Tree.ofLabels?_eq hleft hright op name span
  by_cases hzero : op = .div ∧ b = 0
  · rw [Operator.perform, if_pos hzero]
    obtain ⟨rfl, rfl⟩ := hzero
    exact (Halts.divisionByZero hformed).passResult
  · have hsome : op.meaning? a b ≠ none := mt Operator.meaning?_eq_none_iff.mp hzero
    obtain ⟨value, hvalue⟩ := Option.ne_none_iff_exists'.mp hsome
    rw [Operator.perform, if_neg hzero, Operator.compute?_eq_meaning?, hvalue, hinstruction]
    cases hlong : left.isOverlong || right.isOverlong with
    | true =>
      rw [← left.isOverlong_prune, ← right.isOverlong_prune] at hlong
      exact (Halts.numeralTooLong hformed hzero hlong).passResult
    | false =>
      rw [← left.isOverlong_prune, ← right.isOverlong_prune, Bool.or_eq_false_iff] at hlong
      have hpasses : Passes [.node (.operator op name) span left.prune right.prune]
          (b :: a :: base) (value :: base) :=
        .cons (.operation hformed hvalue hlong.1 hlong.2) (.nil _)
      have hsink : deliver emit (List.filterMap Tree.instruction?
          [.node (.operator op name) span left.prune right.prune]) sink =
          emit ⟨name, op, left.operandText, right.operandText, span⟩ sink := by
        simp [Tree.instruction?, Tree.operandText_prune, deliver]
      change PassResult emit _ _ base sink (.ok value (emit _ sink))
      rw [← hsink]
      exact .completed hpasses

end

theorem Tree.evaluate_passResult {σ : Type} (emit : Instruction → σ → σ) {t : Tree}
    (ht : t ≠ nil) (stack : List Int) (sink : σ) :
    PassResult emit t.prune.postorder stack stack sink ((t.evaluate emit).run sink) := by
  induction t generalizing stack sink with
  | nil => exact absurd rfl ht
  | node label span left right ihl ihr =>
    cases hmalformed : (node label span left right).isMalformed with
    | true =>
      rw [prune_of_isMalformed hmalformed, evaluate_of_isMalformed hmalformed]
      exact (Halts.malformed (isMalformed_of_cut hmalformed)).passResult
    | false =>
      cases label with
      | literal value => exact .completed (.cons (.literal value span nil nil stack) (.nil _))
      | unknown kind name => cases hmalformed
      | operator op name =>
        obtain ⟨leftLabel, rightLabel, hleft, hright⟩ := exists_labels hmalformed
        rw [postorder_prune_operator hmalformed]
        simp only [evaluate, hleft, hright]
        refine (ihl (ne_nil_of_label? hleft) stack sink).bind fun a sink₁ => ?_
        refine (ihr (ne_nil_of_label? hright) (a :: stack) sink₁).bind fun b sink₂ => ?_
        exact passResult_perform hleft hright a b

lemma deliver_append_singleton (code sink : List Instruction) :
    deliver (fun i sink => sink ++ [i]) code sink = sink ++ code := by
  induction code generalizing sink with
  | nil => simp [deliver]
  | cons i code ih =>
    have htail := ih (sink ++ [i])
    rw [List.append_assoc, List.singleton_append] at htail
    exact htail

/-- Evaluating any tree, well-formed or not, is one pass over its pruned nodes, children first, with
a stack that is empty at the start. If every node lets the pass go on, the value is what is left on
the stack. Otherwise the fault is that of the first node that does not. The sink is what it was,
followed by one instruction for each operation passed. -/
theorem evaluate_is_stack_pass (label : Label) (span : Span) (left right : Tree)
    (sink : List Instruction) :
    let nodes := (Tree.node label span left right).prune.postorder
    let result := ((Tree.node label span left right).evaluate fun i sink => sink ++ [i]).run sink
    (∃ value, Passes nodes [] [value] ∧
      result = .ok value (sink ++ nodes.filterMap Tree.instruction?)) ∨
    ∃ before node after stack fault, nodes = before ++ node :: after ∧ Passes before [] stack ∧
      Halts node stack fault ∧ (∀ stack', ¬Visits node stack stack') ∧
      result = .error fault (sink ++ before.filterMap Tree.instruction?) := by
  intro nodes result
  have hresult : PassResult _ nodes [] [] sink result :=
    Tree.evaluate_passResult _ (by simp) [] sink
  generalize result = outcome at hresult
  cases hresult with
  | completed hpasses =>
    rw [deliver_append_singleton]
    exact .inl ⟨_, hpasses, rfl⟩
  | stopped hnodes hpasses hhalts =>
    rw [deliver_append_singleton]
    exact .inr ⟨_, _, _, _, _, hnodes, hpasses, hhalts, fun _ => hhalts.not_visits, rfl⟩

end ThreeAddress
