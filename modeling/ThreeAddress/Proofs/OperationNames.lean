import ThreeAddress.Proofs.PendingPhrases
import ThreeAddress.Tree

/-!
# The names of operations

Reading an expression names its operations with the temporaries that follow those already taken,
one for each, in the order in which a walk from the operands up meets them. A reading that fails
may have taken temporaries too, and does not give them back.
-/

open ThreeAddress.Parser

namespace ThreeAddress

/-- The names of `count` temporaries in a row, from the one with index `start` on. -/
def temporaryNames (start count : Nat) : List String :=
  (List.range' start count).map fun index => (Temporary.mk index).name

lemma temporaryNames_append (start count more : Nat) :
    temporaryNames start count ++ temporaryNames (start + count) more =
      temporaryNames start (count + more) := by
  rw [temporaryNames, temporaryNames, temporaryNames, ← List.map_append, List.range'_append_1]

def Label.operationName? : Label → Option String
  | operator _ name => some name
  | _ => none

/-- The names of the operations of a tree, operands before operations and left before right. -/
def Tree.operationNames (t : Tree) : List String :=
  t.postorder.filterMap fun node => node.label?.bind Label.operationName?

/-- The last operation takes the name behind those of its operands. -/
lemma Expr.Numbered.temporaryNames_binary {op : Operator} {target : Temporary} {span : Span}
    {left right : Expr} {n : Nat} (h : (binary op target span left right).Numbered n) :
    temporaryNames n (binary op target span left right).operationCount =
      temporaryNames n left.operationCount ++
        temporaryNames (n + left.operationCount) right.operationCount ++ [target.name] := by
  obtain ⟨-, -, htarget⟩ := h
  have hroot : [target.name] =
      temporaryNames (n + (left.operationCount + right.operationCount)) 1 := by
    rw [← Nat.add_assoc, ← htarget]
    rfl
  rw [temporaryNames_append, hroot, temporaryNames_append]
  rfl

theorem Expr.Numbered.operationNames {e : Expr} {n : Nat} (h : e.Numbered n) :
    e.toTree.operationNames = temporaryNames n e.operationCount := by
  induction e generalizing n with
  | literal value span => rfl
  | binary op target span left right ihl ihr =>
    have hnames : (binary op target span left right).toTree.operationNames =
        left.toTree.operationNames ++ right.toTree.operationNames ++ [target.name] := by
      simp [toTree, Tree.operationNames, Tree.postorder, Tree.label?, Label.operationName?]
    rw [h.temporaryNames_binary, hnames, ihl h.1, ihr h.2.1]

namespace Parser

lemma Proceeds.temporaries_le {task task' : Task} {p p' : Parser} {taken : List Token}
    (h : Proceeds task p taken task' p') : p.temporaries ≤ p'.temporaries := by
  cases h with
  | take htakes hadvance hdepth => exact Nat.le_refl _
  | join hlook hheight => exact Nat.le_succ _

lemma Reaches.temporaries_le {task task' : Task} {p p' : Parser} {taken : List Token}
    (h : Reaches task p taken task' p') : p.temporaries ≤ p'.temporaries := by
  induction h with
  | refl task p => exact Nat.le_refl _
  | head hstep _ ih => exact Nat.le_trans hstep.temporaries_le ih

lemma Fails.temporaries_le {task : Task} {p p' : Parser} {d : Diagnostic}
    (h : Fails task p d p') : p.temporaries ≤ p'.temporaries := by
  cases h with
  | expressionTooLong hlook hheight => exact Nat.le_succ _
  | lexical | operandExpected | closingExpected | nestedTooDeeply => exact Nat.le_refl _

/-- The outcome of a reading that began with `count` temporaries taken: the operations of an
expression hold the next ones, and a failure gives none back. -/
def TakesInOrder (count : Nat) : EStateM.Result Diagnostic Parser Expr → Prop
  | .ok e p => e.Numbered count ∧ p.temporaries = count + e.operationCount
  | .error _ p => count ≤ p.temporaries

theorem expression_takesInOrder (p : Parser) : TakesInOrder p.temporaries p.expression := by
  rw [expression]
  obtain ⟨taken, e, p', hrun, hreach, hcurrent⟩ | ⟨taken, task, p', d, p'', hrun, hreach, hfails⟩ :=
    run_outcome ⟨[], .operand⟩ p
  · rw [hrun]
    exact hreach.numbered hcurrent
  · rw [hrun]
    exact Nat.le_trans hreach.temporaries_le hfails.temporaries_le

theorem parse_takesInOrder (p : Parser) : TakesInOrder p.temporaries p.parse := by
  have hexpression := p.expression_takesInOrder
  unfold Parser.parse
  cases hresult : p.expression with
  | error d p' => rwa [hresult] at hexpression
  | ok e p' =>
    rw [hresult] at hexpression
    dsimp only
    split
    · exact hexpression
    · -- A token behind the expression is a failure, but the temporaries stay taken.
      have htaken : p'.temporaries = p.temporaries + e.operationCount := hexpression.2
      change p.temporaries ≤ p'.temporaries
      omega

end Parser

end ThreeAddress
