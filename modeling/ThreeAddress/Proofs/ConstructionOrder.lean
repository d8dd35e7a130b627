import Mathlib
import ThreeAddress.Proofs.LongestExpression
import ThreeAddress.Proofs.TokenProvenance

/-!
# The order of construction

A run builds the operations of its expression from the operands up and from left to right: what a
task has built is a beginning of the operations of every expression that it can still become. An
operation is built when its right operand has been taken, with the parentheses around it, and the
token behind it is not yet taken. Since operators have different spans, there is one place where the
right operand of an operation ends.
-/

open ThreeAddress.Parser

namespace ThreeAddress

/-- The operations of an expression, operands before operations and left before right. -/
def Expr.operations : Expr → List Expr
  | literal _ _ => []
  | binary op target span left right =>
    left.operations ++ right.operations ++ [binary op target span left right]

namespace Parser

def stackBuilt : List Frame → List Expr
  | [] => []
  | .group :: stack => stackBuilt stack
  | .operation _ _ left :: stack => stackBuilt stack ++ left.operations

/-- The operations that a task holds, in the order in which they were built. -/
def Task.built : Task → List Expr
  | ⟨stack, .operand⟩ => stackBuilt stack
  | ⟨stack, .complete e⟩ => stackBuilt stack ++ e.operations

variable {task task' : Task} {p p' : Parser} {taken : List Token}

lemma Takes.built_eq {token : Token} (h : Takes task token task') : task'.built = task.built := by
  cases h with
  | literal hkind => exact List.append_nil _
  | opening hkind | operator hkind hfits | closing hkind => rfl

lemma built_join (op : Operator) (target : Temporary) (span : Span) (left right : Expr)
    (stack : List Frame) :
    Task.built ⟨stack, .complete (.binary op target span left right)⟩ =
      Task.built ⟨.operation op span left :: stack, .complete right⟩ ++
        [.binary op target span left right] := by
  simp only [Task.built, stackBuilt, Expr.operations, List.append_assoc]

lemma Move.built_le {c c' : Configuration} (h : Move c c') : c.task.built <+: c'.task.built := by
  cases h with
  | take htakes => rw [htakes.built_eq]
  | join hlook =>
    rw [built_join]
    exact List.prefix_append _ _

theorem built_le_of_moves {c c' : Configuration} (h : Moves c c') :
    c.task.built <+: c'.task.built := by
  induction h with
  | refl => exact List.prefix_rfl
  | tail _ hmove ih => exact ih.trans hmove.built_le

lemma Move.length_ahead_le {c c' : Configuration} (h : Move c c') :
    c'.ahead.length ≤ c.ahead.length := by
  cases h with
  | take htakes => exact Nat.le_succ _
  | join hlook => exact Nat.le_refl _

lemma length_ahead_le_of_moves {c c' : Configuration} (h : Moves c c') :
    c'.ahead.length ≤ c.ahead.length := by
  induction h with
  | refl => exact Nat.le_refl _
  | tail _ hmove ih => exact Nat.le_trans hmove.length_ahead_le ih

/-- A run that goes on has built nothing that is too high. -/
theorem Reaches.height_le_of_mem_built (h : Reaches task p taken task' p')
    (hstart : ∀ e ∈ task.built, (e.height : Int) ≤ p.limits.height) :
    ∀ e ∈ task'.built, (e.height : Int) ≤ p.limits.height := by
  induction h with
  | refl task p => exact hstart
  | head hstep _ ih =>
    have hlimits := hstep.continues.limits
    rw [hlimits] at ih
    apply ih
    cases hstep with
    | take htakes hadvance hdepth =>
      rw [htakes.built_eq]
      exact hstart
    | join hlook hheight =>
      rw [built_join]
      intro e he
      obtain he | he := List.mem_append.mp he
      · exact hstart e he
      · obtain rfl := List.mem_singleton.mp he
        exact hheight

/-- What a run holds at its end it has held from the start, or has joined on the way. -/
theorem Reaches.exists_join {node : Expr} (h : Reaches task p taken task' p')
    (hmem : node ∈ task'.built) :
    node ∈ task.built ∨
      ∃ op span left right stack before after p₁,
        node = .binary op ⟨p₁.temporaries⟩ span left right ∧ taken = before ++ after ∧
        Reaches task p before ⟨.operation op span left :: stack, .complete right⟩ p₁ ∧
        p₁.scanner.current.kind.takesOperandFrom op = false := by
  induction h with
  | refl task p => exact .inl hmem
  | @head _ _ _ p _ _ first rest hstep hrest ih =>
    obtain hbuilt | ⟨op, span, left, right, stack, before, after, p₁, hnode, rfl, hreach, hlook⟩ :=
      ih hmem
    · cases hstep with
      | take htakes hadvance hdepth =>
        rw [htakes.built_eq] at hbuilt
        exact .inl hbuilt
      | @join op span left right stack _ hlook hheight =>
        rw [built_join] at hbuilt
        obtain hbuilt | hbuilt := List.mem_append.mp hbuilt
        · exact .inl hbuilt
        · obtain rfl := List.mem_singleton.mp hbuilt
          exact .inr ⟨op, span, left, right, stack, [], rest, p, rfl, rfl, .refl _ _, hlook⟩
    · refine .inr ⟨op, span, left, right, stack, first ++ before, after, p₁, hnode, ?_, ?_, hlook⟩
      · rw [List.append_assoc]
      · exact .head hstep hreach

end Parser

/-- In `EndsAt tokens node upTo` the operation stands in the tokens, and `upTo` are the tokens up to
the end of its right operand, the parentheses around the operand included. -/
inductive EndsAt (tokens : List Token) : Expr → List Token → Prop where
  | intro {op : Operator} {target : Temporary} {span : Span} {left right : Expr}
      {front phrase back : List Token}
      (htokens : tokens = front ++ ⟨.operator op, span⟩ :: (phrase ++ back))
      (hright : Reads .sum phrase right) :
      EndsAt tokens (.binary op target span left right) (front ++ ⟨.operator op, span⟩ :: phrase)

/-- A phrase is not a proper beginning of another one that reads as the same expression. -/
theorem Reads.eq_of_le {tokens tokens' : List Token} {e : Expr} (h : Reads .sum tokens e)
    (h' : Reads .sum tokens' e) (hle : tokens <+: tokens') : tokens = tokens' := by
  obtain ⟨more, rfl⟩ := hle
  cases more with
  | nil => rw [List.append_nil]
  | cons k more =>
    exfalso
    have hviable : Viable (tokens.map Token.kind ++ k.kind :: more.map Token.kind) :=
      ⟨[], e.term, by simpa using h'.derives⟩
    obtain ⟨op, hop⟩ := h.derives.exists_operator_of_viable hviable
    have hinorder := h'.inorder_eq
    rw [h.inorder_eq, List.filter_append] at hinorder
    have hlength := congrArg List.length hinorder
    simp [hop, TokenKind.isContent] at hlength

theorem EndsAt.unique {tokens upTo upTo' : List Token} {node : Expr}
    (hspans : (tokens.map Token.span).Nodup) (h : EndsAt tokens node upTo)
    (h' : EndsAt tokens node upTo') : upTo = upTo' := by
  cases h with
  | @intro op target span left right front phrase back htokens hright =>
    cases h' with
    | @intro _ _ _ _ _ front' phrase' back' htokens' hright' =>
      have hnodup : (front ++ ⟨.operator op, span⟩ :: (phrase ++ back)).Nodup :=
        htokens ▸ hspans.of_map
      have hnotMem := (List.nodup_cons.mp (List.nodup_middle.mp hnodup)).1
      rw [List.mem_append, not_or] at hnotMem
      obtain ⟨rfl, -, hrest⟩ :=
        (List.append_cons_inj_of_notMem hnotMem.1 hnotMem.2).mp (htokens.symm.trans htokens')
      have hle : phrase <+: phrase' ++ back' := ⟨back, hrest⟩
      obtain hle | hle := List.prefix_or_prefix_of_prefix hle (List.prefix_append phrase' back')
      · rw [hright.eq_of_le hright' hle]
      · rw [hright'.eq_of_le hright hle]

/-- An operation that is due to be joined ends where the run stands. -/
lemma Parser.Holds.endsAt {op : Operator} {target : Temporary} {span : Span} {left right : Expr}
    {stack : List Frame} {taken rest : List Token} {look : Option Token}
    (h : Holds ⟨.operation op span left :: stack, .complete right⟩ taken look) :
    EndsAt (taken ++ rest) (.binary op target span left right) taken := by
  obtain _ | ⟨hstack, hright, -, -⟩ := h
  rename_i phrase _
  obtain _ | _ | ⟨-, -, -, hkind⟩ := hstack
  rename_i below leftPhrase token
  obtain ⟨kind, span⟩ := token
  obtain rfl : kind = .operator op := hkind
  have hends : EndsAt (below ++ leftPhrase ++ ⟨.operator op, span⟩ :: (phrase ++ rest))
      (.binary op target span left right) (below ++ leftPhrase ++ ⟨.operator op, span⟩ :: phrase) :=
    .intro rfl hright.toSum
  simpa using hends

lemma nodup_spans_of_tokenize {source : String} {tokens : List Token} {last : Token}
    (h : tokenize source = .ok (tokens ++ [last])) : (tokens.map Token.span).Nodup := by
  obtain ⟨words, trailing, -, -, hlayout⟩ := exists_words_of_tokenize h
  obtain ⟨rfl, -⟩ := List.append_inj' hlayout rfl
  exact (pairwise_wordTokens [] words).imp Span.Precedes.ne

end ThreeAddress
