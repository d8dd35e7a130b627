import ThreeAddress.Proofs.Transition

/-!
# Runs and their limits

A run that goes on has stayed within its limits: the tokens it moved past open no more parentheses
than allowed, and no operation it holds is too high. What it holds never gets lower again, so an
operation that breaks the limit is part of every tree that the run could still end with.
-/

open ThreeAddress.Parser

namespace ThreeAddress

lemma nestingFrom_cons_opening (depth : Nat) (kinds : List TokenKind) :
    nestingFrom depth (.opening :: kinds) = max (depth + 1) (nestingFrom (depth + 1) kinds) := by
  rw [nestingFrom]

lemma nestingFrom_cons {kind : TokenKind} (hkind : kind ≠ .opening) (depth : Nat)
    (kinds : List TokenKind) :
    nestingFrom depth (kind :: kinds) = nestingFrom (kind.depthAfter depth) kinds := by
  cases kind with
  | opening => exact absurd rfl hkind
  | number _ | operator _ | closing | endOfInput => rfl

lemma nestingFrom_append_endOfInput (depth : Nat) (kinds : List TokenKind) :
    nestingFrom depth (kinds ++ [.endOfInput]) = nestingFrom depth kinds := by
  induction kinds generalizing depth with
  | nil => rfl
  | cons kind kinds ih =>
    rw [List.cons_append]
    by_cases hkind : kind = .opening
    · rw [hkind, nestingFrom_cons_opening, nestingFrom_cons_opening, ih]
    · rw [nestingFrom_cons hkind, nestingFrom_cons hkind, ih]

lemma depth_lt_nestingFrom (depth : Nat) (before after : List TokenKind) :
    before.foldl TokenKind.depthAfter depth <
      nestingFrom depth (before ++ .opening :: after) := by
  induction before generalizing depth with
  | nil =>
    rw [List.nil_append, nestingFrom_cons_opening, List.foldl_nil]
    omega
  | cons kind before ih =>
    rw [List.cons_append, List.foldl_cons]
    by_cases hkind : kind = .opening
    · have hlt := ih (depth + 1)
      rw [hkind, nestingFrom_cons_opening]
      exact Nat.lt_of_lt_of_le hlt (Nat.le_max_right _ _)
    · rw [nestingFrom_cons hkind]
      exact ih _

/-- The nesting of the kinds, if there is any, stays within a bound. -/
def NestsWithin (bound : Int) (depth : Nat) (kinds : List TokenKind) : Prop :=
  nestingFrom depth kinds = 0 ∨ (nestingFrom depth kinds : Int) ≤ bound

lemma NestsWithin.cons_opening {bound : Int} {depth : Nat} {kinds : List TokenKind}
    (hdepth : (depth + 1 : Int) ≤ bound) (h : NestsWithin bound (depth + 1) kinds) :
    NestsWithin bound depth (.opening :: kinds) := by
  unfold NestsWithin at h ⊢
  rw [nestingFrom_cons_opening]
  omega

namespace Parser

lemma Proceeds.nestsWithin {task task' : Task} {p p' : Parser} {taken : List Token}
    {more : List TokenKind} (hstep : Proceeds task p taken task' p')
    (h : NestsWithin p.limits.nesting p'.depth more) :
    NestsWithin p.limits.nesting p.depth (taken.map Token.kind ++ more) := by
  cases hstep with
  | take htakes hadvance hdepth =>
    rw [List.map_singleton, List.singleton_append]
    by_cases hkind : p.scanner.current.kind = .opening
    · simp only [hkind, TokenKind.depthAfter] at h ⊢
      exact h.cons_opening (hdepth hkind)
    · unfold NestsWithin
      rw [nestingFrom_cons hkind]
      exact h
  | join hlook hheight => exact h

theorem Reaches.nestsWithin {task task' : Task} {p p' : Parser} {taken : List Token}
    (h : Reaches task p taken task' p') :
    NestsWithin p.limits.nesting p.depth (taken.map Token.kind) := by
  induction h with
  | refl task p => exact .inl rfl
  | head hstep _ ih =>
    rw [hstep.continues.limits] at ih
    rw [List.map_append]
    exact hstep.nestsWithin ih

/-- A parenthesis on which a run fails nests too deeply in every list of tokens that starts like
the tokens ahead. -/
lemma Reaches.lt_nestingFrom {task task' : Task} {p p' : Parser} {taken : List Token}
    (h : Reaches task p taken task' p') (hkind : p'.scanner.current.kind = .opening) :
    p'.depth < nestingFrom p.depth (p.scanner.ahead.map Token.kind) := by
  have hdepth := h.continues.depth
  rw [h.continues.ahead, hdepth, List.map_append, Scanner.ahead, List.map_cons, hkind,
    ← List.foldl_map]
  exact depth_lt_nestingFrom _ _ _

def stackOperands : List Frame → List Expr
  | [] => []
  | .group :: stack => stackOperands stack
  | .operation _ _ left :: stack => left :: stackOperands stack

def Task.operands : Task → List Expr
  | ⟨stack, .operand⟩ => stackOperands stack
  | ⟨stack, .complete e⟩ => e :: stackOperands stack

/-- A literal has no height to speak of; an operation stays within the bound. -/
def HeightWithin (bound : Int) (e : Expr) : Prop :=
  (∃ value span, e = .literal value span) ∨ (e.height : Int) ≤ bound

lemma heightWithin_iff_term {bound : Int} {e : Expr} :
    HeightWithin bound e ↔ (∃ value, e.term = .number value) ∨ (e.term.height : Int) ≤ bound := by
  unfold HeightWithin
  rw [Expr.height_term]
  cases e with
  | literal value span => simp [Expr.term]
  | binary op target span left right => simp [Expr.term]

lemma Proceeds.heightWithin {task task' : Task} {p p' : Parser} {taken : List Token}
    (hstep : Proceeds task p taken task' p')
    (h : ∀ e ∈ task.operands, HeightWithin p.limits.height e) :
    ∀ e ∈ task'.operands, HeightWithin p.limits.height e := by
  intro e he
  cases hstep with
  | take htakes hadvance hdepth =>
    cases htakes with
    | literal hkind =>
      obtain rfl | he := List.mem_cons.mp he
      · exact .inl ⟨_, _, rfl⟩
      · exact h e he
    | opening hkind => exact h e he
    | operator hkind hfits => exact h e he
    | closing hkind => exact h e he
  | join hlook hheight =>
    obtain rfl | he := List.mem_cons.mp he
    · exact .inr hheight
    · exact h e (List.mem_cons_of_mem _ (List.mem_cons_of_mem _ he))

theorem Reaches.heightWithin {task task' : Task} {p p' : Parser} {taken : List Token}
    (hreach : Reaches task p taken task' p')
    (h : ∀ e ∈ task.operands, HeightWithin p.limits.height e) :
    ∀ e ∈ task'.operands, HeightWithin p.limits.height e := by
  induction hreach with
  | refl task p => exact h
  | head hstep _ ih =>
    rw [hstep.continues.limits] at ih
    exact ih (hstep.heightWithin h)

lemma Move.exists_height_le {c c' : Configuration} (hmove : Move c c') {e : Expr}
    (he : e ∈ c.task.operands) : ∃ e' ∈ c'.task.operands, e.height ≤ e'.height := by
  cases hmove with
  | take htakes =>
    refine ⟨e, ?_, Nat.le_refl _⟩
    cases htakes with
    | literal hkind => exact List.mem_cons_of_mem _ he
    | opening hkind => exact he
    | operator hkind hfits => exact he
    | closing hkind => exact he
  | join hlook =>
    rename_i op span left right stack n token rest
    have hleft : left.height ≤ (Expr.binary op ⟨n⟩ span left right).height := by
      simp only [Expr.height]
      omega
    have hright : right.height ≤ (Expr.binary op ⟨n⟩ span left right).height := by
      simp only [Expr.height]
      omega
    obtain rfl | he := List.mem_cons.mp he
    · exact ⟨_, List.mem_cons_self, hright⟩
    · obtain rfl | he := List.mem_cons.mp he
      · exact ⟨_, List.mem_cons_self, hleft⟩
      · exact ⟨e, List.mem_cons_of_mem _ he, Nat.le_refl _⟩

/-- What is held only becomes part of something higher. -/
theorem exists_height_le_of_moves {c c' : Configuration} (h : Moves c c') {e : Expr}
    (he : e ∈ c.task.operands) : ∃ e' ∈ c'.task.operands, e.height ≤ e'.height := by
  induction h with
  | refl => exact ⟨e, he, Nat.le_refl _⟩
  | tail _ hmove ih =>
    obtain ⟨e₁, he₁, hle₁⟩ := ih
    obtain ⟨e₂, he₂, hle₂⟩ := hmove.exists_height_le he₁
    exact ⟨e₂, he₂, Nat.le_trans hle₁ hle₂⟩

end Parser

end ThreeAddress
