import Mathlib
import ThreeAddress.Proofs.RunStatistics

/-!
# Operators are counted in the source text

Every sign of an operator in an accepted text is one token, the token is one operation of the tree,
and the operation emits one instruction with the same operator. So counting operators over the code
of a text counts the characters of the text, whatever the shape of the expression.
-/

namespace ThreeAddress

lemma mem_operatorCounts {code : List Instruction} {op : Operator} {n : Nat} :
    (op, n) ∈ operatorCounts code ↔ n = code.countP (·.op = op) ∧ 0 < n := by
  have hall : op ∈ Operator.all := by cases op <;> decide
  simp only [operatorCounts, List.mem_filter, List.mem_map, Prod.mk.injEq, decide_eq_true_eq]
  constructor
  · rintro ⟨⟨_, -, rfl, rfl⟩, hpos⟩
    exact ⟨rfl, hpos⟩
  · rintro ⟨rfl, hpos⟩
    exact ⟨⟨op, hall, rfl, rfl⟩, hpos⟩

lemma nodup_keys_operatorCounts (code : List Instruction) :
    ((operatorCounts code).map Prod.fst).Nodup := by
  have hkeys : (operatorCounts code).map Prod.fst =
      Operator.all.filter fun op => 0 < code.countP (·.op = op) := by
    rw [operatorCounts, List.filter_map, List.map_map]
    exact List.map_id _
  have hall : Operator.all.Nodup := by decide
  rw [hkeys]
  exact hall.filter _

/-- Every instruction is counted under its own operator. -/
lemma sum_countP_op (code : List Instruction) :
    (Operator.all.map fun op => code.countP (·.op = op)).sum = code.length := by
  induction code with
  | nil => rfl
  | cons i code ih =>
    simp only [Operator.all, List.map_cons, List.map_nil, List.sum_cons, List.sum_nil] at ih
    simp only [Operator.all, List.map_cons, List.map_nil, List.sum_cons, List.sum_nil,
      List.countP_cons, List.length_cons]
    cases i.op <;> simp <;> omega

lemma sum_filter_pos (counts : List Nat) : (counts.filter (0 < ·)).sum = counts.sum := by
  induction counts with
  | nil => rfl
  | cons n counts ih =>
    by_cases hn : 0 < n
    · rw [List.filter_cons_of_pos (by simpa using hn), List.sum_cons, List.sum_cons, ih]
    · rw [List.filter_cons_of_neg (by simpa using hn), List.sum_cons, ih]
      omega

lemma sum_operatorCounts (code : List Instruction) :
    ((operatorCounts code).map Prod.snd).sum = code.length := by
  have hpositive : (operatorCounts code).map Prod.snd =
      (Operator.all.map fun op => code.countP (·.op = op)).filter (0 < ·) := by
    rw [operatorCounts, List.filter_map, List.filter_map, List.map_map]
    rfl
  rw [hpositive, sum_filter_pos, sum_countP_op]

/-- Each operation of an expression with a value emits its instruction once. -/
lemma Expr.countP_code {e : Expr} {value : Int} (h : e.outcome = .ok value) (op : Operator) :
    e.code.countP (·.op = op) = e.inorder.countP (·.kind = .operator op) := by
  induction e generalizing value with
  | literal literal span => simp [code, inorder]
  | binary op' target span left right ihl ihr =>
    obtain ⟨a, b, hleft, hright, -, hcode⟩ := exists_of_outcome_binary h
    rw [hcode, inorder, List.countP_append, List.countP_append, ihl hleft, ihr hright,
      List.countP_append, List.countP_singleton, List.countP_cons]
    simp only [decide_eq_true_eq, TokenKind.operator.injEq]
    omega

lemma Reads.countP_inorder {rank : Rank} {tokens : List Token} {e : Expr}
    (h : Reads rank tokens e) (op : Operator) :
    e.inorder.countP (·.kind = .operator op) = tokens.countP (·.kind = .operator op) := by
  rw [h.inorder_eq, List.countP_filter]
  apply List.countP_congr
  intro token _
  constructor
  · intro hboth
    exact (Bool.and_eq_true _ _ ▸ hboth).1
  · intro hkind
    have hcontent : token.kind.isContent = true := by
      rw [of_decide_eq_true hkind]
      rfl
    rw [hkind, hcontent]
    rfl

theorem countP_code_of_compile {source : String} {limits : Limits} {out : Output} {c : Compilation}
    (h : (compile source limits).answer out = .ok c) (op : Operator) :
    c.code.countP (·.op = op) = source.toList.count op.symbol := by
  obtain ⟨parsed, hparse, htree, houtcome, hcode⟩ := exists_parse_of_answer_compile h
  obtain ⟨tokens, last, htokens, hlast, hreads, -⟩ := exists_reads_of_parse hparse
  have hsign : TokenKind.ofChar? op.symbol = some (.operator op) := by cases op <;> rfl
  calc
    _ = c.tree.inorder.countP (·.kind = .operator op) := by
      rw [hcode, Expr.countP_code houtcome]
    _ = tokens.countP (·.kind = .operator op) := by rw [htree, hreads.countP_inorder]
    _ = (tokens ++ [last]).countP (·.kind = .operator op) := by
      rw [List.countP_append, List.countP_singleton]
      simp [hlast]
    _ = source.toList.count op.symbol := (count_of_tokenize htokens hsign).symm

/-- The operator counts of a source text with a value have an entry for exactly the operators whose
symbol occurs in the text, the entry is how often the symbol occurs, and all entries together
count the instructions. -/
theorem operatorCounts_count_symbols {source : String} {limits : Limits} {out : Output}
    {c : Compilation} (h : (compile source limits).answer out = .ok c) :
    ∃ counts, (compileToCounts source limits).answer out = .ok counts ∧
      (counts.map Prod.fst).Nodup ∧
      (∀ op, op ∈ counts.map Prod.fst ↔ op.symbol ∈ source.toList) ∧
      (∀ op n, (op, n) ∈ counts → n = source.toList.count op.symbol) ∧
      (counts.map Prod.snd).sum = c.code.length := by
  have hcounts := Pipeline.answer_map (compile source limits) (fun c => operatorCounts c.code) out
  rw [h] at hcounts
  refine ⟨operatorCounts c.code, hcounts, nodup_keys_operatorCounts _, ?_, ?_,
    sum_operatorCounts _⟩
  · intro op
    rw [List.mem_map, ← List.count_pos_iff, ← countP_code_of_compile h]
    constructor
    · rintro ⟨⟨_, n⟩, hmem, rfl⟩
      obtain ⟨hn, hpos⟩ := mem_operatorCounts.mp hmem
      exact hn ▸ hpos
    · intro hpos
      exact ⟨(op, _), mem_operatorCounts.mpr ⟨rfl, hpos⟩, rfl⟩
  · intro op n hmem
    rw [← countP_code_of_compile h]
    exact (mem_operatorCounts.mp hmem).1

/-- Three operators of four occur, one of them twice and on both sides of a line break. -/
theorem operatorCounts_count_symbols_of_line_break :
    ∃ c counts, (compile "9-(8\n-2)*(3/1)" {}).answer {} = .ok c ∧
      (compileToCounts "9-(8\n-2)*(3/1)" {}).answer {} = .ok counts ∧
      Operator.add ∉ counts.map Prod.fst ∧ (Operator.sub, 2) ∈ counts ∧
      (counts.map Prod.snd).sum = 4 := by
  obtain ⟨c, hcompile, hlength⟩ :
      ∃ c, (compile "9-(8\n-2)*(3/1)" {}).answer {} = .ok c ∧ c.code.length = 4 :=
    ⟨_, by cbv, rfl⟩
  obtain ⟨counts, hcounts, -, hkeys, hentries, hsum⟩ := operatorCounts_count_symbols hcompile
  have hadd : Operator.add ∉ counts.map Prod.fst := by
    rw [hkeys]
    decide
  have hsub : Operator.sub ∈ counts.map Prod.fst := by
    rw [hkeys]
    decide
  obtain ⟨⟨_, n⟩, hmem, rfl⟩ := List.mem_map.mp hsub
  have hn : n = 2 := hentries .sub n hmem
  exact ⟨c, counts, hcompile, hcounts, hadd, hn ▸ hmem, hsum.trans hlength⟩

end ThreeAddress
