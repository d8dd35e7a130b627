import Mathlib
import ThreeAddress.Proofs.Composition
import ThreeAddress.Proofs.OperationNames

/-!
# Code is linear

Every instruction defines a temporary of its own, and every temporary but the last is an operand of
exactly one later instruction. So are the literals: the operands of the code, together with the text
that refers to the whole expression, are the literals and the temporaries of the expression, each
once (`Expr.operandTexts_perm`). Temporaries that are defined and not yet taken wait like on a
stack: an instruction takes the latest of them, its right operand the very latest.
-/

namespace ThreeAddress

def Instruction.operands (i : Instruction) : List String :=
  [i.left, i.right]

/-- The operands of all instructions, in their order. -/
def operandTexts (code : List Instruction) : List String :=
  code.flatMap Instruction.operands

/-- Whether a text is the name of a temporary. -/
def isTemporaryName (text : String) : Bool :=
  (Temporary.ofName? text).isSome

/-- The results that no instruction takes as an operand, in the order of their definition. -/
def pendingResults (code : List Instruction) : List String :=
  (code.map Instruction.result).filter fun name => name ∉ operandTexts code

def TokenKind.literal? : TokenKind → Option Nat
  | number value => some value
  | _ => none

/-- The values of the numbers among the tokens. -/
def literalValues (tokens : List Token) : List Nat :=
  tokens.filterMap fun token => token.kind.literal?

/-- The text is the decimal numeral of the value, without leading zeros. -/
structure IsCanonicalNumeral (value : Nat) (text : String) : Prop where
  ne_nil : text.toList ≠ []
  isDigit : ∀ c ∈ text.toList, c.isDigit = true
  value_eq : decimalValue text.toList = value
  zero_alone : text.toList.head? = some '0' → text.toList = ['0']

lemma name_eq_name_iff {j k : Nat} : (Temporary.mk j).name = (Temporary.mk k).name ↔ j = k := by
  constructor
  · intro hname
    exact congrArg Temporary.index (Temporary.name_injective hname)
  · rintro rfl
    rfl

lemma isTemporaryName_name (t : Temporary) : isTemporaryName t.name = true := by
  rw [isTemporaryName, Temporary.ofName?_name]
  rfl

lemma isTemporaryName_repr (value : Nat) : isTemporaryName (value : Int).repr = false := by
  rw [isTemporaryName, Temporary.ofName?_repr]
  rfl

lemma mem_temporaryNames {start count : Nat} {text : String} :
    text ∈ temporaryNames start count ↔
      ∃ j, start ≤ j ∧ j < start + count ∧ text = (Temporary.mk j).name := by
  unfold temporaryNames
  rw [List.mem_map]
  constructor
  · rintro ⟨j, hj, rfl⟩
    rw [List.mem_range'_1] at hj
    exact ⟨j, hj.1, hj.2, rfl⟩
  · rintro ⟨j, hle, hlt, rfl⟩
    exact ⟨j, List.mem_range'_1.mpr ⟨hle, hlt⟩, rfl⟩

lemma name_mem_temporaryNames {start count j : Nat} :
    (Temporary.mk j).name ∈ temporaryNames start count ↔ start ≤ j ∧ j < start + count := by
  rw [mem_temporaryNames]
  constructor
  · rintro ⟨k, hle, hlt, hname⟩
    rw [name_eq_name_iff] at hname
    omega
  · rintro ⟨hle, hlt⟩
    exact ⟨j, hle, hlt, rfl⟩

lemma nodup_temporaryNames (start count : Nat) : (temporaryNames start count).Nodup := by
  unfold temporaryNames
  apply List.Nodup.map _ List.nodup_range'
  intro j k hname
  exact name_eq_name_iff.mp hname

/-- A zero in front of other digits adds nothing to the value, which therefore has fewer digits. -/
lemma repr_eq_zero_of_head? {value : Nat} (h : value.repr.toList.head? = some '0') :
    value.repr.toList = ['0'] := by
  obtain ⟨digits, hdigits⟩ := List.head?_eq_some_iff.mp h
  have hvalue := decimalValue_repr value
  have hdigit : ∀ c ∈ digits, c.isDigit = true := by
    intro c hc
    apply isDigit_of_mem_toDigits_ten (n := value)
    rw [← Nat.toList_repr, hdigits]
    exact List.mem_cons_of_mem _ hc
  have hlt := ofDigitChars_lt_pow hdigit (Nat.le_refl digits.length)
  rw [ofDigitChars_eq_decimalValue, Nat.zero_mul, Nat.zero_add] at hlt
  rw [hdigits, decimalValue, Nat.sub_self, Nat.zero_mul, Nat.zero_add] at hvalue
  rw [hvalue] at hlt
  by_cases hnil : digits = []
  · rw [hdigits, hnil]
  · have hshort := (Nat.length_repr_le_iff (List.length_pos_of_ne_nil hnil)).mpr hlt
    rw [← String.length_toList, hdigits, List.length_cons] at hshort
    omega

theorem isCanonicalNumeral_repr (value : Nat) : IsCanonicalNumeral value (value : Int).repr := by
  refine ⟨?_, ?_, decimalValue_repr value, repr_eq_zero_of_head?⟩
  · rw [Text.toList_repr_natCast]
    exact Nat.toDigits_ne_nil
  · rw [Text.toList_repr_natCast]
    exact fun c hc => isDigit_of_mem_toDigits_ten hc

lemma operandTexts_append (code more : List Instruction) :
    operandTexts (code ++ more) = operandTexts code ++ operandTexts more :=
  List.flatMap_append

lemma operandTexts_singleton (i : Instruction) : operandTexts [i] = [i.left] ++ [i.right] :=
  rfl

/-- Each instruction takes the latest of the results that wait for it, the right operand last. -/
def TakesLatest (code : List Instruction) : Prop :=
  ∀ k i, code[k]? = some i →
    i.operands.filter isTemporaryName <:+ pendingResults (code.take k)

/-- No instruction of one code takes a result of the other. -/
def Unrelated (code more : List Instruction) : Prop :=
  (∀ i ∈ code, i.result ∉ operandTexts more) ∧ ∀ i ∈ more, i.result ∉ operandTexts code

lemma operandTexts_take_subset (code : List Instruction) (k : Nat) :
    operandTexts (code.take k) ⊆ operandTexts code := by
  intro text htext
  rw [operandTexts, List.mem_flatMap] at htext ⊢
  obtain ⟨i, hi, htext⟩ := htext
  exact ⟨i, List.mem_of_mem_take hi, htext⟩

lemma Unrelated.take {code more : List Instruction} (h : Unrelated code more) (k : Nat) :
    Unrelated code (more.take k) := by
  constructor
  · intro i hi htext
    exact h.1 i hi (operandTexts_take_subset more k htext)
  · intro i hi
    exact h.2 i (List.mem_of_mem_take hi)

lemma pendingResults_append {code more : List Instruction} (h : Unrelated code more) :
    pendingResults (code ++ more) = pendingResults code ++ pendingResults more := by
  unfold pendingResults
  rw [List.map_append, List.filter_append, operandTexts_append]
  congr 1
  · apply List.filter_congr
    intro name hname
    obtain ⟨i, hi, rfl⟩ := List.mem_map.mp hname
    simp [h.1 i hi]
  · apply List.filter_congr
    intro name hname
    obtain ⟨i, hi, rfl⟩ := List.mem_map.mp hname
    simp [h.2 i hi]

namespace TakesLatest

variable {code more : List Instruction} {i : Instruction}

lemma of_lt_length (hcode : TakesLatest code) {k : Nat} (hk : k < code.length)
    (hi : (code ++ more)[k]? = some i) :
    i.operands.filter isTemporaryName <:+ pendingResults ((code ++ more).take k) := by
  rw [List.getElem?_append_left hk] at hi
  rw [List.take_append_of_le_length (Nat.le_of_lt hk)]
  exact hcode k i hi

lemma append (hcode : TakesLatest code) (hmore : TakesLatest more) (h : Unrelated code more) :
    TakesLatest (code ++ more) := by
  intro k i hi
  by_cases hk : k < code.length
  · exact hcode.of_lt_length hk hi
  · have hle : code.length ≤ k := Nat.le_of_not_lt hk
    rw [List.getElem?_append_right hle] at hi
    rw [List.take_append, List.take_of_length_le hle, pendingResults_append (h.take _)]
    exact (hmore _ i hi).trans (List.suffix_append _ _)

lemma concat (hcode : TakesLatest code)
    (h : i.operands.filter isTemporaryName <:+ pendingResults code) :
    TakesLatest (code ++ [i]) := by
  intro k i' hi
  by_cases hk : k < code.length
  · exact hcode.of_lt_length hk hi
  · have hlength := (List.getElem?_eq_some_iff.mp hi).1
    rw [List.length_append, List.length_singleton] at hlength
    obtain rfl : k = code.length := by omega
    rw [List.getElem?_concat_length] at hi
    rw [List.take_left, ← Option.some.inj hi]
    exact h

end TakesLatest

/-- The literals of an expression, from left to right. -/
def Expr.literals : Expr → List Nat
  | literal value _ => [value]
  | binary _ _ _ left right => left.literals ++ right.literals

lemma literalValues_append (tokens more : List Token) :
    literalValues (tokens ++ more) = literalValues tokens ++ literalValues more :=
  List.filterMap_append

lemma literalValues_singleton (token : Token) :
    literalValues [token] = token.kind.literal?.toList := by
  cases h : token.kind.literal? with
  | none => simp [literalValues, h]
  | some value => simp [literalValues, h]

lemma Reads.literalValues_eq {rank : Rank} {tokens : List Token} {e : Expr}
    (h : Reads rank tokens e) : literalValues tokens = e.literals := by
  induction h with
  | literal hkind =>
    rw [literalValues_singleton, hkind]
    rfl
  | group hstart hstop _ ih =>
    rw [List.cons_append, ← List.singleton_append, literalValues_append, literalValues_append,
      literalValues_singleton, literalValues_singleton, hstart, hstop, ih]
    exact List.append_nil _
  | ofOperand _ ih | ofProduct _ ih => exact ih
  | extendProduct hkind _ _ _ ihl ihr | extendSum hkind _ _ _ ihl ihr =>
    rw [literalValues_append, ← List.singleton_append, literalValues_append,
      literalValues_singleton, hkind, ihl, ihr]
    rfl

namespace Expr

variable {e : Expr} {n k j : Nat} {value : Int} {i : Instruction} {text : String}

/-- The texts of the literals, as operands. -/
def literalTexts (e : Expr) : List String :=
  e.literals.map fun value : Nat => (value : Int).repr

lemma isTemporaryName_of_mem_literalTexts (h : text ∈ e.literalTexts) :
    isTemporaryName text = false := by
  obtain ⟨value, -, rfl⟩ := List.mem_map.mp h
  exact isTemporaryName_repr value

section Numbered

variable (hnumbered : e.Numbered n) (h : e.outcome = .ok value)
include hnumbered h

lemma results_code : e.code.map Instruction.result = temporaryNames n e.operationCount := by
  induction e generalizing n value with
  | literal literal span => rfl
  | binary op target span left right ihl ihr =>
    obtain ⟨a, b, hleft, hright, -, hcode⟩ := exists_of_outcome_binary h
    rw [hnumbered.temporaryNames_binary, hcode, List.map_append, List.map_append,
      ihl hnumbered.1 hleft, ihr hnumbered.2.1 hright]
    rfl

/-- With the text that refers to the whole expression, the operands are its literals and its
temporaries, each once. -/
theorem operandTexts_perm :
    (operandTexts e.code ++ [e.operandText]).Perm
      (e.literalTexts ++ temporaryNames n e.operationCount) := by
  induction e generalizing n value with
  | literal literal span => exact List.Perm.refl _
  | binary op target span left right ihl ihr =>
    obtain ⟨a, b, hleft, hright, -, hcode⟩ := exists_of_outcome_binary h
    have hliterals : (binary op target span left right).literalTexts =
        left.literalTexts ++ right.literalTexts := List.map_append
    have hname : (binary op target span left right).operandText = target.name := rfl
    rw [hnumbered.temporaryNames_binary, hcode, hliterals, hname, operandTexts_append,
      operandTexts_append, operandTexts_singleton, List.perm_iff_count]
    intro text
    have hleftCount := (ihl hnumbered.1 hleft).count_eq text
    have hrightCount := (ihr hnumbered.2.1 hright).count_eq text
    simp only [List.count_append] at hleftCount hrightCount ⊢
    omega

lemma mem_temporaryNames_of_operand (htext : text ∈ operandTexts e.code)
    (hname : isTemporaryName text = true) : text ∈ temporaryNames n e.operationCount := by
  have hmem := (operandTexts_perm hnumbered h).subset (List.mem_append_left _ htext)
  rcases List.mem_append.mp hmem with hliteral | hmem
  · rw [isTemporaryName_of_mem_literalTexts hliteral] at hname
    contradiction
  · exact hmem

lemma count_operandTexts_add (htext : text ∈ temporaryNames n e.operationCount) :
    (operandTexts e.code).count text + [e.operandText].count text = 1 := by
  have hliteral : text ∉ e.literalTexts := by
    intro hmem
    obtain ⟨j, -, -, rfl⟩ := mem_temporaryNames.mp htext
    have hfalse := isTemporaryName_of_mem_literalTexts hmem
    rw [isTemporaryName_name] at hfalse
    contradiction
  rw [← List.count_append, (operandTexts_perm hnumbered h).count_eq text, List.count_append,
    List.count_eq_zero_of_not_mem hliteral,
    List.count_eq_one_of_mem (nodup_temporaryNames n e.operationCount) htext]

/-- Of the temporaries of an expression, only the one that names the whole is no operand. -/
lemma count_operandTexts (htext : text ∈ temporaryNames n e.operationCount) :
    (operandTexts e.code).count text = if text = e.operandText then 0 else 1 := by
  have hcount := count_operandTexts_add hnumbered h htext
  split
  · rename_i heq
    rw [← heq, List.count_singleton_self] at hcount
    omega
  · rename_i hne
    rw [List.count_eq_zero_of_not_mem (mt List.mem_singleton.mp hne)] at hcount
    omega

/-- Once an expression is computed, nothing but its own value waits. -/
theorem pendingResults_code : pendingResults e.code = [e.operandText].filter isTemporaryName := by
  have hpending : pendingResults e.code =
      (temporaryNames n e.operationCount).filter fun text => text = e.operandText := by
    rw [pendingResults, results_code hnumbered h]
    apply List.filter_congr
    intro text htext
    rw [decide_eq_decide, ← List.count_eq_zero, count_operandTexts hnumbered h htext]
    simp
  rw [hpending, List.filter_eq]
  cases e with
  | literal literal span =>
    have hliteral : isTemporaryName (Expr.literal literal span).operandText = false :=
      isTemporaryName_repr literal
    rw [List.filter_cons_of_neg (by rw [hliteral]; exact Bool.false_ne_true)]
    rfl
  | binary op target span left right =>
    have hname : isTemporaryName (binary op target span left right).operandText = true :=
      isTemporaryName_name target
    have hmem : (binary op target span left right).operandText ∈
        temporaryNames n (binary op target span left right).operationCount := by
      rw [hnumbered.temporaryNames_binary]
      exact List.mem_append_right _ (List.mem_singleton_self _)
    rw [List.count_eq_one_of_mem (nodup_temporaryNames _ _) hmem,
      List.filter_cons_of_pos hname]
    rfl

lemma exists_result_eq (hi : i ∈ e.code) :
    ∃ j, n ≤ j ∧ j < n + e.operationCount ∧ i.result = (Temporary.mk j).name := by
  apply mem_temporaryNames.mp
  rw [← results_code hnumbered h]
  exact List.mem_map_of_mem hi

lemma name_not_mem_operandTexts (hj : j < n ∨ n + e.operationCount ≤ j) :
    (Temporary.mk j).name ∉ operandTexts e.code := by
  intro hmem
  have hmem := mem_temporaryNames_of_operand hnumbered h hmem (isTemporaryName_name _)
  rw [name_mem_temporaryNames] at hmem
  omega

lemma unrelated_code {right : Expr} {b : Int} (hright : right.Numbered (n + e.operationCount))
    (hb : right.outcome = .ok b) : Unrelated e.code right.code := by
  constructor
  · intro i hi
    obtain ⟨j, -, hj, hresult⟩ := exists_result_eq hnumbered h hi
    rw [hresult]
    exact name_not_mem_operandTexts hright hb (.inl hj)
  · intro i hi
    obtain ⟨j, hj, -, hresult⟩ := exists_result_eq hright hb hi
    rw [hresult]
    exact name_not_mem_operandTexts hnumbered h (.inr hj)

/-- The values of the two operands wait on top when their operation comes, and those that waited
before are left alone. -/
theorem takesLatest_code : TakesLatest e.code := by
  induction e generalizing n value with
  | literal literal span =>
    intro k i hi
    contradiction
  | binary op target span left right ihl ihr =>
    obtain ⟨hleftNumbered, hrightNumbered, -⟩ := hnumbered
    obtain ⟨a, b, hleft, hright, -, hcode⟩ := exists_of_outcome_binary h
    have hunrelated := unrelated_code hleftNumbered hleft hrightNumbered hright
    rw [hcode]
    apply ((ihl hleftNumbered hleft).append (ihr hrightNumbered hright) hunrelated).concat
    rw [pendingResults_append hunrelated, pendingResults_code hleftNumbered hleft,
      pendingResults_code hrightNumbered hright, ← List.filter_append]
    exact List.suffix_refl _

lemma result_eq_of_getElem? (hi : e.code[k]? = some i) :
    i.result = (Temporary.mk (n + k)).name := by
  have hresult : (temporaryNames n e.operationCount)[k]? = some i.result := by
    rw [← results_code hnumbered h, List.getElem?_map, hi]
    rfl
  have hk := (List.getElem?_eq_some_iff.mp hresult).1
  rw [temporaryNames, List.length_map, List.length_range'] at hk
  rw [temporaryNames, List.getElem?_map, List.getElem?_range' hk, Nat.one_mul] at hresult
  exact (Option.some.inj hresult).symm

lemma exists_lt_of_pending (htext : text ∈ pendingResults (e.code.take k)) :
    ∃ j < k, text = (Temporary.mk (n + j)).name := by
  obtain ⟨i, hi, rfl⟩ := List.mem_map.mp (List.mem_of_mem_filter htext)
  obtain ⟨j, hj⟩ := List.mem_iff_getElem?.mp hi
  rw [List.getElem?_take] at hj
  split at hj
  · rename_i hlt
    exact ⟨j, hlt, result_eq_of_getElem? hnumbered h hj⟩
  · contradiction

/-- An operand is a literal of the expression or a result that waits for its instruction. -/
lemma operand_cases (hi : e.code[k]? = some i) (htext : text ∈ i.operands) :
    (∃ literal ∈ e.literals, IsCanonicalNumeral literal text) ∨
      ∃ j < k, text = (Temporary.mk (n + j)).name := by
  by_cases hname : isTemporaryName text = true
  · right
    have hmem := List.mem_filter.mpr ⟨htext, hname⟩
    exact exists_lt_of_pending hnumbered h ((takesLatest_code hnumbered h k i hi).subset hmem)
  · left
    have hoperand : text ∈ operandTexts e.code :=
      List.mem_flatMap.mpr ⟨i, List.mem_of_getElem? hi, htext⟩
    have hmem := (operandTexts_perm hnumbered h).subset (List.mem_append_left _ hoperand)
    rcases List.mem_append.mp hmem with hmem | hmem
    · obtain ⟨literal, hliteral, rfl⟩ := List.mem_map.mp hmem
      exact ⟨literal, hliteral, isCanonicalNumeral_repr literal⟩
    · obtain ⟨j, -, -, rfl⟩ := mem_temporaryNames.mp hmem
      exact absurd (isTemporaryName_name _) hname

lemma operandText_eq_name (hk : e.code.length = k + 1) :
    e.operandText = (Temporary.mk (n + k)).name := by
  rw [length_code h] at hk
  cases e with
  | literal literal span => contradiction
  | binary op target span left right =>
    obtain ⟨-, -, hindex⟩ := hnumbered
    have htarget : target.index = n + k := by
      rw [operationCount] at hk
      omega
    rw [operandText, ← htarget]

lemma count_name_operandTexts (hj : j < e.code.length) :
    (operandTexts e.code).count (Temporary.mk (n + j)).name =
      if j + 1 = e.code.length then 0 else 1 := by
  have hlast : e.operandText = (Temporary.mk (n + (e.code.length - 1))).name :=
    operandText_eq_name hnumbered h (by omega)
  have hmem : (Temporary.mk (n + j)).name ∈ temporaryNames n e.operationCount := by
    rw [name_mem_temporaryNames, ← length_code h]
    omega
  rw [count_operandTexts hnumbered h hmem, hlast]
  congr 1
  rw [eq_iff_iff, name_eq_name_iff]
  omega

lemma readInteger?_operandTexts_perm (hcode : e.code ≠ []) :
    ((operandTexts e.code).filterMap Text.readInteger?).Perm
      (e.literals.map fun value : Nat => (value : Int)) := by
  have hnames : (temporaryNames n e.operationCount).filterMap Text.readInteger? = [] := by
    rw [List.filterMap_eq_nil_iff]
    intro text htext
    obtain ⟨j, -, -, rfl⟩ := mem_temporaryNames.mp htext
    exact Text.readInteger?_name _
  have hliterals : e.literalTexts.filterMap Text.readInteger? =
      e.literals.map fun value : Nat => (value : Int) := by
    rw [literalTexts, List.filterMap_map, ← List.filterMap_eq_map]
    congr 1
    funext value
    exact Text.readInteger?_repr value
  have hlast : [e.operandText].filterMap Text.readInteger? = [] := by
    have hpos := List.length_pos_of_ne_nil hcode
    rw [operandText_eq_name hnumbered h (Nat.succ_pred_eq_of_pos hpos).symm,
      List.filterMap_cons_none (Text.readInteger?_name _)]
    rfl
  have hperm := (operandTexts_perm hnumbered h).filterMap Text.readInteger?
  rwa [List.filterMap_append, List.filterMap_append, hnames, hliterals, hlast, List.append_nil,
    List.append_nil] at hperm

end Numbered

end Expr

/-- Code in which each temporary is defined once and taken once, in the order of a stack, and each
of the literals is taken once. -/
structure IsLinear (literals : List Nat) (code : List Instruction) : Prop where
  result_eq : ∀ k i, code[k]? = some i → i.result = (Temporary.mk k).name
  operand_cases : ∀ k i, code[k]? = some i → ∀ text ∈ i.operands,
    (∃ value ∈ literals, IsCanonicalNumeral value text) ∨ ∃ j < k, text = (Temporary.mk j).name
  /-- Only the last temporary is no operand. -/
  count_name : ∀ j < code.length, (operandTexts code).count (Temporary.mk j).name =
    if j + 1 = code.length then 0 else 1
  literals_perm : code ≠ [] → ((operandTexts code).filterMap Text.readInteger?).Perm
    (literals.map fun value : Nat => (value : Int))
  takesLatest : TakesLatest code

lemma Expr.isLinear_code {e : Expr} {value : Int} (hnumbered : e.Numbered 0)
    (h : e.outcome = .ok value) : IsLinear e.literals e.code where
  result_eq k i hi := by
    have hresult := e.result_eq_of_getElem? hnumbered h hi
    rwa [Nat.zero_add] at hresult
  operand_cases k i hi text htext := by
    have hcases := e.operand_cases hnumbered h hi htext
    simpa only [Nat.zero_add] using hcases
  count_name j hj := by
    have hcount := e.count_name_operandTexts hnumbered h hj
    rwa [Nat.zero_add] at hcount
  literals_perm := e.readInteger?_operandTexts_perm hnumbered h
  takesLatest := e.takesLatest_code hnumbered h

/-- The literals of the code are the numbers that the scanner reads from the source. -/
theorem compile_code_isLinear {source : String} {limits : Limits} {out : Output}
    {c : Compilation} (h : (compile source limits).answer out = .ok c) :
    ∃ tokens, tokenize source = .ok tokens ∧ IsLinear (literalValues tokens) c.code := by
  obtain ⟨parsed, hparse, htree, houtcome, hcode⟩ := exists_parse_of_answer_compile h
  obtain ⟨tokens, last, htokens, hlast, hreads, hnumbered, -, -⟩ := exists_reads_of_parse hparse
  refine ⟨tokens ++ [last], htokens, ?_⟩
  have hliterals : literalValues (tokens ++ [last]) = c.tree.literals := by
    rw [literalValues_append, literalValues_singleton, hlast, hreads.literalValues_eq, htree]
    exact List.append_nil _
  rw [hliterals, hcode]
  rw [← htree] at hnumbered
  exact c.tree.isLinear_code hnumbered houtcome

/-- Two results wait for the product, and a number with a leading zero is written without it. -/
theorem compile_code_isLinear_of_two_groups :
    ∃ c tokens, (compile "(1+02)*(3-1)" {}).answer {} = .ok c ∧
      tokenize "(1+02)*(3-1)" = .ok tokens ∧ IsLinear (literalValues tokens) c.code ∧
      operandTexts c.code = ["1", "2", "3", "1", "t0", "t1"] ∧
      pendingResults (c.code.take 2) = ["t0", "t1"] := by
  obtain ⟨c, hc, htexts, hpending⟩ : ∃ c, (compile "(1+02)*(3-1)" {}).answer {} = .ok c ∧
      operandTexts c.code = ["1", "2", "3", "1", "t0", "t1"] ∧
      pendingResults (c.code.take 2) = ["t0", "t1"] := ⟨_, by cbv, by cbv, by cbv⟩
  obtain ⟨tokens, htokens, hlinear⟩ := compile_code_isLinear hc
  exact ⟨c, tokens, hc, htokens, hlinear, htexts, hpending⟩

end ThreeAddress
