import Mathlib
import ThreeAddress.Decoding
import ThreeAddress.Proofs.CodeExecution
import ThreeAddress.Proofs.TimedAgreement

/-!
# Listings determine expressions

The plain listing of an expression's code says everything about the expression but where it was
written. Lines and fields can be told apart, since names and numerals have letters and digits only,
and an operation is the latest on the stack when an instruction refers to it. So decoding a listing
gives the expression back (`Expr.decodeListing?_listing`).
-/

namespace ThreeAddress

/-- A text that has letters and digits only. -/
def IsWord (text : String) : Prop :=
  ∀ c ∈ text.toList, c.isAlphanum = true

lemma isWord_repr (n : Nat) : IsWord (n : Int).repr := by
  intro c hc
  rw [Text.toList_repr_natCast] at hc
  simp [Char.isAlphanum, isDigit_of_mem_toDigits_ten hc]

lemma Temporary.isWord_name (t : Temporary) : IsWord t.name := by
  intro c hc
  rw [toList_name] at hc
  obtain rfl | hc := List.mem_cons.mp hc
  · decide
  · simp [Char.isAlphanum, isDigit_of_mem_toDigits_ten hc]

lemma Expr.isWord_operandText (e : Expr) : IsWord e.operandText := by
  cases e with
  | literal value span => exact isWord_repr value
  | binary op target span left right => exact target.isWord_name

namespace Instruction

/-- An instruction whose names and numerals are words. -/
structure IsPlain (i : Instruction) : Prop where
  result : IsWord i.result
  left : IsWord i.left
  right : IsWord i.right

def fields (i : Instruction) : List (List Char) :=
  [i.result.toList, ['='], i.left.toList, [i.op.symbol], i.right.toList]

lemma toList_text (i : Instruction) : i.text.toList = [' '].intercalate i.fields := by
  simp [text, fields, List.intercalate]

def unlocated (i : Instruction) : Instruction :=
  { i with span := .unknown }

variable {i : Instruction}

lemma IsPlain.not_mem_fields (h : i.IsPlain) {c : Char} (hc : c.isAlphanum = false)
    (hsign : c ≠ '=' ∧ c ≠ i.op.symbol) : ∀ field ∈ i.fields, c ∉ field := by
  have hword : ∀ text, IsWord text → c ∉ text.toList := by
    intro text htext hmem
    rw [htext c hmem] at hc
    cases hc
  simp [fields, hword _ h.result, hword _ h.left, hword _ h.right, hsign]

theorem ofText?_text (h : i.IsPlain) : ofText? i.text.toList = some i.unlocated := by
  have hblank : ∀ field ∈ i.fields, ' ' ∉ field := by
    refine h.not_mem_fields (by decide) ⟨by decide, ?_⟩
    cases i.op <;> decide
  have hsplit := List.splitOn_intercalate ' ' hblank (by simp [fields])
  rw [ofText?, toList_text, hsplit]
  simp [fields, unlocated]

lemma IsPlain.not_mem_text (h : i.IsPlain) {c : Char} (hc : c.isAlphanum = false)
    (hblank : c ≠ ' ') (hsign : c ≠ '=' ∧ c ≠ i.op.symbol) : c ∉ i.text.toList := by
  have hfields := h.not_mem_fields hc hsign
  simp only [fields, List.forall_mem_cons, List.mem_singleton] at hfields
  simp [text, hfields, hblank]

lemma IsPlain.newline_not_mem_text (h : i.IsPlain) : '\n' ∉ i.text.toList := by
  refine h.not_mem_text (by decide) (by decide) ⟨by decide, ?_⟩
  cases i.op <;> decide

end Instruction

namespace Expr

variable {e : Expr} {value : Int}

/-- What the outcome of an operation says: both operands have a value, and the code ends with the
instruction of the operation. -/
lemma exists_of_outcome_binary {op : Operator} {target : Temporary} {span : Span}
    {left right : Expr} (h : (binary op target span left right).outcome = .ok value) :
    ∃ a b, left.outcome = .ok a ∧ right.outcome = .ok b ∧ op.meaning? a b = some value ∧
      (binary op target span left right).code = left.code ++ right.code ++
        [⟨target.name, op, left.operandText, right.operandText, span⟩] := by
  obtain ⟨a, b, hleft, hright, hmeaning⟩ := Operator.combine_eq_ok h
  refine ⟨a, b, hleft, hright, hmeaning, ?_⟩
  simp only [code, hleft, hright, hmeaning]

lemma isPlain_of_mem_code (h : e.outcome = .ok value) : ∀ i ∈ e.code, i.IsPlain := by
  induction e generalizing value with
  | literal literal span =>
    intro i hi
    cases hi
  | binary op target span left right ihl ihr =>
    obtain ⟨a, b, hleft, hright, -, hcode⟩ := exists_of_outcome_binary h
    intro i hi
    rw [hcode, List.mem_append, List.mem_append, List.mem_singleton] at hi
    obtain (hi | hi) | rfl := hi
    · exact ihl hleft i hi
    · exact ihr hright i hi
    · exact ⟨target.isWord_name, left.isWord_operandText, right.isWord_operandText⟩

end Expr

lemma splitOn_listing {annotate : Bool} {code : List Instruction} (hcode : code ≠ [])
    (hnewline : ∀ line ∈ listingLines annotate code, '\n' ∉ line.toList) :
    List.splitOn '\n' (listing annotate code).toList =
      (listingLines annotate code).map String.toList := by
  rw [listing, String.toList_intercalate]
  apply List.splitOn_intercalate
  · intro line hline
    obtain ⟨text, htext, rfl⟩ := List.mem_map.mp hline
    exact hnewline text htext
  · simpa [listingLines] using hcode

/-- What decodes line by line decodes as a whole. -/
lemma mapM_map_eq_some {α β γ : Type} {write : α → β} {read : β → Option γ} {result : α → γ}
    {l : List α} (h : ∀ a ∈ l, read (write a) = some (result a)) :
    (l.map write).mapM read = some (l.map result) := by
  induction l with
  | nil => rfl
  | cons a l ih =>
    have hrest := ih fun a ha => h a (List.mem_cons_of_mem _ ha)
    simp [List.mapM_cons, h a List.mem_cons_self, hrest]

theorem mapM_ofText?_listing {code : List Instruction} (hplain : ∀ i ∈ code, i.IsPlain)
    (hcode : code ≠ []) :
    (List.splitOn '\n' (listing false code).toList).mapM Instruction.ofText? =
      some (code.map Instruction.unlocated) := by
  have hnewline : ∀ line ∈ listingLines false code, '\n' ∉ line.toList := by
    intro line hline
    obtain ⟨i, hi, rfl⟩ := List.mem_map.mp hline
    exact (hplain i hi).newline_not_mem_text
  rw [splitOn_listing hcode hnewline, listingLines, List.map_map]
  exact mapM_map_eq_some fun i hi => Instruction.ofText?_text (hplain i hi)

lemma listingLines_map_unlocated (code : List Instruction) :
    listingLines false (code.map Instruction.unlocated) = listingLines false code := by
  simp [listingLines, Function.comp_def, Instruction.text, Instruction.unlocated]

lemma Temporary.ofName?_name (t : Temporary) : ofName? t.name = some t := by
  have hdigits : (Nat.toDigits 10 t.index).all Char.isDigit = true := by
    rw [List.all_eq_true]
    exact fun c hc => isDigit_of_mem_toDigits_ten hc
  simp only [ofName?, toList_name]
  rw [if_pos ⟨Nat.toDigits_ne_nil, hdigits⟩, Nat.ofDigitChars_ten_toDigits]

lemma rebuild?_append (code more : List Instruction) (stack : List Expr) :
    rebuild? (code ++ more) stack = (rebuild? code stack).bind (rebuild? more) := by
  induction code generalizing stack with
  | nil => rfl
  | cons i code ih =>
    rw [List.cons_append, rebuild?, rebuild?]
    cases i.rebuild? stack with
    | none => rfl
    | some stack' => exact ih stack'

lemma rebuild?_map_unlocated (code : List Instruction) (stack : List Expr) :
    rebuild? (code.map Instruction.unlocated) stack = rebuild? code stack := by
  induction code generalizing stack with
  | nil => rfl
  | cons i code ih =>
    rw [List.map_cons, rebuild?, rebuild?]
    exact congrArg (i.rebuild? stack).bind (funext ih)

namespace Expr

/-- The stack once an expression is rebuilt on it: only operations wait there. -/
def pushOn : Expr → List Expr → List Expr
  | literal .., stack => stack
  | binary op target span left right, stack => binary op target span left right :: stack

lemma ofOperand?_operandText (e : Expr) (stack : List Expr) :
    ofOperand? e.operandText (e.unlocated.pushOn stack) = some (e.unlocated, stack) := by
  cases e with
  | literal value span =>
    simp only [operandText, ofOperand?, Text.readInteger?_repr]
    rfl
  | binary op target span left right =>
    simp only [operandText, ofOperand?, Text.readInteger?_name, unlocated, pushOn, if_true]

/-- The code of an expression rebuilds it on any stack. -/
theorem rebuild?_code {value : Int} {e : Expr} (h : e.outcome = .ok value) (stack : List Expr) :
    rebuild? e.code stack = some (e.unlocated.pushOn stack) := by
  induction e generalizing value stack with
  | literal literal span => rfl
  | binary op target span left right ihl ihr =>
    obtain ⟨a, b, hleft, hright, -, hcode⟩ := exists_of_outcome_binary h
    have hlast : (Instruction.mk target.name op left.operandText right.operandText span).rebuild?
        (right.unlocated.pushOn (left.unlocated.pushOn stack)) =
        some (binary op target .unknown left.unlocated right.unlocated :: stack) := by
      simp [Instruction.rebuild?, ofOperand?_operandText, Temporary.ofName?_name]
    rw [hcode, rebuild?_append, rebuild?_append, ihl hleft, Option.bind_some, ihr hright,
      Option.bind_some, rebuild?, hlast]
    rfl

theorem decodeListing?_listing {value : Int} {e : Expr} (h : e.outcome = .ok value)
    (hcode : e.code ≠ []) : decodeListing? (listing false e.code) = some e.unlocated := by
  cases e with
  | literal literal span => exact absurd rfl hcode
  | binary op target span left right =>
    have hlines := mapM_ofText?_listing (isPlain_of_mem_code h) hcode
    have hrebuild := rebuild?_code h []
    rw [← rebuild?_map_unlocated] at hrebuild
    simp only [decodeListing?, hlines, bind, Option.bind_some, hrebuild]
    rfl

lemma operandText_unlocated (e : Expr) : e.unlocated.operandText = e.operandText := by
  cases e <;> rfl

lemma outcome_unlocated {value : Int} {e : Expr} (h : e.outcome = .ok value) :
    e.unlocated.outcome = .ok value := by
  induction e generalizing value with
  | literal literal span => exact h
  | binary op target span left right ihl ihr =>
    obtain ⟨a, b, hleft, hright, hmeaning, -⟩ := exists_of_outcome_binary h
    rw [unlocated, outcome, ihl hleft, ihr hright, Operator.combine_of_some hmeaning]

lemma code_unlocated {value : Int} {e : Expr} (h : e.outcome = .ok value) :
    e.unlocated.code = e.code.map Instruction.unlocated := by
  induction e generalizing value with
  | literal literal span => rfl
  | binary op target span left right ihl ihr =>
    obtain ⟨a, b, hleft, hright, -, hcode⟩ := exists_of_outcome_binary h
    obtain ⟨-, -, -, -, -, hcode'⟩ := exists_of_outcome_binary (outcome_unlocated h)
    rw [unlocated, hcode', hcode, ihl hleft, ihr hright, operandText_unlocated,
      operandText_unlocated, List.map_append, List.map_append]
    rfl

theorem listing_eq_iff {value value' : Int} {e e' : Expr} (h : e.outcome = .ok value)
    (h' : e'.outcome = .ok value') (hcode : e.code ≠ []) (hcode' : e'.code ≠ []) :
    listing false e.code = listing false e'.code ↔ e.unlocated = e'.unlocated := by
  constructor
  · intro htext
    have hdecode := decodeListing?_listing h hcode
    rw [htext, decodeListing?_listing h' hcode'] at hdecode
    exact (Option.some.inj hdecode).symm
  · intro htree
    rw [listing, listing, ← listingLines_map_unlocated, ← code_unlocated h, htree,
      code_unlocated h', listingLines_map_unlocated]

end Expr

lemma tree_of_answer_compile {source : String} {limits : Limits} {out : Output} {c : Compilation}
    (h : (compile source limits).answer out = .ok c) :
    c.tree.outcome = .ok c.value ∧ c.code = c.tree.code := by
  obtain ⟨parsed, -, -, htree⟩ := exists_parse_of_answer_compile h
  exact htree

/-- The listings of two source texts that have code are equal exactly when the trees are equal but
for their spans, and then the values are equal too. The tree without its spans is what decoding the
listing gives. -/
theorem listing_determines_tree {source source' : String} {limits limits' : Limits}
    {out out' : Output} {c c' : Compilation} (h : (compile source limits).answer out = .ok c)
    (h' : (compile source' limits').answer out' = .ok c') (hcode : c.code ≠ [])
    (hcode' : c'.code ≠ []) :
    ∃ text text', (compileToListing false source limits).answer out = .ok text ∧
      (compileToListing false source' limits').answer out' = .ok text' ∧
      decodeListing? text = some c.tree.unlocated ∧
      (text = text' ↔ c.tree.unlocated = c'.tree.unlocated) ∧
      (text = text' → c.value = c'.value) := by
  have hlisting := Pipeline.answer_map (compile source limits) (fun c => listing false c.code) out
  have hlisting' :=
    Pipeline.answer_map (compile source' limits') (fun c => listing false c.code) out'
  rw [h] at hlisting
  rw [h'] at hlisting'
  obtain ⟨houtcome, htree⟩ := tree_of_answer_compile h
  obtain ⟨houtcome', htree'⟩ := tree_of_answer_compile h'
  rw [htree] at hcode
  rw [htree'] at hcode'
  have hiff := Expr.listing_eq_iff houtcome houtcome' hcode hcode'
  refine ⟨listing false c.code, listing false c'.code, hlisting, hlisting', ?_⟩
  rw [htree, htree']
  refine ⟨Expr.decodeListing?_listing houtcome hcode, hiff, ?_⟩
  intro htext
  have hvalue := Expr.outcome_unlocated houtcome
  rw [hiff.mp htext, Expr.outcome_unlocated houtcome'] at hvalue
  exact (Except.ok.inj hvalue).symm

/-- Two texts with different spans and one listing. -/
theorem listing_determines_tree_of_two_spellings :
    ∃ c c' text, (compile "6*(5-2)" {}).answer {} = .ok c ∧ c.code ≠ [] ∧
      (compile "6 *\n((5-2))" ⟨2, 3⟩).answer {} = .ok c' ∧ c'.code ≠ [] ∧ c.tree ≠ c'.tree ∧
      (compileToListing false "6*(5-2)" {}).answer {} = .ok text ∧
      (compileToListing false "6 *\n((5-2))" ⟨2, 3⟩).answer {} = .ok text ∧
      decodeListing? text = some c.tree.unlocated ∧ c.value = c'.value := by
  obtain ⟨c, h, hcode, c', h', hcode', hdistinct, htrees⟩ :
      ∃ c, (compile "6*(5-2)" {}).answer {} = .ok c ∧ c.code ≠ [] ∧
        ∃ c', (compile "6 *\n((5-2))" ⟨2, 3⟩).answer {} = .ok c' ∧ c'.code ≠ [] ∧
          c.tree ≠ c'.tree ∧ c.tree.unlocated = c'.tree.unlocated :=
    ⟨_, by cbv, by simp, _, by cbv, by simp, by decide, by decide⟩
  obtain ⟨text, text', htext, htext', hdecode, hiff, hvalue⟩ :=
    listing_determines_tree h h' hcode hcode'
  obtain rfl := hiff.mpr htrees
  exact ⟨c, c', text, h, hcode, h', hcode', hdistinct, htext, htext', hdecode, hvalue rfl⟩

end ThreeAddress
