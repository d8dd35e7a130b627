import ThreeAddress.Proofs.PhraseValue
import ThreeAddress.Proofs.TimedAgreement
import ThreeAddress.Proofs.ViablePrefix

/-!
# Failures name a place

Whatever is asked of a source text, the answer is a result or one of two failures: the text is
rejected, or a division by zero stops its evaluation. Both name a place in the text. The faults that
hand-built trees can have, malformed nodes and operands without a numeral, never come from a source
text, and no operation is computed that has no value.
-/

open ThreeAddress.Parser

namespace ThreeAddress

lemma Position.line_le_afterAll (p : Position) (text : List Char) :
    p.line ≤ (p.afterAll text).line := by
  induction text generalizing p with
  | nil => exact Int.le_refl _
  | cons c text ih =>
    have hafter : p.line ≤ (p.after c).line := by
      unfold after
      split <;> dsimp only <;> omega
    exact Int.le_trans hafter (ih (p.after c))

lemma Span.isKnown_of_line_pos {s : Span} (h : 0 < s.start.line) : s.isKnown = true := by
  simp only [isKnown, decide_eq_true_eq]
  rintro rfl
  cases h

namespace Cursor

lemma line_le_skip (p : Char → Bool) (cursor : Cursor) :
    cursor.position.line ≤ (cursor.skip p).position.line :=
  cursor.position.line_le_afterAll _

lemma start_of_lexeme {cursor behind : Cursor} {token : Token}
    (h : cursor.lexeme = .ok token behind) :
    token.span.start = cursor.position ∧ cursor.position.line ≤ behind.position.line := by
  unfold lexeme at h
  split at h
  · obtain ⟨rfl, rfl⟩ := EStateM.Result.ok.inj h
    exact ⟨rfl, Int.le_refl _⟩
  · rename_i c rest hrest
    split at h
    · obtain ⟨rfl, rfl⟩ := EStateM.Result.ok.inj h
      exact ⟨rfl, cursor.position.line_le_afterAll [c]⟩
    · split at h
      · unfold literal at h
        split at h
        · obtain ⟨rfl, rfl⟩ := EStateM.Result.ok.inj h
          exact ⟨rfl, line_le_skip _ _⟩
        · cases h
      · cases h

lemma start_of_lexeme_error {cursor behind : Cursor} {issue : Issue}
    (h : cursor.lexeme = .error issue behind) : issue.span.start = cursor.position := by
  unfold lexeme at h
  split at h
  · cases h
  · split at h
    · cases h
    · split at h
      · unfold literal at h
        split at h
        · cases h
        · obtain ⟨rfl, -⟩ := EStateM.Result.error.inj h
          rfl
      · obtain ⟨rfl, -⟩ := EStateM.Result.error.inj h
        rfl

/-- Reading never goes back to an earlier line. -/
theorem line_le_readAll (cursor : Cursor) :
    (∀ token ∈ cursor.readAll.1, cursor.position.line ≤ token.span.start.line) ∧
      ∀ issue, cursor.readAll.2 = some issue → cursor.position.line ≤ issue.span.start.line := by
  fun_induction readAll cursor with
  | case1 cursor issue behind hnext =>
    refine ⟨by simp, ?_⟩
    intro issue' h
    obtain rfl := Option.some.inj h
    rw [start_of_lexeme_error hnext]
    exact line_le_skip _ _
  | case2 cursor token behind hnext hend =>
    refine ⟨?_, by simp⟩
    intro token' h
    obtain rfl := List.mem_singleton.mp h
    rw [(start_of_lexeme hnext).1]
    exact line_le_skip _ _
  | case3 cursor token behind hnext hend _ tokens issue? hreadAll ih =>
    rw [hreadAll] at ih
    obtain ⟨hstart, hline⟩ := start_of_lexeme hnext
    have hskip := line_le_skip Text.isBlank cursor
    refine ⟨?_, ?_⟩
    · intro token' h
      obtain rfl | h := List.mem_cons.mp h
      · rw [hstart]
        exact hskip
      · exact (hskip.trans hline).trans (ih.1 token' h)
    · intro issue h
      exact (hskip.trans hline).trans (ih.2 issue h)

end Cursor

lemma isKnown_of_mem_scannedTokens {source : String} {token : Token}
    (h : token ∈ scannedTokens source) : token.span.isKnown = true := by
  apply Span.isKnown_of_line_pos
  exact Int.lt_of_lt_of_le Int.one_pos ((Cursor.ofSource source).line_le_readAll.1 token h)

lemma isKnown_of_readAll {source : String} {issue : Issue}
    (h : (Cursor.ofSource source).readAll.2 = some issue) : issue.span.isKnown = true := by
  apply Span.isKnown_of_line_pos
  exact Int.lt_of_lt_of_le Int.one_pos ((Cursor.ofSource source).line_le_readAll.2 issue h)

/-- The span of an operation that waits for its right operand is that of a token taken. -/
lemma Parser.Holds.exists_token {op : Operator} {span : Span} {left right : Expr}
    {stack : List Frame} {taken : List Token} {look : Option Token}
    (h : Holds ⟨.operation op span left :: stack, .complete right⟩ taken look) :
    ∃ token ∈ taken, token.span = span := by
  cases h with
  | complete hstack hphrase hfits hlook =>
    cases hstack with
    | operation below hfits' hleft hkind => exact ⟨_, by simp, rfl⟩

theorem isKnown_of_parse_error {source : String} {limits : Limits} {d : Diagnostic}
    (h : parse source limits = .error d) : d.span.isKnown = true := by
  have hout := parse_outcome source limits
  rw [h] at hout
  cases hout with
  | unscanned hreadAll => exact isKnown_of_readAll (congrArg Prod.snd hreadAll)
  | trailing hstart hreach hcurrent hend =>
    have hscanned := scannedTokens_of_reaches hstart hreach
    apply isKnown_of_mem_scannedTokens
    rw [hscanned]
    exact List.mem_append_right _ List.mem_cons_self
  | failed hstart hreach hfails =>
    rename_i s taken task p p'
    have hscanned := scannedTokens_of_reaches hstart hreach
    have hcurrent : p.scanner.current.span.isKnown = true := by
      have hmem : p.scanner.current ∈ scannedTokens source := by simp [hscanned]
      exact isKnown_of_mem_scannedTokens hmem
    cases hfails with
    | lexical htakes hadvance =>
      obtain ⟨issue, htokenize, rfl, -⟩ := viable_of_lexical hstart hreach htakes hadvance
      exact isKnown_of_readAll (congrArg Prod.snd (tokenize_eq_error_iff.mp htokenize))
    | operandExpected hnot => exact hcurrent
    | closingExpected hnot => exact hcurrent
    | nestedTooDeeply hkind hadvance hdepth => exact hcurrent
    | expressionTooLong hlook hheight =>
      obtain ⟨token, htaken, rfl⟩ := hreach.holds_taken.exists_token
      have hmem : token ∈ scannedTokens source := by simp [hscanned, htaken]
      exact isKnown_of_mem_scannedTokens hmem

theorem isKnown_of_outcome_error {source : String} {limits : Limits} {parsed : Parsed} {span : Span}
    (h : parse source limits = .ok parsed) (herror : parsed.tree.outcome = .error span) :
    span.isKnown = true := by
  obtain ⟨tokens, last, htokens, -, hreads, -⟩ := exists_reads_of_parse h
  have hscanned : scannedTokens source = tokens ++ [last] :=
    congrArg Prod.fst (tokenize_eq_ok_iff.mp htokens)
  have hmem : ⟨.operator .div, span⟩ ∈ scannedTokens source := by
    rw [hscanned]
    exact List.mem_append_left _ (hreads.denotes.exists_division herror)
  exact isKnown_of_mem_scannedTokens hmem

/-- The text of a located diagnostic ends with the line and the column at which its span starts. -/
def Diagnostic.IsLocated (d : Diagnostic) : Prop :=
  d.span.isKnown = true ∧
    d.text = d.message ++ " at " ++ (d.span.start.line.repr ++ ":" ++ d.span.start.column.repr)

lemma Diagnostic.isLocated_of_isKnown {d : Diagnostic} (h : d.span.isKnown = true) :
    d.IsLocated :=
  ⟨h, if_pos h⟩

/-- How a source text can fail. -/
inductive Refusal (source : String) (limits : Limits) : Fault → Prop where
  /-- The text is no expression within the limits. -/
  | rejected {d : Diagnostic} (hparse : parse source limits = .error d)
      (hcategory : d.category = .badSource) (hlocated : d.IsLocated) :
      Refusal source limits (.diagnostic d)
  /-- The text is an expression with a division by zero. -/
  | undefined {parsed : Parsed} {d : Diagnostic} (hparse : parse source limits = .ok parsed)
      (houtcome : parsed.tree.outcome = .error d.span) (hcategory : d.category = .zeroDivisor)
      (hlocated : d.IsLocated) : Refusal source limits (.diagnostic d)

/-- An answer to a source text: a result when the text is an expression with a value, and a refusal
otherwise. -/
inductive Answered {α : Type} (source : String) (limits : Limits) : Except Fault α → Prop where
  | result {parsed : Parsed} {value : Int} (a : α) (hparse : parse source limits = .ok parsed)
      (houtcome : parsed.tree.outcome = .ok value) : Answered source limits (.ok a)
  | refused {fault : Fault} (h : Refusal source limits fault) :
      Answered source limits (.error fault)

lemma answered_map {α β : Type} {source : String} {limits : Limits} {answer : Except Fault α}
    {f : α → β} : Answered source limits (answer.map f) ↔ Answered source limits answer := by
  constructor
  · intro h
    cases answer with
    | ok a =>
      cases h with
      | result _ hparse houtcome => exact .result a hparse houtcome
    | error fault =>
      cases h with
      | refused hfault => exact .refused hfault
  · intro h
    cases h with
    | result a hparse houtcome => exact .result (f a) hparse houtcome
    | refused hfault => exact .refused hfault

lemma answered_compile (source : String) (limits : Limits) (out : Output) :
    Answered source limits ((compile source limits).answer out) := by
  rw [answer_compile]
  cases hparse : parse source limits with
  | error d =>
    have hlocated := Diagnostic.isLocated_of_isKnown (isKnown_of_parse_error hparse)
    exact .refused (.rejected hparse (category_of_parse_error hparse) hlocated)
  | ok parsed =>
    simp only [Expr.compilation]
    cases houtcome : parsed.tree.outcome with
    | ok value => exact .result _ hparse houtcome
    | error span =>
      have hknown := isKnown_of_outcome_error hparse houtcome
      exact .refused (.undefined hparse houtcome rfl (Diagnostic.isLocated_of_isKnown hknown))

/-- Whatever is asked of a source text, and whatever the limits and the clock, the answer is a
result, a located rejection of the text, or a located division by zero. No answer is the fault of a
malformed tree, of an operation without a value or of a numeral that is too long. -/
theorem source_answers_are_located (source : String) (limits : Limits) (annotate verbose : Bool)
    (clock : Clock) (out : Output) :
    Answered source limits ((compile source limits).answer out) ∧
    Answered source limits ((compileToListing annotate source limits).answer out) ∧
    Answered source limits ((compileToCounts source limits).answer out) ∧
    Answered source limits ((runTimed source limits verbose clock).answer out) := by
  have hcompile := answered_compile source limits out
  refine ⟨hcompile, ?_, ?_, ?_⟩
  · have hmap := Pipeline.answer_map (compile source limits) (fun c => listing annotate c.code) out
    exact hmap ▸ answered_map.mpr hcompile
  · have hmap := Pipeline.answer_map (compile source limits) (fun c => operatorCounts c.code) out
    exact hmap ▸ answered_map.mpr hcompile
  · -- Whether an answer is a result does not depend on the statistics beside it.
    rw [← map_fst_answer_runTimed source limits verbose clock out out] at hcompile
    exact answered_map.mp hcompile

end ThreeAddress
