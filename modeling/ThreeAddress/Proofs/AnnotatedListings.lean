import Mathlib
import ThreeAddress.Proofs.ListingDecoding
import ThreeAddress.Proofs.LocatedFailures
import ThreeAddress.Proofs.TokenProvenance

/-!
# Annotated listings can be decoded

An annotated line is an instruction, a marker and the four numbers of a span. No name, numeral or
operator contains the sign of the marker, and the places in a source text are counted from one, so
that every span is known and none of its numbers has a sign. Hence all fields can be told apart,
and decoding a line gives the instruction with its span (`Instruction.ofAnnotated?_annotated`).
-/

namespace ThreeAddress

/-- Places in a text are counted from one. -/
def Position.IsCounted (p : Position) : Prop :=
  0 < p.line ∧ 0 < p.column

def Span.IsCounted (s : Span) : Prop :=
  s.start.IsCounted ∧ s.stop.IsCounted

lemma Position.isCounted_behind (text : List Char) : (behind text).IsCounted := by
  unfold IsCounted behind
  dsimp only
  omega

lemma not_mem_repr_of_nonneg {n : Int} (h : 0 ≤ n) {c : Char} (hc : c.isDigit = false) :
    c ∉ n.repr.toList := by
  intro hmem
  rw [Text.toList_repr, if_neg h.not_gt] at hmem
  rw [isDigit_of_mem_toDigits_ten hmem] at hc
  cases hc

namespace Position

variable {p : Position}

lemma toList_text (p : Position) :
    p.text.toList = [':'].intercalate [p.line.repr.toList, p.column.repr.toList] := by
  simp [text, List.intercalate]

lemma IsCounted.not_mem_text (h : p.IsCounted) {c : Char} (hc : c.isDigit = false)
    (hcolon : c ≠ ':') : c ∉ p.text.toList := by
  have hline := not_mem_repr_of_nonneg h.1.le hc
  have hcolumn := not_mem_repr_of_nonneg h.2.le hc
  simp [text, hline, hcolumn, hcolon]

theorem ofText?_text (h : p.IsCounted) : ofText? p.text.toList = some p := by
  have hdigit : ':'.isDigit = false := by decide
  have hcolon : ∀ field ∈ [p.line.repr.toList, p.column.repr.toList], ':' ∉ field := by
    simp [not_mem_repr_of_nonneg h.1.le hdigit, not_mem_repr_of_nonneg h.2.le hdigit]
  rw [ofText?, toList_text, List.splitOn_intercalate ':' hcolon (by simp)]
  simp [Text.readInteger?_repr]

end Position

namespace Span

variable {s : Span}

lemma IsCounted.text_eq (h : s.IsCounted) : s.text = s.start.text ++ "-" ++ s.stop.text :=
  if_pos (isKnown_of_line_pos h.1.1)

lemma IsCounted.not_mem_text (h : s.IsCounted) {c : Char} (hc : c.isDigit = false)
    (hsign : c ≠ ':' ∧ c ≠ '-') : c ∉ s.text.toList := by
  have hstart := h.1.not_mem_text hc hsign.1
  have hstop := h.2.not_mem_text hc hsign.1
  simp [h.text_eq, hstart, hstop, hsign]

theorem ofText?_text (h : s.IsCounted) : ofText? s.text.toList = some s := by
  have hdash : ∀ part ∈ [s.start.text.toList, s.stop.text.toList], '-' ∉ part := by
    simp [h.1.not_mem_text (c := '-') (by decide) (by decide),
      h.2.not_mem_text (c := '-') (by decide) (by decide)]
  have htext : s.text.toList = ['-'].intercalate [s.start.text.toList, s.stop.text.toList] := by
    simp [h.text_eq, List.intercalate]
  rw [ofText?, htext, List.splitOn_intercalate '-' hdash (by simp)]
  simp [Position.ofText?_text h.1, Position.ofText?_text h.2]

end Span

namespace Instruction

/-- The sign of the marker would be the third character, which is in `front` or a blank. -/
lemma isPrefixOf_commentMarker {front : List Char} (h : '#' ∉ front) (c : Char) (back : List Char) :
    commentMarker.isPrefixOf (c :: front ++ (commentMarker ++ back)) = false := by
  rcases front with _ | ⟨d, _ | ⟨e, front⟩⟩
  · simp [commentMarker, List.isPrefixOf]
  · simp [commentMarker, List.isPrefixOf]
  · have he : '#' ≠ e := by
      rintro rfl
      exact h (by simp)
    simp [commentMarker, List.isPrefixOf, he]

lemma cut?_commentMarker {front : List Char} (h : '#' ∉ front) (back : List Char) :
    Text.cut? commentMarker (front ++ (commentMarker ++ back)) = some (front, back) := by
  induction front with
  | nil => simp [commentMarker, Text.cut?]
  | cons c front ih =>
    have hfront : '#' ∉ front := fun hmem => h (List.mem_cons_of_mem _ hmem)
    have hnot := isPrefixOf_commentMarker hfront c back
    rw [List.cons_append] at hnot ⊢
    rw [Text.cut?, hnot, ih hfront]
    rfl

variable {i : Instruction}

/-- The form of an annotated line. -/
def annotatedForm (i : Instruction) : String :=
  i.result ++ " = " ++ i.left ++ " " ++ i.op.symbol.toString ++ " " ++ i.right ++ "  # " ++
    i.span.start.line.repr ++ ":" ++ i.span.start.column.repr ++ "-" ++
    i.span.stop.line.repr ++ ":" ++ i.span.stop.column.repr

lemma annotated_eq_form (h : i.span.IsCounted) : i.annotated = i.annotatedForm := by
  rw [annotated, if_pos (Span.isKnown_of_line_pos h.1.1), h.text_eq]
  simp only [annotatedForm, text, Position.text, String.append_assoc]

lemma toList_annotated (h : i.span.IsCounted) :
    i.annotated.toList = i.text.toList ++ (commentMarker ++ i.span.text.toList) := by
  rw [annotated, if_pos (Span.isKnown_of_line_pos h.1.1)]
  simp [commentMarker]

lemma cut?_annotated (hplain : i.IsPlain) (h : i.span.IsCounted) :
    Text.cut? commentMarker i.annotated.toList = some (i.text.toList, i.span.text.toList) := by
  have hsign : '#' ∉ i.text.toList := by
    refine hplain.not_mem_text (by decide) (by decide) ⟨by decide, ?_⟩
    cases i.op <;> decide
  rw [toList_annotated h, cut?_commentMarker hsign]

theorem ofAnnotated?_annotated (hplain : i.IsPlain) (h : i.span.IsCounted) :
    ofAnnotated? i.annotated.toList = some i := by
  simp only [ofAnnotated?, cut?_annotated hplain h, bind, Option.bind_some, ofText?_text hplain,
    Span.ofText?_text h]
  rfl

lemma withoutComment_annotated (hplain : i.IsPlain) (h : i.span.IsCounted) :
    withoutComment i.annotated.toList = i.text.toList := by
  rw [withoutComment, cut?_annotated hplain h]
  rfl

lemma newline_not_mem_annotated (hplain : i.IsPlain) (h : i.span.IsCounted) :
    '\n' ∉ i.annotated.toList := by
  have hspan := h.not_mem_text (c := '\n') (by decide) (by decide)
  rw [toList_annotated h]
  simp [hplain.newline_not_mem_text, hspan, commentMarker]

end Instruction

lemma splitOn_listing_true {code : List Instruction} (hcode : code ≠ [])
    (hplain : ∀ i ∈ code, i.IsPlain) (hspan : ∀ i ∈ code, i.span.IsCounted) :
    List.splitOn '\n' (listing true code).toList = code.map fun i => i.annotated.toList := by
  have hnewline : ∀ line ∈ listingLines true code, '\n' ∉ line.toList := by
    intro line hline
    obtain ⟨i, hi, rfl⟩ := List.mem_map.mp hline
    exact Instruction.newline_not_mem_annotated (hplain i hi) (hspan i hi)
  rw [splitOn_listing hcode hnewline, listingLines, List.map_map]
  rfl

/-- The span of an instruction is the place of its operator in the source text. -/
lemma isCounted_of_mem_code {source : String} {limits : Limits} {parsed : Parsed}
    (h : parse source limits = .ok parsed) : ∀ i ∈ parsed.tree.code, i.span.IsCounted := by
  intro i hi
  obtain ⟨tokens, last, htokens, -, hreads, -⟩ := exists_reads_of_parse h
  obtain ⟨words, trailing, htext, -, hlayout⟩ := exists_words_of_tokenize htokens
  obtain ⟨rfl, -⟩ := List.append_inj' hlayout rfl
  have hmem := parsed.tree.code_subperm_inorder.subset (List.mem_map_of_mem hi)
  rw [hreads.inorder_eq] at hmem
  obtain ⟨front, back, -, hspan⟩ :=
    isSymbolSpan_of_mem_wordTokens htext (List.mem_of_mem_filter hmem)
  rw [hspan]
  exact ⟨Position.isCounted_behind _, Position.isCounted_behind _⟩

/-- The annotated listing of a source text that has code: it has one line for each instruction, in
the form given, from which the instruction is decoded with its span. The lines without their
comments are the plain listing. -/
theorem annotated_listing_decodes {source : String} {limits : Limits} {out : Output}
    {c : Compilation} (h : (compile source limits).answer out = .ok c) (hcode : c.code ≠ []) :
    ∃ annotated plain, (compileToListing true source limits).answer out = .ok annotated ∧
      (compileToListing false source limits).answer out = .ok plain ∧
      List.splitOn '\n' annotated.toList = c.code.map (fun i => i.annotatedForm.toList) ∧
      (List.splitOn '\n' annotated.toList).mapM Instruction.ofAnnotated? = some c.code ∧
      ['\n'].intercalate ((List.splitOn '\n' annotated.toList).map Instruction.withoutComment) =
        plain.toList ∧
      plain = "\n".intercalate (c.code.map Instruction.text) := by
  have hannotated := Pipeline.answer_map (compile source limits) (fun c => listing true c.code) out
  have hplain := Pipeline.answer_map (compile source limits) (fun c => listing false c.code) out
  rw [h] at hannotated hplain
  obtain ⟨parsed, hparse, htree, houtcome, hc⟩ := exists_parse_of_answer_compile h
  have hwords : ∀ i ∈ c.code, i.IsPlain := hc ▸ Expr.isPlain_of_mem_code houtcome
  have hspans : ∀ i ∈ c.code, i.span.IsCounted := hc ▸ htree ▸ isCounted_of_mem_code hparse
  have hsplit := splitOn_listing_true hcode hwords hspans
  refine ⟨listing true c.code, listing false c.code, hannotated, hplain, ?_, ?_, ?_, rfl⟩
  · rw [hsplit]
    apply List.map_congr_left
    intro i hi
    rw [Instruction.annotated_eq_form (hspans i hi)]
  · have hdecode : ∀ i ∈ c.code, Instruction.ofAnnotated? i.annotated.toList = some (id i) :=
      fun i hi => Instruction.ofAnnotated?_annotated (hwords i hi) (hspans i hi)
    rw [hsplit, mapM_map_eq_some hdecode, List.map_id]
  · have hstrip : ∀ i ∈ c.code, Instruction.withoutComment i.annotated.toList = i.text.toList :=
      fun i hi => Instruction.withoutComment_annotated (hwords i hi) (hspans i hi)
    rw [hsplit, List.map_map, listing, String.toList_intercalate, listingLines, List.map_map]
    exact congrArg _ (List.map_congr_left hstrip)

/-- A difference and a quotient, whose signs also separate the fields of a span or look like it. -/
theorem annotated_listing_decodes_of_two_lines :
    ∃ c annotated, (compile "12 -\n (7/3)" {}).answer {} = .ok c ∧ c.code ≠ [] ∧
      (compileToListing true "12 -\n (7/3)" {}).answer {} = .ok annotated ∧
      annotated = "t0 = 7 / 3  # 2:4-2:5\nt1 = 12 - t0  # 1:4-1:5" ∧
      (List.splitOn '\n' annotated.toList).mapM Instruction.ofAnnotated? = some c.code := by
  obtain ⟨c, hcompile, hcode⟩ :
      ∃ c, (compile "12 -\n (7/3)" {}).answer {} = .ok c ∧ c.code ≠ [] := ⟨_, by cbv, by simp⟩
  obtain ⟨annotated, plain, hannotated, -, -, hdecode, -⟩ :=
    annotated_listing_decodes hcompile hcode
  have htext : (compileToListing true "12 -\n (7/3)" {}).answer {} =
      .ok "t0 = 7 / 3  # 2:4-2:5\nt1 = 12 - t0  # 1:4-1:5" := by cbv
  obtain rfl := Except.ok.inj (hannotated.symm.trans htext)
  exact ⟨c, _, hcompile, hcode, hannotated, rfl, hdecode⟩

end ThreeAddress
