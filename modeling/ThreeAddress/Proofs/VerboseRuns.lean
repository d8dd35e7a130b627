import Mathlib
import ThreeAddress.Proofs.JournalTrace
import ThreeAddress.Proofs.ListingDecoding

/-!
# What a timed run prints

A run prints nothing unless it is verbose, and nothing if its source text is rejected. A verbose run
prints an instruction when it is emitted, in the middle of the evaluation. So if a division by zero
stops the evaluation, the lines printed are those of the instructions that a list would have
received by then. Behind the code of a run with a value follow the value and the report of the
statistics. The plain listing can be read off the printed text (`printedListing_of_plain`).
-/

namespace ThreeAddress

/-- Lines as one text, each ended by a line feed. -/
def linesText (lines : List String) : String :=
  String.join (lines.map (· ++ "\n"))

/-- The line that a verbose run prints for an instruction. -/
def Instruction.printedLine (i : Instruction) : String :=
  "  " ++ i.text

/-- What a verbose run prints of its code. -/
def codeText (code : List Instruction) : String :=
  linesText ("═══ IR ═══" :: code.map Instruction.printedLine)

/-- The plain listing of the code that a verbose run has printed: the lines behind the first one up
to the first that is empty, each without the two blanks in front. -/
def printedListing (text : String) : List Char :=
  ['\n'].intercalate
    (((List.splitOn '\n' text.toList).tail.takeWhile (· ≠ [])).map (List.drop 2))

/-- In `Prints source limits verbose answer text` a timed run gives the answer and prints the
text. -/
inductive Prints (source : String) (limits : Limits) :
    Bool → Except Fault (Compilation × Statistics) → String → Prop where
  | quiet {answer : Except Fault (Compilation × Statistics)} : Prints source limits false answer ""
  | rejected {verbose : Bool} {d : Diagnostic} (hparse : parse source limits = .error d) :
      Prints source limits verbose (.error (.diagnostic d)) ""
  | divided {parsed : Parsed} {span : Span} {code : List Instruction}
      (hparse : parse source limits = .ok parsed)
      (hcode : parsed.tree.toTree.collect = .error (.divisionByZero span) code) :
      Prints source limits true (.error (.divisionByZero span)) (codeText code)
  | finished {parsed : Parsed} {value : Int} {code : List Instruction} {s : Statistics}
      (hparse : parse source limits = .ok parsed)
      (hcode : parsed.tree.toTree.collect = .ok value code) :
      Prints source limits true (.ok (⟨value, code, parsed.tree⟩, s))
        (codeText code ++ linesText ["", "═══ Result ═══", "  " ++ Text.valueText value, ""] ++
          s.report ++ "\n")

lemma linesText_append (lines more : List String) :
    linesText (lines ++ more) = linesText lines ++ linesText more := by
  rw [linesText, List.map_append, String.join_append]
  rfl

lemma linesText_cons (line : String) (lines : List String) :
    linesText (line :: lines) = line ++ "\n" ++ linesText lines := by
  rw [linesText, List.map_cons, String.join_cons]
  rfl

/-- Line feeds end the lines of a text that is printed and separate those of a text that is not. -/
lemma linesText_eq_intercalate {lines : List String} (h : lines ≠ []) :
    linesText lines = "\n".intercalate lines ++ "\n" := by
  induction lines with
  | nil => exact absurd rfl h
  | cons line lines ih =>
    rw [linesText_cons]
    by_cases hlines : lines = []
    · rw [hlines, String.intercalate_singleton]
      exact String.append_empty
    · rw [ih hlines, String.intercalate_cons_of_ne_nil hlines, ← String.append_assoc]

lemma linesText_resultLines (value : Int) (s : Statistics) :
    linesText (resultLines value s) =
      linesText ["", "═══ Result ═══", "  " ++ Text.valueText value, ""] ++ s.report ++ "\n" := by
  have hreport : linesText s.reportLines = s.report ++ "\n" :=
    linesText_eq_intercalate (List.cons_ne_nil _ _)
  rw [resultLines, linesText_append, hreport, String.append_assoc]

namespace Output

lemma printedText_record (out : Output) (event : Event) :
    (out.record event).printedText = out.printedText :=
  rfl

lemma printedText_print (out : Output) (line : String) :
    (out.print line).printedText = out.printedText ++ linesText [line] := by
  unfold printedText print
  rw [Array.toList_push]
  exact linesText_append _ _

lemma printedText_printLines (out : Output) (lines : List String) :
    (out.printLines true lines).printedText = out.printedText ++ linesText lines := by
  unfold printLines
  rw [if_pos rfl]
  induction lines generalizing out with
  | nil => exact String.append_empty.symm
  | cons line lines ih =>
    rw [List.foldl_cons, ih, printedText_print, String.append_assoc, ← linesText_append,
      List.singleton_append]

/-- An instruction is printed when it is emitted, so a fold over code that was cut short has printed
the lines of just that code. -/
lemma printedText_foldl_emit (code : List Instruction) (out : Output) :
    (code.foldl (emit true) out).printedText =
      out.printedText ++ linesText (code.map Instruction.printedLine) := by
  induction code generalizing out with
  | nil => exact String.append_empty.symm
  | cons i code ih =>
    have hfirst : (out.emit true i).printedText = out.printedText ++ linesText [i.printedLine] :=
      printedText_print _ _
    rw [List.foldl_cons, ih, hfirst, String.append_assoc, ← linesText_append,
      List.singleton_append, List.map_cons]

lemma printedText_foldl_emit_false (code : List Instruction) (out : Output) :
    (code.foldl (emit false) out).printedText = out.printedText := by
  induction code generalizing out with
  | nil => rfl
  | cons i code ih => exact ih (out.emit false i)

lemma printedText_evaluated (out : Output) (parsed : Parsed) :
    (out.evaluated true parsed).printedText = out.printedText ++ codeText parsed.tree.code := by
  rw [evaluated, printedText_foldl_emit, printedText_printLines, printedText_record,
    String.append_assoc, ← linesText_append]
  rfl

lemma printedText_evaluated_false (out : Output) (parsed : Parsed) :
    (out.evaluated false parsed).printedText = out.printedText :=
  printedText_foldl_emit_false _ _

lemma printedText_finished (out : Output) (parsed : Parsed) (value : Int) (s : Statistics) :
    (out.finished true parsed value s).printedText =
      out.printedText ++ (codeText parsed.tree.code ++ linesText (resultLines value s)) := by
  rw [finished, printedText_printLines, printedText_record, printedText_evaluated,
    String.append_assoc]

end Output

lemma splitOn_linesText {lines : List String} (h : ∀ line ∈ lines, '\n' ∉ line.toList)
    (rest : List Char) :
    List.splitOn '\n' ((linesText lines).toList ++ rest) =
      lines.map String.toList ++ List.splitOn '\n' rest := by
  induction lines with
  | nil => rfl
  | cons line lines ih =>
    have hline := h line List.mem_cons_self
    have hrest := ih fun line hmem => h line (List.mem_cons_of_mem _ hmem)
    have htext : (linesText (line :: lines)).toList ++ rest =
        line.toList ++ '\n' :: ((linesText lines).toList ++ rest) := by
      simp [linesText_cons]
    rw [htext, List.splitOn_append_cons_self_of_not_mem hline, hrest]
    rfl

lemma Instruction.toList_printedLine (i : Instruction) :
    i.printedLine.toList = ' ' :: ' ' :: i.text.toList := by
  simp [printedLine]

/-- Behind the code of a run with a value the text goes on with an empty line, which ends the
listing. -/
theorem printedListing_of_plain {code : List Instruction} (h : ∀ i ∈ code, i.IsPlain)
    {rest : String} (hrest : rest.toList.head? = some '\n') :
    printedListing (codeText code ++ rest) = (listing false code).toList := by
  have hnewline : ∀ line ∈ "═══ IR ═══" :: code.map Instruction.printedLine,
      '\n' ∉ line.toList := by
    intro line hline
    obtain rfl | hline := List.mem_cons.mp hline
    · decide
    · obtain ⟨i, hi, rfl⟩ := List.mem_map.mp hline
      have htext := (h i hi).newline_not_mem_text
      rw [i.toList_printedLine]
      simp [htext]
  obtain ⟨more, hmore⟩ := List.head?_eq_some_iff.mp hrest
  have hsplit : List.splitOn '\n' rest.toList = [] :: List.splitOn '\n' more := by
    rw [hmore, ← List.nil_append ('\n' :: more)]
    exact List.splitOn_append_cons_self_of_not_mem (List.not_mem_nil (a := '\n')) more
  have hnonempty : ∀ line ∈ (code.map Instruction.printedLine).map String.toList,
      decide (line ≠ []) = true := by
    intro line hline
    simp only [List.map_map, List.mem_map, Function.comp_apply] at hline
    obtain ⟨i, -, rfl⟩ := hline
    simp [i.toList_printedLine]
  have hlines : ((code.map Instruction.printedLine).map String.toList).map (List.drop 2) =
      code.map fun i => i.text.toList := by
    simp [Function.comp_def, Instruction.toList_printedLine]
  rw [printedListing, String.toList_append, codeText, splitOn_linesText hnewline, hsplit,
    List.map_cons, List.cons_append, List.tail_cons, List.takeWhile_append_of_pos hnonempty,
    List.map_append, hlines]
  simp [listing, listingLines, Function.comp_def]

lemma prints_of_parse {source : String} {limits : Limits} {parsed : Parsed}
    (h : parse source limits = .ok parsed) (clock : Clock) (out : Output) :
    ∃ text, ((runTimed source limits true clock).output out).printedText =
        out.printedText ++ text ∧
      Prints source limits true ((runTimed source limits true clock).answer out) text := by
  have hshort := short_of_parse h
  rw [Pipeline.output, Pipeline.answer, runTimed_of_parse h]
  cases houtcome : parsed.tree.outcome with
  | error span =>
    exact ⟨_, out.printedText_evaluated parsed,
      .divided h (collect_of_outcome_error hshort houtcome)⟩
  | ok value =>
    refine ⟨_, ?_, .finished h (collect_of_outcome_ok hshort houtcome)⟩
    rw [Output.printedText_finished, linesText_resultLines]
    simp only [String.append_assoc]

lemma printedText_of_quiet (source : String) (limits : Limits) (clock : Clock) (out : Output) :
    ((runTimed source limits false clock).output out).printedText = out.printedText := by
  rw [Pipeline.output]
  cases hparse : parse source limits with
  | error d => rw [runTimed_of_parse_error hparse, Output.printedText_record]
  | ok parsed =>
    rw [runTimed_of_parse hparse]
    cases parsed.tree.outcome with
    | error span => exact out.printedText_evaluated_false parsed
    | ok value => exact out.printedText_evaluated_false parsed

lemma exists_prints (source : String) (limits : Limits) (verbose : Bool) (clock : Clock)
    (out : Output) :
    ∃ text, ((runTimed source limits verbose clock).output out).printedText =
        out.printedText ++ text ∧
      Prints source limits verbose ((runTimed source limits verbose clock).answer out) text := by
  cases verbose with
  | false => exact ⟨"", by rw [printedText_of_quiet, String.append_empty], .quiet⟩
  | true =>
    cases hparse : parse source limits with
    | ok parsed => exact prints_of_parse hparse clock out
    | error d =>
      rw [Pipeline.output, Pipeline.answer, runTimed_of_parse_error hparse]
      exact ⟨"", String.append_empty.symm, .rejected hparse⟩

lemma Prints.printedListing_eq {source : String} {limits : Limits} {c : Compilation}
    {s : Statistics} {text : String} (h : Prints source limits true (.ok (c, s)) text) :
    printedListing text = (listing false c.code).toList := by
  cases h with
  | finished hparse hcode =>
    rename_i parsed value code
    have hshort := short_of_parse hparse
    cases houtcome : parsed.tree.outcome with
    | error span =>
      rw [collect_of_outcome_error hshort houtcome] at hcode
      cases hcode
    | ok result =>
      rw [collect_of_outcome_ok hshort houtcome] at hcode
      cases hcode
      have hplain := Expr.isPlain_of_mem_code houtcome
      simp only [String.append_assoc]
      exact printedListing_of_plain hplain (by simp [linesText_cons])

/-- What a timed run prints, whatever the source text, the limits, the clock and the output so far.
It is nothing if the run is not verbose or the text is rejected; the header and the instructions
that a list receives in front of a division by zero; or the header, all instructions, the value and
the report of the statistics that the run gives. From the text of a run with a value its listing can
be read. -/
theorem runTimed_prints_its_course (source : String) (limits : Limits) (verbose : Bool)
    (clock : Clock) (out : Output) :
    ∃ text, ((runTimed source limits verbose clock).output out).printedText =
        out.printedText ++ text ∧
      Prints source limits verbose ((runTimed source limits verbose clock).answer out) text ∧
      ∀ c s, verbose = true → (runTimed source limits verbose clock).answer out = .ok (c, s) →
        printedListing text = (listing false c.code).toList := by
  obtain ⟨text, htext, hprints⟩ := exists_prints source limits verbose clock out
  refine ⟨text, htext, hprints, ?_⟩
  rintro c s rfl hanswer
  rw [hanswer] at hprints
  exact hprints.printedListing_eq

end ThreeAddress
