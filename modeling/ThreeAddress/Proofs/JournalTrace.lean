import Mathlib
import ThreeAddress.Proofs.StackEvaluation
import ThreeAddress.Proofs.TokenProvenance

/-!
# What a compilation records

A compilation begins with an entry on its source text. Then comes the one entry of the reporter, if
the text is rejected, or else an entry on the tree and one for each instruction, in the order in
which they are emitted. Nothing is recorded of a division by zero, so the trace of a compilation
that ends with one is the trace of the instructions in front of it.
-/

namespace ThreeAddress

namespace Entry

def compiling (source : String) : Entry :=
  ⟨.compiler, .info, "Compiling expression (" ++ source.utf8ByteSize.repr ++ " bytes)"⟩

def parsed (tree : Expr) : Entry :=
  ⟨.parser, .debug, "Parsed tree of height " ++ tree.height.repr ++ " using " ++
    tree.operationCount.repr ++ " temporaries"⟩

def emitted (i : Instruction) : Entry :=
  ⟨.evaluator, .debug, "Emitted " ++ i.text⟩

def reported (d : Diagnostic) : Entry :=
  ⟨.reporter, .error, d.text⟩

end Entry

/-- The evaluation of a tree into a list, which keeps what it received when evaluation fails. -/
def Tree.collect (t : Tree) : EStateM.Result Fault (List Instruction) Int :=
  (t.evaluate fun i code => code ++ [i]).run []

/-- In `Records source limits answer entries` a compilation gives the answer and writes the
entries. -/
inductive Records (source : String) (limits : Limits) :
    Except Fault Compilation → List Entry → Prop where
  | rejected {d : Diagnostic} (hparse : parse source limits = .error d)
      (hcategory : d.category = .badSource) :
      Records source limits (.error (.diagnostic d)) [.compiling source, .reported d]
  | divided {parsed : Parsed} {span : Span} {code : List Instruction}
      (hparse : parse source limits = .ok parsed)
      (hcode : parsed.tree.toTree.collect = .error (.divisionByZero span) code) :
      Records source limits (.error (.divisionByZero span))
        (.compiling source :: .parsed parsed.tree :: code.map .emitted)
  | compiled {parsed : Parsed} {value : Int} {code : List Instruction}
      (hparse : parse source limits = .ok parsed)
      (hcode : parsed.tree.toTree.collect = .ok value code) :
      Records source limits (.ok ⟨value, code, parsed.tree⟩)
        (.compiling source :: .parsed parsed.tree :: code.map .emitted)

namespace Output

lemma entries_record (out : Output) (event : Event) :
    (out.record event).entries = out.entries ++ [event.entry] := by
  simp [entries, record]

lemma entries_emit (echo : Bool) (out : Output) (i : Instruction) :
    (out.emit echo i).entries = out.entries ++ [.emitted i] := by
  cases echo with
  | false => exact entries_record out (.emitted i)
  | true => exact entries_record out (.emitted i)

lemma entries_foldl_emit (echo : Bool) (code : List Instruction) (out : Output) :
    (code.foldl (emit echo) out).entries = out.entries ++ code.map .emitted := by
  induction code generalizing out with
  | nil => simp
  | cons i code ih =>
    rw [List.foldl_cons, ih, entries_emit, List.append_assoc, List.map_cons, List.singleton_append]

end Output

lemma temporaries_of_parse {source : String} {limits : Limits} {parsed : Parsed}
    (h : parse source limits = .ok parsed) : parsed.temporaries = parsed.tree.operationCount := by
  have hout := parse_outcome source limits
  rw [h] at hout
  cases hout with
  | accepted hstart hreach hend =>
    have htemporaries := (hreach.numbered (by simp [hend])).2
    rwa [Parser.ofScanner, Nat.zero_add] at htemporaries

lemma entries_compiled {source : String} {limits : Limits} {parsed : Parsed}
    (h : parse source limits = .ok parsed) (out : Output) :
    (out.compiled source parsed).entries =
      out.entries ++ .compiling source :: .parsed parsed.tree :: parsed.tree.code.map .emitted := by
  rw [Output.compiled, Output.entries_foldl_emit, Output.entries_record, Output.entries_record,
    temporaries_of_parse h]
  simp only [List.append_assoc, List.cons_append, List.nil_append]
  rfl

lemma collect_of_outcome_ok {e : Expr} {value : Int} (h : e.Short)
    (houtcome : e.outcome = .ok value) :
    e.toTree.collect = .ok value e.code := by
  rw [Tree.collect, Expr.evaluate_toTree _ h, houtcome, deliver_append_singleton, List.nil_append]

lemma collect_of_outcome_error {e : Expr} {span : Span} (h : e.Short)
    (houtcome : e.outcome = .error span) :
    e.toTree.collect = .error (.divisionByZero span) e.code := by
  rw [Tree.collect, Expr.evaluate_toTree _ h, houtcome, deliver_append_singleton, List.nil_append]

lemma exists_records (source : String) (limits : Limits) (out : Output) :
    ∃ entries, ((compile source limits).output out).entries = out.entries ++ entries ∧
      Records source limits ((compile source limits).answer out) entries := by
  cases hparse : parse source limits with
  | error d =>
    have hrun := compile_of_parse_error hparse out
    rw [Pipeline.output, Pipeline.answer, hrun]
    refine ⟨_, ?_, .rejected hparse (category_of_parse_error hparse)⟩
    rw [Output.entries_record, Output.entries_record, List.append_assoc]
    rfl
  | ok parsed =>
    have hrun := compile_of_parse hparse out
    have hshort := short_of_parse hparse
    have hentries := entries_compiled hparse out
    rw [Pipeline.output, Pipeline.answer, hrun]
    cases houtcome : parsed.tree.outcome with
    | ok value => exact ⟨_, hentries, .compiled hparse (collect_of_outcome_ok hshort houtcome)⟩
    | error span =>
      exact ⟨_, hentries, .divided hparse (collect_of_outcome_error hshort houtcome)⟩

lemma level_ne_error {source : String} {tree : Expr} {code : List Instruction} {entry : Entry}
    (h : entry ∈ Entry.compiling source :: .parsed tree :: code.map .emitted) :
    entry.level ≠ .error := by
  simp only [List.mem_cons, List.mem_map] at h
  obtain rfl | rfl | ⟨i, -, rfl⟩ := h
  · simp [Entry.compiling]
  · simp [Entry.parsed]
  · simp [Entry.emitted]

lemma errors_of_level_ne_error {answer : Except Fault Compilation} {entries : List Entry}
    (hentries : ∀ entry ∈ entries, entry.level ≠ .error)
    (hanswer : ∀ d, answer = .error (.diagnostic d) → d.category ≠ .badSource) :
    ((∃ entry ∈ entries, entry.level = .error) ↔
      ∃ d, answer = .error (.diagnostic d) ∧ d.category = .badSource) ∧
    entries.countP (·.level = .error) ≤ 1 := by
  refine ⟨⟨?_, ?_⟩, ?_⟩
  · rintro ⟨entry, hmem, hlevel⟩
    exact absurd hlevel (hentries entry hmem)
  · rintro ⟨d, hd, hcategory⟩
    exact absurd hcategory (hanswer d hd)
  · rw [List.countP_eq_zero.mpr (by simpa using hentries)]
    exact Nat.zero_le _

theorem Records.errors {source : String} {limits : Limits} {answer : Except Fault Compilation}
    {entries : List Entry} (h : Records source limits answer entries) :
    ((∃ entry ∈ entries, entry.level = .error) ↔
      ∃ d, answer = .error (.diagnostic d) ∧ d.category = .badSource) ∧
    entries.countP (·.level = .error) ≤ 1 := by
  cases h with
  | @rejected d hparse hcategory =>
    refine ⟨⟨fun _ => ⟨d, rfl, hcategory⟩, fun _ => ⟨.reported d, by simp, rfl⟩⟩, ?_⟩
    simp [Entry.compiling, Entry.reported]
  | divided hparse hcode =>
    refine errors_of_level_ne_error (fun _ => level_ne_error) ?_
    rintro d hd
    cases hd
    simp
  | compiled hparse hcode =>
    refine errors_of_level_ne_error (fun _ => level_ne_error) ?_
    rintro d hd
    cases hd

/-- A compilation adds to the journal exactly the entries of its course: rejected, divided by zero
or compiled. So there is an error among them if and only if the source text is rejected, and never
a second one. -/
theorem compile_records_its_course (source : String) (limits : Limits) (out : Output) :
    ∃ entries, ((compile source limits).output out).entries = out.entries ++ entries ∧
      Records source limits ((compile source limits).answer out) entries ∧
      ((∃ entry ∈ entries, entry.level = .error) ↔
        ∃ d, (compile source limits).answer out = .error (.diagnostic d) ∧
          d.category = .badSource) ∧
      entries.countP (·.level = .error) ≤ 1 := by
  obtain ⟨entries, hentries, hrecords⟩ := exists_records source limits out
  exact ⟨entries, hentries, hrecords, hrecords.errors⟩

end ThreeAddress
