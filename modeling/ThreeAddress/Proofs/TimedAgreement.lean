import ThreeAddress.Proofs.Emission
import ThreeAddress.TimedRun

/-!
# Timed runs agree with compilations

A timed run reads a clock and may print, a compilation does neither. `runTimed_of_parse` says all
that a timed run does. Without what they leave behind, both give the compilation of the parsed
expression, or fail alike, and so do the three short forms. Of the statistics only the times depend
on the clock.
-/

namespace ThreeAddress

namespace Output

/-- The output after the lines have been printed, if anything is printed at all. -/
def printLines (verbose : Bool) (out : Output) (lines : List String) : Output :=
  if verbose then lines.foldl (fun out line => out.print line) out else out

/-- The output of a timed run up to the end of the evaluation. -/
def evaluated (verbose : Bool) (out : Output) (parsed : Parsed) : Output :=
  parsed.tree.code.foldl (Output.emit verbose)
    ((out.record (.parsed parsed.tree.height parsed.temporaries)).printLines verbose
      ["═══ IR ═══"])

/-- The output of a timed run with a value. -/
def finished (verbose : Bool) (out : Output) (parsed : Parsed) (value : Int) (s : Statistics) :
    Output :=
  ((out.evaluated verbose parsed).record
    (.finished value parsed.tree.code.length s.totalTime)).printLines verbose (resultLines value s)

end Output

lemma forM_print_run (lines : List String) (out : Output) :
    (lines.forM Pipeline.print).run out =
      .ok () (lines.foldl (fun out line => out.print line) out) := by
  induction lines generalizing out with
  | nil => rfl
  | cons line lines ih =>
    rw [List.forM, EStateM.run_bind]
    exact ih (out.print line)

theorem runTimed_of_parse {source : String} {limits : Limits} {parsed : Parsed}
    (h : parse source limits = .ok parsed) (verbose : Bool) (clock : Clock) (out : Output) :
    (runTimed source limits verbose clock).run out =
      match parsed.tree.outcome with
      | .ok value =>
        .ok (⟨value, parsed.tree.code, parsed.tree⟩,
            Statistics.ofRun source parsed parsed.tree.code clock)
          (out.finished verbose parsed value
            (Statistics.ofRun source parsed parsed.tree.code clock))
      | .error span => .error (.divisionByZero span) (out.evaluated verbose parsed) := by
  have heval := Pipeline.evaluate_run (short_of_parse h) verbose
  cases verbose with
  | false =>
    simp only [runTimed, EStateM.run_bind, Pipeline.parse_run h, Bool.false_eq_true, reduceIte,
      heval]
    cases parsed.tree.outcome <;> rfl
  | true =>
    simp only [runTimed, EStateM.run_bind, Pipeline.parse_run h, reduceIte, heval, forM_print_run]
    cases parsed.tree.outcome <;> rfl

theorem runTimed_of_parse_error {source : String} {limits : Limits} {d : Diagnostic}
    (h : parse source limits = .error d) (verbose : Bool) (clock : Clock) (out : Output) :
    (runTimed source limits verbose clock).run out =
      .error (.diagnostic d) (out.record (.reported d)) := by
  simp only [runTimed, EStateM.run_bind, Pipeline.parse_run_of_error h]

/-- What a pipeline answers: its result or its fault, without what it leaves behind. -/
def Pipeline.answer {α : Type} (p : Pipeline α) (out : Output) : Except Fault α :=
  match p.run out with
  | .ok a _ => .ok a
  | .error fault _ => .error fault

/-- The compilation of an expression, or the fault of its first division by zero. -/
def Expr.compilation (e : Expr) : Except Fault Compilation :=
  match e.outcome with
  | .ok value => .ok ⟨value, e.code, e⟩
  | .error span => .error (.divisionByZero span)

/-- The statistics with the times left out. -/
def Statistics.untimed (s : Statistics) : Statistics :=
  { s with parseTime := ⟨0⟩, evaluationTime := ⟨0⟩, totalTime := ⟨0⟩ }

lemma Pipeline.answer_map {α β : Type} (p : Pipeline α) (f : α → β) (out : Output) :
    (p >>= fun a => pure (f a) : Pipeline β).answer out = (p.answer out).map f := by
  rw [answer, answer, EStateM.run_bind]
  cases p.run out <;> rfl

lemma answer_compile (source : String) (limits : Limits) (out : Output) :
    (compile source limits).answer out =
      match parse source limits with
      | .ok parsed => parsed.tree.compilation
      | .error d => .error (.diagnostic d) := by
  cases hparse : parse source limits with
  | ok parsed =>
    simp only [Pipeline.answer, compile_of_parse hparse, Expr.compilation]
    cases parsed.tree.outcome <;> rfl
  | error d => rw [Pipeline.answer, compile_of_parse_error hparse]

/-- What is known of a compilation: it belongs to an accepted text whose tree has a value. -/
lemma exists_parse_of_answer_compile {source : String} {limits : Limits} {out : Output}
    {c : Compilation} (h : (compile source limits).answer out = .ok c) :
    ∃ parsed, parse source limits = .ok parsed ∧ c.tree = parsed.tree ∧
      c.tree.outcome = .ok c.value ∧ c.code = c.tree.code := by
  rw [answer_compile] at h
  cases hparse : parse source limits with
  | error d =>
    rw [hparse] at h
    cases h
  | ok parsed =>
    simp only [hparse, Expr.compilation] at h
    cases houtcome : parsed.tree.outcome with
    | error span =>
      rw [houtcome] at h
      cases h
    | ok value =>
      rw [houtcome] at h
      cases h
      exact ⟨parsed, rfl, rfl, houtcome, rfl⟩

lemma answer_runTimed (source : String) (limits : Limits) (verbose : Bool) (clock : Clock)
    (out : Output) :
    (runTimed source limits verbose clock).answer out =
      match parse source limits with
      | .ok parsed => parsed.tree.compilation.map fun compilation =>
          (compilation, Statistics.ofRun source parsed compilation.code clock)
      | .error d => .error (.diagnostic d) := by
  cases hparse : parse source limits with
  | ok parsed =>
    simp only [Pipeline.answer, runTimed_of_parse hparse, Expr.compilation]
    cases parsed.tree.outcome <;> rfl
  | error d => rw [Pipeline.answer, runTimed_of_parse_error hparse]

lemma map_fst_answer_runTimed (source : String) (limits : Limits) (verbose : Bool) (clock : Clock)
    (out out' : Output) :
    ((runTimed source limits verbose clock).answer out).map Prod.fst =
      (compile source limits).answer out' := by
  rw [answer_runTimed, answer_compile]
  cases parse source limits with
  | error d => rfl
  | ok parsed =>
    dsimp only
    cases parsed.tree.compilation <;> rfl

/-- A timed run gives the compilation of its source text or the same fault, whatever the clock
shows and whether or not it prints, and its statistics differ from those of another run in the times
at most. The short forms give the value, the listing and the operator counts of that compilation,
or the same fault. -/
theorem runTimed_agrees_with_compile (source : String) (limits : Limits) (verbose : Bool)
    (clock : Clock) (out out' : Output) :
    ((runTimed source limits verbose clock).answer out).map Prod.fst =
      (compile source limits).answer out' ∧
    (∀ verbose' clock',
      ((runTimed source limits verbose clock).answer out).map (fun run => run.2.untimed) =
        ((runTimed source limits verbose' clock').answer out').map fun run => run.2.untimed) ∧
    (compileToValue source limits).answer out =
      ((compile source limits).answer out').map Compilation.value ∧
    (∀ annotate, (compileToListing annotate source limits).answer out =
      ((compile source limits).answer out').map fun c => listing annotate c.code) ∧
    (compileToCounts source limits).answer out =
      ((compile source limits).answer out').map fun c => operatorCounts c.code := by
  have hcompile : (compile source limits).answer out = (compile source limits).answer out' := by
    rw [answer_compile, answer_compile]
  refine ⟨map_fst_answer_runTimed source limits verbose clock out out', ?_, ?_, ?_, ?_⟩
  · intro verbose' clock'
    rw [answer_runTimed, answer_runTimed]
    cases parse source limits with
    | error d => rfl
    | ok parsed =>
      dsimp only
      cases parsed.tree.compilation <;> rfl
  · rw [← hcompile]
    exact Pipeline.answer_map _ Compilation.value out
  · intro annotate
    rw [← hcompile]
    exact Pipeline.answer_map _ (fun c : Compilation => listing annotate c.code) out
  · rw [← hcompile]
    exact Pipeline.answer_map _ (fun c : Compilation => operatorCounts c.code) out

end ThreeAddress
