import Mathlib
import ThreeAddress.Proofs.ScannerRuns
import ThreeAddress.Proofs.ViablePrefix

/-!
# The count of open parentheses

A parser that is called again goes on counting where the last call left off, also when that call
failed and left parentheses open. What a call adds to the count is the balance of the tokens that it
moved past. A token counts as moved past once the next one has been read, so a lexical failure
behind a parenthesis leaves the parenthesis uncounted.

Along a run the balance is the number of groups on the stack, which is why it is never negative and
why it is zero when an expression is complete.
-/

open ThreeAddress.Parser

namespace ThreeAddress

/-- In `s.MovesPast tokens s'` the scanner moves on from `s` to `s'`, past one token after another
and without a failure. -/
inductive Scanner.MovesPast : Scanner → List Token → Scanner → Prop where
  | refl (s : Scanner) : MovesPast s [] s
  | head {s s₁ s' : Scanner} {token : Token} {rest : List Token}
      (h : s.advance = .ok token s₁) (hrest : MovesPast s₁ rest s') :
      MovesPast s (s.current :: rest) s'

namespace Scanner.MovesPast

variable {s s₁ s' : Scanner} {first rest : List Token}

lemma trans (h : s.MovesPast first s₁) (hrest : s₁.MovesPast rest s') :
    s.MovesPast (first ++ rest) s' := by
  induction h with
  | refl s => exact hrest
  | head hadvance _ ih => exact .head hadvance (ih hrest)

lemma single {token : Token} (h : s.advance = .ok token s') : s.MovesPast [s.current] s' :=
  .head h (.refl s')

end Scanner.MovesPast

/-- How many parentheses the tokens open beyond those that they close. -/
def openBalance (tokens : List Token) : Int :=
  tokens.countP (·.kind = .opening) - tokens.countP (·.kind = .closing)

lemma openBalance_append (tokens more : List Token) :
    openBalance (tokens ++ more) = openBalance tokens + openBalance more := by
  unfold openBalance
  rw [List.countP_append, List.countP_append]
  omega

lemma openBalance_of_opening {token : Token} (hkind : token.kind = .opening) :
    openBalance [token] = 1 := by
  simp [openBalance, hkind]

lemma openBalance_of_closing {token : Token} (hkind : token.kind = .closing) :
    openBalance [token] = -1 := by
  simp [openBalance, hkind]

lemma openBalance_of_isContent {token : Token} (hopening : token.kind ≠ .opening)
    (hclosing : token.kind ≠ .closing) : openBalance [token] = 0 := by
  simp [openBalance, hopening, hclosing]

namespace Parser

variable {task task' : Task} {p p' : Parser} {taken : List Token}

lemma Proceeds.movesPast (h : Proceeds task p taken task' p') :
    p.scanner.MovesPast taken p'.scanner := by
  cases h with
  | take htakes hadvance hdepth => exact .single hadvance
  | join hlook hheight => exact .refl _

theorem Reaches.movesPast (h : Reaches task p taken task' p') :
    p.scanner.MovesPast taken p'.scanner := by
  induction h with
  | refl task p => exact .refl _
  | head hstep _ ih => exact hstep.movesPast.trans ih

/-- A run past a token stands in front of it at some time and then takes it. -/
theorem Reaches.exists_take {before after : List Token} {k : Token}
    (h : Reaches task p (before ++ k :: after) task' p') :
    ∃ task₁ task₂ p₁ p₂, Reaches task p before task₁ p₁ ∧ p₁.scanner.current = k ∧
      Proceeds task₁ p₁ [k] task₂ p₂ ∧ Reaches task₂ p₂ after task' p' := by
  generalize htaken : before ++ k :: after = taken at h
  induction h generalizing before with
  | refl task p => simp at htaken
  | head hstep hrest ih =>
    cases hstep with
    | join hlook hheight =>
      obtain ⟨task₁, task₂, p₁, p₂, hreach, hcurrent, htake, hafter⟩ := ih htaken
      exact ⟨task₁, task₂, p₁, p₂, .head (.join hlook hheight) hreach, hcurrent, htake, hafter⟩
    | take htakes hadvance hdepth =>
      rw [List.singleton_append] at htaken
      cases before with
      | nil =>
        obtain ⟨rfl, rfl⟩ := List.cons.inj htaken
        exact ⟨_, _, _, _, .refl _ _, rfl, .take htakes hadvance hdepth, hrest⟩
      | cons first before =>
        obtain ⟨rfl, htail⟩ := List.cons.inj htaken
        obtain ⟨task₁, task₂, p₁, p₂, hreach, hcurrent, htake, hafter⟩ := ih htail
        exact ⟨task₁, task₂, p₁, p₂, .head (.take htakes hadvance hdepth) hreach, hcurrent, htake,
          hafter⟩

lemma Takes.openGroups_eq {token : Token} (h : Takes task token task') :
    (openGroups task'.stack : Int) = openGroups task.stack + openBalance [token] := by
  cases h with
  | literal hkind =>
    rw [openBalance_of_isContent (by simp [hkind]) (by simp [hkind]), Int.add_zero]
  | opening hkind =>
    rw [openBalance_of_opening hkind]
    rfl
  | operator hkind hfits =>
    rw [openBalance_of_isContent (by simp [hkind]) (by simp [hkind]), Int.add_zero]
    rfl
  | closing hkind =>
    rw [openBalance_of_closing hkind]
    simp only [openGroups]
    omega

lemma Proceeds.openGroups_eq (h : Proceeds task p taken task' p') :
    (openGroups task'.stack : Int) = openGroups task.stack + openBalance taken := by
  cases h with
  | take htakes hadvance hdepth => exact htakes.openGroups_eq
  | join hlook hheight => exact (Int.add_zero _).symm

/-- A parenthesis that is closed has been counted, so the count does go down by one. -/
lemma Proceeds.depth_eq (h : Proceeds task p taken task' p')
    (hle : openGroups task.stack ≤ p.depth) : (p'.depth : Int) = p.depth + openBalance taken := by
  cases h with
  | join hlook hheight => exact (Int.add_zero _).symm
  | take htakes hadvance hdepth =>
    cases htakes with
    | literal hkind | operator hkind hfits =>
      rw [openBalance_of_isContent (by simp [hkind]) (by simp [hkind]), hkind, Int.add_zero]
      rfl
    | opening hkind =>
      rw [openBalance_of_opening hkind, hkind]
      rfl
    | closing hkind =>
      rw [openBalance_of_closing hkind, hkind]
      simp only [openGroups] at hle
      simp only [TokenKind.depthAfter]
      omega

theorem Reaches.depth_eq (h : Reaches task p taken task' p')
    (hle : openGroups task.stack ≤ p.depth) :
    (p'.depth : Int) = p.depth + openBalance taken ∧
      (openGroups task'.stack : Int) = openGroups task.stack + openBalance taken := by
  induction h with
  | refl task p => simp [openBalance]
  | head hstep _ ih =>
    have hdepth := hstep.depth_eq hle
    have hgroups := hstep.openGroups_eq
    -- Groups and count change alike, so the count stays at least the number of groups.
    obtain ⟨hdepth', hgroups'⟩ := ih (by omega)
    rw [openBalance_append]
    omega

/-- Behind the start of a call the balance is the number of groups on the stack. -/
lemma Reaches.depth_of_start (h : Reaches ⟨[], .operand⟩ p taken task' p') :
    (p'.depth : Int) = p.depth + openBalance taken ∧
      openBalance taken = openGroups task'.stack := by
  obtain ⟨hdepth, hgroups⟩ := h.depth_eq (Nat.zero_le _)
  refine ⟨hdepth, ?_⟩
  rw [hgroups]
  exact (Int.zero_add _).symm

/-- A run goes past a parenthesis only if the limit admits it. -/
theorem Reaches.balance_le {before after : List Token} {k : Token}
    (h : Reaches ⟨[], .operand⟩ p (before ++ k :: after) task' p') (hkind : k.kind = .opening) :
    p.depth + openBalance (before ++ [k]) ≤ p.limits.nesting := by
  obtain ⟨task₁, task₂, p₁, p₂, hreach, hcurrent, htake, -⟩ := h.exists_take
  have hdepth := hreach.depth_of_start.1
  have hlimits := hreach.continues.limits
  rw [openBalance_append, openBalance_of_opening hkind]
  cases htake with
  | take htakes hadvance hwithin =>
    have hle := hwithin hkind
    rw [hlimits] at hle
    omega

inductive Call where
  | expression
  | parse
deriving DecidableEq, Repr

def call (p : Parser) : Call → EStateM.Result Diagnostic Parser Expr
  | .expression => p.expression
  | .parse => p.parse

/-- The parser as a call leaves it, with a result or with a failure. -/
def leftBy : EStateM.Result Diagnostic Parser Expr → Parser
  | .ok _ q => q
  | .error _ q => q

inductive CallOutcome (p : Parser) : EStateM.Result Diagnostic Parser Expr → Prop where
  | read {taken : List Token} {e : Expr} {q : Parser}
      (hreach : Reaches ⟨[], .operand⟩ p taken ⟨[], .complete e⟩ q) : CallOutcome p (.ok e q)
  | trailing {taken : List Token} {e : Expr} {q : Parser}
      (hreach : Reaches ⟨[], .operand⟩ p taken ⟨[], .complete e⟩ q) :
      CallOutcome p
        (.error (Issue.fileUnder ⟨.trailingToken, q.scanner.current.span⟩ q.category) q)
  | failed {taken : List Token} {task : Task} {q q' : Parser} {d : Diagnostic}
      (hreach : Reaches ⟨[], .operand⟩ p taken task q) (hfails : Fails task q d q') :
      CallOutcome p (.error d q')

lemma expression_outcome (p : Parser) : CallOutcome p p.expression := by
  rw [expression]
  obtain ⟨taken, e, q, hrun, hreach, -⟩ | ⟨taken, task, q, d, q', hrun, hreach, hfails⟩ :=
    run_outcome ⟨[], .operand⟩ p
  · rw [hrun]
    exact .read hreach
  · rw [hrun]
    exact .failed hreach hfails

lemma parse_outcome_of_expression {p : Parser} (h : CallOutcome p p.expression) :
    CallOutcome p p.parse := by
  unfold Parser.parse
  generalize p.expression = result at h
  cases h with
  | failed hreach hfails => exact .failed hreach hfails
  | trailing hreach => exact .trailing hreach
  | read hreach =>
    dsimp only
    split
    · exact .read hreach
    · exact .trailing hreach

theorem call_outcome (p : Parser) (call : Call) : CallOutcome p (p.call call) := by
  cases call with
  | expression => exact p.expression_outcome
  | parse => exact parse_outcome_of_expression p.expression_outcome

/-- What a call that moved past the tokens in `taken` does to the count of open parentheses. The
scanner may have failed behind the last of these tokens. -/
structure CountsOpen (p : Parser) (result : EStateM.Result Diagnostic Parser Expr)
    (taken : List Token) : Prop where
  moved : ∃ s, p.scanner.MovesPast taken s ∧
    ((leftBy result).scanner = s ∨ ∃ d, s.advance = .error d (leftBy result).scanner)
  depth_eq : ((leftBy result).depth : Int) = p.depth + openBalance taken
  balance_nonneg : 0 ≤ openBalance taken
  balance_of_ok : ∀ e q, result = .ok e q → openBalance taken = 0
  tooDeep_iff : ∀ span category,
    (∃ q, result = .error ⟨⟨.nestedTooDeeply, span⟩, category⟩ q) ↔
      ∃ before k after, taken = before ++ k :: after ∧ k.kind = .opening ∧
        p.limits.nesting < p.depth + openBalance (before ++ [k]) ∧
        span = k.span ∧ category = p.category

/-- A call that does not fail for the limit has stayed within it. -/
lemma countsOpen_of_reaches {result : EStateM.Result Diagnostic Parser Expr} {task : Task}
    {q : Parser} (hreach : Reaches ⟨[], .operand⟩ p taken task q)
    (hscanner : (leftBy result).scanner = q.scanner ∨
      ∃ d, q.scanner.advance = .error d (leftBy result).scanner)
    (hdepth : (leftBy result).depth = q.depth)
    (hok : ∀ e q', result = .ok e q' → task.stack = [])
    (hcause : ∀ d q', result = .error d q' → d.cause ≠ .nestedTooDeeply) :
    CountsOpen p result taken := by
  obtain ⟨hdepthEq, hbalance⟩ := hreach.depth_of_start
  refine ⟨⟨q.scanner, hreach.movesPast, hscanner⟩, ?_, ?_, ?_, ?_⟩
  · rw [hdepth, hdepthEq]
  · rw [hbalance]
    exact Int.natCast_nonneg _
  · intro e q' hresult
    rw [hbalance, hok e q' hresult]
    rfl
  · intro span category
    constructor
    · rintro ⟨q', hresult⟩
      exact absurd rfl (hcause _ q' hresult)
    · rintro ⟨before, k, after, rfl, hkind, hlt, -⟩
      have hle := hreach.balance_le hkind
      omega

lemma countsOpen_of_tooDeep {stack : List Frame} {q : Parser} {s : Scanner}
    (hreach : Reaches ⟨[], .operand⟩ p taken ⟨stack, .operand⟩ q)
    (hkind : q.scanner.current.kind = .opening) (hadvance : q.scanner.advance = .ok s.current s)
    (hdeep : q.limits.nesting < (q.depth + 1 : Int)) :
    CountsOpen p
      (.error (Issue.fileUnder ⟨.nestedTooDeeply, q.scanner.current.span⟩ q.category)
        { q with scanner := s, depth := q.depth + 1 })
      (taken ++ [q.scanner.current]) := by
  obtain ⟨hdepth, hbalance⟩ := hreach.depth_of_start
  have hopening := openBalance_of_opening hkind
  have hsum := openBalance_append taken [q.scanner.current]
  rw [hreach.continues.limits] at hdeep
  refine ⟨⟨s, hreach.movesPast.trans (.single hadvance), .inl rfl⟩, ?_, ?_, ?_, ?_⟩
  · simp only [leftBy]
    omega
  · omega
  · intro e q' hresult
    cases hresult
  · intro span category
    constructor
    · rintro ⟨q', hresult⟩
      cases hresult
      exact ⟨taken, _, [], rfl, hkind, by omega, rfl, hreach.continues.category⟩
    · rintro ⟨before, k, after, htaken, hopens, hlt, rfl, rfl⟩
      obtain rfl | ⟨last, rest, rfl⟩ := after.eq_nil_or_concat'
      · obtain ⟨rfl, hlast⟩ := List.append_inj' htaken rfl
        obtain rfl := List.singleton_inj.mp hlast
        rw [← hreach.continues.category]
        exact ⟨_, rfl⟩
      · rw [← List.cons_append, ← List.append_assoc] at htaken
        obtain ⟨rfl, -⟩ := List.append_inj' htaken rfl
        have hle := hreach.balance_le hopens
        omega

theorem CallOutcome.exists_countsOpen {result : EStateM.Result Diagnostic Parser Expr}
    (h : CallOutcome p result) : ∃ taken, CountsOpen p result taken := by
  cases h with
  | read hreach =>
    exact ⟨_, countsOpen_of_reaches hreach (.inl rfl) rfl (fun _ _ _ => rfl)
      (fun _ _ hresult => by cases hresult)⟩
  | trailing hreach =>
    refine ⟨_, countsOpen_of_reaches hreach (.inl rfl) rfl (fun _ _ hresult => by cases hresult) ?_⟩
    intro d q' hresult
    cases hresult
    simp [Issue.fileUnder]
  | failed hreach hfails =>
    cases hfails with
    | nestedTooDeeply hkind hadvance hdeep =>
      exact ⟨_, countsOpen_of_tooDeep hreach hkind hadvance hdeep⟩
    | lexical htakes hadvance =>
      refine ⟨_, countsOpen_of_reaches hreach (.inr ⟨_, hadvance⟩) rfl
        (fun _ _ hresult => by cases hresult) ?_⟩
      rintro d q' hresult
      cases hresult
      obtain ⟨issue, cursor, hnext, rfl, -⟩ := Scanner.advance_eq_error hadvance
      have hlexical := Cursor.isLexical_of_next hnext
      intro hcause
      rw [show issue.cause = .nestedTooDeeply from hcause] at hlexical
      cases hlexical
    | operandExpected hnot | closingExpected hnot | expressionTooLong hlook hheight =>
      refine ⟨_, countsOpen_of_reaches hreach (.inl rfl) rfl
        (fun _ _ hresult => by cases hresult) ?_⟩
      rintro d q' hresult
      cases hresult
      simp [Issue.fileUnder]

/-- The count before the first of the calls and after each of them. -/
def depths : List Call → Parser → List Nat
  | [], p => [p.depth]
  | call :: calls, p => p.depth :: depths calls (leftBy (p.call call))

lemma depth_le_of_call (p : Parser) (call : Call) : p.depth ≤ (leftBy (p.call call)).depth := by
  obtain ⟨taken, hcounts⟩ := (p.call_outcome call).exists_countsOpen
  have hdepth := hcounts.depth_eq
  have hbalance := hcounts.balance_nonneg
  omega

lemma isChain_depths (calls : List Call) (p : Parser) : (p.depths calls).IsChain (· ≤ ·) := by
  induction calls generalizing p with
  | nil => exact .singleton _
  | cons call calls ih =>
    have hle := p.depth_le_of_call call
    have hrest := ih (leftBy (p.call call))
    cases calls with
    | nil => exact .cons_cons hle hrest
    | cons next calls => exact .cons_cons hle hrest

/-- Every call, from whatever state earlier calls have left and whether or not it succeeds, adds to
the count the balance of the tokens it moved past. The balance is never negative, and zero if the
call succeeds, so over any number of calls the count never goes down. The call fails for the limit
at a parenthesis exactly if it moved past it and the count then exceeds the limit. -/
theorem depth_counts_open_parentheses (p : Parser) :
    (∀ call, ∃ taken, CountsOpen p (p.call call) taken) ∧
      ∀ calls, (p.depths calls).Pairwise (· ≤ ·) := by
  refine ⟨fun call => (p.call_outcome call).exists_countsOpen, fun calls => ?_⟩
  exact List.isChain_iff_pairwise.mp (isChain_depths calls p)

end Parser

end ThreeAddress
