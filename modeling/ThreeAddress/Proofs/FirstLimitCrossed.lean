import Mathlib
import ThreeAddress.Proofs.ConstructionOrder

/-!
# Which limit is reported

A text that some limits accept can break both limits of a narrower kind. Two runs over the same
tokens are compared here, one that reads the whole expression and one that a limit cuts off. The run
that is cut off has gone past no parenthesis that is too deep and has built no operation that is too
high, so what stops it is the first of either kind, and of the two the one that it comes to first.
An operation is built when its right operand has been taken, a parenthesis is counted when it is
taken itself.
-/

open ThreeAddress.Parser

namespace ThreeAddress

/-- The parenthesis `k` stands behind the tokens in `before` and is nested beyond the limit. -/
structure TooDeep (limit : Int) (tokens before : List Token) (k : Token) : Prop where
  stands : before ++ [k] <+: tokens
  opening : k.kind = .opening
  deep : limit < openBalance (before ++ [k])

structure FirstTooDeep (limit : Int) (tokens before : List Token) (k : Token) : Prop
    extends TooDeep limit tokens before k where
  first : ∀ before' k', TooDeep limit tokens before' k' → before.length ≤ before'.length

/-- The first operation of the tree, operands before operations, that is higher than the limit. -/
def FirstTooHigh (limit : Int) (tree node : Expr) : Prop :=
  tree.operations.find? (fun e => limit < e.height) = some node

section Nesting

variable {limit : Int} {tokens before before' taken : List Token} {k k' : Token}

lemma TooDeep.le (h : TooDeep limit tokens before k) : before <+: tokens :=
  (List.prefix_append before [k]).trans h.stands

lemma exists_firstTooDeep (h : TooDeep limit tokens before k) :
    ∃ before k, FirstTooDeep limit tokens before k := by
  induction hlength : before.length using Nat.strong_induction_on generalizing before k with
  | h n ih =>
    by_cases hfirst : ∀ before' k', TooDeep limit tokens before' k' → before.length ≤ before'.length
    · exact ⟨before, k, h, hfirst⟩
    · push Not at hfirst
      obtain ⟨before', k', h', hlt⟩ := hfirst
      exact ih before'.length (hlength ▸ hlt) h' rfl

lemma FirstTooDeep.unique (h : FirstTooDeep limit tokens before k)
    (h' : FirstTooDeep limit tokens before' k') : before = before' := by
  have hle := h.first before' k' h'.toTooDeep
  have hge := h'.first before k h.toTooDeep
  exact (List.prefix_of_prefix_length_le h.le h'.le hle).eq_of_length_le hge

/-- Tokens that go past no parenthesis beyond the limit stand in front of every such one. -/
lemma TooDeep.le_before (h : TooDeep limit tokens before k) (htaken : taken <+: tokens)
    (hwithin : ∀ before k, ¬TooDeep limit taken before k) : taken <+: before := by
  by_contra hnot
  have hlt : before.length < taken.length := by
    by_contra hle
    exact hnot (List.prefix_of_prefix_length_le htaken h.le (Nat.le_of_not_lt hle))
  apply hwithin before k
  refine ⟨List.prefix_of_prefix_length_le h.stands htaken ?_, h.opening, h.deep⟩
  rw [List.length_append, List.length_singleton]
  exact hlt

end Nesting

namespace Parser

/-- Two runs over the same tokens: `p` reads the whole tree, and `r` has come as far as `q`, behind
the tokens in `taken`. -/
structure TwoRuns (tokens : List Token) (tree : Expr) (p p' : Parser) (taken : List Token)
    (task : Task) (r q : Parser) : Prop where
  whole : Reaches ⟨[], .operand⟩ p tokens ⟨[], .complete tree⟩ p'
  ends : p'.scanner.current.kind = .endOfInput
  part : Reaches ⟨[], .operand⟩ r taken task q
  same : configuration ⟨[], .operand⟩ r = configuration ⟨[], .operand⟩ p
  depth : r.depth = 0

namespace TwoRuns

variable {tokens taken : List Token} {tree : Expr} {task : Task} {p p' r q : Parser}

/-- From where the second run stands, moves lead on to the whole tree. -/
lemma moves (h : TwoRuns tokens tree p p' taken task r q) :
    Moves (configuration task q) (configuration ⟨[], .complete tree⟩ p') := by
  have hpart := h.part.moves
  rw [h.same] at hpart
  exact moves_of_stuck hpart h.whole.moves (not_move_of_complete (by simp [h.ends]))

lemma ahead_eq (h : TwoRuns tokens tree p p' taken task r q) :
    tokens ++ [p'.scanner.current] = taken ++ q.scanner.ahead := by
  have hend : p'.scanner.current.isEnd = true := by simp [Token.isEnd, h.ends]
  have hsame : r.scanner.ahead = p.scanner.ahead := congrArg Configuration.ahead h.same
  rw [← (Scanner.ahead_of_isEnd hend).1, ← h.whole.continues.ahead, ← hsame]
  exact h.part.continues.ahead

lemma taken_le (h : TwoRuns tokens tree p p' taken task r q) : taken <+: tokens := by
  have hahead := h.ahead_eq
  have hle : taken <+: tokens ++ [p'.scanner.current] := ⟨q.scanner.ahead, hahead.symm⟩
  obtain heq | hle := List.prefix_concat_iff.mp hle
  · have hlength := congrArg List.length hahead
    simp [heq, Scanner.ahead] at hlength
  · exact hle

/-- The second run stands in front of a token of the expression, if not at its end. -/
lemma current_le (h : TwoRuns tokens tree p p' taken task r q)
    (hcurrent : q.scanner.current.kind ≠ .endOfInput) :
    taken ++ [q.scanner.current] <+: tokens := by
  have hle : taken ++ [q.scanner.current] <+: tokens ++ [p'.scanner.current] :=
    ⟨q.scanner.following.1, by rw [h.ahead_eq]; simp [Scanner.ahead]⟩
  obtain heq | hle := List.prefix_concat_iff.mp hle
  · obtain ⟨-, hlast⟩ := List.append_inj' heq rfl
    rw [List.singleton_inj.mp hlast] at hcurrent
    exact absurd h.ends hcurrent
  · exact hle

lemma not_tooDeep (h : TwoRuns tokens tree p p' taken task r q) (before : List Token) (k : Token) :
    ¬TooDeep r.limits.nesting taken before k := by
  rintro ⟨⟨after, hstands⟩, hopening, hdeep⟩
  rw [List.append_assoc, List.singleton_append] at hstands
  have hle := (hstands ▸ h.part).balance_le hopening
  rw [h.depth] at hle
  omega

lemma height_le_of_mem_built (h : TwoRuns tokens tree p p' taken task r q) {e : Expr}
    (he : e ∈ task.built) : (e.height : Int) ≤ r.limits.height :=
  h.part.height_le_of_mem_built (by simp [Task.built, stackBuilt]) e he

theorem firstTooDeep {stack : List Frame}
    (h : TwoRuns tokens tree p p' taken ⟨stack, .operand⟩ r q)
    (hkind : q.scanner.current.kind = .opening) (hdeep : r.limits.nesting < (q.depth + 1 : Int)) :
    FirstTooDeep r.limits.nesting tokens taken q.scanner.current := by
  have hdepth := h.part.depth_of_start.1
  rw [h.depth] at hdepth
  refine ⟨⟨h.current_le (by simp [hkind]), hkind, ?_⟩, ?_⟩
  · rw [openBalance_append, openBalance_of_opening hkind]
    omega
  · intro before' k' htooDeep
    exact (htooDeep.le_before h.taken_le h.not_tooDeep).length_le

section Join

variable {op : Operator} {span : Span} {left right : Expr} {stack : List Frame}

theorem firstTooHigh
    (h : TwoRuns tokens tree p p' taken ⟨.operation op span left :: stack, .complete right⟩ r q)
    (hlook : q.scanner.current.kind.takesOperandFrom op = false)
    (hhigh :
      r.limits.height < ((Expr.binary op ⟨q.temporaries⟩ span left right).height : Int)) :
    FirstTooHigh r.limits.height tree (.binary op ⟨q.temporaries⟩ span left right) := by
  have hmoves := moves_of_join hlook h.moves (by simp [configuration])
  obtain ⟨later, hlater⟩ := built_le_of_moves hmoves
  rw [built_join, List.append_assoc, List.singleton_append] at hlater
  have hbuilt : Task.built ⟨[], .complete tree⟩ = tree.operations := List.nil_append _
  unfold FirstTooHigh
  rw [List.find?_eq_some_iff_append, ← hbuilt]
  refine ⟨by simpa using hhigh, _, later, hlater.symm, ?_⟩
  intro e he
  simpa using h.height_le_of_mem_built he

lemma endsAt {target : Temporary}
    (h : TwoRuns tokens tree p p' taken ⟨.operation op span left :: stack, .complete right⟩ r q) :
    EndsAt tokens (.binary op target span left right) taken := by
  obtain ⟨rest, rfl⟩ := h.taken_le
  exact h.part.holds_taken.endsAt

end Join

/-- In front of a parenthesis every operation has been built whose right operand was taken. -/
theorem mem_built_of_endsAt {stack : List Frame} {node : Expr} {upTo : List Token}
    (h : TwoRuns tokens tree p p' taken ⟨stack, .operand⟩ r q)
    (hkind : q.scanner.current.kind = .opening) (hspans : (tokens.map Token.span).Nodup)
    (hnode : node ∈ tree.operations) (hends : EndsAt tokens node upTo) (hle : upTo <+: taken) :
    node ∈ Task.built ⟨stack, .operand⟩ := by
  obtain hstart | ⟨op, span, left, right, stack', before, after, p₁, rfl, rfl, hreach, hlook⟩ :=
    h.whole.exists_join (by simpa [Task.built, stackBuilt] using hnode : node ∈ Task.built _)
  · simp [Task.built, stackBuilt] at hstart
  obtain rfl : upTo = before := hends.unique hspans hreach.holds_taken.endsAt
  have hpart := h.part.moves
  rw [h.same] at hpart
  obtain hmoves | hmoves :=
    Relation.ReflTransGen.total_of_right_unique move_rightUnique hreach.moves hpart
  · have hjoined := built_le_of_moves (moves_of_join hlook hmoves (by simp [configuration]))
    apply hjoined.subset
    rw [built_join]
    exact List.mem_append_right _ List.mem_cons_self
  · -- The second run would have to go past the parenthesis first.
    exfalso
    obtain heq | ⟨c, hmove, hrest⟩ := hmoves.cases_head
    · cases heq
    · have htake : Move (configuration ⟨stack, .operand⟩ q)
          ⟨⟨.group :: stack, .operand⟩, q.temporaries, q.scanner.following.1⟩ :=
        .take (.opening hkind)
      obtain rfl := move_rightUnique hmove htake
      have hlength := length_ahead_le_of_moves hrest
      have hbehind := congrArg List.length hreach.continues.ahead
      have hpartBehind := congrArg List.length h.part.continues.ahead
      have hsame := congrArg (fun c => c.ahead.length) h.same
      have htaken := hle.length_le
      simp only [configuration, Scanner.ahead, List.length_append, List.length_cons]
        at hlength hbehind hpartBehind hsame
      omega

end TwoRuns

end Parser

section Reported

variable {source : String} {wide limits : Limits} {parsed : Parsed} {d : Diagnostic}

/-- Runs that start on one source start alike, whatever their limits are. -/
lemma twoRuns_of_startsOn {s s' : Scanner} {tokens taken : List Token} {tree : Expr} {task : Task}
    {p q : Parser} (hstart : s.StartsOn source)
    (hreach : Reaches ⟨[], .operand⟩ (ofScanner s wide) tokens ⟨[], .complete tree⟩ p)
    (hend : p.scanner.current.kind = .endOfInput) (hstart' : s'.StartsOn source)
    (hreach' : Reaches ⟨[], .operand⟩ (ofScanner s' limits) taken task q) :
    TwoRuns tokens tree (ofScanner s wide) p taken task (ofScanner s' limits) q := by
  obtain ⟨hahead, -⟩ := Prod.mk.inj (hstart'.readAll.symm.trans hstart.readAll)
  exact ⟨hreach, hend, hreach', by simp [configuration, ofScanner, hahead], rfl⟩

lemma exists_twoRuns_of_parse (haccepted : parse source wide = .ok parsed)
    (hrejected : parse source limits = .error d) :
    ∃ tokens last p p' taken task r q, tokenize source = .ok (tokens ++ [last]) ∧
      last.kind = .endOfInput ∧ r.limits = limits ∧
      TwoRuns tokens parsed.tree p p' taken task r q ∧ CrossesLimit task q d := by
  have haccept := parse_outcome source wide
  rw [haccepted] at haccept
  cases haccept with
  | accepted hstart hreach hend =>
    rename_i s tokens tree p
    have hends : p.scanner.current.isEnd = true := by simp [Token.isEnd, hend]
    obtain ⟨hlast, hnone⟩ := Scanner.ahead_of_isEnd hends
    have hahead : s.ahead = tokens ++ p.scanner.ahead := hreach.continues.ahead
    have hissue : s.issue? = p.scanner.issue? := hreach.continues.issue?
    have htokens : tokenize source = .ok (tokens ++ [p.scanner.current]) := by
      rw [tokenize_eq_ok_iff, hstart.readAll, hahead, hissue, hlast, hnone]
    have hreject := parse_outcome source limits
    rw [hrejected] at hreject
    cases hreject with
    | unscanned hreadAll =>
      have hempty := congrArg Prod.fst (hstart.readAll.symm.trans hreadAll)
      simp [Scanner.ahead] at hempty
    | trailing hstart' hreach' hcurrent hend' =>
      have heq := eq_of_moves_of_stuck (not_move_of_complete hcurrent)
        (twoRuns_of_startsOn hstart hreach hend hstart' hreach').moves
      have hcurrentEq := congrArg (fun c => c.ahead.head?) heq
      simp only [configuration, Scanner.ahead, List.head?_cons, Option.some.injEq] at hcurrentEq
      rw [hcurrentEq] at hend'
      exact absurd hend hend'
    | failed hstart' hreach' hfails =>
      rename_i s' taken task q q'
      obtain ⟨-, hissue'⟩ := Prod.mk.inj (hstart'.readAll.symm.trans hstart.readAll)
      have htwo := twoRuns_of_startsOn hstart hreach hend hstart' hreach'
      refine ⟨tokens, _, _, p, taken, task, _, q, htokens, hend, rfl, htwo,
        hfails.crossesLimit ?_ htwo.moves⟩
      rw [← hreach'.continues.issue?]
      exact hissue'.trans (hissue.trans hnone)

/-- A text that some limits accept is refused by others for the first parenthesis that is nested too
deeply, or for the first operation that is too high. It is the operation exactly when there is one
and its right operand ends in front of every such parenthesis. -/
theorem first_limit_crossed_is_reported (haccepted : parse source wide = .ok parsed)
    (hrejected : parse source limits = .error d) :
    ∃ tokens last, tokenize source = .ok (tokens ++ [last]) ∧ last.kind = .endOfInput ∧
      d.category = .badSource ∧
      ((d.cause = .nestedTooDeeply ∧
          ∃ before k, FirstTooDeep limits.nesting tokens before k ∧ d.span = k.span) ∨
        (d.cause = .expressionTooLong ∧
          ∃ op target left right upTo,
            FirstTooHigh limits.height parsed.tree (.binary op target d.span left right) ∧
            EndsAt tokens (.binary op target d.span left right) upTo)) ∧
      (d.cause = .expressionTooLong ↔
        ∃ node, FirstTooHigh limits.height parsed.tree node ∧
          ((∀ before k, ¬TooDeep limits.nesting tokens before k) ∨
            ∃ upTo before k, EndsAt tokens node upTo ∧
              FirstTooDeep limits.nesting tokens before k ∧ upTo <+: before)) := by
  obtain ⟨tokens, last, p, p', taken, task, r, q, htokens, hlast, rfl, hruns, hcross⟩ :=
    exists_twoRuns_of_parse haccepted hrejected
  have hlimits : q.limits = r.limits := hruns.part.continues.limits
  refine ⟨tokens, last, htokens, hlast, category_of_parse_error hrejected, ?_⟩
  cases hcross with
  | nesting hkind hdeep =>
    have hfirst := hruns.firstTooDeep hkind (hlimits ▸ hdeep)
    refine ⟨.inl ⟨rfl, taken, _, hfirst, rfl⟩, fun hcause => (by cases hcause), ?_⟩
    rintro ⟨node, hhigh, hnone | ⟨upTo, before, k, hends, hfirst', hle⟩⟩
    · exact absurd hfirst.toTooDeep (hnone _ _)
    · -- The operation would have been built, and found too high, before the parenthesis.
      obtain rfl := hfirst'.unique hfirst
      have hbuilt := hruns.mem_built_of_endsAt hkind (nodup_spans_of_tokenize htokens)
        (List.mem_of_find?_eq_some hhigh) hends hle
      have hwithin := hruns.height_le_of_mem_built hbuilt
      have hbeyond := List.find?_some hhigh
      rw [decide_eq_true_eq] at hbeyond
      omega
  | height hlook hhigh =>
    have hfirst := hruns.firstTooHigh hlook (hlimits ▸ hhigh)
    refine ⟨.inr ⟨rfl, _, _, _, _, taken, hfirst, hruns.endsAt⟩, fun _ => ⟨_, hfirst, ?_⟩,
      fun _ => rfl⟩
    by_cases hdeep : ∃ before k, TooDeep r.limits.nesting tokens before k
    · obtain ⟨before, k, htooDeep⟩ := hdeep
      obtain ⟨before, k, hfirstDeep⟩ := exists_firstTooDeep htooDeep
      exact .inr ⟨taken, before, k, hruns.endsAt, hfirstDeep,
        hfirstDeep.le_before hruns.taken_le hruns.not_tooDeep⟩
    · push Not at hdeep
      exact .inl hdeep

end Reported

/-- Either text breaks both limits. The operation that is too high ends in front of the parenthesis
in the first one, and behind it in the second one. -/
theorem first_limit_crossed_is_reported_of_both_crossed :
    (∃ parsed, parse "1+2*3-((4))" {} = .ok parsed ∧
      parse "1+2*3-((4))" ⟨1, 2⟩ =
        .error ⟨⟨.expressionTooLong, ⟨1, 2⟩, ⟨1, 3⟩⟩, .badSource⟩ ∧
      ∃ tokens last node, tokenize "1+2*3-((4))" = .ok (tokens ++ [last]) ∧
        FirstTooHigh 2 parsed.tree node ∧
        ((∀ before k, ¬TooDeep 1 tokens before k) ∨
          ∃ upTo before k, EndsAt tokens node upTo ∧ FirstTooDeep 1 tokens before k ∧
            upTo <+: before)) ∧
    ∃ parsed, parse "1-2*((3))" {} = .ok parsed ∧
      parse "1-2*((3))" ⟨1, 2⟩ = .error ⟨⟨.nestedTooDeeply, ⟨1, 6⟩, ⟨1, 7⟩⟩, .badSource⟩ ∧
      ∃ tokens last before k, tokenize "1-2*((3))" = .ok (tokens ++ [last]) ∧
        FirstTooDeep 1 tokens before k ∧ ⟨⟨1, 6⟩, ⟨1, 7⟩⟩ = k.span := by
  have hhigh : parse "1+2*3-((4))" {} = .ok ⟨.binary .sub ⟨2⟩ ⟨⟨1, 6⟩, ⟨1, 7⟩⟩
      (.binary .add ⟨1⟩ ⟨⟨1, 2⟩, ⟨1, 3⟩⟩ (.literal 1 ⟨⟨1, 1⟩, ⟨1, 2⟩⟩)
        (.binary .mul ⟨0⟩ ⟨⟨1, 4⟩, ⟨1, 5⟩⟩ (.literal 2 ⟨⟨1, 3⟩, ⟨1, 4⟩⟩)
          (.literal 3 ⟨⟨1, 5⟩, ⟨1, 6⟩⟩)))
      (.literal 4 ⟨⟨1, 9⟩, ⟨1, 10⟩⟩), 12, 3⟩ := by cbv
  have hhighError : parse "1+2*3-((4))" ⟨1, 2⟩ =
      .error ⟨⟨.expressionTooLong, ⟨1, 2⟩, ⟨1, 3⟩⟩, .badSource⟩ := by cbv
  have hdeep : parse "1-2*((3))" {} = .ok ⟨.binary .sub ⟨1⟩ ⟨⟨1, 2⟩, ⟨1, 3⟩⟩
      (.literal 1 ⟨⟨1, 1⟩, ⟨1, 2⟩⟩)
      (.binary .mul ⟨0⟩ ⟨⟨1, 4⟩, ⟨1, 5⟩⟩ (.literal 2 ⟨⟨1, 3⟩, ⟨1, 4⟩⟩)
        (.literal 3 ⟨⟨1, 7⟩, ⟨1, 8⟩⟩)), 10, 2⟩ := by cbv
  have hdeepError : parse "1-2*((3))" ⟨1, 2⟩ =
      .error ⟨⟨.nestedTooDeeply, ⟨1, 6⟩, ⟨1, 7⟩⟩, .badSource⟩ := by cbv
  constructor
  · obtain ⟨tokens, last, htokens, -, -, -, hiff⟩ :=
      first_limit_crossed_is_reported hhigh hhighError
    obtain ⟨node, hnode, hplace⟩ := hiff.mp rfl
    exact ⟨_, hhigh, hhighError, tokens, last, node, htokens, hnode, hplace⟩
  · obtain ⟨tokens, last, htokens, -, -, hreported, -⟩ :=
      first_limit_crossed_is_reported hdeep hdeepError
    obtain ⟨-, before, k, hfirst, hspan⟩ | ⟨hcause, -⟩ := hreported
    · exact ⟨_, hdeep, hdeepError, tokens, last, before, k, htokens, hfirst, hspan⟩
    · cases hcause

end ThreeAddress
