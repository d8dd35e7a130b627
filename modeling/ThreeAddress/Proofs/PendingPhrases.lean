import ThreeAddress.Proofs.Reading

/-!
# What the parser holds

The tokens that a parser has moved past are exactly what its stack and its focus hold: opened
parentheses, operators with the phrase on their left, and the phrase in focus. This invariant of
the moves makes every accepted expression a reading of the tokens taken
(`Parser.Reaches.reads`), and it lets whatever was taken be completed to an expression
(`Parser.Holds.exists_completion`).
-/

open ThreeAddress.Parser

namespace ThreeAddress

namespace Parser

/-- In `StackReads stack tokens` the frames of the stack, the lowest first, are read from the
tokens. -/
inductive StackReads : List Frame → List Token → Prop where
  | nil : StackReads [] []
  | group {stack : List Frame} {tokens : List Token} {start : Token}
      (below : StackReads stack tokens) (hstart : start.kind = .opening) :
      StackReads (.group :: stack) (tokens ++ [start])
  | operation {stack : List Frame} {tokens phrase : List Token} {token : Token} {op : Operator}
      {left : Expr} (below : StackReads stack tokens) (hfits : op.rank.fits stack = true)
      (hleft : Reads op.rank phrase left) (hkind : token.kind = .operator op) :
      StackReads (.operation op token.span left :: stack) (tokens ++ (phrase ++ [token]))

/-- In `Holds task taken look` the task holds the tokens in `taken`; `look` is the token behind
them. A complete sum is not followed by an operator that binds more tightly. -/
inductive Holds : Task → List Token → Option Token → Prop where
  | operand {stack : List Frame} {below : List Token} {look : Option Token}
      (hstack : StackReads stack below) : Holds ⟨stack, .operand⟩ below look
  | complete {stack : List Frame} {below phrase : List Token} {rank : Rank} {e : Expr}
      {look : Option Token} (hstack : StackReads stack below) (hphrase : Reads rank phrase e)
      (hfits : rank.fits stack = true)
      (hlook : rank = .sum → ∀ token, look = some token → token.kind.bindsTightly = false) :
      Holds ⟨stack, .complete e⟩ (below ++ phrase) look

lemma reads_operation {op : Operator} {t : Temporary} {rank : Rank} {stack : List Frame}
    {token : Token} {phrase more : List Token} {left right : Expr}
    (hkind : token.kind = .operator op) (hleft : Reads op.rank phrase left)
    (hright : Reads rank more right)
    (hfits : rank.fits (.operation op token.span left :: stack) = true) :
    Reads op.rank (phrase ++ token :: more) (.binary op t token.span left right) := by
  cases htight : op.bindsTightly with
  | true =>
    simp only [Operator.rank, htight, if_true] at hleft ⊢
    cases rank with
    | operand => exact .extendProduct hkind (Operator.bindsTightly_iff.mp htight) hleft hright
    | product => simp [Rank.fits, htight] at hfits
    | sum => simp [Rank.fits] at hfits
  | false =>
    simp only [Operator.rank, htight, Bool.false_eq_true, if_false] at hleft ⊢
    refine .extendSum hkind (Operator.bindsTightly_eq_false_iff.mp htight) hleft
      (hright.toProduct ?_)
    rintro rfl
    simp [Rank.fits] at hfits

lemma reads_left {op : Operator} {rank : Rank} {phrase : List Token} {token : Token} {e : Expr}
    (hphrase : Reads rank phrase e) (hkind : token.kind = .operator op)
    (hlook : rank = .sum → token.kind.bindsTightly = false) : Reads op.rank phrase e := by
  cases htight : op.bindsTightly with
  | true =>
    simp only [Operator.rank, htight, if_true]
    refine hphrase.toProduct ?_
    intro hsum
    have hloose := hlook hsum
    rw [hkind, TokenKind.bindsTightly, htight] at hloose
    cases hloose
  | false =>
    simp only [Operator.rank, htight, Bool.false_eq_true, if_false]
    exact hphrase.toSum

theorem Takes.holds {task task' : Task} {token : Token} {taken : List Token}
    (htakes : Takes task token task') (h : Holds task taken (some token)) (look : Option Token) :
    Holds task' (taken ++ [token]) look := by
  cases htakes with
  | literal hkind =>
    obtain ⟨hstack⟩ := h
    exact .complete hstack (.literal hkind) rfl (by simp)
  | opening hkind =>
    obtain ⟨hstack⟩ := h
    exact .operand (.group hstack hkind)
  | operator hkind hfits =>
    obtain _ | ⟨hstack, hphrase, -, hlook⟩ := h
    have hleft := reads_left hphrase hkind (fun hsum => hlook hsum token rfl)
    rw [List.append_assoc]
    exact .operand (.operation hstack hfits hleft hkind)
  | closing hkind =>
    obtain _ | ⟨hstack, hphrase, hfits, hlook⟩ := h
    obtain _ | ⟨below, hstart⟩ := hstack
    have hgroup := Reads.group hstart hkind hphrase.toSum
    simp only [List.append_assoc]
    exact .complete below hgroup rfl (by simp)

theorem holds_join {op : Operator} {target : Temporary} {span : Span} {left right : Expr}
    {stack : List Frame} {taken : List Token} {token : Token}
    (hlook : token.kind.takesOperandFrom op = false)
    (h : Holds ⟨.operation op span left :: stack, .complete right⟩ taken (some token)) :
    Holds ⟨stack, .complete (.binary op target span left right)⟩ taken (some token) := by
  obtain _ | ⟨hstack, hright, hfits, -⟩ := h
  obtain _ | _ | ⟨below, hfits', hleft, hkind⟩ := hstack
  simp only [List.append_assoc, List.cons_append, List.nil_append]
  refine .complete below (reads_operation hkind hleft hright hfits) hfits' ?_
  intro hsum token' hsome
  obtain rfl := Option.some.inj hsome
  cases htight : op.bindsTightly with
  | true => simp [Operator.rank, htight] at hsum
  | false => simpa [TokenKind.takesOperandFrom, htight] using hlook

lemma Proceeds.holds {task task' : Task} {p p' : Parser} {first taken : List Token}
    (hstep : Proceeds task p first task' p') (h : Holds task taken (some p.scanner.current)) :
    Holds task' (taken ++ first) (some p'.scanner.current) := by
  cases hstep with
  | take htakes hadvance hdepth => exact htakes.holds h _
  | join hlook hheight =>
    rw [List.append_nil]
    exact holds_join hlook h

/-- Along a run, what is held grows by the tokens taken. -/
theorem Reaches.holds {task task' : Task} {p p' : Parser} {taken more : List Token}
    (hreach : Reaches task p more task' p') (h : Holds task taken (some p.scanner.current)) :
    Holds task' (taken ++ more) (some p'.scanner.current) := by
  induction hreach generalizing taken with
  | refl task p => rwa [List.append_nil]
  | head hstep _ ih =>
    rw [← List.append_assoc]
    exact ih (hstep.holds h)

lemma Reaches.holds_taken {p p' : Parser} {taken : List Token} {task : Task}
    (hreach : Reaches ⟨[], .operand⟩ p taken task p') :
    Holds task taken (some p'.scanner.current) := by
  have hholds := hreach.holds (.operand .nil)
  rwa [List.nil_append] at hholds

theorem Reaches.reads {p p' : Parser} {taken : List Token} {e : Expr}
    (hreach : Reaches ⟨[], .operand⟩ p taken ⟨[], .complete e⟩ p') : Reads .sum taken e := by
  obtain _ | ⟨hstack, hphrase, -, -⟩ := hreach.holds_taken
  obtain ⟨⟩ := hstack
  exact hphrase.toSum

theorem Reaches.numbered {p p' : Parser} {taken : List Token} {e : Expr}
    (hreach : Reaches ⟨[], .operand⟩ p taken ⟨[], .complete e⟩ p')
    (hcurrent : ∀ op, p'.scanner.current.kind ≠ .operator op) :
    e.Numbered p.temporaries ∧ p'.temporaries = p.temporaries + e.operationCount := by
  obtain ⟨e', hreads, hnumbered, -⟩ := hreach.reads.derives.exists_reads p.temporaries rfl
  have hloose := TokenKind.bindsTightly_of_not_operator hcurrent
  have hmoves : Moves ⟨⟨[], .operand⟩, p.temporaries, taken ++ p'.scanner.ahead⟩ _ :=
    hreads.moves hnumbered rfl (fun _ => hloose)
  have hrun := hreach.moves
  rw [configuration, hreach.continues.ahead] at hrun
  obtain ⟨rfl, htemporaries, -⟩ := eq_of_moves_complete hrun hmoves hcurrent hcurrent
  exact ⟨hnumbered, htemporaries⟩

lemma StackReads.exists_completion {stack : List Frame} {below phrase : List Token} {rank : Rank}
    {e : Expr} (hstack : StackReads stack below) (hphrase : Reads rank phrase e)
    (hfits : rank.fits stack = true) : ∃ more e', Reads .sum (below ++ phrase ++ more) e' := by
  induction hstack generalizing phrase rank e with
  | nil => exact ⟨[], e, by simpa using hphrase.toSum⟩
  | group _ hstart ih =>
    rename_i start _
    have hgroup : Reads .operand (start :: phrase ++ [⟨.closing, .unknown⟩]) e :=
      .group hstart rfl hphrase.toSum
    obtain ⟨more, e', hreads⟩ := ih hgroup rfl
    exact ⟨⟨.closing, .unknown⟩ :: more, e', by simpa using hreads⟩
  | operation _ hfits' hleft hkind ih =>
    obtain ⟨more, e', hreads⟩ := ih (reads_operation (t := ⟨0⟩) hkind hleft hphrase hfits) hfits'
    exact ⟨more, e', by simpa using hreads⟩

/-- What a task holds is the beginning of an expression. -/
theorem Holds.exists_completion {task : Task} {taken : List Token} {look : Option Token}
    (h : Holds task taken look) : ∃ more e, Reads .sum (taken ++ more) e := by
  cases h with
  | operand hstack =>
    have hnumber : Reads .operand [⟨.number 0, .unknown⟩] (.literal 0 .unknown) := .literal rfl
    obtain ⟨more, e, hreads⟩ := hstack.exists_completion hnumber rfl
    rw [List.append_assoc] at hreads
    exact ⟨_, e, hreads⟩
  | complete hstack hphrase hfits _ => exact hstack.exists_completion hphrase hfits

end Parser

end ThreeAddress
