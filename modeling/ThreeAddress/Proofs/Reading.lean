import ThreeAddress.Denotation
import ThreeAddress.Proofs.Transition

/-!
# Readings of token lists

A reading is a derivation that keeps what the parser keeps: the spans of literals and operators.
Every derivation over token kinds has a reading whose operations are numbered in the order in which
they are built. Conversely a reading forgets to a derivation.

Main statements: the parser follows every reading (`Reads.moves`), and since its moves are
determined, no list of tokens has two readings (`Reads.unique`, `Derives.unique`).
-/

open ThreeAddress.Parser

namespace ThreeAddress

/-- The operations of an expression hold the temporaries from `n` on, operands before operations
and left before right. -/
def Expr.Numbered (n : Nat) : Expr → Prop
  | literal .. => True
  | binary _ target _ left right =>
    left.Numbered n ∧ right.Numbered (n + left.operationCount) ∧
      target.index = n + left.operationCount + right.operationCount

/-- In `Reads rank tokens e` the tokens are a phrase of the rank that reads as `e`, whatever
temporaries its operations hold. -/
inductive Reads : Rank → List Token → Expr → Prop where
  | literal {token : Token} {value : Nat} (hkind : token.kind = .number value) :
      Reads .operand [token] (.literal value token.span)
  | group {start stop : Token} {tokens : List Token} {e : Expr} (hstart : start.kind = .opening)
      (hstop : stop.kind = .closing) (inner : Reads .sum tokens e) :
      Reads .operand (start :: tokens ++ [stop]) e
  | ofOperand {tokens : List Token} {e : Expr} (h : Reads .operand tokens e) :
      Reads .product tokens e
  | ofProduct {tokens : List Token} {e : Expr} (h : Reads .product tokens e) : Reads .sum tokens e
  | extendProduct {token : Token} {op : Operator} {target : Temporary} {tokens more : List Token}
      {left right : Expr} (hkind : token.kind = .operator op) (tight : op = .mul ∨ op = .div)
      (hleft : Reads .product tokens left) (hright : Reads .operand more right) :
      Reads .product (tokens ++ token :: more) (.binary op target token.span left right)
  | extendSum {token : Token} {op : Operator} {target : Temporary} {tokens more : List Token}
      {left right : Expr} (hkind : token.kind = .operator op) (loose : op = .add ∨ op = .sub)
      (hleft : Reads .sum tokens left) (hright : Reads .product more right) :
      Reads .sum (tokens ++ token :: more) (.binary op target token.span left right)

namespace Reads

lemma toSum {rank : Rank} {tokens : List Token} {e : Expr} (h : Reads rank tokens e) :
    Reads .sum tokens e := by
  cases rank with
  | operand => exact .ofProduct (.ofOperand h)
  | product => exact .ofProduct h
  | sum => exact h

lemma toProduct {rank : Rank} {tokens : List Token} {e : Expr} (h : Reads rank tokens e)
    (hrank : rank ≠ .sum) : Reads .product tokens e := by
  cases rank with
  | operand => exact .ofOperand h
  | product => exact h
  | sum => exact absurd rfl hrank

theorem derives {rank : Rank} {tokens : List Token} {e : Expr} (h : Reads rank tokens e) :
    Derives rank (tokens.map Token.kind) e.term := by
  induction h with
  | literal hkind =>
    rw [List.map_singleton, hkind]
    exact .number _
  | group hstart hstop _ ih =>
    simp only [List.cons_append, List.map_cons, List.map_append, List.map_nil, hstart, hstop]
    exact .group ih
  | ofOperand _ ih => exact .ofOperand ih
  | ofProduct _ ih => exact .ofProduct ih
  | extendProduct hkind tight _ _ ihl ihr =>
    rw [List.map_append, List.map_cons, hkind]
    exact .extendProduct tight ihl ihr
  | extendSum hkind loose _ _ ihl ihr =>
    rw [List.map_append, List.map_cons, hkind]
    exact .extendSum loose ihl ihr

end Reads

theorem Derives.exists_reads {rank : Rank} {kinds : List TokenKind} {t : Term}
    (h : Derives rank kinds t) (n : Nat) {tokens : List Token}
    (htokens : tokens.map Token.kind = kinds) :
    ∃ e, Reads rank tokens e ∧ e.Numbered n ∧ e.term = t := by
  induction h generalizing n tokens with
  | number value =>
    obtain ⟨token, rfl, hkind⟩ := List.map_eq_singleton_iff.mp htokens
    exact ⟨.literal value token.span, .literal hkind, trivial, rfl⟩
  | group _ ih =>
    obtain ⟨front, last, rfl, hfront, hlast⟩ := List.map_eq_append_iff.mp htokens
    obtain ⟨start, inner, rfl, hstart, hinner⟩ := List.map_eq_cons_iff.mp hfront
    obtain ⟨stop, rfl, hstop⟩ := List.map_eq_singleton_iff.mp hlast
    obtain ⟨e, hreads, hnumbered, hterm⟩ := ih n hinner
    exact ⟨e, .group hstart hstop hreads, hnumbered, hterm⟩
  | ofOperand _ ih =>
    obtain ⟨e, hreads, hrest⟩ := ih n htokens
    exact ⟨e, .ofOperand hreads, hrest⟩
  | ofProduct _ ih =>
    obtain ⟨e, hreads, hrest⟩ := ih n htokens
    exact ⟨e, .ofProduct hreads, hrest⟩
  | extendProduct tight _ _ ihl ihr =>
    obtain ⟨front, back, rfl, hfront, hback⟩ := List.map_eq_append_iff.mp htokens
    obtain ⟨token, more, rfl, hkind, hmore⟩ := List.map_eq_cons_iff.mp hback
    obtain ⟨left, hleft, hleftNumbered, rfl⟩ := ihl n hfront
    obtain ⟨right, hright, hrightNumbered, rfl⟩ := ihr (n + left.operationCount) hmore
    exact ⟨_, .extendProduct hkind tight hleft hright, ⟨hleftNumbered, hrightNumbered, rfl⟩, rfl⟩
  | extendSum loose _ _ ihl ihr =>
    obtain ⟨front, back, rfl, hfront, hback⟩ := List.map_eq_append_iff.mp htokens
    obtain ⟨token, more, rfl, hkind, hmore⟩ := List.map_eq_cons_iff.mp hback
    obtain ⟨left, hleft, hleftNumbered, rfl⟩ := ihl n hfront
    obtain ⟨right, hright, hrightNumbered, rfl⟩ := ihr (n + left.operationCount) hmore
    exact ⟨_, .extendSum hkind loose hleft hright, ⟨hleftNumbered, hrightNumbered, rfl⟩, rfl⟩

lemma moves_operation {op : Operator} {token look : Token} {target : Temporary} {left right : Expr}
    {stack : List Frame} {more rest : List Token} {n : Nat} (hkind : token.kind = .operator op)
    (hfits : op.rank.fits stack = true) (hlook : look.kind.takesOperandFrom op = false)
    (htarget : target.index = n + left.operationCount + right.operationCount)
    (hright : Moves
      ⟨⟨.operation op token.span left :: stack, .operand⟩, n + left.operationCount,
        more ++ look :: rest⟩
      ⟨⟨.operation op token.span left :: stack, .complete right⟩,
        n + left.operationCount + right.operationCount, look :: rest⟩) :
    Moves ⟨⟨stack, .complete left⟩, n + left.operationCount, token :: (more ++ look :: rest)⟩
      ⟨⟨stack, .complete (.binary op target token.span left right)⟩,
        n + (Expr.binary op target token.span left right).operationCount, look :: rest⟩ := by
  obtain ⟨index⟩ := target
  obtain rfl : index = n + left.operationCount + right.operationCount := htarget
  have hcount (t : Temporary) : n + (Expr.binary op t token.span left right).operationCount =
      n + left.operationCount + right.operationCount + 1 := by
    simp only [Expr.operationCount]
    omega
  rw [hcount]
  exact .head (.take (.operator hkind hfits)) (.tail hright (.join hlook))

/-- The parser moves past a phrase to its reading, on any stack that the phrase fits and before any
token that does not extend it. -/
theorem Reads.moves {rank : Rank} {tokens : List Token} {e : Expr} (h : Reads rank tokens e)
    {stack : List Frame} {n : Nat} {look : Token} {rest : List Token} (hnumbered : e.Numbered n)
    (hfits : rank.fits stack = true) (hlook : rank = .sum → look.kind.bindsTightly = false) :
    Moves ⟨⟨stack, .operand⟩, n, tokens ++ look :: rest⟩
      ⟨⟨stack, .complete e⟩, n + e.operationCount, look :: rest⟩ := by
  induction h generalizing stack n look rest with
  | literal hkind => exact .single (.take (.literal hkind))
  | group hstart hstop _ ih =>
    rename_i start stop tokens e _
    have hinner : Moves ⟨⟨.group :: stack, .operand⟩, n, tokens ++ stop :: look :: rest⟩
        ⟨⟨.group :: stack, .complete e⟩, n + e.operationCount, stop :: look :: rest⟩ :=
      ih hnumbered rfl (fun _ => by rw [hstop]; rfl)
    simp only [List.cons_append, List.append_assoc, List.nil_append]
    exact .head (.take (.opening hstart)) (.tail hinner (.take (.closing hstop)))
  | ofOperand _ ih => exact ih hnumbered rfl (by simp)
  | ofProduct _ ih => exact ih hnumbered (Rank.fits_product_of_fits_sum hfits) (by simp)
  | extendProduct hkind tight _ _ ihl ihr =>
    rw [List.append_assoc, List.cons_append]
    obtain ⟨hleft, hright, htarget⟩ := hnumbered
    have htight := Operator.bindsTightly_iff.mpr tight
    refine .trans (ihl hleft hfits (by simp)) ?_
    refine moves_operation hkind (by simpa [Operator.rank, htight] using hfits) ?_ htarget
      (ihr hright rfl (by simp))
    simp [TokenKind.takesOperandFrom, htight]
  | extendSum hkind loose _ _ ihl ihr =>
    rw [List.append_assoc, List.cons_append]
    obtain ⟨hleft, hright, htarget⟩ := hnumbered
    have hloose := Operator.bindsTightly_eq_false_iff.mpr loose
    refine .trans (ihl hleft hfits (fun _ => by rw [hkind]; exact hloose)) ?_
    refine moves_operation hkind (by simpa [Operator.rank, hloose] using hfits) ?_ htarget
      (ihr hright (by simp [Rank.fits, hloose]) (by simp))
    simp [TokenKind.takesOperandFrom, hlook rfl]

theorem Reads.unique {tokens : List Token} {e e' : Expr} {n : Nat} (h : Reads .sum tokens e)
    (h' : Reads .sum tokens e') (hnumbered : e.Numbered n) (hnumbered' : e'.Numbered n) :
    e = e' := by
  -- Both readings are followed by moves over the same tokens, once an end is put behind them.
  let last : Token := ⟨.endOfInput, .unknown⟩
  have hlast : ∀ op, last.kind ≠ .operator op := by simp [last]
  have hmoves : Moves ⟨⟨[], .operand⟩, n, tokens ++ [last]⟩ _ :=
    h.moves hnumbered rfl (fun _ => rfl)
  have hmoves' : Moves ⟨⟨[], .operand⟩, n, tokens ++ [last]⟩ _ :=
    h'.moves hnumbered' rfl (fun _ => rfl)
  exact (eq_of_moves_complete hmoves hmoves' hlast hlast).1

/-- The grammar is unambiguous. -/
theorem Derives.unique {kinds : List TokenKind} {s t : Term} (hs : Derives .sum kinds s)
    (ht : Derives .sum kinds t) : s = t := by
  have hkinds : (kinds.map fun kind => Token.mk kind .unknown).map Token.kind = kinds := by
    rw [List.map_map]
    exact List.map_id kinds
  obtain ⟨e, hreads, hnumbered, rfl⟩ := hs.exists_reads 0 hkinds
  obtain ⟨e', hreads', hnumbered', rfl⟩ := ht.exists_reads 0 hkinds
  rw [hreads.unique hreads' hnumbered hnumbered']

end ThreeAddress
