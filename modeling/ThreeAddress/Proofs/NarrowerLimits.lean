import Mathlib
import ThreeAddress.Proofs.ComparedRuns

/-!
# Limits only cut off

One source text read under two limits: the narrower limits may end the reading early, and have no
other effect. This is the comparison of two runs in which every place and every cause has to be the
same.
-/

namespace ThreeAddress

lemma Expr.Alike.eq {e e' : Expr} (h : e.Alike Eq e') : e = e' := by
  induction h with
  | literal hspan => rw [hspan]
  | binary hspan _ _ ihl ihr => rw [hspan, ihl, ihr]

namespace Comparison

/-- Two runs on one source text. -/
def sameText (limits wider : Limits) (hnesting : limits.nesting ≤ wider.nesting)
    (hheight : limits.height ≤ wider.height) : Comparison where
  place := Eq
  cause := Eq
  cause_refl _ := rfl
  limits := limits
  wider := wider
  nesting_le := hnesting
  height_le := hheight

variable {limits wider : Limits} (hnesting : limits.nesting ≤ wider.nesting)
  (hheight : limits.height ≤ wider.height)

lemma sources_sameText (source : String) :
    (sameText limits wider hnesting hheight).Sources source source where
  tokens := List.forall₂_same.mpr fun _ _ => ⟨rfl, rfl⟩
  issue? := by
    cases lexicalIssue? source with
    | none => exact .none
    | some issue => exact .some ⟨rfl, rfl⟩

variable {hnesting hheight}

lemma eq_of_diagnostics_sameText {d d' : Diagnostic}
    (h : (sameText limits wider hnesting hheight).Diagnostics d d') : d = d' := by
  obtain ⟨⟨cause, span⟩, category⟩ := d
  obtain ⟨⟨cause', span'⟩, category'⟩ := d'
  obtain ⟨⟨hcause, hspan⟩, hcategory⟩ := h
  obtain rfl : cause = cause' := hcause
  obtain rfl : span = span' := hspan
  obtain rfl : category = category' := hcategory
  rfl

end Comparison

lemma Cause.eq_of_isLimit {cause : Cause} (h : cause.isLimit = true) :
    cause = .nestedTooDeeply ∨ cause = .expressionTooLong := by
  cases cause with
  | nestedTooDeeply => exact .inl rfl
  | expressionTooLong => exact .inr rfl
  | _ => cases h

lemma parse_eq_or_isLimit (source : String) (limits wider : Limits)
    (hnesting : limits.nesting ≤ wider.nesting) (hheight : limits.height ≤ wider.height) :
    parse source limits = parse source wider ∨
      ∃ d, parse source limits = .error d ∧ d.cause.isLimit = true := by
  have houtcomes : (Comparison.sameText limits wider hnesting hheight).Outcomes
      (parse source limits) (parse source wider) :=
    Comparison.outcomes_parse (Comparison.sources_sameText hnesting hheight source)
  generalize parse source limits = outcome at houtcomes
  generalize parse source wider = outcome' at houtcomes
  cases houtcomes with
  | ok tokens temporaries h => exact .inl (by rw [Expr.Alike.eq h])
  | error h => exact .inl (by rw [Comparison.eq_of_diagnostics_sameText h])
  | cutOff _ hcause => exact .inr ⟨_, rfl, hcause⟩

/-- Reading a source text under narrower limits has the outcome that it has under wider ones, or is
refused for one of the two limits. So a text that is accepted stays accepted under wider limits, as
the same expression, and a text that is rejected under the wider limits is not accepted under the
narrower ones. -/
theorem narrower_limits_only_cut_off (source : String) (limits wider : Limits)
    (hnesting : limits.nesting ≤ wider.nesting) (hheight : limits.height ≤ wider.height) :
    (parse source limits = parse source wider ∨
      ∃ d, parse source limits = .error d ∧ d.category = .badSource ∧
        (d.cause = .nestedTooDeeply ∨ d.cause = .expressionTooLong)) ∧
    (∀ parsed, parse source limits = .ok parsed → parse source wider = .ok parsed) ∧
    ∀ d, parse source wider = .error d → ∀ parsed, parse source limits ≠ .ok parsed := by
  have houtcome := parse_eq_or_isLimit source limits wider hnesting hheight
  have haccepted : ∀ parsed, parse source limits = .ok parsed →
      parse source wider = .ok parsed := by
    intro parsed hparse
    obtain heq | ⟨d, herror, -⟩ := houtcome
    · rw [← heq, hparse]
    · rw [herror] at hparse
      cases hparse
  refine ⟨?_, haccepted, ?_⟩
  · obtain heq | ⟨d, herror, hcause⟩ := houtcome
    · exact .inl heq
    · exact .inr ⟨d, herror, category_of_parse_error herror, Cause.eq_of_isLimit hcause⟩
  · intro d herror parsed hparse
    rw [haccepted parsed hparse] at herror
    cases herror

/-- A text with a parenthesis that is never closed is refused sooner under the narrower limits, and
for another reason. -/
theorem narrower_limits_only_cut_off_of_open_group :
    parse "1+((2" ⟨1, 3⟩ ≠ parse "1+((2" ⟨2, 3⟩ ∧
      ∃ d, parse "1+((2" ⟨1, 3⟩ = .error d ∧ d.category = .badSource ∧
        (d.cause = .nestedTooDeeply ∨ d.cause = .expressionTooLong) := by
  have hnarrow : parse "1+((2" ⟨1, 3⟩ =
      .error ⟨⟨.nestedTooDeeply, ⟨1, 4⟩, ⟨1, 5⟩⟩, .badSource⟩ := by cbv
  have hwide : parse "1+((2" ⟨2, 3⟩ =
      .error ⟨⟨.closingExpected, ⟨1, 6⟩, ⟨1, 6⟩⟩, .badSource⟩ := by cbv
  have hne : parse "1+((2" ⟨1, 3⟩ ≠ parse "1+((2" ⟨2, 3⟩ := by
    rw [hnarrow, hwide]
    decide
  have houtcome :=
    (narrower_limits_only_cut_off "1+((2" ⟨1, 3⟩ ⟨2, 3⟩ (by decide) (by decide)).1
  exact ⟨hne, houtcome.resolve_left hne⟩

end ThreeAddress
