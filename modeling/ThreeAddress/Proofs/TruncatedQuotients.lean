import Mathlib
import ThreeAddress.Operator

/-!
# Quotients are rounded toward zero

A quotient rounded toward zero leaves a remainder that is smaller than the divisor and lies on the
same side of zero as the dividend. No other integer does (`RoundsTowardZero.unique`). Changing the
sign of one operand changes the sign of the quotient, so it is enough to divide magnitudes and to
set the sign afterwards.
-/

namespace ThreeAddress

/-- The remainder that `q` leaves of the dividend `a` is smaller than the divisor `b`, and it has the
sign of `a` unless it is zero. -/
structure RoundsTowardZero (a b q : Int) : Prop where
  remainder_lt : |a - b * q| < |b|
  remainder_sign : a - b * q = 0 ∨ (a - b * q).sign = a.sign

namespace RoundsTowardZero

variable {a b q q' : Int}

lemma neg_dividend (h : RoundsTowardZero a b q) : RoundsTowardZero (-a) b (-q) := by
  have hremainder : -a - b * -q = -(a - b * q) := by ring
  constructor
  · rw [hremainder, abs_neg]
    exact h.remainder_lt
  · rw [hremainder, neg_eq_zero, Int.sign_neg, Int.sign_neg, neg_inj]
    exact h.remainder_sign

lemma neg_divisor (h : RoundsTowardZero a b q) : RoundsTowardZero a (-b) (-q) := by
  have hremainder : a - -b * -q = a - b * q := by ring
  constructor
  · rw [hremainder, abs_neg]
    exact h.remainder_lt
  · rw [hremainder]
    exact h.remainder_sign

lemma of_natCast (m : Nat) {n : Nat} (hn : 0 < n) : RoundsTowardZero m n (m / n : Nat) := by
  have hremainder : (m : Int) - n * (m / n : Nat) = (m % n : Nat) := by
    have hdivision : (n : Int) * (m / n : Nat) + (m % n : Nat) = m := by
      exact_mod_cast Nat.div_add_mod m n
    omega
  constructor
  · rw [hremainder, Nat.abs_cast, Nat.abs_cast]
    exact_mod_cast Nat.mod_lt m hn
  · rw [hremainder]
    by_cases hzero : m % n = 0
    · left
      rw [hzero]
      rfl
    · right
      have hm : m ≠ 0 := by
        rintro rfl
        exact hzero (Nat.zero_mod n)
      rw [Int.sign_natCast_of_ne_zero hzero, Int.sign_natCast_of_ne_zero hm]

lemma divisor_ne_zero (h : RoundsTowardZero a b q) : b ≠ 0 := by
  rintro rfl
  exact absurd h.remainder_lt (by simp)

lemma remainder_nonneg (h : RoundsTowardZero a b q) (ha : 0 ≤ a) : 0 ≤ a - b * q := by
  obtain hzero | hsign := h.remainder_sign
  · exact hzero.ge
  · rw [← Int.sign_nonneg_iff, hsign, Int.sign_nonneg_iff]
    exact ha

/-- Remainders on the same side of zero differ by less than the divisor, of which their difference
is a multiple. -/
lemma unique_of_nonneg (h : RoundsTowardZero a b q) (h' : RoundsTowardZero a b q') (ha : 0 ≤ a) :
    q = q' := by
  have hclose : |b * (q - q')| < |b| := by
    have hlt := h.remainder_lt
    have hlt' := h'.remainder_lt
    rw [abs_of_nonneg (h.remainder_nonneg ha)] at hlt
    rw [abs_of_nonneg (h'.remainder_nonneg ha)] at hlt'
    have hdifference : b * (q - q') = (a - b * q') - (a - b * q) := by ring
    rw [hdifference]
    exact abs_sub_lt_of_nonneg_of_lt (h'.remainder_nonneg ha) hlt' (h.remainder_nonneg ha) hlt
  have hproduct : b * (q - q') = 0 :=
    Int.eq_zero_of_abs_lt_dvd ((abs_dvd b _).mpr (dvd_mul_right b _)) hclose
  obtain hzero | hzero := mul_eq_zero.mp hproduct
  · exact absurd hzero h.divisor_ne_zero
  · exact sub_eq_zero.mp hzero

lemma unique (h : RoundsTowardZero a b q) (h' : RoundsTowardZero a b q') : q = q' := by
  obtain ha | ha := le_total 0 a
  · exact h.unique_of_nonneg h' ha
  · exact neg_inj.mp (h.neg_dividend.unique_of_nonneg h'.neg_dividend (neg_nonneg.mpr ha))

end RoundsTowardZero

namespace Operator

variable {a b q : Int}

lemma eq_of_quotient? (h : quotient? a b = some q) :
    q = if a < 0 ↔ b < 0 then ((a.natAbs / b.natAbs : Nat) : Int)
      else -((a.natAbs / b.natAbs : Nat) : Int) := by
  unfold quotient? at h
  split at h
  · cases h
  · exact (Option.some.inj h).symm

lemma natAbs_quotient? (h : quotient? a b = some q) : q.natAbs = a.natAbs / b.natAbs := by
  rw [eq_of_quotient? h]
  split
  · exact Int.natAbs_natCast _
  · rw [Int.natAbs_neg, Int.natAbs_natCast]

lemma roundsTowardZero_of_quotient? (h : quotient? a b = some q) : RoundsTowardZero a b q := by
  have hb : b ≠ 0 := by
    intro hzero
    rw [quotient?_eq_none_iff.mpr hzero] at h
    cases h
  have hmagnitude := RoundsTowardZero.of_natCast a.natAbs (Int.natAbs_pos.mpr hb)
  rw [eq_of_quotient? h]
  generalize a.natAbs / b.natAbs = magnitude at hmagnitude ⊢
  obtain ha | ha := lt_or_ge a 0 <;> obtain hb | hb := lt_or_ge b 0
  · rw [Int.ofNat_natAbs_of_nonpos ha.le, Int.ofNat_natAbs_of_nonpos hb.le] at hmagnitude
    rw [if_pos (iff_of_true ha hb)]
    simpa using hmagnitude.neg_dividend.neg_divisor
  · rw [Int.ofNat_natAbs_of_nonpos ha.le, Int.natAbs_of_nonneg hb] at hmagnitude
    rw [if_neg fun hiff => hb.not_gt (hiff.mp ha)]
    simpa using hmagnitude.neg_dividend
  · rw [Int.natAbs_of_nonneg ha, Int.ofNat_natAbs_of_nonpos hb.le] at hmagnitude
    rw [if_neg fun hiff => ha.not_gt (hiff.mpr hb)]
    simpa using hmagnitude.neg_divisor
  · rw [Int.natAbs_of_nonneg ha, Int.natAbs_of_nonneg hb] at hmagnitude
    rw [if_pos (iff_of_false ha.not_gt hb.not_gt)]
    exact hmagnitude

lemma exists_quotient? (a : Int) (hb : b ≠ 0) : ∃ q, quotient? a b = some q :=
  Option.ne_none_iff_exists'.mp (mt quotient?_eq_none_iff.mp hb)

lemma quotient?_eq_some_iff : quotient? a b = some q ↔ RoundsTowardZero a b q := by
  constructor
  · exact roundsTowardZero_of_quotient?
  · intro h
    obtain ⟨q', hq'⟩ := exists_quotient? a h.divisor_ne_zero
    rw [hq', h.unique (roundsTowardZero_of_quotient? hq')]

/-- By a divisor other than zero there is a quotient, and it is the one integer that rounds toward
zero. It changes its sign with either operand and is no further from zero than the dividend. -/
theorem quotient_rounds_toward_zero (a b : Int) (hb : b ≠ 0) :
    ∃ q, quotient? a b = some q ∧
      (∀ q', RoundsTowardZero a b q' ↔ q' = q) ∧
      quotient? (-a) b = some (-q) ∧ quotient? a (-b) = some (-q) ∧ |q| ≤ |a| := by
  obtain ⟨q, hq⟩ := exists_quotient? a hb
  have hrounds := quotient?_eq_some_iff.mp hq
  refine ⟨q, hq, ?_, ?_, ?_, ?_⟩
  · intro q'
    constructor
    · intro h
      exact h.unique hrounds
    · rintro rfl
      exact hrounds
  · exact quotient?_eq_some_iff.mpr hrounds.neg_dividend
  · exact quotient?_eq_some_iff.mpr hrounds.neg_divisor
  · rw [Int.abs_eq_natAbs, Int.abs_eq_natAbs, natAbs_quotient? hq]
    exact_mod_cast Nat.div_le_self a.natAbs b.natAbs

/-- Signs differ although the quotient is zero, and a remainder below zero. -/
theorem quotient_rounds_toward_zero_of_small_dividend :
    (5 : Int) ≠ 0 ∧ quotient? (-3) 5 = some 0 ∧ (∀ q', RoundsTowardZero (-3) 5 q' ↔ q' = 0) ∧
      quotient? 3 5 = some 0 ∧ quotient? (-3) (-5) = some 0 := by
  obtain ⟨q, hq, hunique, hdividend, hdivisor, -⟩ :=
    quotient_rounds_toward_zero (-3) 5 (by decide)
  obtain rfl : 0 = q := Option.some.inj hq
  exact ⟨by decide, hq, hunique, hdividend, hdivisor⟩

end Operator

end ThreeAddress
