import Mathlib
import ThreeAddress.Proofs.LinearCode

/-!
# Texts of values

A value is written as its decimal numeral as long as that has no more than 4300 digits, which is to
say below `10 ^ 4300` in magnitude. From there on its text names the number of its binary digits.

The numeral is determined by what is asked of it (`isCanonicalInteger_iff`): it reads back as the
value, has a minus sign only below zero, and no leading zeros. So is the number of binary digits, by
the powers of two on both sides of the magnitude (`bitLength_eq_iff`).
-/

namespace ThreeAddress.Text

/-- The text is the decimal numeral of the value: reading it gives the value, a minus sign stands in
front if and only if the value is below zero, and its digits start with a zero only for zero. -/
structure IsCanonicalInteger (value : Int) (text : String) : Prop where
  reads_back : readInteger? text = some value
  minus_iff : text.toList.head? = some '-' ↔ value < 0
  zero_alone : (text.toList.filter Char.isDigit).head? = some '0' →
    text.toList.filter Char.isDigit = ['0']

lemma toDigits_of_isDigit {c : Char} (h : c.isDigit = true) :
    Nat.toDigits 10 (c.toNat - '0'.toNat) = [c] := by
  have hle := (Char.isDigit_iff_toNat.mp h).1
  have hchar : Nat.digitChar (c.toNat - '0'.toNat) = c := by
    apply Char.toNat_inj.mp
    rw [Nat.toNat_digitChar_of_lt_ten (digitValue_lt h)]
    exact Nat.add_sub_of_le hle
  rw [Nat.toDigits_of_lt_base (digitValue_lt h), hchar]

lemma toDigits_ofDigitChars {digits : List Char} {start : Nat}
    (hdigit : ∀ c ∈ digits, c.isDigit = true) (hstart : 0 < start) :
    Nat.toDigits 10 (Nat.ofDigitChars 10 digits start) = Nat.toDigits 10 start ++ digits := by
  induction digits generalizing start with
  | nil => simp
  | cons c digits ih =>
    obtain ⟨hc, hdigits⟩ := List.forall_mem_cons.mp hdigit
    rw [Nat.ofDigitChars_cons, ih hdigits (by omega),
      ← Nat.toDigits_append_toDigits (by decide) hstart (digitValue_lt hc), toDigits_of_isDigit hc,
      List.append_assoc, List.singleton_append]

/-- Without a leading zero the value is positive from the first digit on, and every further digit is
appended to its numeral. -/
lemma eq_toDigits_of_natural? {digits : List Char} {n : Nat}
    (h : readInteger?.natural? digits = some n)
    (hzero : digits.head? = some '0' → digits = ['0']) : digits = Nat.toDigits 10 n := by
  obtain ⟨⟨hne, hdigit⟩, rfl⟩ := natural?_eq_some_iff.mp h
  by_cases hhead : digits.head? = some '0'
  · rw [hzero hhead]
    rfl
  · obtain ⟨c, rest, rfl⟩ := List.exists_cons_of_ne_nil hne
    obtain ⟨hc, hrest⟩ := List.forall_mem_cons.mp hdigit
    have hpos : 0 < c.toNat - '0'.toNat := by
      have hle := (Char.isDigit_iff_toNat.mp hc).1
      have hchar : c.toNat ≠ '0'.toNat := by
        intro heq
        rw [Char.toNat_inj.mp heq] at hhead
        exact hhead rfl
      omega
    rw [Nat.ofDigitChars_cons, Nat.mul_zero, Nat.zero_add, toDigits_ofDigitChars hrest hpos,
      toDigits_of_isDigit hc, List.singleton_append]

lemma filter_isDigit_of_natural? {digits : List Char} {n : Nat}
    (h : readInteger?.natural? digits = some n) : digits.filter Char.isDigit = digits :=
  List.filter_eq_self.mpr (natural?_eq_some_iff.mp h).1.2

lemma filter_isDigit_repr (v : Int) :
    v.repr.toList.filter Char.isDigit = Nat.toDigits 10 v.natAbs := by
  have hdigits := filter_isDigit_of_natural? (natural?_toDigits v.natAbs)
  rw [toList_repr]
  split
  · rw [List.filter_cons_of_neg (by decide), hdigits]
  · exact hdigits

lemma isCanonicalInteger_repr (v : Int) : IsCanonicalInteger v v.repr := by
  refine ⟨readInteger?_repr v, ?_, ?_⟩
  · rw [toList_repr]
    by_cases hneg : v < 0
    · simp [hneg]
    · simp [hneg, head?_toDigits_ne_minus]
  · rw [filter_isDigit_repr, ← Nat.toList_repr]
    exact repr_eq_zero_of_head?

lemma IsCanonicalInteger.eq_repr {v : Int} {text : String} (h : IsCanonicalInteger v text) :
    text = v.repr := by
  have hread := h.reads_back
  have hzero := h.zero_alone
  apply String.toList_injective
  by_cases hneg : v < 0
  · obtain ⟨digits, hlist⟩ := List.head?_eq_some_iff.mp (h.minus_iff.mpr hneg)
    rw [readInteger?_of_minus hlist] at hread
    obtain ⟨n, hn, rfl⟩ := Option.map_eq_some_iff.mp hread
    rw [hlist, List.filter_cons_of_neg (by decide), filter_isDigit_of_natural? hn] at hzero
    rw [toList_repr, if_pos hneg, Int.natAbs_neg, Int.natAbs_natCast, hlist,
      ← eq_toDigits_of_natural? hn hzero]
  · rw [readInteger?_of_no_minus (mt h.minus_iff.mp hneg)] at hread
    obtain ⟨n, hn, rfl⟩ := Option.map_eq_some_iff.mp hread
    rw [filter_isDigit_of_natural? hn] at hzero
    rw [toList_repr, if_neg hneg, Int.natAbs_natCast]
    exact eq_toDigits_of_natural? hn hzero

lemma isCanonicalInteger_iff {v : Int} {text : String} :
    IsCanonicalInteger v text ↔ text = v.repr := by
  constructor
  · exact IsCanonicalInteger.eq_repr
  · rintro rfl
    exact isCanonicalInteger_repr v

lemma bitLength_eq_iff {n k : Nat} (hn : n ≠ 0) :
    bitLength n = k ↔ 2 ^ (k - 1) ≤ n ∧ n < 2 ^ k := by
  rw [bitLength, if_neg hn]
  cases k with
  | zero => simp [hn]
  | succ k => rw [Nat.add_right_cancel_iff, Nat.log2_eq_iff hn, Nat.add_sub_cancel]

lemma valueText_eq (v : Int) :
    valueText v = if v.natAbs < 10 ^ digitLimit then v.repr
      else "<" ++ (bitLength v.natAbs).repr ++ "-bit integer>" := by
  have hlimit : v.natAbs.repr.length ≤ digitLimit ↔ v.natAbs < 10 ^ digitLimit :=
    Nat.length_repr_le_iff (by decide)
  rw [valueText, decimal?]
  by_cases hlt : v.natAbs < 10 ^ digitLimit
  · rw [if_pos (hlimit.mpr hlt), if_pos hlt]
  · rw [if_neg (mt hlimit.mp hlt), if_neg hlt]

/-- Below `10 ^ 4300` in magnitude, the text of a value is its one decimal numeral. From there on it
names the one number of binary digits whose powers of two enclose the magnitude. -/
theorem valueText_is_numeral_or_size (v : Int) :
    (v.natAbs < 10 ^ 4300 → ∀ text, valueText v = text ↔ IsCanonicalInteger v text) ∧
    (10 ^ 4300 ≤ v.natAbs → ∃ n : Nat, valueText v = "<" ++ n.repr ++ "-bit integer>" ∧
      ∀ k : Nat, 2 ^ (k - 1) ≤ v.natAbs ∧ v.natAbs < 2 ^ k ↔ k = n) := by
  constructor
  · intro hlt text
    rw [valueText_eq, if_pos (by rwa [digitLimit]), isCanonicalInteger_iff, eq_comm]
  · intro hle
    refine ⟨bitLength v.natAbs, ?_, ?_⟩
    · rw [valueText_eq, if_neg (by rwa [digitLimit, not_lt])]
    · intro k
      have hne : v.natAbs ≠ 0 := ((Nat.pow_pos (by decide)).trans_le hle).ne'
      rw [← bitLength_eq_iff hne, eq_comm]

/-- The last value below zero that is written in decimal, and the first that is not. -/
theorem valueText_is_numeral_or_size_of_limit :
    IsCanonicalInteger (1 - 10 ^ 4300) (valueText (1 - 10 ^ 4300)) ∧
      valueText (-10 ^ 4300) = "<14285-bit integer>" := by
  have hlt : (1 - 10 ^ 4300 : Int).natAbs < 10 ^ 4300 := by decide +kernel
  have heq : (-10 ^ 4300 : Int).natAbs = 10 ^ 4300 := by decide +kernel
  refine ⟨((valueText_is_numeral_or_size _).1 hlt _).mp rfl, ?_⟩
  obtain ⟨n, htext, hsize⟩ := (valueText_is_numeral_or_size (-10 ^ 4300)).2 heq.ge
  have hn : 14285 = n := by
    rw [← hsize, heq]
    decide +kernel
  rw [htext, ← hn]
  rfl

end ThreeAddress.Text
