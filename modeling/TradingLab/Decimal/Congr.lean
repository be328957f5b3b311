import TradingLab.Decimal.Quotient
import TradingLab.Decimal.Sum

/-!
# Operations on numbers

What a context makes of numerals depends on their numbers only. For a quotient this
needs an argument: the dividend is shifted by the digits of its operands, so the
same number with more zeros is shifted less, and the digits that are kept are the
same.
-/

namespace Decimal

variable {prec : ℕ} {a b c d : Decimal}

theorem equiv_refl (a : Decimal) : a ≈ a := rfl

theorem equiv_symm (h : a ≈ b) : b ≈ a := Eq.symm h

theorem equiv_trans (h : a ≈ b) (h' : b ≈ c) : a ≈ c := Eq.trans h h'

theorem lt_congr (hac : a ≈ c) (hbd : b ≈ d) : a < b ↔ c < d := by
  rw [lt_def, lt_def, equiv_def.mp hac, equiv_def.mp hbd]

theorem larger_congr (hac : a ≈ c) (hbd : b ≈ d) : larger a b ≈ larger c d := by
  unfold larger
  by_cases h : a < b
  · rw [if_pos h, if_pos ((lt_congr hac hbd).mp h)]
    exact hbd
  · rw [if_neg h, if_neg fun hcd => h ((lt_congr hac hbd).mpr hcd)]
    exact hac

theorem coefficient_eq_zero_congr (h : a ≈ b) : a.coefficient = 0 ↔ b.coefficient = 0 := by
  rw [← toRat_eq_zero_iff, ← toRat_eq_zero_iff, equiv_def.mp h]

theorem copyNegate_congr (h : a ≈ b) : copyNegate a ≈ copyNegate b := by
  rw [equiv_def, toRat_copyNegate, toRat_copyNegate, equiv_def.mp h]

section Context
variable (hp : 0 < prec)
include hp

theorem round_congr (h : a ≈ b) : round prec a ≈ round prec b := toRat_round_congr hp h

theorem add_congr (hac : a ≈ c) (hbd : b ≈ d) : add prec a b ≈ add prec c d := by
  apply round_congr hp
  rw [equiv_def, toRat_addExact, toRat_addExact, equiv_def.mp hac, equiv_def.mp hbd]

theorem sub_congr (hac : a ≈ c) (hbd : b ≈ d) : sub prec a b ≈ sub prec c d :=
  add_congr hp hac (copyNegate_congr hbd)

theorem mul_congr (hac : a ≈ c) (hbd : b ≈ d) : mul prec a b ≈ mul prec c d := by
  apply round_congr hp
  rw [equiv_def, toRat_mulExact, toRat_mulExact, equiv_def.mp hac, equiv_def.mp hbd]

theorem neg_congr (h : a ≈ b) : neg prec a ≈ neg prec b := by
  apply round_congr hp
  have hzero := coefficient_eq_zero_congr h
  by_cases ha : a.coefficient = 0
  · rw [if_pos ha, if_pos (hzero.mp ha), equiv_def, toRat_copyAbs, toRat_copyAbs,
      equiv_def.mp h]
  · rw [if_neg ha, if_neg fun hb => ha (hzero.mpr hb)]
    exact copyNegate_congr h

theorem sum_congr {ds es : List Decimal} (h : List.Forall₂ (fun d e => d ≈ e) ds es) :
    sum prec ds ≈ sum prec es := by
  suffices hfold : ∀ t u : Decimal, t ≈ u → ds.foldl (add prec) t ≈ es.foldl (add prec) u from
    hfold 0 0 rfl
  induction h with
  | nil => exact fun _ _ htu => htu
  | cons hde _ ih => exact fun t u htu => ih _ _ (add_congr hp htu hde)

end Context

theorem digits_mul_pow {c : ℕ} (hc : 0 < c) (n : ℕ) : digits (c * 10 ^ n) = digits c + n := by
  induction n with
  | zero => simp
  | succ n ih => rw [pow_succ, ← mul_assoc, digits_mul_ten (by positivity), ih, add_assoc]

def shifted (d : Decimal) (n : ℕ) : Decimal := ⟨d.negative, d.coefficient * 10 ^ n, d.exponent - n⟩

theorem toRat_shifted (d : Decimal) (n : ℕ) : (shifted d n).toRat = d.toRat := by
  rw [shifted, ← toRat_shift, sub_add_cancel]

theorem eq_of_int (hexponent : a.exponent = b.exponent) (hint : a.int = b.int)
    (hb : b.coefficient ≠ 0) : a = b := by
  have hcoefficient : a.coefficient = b.coefficient := by
    rw [← natAbs_int, ← natAbs_int, hint]
  have hnegative : a.negative = b.negative := by
    unfold int at hint
    rw [hcoefficient] at hint
    cases ha : a.negative <;> cases hb' : b.negative <;> simp [ha, hb'] at hint ⊢ <;> omega
  cases a
  cases b
  simp_all

theorem eq_shifted (h : a ≈ b) (hb : b.coefficient ≠ 0) (he : a.exponent ≤ b.exponent) :
    a = shifted b (b.exponent - a.exponent).toNat := by
  have hexponent : a.exponent = (shifted b (b.exponent - a.exponent).toNat).exponent := by
    unfold shifted
    dsimp only
    omega
  apply eq_of_int hexponent
  · have hvalue : a.toRat = (shifted b (b.exponent - a.exponent).toNat).toRat := by
      rw [toRat_shifted]
      exact h
    rw [toRat, toRat, ← hexponent] at hvalue
    exact_mod_cast mul_right_cancel₀ (zpow_ne_zero _ (by norm_num)) hvalue
  · unfold shifted
    positivity

/-- Two quotients are one number when sign, exponent and integer quotient agree. -/
theorem quotient_congr_of_factor {a' b' : Decimal} (hp : 0 < prec) (ha : a.coefficient ≠ 0)
    (ha' : a'.coefficient ≠ 0) {m : ℕ}
    (hsign : (a'.negative ^^ b'.negative) = (a.negative ^^ b.negative))
    (hexponent : a'.exponent - b'.exponent - quotientShift prec a' b' =
      a.exponent - b.exponent - quotientShift prec a b)
    (hnum : quotientNum prec a' b' = quotientNum prec a b * 10 ^ m)
    (hden : quotientDen prec a' b' = quotientDen prec a b * 10 ^ m) :
    quotient prec a' b' ≈ quotient prec a b := by
  have hpos : 0 < 10 ^ m := by positivity
  have hdiv : quotientNum prec a' b' / quotientDen prec a' b' =
      quotientNum prec a b / quotientDen prec a b := by
    rw [hnum, hden, Nat.mul_div_mul_right _ _ hpos]
  have hmod : quotientNum prec a' b' % quotientDen prec a' b' = 0 ↔
      quotientNum prec a b % quotientDen prec a b = 0 := by
    rw [hnum, hden, Nat.mul_mod_mul_right]
    simp
  unfold quotient
  dsimp only
  rw [if_neg ha, if_neg ha', hdiv, hsign, hexponent]
  by_cases hzero : quotientNum prec a b % quotientDen prec a b = 0
  · rw [if_pos hzero, if_pos (hmod.mpr hzero)]
    apply round_congr hp
    rw [equiv_def, toRat_mk, toRat_mk, stripZeros_value, stripZeros_value]
  · rw [if_neg hzero, if_neg fun h => hzero (hmod.mp h)]

theorem quotient_shifted_left (hp : 0 < prec) (ha : a.coefficient ≠ 0) (b : Decimal) (n : ℕ) :
    quotient prec (shifted a n) b ≈ quotient prec a b := by
  have hshift : quotientShift prec (shifted a n) b = quotientShift prec a b - n := by
    unfold quotientShift shifted
    dsimp only
    rw [digits_mul_pow (Nat.pos_of_ne_zero ha)]
    push_cast
    ring
  apply quotient_congr_of_factor (m := (n - quotientShift prec a b).toNat -
    (-quotientShift prec a b).toNat) hp ha
  · unfold shifted
    positivity
  · rfl
  · rw [hshift]
    unfold shifted
    dsimp only
    ring
  · unfold quotientNum
    rw [hshift]
    unfold shifted
    dsimp only
    rw [mul_assoc, mul_assoc, ← pow_add, ← pow_add]
    congr 2
    omega
  · unfold quotientDen
    rw [hshift, mul_assoc, ← pow_add]
    congr 2
    omega

theorem quotient_shifted_right (hp : 0 < prec) (ha : a.coefficient ≠ 0) (hb : b.coefficient ≠ 0)
    (n : ℕ) : quotient prec a (shifted b n) ≈ quotient prec a b := by
  have hshift : quotientShift prec a (shifted b n) = quotientShift prec a b + n := by
    unfold quotientShift shifted
    dsimp only
    rw [digits_mul_pow (Nat.pos_of_ne_zero hb)]
    push_cast
    ring
  apply quotient_congr_of_factor (m := (quotientShift prec a b + n).toNat -
    (quotientShift prec a b).toNat) hp ha ha
  · rfl
  · rw [hshift]
    unfold shifted
    dsimp only
    ring
  · unfold quotientNum
    rw [hshift, mul_assoc, ← pow_add]
    congr 2
    omega
  · unfold quotientDen
    rw [hshift]
    unfold shifted
    dsimp only
    rw [mul_assoc, mul_assoc, ← pow_add, ← pow_add]
    congr 2
    omega

theorem quotient_zero (hp : 0 < prec) (ha : a.coefficient = 0) (b : Decimal) :
    quotient prec a b ≈ 0 := by
  unfold quotient
  dsimp only
  rw [if_pos ha, equiv_def, round_of_lt_pow hp (by positivity), toRat_zero, toRat_eq_zero_iff]

theorem quotient_congr_left (hp : 0 < prec) (h : a ≈ c) (b : Decimal) :
    quotient prec a b ≈ quotient prec c b := by
  have hzero := coefficient_eq_zero_congr h
  by_cases ha : a.coefficient = 0
  · exact equiv_trans (quotient_zero hp ha b) (equiv_symm (quotient_zero hp (hzero.mp ha) b))
  · have hc : c.coefficient ≠ 0 := fun hc => ha (hzero.mpr hc)
    rcases le_total a.exponent c.exponent with he | he
    · rw [eq_shifted h hc he]
      exact quotient_shifted_left hp hc b _
    · rw [eq_shifted (equiv_symm h) ha he]
      exact equiv_symm (quotient_shifted_left hp ha b _)

theorem quotient_congr (hp : 0 < prec) (hac : a ≈ c) (hbd : b ≈ d) (hb : b.coefficient ≠ 0) :
    quotient prec a b ≈ quotient prec c d := by
  refine equiv_trans (quotient_congr_left hp hac b) ?_
  have hd : d.coefficient ≠ 0 := fun hd => hb ((coefficient_eq_zero_congr hbd).mpr hd)
  by_cases hc : c.coefficient = 0
  · exact equiv_trans (quotient_zero hp hc b) (equiv_symm (quotient_zero hp hc d))
  · rcases le_total b.exponent d.exponent with he | he
    · rw [eq_shifted hbd hd he]
      exact quotient_shifted_right hp hc hd _
    · rw [eq_shifted (equiv_symm hbd) hb he]
      exact equiv_symm (quotient_shifted_right hp hc hb _)

theorem div?_congr (hp : 0 < prec) (hac : a ≈ c) (hbd : b ≈ d) :
    Option.Rel (fun x y => x ≈ y) (div? prec a b) (div? prec c d) := by
  have hzero := coefficient_eq_zero_congr hbd
  unfold div?
  by_cases hb : b.coefficient = 0
  · rw [if_pos hb, if_pos (hzero.mp hb)]
    exact .none
  · rw [if_neg hb, if_neg fun hd => hb (hzero.mpr hd)]
    exact .some (quotient_congr hp hac hbd hb)

end Decimal
