import TradingLab.Decimal.Basic

/-!
# Rounding is monotone

Rounding half to even depends on the value of a numeral only, and it keeps the
order of two numbers: numbers with the same number of digits are rounded at the
same place, and between two others there is a power of ten.
-/

namespace Decimal

variable {c d prec : ℕ}

theorem halfEven_mono {p : ℕ} (hp : 0 < p) (h : c ≤ d) : halfEven c p ≤ halfEven d p := by
  have hq := Nat.div_le_div_right (c := p) h
  rcases Nat.lt_or_ge (c / p) (d / p) with hlt | hge
  · have hle := halfEven_le c p
    have hd : d / p ≤ halfEven d p := by
      unfold halfEven
      split <;> omega
    omega
  · have heq : c / p = d / p := le_antisymm hq hge
    have hr : c % p ≤ d % p := by
      have hc := Nat.div_add_mod c p
      have hd := Nat.div_add_mod d p
      rw [heq] at hc
      omega
    unfold halfEven
    rw [heq]
    split_ifs <;> omega

def kept (prec c : ℕ) : ℕ :=
  if digits c ≤ prec then c else halfEven c (10 ^ (digits c - prec)) * 10 ^ (digits c - prec)

theorem kept_of_digits_le (h : digits c ≤ prec) : kept prec c = c := if_pos h

theorem kept_of_lt_digits (h : prec < digits c) :
    kept prec c = halfEven c (10 ^ (digits c - prec)) * 10 ^ (digits c - prec) :=
  if_neg (Nat.not_le.mpr h)

/-- A coefficient is rounded between the powers of ten around it. -/
theorem kept_bounds (hp : 0 < prec) (hc : 0 < c) :
    10 ^ (digits c - 1) ≤ kept prec c ∧ kept prec c ≤ 10 ^ digits c := by
  have hlow : 10 ^ (digits c - 1) ≤ c := by
    rw [digits, Nat.add_sub_cancel]
    exact Nat.pow_log_le_self 10 hc.ne'
  have hhigh := lt_pow_digits c
  rcases Nat.lt_or_ge prec (digits c) with h | h
  · rw [kept_of_lt_digits h]
    have hpow : (10 : ℕ) ^ digits c = 10 ^ prec * 10 ^ (digits c - prec) := by
      rw [← pow_add, Nat.add_sub_cancel' h.le]
    have hpow' : (10 : ℕ) ^ (digits c - 1) = 10 ^ (prec - 1) * 10 ^ (digits c - prec) := by
      rw [← pow_add]
      congr 1
      omega
    have hpos : 0 < 10 ^ (digits c - prec) := by positivity
    rw [hpow'] at hlow
    rw [hpow] at hhigh
    rw [hpow, hpow']
    have hq : 10 ^ (prec - 1) ≤ c / 10 ^ (digits c - prec) := (Nat.le_div_iff_mul_le hpos).mpr hlow
    have hq' : c / 10 ^ (digits c - prec) < 10 ^ prec := (Nat.div_lt_iff_lt_mul hpos).mpr hhigh
    have hle := halfEven_le c (10 ^ (digits c - prec))
    have hge : c / 10 ^ (digits c - prec) ≤ halfEven c (10 ^ (digits c - prec)) := by
      unfold halfEven
      split <;> omega
    exact ⟨Nat.mul_le_mul_right _ (hq.trans hge), Nat.mul_le_mul_right _ (by omega)⟩
  · rw [kept_of_digits_le h]
    exact ⟨hlow, hhigh.le⟩

theorem digits_mono (h : c ≤ d) : digits c ≤ digits d :=
  Nat.add_le_add_right (Nat.log_mono_right h) 1

theorem kept_mono (hp : 0 < prec) (h : c ≤ d) : kept prec c ≤ kept prec d := by
  rcases Nat.eq_zero_or_pos c with rfl | hc
  · rw [kept_of_digits_le (by simp [digits]; omega)]
    exact Nat.zero_le _
  · rcases (digits_mono h).lt_or_eq with hlt | heq
    · have hupper := (kept_bounds hp hc).2
      have hlower := (kept_bounds hp (hc.trans_le h)).1
      have hpow : (10 : ℕ) ^ digits c ≤ 10 ^ (digits d - 1) :=
        Nat.pow_le_pow_right (by norm_num) (by omega)
      exact hupper.trans (hpow.trans hlower)
    · rcases Nat.lt_or_ge prec (digits c) with hk | hk
      · rw [kept_of_lt_digits hk, kept_of_lt_digits (heq ▸ hk), heq]
        exact Nat.mul_le_mul_right _ (halfEven_mono (by positivity) h)
      · rw [kept_of_digits_le hk, kept_of_digits_le (heq ▸ hk)]
        exact h

theorem digits_mul_ten (hc : 0 < c) : digits (c * 10) = digits c + 1 := by
  rw [digits, digits, Nat.log_mul_base (by norm_num) hc.ne']

theorem halfEven_mul_ten (c p : ℕ) : halfEven (c * 10) (p * 10) = halfEven c p := by
  unfold halfEven
  rw [Nat.mul_div_mul_right _ _ (by norm_num : 0 < 10), Nat.mul_mod_mul_right]
  congr 1
  apply propext
  constructor <;> omega

theorem kept_mul_ten (hp : 0 < prec) (c : ℕ) : kept prec (c * 10) = kept prec c * 10 := by
  rcases Nat.eq_zero_or_pos c with rfl | hc
  · rw [zero_mul, kept_of_digits_le (by simp [digits]; omega), zero_mul]
  · have hd := digits_mul_ten hc
    rcases Nat.lt_or_ge (digits c) prec with h | h
    · rw [kept_of_digits_le (by omega), kept_of_digits_le h.le]
    · have hk : prec < digits (c * 10) := by omega
      have hsub : digits (c * 10) - prec = digits c - prec + 1 := by omega
      rw [kept_of_lt_digits hk, hsub, pow_succ, halfEven_mul_ten, ← mul_assoc]
      rcases h.eq_or_lt with h | h
      · rw [kept_of_digits_le h.ge, ← h, Nat.sub_self, pow_zero,
          halfEven_of_dvd Nat.one_pos (one_dvd c), Nat.div_one, mul_one]
      · rw [kept_of_lt_digits h]

theorem kept_mul_pow (hp : 0 < prec) (c n : ℕ) :
    kept prec (c * 10 ^ n) = kept prec c * 10 ^ n := by
  induction n with
  | zero => rw [pow_zero, mul_one, mul_one]
  | succ n ih => rw [pow_succ, ← mul_assoc, kept_mul_ten hp, ih, mul_assoc]

/-- Rounding in place. -/
theorem toRat_round_kept (hp : 0 < prec) (d : Decimal) :
    (round prec d).toRat = (⟨d.negative, kept prec d.coefficient, d.exponent⟩ : Decimal).toRat := by
  unfold round
  dsimp only
  split_ifs with h₁ h₂
  · rw [kept_of_digits_le h₁]
  · rw [kept_of_lt_digits (Nat.not_le.mp h₁)]
    set k := digits d.coefficient - prec with hk
    set c := halfEven d.coefficient (10 ^ k) with hc
    -- only a power of ten has grown by a digit
    have hpow : c = 10 ^ prec := by
      have hlow := pow_le_of_lt_digits h₂ hp
      have hlt : d.coefficient / 10 ^ k < 10 ^ prec := by
        rw [Nat.div_lt_iff_lt_mul (by positivity), ← pow_add]
        have hdigits := lt_pow_digits d.coefficient
        rwa [show prec + k = digits d.coefficient by omega]
      have hle := halfEven_le d.coefficient (10 ^ k)
      omega
    have hten : c / 10 * 10 = c := by
      rw [hpow]
      exact Nat.div_mul_cancel (dvd_pow_self 10 hp.ne')
    have hexp : d.exponent + (k : ℤ) + 1 = d.exponent + ((k + 1 : ℕ) : ℤ) := by
      push_cast
      ring
    rw [hexp, toRat_shift, pow_succ', ← mul_assoc, hten]
  · rw [kept_of_lt_digits (Nat.not_le.mp h₁), toRat_shift]

def keptInt (prec : ℕ) (z : ℤ) : ℤ := if z < 0 then -kept prec z.natAbs else kept prec z.natAbs

theorem kept_zero (prec : ℕ) (hp : 0 < prec) : kept prec 0 = 0 :=
  kept_of_digits_le (by simp [digits]; omega)

theorem keptInt_mono (hp : 0 < prec) {y z : ℤ} (h : y ≤ z) :
    keptInt prec y ≤ keptInt prec z := by
  unfold keptInt
  split_ifs with hy hz hz
  · have := kept_mono hp (by omega : z.natAbs ≤ y.natAbs)
    omega
  · omega
  · omega
  · have := kept_mono hp (by omega : y.natAbs ≤ z.natAbs)
    omega

theorem toRat_round_scaled (hp : 0 < prec) {d : Decimal} {e : ℤ} (h : e ≤ d.exponent) :
    (round prec d).toRat = keptInt prec (d.scaled e) * (10 : ℚ) ^ e := by
  obtain ⟨n, hn⟩ := Int.le.dest h
  have hexp : (d.exponent - e).toNat = n := by omega
  have hkept : keptInt prec (d.scaled e) =
      (⟨d.negative, kept prec d.coefficient * 10 ^ n, e⟩ : Decimal).int := by
    rw [← kept_mul_pow hp, scaled, hexp, keptInt]
    unfold int
    cases d.negative with
    | false =>
      have hcast : (d.coefficient : ℤ) * 10 ^ n = ((d.coefficient * 10 ^ n : ℕ) : ℤ) := by push_cast; rfl
      simp only [Bool.false_eq_true, if_false]
      rw [hcast, Int.natAbs_natCast, if_neg (by omega)]
    | true =>
      have hcast : -(d.coefficient : ℤ) * 10 ^ n = -((d.coefficient * 10 ^ n : ℕ) : ℤ) := by
        push_cast
        ring
      simp only [if_true]
      rw [hcast, Int.natAbs_neg, Int.natAbs_natCast]
      split_ifs with hneg
      · rfl
      · have hzero : d.coefficient * 10 ^ n = 0 := by omega
        rw [hzero, kept_zero prec hp]
        rfl
  rw [toRat_round_kept hp, hkept, ← hn, toRat_shift]
  rfl

theorem toRat_round_mono (hp : 0 < prec) {a b : Decimal} (h : a.toRat ≤ b.toRat) :
    (round prec a).toRat ≤ (round prec b).toRat := by
  have ha := min_le_left a.exponent b.exponent
  have hb := min_le_right a.exponent b.exponent
  rw [toRat_round_scaled hp ha, toRat_round_scaled hp hb]
  have hscaled := (le_iff_scaled a b).mpr h
  apply mul_le_mul_of_nonneg_right _ (by positivity)
  exact_mod_cast keptInt_mono hp hscaled

end Decimal
