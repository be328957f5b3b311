import TradingLab.Decimal.Basic

/-!
# When a context operation is exact

A number that some numeral of the context's precision denotes survives rounding.
The usual way to know this is a grid: sums and products of multiples of a power
of ten stay multiples of a power of ten, and a multiple of `10^-f` below `10^b`
needs at most `f + b` digits.
-/

namespace Decimal

/-- Some numeral of at most `prec` digits denotes `q`. -/
def Representable (prec : ℕ) (q : ℚ) : Prop :=
  ∃ n e : ℤ, |n| < 10 ^ prec ∧ q = n * (10 : ℚ) ^ e

theorem representable_round {prec : ℕ} (hp : 0 < prec) (d : Decimal) :
    Representable prec (round prec d).toRat := by
  refine ⟨(round prec d).int, (round prec d).exponent, ?_, rfl⟩
  rw [Int.abs_eq_natAbs, natAbs_int]
  exact_mod_cast coefficient_round_lt hp d

variable {d a : Decimal}

/-- A representable number with more digits than the precision ends in zeros. -/
theorem pow_dvd_coefficient {prec : ℕ} (hp : 0 < prec)
    (hd : prec < digits d.coefficient) (h : Representable prec d.toRat) :
    10 ^ (digits d.coefficient - prec) ∣ d.coefficient := by
  obtain ⟨n, e, hn, hq⟩ := h
  set c := d.coefficient with hc
  have hm : n.natAbs < 10 ^ prec := by
    rw [Int.abs_eq_natAbs] at hn
    exact_mod_cast hn
  have habs : (c : ℚ) * 10 ^ d.exponent = n.natAbs * 10 ^ e := by
    have := congrArg (fun q : ℚ => |q|) hq
    simp only [toRat, abs_mul] at this
    rwa [abs_of_pos (by positivity : (0 : ℚ) < 10 ^ d.exponent),
      abs_of_pos (by positivity : (0 : ℚ) < 10 ^ e), ← Int.cast_abs, ← Int.cast_abs,
      Int.abs_eq_natAbs, Int.abs_eq_natAbs, Int.cast_natCast, Int.cast_natCast,
      natAbs_int] at this
  have hlow : 10 ^ (digits c - 1) ≤ c := pow_le_of_lt_digits (by omega) (by omega)
  have hcm : n.natAbs < c :=
    hm.trans_le ((Nat.pow_le_pow_right (by norm_num) (by omega)).trans hlow)
  have he : d.exponent < e := by
    by_contra hle
    have h10 : (10 : ℚ) ^ e ≤ 10 ^ d.exponent := zpow_le_zpow_right₀ (by norm_num) (by omega)
    have hcast : (n.natAbs : ℚ) < c := by exact_mod_cast hcm
    have hpos : (0 : ℚ) < 10 ^ e := by positivity
    nlinarith
  obtain ⟨j, hj⟩ : ∃ j : ℕ, e = d.exponent + j := ⟨(e - d.exponent).toNat, by omega⟩
  have hcj : c = n.natAbs * 10 ^ j := by
    rw [hj, zpow_add₀ (by norm_num), zpow_natCast, ← mul_assoc, mul_right_comm] at habs
    have := mul_right_cancel₀ (by positivity : (10 : ℚ) ^ d.exponent ≠ 0) habs
    exact_mod_cast this
  have hjk : digits c - prec ≤ j := by
    have hlt : 10 ^ (digits c - 1) < 10 ^ (prec + j) := by
      refine hlow.trans_lt ?_
      rw [hcj, pow_add]
      exact Nat.mul_lt_mul_of_pos_right hm (by positivity)
    have := (Nat.pow_lt_pow_iff_right (by norm_num : 1 < 10)).mp hlt
    omega
  rw [hcj]
  rw [hcj] at hjk
  exact (pow_dvd_pow 10 hjk).mul_left _

/-- Rounding keeps every number that fits the precision. -/
theorem toRat_round {prec : ℕ} (hp : 0 < prec)
    (h : Representable prec d.toRat) : (round prec d).toRat = d.toRat := by
  by_cases hd : digits d.coefficient ≤ prec
  · rw [round_of_digits_le hd]
  have hdvd := pow_dvd_coefficient hp (by omega) h
  set k := digits d.coefficient - prec with hk
  have hhalf : halfEven d.coefficient (10 ^ k) = d.coefficient / 10 ^ k :=
    halfEven_of_dvd (by positivity) hdvd
  have hlt : d.coefficient / 10 ^ k < 10 ^ prec := by
    rw [Nat.div_lt_iff_lt_mul (by positivity), ← pow_add, show prec + k = digits d.coefficient by omega]
    exact lt_pow_digits _
  have hround : round prec d = ⟨d.negative, d.coefficient / 10 ^ k, d.exponent + k⟩ := by
    have := digits_le_of_lt_pow hlt hp
    rw [round, if_neg hd]
    simp only [← hk, hhalf]
    rw [if_neg (by omega)]
  have hc : ((d.coefficient / 10 ^ k : ℕ) : ℤ) * 10 ^ k = d.coefficient := by
    exact_mod_cast Nat.div_mul_cancel hdvd
  have hint : (round prec d).int * 10 ^ k = d.int := by
    rw [hround]
    unfold int
    cases d.negative
    · exact hc
    · simp only [if_true, neg_mul, hc]
  have hexp : (round prec d).exponent = d.exponent + k := by rw [hround]
  rw [toRat, toRat, hexp, ← hint, zpow_add₀ (by norm_num), zpow_natCast]
  push_cast
  ring

/-- The multiples of `10^-f`. -/
def OnGrid (f : ℕ) (q : ℚ) : Prop := ∃ n : ℤ, q * 10 ^ f = n

theorem OnGrid.mono {f g : ℕ} {q : ℚ} (hfg : f ≤ g) (h : OnGrid f q) : OnGrid g q := by
  obtain ⟨n, hn⟩ := h
  refine ⟨n * 10 ^ (g - f), ?_⟩
  push_cast
  rw [← hn, mul_assoc, ← pow_add, Nat.add_sub_cancel' hfg]

theorem OnGrid.add {f : ℕ} {p q : ℚ} (hp : OnGrid f p) (hq : OnGrid f q) : OnGrid f (p + q) := by
  obtain ⟨m, hm⟩ := hp
  obtain ⟨n, hn⟩ := hq
  exact ⟨m + n, by push_cast; rw [add_mul, hm, hn]⟩

theorem OnGrid.neg {f : ℕ} {q : ℚ} (h : OnGrid f q) : OnGrid f (-q) := by
  obtain ⟨n, hn⟩ := h
  exact ⟨-n, by push_cast; rw [neg_mul, hn]⟩

theorem OnGrid.sub {f : ℕ} {p q : ℚ} (hp : OnGrid f p) (hq : OnGrid f q) : OnGrid f (p - q) := by
  rw [sub_eq_add_neg]
  exact hp.add hq.neg

theorem OnGrid.abs {f : ℕ} {q : ℚ} (h : OnGrid f q) : OnGrid f |q| := by
  rcases abs_choice q with hq | hq <;> rw [hq]
  · exact h
  · exact h.neg

theorem OnGrid.mul {f g : ℕ} {p q : ℚ} (hp : OnGrid f p) (hq : OnGrid g q) :
    OnGrid (f + g) (p * q) := by
  obtain ⟨m, hm⟩ := hp
  obtain ⟨n, hn⟩ := hq
  refine ⟨m * n, ?_⟩
  push_cast
  rw [← hm, ← hn, pow_add]
  ring

theorem onGrid_intCast (f : ℕ) (n : ℤ) : OnGrid f n := ⟨n * 10 ^ f, by push_cast; ring⟩

theorem onGrid_zero (f : ℕ) : OnGrid f 0 := by exact_mod_cast onGrid_intCast f 0

theorem onGrid_one (f : ℕ) : OnGrid f 1 := by exact_mod_cast onGrid_intCast f 1

theorem OnGrid.list_sum {f : ℕ} {l : List ℚ} (h : ∀ q ∈ l, OnGrid f q) : OnGrid f l.sum := by
  induction l with
  | nil => exact onGrid_zero f
  | cons q l ih =>
    rw [List.sum_cons]
    exact (h q (by simp)).add (ih fun p hp => h p (by simp [hp]))

theorem onGrid_toRat {f : ℕ} (h : -(f : ℤ) ≤ d.exponent) : OnGrid f d.toRat := by
  refine ⟨d.scaled (-f), ?_⟩
  rw [toRat_eq_scaled h, zpow_neg, zpow_natCast, mul_assoc, inv_mul_cancel₀ (by positivity), mul_one]

theorem representable_of_onGrid {prec f b : ℕ} {q : ℚ} (h : OnGrid f q) (hb : |q| < 10 ^ b)
    (hfb : f + b ≤ prec) : Representable prec q := by
  obtain ⟨n, hn⟩ := h
  have hq : q = n * (10 : ℚ) ^ (-(f : ℤ)) := by
    rw [← hn, zpow_neg, zpow_natCast, mul_assoc, mul_inv_cancel₀ (by positivity), mul_one]
  refine ⟨n, -f, ?_, hq⟩
  have hlt : |(n : ℚ)| < 10 ^ (f + b) := by
    rw [← hn, abs_mul, abs_of_pos (by positivity : (0 : ℚ) < 10 ^ f), pow_add, mul_comm]
    exact mul_lt_mul_of_pos_left hb (by positivity)
  have hint : |n| < 10 ^ (f + b) := by exact_mod_cast hlt
  exact hint.trans_le (pow_le_pow_right₀ (by norm_num) hfb)

theorem coefficient_lt {f b : ℕ} (he : -(f : ℤ) ≤ d.exponent)
    (hb : |d.toRat| < 10 ^ b) : d.coefficient < 10 ^ (f + b) := by
  have hpow : (10 : ℚ) ^ (-(f : ℤ)) ≤ 10 ^ d.exponent := zpow_le_zpow_right₀ (by norm_num) he
  have hle : (d.coefficient : ℚ) * 10 ^ (-(f : ℤ)) ≤ |d.toRat| := by
    rw [toRat, abs_mul, abs_of_pos (by positivity : (0 : ℚ) < 10 ^ d.exponent), ← Int.cast_abs,
      Int.abs_eq_natAbs, natAbs_int, Int.cast_natCast]
    exact mul_le_mul_of_nonneg_left hpow (by positivity)
  have hlt := hle.trans_lt hb
  rw [zpow_neg, zpow_natCast, ← div_eq_mul_inv, div_lt_iff₀ (by positivity), ← pow_add,
    Nat.add_comm] at hlt
  exact_mod_cast hlt

theorem round_eq_self {prec f b : ℕ} (hp : 0 < prec) (he : -(f : ℤ) ≤ d.exponent)
    (hb : |d.toRat| < 10 ^ b) (hfb : f + b ≤ prec) : round prec d = d :=
  round_of_lt_pow hp ((coefficient_lt he hb).trans_le (Nat.pow_le_pow_right (by norm_num) hfb))

/-- A multiple of `10^-f` below `10^b`: it needs `f + b` digits. -/
structure Fits (f b : ℕ) (q : ℚ) : Prop where
  onGrid : OnGrid f q
  lt : |q| < 10 ^ b

namespace Fits
variable {f g b c : ℕ} {p q : ℚ}

theorem representable {prec : ℕ} (h : Fits f b q) (hfb : f + b ≤ prec) : Representable prec q :=
  representable_of_onGrid h.onGrid h.lt hfb

theorem mono (h : Fits f b q) (hf : f ≤ g) (hb : b ≤ c) : Fits g c q :=
  ⟨h.onGrid.mono hf, h.lt.trans_le (pow_le_pow_right₀ (by norm_num) hb)⟩

theorem neg (h : Fits f b q) : Fits f b (-q) := ⟨h.onGrid.neg, by rw [abs_neg]; exact h.lt⟩

theorem abs (h : Fits f b q) : Fits f b |q| := ⟨h.onGrid.abs, by rw [abs_abs]; exact h.lt⟩

theorem mul (hp : Fits f b p) (hq : Fits g c q) : Fits (f + g) (b + c) (p * q) := by
  refine ⟨hp.onGrid.mul hq.onGrid, ?_⟩
  rw [abs_mul, pow_add]
  exact mul_lt_mul'' hp.lt hq.lt (abs_nonneg p) (abs_nonneg q)

theorem add (hp : Fits f b p) (hq : Fits f b q) : Fits f (b + 1) (p + q) := by
  refine ⟨hp.onGrid.add hq.onGrid, ?_⟩
  calc |p + q| ≤ |p| + |q| := abs_add_le p q
    _ < 10 ^ b + 10 ^ b := add_lt_add hp.lt hq.lt
    _ ≤ 10 ^ (b + 1) := by rw [pow_succ]; nlinarith [pow_pos (by norm_num : (0 : ℚ) < 10) b]

theorem sub (hp : Fits f b p) (hq : Fits f b q) : Fits f (b + 1) (p - q) := by
  rw [sub_eq_add_neg]
  exact hp.add hq.neg

end Fits

variable {prec : ℕ}

theorem toRat_add {b : Decimal} (hp : 0 < prec) (h : Representable prec (a.toRat + b.toRat)) :
    (add prec a b).toRat = a.toRat + b.toRat := by
  rw [add, toRat_round hp (by rwa [toRat_addExact]), toRat_addExact]

theorem toRat_sub {b : Decimal} (hp : 0 < prec) (h : Representable prec (a.toRat - b.toRat)) :
    (sub prec a b).toRat = a.toRat - b.toRat := by
  rw [sub_eq_add_neg, ← toRat_copyNegate] at h ⊢
  exact toRat_add hp h

theorem toRat_mul {b : Decimal} (hp : 0 < prec) (h : Representable prec (a.toRat * b.toRat)) :
    (mul prec a b).toRat = a.toRat * b.toRat := by
  rw [mul, toRat_round hp (by rwa [toRat_mulExact]), toRat_mulExact]

theorem toRat_neg (hp : 0 < prec) (h : Representable prec a.toRat) :
    (neg prec a).toRat = -a.toRat := by
  have hneg : Representable prec (-a.toRat) := by
    obtain ⟨n, e, hn, hq⟩ := h
    exact ⟨-n, e, by rwa [abs_neg], by rw [hq]; push_cast; ring⟩
  unfold neg
  split_ifs with h0
  · have hz := (toRat_eq_zero_iff a).mpr h0
    rw [toRat_round hp (by simpa [hz] using h), toRat_copyAbs, hz]
    simp
  · rw [toRat_round hp (by rwa [toRat_copyNegate]), toRat_copyNegate]

theorem toRat_absolute (hp : 0 < prec) (h : Representable prec |a.toRat|) :
    (absolute prec a).toRat = |a.toRat| := by
  rw [absolute, toRat_round hp (by rwa [toRat_copyAbs]), toRat_copyAbs]

end Decimal
