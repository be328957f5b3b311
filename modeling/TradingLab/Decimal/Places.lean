import TradingLab.Decimal.Numeral
import TradingLab.Decimal.Quotient
import TradingLab.Decimal.Sum

/-!
# Places

A numeral with at most `f` digits after the point, and no zeros left out before it.
As long as a sum of such numerals stays below `10^b`, where `f + b` digits fit the
context, it is exact and has as many places again. A text of a numeral with moderate
digits and exponent is read back.
-/

namespace Decimal

open List

structure Places (f : ℕ) (d : Decimal) : Prop where
  low : -(f : ℤ) ≤ d.exponent
  high : d.exponent ≤ 0

section Places
variable {prec f b : ℕ} {d e : Decimal}

theorem places_zero (f : ℕ) : Places f 0 := ⟨neg_nonpos.mpr (Int.natCast_nonneg f), le_rfl⟩

theorem exponent_addExact (d e : Decimal) : (addExact d e).exponent = min d.exponent e.exponent := by
  unfold addExact
  dsimp only
  split <;> rfl

theorem Places.copyNegate (h : Places f d) : Places f (copyNegate d) := ⟨h.low, h.high⟩

theorem Places.copyAbs (h : Places f d) : Places f (copyAbs d) := ⟨h.low, h.high⟩

theorem Places.round_eq (h : Places f d) (hp : 0 < prec) (hroom : f + b ≤ prec)
    (hlt : |d.toRat| < 10 ^ b) : round prec d = d :=
  round_eq_self hp h.low hlt hroom

theorem Places.add (hd : Places f d) (he : Places f e) (hp : 0 < prec) (hroom : f + b ≤ prec)
    (hlt : |d.toRat + e.toRat| < 10 ^ b) :
    (add prec d e).toRat = d.toRat + e.toRat ∧ Places f (Decimal.add prec d e) := by
  have hexact : Places f (addExact d e) := by
    constructor <;> rw [exponent_addExact]
    · exact le_min hd.low he.low
    · exact (min_le_left _ _).trans hd.high
  have hround : Decimal.add prec d e = addExact d e :=
    hexact.round_eq hp hroom (by rwa [toRat_addExact])
  rw [hround]
  exact ⟨toRat_addExact d e, hexact⟩

theorem Places.sub (hd : Places f d) (he : Places f e) (hp : 0 < prec) (hroom : f + b ≤ prec)
    (hlt : |d.toRat - e.toRat| < 10 ^ b) :
    (sub prec d e).toRat = d.toRat - e.toRat ∧ Places f (Decimal.sub prec d e) := by
  rw [sub_eq_add_neg, ← toRat_copyNegate] at hlt ⊢
  exact hd.add he.copyNegate hp hroom hlt

theorem Places.neg (hd : Places f d) (hp : 0 < prec) (hroom : f + b ≤ prec)
    (hlt : |d.toRat| < 10 ^ b) :
    (neg prec d).toRat = -d.toRat ∧ Places f (Decimal.neg prec d) := by
  have hrep : Representable prec d.toRat := representable_of_onGrid (onGrid_toRat hd.low) hlt hroom
  refine ⟨toRat_neg hp hrep, ?_⟩
  unfold Decimal.neg
  split
  · rw [hd.copyAbs.round_eq hp hroom (by rwa [toRat_copyAbs, abs_abs])]
    exact hd.copyAbs
  · rw [hd.copyNegate.round_eq hp hroom (by rwa [toRat_copyNegate, abs_neg])]
    exact hd.copyNegate

def magnitude (ds : List Decimal) : ℚ := (ds.map fun d => |d.toRat|).sum

theorem sum_abs_toRat (ds : List Decimal) : ((ds.map toRat).map abs).sum = magnitude ds := by
  rw [map_map]
  rfl

theorem abs_sum_le_magnitude (ds : List Decimal) : |(ds.map toRat).sum| ≤ magnitude ds := by
  induction ds with
  | nil => simp [magnitude]
  | cons d ds ih =>
    rw [map_cons, sum_cons, magnitude, map_cons, sum_cons]
    exact (abs_add_le _ _).trans (add_le_add_right ih _)

theorem magnitude_concat (ds : List Decimal) (d : Decimal) :
    magnitude (ds ++ [d]) = magnitude ds + |d.toRat| := by
  simp [magnitude]

theorem sum_of_places {ds : List Decimal} (hds : ∀ d ∈ ds, Places f d) (hp : 0 < prec)
    (hroom : f + b ≤ prec) (hlt : magnitude ds < 10 ^ b) :
    (sum prec ds).toRat = (ds.map toRat).sum ∧ Places f (sum prec ds) := by
  induction ds using reverseRecOn with
  | nil => exact ⟨toRat_zero, places_zero f⟩
  | append_singleton ds d ih =>
    have hle : magnitude ds ≤ magnitude (ds ++ [d]) := by
      rw [magnitude_concat]
      exact le_add_of_nonneg_right (abs_nonneg _)
    obtain ⟨hvalue, hplaces⟩ := ih (fun e he => hds e (mem_append_left _ he)) (hle.trans_lt hlt)
    have htotal : ((ds ++ [d]).map toRat).sum = (sum prec ds).toRat + d.toRat := by
      rw [map_append, sum_append, map_singleton, sum_singleton, hvalue]
    have hsum := (abs_sum_le_magnitude (ds ++ [d])).trans_lt hlt
    rw [htotal] at hsum ⊢
    rw [sum_append_singleton]
    exact hplaces.add (hds d (mem_append_right _ mem_cons_self)) hp hroom hsum

end Places

theorem signedText_fixed {w f : ℕ} {d : Decimal} (hw : 0 < w) (he : d.exponent ≤ 0)
    (hc : d.coefficient < 10 ^ (w + (-d.exponent).toNat)) (hf : -d.exponent ≤ f) :
    signedText w f d.fixed = true := by
  have hplain : plainChars w f (fixedChars d.coefficient d.exponent) = true :=
    (plainChars_fixedChars hw he).mpr ⟨hc, hf⟩
  have hhead := head_fixedChars d.coefficient d.exponent
  unfold signedText fixed
  rw [String.toList_ofList]
  cases d.negative with
  | true => exact hplain
  | false =>
    simp only [Bool.false_eq_true, if_false]
    split
    · rename_i cs heq
      rw [heq] at hhead
      exact (hhead rfl).elim
    · exact hplain

/-- A number written out has room for its digits. -/
theorem room_fixedChars (c : ℕ) {e : ℤ} (he : e ≤ 0) : 0 < (fixedChars c e).length ∧
    -e ≤ (fixedChars c e).length ∧ c < 10 ^ ((fixedChars c e).length + (-e).toNat) := by
  have hdigits : ∀ n : ℕ, 0 < (Nat.toDigits 10 n).length ∧ n < 10 ^ (Nat.toDigits 10 n).length :=
    fun n => ⟨Nat.length_toDigits_pos, (length_toDigits_le Nat.length_toDigits_pos).mp le_rfl⟩
  rcases he.lt_or_eq with hneg | rfl
  · have hk : 0 < (-e).toNat := by omega
    have hlt : c % 10 ^ (-e).toNat < 10 ^ (-e).toNat := Nat.mod_lt _ (by positivity)
    have hlength : (fixedChars c e).length =
        (Nat.toDigits 10 (c / 10 ^ (-e).toNat)).length + ((-e).toNat + 1) := by
      rw [fixedChars, if_neg (by omega), length_append, length_cons,
        length_paddedChars hk hlt]
    have hwhole : c < 10 ^ ((Nat.toDigits 10 (c / 10 ^ (-e).toNat)).length + (-e).toNat) := by
      rw [pow_add]
      exact Nat.lt_mul_of_div_lt (hdigits _).2 (by positivity)
    refine ⟨by omega, by omega, hwhole.trans_le (Nat.pow_le_pow_right (by norm_num) (by omega))⟩
  · have hchars : fixedChars c 0 = Nat.toDigits 10 c := by simp [fixedChars]
    rw [hchars]
    exact ⟨(hdigits c).1, by simp, (hdigits c).2⟩

theorem Numeral.ofString_fixed_of_nonpos {d : Decimal} (he : d.exponent ≤ 0)
    (hmax : adjusted d ≤ maxEmax) (hmin : minEtiny ≤ d.exponent) :
    Numeral.ofString d.fixed = some (.finite d) := by
  have htext : signedText (digits d.coefficient) (-d.exponent).toNat d.fixed = true := by
    refine signedText_fixed (Nat.succ_pos _) he ?_ (by omega)
    exact (lt_pow_digits d.coefficient).trans_le (Nat.pow_le_pow_right (by norm_num) (by omega))
  have hread := Numeral.ofString_of_signedText (Nat.succ_pos _) htext
  rw [ofText_fixed he] at hread
  exact hread hmax hmin

structure Moderate (n : ℕ) (d : Decimal) : Prop where
  low : -(n : ℤ) ≤ d.exponent
  high : d.exponent ≤ n
  digits : digits d.coefficient ≤ n

theorem Moderate.mono {m n : ℕ} {d : Decimal} (h : Moderate m d) (hmn : m ≤ n) : Moderate n d :=
  ⟨by have := h.low; omega, by have := h.high; omega, h.digits.trans hmn⟩

theorem digits_mul_pow_le (c k : ℕ) : digits (c * 10 ^ k) ≤ digits c + k := by
  refine digits_le_of_lt_pow ?_ (Nat.add_pos_left (Nat.succ_pos _) k)
  rw [pow_add]
  exact Nat.mul_lt_mul_of_pos_right (lt_pow_digits c) (by positivity)

theorem Moderate.round {prec n : ℕ} {d : Decimal} (h : Moderate n d) (hp : 0 < prec) :
    Moderate (n + n) (round prec d) := by
  have hlow := h.low
  have hhigh := h.high
  have hdigits := h.digits
  have hkept : Decimal.digits (Decimal.round prec d).coefficient ≤ prec :=
    digits_le_of_lt_pow (coefficient_round_lt hp d) hp
  unfold Decimal.round at hkept ⊢
  dsimp only at hkept ⊢
  split_ifs at hkept ⊢ with hfits
  · exact h.mono (Nat.le_add_left n n)
  · exact ⟨by dsimp only; omega, by dsimp only; omega, by dsimp only at hkept ⊢; omega⟩
  · exact ⟨by dsimp only; omega, by dsimp only; omega, by dsimp only at hkept ⊢; omega⟩

theorem stripZeros_bounds (k c : ℕ) (e : ℤ) : (stripZeros k c e).1 ≤ c ∧
    e ≤ (stripZeros k c e).2 ∧ (stripZeros k c e).2 ≤ e + k := by
  induction k generalizing c e with
  | zero => exact ⟨le_rfl, le_rfl, by simp [stripZeros]⟩
  | succ k ih =>
    unfold stripZeros
    split
    · obtain ⟨hc, hlow, hhigh⟩ := ih (c / 10) (e + 1)
      exact ⟨hc.trans (Nat.div_le_self c 10), by omega, by push_cast; omega⟩
    · exact ⟨le_rfl, le_rfl, by dsimp only; omega⟩

/-- A quotient of moderate numerals is moderate. -/
theorem Moderate.quotient {prec n : ℕ} {a b : Decimal} (ha : Moderate n a) (hb : Moderate n b)
    (hp : 0 < prec) (hprec : prec ≤ n) : Moderate (8 * n + 8) (quotient prec a b) := by
  have hashift : -(n : ℤ) ≤ quotientShift prec a b ∧ quotientShift prec a b ≤ 2 * n + 1 := by
    have := ha.digits
    have := hb.digits
    unfold quotientShift
    omega
  have hnum : quotientNum prec a b < 10 ^ (n + (quotientShift prec a b).toNat) := by
    unfold quotientNum
    rw [pow_add]
    exact Nat.mul_lt_mul_of_pos_right ((lt_pow_digits _).trans_le
      (Nat.pow_le_pow_right (by norm_num) ha.digits)) (by positivity)
  have hc : quotientNum prec a b / quotientDen prec a b + 1 ≤ 10 ^ (3 * n + 1) :=
    ((Nat.div_le_self _ _).trans_lt hnum).trans_le (Nat.pow_le_pow_right (by norm_num) (by omega))
  have hdigits : ∀ c, c ≤ quotientNum prec a b / quotientDen prec a b + 1 →
      Decimal.digits c ≤ 3 * n + 2 := by
    intro c hle
    refine digits_le_of_lt_pow ((hle.trans hc).trans_lt ?_) (by omega)
    exact Nat.pow_lt_pow_right (by norm_num) (by omega)
  have hexact := stripZeros_bounds (quotientShift prec a b).toNat
    (quotientNum prec a b / quotientDen prec a b) (a.exponent - b.exponent - quotientShift prec a b)
  have := ha.low
  have := ha.high
  have := hb.low
  have := hb.high
  have hgrow : 4 * n + 4 + (4 * n + 4) = 8 * n + 8 := by omega
  rw [← hgrow]
  unfold Decimal.quotient
  dsimp only
  split_ifs
  · refine Moderate.round ⟨by dsimp only; omega, by dsimp only; omega, ?_⟩ hp
    have hzero := hdigits 0 (Nat.zero_le _)
    dsimp only
    omega
  · refine Moderate.round ⟨by dsimp only; omega, by dsimp only; omega, ?_⟩ hp
    have hstripped := hdigits _ (hexact.1.trans (Nat.le_succ _))
    dsimp only
    omega
  · refine Moderate.round ⟨by dsimp only; omega, by dsimp only; omega, ?_⟩ hp
    have hnext := hdigits _ le_rfl
    dsimp only
    omega
  · refine Moderate.round ⟨by dsimp only; omega, by dsimp only; omega, ?_⟩ hp
    have hcut := hdigits _ (Nat.le_succ _)
    dsimp only
    omega

/-- The text of a moderate numeral is read as its value. -/
theorem Numeral.ofString_fixed {n : ℕ} {d : Decimal} (h : Moderate n d) (hn : n ≤ 1000000000) :
    ∃ d', Numeral.ofString d.fixed = some (.finite d') ∧ d'.toRat = d.toRat := by
  have hlow := h.low
  have hhigh := h.high
  have hdigits := h.digits
  rcases le_or_gt d.exponent 0 with he | he
  · refine ⟨d, Numeral.ofString_fixed_of_nonpos he ?_ ?_, rfl⟩
    · unfold adjusted maxEmax
      omega
    · unfold minEtiny
      omega
  · obtain ⟨negative, c, e⟩ := d
    dsimp only at he hlow hhigh hdigits
    have hfixed : (⟨negative, c, e⟩ : Decimal).fixed =
        (⟨negative, c * 10 ^ e.toNat, 0⟩ : Decimal).fixed := by
      unfold fixed fixedChars
      simp [he.le]
    have hshift := toRat_shift negative c e.toNat 0
    rw [show (0 : ℤ) + (e.toNat : ℤ) = e by omega] at hshift
    have hgrown := digits_mul_pow_le c e.toNat
    refine ⟨⟨negative, c * 10 ^ e.toNat, 0⟩, ?_, hshift.symm⟩
    rw [hfixed]
    refine Numeral.ofString_fixed_of_nonpos le_rfl ?_ ?_
    · unfold adjusted maxEmax
      dsimp only
      omega
    · unfold minEtiny
      dsimp only
      omega

end Decimal
