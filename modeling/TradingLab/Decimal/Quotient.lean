import TradingLab.Decimal.Exact
import TradingLab.Decimal.Monotone
import Mathlib.Data.Nat.Cast.Field
import Mathlib.Algebra.Order.Floor.Semifield
import Mathlib.Data.Rat.Floor

/-!
# Division in a context

The dividend is shifted so that the integer quotient has more digits than the
context keeps. An inexact quotient is kept off multiples of five, so that the
final rounding sees on which side it lies; an exact one is brought as close to
the ideal exponent as its trailing zeros allow.
-/

namespace Decimal

/-- Drop at most `k` trailing zeros. -/
def stripZeros : ℕ → ℕ → ℤ → ℕ × ℤ
  | 0, c, e => (c, e)
  | k + 1, c, e => if c % 10 = 0 then stripZeros k (c / 10) (e + 1) else (c, e)

def quotientShift (prec : ℕ) (a b : Decimal) : ℤ :=
  digits b.coefficient - digits a.coefficient + prec + 1

def quotientNum (prec : ℕ) (a b : Decimal) : ℕ :=
  a.coefficient * 10 ^ (quotientShift prec a b).toNat

def quotientDen (prec : ℕ) (a b : Decimal) : ℕ :=
  b.coefficient * 10 ^ (-quotientShift prec a b).toNat

/-- The quotient by a non-zero divisor. -/
def quotient (prec : ℕ) (a b : Decimal) : Decimal :=
  let negative := a.negative ^^ b.negative
  let ideal := a.exponent - b.exponent
  if a.coefficient = 0 then round prec ⟨negative, 0, ideal⟩ else
    let shift := quotientShift prec a b
    let num := quotientNum prec a b
    let den := quotientDen prec a b
    let c := num / den
    if num % den = 0 then
      let r := stripZeros shift.toNat c (ideal - shift)
      round prec ⟨negative, r.1, r.2⟩
    else round prec ⟨negative, if c % 5 = 0 then c + 1 else c, ideal - shift⟩

def div? (prec : ℕ) (a b : Decimal) : Option Decimal :=
  if b.coefficient = 0 then none else some (quotient prec a b)

theorem stripZeros_value (k c : ℕ) (e : ℤ) :
    ((stripZeros k c e).1 : ℚ) * 10 ^ (stripZeros k c e).2 = c * 10 ^ e := by
  induction k generalizing c e with
  | zero => rfl
  | succ k ih =>
    unfold stripZeros
    split
    · rename_i h
      have hc : ((c / 10 : ℕ) : ℚ) * 10 = c := by
        exact_mod_cast Nat.div_mul_cancel (Nat.dvd_of_mod_eq_zero h)
      rw [ih, zpow_add₀ (by norm_num), zpow_one, ← hc]
      ring
    · rfl

theorem pow_le_quotientNum {prec : ℕ} {a b : Decimal} (ha : a.coefficient ≠ 0) :
    10 ^ prec * quotientDen prec a b ≤ quotientNum prec a b := by
  have hb := lt_pow_digits b.coefficient
  have hlow : 10 ^ (digits a.coefficient - 1) ≤ a.coefficient := by
    have := Nat.pow_log_le_self 10 ha
    simpa [digits] using this
  have hda : 0 < digits a.coefficient := Nat.succ_pos _
  set s := quotientShift prec a b with hs
  have hexp : prec + (digits b.coefficient + (-s).toNat) = (digits a.coefficient - 1) + s.toNat := by
    unfold quotientShift at hs
    omega
  calc 10 ^ prec * quotientDen prec a b
      ≤ 10 ^ prec * (10 ^ digits b.coefficient * 10 ^ (-s).toNat) := by
        unfold quotientDen
        gcongr
    _ = 10 ^ (digits a.coefficient - 1) * 10 ^ s.toNat := by
        rw [← pow_add, ← pow_add, ← pow_add, hexp]
    _ ≤ quotientNum prec a b := Nat.mul_le_mul_right _ hlow

theorem toRat_mk (negative : Bool) (c : ℕ) (e : ℤ) :
    (⟨negative, c, e⟩ : Decimal).toRat = (if negative then -1 else 1) * (c * (10 : ℚ) ^ e) := by
  unfold toRat int
  cases negative <;> simp

theorem toRat_div_toRat (a b : Decimal) :
    a.toRat / b.toRat = (if a.negative ^^ b.negative then -1 else 1) *
      ((a.coefficient : ℚ) / b.coefficient * 10 ^ (a.exponent - b.exponent)) := by
  have ha : a.toRat = (if a.negative then -1 else 1) * (a.coefficient * (10 : ℚ) ^ a.exponent) :=
    toRat_mk a.negative a.coefficient a.exponent
  have hb : b.toRat = (if b.negative then -1 else 1) * (b.coefficient * (10 : ℚ) ^ b.exponent) :=
    toRat_mk b.negative b.coefficient b.exponent
  rw [ha, hb, zpow_sub₀ (by norm_num)]
  cases a.negative <;> cases b.negative <;> simp <;> ring

theorem quotientNum_div (prec : ℕ) (a b : Decimal) :
    ((quotientNum prec a b : ℚ) / quotientDen prec a b) * 10 ^ (-quotientShift prec a b) =
      (a.coefficient : ℚ) / b.coefficient := by
  set s := quotientShift prec a b with hs
  have hz : (10 : ℚ) ^ (-s) = 10 ^ (-s).toNat / 10 ^ s.toNat := by
    rw [← zpow_natCast, ← zpow_natCast, ← zpow_sub₀ (by norm_num)]
    congr 1
    omega
  rw [hz, quotientNum, quotientDen, ← hs]
  push_cast
  field_simp

/-- A representable quotient leaves no remainder. -/
theorem quotient_remainder {prec : ℕ} {a b : Decimal} (ha : a.coefficient ≠ 0)
    (hb : b.coefficient ≠ 0) (h : Representable prec (a.toRat / b.toRat)) :
    quotientNum prec a b % quotientDen prec a b = 0 := by
  obtain ⟨n, e, hn, hq⟩ := h
  set num := quotientNum prec a b
  set den := quotientDen prec a b
  set s := quotientShift prec a b
  have hden : (0 : ℚ) < den := by
    have : 0 < den := Nat.mul_pos (Nat.pos_of_ne_zero hb) (by positivity)
    exact_mod_cast this
  have hlow : (10 : ℚ) ^ prec ≤ num / den := by
    rw [le_div_iff₀ hden]
    exact_mod_cast pow_le_quotientNum ha
  -- the magnitude of the exact quotient, once as a fraction and once as `n * 10^e`
  have hval : (num : ℚ) / den * 10 ^ (a.exponent - b.exponent - s) = n.natAbs * 10 ^ e := by
    have habs := congrArg (fun q : ℚ => |q|) hq
    rw [toRat_div_toRat] at habs
    simp only [abs_mul] at habs
    rw [← quotientNum_div prec a b] at habs
    have hsign : |(if (a.negative ^^ b.negative) = true then (-1 : ℚ) else 1)| = 1 := by
      split <;> simp
    have hfrac : (0 : ℚ) ≤ (quotientNum prec a b : ℚ) / quotientDen prec a b := by positivity
    rw [hsign, one_mul, abs_mul, abs_of_nonneg hfrac, abs_of_pos (by positivity : (0 : ℚ) < 10 ^ (-s)),
      abs_of_pos (by positivity : (0 : ℚ) < 10 ^ (a.exponent - b.exponent)),
      abs_of_pos (by positivity : (0 : ℚ) < 10 ^ e), ← Int.cast_abs, Int.abs_eq_natAbs,
      Int.cast_natCast] at habs
    rw [← habs, mul_assoc, ← zpow_add₀ (by norm_num)]
    congr 2
    omega
  have hnq : (n.natAbs : ℚ) < 10 ^ prec := by
    rw [Int.abs_eq_natAbs] at hn
    exact_mod_cast hn
  have he : a.exponent - b.exponent - s < e := by
    by_contra hle
    have h10 : (10 : ℚ) ^ e ≤ 10 ^ (a.exponent - b.exponent - s) :=
      zpow_le_zpow_right₀ (by norm_num) (by omega)
    have hpos : (0 : ℚ) < 10 ^ e := by positivity
    nlinarith
  obtain ⟨j, hj⟩ : ∃ j : ℕ, e = (a.exponent - b.exponent - s) + j :=
    ⟨(e - (a.exponent - b.exponent - s)).toNat, by omega⟩
  rw [hj, zpow_add₀ (by norm_num), zpow_natCast, mul_comm (10 ^ _) ((10 : ℚ) ^ j), ← mul_assoc] at hval
  have hint := mul_right_cancel₀ (by positivity : (10 : ℚ) ^ (a.exponent - b.exponent - s) ≠ 0) hval
  rw [div_eq_iff hden.ne'] at hint
  have hnat : num = n.natAbs * 10 ^ j * den := by exact_mod_cast hint
  rw [hnat]
  exact Nat.mul_mod_left _ _

theorem toRat_quotient {prec : ℕ} {a b : Decimal} (hp : 0 < prec) (hb : b.coefficient ≠ 0)
    (h : Representable prec (a.toRat / b.toRat)) :
    (quotient prec a b).toRat = a.toRat / b.toRat := by
  unfold quotient
  dsimp only
  split_ifs with ha hr h5
  · have hz : a.toRat = 0 := (toRat_eq_zero_iff a).mpr ha
    have hz' : (⟨a.negative ^^ b.negative, 0, a.exponent - b.exponent⟩ : Decimal).toRat = 0 :=
      (toRat_eq_zero_iff _).mpr rfl
    rw [round_of_lt_pow hp (by positivity), hz', hz, zero_div]
  · have hval : (⟨a.negative ^^ b.negative,
        (stripZeros (quotientShift prec a b).toNat (quotientNum prec a b / quotientDen prec a b)
          (a.exponent - b.exponent - quotientShift prec a b)).1,
        (stripZeros (quotientShift prec a b).toNat (quotientNum prec a b / quotientDen prec a b)
          (a.exponent - b.exponent - quotientShift prec a b)).2⟩ : Decimal).toRat =
        a.toRat / b.toRat := by
      rw [toRat_mk, stripZeros_value, toRat_div_toRat, ← quotientNum_div prec a b,
        Nat.cast_div (Nat.dvd_of_mod_eq_zero hr)]
      · rw [mul_assoc ((quotientNum prec a b : ℚ) / _), ← zpow_add₀ (by norm_num)]
        congr 3
        omega
      · have : 0 < quotientDen prec a b := Nat.mul_pos (Nat.pos_of_ne_zero hb) (by positivity)
        exact_mod_cast this.ne'
    rw [toRat_round hp (by rwa [hval]), hval]
  · exact (hr (quotient_remainder ha hb h)).elim
  · exact (hr (quotient_remainder ha hb h)).elim

example : quotient 256 ⟨false, 50, -1⟩ 10000 = ⟨false, 5, -4⟩ := by decide +kernel

/-!
## Chains of exact operations

A numeral holds a number when it denotes it exactly and the number is a multiple
of `10^-f` below `10^b`. Sums, differences and products of such numerals hold the
sum, the difference and the product as long as the digits fit the context.
-/

theorem Fits.div_tenThousand {f b : ℕ} {q : ℚ} (h : Fits f b q) : Fits (f + 4) b (q / 10000) := by
  constructor
  · obtain ⟨n, hn⟩ := h.onGrid
    exact ⟨n, by rw [← hn, pow_add]; ring⟩
  · rw [abs_div, abs_of_pos (by norm_num : (0 : ℚ) < 10000)]
    exact (div_le_self (abs_nonneg q) (by norm_num)).trans_lt h.lt

structure Holds (f b : ℕ) (d : Decimal) (q : ℚ) : Prop where
  value : d.toRat = q
  fits : Fits f b q

namespace Holds
variable {prec f g b c : ℕ} {d e : Decimal} {p q : ℚ}

theorem mono (h : Holds f b d p) (hf : f ≤ g) (hb : b ≤ c) : Holds g c d p :=
  ⟨h.value, h.fits.mono hf hb⟩

theorem mul (hp : 0 < prec) (hd : Holds f b d p) (he : Holds g c e q)
    (hroom : f + g + (b + c) ≤ prec) : Holds (f + g) (b + c) (mul prec d e) (p * q) := by
  have hfits := hd.fits.mul he.fits
  have hrep := hfits.representable hroom
  rw [← hd.value, ← he.value] at hrep
  exact ⟨by rw [toRat_mul hp hrep, hd.value, he.value], hfits⟩

theorem add (hp : 0 < prec) (hd : Holds f b d p) (he : Holds f b e q)
    (hroom : f + (b + 1) ≤ prec) : Holds f (b + 1) (add prec d e) (p + q) := by
  have hfits := hd.fits.add he.fits
  have hrep := hfits.representable hroom
  rw [← hd.value, ← he.value] at hrep
  exact ⟨by rw [toRat_add hp hrep, hd.value, he.value], hfits⟩

theorem sub (hp : 0 < prec) (hd : Holds f b d p) (he : Holds f b e q)
    (hroom : f + (b + 1) ≤ prec) : Holds f (b + 1) (sub prec d e) (p - q) := by
  have hfits := hd.fits.sub he.fits
  have hrep := hfits.representable hroom
  rw [← hd.value, ← he.value] at hrep
  exact ⟨by rw [toRat_sub hp hrep, hd.value, he.value], hfits⟩

theorem quotient (hp : 0 < prec) (hd : d.toRat = p) (he : e.toRat = q) (h0 : q ≠ 0)
    (hfits : Fits f b (p / q)) (hroom : f + b ≤ prec) :
    Holds f b (quotient prec d e) (p / q) := by
  have hne : e.coefficient ≠ 0 := by
    intro hzero
    exact h0 (by rw [← he, (toRat_eq_zero_iff e).mpr hzero])
  have hrep := hfits.representable hroom
  rw [← hd, ← he] at hrep
  exact ⟨by rw [toRat_quotient hp hne hrep, hd, he], hfits⟩

end Holds

end Decimal

/-!
## Division by a power of ten

Dividing by a power of ten moves the point and rounds. The digit by which an
inexact quotient is kept off multiples of five does not change where it is rounded.
-/

namespace Decimal

theorem toRat_round_congr {prec : ℕ} (hp : 0 < prec) {a b : Decimal} (h : a.toRat = b.toRat) :
    (round prec a).toRat = (round prec b).toRat :=
  le_antisymm (toRat_round_mono hp h.le) (toRat_round_mono hp h.ge)

def sticky (c : ℕ) : ℕ := if c % 5 = 0 then c + 1 else c

variable {c m r k f g : ℕ} {d : Decimal} {q p : ℚ}

/-- Rounding a quotient that is kept off multiples of five rounds the dividend. -/
theorem halfEven_sticky {t : ℕ} (ht : 0 < t) (hr : 0 < r) (hlt : r < 10 ^ m) :
    halfEven (sticky c) (10 * t) = halfEven (c * 10 ^ m + r) (10 ^ m * (10 * t)) := by
  have hpos : 0 < 10 ^ m := by positivity
  have hquot : (c * 10 ^ m + r) / 10 ^ m = c := by
    rw [Nat.mul_comm, Nat.mul_add_div hpos, Nat.div_eq_of_lt hlt, Nat.add_zero]
  have hrem : (c * 10 ^ m + r) % 10 ^ m = r := by
    rw [Nat.mul_comm, Nat.mul_add_mod, Nat.mod_eq_of_lt hlt]
  -- what is cut off, in tenths of the unit that is kept
  obtain ⟨a, b, hb, rfl⟩ : ∃ a b, b < 10 * t ∧ c = b + 10 * t * a :=
    ⟨c / (10 * t), c % (10 * t), Nat.mod_lt _ (by omega), (Nat.mod_add_div _ _).symm⟩
  have hdiv : (b + 10 * t * a) / (10 * t) = a := by
    rw [Nat.add_mul_div_left _ _ (by omega), Nat.div_eq_of_lt hb, Nat.zero_add]
  have hmod : ((b + 10 * t * a) * 10 ^ m + r) % (10 ^ m * (10 * t)) = r + b * 10 ^ m := by
    rw [Nat.mod_mul, hrem, hquot, Nat.add_mul_mod_self_left,
      Nat.mod_eq_of_lt hb, Nat.mul_comm]
  have hsticky : sticky (b + 10 * t * a) = sticky b + 10 * t * a := by
    have hfive : (b + 10 * t * a) % 5 = b % 5 := by
      rw [show b + 10 * t * a = b + 5 * (2 * t * a) by ring, Nat.add_mul_mod_self_left]
    unfold sticky
    rw [hfive]
    split_ifs <;> omega
  have hlow : sticky b < 10 * t ∧ (2 * sticky b < 10 * t ↔ 2 * b < 10 * t) ∧
      2 * sticky b ≠ 10 * t := by
    unfold sticky
    split_ifs <;> omega
  have hhalf : 2 * (r + b * 10 ^ m) ≠ 10 ^ m * (10 * t) ∧
      (2 * (r + b * 10 ^ m) < 10 ^ m * (10 * t) ↔ 2 * b < 10 * t) := by
    rcases Nat.lt_or_ge b (5 * t) with h | h
    · have hle : (b + 1) * 10 ^ m ≤ 5 * t * 10 ^ m := Nat.mul_le_mul_right _ h
      rw [Nat.add_mul, Nat.one_mul] at hle
      have hten : 10 ^ m * (10 * t) = 2 * (5 * t * 10 ^ m) := by ring
      omega
    · have hle : 5 * t * 10 ^ m ≤ b * 10 ^ m := Nat.mul_le_mul_right _ h
      have hten : 10 ^ m * (10 * t) = 2 * (5 * t * 10 ^ m) := by ring
      omega
  have hdiv' : ((b + 10 * t * a) * 10 ^ m + r) / (10 ^ m * (10 * t)) = a := by
    rw [← Nat.div_div_eq_div_mul, hquot, hdiv]
  have hstickyDiv : (sticky b + 10 * t * a) / (10 * t) = a := by
    rw [Nat.add_mul_div_left _ _ (by omega), Nat.div_eq_of_lt hlow.1, Nat.zero_add]
  have hstickyMod : (sticky b + 10 * t * a) % (10 * t) = sticky b := by
    rw [Nat.add_mul_mod_self_left, Nat.mod_eq_of_lt hlow.1]
  unfold halfEven
  rw [hsticky, hstickyDiv, hstickyMod, hdiv', hmod]
  obtain ⟨-, hiff, hne⟩ := hlow
  obtain ⟨hne', hiff'⟩ := hhalf
  generalize 10 ^ m * (10 * t) = q at *
  split_ifs <;> omega

theorem digits_pow_ten (k : ℕ) : digits (10 ^ k) = k + 1 := by
  rw [digits, Nat.log_pow (by norm_num)]

theorem digits_eq (hlow : 10 ^ k ≤ c) (hhigh : c < 10 ^ (k + 1)) : digits c = k + 1 := by
  have hc : c ≠ 0 := by
    have hpos : 0 < 10 ^ k := by positivity
    omega
  rw [digits, Nat.log_eq_of_pow_le_of_lt_pow hlow hhigh]

theorem digits_sticky (c : ℕ) : digits (sticky c) = digits c := by
  unfold sticky
  split_ifs with h
  · rcases Nat.eq_zero_or_pos c with rfl | hc
    · rfl
    · have hlow : 10 ^ (digits c - 1) ≤ c := by
        have := Nat.pow_log_le_self 10 hc.ne'
        simpa [digits] using this
      have hhigh := lt_pow_digits c
      have hd : digits c = (digits c - 1) + 1 := by simp [digits]
      have hfive : 10 ^ digits c % 5 = 0 := by
        rw [hd]
        exact Nat.mod_eq_zero_of_dvd ((by norm_num : 5 ∣ 10).trans (dvd_pow_self 10 (by omega)))
      rw [hd]
      refine digits_eq (by omega) ?_
      rw [← hd]
      omega
  · rfl

/-- Rounding a quotient rounds every longer quotient. -/
theorem kept_sticky {prec : ℕ} (hc : 10 ^ prec ≤ c) (hr : 0 < r)
    (hlt : r < 10 ^ m) : kept prec (sticky c) * 10 ^ m = kept prec (c * 10 ^ m + r) := by
  have hpos : 0 < c := lt_of_lt_of_le (by positivity) hc
  have hlow : 10 ^ (digits c - 1) ≤ c := by
    have := Nat.pow_log_le_self 10 hpos.ne'
    simpa [digits] using this
  have hdigits : digits (c * 10 ^ m + r) = digits c + m := by
    have hd : digits c + m = (digits c - 1 + m) + 1 := by
      have : 0 < digits c := Nat.succ_pos _
      omega
    have hhigh : (c + 1) * 10 ^ m ≤ 10 ^ digits c * 10 ^ m :=
      Nat.mul_le_mul_right _ (lt_pow_digits c)
    rw [hd]
    apply digits_eq
    · rw [pow_add]
      exact (Nat.mul_le_mul_right _ hlow).trans (Nat.le_add_right _ _)
    · rw [← hd, pow_add]
      rw [Nat.add_mul, Nat.one_mul] at hhigh
      omega
  have hmore : prec < digits c := by
    by_contra hle
    have hhigh := lt_pow_digits c
    have := Nat.pow_le_pow_right (by norm_num : 0 < 10) (Nat.not_lt.mp hle)
    omega
  obtain ⟨k, hk⟩ : ∃ k, digits c = prec + (k + 1) := ⟨digits c - prec - 1, by omega⟩
  rw [kept_of_lt_digits (by rwa [digits_sticky]), kept_of_lt_digits (by omega), digits_sticky,
    hdigits, hk, Nat.add_sub_cancel_left, show prec + (k + 1) + m - prec = k + 1 + m by omega,
    pow_succ', halfEven_sticky (by positivity) hr hlt,
    show (10 : ℕ) ^ (k + 1 + m) = 10 ^ m * (10 * 10 ^ k) by ring]
  ring

theorem toRat_quotient_of_remainder {prec : ℕ} {a b : Decimal} (hp : 0 < prec)
    (hb : b.coefficient ≠ 0) (hd : d.toRat = a.toRat / b.toRat)
    (hr : quotientNum prec a b % quotientDen prec a b = 0) :
    (quotient prec a b).toRat = (round prec d).toRat := by
  unfold quotient
  dsimp only
  split_ifs with ha
  · have hz : a.toRat = 0 := (toRat_eq_zero_iff a).mpr ha
    apply toRat_round_congr hp
    rw [hd, hz, zero_div]
    exact (toRat_eq_zero_iff _).mpr rfl
  · apply toRat_round_congr hp
    rw [hd, toRat_mk, stripZeros_value, toRat_div_toRat, ← quotientNum_div prec a b,
      Nat.cast_div (Nat.dvd_of_mod_eq_zero hr)]
    · rw [mul_assoc ((quotientNum prec a b : ℚ) / _), ← zpow_add₀ (by norm_num)]
      congr 3
      omega
    · have hden : 0 < quotientDen prec a b := Nat.mul_pos (Nat.pos_of_ne_zero hb) (by positivity)
      exact_mod_cast hden.ne'

/-- Dividing by a power of ten moves the point. -/
theorem toRat_quotient_pow {prec : ℕ} (hp : 0 < prec) (a : Decimal) (k : ℕ) :
    (quotient prec a ⟨false, 10 ^ k, 0⟩).toRat =
      (round prec ⟨a.negative, a.coefficient, a.exponent - k⟩).toRat := by
  have hb : (10 : ℕ) ^ k ≠ 0 := by positivity
  have hd : (⟨a.negative, a.coefficient, a.exponent - k⟩ : Decimal).toRat =
      a.toRat / (⟨false, 10 ^ k, 0⟩ : Decimal).toRat := by
    unfold toRat int
    simp only [Bool.false_eq_true, if_false, zpow_zero, mul_one]
    rw [zpow_sub₀ (by norm_num), zpow_natCast]
    push_cast
    ring
  by_cases hr : quotientNum prec a ⟨false, 10 ^ k, 0⟩ % quotientDen prec a ⟨false, 10 ^ k, 0⟩ = 0
  · exact toRat_quotient_of_remainder hp hb hd hr
  · have ha : a.coefficient ≠ 0 := by
      intro ha
      rw [quotientNum, ha, Nat.zero_mul, Nat.zero_mod] at hr
      exact hr rfl
    -- the quotient loses `m` digits of the dividend, and keeps two more than are rounded to
    obtain ⟨m, hm⟩ : ∃ m, digits a.coefficient = prec + 2 + m := by
      by_contra hno
      have hdigits : digits a.coefficient ≤ prec + 2 := by
        by_contra hlt
        exact hno ⟨digits a.coefficient - (prec + 2), by omega⟩
      apply hr
      apply Nat.mod_eq_zero_of_dvd
      unfold quotientNum quotientDen quotientShift
      dsimp only
      rw [digits_pow_ten]
      apply dvd_mul_of_dvd_right
      rw [← pow_add]
      apply pow_dvd_pow
      omega
    have hshift : quotientShift prec a ⟨false, 10 ^ k, 0⟩ = k - m := by
      unfold quotientShift
      dsimp only
      rw [digits_pow_ten, hm]
      push_cast
      ring
    have hden : quotientDen prec a ⟨false, 10 ^ k, 0⟩ = 10 ^ m * 10 ^ ((k : ℤ) - m).toNat := by
      unfold quotientDen
      dsimp only
      rw [hshift, ← pow_add, ← pow_add]
      congr 1
      omega
    have hnum : quotientNum prec a ⟨false, 10 ^ k, 0⟩ =
        a.coefficient * 10 ^ ((k : ℤ) - m).toNat := by
      rw [quotientNum, hshift]
    have hpos : 0 < 10 ^ ((k : ℤ) - m).toNat := by positivity
    have hc : quotientNum prec a ⟨false, 10 ^ k, 0⟩ / quotientDen prec a ⟨false, 10 ^ k, 0⟩ =
        a.coefficient / 10 ^ m := by
      rw [hnum, hden, Nat.mul_div_mul_right _ _ hpos]
    have hrest : 0 < a.coefficient % 10 ^ m := by
      apply Nat.pos_of_ne_zero
      intro hzero
      apply hr
      rw [hnum, hden, Nat.mul_mod_mul_right, hzero, Nat.zero_mul]
    have hquotient : quotient prec a ⟨false, 10 ^ k, 0⟩ = round prec
        ⟨a.negative, sticky (a.coefficient / 10 ^ m), a.exponent - (k - m)⟩ := by
      unfold quotient
      dsimp only
      rw [if_neg ha, if_neg hr, hc, hshift, Bool.xor_false, sub_zero]
      rfl
    have hmpos : 0 < 10 ^ m := by positivity
    have hlow : 10 ^ prec ≤ a.coefficient / 10 ^ m := by
      rw [Nat.le_div_iff_mul_le hmpos, ← pow_add]
      exact pow_le_of_lt_digits (by omega) (by omega)
    have hround := kept_sticky hlow hrest (Nat.mod_lt _ hmpos)
    rw [Nat.div_add_mod'] at hround
    rw [hquotient, toRat_round_kept hp, toRat_round_kept hp]
    dsimp only
    rw [show a.exponent - ((k : ℤ) - m) = a.exponent - k + m by ring, toRat_shift, hround]

/-!
## The order of a quotient

A representable number does not lie strictly between two neighbours of more digits than
the context keeps, so that a rounded quotient stays on its side of it.
-/

theorem Representable.le_or_le {prec : ℕ} {y : ℚ} (h : Representable prec y)
    (hc : 10 ^ prec ≤ c) (u : ℤ) :
    y ≤ c * (10 : ℚ) ^ u ∨ (c + 1 : ℕ) * (10 : ℚ) ^ u ≤ y := by
  obtain ⟨n, e, hn, rfl⟩ := h
  have hu : (0 : ℚ) < 10 ^ u := by positivity
  rcases le_or_gt e u with he | he
  · left
    have hpow : (10 : ℚ) ^ e ≤ 10 ^ u := zpow_le_zpow_right₀ (by norm_num) he
    have hle : (n : ℚ) ≤ c := by
      have hnc : n ≤ c := (le_abs_self n).trans (hn.le.trans (by exact_mod_cast hc))
      exact_mod_cast hnc
    calc (n : ℚ) * 10 ^ e ≤ c * 10 ^ e := by gcongr
      _ ≤ c * 10 ^ u := by gcongr
  · obtain ⟨j, hj⟩ : ∃ j : ℕ, e = u + j := ⟨(e - u).toNat, by omega⟩
    have hvalue : (n : ℚ) * 10 ^ e = ((n * 10 ^ j : ℤ) : ℚ) * 10 ^ u := by
      rw [hj, zpow_add₀ (by norm_num), zpow_natCast]
      push_cast
      ring
    rw [hvalue]
    rcases le_or_gt (n * 10 ^ j) (c : ℤ) with hle | hlt
    · left
      gcongr
      exact_mod_cast hle
    · right
      gcongr
      exact_mod_cast hlt

theorem Representable.exists_round {prec : ℕ} (hp : 0 < prec) (h : Representable prec q) :
    ∃ d : Decimal, d.toRat = q ∧ (round prec d).toRat = q := by
  obtain ⟨n, e, hn, rfl⟩ := h
  have hvalue : (ofInt n e).toRat = n * (10 : ℚ) ^ e := toRat_ofInt n e
  refine ⟨ofInt n e, hvalue, ?_⟩
  rw [toRat_round hp ⟨n, e, hn, hvalue⟩, hvalue]

/-- What is rounded for a quotient lies on the same side of every representable number. -/
theorem exists_round_quotient {prec : ℕ} {a b : Decimal} (hp : 0 < prec) (ha : 0 < a.toRat)
    (hb : 0 < b.toRat) :
    ∃ d : Decimal, (quotient prec a b).toRat = (round prec d).toRat ∧
      ∀ y, Representable prec y →
        (a.toRat / b.toRat ≤ y → d.toRat ≤ y) ∧ (y ≤ a.toRat / b.toRat → y ≤ d.toRat) := by
  have hac := ((toRat_pos_iff a).mp ha).2
  have hbc := ((toRat_pos_iff b).mp hb).2
  have hsign : (a.negative ^^ b.negative) = false := by
    rw [((toRat_pos_iff a).mp ha).1, ((toRat_pos_iff b).mp hb).1]
    rfl
  have hden : (0 : ℚ) < quotientDen prec a b := by
    have hpos : 0 < quotientDen prec a b := Nat.mul_pos (Nat.pos_of_ne_zero hbc) (by positivity)
    exact_mod_cast hpos
  set u := a.exponent - b.exponent - quotientShift prec a b with hu
  have hvalue : a.toRat / b.toRat = (quotientNum prec a b : ℚ) / quotientDen prec a b * 10 ^ u := by
    rw [toRat_div_toRat, hsign, if_neg Bool.false_ne_true, one_mul, ← quotientNum_div prec a b,
      mul_assoc, ← zpow_add₀ (by norm_num)]
    congr 2
    omega
  by_cases hr : quotientNum prec a b % quotientDen prec a b = 0
  · have hd : (⟨false, quotientNum prec a b / quotientDen prec a b, u⟩ : Decimal).toRat =
        a.toRat / b.toRat := by
      rw [toRat_mk, if_neg Bool.false_ne_true, one_mul, hvalue,
        Nat.cast_div (Nat.dvd_of_mod_eq_zero hr) hden.ne']
    exact ⟨_, toRat_quotient_of_remainder hp hbc hd hr, fun y _ => by rw [hd]; exact ⟨id, id⟩⟩
  · set c := quotientNum prec a b / quotientDen prec a b with hc
    have hlow : (c : ℚ) * 10 ^ u < a.toRat / b.toRat := by
      rw [hvalue]
      gcongr
      rw [lt_div_iff₀ hden]
      have hdiv := Nat.div_add_mod' (quotientNum prec a b) (quotientDen prec a b)
      have hlt : c * quotientDen prec a b < quotientNum prec a b := by
        rw [← hc] at hdiv
        have hpos := Nat.pos_of_ne_zero hr
        omega
      exact_mod_cast hlt
    have hhigh : a.toRat / b.toRat < (c + 1 : ℕ) * 10 ^ u := by
      rw [hvalue]
      gcongr
      rw [div_lt_iff₀ hden]
      have hpos : 0 < quotientDen prec a b := by exact_mod_cast hden
      have hlt := Nat.lt_mul_div_succ (quotientNum prec a b) hpos
      rw [← hc, mul_comm] at hlt
      exact_mod_cast hlt
    have hdigits : 10 ^ prec ≤ c := by
      rw [hc, Nat.le_div_iff_mul_le (by exact_mod_cast hden)]
      exact pow_le_quotientNum hac
    have hsticky : c ≤ sticky c ∧ sticky c ≤ c + 1 := by
      unfold sticky
      split_ifs <;> omega
    have hd : (⟨false, sticky c, u⟩ : Decimal).toRat = sticky c * 10 ^ u := by
      rw [toRat_mk, if_neg Bool.false_ne_true, one_mul]
    have hcut : (c : ℚ) * 10 ^ u ≤ sticky c * 10 ^ u := by
      gcongr
      exact hsticky.1
    have hnext : (sticky c : ℚ) * 10 ^ u ≤ (c + 1 : ℕ) * 10 ^ u := by
      gcongr
      exact hsticky.2
    refine ⟨⟨false, sticky c, u⟩, ?_, fun y hy => ?_⟩
    · unfold quotient
      dsimp only
      rw [if_neg hac, if_neg hr, hsign]
      rfl
    · rw [hd]
      rcases hy.le_or_le hdigits u with hle | hle
      · exact ⟨fun h => by linarith, fun _ => by linarith⟩
      · exact ⟨fun _ => by linarith, fun h => by linarith⟩

section Order
variable {prec : ℕ} {a b : Decimal} {y : ℚ} (hp : 0 < prec) (ha : 0 < a.toRat) (hb : 0 < b.toRat)
  (hy : Representable prec y)
include hp ha hb hy

theorem quotient_le (h : a.toRat / b.toRat ≤ y) : (quotient prec a b).toRat ≤ y := by
  obtain ⟨d, hround, hside⟩ := exists_round_quotient hp ha hb
  obtain ⟨z, rfl, hz⟩ := hy.exists_round hp
  rw [hround, ← hz]
  exact toRat_round_mono hp ((hside _ hy).1 h)

theorem le_quotient (h : y ≤ a.toRat / b.toRat) : y ≤ (quotient prec a b).toRat := by
  obtain ⟨d, hround, hside⟩ := exists_round_quotient hp ha hb
  obtain ⟨z, rfl, hz⟩ := hy.exists_round hp
  rw [hround, ← hz]
  exact toRat_round_mono hp ((hside _ hy).2 h)

end Order

def stick (x : ℚ) : ℕ := if (⌊x⌋₊ : ℚ) = x then ⌊x⌋₊ else sticky ⌊x⌋₊

theorem stick_natCast (n : ℕ) : stick n = n := by simp [stick]

theorem stick_mono {x y : ℚ} (hx : 0 ≤ x) (h : x ≤ y) : stick x ≤ stick y := by
  have hfloor := Nat.floor_mono h
  have hle : ∀ c, c ≤ sticky c ∧ sticky c ≤ c + 1 := fun c => by
    unfold sticky
    split_ifs <;> omega
  unfold stick
  split_ifs with hxi hyi hyi
  · exact hfloor
  · exact hfloor.trans (hle _).1
  · -- a part was cut off `x` only, so `y` is the larger integer
    have hlt : ⌊x⌋₊ < ⌊y⌋₊ := by
      refine lt_of_le_of_ne hfloor fun heq => hxi (le_antisymm (Nat.floor_le hx) ?_)
      rw [heq, hyi]
      exact h
    exact (hle _).2.trans hlt
  · rcases hfloor.lt_or_eq with hlt | heq
    · exact (hle _).2.trans (hlt.trans_le (hle _).1)
    · rw [heq]

/-- Cutting off later cuts off a smaller part. -/
theorem stick_shift {num den : ℕ} (hden : 0 < den) (hr : num % den ≠ 0) (m : ℕ) :
    (m = 0 ∧ stick ((num * 10 ^ m : ℕ) / den) = sticky (num / den)) ∨
      ∃ r, 0 < r ∧ r < 10 ^ m ∧
        stick ((num * 10 ^ m : ℕ) / den) = num / den * 10 ^ m + r := by
  have hfloor : ⌊((num * 10 ^ m : ℕ) / den : ℚ)⌋₊ = num / den * 10 ^ m + num % den * 10 ^ m / den := by
    rw [Nat.floor_div_eq_div]
    conv_lhs => rw [← Nat.div_add_mod num den]
    rw [Nat.add_mul, Nat.mul_assoc, Nat.mul_add_div hden]
  have hlt : num % den * 10 ^ m / den < 10 ^ m := by
    rw [Nat.div_lt_iff_lt_mul hden, Nat.mul_comm]
    exact Nat.mul_lt_mul_of_pos_left (Nat.mod_lt _ hden) (by positivity)
  unfold stick
  rw [hfloor]
  split_ifs with hint
  · refine .inr ⟨_, Nat.pos_of_ne_zero fun hzero => ?_, hlt, rfl⟩
    rw [hzero, Nat.add_zero, eq_div_iff (by exact_mod_cast hden.ne')] at hint
    have hint : num / den * 10 ^ m * den = num * 10 ^ m := by exact_mod_cast hint
    have hdiv : num / den * den = num :=
      Nat.eq_of_mul_eq_mul_right (by positivity : 0 < 10 ^ m) (by rw [← hint]; ring)
    exact hr (Nat.mod_eq_zero_of_dvd (Dvd.intro_left _ hdiv))
  · cases m with
    | zero =>
      left
      have hzero : num % den * 10 ^ 0 / den = 0 := Nat.lt_one_iff.mp hlt
      rw [hzero, pow_zero, Nat.mul_one]
      exact ⟨rfl, rfl⟩
    | succ m =>
      right
      have hfive : ∀ r, (num / den * 10 ^ (m + 1) + r) % 5 = r % 5 := fun r => by
        rw [show num / den * 10 ^ (m + 1) + r = r + 5 * (num / den * (2 * 10 ^ m)) by ring,
          Nat.add_mul_mod_self_left]
      generalize num % den * 10 ^ (m + 1) / den = r at *
      have hten : (10 : ℕ) ^ (m + 1) = 5 * (2 * 10 ^ m) := by ring
      unfold sticky
      rw [hfive]
      split_ifs with h
      · exact ⟨r + 1, by omega, by omega, rfl⟩
      · exact ⟨r, by omega, hlt, rfl⟩

section Stick
variable {prec : ℕ} {a b : Decimal} (hp : 0 < prec) (ha : 0 < a.toRat) (hb : 0 < b.toRat)
include hp ha hb

/-- A quotient may be cut off anywhere behind the digits that division computes. -/
theorem toRat_quotient_stick {w : ℤ}
    (hw : w ≤ a.exponent - b.exponent - quotientShift prec a b) :
    (quotient prec a b).toRat =
      (round prec ⟨false, stick (a.toRat / b.toRat * 10 ^ (-w)), w⟩).toRat := by
  have hac := ((toRat_pos_iff a).mp ha).2
  have hbc := ((toRat_pos_iff b).mp hb).2
  have hsign : (a.negative ^^ b.negative) = false := by
    rw [((toRat_pos_iff a).mp ha).1, ((toRat_pos_iff b).mp hb).1]
    rfl
  obtain ⟨m, hm⟩ : ∃ m : ℕ, a.exponent - b.exponent - quotientShift prec a b = w + m :=
    ⟨(a.exponent - b.exponent - quotientShift prec a b - w).toNat, by omega⟩
  set num := quotientNum prec a b
  set den := quotientDen prec a b
  have hden : 0 < den := Nat.mul_pos (Nat.pos_of_ne_zero hbc) (by positivity)
  have hvalue : a.toRat / b.toRat * 10 ^ (-w) = (num * 10 ^ m : ℕ) / den := by
    rw [toRat_div_toRat, hsign, if_neg Bool.false_ne_true, one_mul, ← quotientNum_div prec a b,
      mul_assoc, mul_assoc, ← zpow_add₀ (by norm_num), ← zpow_add₀ (by norm_num),
      show -quotientShift prec a b + (a.exponent - b.exponent + -w) = m by omega, zpow_natCast]
    push_cast
    ring
  rw [hvalue]
  by_cases hr : num % den = 0
  · obtain ⟨c, hc⟩ := Nat.dvd_of_mod_eq_zero hr
    have hexact : ((num * 10 ^ m : ℕ) / den : ℚ) = (c * 10 ^ m : ℕ) := by
      rw [div_eq_iff (by exact_mod_cast hden.ne'), hc]
      push_cast
      ring
    rw [hexact, stick_natCast]
    apply toRat_quotient_of_remainder hp hbc _ hr
    rw [toRat_mk, if_neg Bool.false_ne_true, one_mul, ← hexact, ← hvalue, mul_assoc,
      ← zpow_add₀ (by norm_num), neg_add_cancel, zpow_zero, mul_one]
  · set c := num / den with hc
    have hlow : 10 ^ prec ≤ c := by
      rw [hc, Nat.le_div_iff_mul_le hden]
      exact pow_le_quotientNum hac
    have hquotient : quotient prec a b = round prec ⟨false, sticky c, w + m⟩ := by
      unfold quotient
      dsimp only
      rw [if_neg hac, if_neg hr, hsign, hm]
      rfl
    rw [hquotient, toRat_round_kept hp, toRat_round_kept hp, toRat_shift]
    dsimp only
    rcases stick_shift hden hr m with ⟨rfl, hstick⟩ | ⟨r, hpos, hlt, hstick⟩
    · rw [hstick, pow_zero, Nat.mul_one]
    · rw [hstick, kept_sticky hlow hpos hlt]

end Stick

theorem quotient_eq_round (prec : ℕ) (a b : Decimal) :
    ∃ c e, quotient prec a b = round prec ⟨a.negative ^^ b.negative, c, e⟩ := by
  unfold quotient
  dsimp only
  split_ifs <;> exact ⟨_, _, rfl⟩

theorem quotient_nonpos {prec : ℕ} {a b : Decimal} (hp : 0 < prec) (ha : a.toRat ≤ 0)
    (hb : 0 < b.toRat) : (quotient prec a b).toRat ≤ 0 := by
  have hzero : (round prec 0).toRat = 0 := by
    rw [toRat_round hp ⟨0, 0, by simp, by simp⟩, toRat_zero]
  rw [← hzero]
  rcases ha.eq_or_lt with ha | ha
  · rw [quotient, if_pos ((toRat_eq_zero_iff a).mp ha)]
    apply toRat_round_mono hp
    rw [toRat_mk, toRat_zero]
    simp
  · have hsign : a.negative = true := by
      by_contra hne
      rw [Bool.not_eq_true] at hne
      have hge : 0 ≤ a.toRat := by
        change 0 ≤ (⟨a.negative, a.coefficient, a.exponent⟩ : Decimal).toRat
        rw [toRat_mk, hne, if_neg Bool.false_ne_true]
        positivity
      exact ha.not_ge hge
    obtain ⟨c, e, hquotient⟩ := quotient_eq_round prec a b
    rw [hquotient, hsign, ((toRat_pos_iff b).mp hb).1]
    apply toRat_round_mono hp
    rw [toRat_mk, toRat_zero, Bool.xor_false, if_pos rfl]
    have : (0 : ℚ) ≤ c * 10 ^ e := by positivity
    linarith

/-- A rounded quotient does not fall when the quotient grows. -/
theorem quotient_mono {prec : ℕ} {a b c : Decimal} (hp : 0 < prec) (hb : 0 < b.toRat)
    (hc : 0 ≤ c.toRat) (hd : 0 < d.toRat) (h : a.toRat / b.toRat ≤ c.toRat / d.toRat) :
    (quotient prec a b).toRat ≤ (quotient prec c d).toRat := by
  have hnonneg : 0 ≤ (quotient prec c d).toRat := by
    rcases hc.eq_or_lt with hc | hc
    · rw [quotient, if_pos ((toRat_eq_zero_iff c).mp hc.symm)]
      apply toRat_round_nonneg
      rw [toRat_mk]
      simp
    · exact le_quotient hp hc hd ⟨0, 0, by simp, by simp⟩ (by positivity)
  rcases le_or_gt a.toRat 0 with ha | ha
  · exact (quotient_nonpos hp ha hb).trans hnonneg
  · have hpos : 0 < c.toRat / d.toRat := lt_of_lt_of_le (by positivity) h
    have hc : 0 < c.toRat := (div_pos_iff_of_pos_right hd).mp hpos
    rw [toRat_quotient_stick hp ha hb (min_le_left _ (c.exponent - d.exponent - quotientShift prec c d)),
      toRat_quotient_stick hp hc hd (min_le_right (a.exponent - b.exponent - quotientShift prec a b) _)]
    apply toRat_round_mono hp
    generalize min (_ : ℤ) _ = w
    rw [toRat_mk false, toRat_mk false, if_neg Bool.false_ne_true, one_mul, one_mul]
    gcongr
    apply stick_mono (by positivity)
    gcongr

/-!
## The floor of a quotient

The fractional part of a quotient of grid numbers is not closer to the next integer than
the grids allow. With enough digits a rounded quotient therefore has the same floor.
-/

theorem Representable.scale {prec : ℕ} (h : Representable prec q) (k : ℤ) :
    Representable prec (q * 10 ^ k) := by
  obtain ⟨n, e, hn, rfl⟩ := h
  exact ⟨n, e + k, hn, by rw [mul_assoc, ← zpow_add₀ (by norm_num)]⟩

/-- A quotient of grid numbers stays away from an integer above it. -/
theorem Fits.le_sub_of_lt {b : ℕ} (hp : Fits f b p) (hq : Fits g c q)
    (hq0 : 0 < q) {n : ℤ} (h : p / q * 10 ^ k < n) :
    p / q * 10 ^ k ≤ n - 1 / 10 ^ (c + g + f) := by
  obtain ⟨i, hi⟩ := hp.onGrid
  obtain ⟨j, hj⟩ := hq.onGrid
  have hf : (0 : ℚ) < 10 ^ f := by positivity
  have hg : (0 : ℚ) < 10 ^ g := by positivity
  -- the distance is a positive multiple of one over the scaled divisor
  have hz : 1 ≤ n * (j * 10 ^ f) - i * 10 ^ (k + g) := by
    rw [div_mul_eq_mul_div, div_lt_iff₀ hq0] at h
    have hlt : (i * 10 ^ (k + g) : ℚ) < n * (j * 10 ^ f) := by
      rw [← hi, ← hj, pow_add]
      have hscaled := mul_lt_mul_of_pos_right h (mul_pos hf hg)
      linarith
    have hint : i * 10 ^ (k + g) < n * (j * 10 ^ f) := by exact_mod_cast hlt
    omega
  have hbound : q * (10 ^ g * 10 ^ f) ≤ 10 ^ (c + g + f) := by
    have hle := hq.lt.le
    rw [abs_of_pos hq0] at hle
    rw [pow_add, pow_add, mul_assoc]
    gcongr
  have hcast : (1 : ℚ) ≤ n * (q * 10 ^ g * 10 ^ f) - p * 10 ^ f * (10 ^ k * 10 ^ g) := by
    rw [hi, hj, ← pow_add]
    exact_mod_cast hz
  have hdenom : 0 < q * (10 ^ g * 10 ^ f) := by positivity
  have hdistance : 1 / (q * (10 ^ g * 10 ^ f)) ≤ n - p / q * 10 ^ k := by
    rw [div_le_iff₀ hdenom]
    have heq : (n - p / q * 10 ^ k) * (q * (10 ^ g * 10 ^ f)) =
        n * (q * 10 ^ g * 10 ^ f) - p * 10 ^ f * (10 ^ k * 10 ^ g) := by
      field_simp
    rw [heq]
    exact hcast
  have hsmall : 1 / (10 : ℚ) ^ (c + g + f) ≤ 1 / (q * (10 ^ g * 10 ^ f)) :=
    one_div_le_one_div_of_le hdenom hbound
  linarith

theorem Fits.div_lt {b : ℕ} (hp : Fits f b p) (hq : Fits g c q) (hp0 : 0 < p)
    (hq0 : 0 < q) : p / q < 10 ^ (b + g) := by
  obtain ⟨j, hj⟩ := hq.onGrid
  have hone : 1 ≤ q * 10 ^ g := by
    rw [hj]
    have hpos : (0 : ℚ) < j := by
      rw [← hj]
      positivity
    have hint : 0 < j := by exact_mod_cast hpos
    exact_mod_cast hint
  have hlt := hp.lt
  rw [abs_of_pos hp0] at hlt
  rw [div_lt_iff₀ hq0]
  calc p < 10 ^ b := hlt
    _ ≤ 10 ^ b * (q * 10 ^ g) := le_mul_of_one_le_right (by positivity) hone
    _ = 10 ^ (b + g) * q := by rw [pow_add]; ring

/-- A rounded quotient has the floor of the quotient. -/
theorem floor_quotient {prec b : ℕ} {e : Decimal} (hp : 0 < prec)
    (hd : Holds f b d p) (he : Holds g c e q) (hp0 : 0 < p) (hq0 : 0 < q)
    (hroom : b + g + k + (c + g + f) ≤ prec) :
    ⌊(quotient prec d e).toRat * 10 ^ k⌋ = ⌊p / q * 10 ^ k⌋ := by
  set n := ⌊p / q * 10 ^ k⌋ with hn
  have hk : (0 : ℚ) < 10 ^ k := by positivity
  have hfloor := Int.floor_le (p / q * 10 ^ k)
  have hceil := Int.lt_floor_add_one (p / q * 10 ^ k)
  rw [← hn] at hfloor hceil
  have hn0 : 0 ≤ n := Int.floor_nonneg.mpr (by positivity)
  have hnlt : n < 10 ^ (b + g + k) := by
    have hlt : (n : ℚ) < 10 ^ (b + g + k) := by
      rw [pow_add]
      exact hfloor.trans_lt (mul_lt_mul_of_pos_right (hd.fits.div_lt he.fits hp0 hq0) hk)
    exact_mod_cast hlt
  have hpow : (10 : ℤ) ^ (b + g + k) * 10 ^ (c + g + f) ≤ 10 ^ prec := by
    rw [← pow_add]
    exact pow_le_pow_right₀ (by norm_num) hroom
  have hone : (1 : ℤ) ≤ 10 ^ (c + g + f) := one_le_pow₀ (by norm_num)
  have hlow : (n : ℚ) / 10 ^ k ≤ (quotient prec d e).toRat := by
    refine le_quotient hp (by rw [hd.value]; exact hp0) (by rw [he.value]; exact hq0) ?_ ?_
    · refine ⟨n, -k, ?_, by rw [zpow_neg, zpow_natCast, div_eq_mul_inv]⟩
      rw [abs_of_nonneg hn0]
      nlinarith
    · rw [hd.value, he.value, div_le_iff₀ hk]
      exact hfloor
  have hhigh : (quotient prec d e).toRat ≤ (n + 1 - 1 / 10 ^ (c + g + f)) / 10 ^ k := by
    refine quotient_le hp (by rw [hd.value]; exact hp0) (by rw [he.value]; exact hq0) ?_ ?_
    · refine ⟨(n + 1) * 10 ^ (c + g + f) - 1, -((c + g + f + k : ℕ) : ℤ), ?_, ?_⟩
      · rw [abs_of_nonneg (by nlinarith)]
        nlinarith
      · rw [zpow_neg, zpow_natCast, pow_add 10 (c + g + f) k]
        push_cast
        field_simp
    · rw [hd.value, he.value, le_div_iff₀ hk]
      have hle := hd.fits.le_sub_of_lt he.fits hq0 (n := n + 1) (by exact_mod_cast hceil)
      push_cast at hle
      exact hle
  have hpos : (0 : ℚ) < 1 / 10 ^ (c + g + f) := by positivity
  rw [Int.floor_eq_iff]
  rw [div_le_iff₀ hk] at hlow
  rw [le_div_iff₀ hk] at hhigh
  exact ⟨hlow, by linarith⟩

end Decimal
