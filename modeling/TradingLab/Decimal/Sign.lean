import TradingLab.Decimal.Sum
import TradingLab.Decimal.Trim
import Mathlib.Algebra.Order.Archimedean.Basic

/-!
# Signs and bounds of rounded results, and grids

Rounding to a number of digits keeps the sign and stays within bounds, and no numeral but
zero becomes zero. Rounding to a grid keeps what is on the grid, and does not pass a point of
the grid.
-/

namespace Decimal

variable {prec : ℕ} {a b d : Decimal}

theorem kept_ne_zero (hp : 0 < prec) {c : ℕ} : kept prec c ≠ 0 ↔ c ≠ 0 := by
  constructor
  · rintro h rfl
    exact h (kept_zero prec hp)
  · intro hc
    have hbounds := kept_bounds hp (Nat.pos_of_ne_zero hc)
    have hpos : 0 < 10 ^ (digits c - 1) := by positivity
    omega

theorem toRat_round_pos (hp : 0 < prec) (d : Decimal) : 0 < (round prec d).toRat ↔ 0 < d.toRat := by
  rw [toRat_round_kept hp, toRat_pos_iff, toRat_pos_iff, kept_ne_zero hp]

theorem sub_le_zero_iff (hp : 0 < prec) (a b : Decimal) : sub prec a b ≤ 0 ↔ a ≤ b := by
  have hpos := toRat_round_pos hp (addExact a (copyNegate b))
  rw [toRat_addExact, toRat_copyNegate] at hpos
  rw [le_def, le_def, toRat_zero, ← not_lt, ← not_lt, not_iff_not, sub, add, hpos]
  constructor <;> intro h <;> linarith

theorem toRat_round_neg (hp : 0 < prec) (d : Decimal) : (round prec d).toRat < 0 ↔ d.toRat < 0 := by
  rw [← not_le, ← not_le, not_iff_not, toRat_round_kept hp, toRat_nonneg_iff, toRat_nonneg_iff]
  exact or_congr_right (not_iff_not.mp (kept_ne_zero hp))

theorem sub_lt_zero_iff (hp : 0 < prec) (a b : Decimal) : sub prec a b < 0 ↔ a < b := by
  have hneg := toRat_round_neg hp (addExact a (copyNegate b))
  rw [toRat_addExact, toRat_copyNegate] at hneg
  rw [lt_def, lt_def, toRat_zero, sub, add, hneg]
  constructor <;> intro h <;> linarith

theorem negative_of_pos (h : 0 < d.toRat) : d.negative = false := ((toRat_pos_iff d).mp h).1

theorem exponent_le_round (prec : ℕ) (d : Decimal) : d.exponent ≤ (round prec d).exponent := by
  unfold round
  dsimp only
  split_ifs
  · exact le_rfl
  · change d.exponent ≤ d.exponent + _ + 1
    omega
  · change d.exponent ≤ d.exponent + _
    omega

theorem halfEven_le_of_le {c p n : ℕ} (hp : 0 < p) (h : c ≤ n * p) : halfEven c p ≤ n := by
  have hle := halfEven_mono hp h
  rwa [halfEven_of_dvd hp (Dvd.intro_left n rfl), Nat.mul_div_cancel n hp] at hle

theorem le_halfEven_of_le {c p n : ℕ} (hp : 0 < p) (h : n * p ≤ c) : n ≤ halfEven c p := by
  have hle := halfEven_mono hp h
  rwa [halfEven_of_dvd hp (Dvd.intro_left n rfl), Nat.mul_div_cancel n hp] at hle

theorem exponent_rescale (e : ℤ) (d : Decimal) : (rescale e d).exponent = e := by
  unfold rescale
  split <;> rfl

@[simp] theorem negative_rescale (e : ℤ) (d : Decimal) : (rescale e d).negative = d.negative := by
  unfold rescale
  split <;> rfl

section Grid
variable {e : ℤ} (h : d.exponent < e)
include h

theorem rescale_eq : rescale e d =
    ⟨d.negative, halfEven d.coefficient (10 ^ (e - d.exponent).toNat), e⟩ :=
  if_neg (not_le.mpr h)

theorem toRat_eq_mul : d.toRat * (10 : ℚ) ^ (e - d.exponent).toNat = d.int * (10 : ℚ) ^ e := by
  have hexp : d.exponent + ((e - d.exponent).toNat : ℤ) = e := by omega
  rw [toRat, mul_assoc, ← zpow_natCast, ← zpow_add₀ (by norm_num), hexp]

/-- Rounding to a grid does not pass a point of the grid. -/
theorem rescale_le {n : ℤ} (hn : d.toRat ≤ n * (10 : ℚ) ^ e) :
    (rescale e d).toRat ≤ n * (10 : ℚ) ^ e := by
  have hpow : (0 : ℚ) < 10 ^ e := by positivity
  have hp : 0 < 10 ^ (e - d.exponent).toNat := by positivity
  have hint : d.int ≤ n * 10 ^ (e - d.exponent).toNat := by
    have hscaled := mul_le_mul_of_nonneg_right hn
      (by positivity : (0 : ℚ) ≤ 10 ^ (e - d.exponent).toNat)
    rw [toRat_eq_mul h, mul_right_comm] at hscaled
    have hcancel := le_of_mul_le_mul_right hscaled hpow
    exact_mod_cast hcancel
  rw [rescale_eq h, toRat]
  apply mul_le_mul_of_nonneg_right _ hpow.le
  have hgoal : (⟨d.negative, halfEven d.coefficient (10 ^ (e - d.exponent).toNat), e⟩ : Decimal).int
      ≤ n := by
    unfold int at hint ⊢
    cases hneg : d.negative with
    | false =>
      rw [hneg, if_neg Bool.false_ne_true] at hint
      simp only [Bool.false_eq_true, if_false]
      have hn0 : 0 ≤ n := by
        by_contra hlt
        have hprod : n * 10 ^ (e - d.exponent).toNat < 0 :=
          mul_neg_of_neg_of_pos (not_le.mp hlt) (by positivity)
        omega
      obtain ⟨m, rfl⟩ := Int.eq_ofNat_of_zero_le hn0
      exact_mod_cast halfEven_le_of_le hp (by exact_mod_cast hint)
    | true =>
      rw [hneg, if_pos rfl] at hint
      simp only [if_true]
      rcases le_or_gt 0 n with hn0 | hn0
      · omega
      · obtain ⟨m, rfl⟩ : ∃ m : ℕ, n = -m := ⟨n.natAbs, by omega⟩
        have hle : m * 10 ^ (e - d.exponent).toNat ≤ d.coefficient := by
          have hneg' : -(d.coefficient : ℤ) ≤ -(m * 10 ^ (e - d.exponent).toNat) := by
            rw [← neg_mul]
            exact hint
          exact_mod_cast neg_le_neg_iff.mp hneg'
        have hge := le_halfEven_of_le hp hle
        omega
  exact_mod_cast hgoal

theorem le_rescale {n : ℤ} (hn : n * (10 : ℚ) ^ e ≤ d.toRat) :
    n * (10 : ℚ) ^ e ≤ (rescale e d).toRat := by
  have hneg : (copyNegate d).toRat ≤ (-n : ℤ) * (10 : ℚ) ^ e := by
    rw [toRat_copyNegate]
    push_cast
    linarith
  have hflip : rescale e (copyNegate d) = copyNegate (rescale e d) := by
    rw [rescale_eq h, rescale_eq (d := copyNegate d) h]
    rfl
  have hle := rescale_le (d := copyNegate d) h hneg
  rw [hflip, toRat_copyNegate] at hle
  push_cast at hle
  linarith

end Grid

/-- The numeral with at most `f` digits after the point. -/
def toGrid (f : ℕ) (d : Decimal) : Decimal := if d.exponent < -f then rescale (-f) d else d

section ToGrid
variable {f : ℕ} {g : ℚ}

@[simp] theorem negative_toGrid (f : ℕ) (d : Decimal) : (toGrid f d).negative = d.negative := by
  unfold toGrid
  split <;> simp

theorem exponent_toGrid (f : ℕ) (d : Decimal) : -(f : ℤ) ≤ (toGrid f d).exponent := by
  unfold toGrid
  split
  · rw [exponent_rescale]
  · omega

theorem onGrid_toGrid (f : ℕ) (d : Decimal) : OnGrid f (toGrid f d).toRat :=
  onGrid_toRat (exponent_toGrid f d)

theorem OnGrid.eq_mul (h : OnGrid f g) : ∃ n : ℤ, g = n * (10 : ℚ) ^ (-(f : ℤ)) := by
  obtain ⟨n, hn⟩ := h
  refine ⟨n, ?_⟩
  rw [← hn, mul_assoc, zpow_neg, zpow_natCast, mul_inv_cancel₀ (by positivity), mul_one]

theorem toGrid_le (hg : OnGrid f g) (h : d.toRat ≤ g) : (toGrid f d).toRat ≤ g := by
  obtain ⟨n, rfl⟩ := hg.eq_mul
  unfold toGrid
  split
  · rename_i hlong
    exact rescale_le hlong h
  · exact h

theorem le_toGrid (hg : OnGrid f g) (h : g ≤ d.toRat) : g ≤ (toGrid f d).toRat := by
  obtain ⟨n, rfl⟩ := hg.eq_mul
  unfold toGrid
  split
  · rename_i hlong
    exact le_rescale hlong h
  · exact h

theorem toRat_toGrid (h : OnGrid f d.toRat) : (toGrid f d).toRat = d.toRat :=
  le_antisymm (toGrid_le h le_rfl) (le_toGrid h le_rfl)

theorem _plain_of_lt {b : ℕ} (hp : 0 < prec) (hlt : |(toGrid 40 d).toRat| < 10 ^ b)
    (hprec : 40 + b ≤ prec) :
    _plain prec d = some (String.ofList (trimFraction (toGrid 40 d).fixed.toList)) := by
  have hcoefficient := (coefficient_lt (exponent_toGrid 40 d) hlt).trans_le
    (Nat.pow_le_pow_right (by norm_num) hprec)
  by_cases hlong : d.exponent < -40
  · have hgrid : toGrid 40 d = rescale (-40) d := if_pos hlong
    rw [hgrid] at hcoefficient ⊢
    rw [_plain, if_pos hlong, quantize?, if_pos (digits_le_of_lt_pow hcoefficient hp)]
    rfl
  · have hgrid : toGrid 40 d = d := if_neg hlong
    rw [hgrid, _plain_of_exponent (not_lt.mp hlong)]

end ToGrid

/-!
## Bounds

A rounded result stays within representable bounds of the exact one.
-/

section Bounds
variable {prec : ℕ} {a b d : Decimal} {m n q y : ℚ}

theorem round_le (hp : 0 < prec) (hy : Representable prec y) (h : d.toRat ≤ y) :
    (round prec d).toRat ≤ y := by
  obtain ⟨z, rfl, hz⟩ := hy.exists_round hp
  rw [← hz]
  exact toRat_round_mono hp h

theorem le_round (hp : 0 < prec) (hy : Representable prec y) (h : y ≤ d.toRat) :
    y ≤ (round prec d).toRat := by
  obtain ⟨z, rfl, hz⟩ := hy.exists_round hp
  rw [← hz]
  exact toRat_round_mono hp h

theorem quotient_pos (hp : 0 < prec) (ha : 0 < a.toRat) (hb : 0 < b.toRat) :
    0 < (quotient prec a b).toRat := by
  obtain ⟨n, hn, -⟩ := exists_mem_Ico_zpow (div_pos ha hb) (by norm_num : (1 : ℚ) < 10)
  have hrep : Representable prec ((10 : ℚ) ^ n) := by
    refine ⟨1, n, ?_, by norm_num⟩
    rw [abs_one]
    exact one_lt_pow₀ (by norm_num) hp.ne'
  exact (by positivity : (0 : ℚ) < 10 ^ n).trans_le (le_quotient hp ha hb hrep hn)

structure Within (m : ℚ) (d : Decimal) : Prop where
  nonneg : 0 ≤ d.toRat
  le : d.toRat ≤ m

theorem Within.add (hp : 0 < prec) (ha : Within m a) (hb : Within n b)
    (h : Representable prec (m + n)) : Within (m + n) (add prec a b) := by
  have hexact := toRat_addExact a b
  exact ⟨le_round hp (representable_zero prec) (by rw [hexact]; exact add_nonneg ha.nonneg hb.nonneg),
    round_le hp h (by rw [hexact]; exact add_le_add ha.le hb.le)⟩

theorem Within.mul (hp : 0 < prec) (ha : Within m a) (hb : Within n b)
    (h : Representable prec (m * n)) : Within (m * n) (mul prec a b) := by
  have hexact := toRat_mulExact a b
  exact ⟨le_round hp (representable_zero prec) (by rw [hexact]; exact mul_nonneg ha.nonneg hb.nonneg),
    round_le hp h (by
      rw [hexact]
      exact mul_le_mul ha.le hb.le hb.nonneg (ha.nonneg.trans ha.le))⟩

theorem Within.quotient (hp : 0 < prec) (ha : Within m a) (hb : 0 < b.toRat)
    (h : Representable prec (m / b.toRat)) : Within (m / b.toRat) (quotient prec a b) := by
  rcases ha.nonneg.eq_or_lt with hzero | hpos
  · have hvalue : (Decimal.quotient prec a b).toRat = 0 := by
      have hrep : Representable prec (a.toRat / b.toRat) := by
        rw [← hzero, zero_div]
        exact representable_zero prec
      rw [toRat_quotient hp ((toRat_pos_iff b).mp hb).2 hrep, ← hzero, zero_div]
    exact ⟨hvalue.ge, hvalue.le.trans (div_nonneg (ha.nonneg.trans ha.le) hb.le)⟩
  · exact ⟨(quotient_pos hp hpos hb).le,
      quotient_le hp hpos hb h (div_le_div_of_nonneg_right ha.le hb.le)⟩

theorem Within.distance (hp : 0 < prec) (ha : Within m a) (hb : Within m b)
    (h : Representable prec m) : Within m (absolute prec (sub prec a b)) := by
  have hexact : (addExact a (copyNegate b)).toRat = a.toRat - b.toRat := by
    rw [toRat_addExact, toRat_copyNegate, sub_eq_add_neg]
  have hneg : Representable prec (-m) := by
    apply Representable.of_neg
    rwa [neg_neg]
  have hhigh : (sub prec a b).toRat ≤ m :=
    round_le hp h (by rw [hexact]; linarith [ha.le, hb.nonneg])
  have hlow : -m ≤ (sub prec a b).toRat :=
    le_round hp hneg (by rw [hexact]; linarith [hb.le, ha.nonneg])
  have habs : (copyAbs (sub prec a b)).toRat = |(sub prec a b).toRat| := toRat_copyAbs _
  exact ⟨le_round hp (representable_zero prec) (by rw [habs]; exact abs_nonneg _),
    round_le hp h (by rw [habs]; exact abs_le.mpr ⟨hlow, hhigh⟩)⟩

theorem Within.sum (hp : 0 < prec) {ds : List Decimal} (h : ∀ d ∈ ds, Within m d)
    (hrep : ∀ k : ℕ, k ≤ ds.length → Representable prec (k * m)) :
    Within (ds.length * m) (sum prec ds) := by
  induction ds using List.reverseRecOn with
  | nil =>
    have hzero : (Decimal.sum prec []).toRat = 0 := toRat_zero
    exact ⟨hzero.ge, by rw [hzero]; simp⟩
  | append_singleton ds d ih =>
    rw [sum_append_singleton]
    have hinit := ih (fun d hd => h d (List.mem_append_left _ hd))
      (fun k hk => hrep k (by rw [List.length_append]; omega))
    have hlast := h d (List.mem_append_right _ List.mem_cons_self)
    have hlength : ((ds ++ [d]).length : ℚ) * m = ds.length * m + m := by
      rw [List.length_append]
      push_cast
      simp
      ring
    rw [hlength]
    apply hinit.add hp hlast
    rw [← hlength]
    exact hrep _ le_rfl

theorem sum_pos (hp : 0 < prec) {ds : List Decimal} (hne : ds ≠ []) (h : ∀ d ∈ ds, 0 < d.toRat) :
    0 < (sum prec ds).toRat := by
  induction ds using List.reverseRecOn with
  | nil => exact absurd rfl hne
  | append_singleton ds d ih =>
    have hlast := h d (List.mem_append_right _ List.mem_cons_self)
    have hinit : 0 ≤ (Decimal.sum prec ds).toRat := by
      rcases eq_or_ne ds [] with rfl | hds
      · exact toRat_zero.ge
      · exact (ih hds fun d hd => h d (List.mem_append_left _ hd)).le
    rw [sum_append_singleton, Decimal.add, toRat_round_pos hp, toRat_addExact]
    exact add_pos_of_nonneg_of_pos hinit hlast

end Bounds

end Decimal
