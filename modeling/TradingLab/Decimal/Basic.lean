import Mathlib.Data.Nat.Log
import Mathlib.Algebra.Order.Field.Power
import Mathlib.Tactic.Linarith
import Mathlib.Tactic.Ring
import Mathlib.Tactic.FieldSimp
import Mathlib.Tactic.Positivity

/-!
# Finite decimal numbers under a fixed precision

A decimal is a sign, a natural coefficient and a power of ten, so that `1.0` and
`1.00` are two numerals of one number. Comparisons are numeric. Every operation
of an arithmetic context computes the exact result on the smaller exponent and
then rounds it, half to even, to the digits of the context.

Only finite numbers occur here, and the exponents met by the callers stay far
inside the range of the context, so neither overflow nor underflow is modelled.
-/

/-- The number `(-1)^negative * coefficient * 10^exponent`. -/
structure Decimal where
  negative : Bool
  coefficient : ℕ
  exponent : ℤ
deriving Repr, DecidableEq

namespace Decimal

def int (d : Decimal) : ℤ := if d.negative then -d.coefficient else d.coefficient

def toRat (d : Decimal) : ℚ := d.int * (10 : ℚ) ^ d.exponent

def ofInt (n : ℤ) (e : ℤ) : Decimal := ⟨decide (n < 0), n.natAbs, e⟩

instance (n : ℕ) : OfNat Decimal n := ⟨⟨false, n, 0⟩⟩

theorem natAbs_int (d : Decimal) : d.int.natAbs = d.coefficient := by
  unfold int
  split <;> simp

@[simp] theorem int_ofInt (n e : ℤ) : (ofInt n e).int = n := by
  simp only [int, ofInt, decide_eq_true_eq]
  split <;> omega

@[simp] theorem toRat_ofInt (n e : ℤ) : (ofInt n e).toRat = n * (10 : ℚ) ^ e := by
  rw [toRat, int_ofInt]
  rfl

@[simp] theorem toRat_ofNat (n : ℕ) : (OfNat.ofNat n : Decimal).toRat = n := by
  change ((n : ℤ) : ℚ) * 10 ^ (0 : ℤ) = n
  simp

@[simp] theorem toRat_zero : (0 : Decimal).toRat = 0 := by
  simpa using toRat_ofNat 0

@[simp] theorem toRat_one : (1 : Decimal).toRat = 1 := by
  simpa using toRat_ofNat 1

theorem toRat_eq_zero_iff (d : Decimal) : d.toRat = 0 ↔ d.coefficient = 0 := by
  have h10 : (10 : ℚ) ^ d.exponent ≠ 0 := zpow_ne_zero _ (by norm_num)
  rw [toRat, mul_eq_zero, or_iff_left h10]
  rw [← natAbs_int d]
  simp

theorem toRat_shift (negative : Bool) (c k : ℕ) (e : ℤ) :
    (⟨negative, c, e + k⟩ : Decimal).toRat = (⟨negative, c * 10 ^ k, e⟩ : Decimal).toRat := by
  have hint : (⟨negative, c * 10 ^ k, e⟩ : Decimal).int =
      (⟨negative, c, e + k⟩ : Decimal).int * 10 ^ k := by
    unfold int
    cases negative <;> simp
  rw [toRat, toRat, hint, zpow_add₀ (by norm_num), zpow_natCast]
  push_cast
  ring

def scaled (d : Decimal) (e : ℤ) : ℤ := d.int * 10 ^ (d.exponent - e).toNat

variable {d a b : Decimal} {c prec : ℕ}

theorem toRat_eq_scaled {e : ℤ} (h : e ≤ d.exponent) :
    d.toRat = d.scaled e * (10 : ℚ) ^ e := by
  have hn : ((d.exponent - e).toNat : ℤ) = d.exponent - e := Int.toNat_of_nonneg (by omega)
  rw [toRat, scaled]
  push_cast
  rw [mul_assoc, ← zpow_natCast, hn, ← zpow_add₀ (by norm_num)]
  congr 2
  omega

instance : LT Decimal := ⟨fun a b => a.toRat < b.toRat⟩
instance : LE Decimal := ⟨fun a b => a.toRat ≤ b.toRat⟩

/-- Numeric equality: the numerals may differ in their exponents. -/
instance : HasEquiv Decimal := ⟨fun a b => a.toRat = b.toRat⟩

theorem lt_def : a < b ↔ a.toRat < b.toRat := Iff.rfl
theorem le_def : a ≤ b ↔ a.toRat ≤ b.toRat := Iff.rfl
theorem equiv_def : a ≈ b ↔ a.toRat = b.toRat := Iff.rfl

theorem lt_iff_scaled (a b : Decimal) :
    a.scaled (min a.exponent b.exponent) < b.scaled (min a.exponent b.exponent) ↔ a < b := by
  rw [lt_def, toRat_eq_scaled (min_le_left a.exponent b.exponent),
    toRat_eq_scaled (min_le_right a.exponent b.exponent),
    mul_lt_mul_iff_left₀ (by positivity)]
  exact_mod_cast Iff.rfl

theorem le_iff_scaled (a b : Decimal) :
    a.scaled (min a.exponent b.exponent) ≤ b.scaled (min a.exponent b.exponent) ↔ a ≤ b := by
  rw [le_def, toRat_eq_scaled (min_le_left a.exponent b.exponent),
    toRat_eq_scaled (min_le_right a.exponent b.exponent),
    mul_le_mul_iff_left₀ (by positivity)]
  exact_mod_cast Iff.rfl

theorem equiv_iff_scaled (a b : Decimal) :
    a.scaled (min a.exponent b.exponent) = b.scaled (min a.exponent b.exponent) ↔ a ≈ b := by
  rw [equiv_def, toRat_eq_scaled (min_le_left a.exponent b.exponent),
    toRat_eq_scaled (min_le_right a.exponent b.exponent),
    mul_left_inj' (by positivity)]
  exact_mod_cast Iff.rfl

instance (a b : Decimal) : Decidable (a < b) := decidable_of_iff _ (lt_iff_scaled a b)
instance (a b : Decimal) : Decidable (a ≤ b) := decidable_of_iff _ (le_iff_scaled a b)
instance (a b : Decimal) : Decidable (a ≈ b) := decidable_of_iff _ (equiv_iff_scaled a b)

def digits (c : ℕ) : ℕ := Nat.log 10 c + 1

theorem lt_pow_digits (c : ℕ) : c < 10 ^ digits c := Nat.lt_pow_succ_log_self (by norm_num) c

theorem pow_le_of_lt_digits {k : ℕ} (h : k < digits c) (hk : 0 < k) : 10 ^ k ≤ c := by
  have hc : c ≠ 0 := by
    rintro rfl
    simp [digits] at h
    omega
  exact (Nat.pow_le_pow_right (by norm_num) (by unfold digits at h; omega)).trans
    (Nat.pow_log_le_self 10 hc)

theorem digits_le_of_lt_pow {k : ℕ} (h : c < 10 ^ k) (hk : 0 < k) : digits c ≤ k := by
  by_contra hc
  exact absurd (pow_le_of_lt_digits (by omega : k < digits c) hk) (by omega)

/-- `c / p` rounded half to even. -/
def halfEven (c p : ℕ) : ℕ :=
  if p < 2 * (c % p) ∨ (2 * (c % p) = p ∧ c / p % 2 = 1) then c / p + 1 else c / p

theorem halfEven_of_dvd {p : ℕ} (hp : 0 < p) (h : p ∣ c) : halfEven c p = c / p := by
  have hm : c % p = 0 := Nat.mod_eq_zero_of_dvd h
  simp only [halfEven, hm]
  rw [if_neg (by omega)]

theorem halfEven_le (c p : ℕ) : halfEven c p ≤ c / p + 1 := by
  unfold halfEven
  split <;> omega

/-- Round to at most `prec` digits, half to even. -/
def round (prec : ℕ) (d : Decimal) : Decimal :=
  if digits d.coefficient ≤ prec then d else
    let drop := digits d.coefficient - prec
    let c := halfEven d.coefficient (10 ^ drop)
    if prec < digits c then ⟨d.negative, c / 10, d.exponent + drop + 1⟩
    else ⟨d.negative, c, d.exponent + drop⟩

@[simp] theorem negative_round (prec : ℕ) (d : Decimal) :
    (round prec d).negative = d.negative := by
  unfold round
  dsimp only
  split
  · rfl
  · split <;> rfl

theorem round_of_digits_le (h : digits d.coefficient ≤ prec) :
    round prec d = d := if_pos h

theorem round_of_lt_pow (hp : 0 < prec) (h : d.coefficient < 10 ^ prec) : round prec d = d :=
  round_of_digits_le (digits_le_of_lt_pow h hp)

/-- Whatever is rounded, the coefficient fits the precision. -/
theorem coefficient_round_lt (hp : 0 < prec) (d : Decimal) :
    (round prec d).coefficient < 10 ^ prec := by
  unfold round
  dsimp only
  split_ifs with h₁ h₂
  · exact (lt_pow_digits _).trans_le (Nat.pow_le_pow_right (by norm_num) h₁)
  · set k := digits d.coefficient - prec with hk
    have hlt : d.coefficient / 10 ^ k < 10 ^ prec := by
      rw [Nat.div_lt_iff_lt_mul (by positivity), ← pow_add]
      have := lt_pow_digits d.coefficient
      rwa [show prec + k = digits d.coefficient by omega]
    have hle := halfEven_le d.coefficient (10 ^ k)
    have h10 : 10 ≤ 10 ^ prec := Nat.le_self_pow (by omega) 10
    change halfEven d.coefficient (10 ^ k) / 10 < 10 ^ prec
    omega
  · exact (lt_pow_digits _).trans_le (Nat.pow_le_pow_right (by norm_num) (Nat.not_lt.mp h₂))

theorem toRat_nonneg_iff (d : Decimal) :
    0 ≤ d.toRat ↔ d.negative = false ∨ d.coefficient = 0 := by
  have h10 : (0 : ℚ) < 10 ^ d.exponent := by positivity
  rw [toRat, mul_nonneg_iff_of_pos_right h10]
  unfold int
  cases d.negative <;> simp

theorem toRat_pos_iff (d : Decimal) :
    0 < d.toRat ↔ d.negative = false ∧ d.coefficient ≠ 0 := by
  rw [lt_iff_le_and_ne, toRat_nonneg_iff, ne_comm, Ne, toRat_eq_zero_iff]
  tauto

theorem toRat_round_nonneg (h : 0 ≤ d.toRat) :
    0 ≤ (round prec d).toRat := by
  rw [toRat_nonneg_iff] at h ⊢
  rcases h with h | h
  · exact .inl (by simpa using h)
  · by_cases hd : digits d.coefficient ≤ prec
    · exact .inr (by rw [round_of_digits_le hd]; exact h)
    · rcases Nat.eq_zero_or_pos prec with rfl | hp
      · have h10 : (10 : ℕ) ^ 1 ≠ 0 := by norm_num
        right
        simp [round, h, digits, halfEven]
      · exact (hd (digits_le_of_lt_pow (by rw [h]; positivity) hp)).elim

/-- The exact sum, written at the smaller exponent of the two operands. -/
def addExact (a b : Decimal) : Decimal :=
  let e := min a.exponent b.exponent
  let s := a.scaled e + b.scaled e
  if s = 0 then ⟨a.negative && b.negative, 0, e⟩ else ofInt s e

def mulExact (a b : Decimal) : Decimal :=
  ⟨a.negative ^^ b.negative, a.coefficient * b.coefficient, a.exponent + b.exponent⟩

def copyNegate (d : Decimal) : Decimal := { d with negative := !d.negative }
def copyAbs (d : Decimal) : Decimal := { d with negative := false }

def add (prec : ℕ) (a b : Decimal) : Decimal := round prec (addExact a b)
def sub (prec : ℕ) (a b : Decimal) : Decimal := add prec a (copyNegate b)
def mul (prec : ℕ) (a b : Decimal) : Decimal := round prec (mulExact a b)

/-- Unary minus of a context: zero never comes out negative. -/
def neg (prec : ℕ) (d : Decimal) : Decimal :=
  round prec (if d.coefficient = 0 then copyAbs d else copyNegate d)

def absolute (prec : ℕ) (d : Decimal) : Decimal := round prec (copyAbs d)

/-- The greater operand, the first one on a tie. -/
def larger (a b : Decimal) : Decimal := if a < b then b else a

/-- The lesser operand, the first one on a tie. -/
def smaller (a b : Decimal) : Decimal := if b < a then b else a

@[simp] theorem toRat_addExact (a b : Decimal) : (addExact a b).toRat = a.toRat + b.toRat := by
  have hab : a.toRat + b.toRat =
      ((a.scaled (min a.exponent b.exponent) + b.scaled (min a.exponent b.exponent) : ℤ) : ℚ)
        * (10 : ℚ) ^ (min a.exponent b.exponent) := by
    rw [toRat_eq_scaled (min_le_left a.exponent b.exponent),
      toRat_eq_scaled (min_le_right a.exponent b.exponent)]
    push_cast
    ring
  rw [hab]
  unfold addExact
  dsimp only
  split_ifs with h
  · rw [h, Int.cast_zero, zero_mul, toRat_eq_zero_iff]
  · exact toRat_ofInt _ _

@[simp] theorem toRat_mulExact (a b : Decimal) : (mulExact a b).toRat = a.toRat * b.toRat := by
  have hint : (mulExact a b).int = a.int * b.int := by
    unfold int mulExact
    cases a.negative <;> cases b.negative <;> simp
  rw [toRat, hint, toRat, toRat, mulExact, zpow_add₀ (by norm_num)]
  push_cast
  ring

@[simp] theorem toRat_copyNegate (d : Decimal) : (copyNegate d).toRat = -d.toRat := by
  have : (copyNegate d).int = -d.int := by
    unfold int copyNegate
    cases d.negative <;> simp
  rw [toRat, this, toRat, copyNegate]
  push_cast
  ring

@[simp] theorem toRat_copyAbs (d : Decimal) : (copyAbs d).toRat = |d.toRat| := by
  have : (copyAbs d).int = |d.int| := by
    unfold int copyAbs
    cases d.negative <;> simp
  rw [toRat, this, toRat, copyAbs, abs_mul, abs_of_pos (by positivity : (0 : ℚ) < 10 ^ d.exponent)]
  push_cast
  ring

end Decimal
