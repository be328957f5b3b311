import TradingLab.Json.Number
import TradingLab.Decimal.Sign

/-!
# Binary64 arithmetic

An operation computes its exact result and rounds it to the nearest number. Rounding
keeps the order of two results and the numbers themselves, so that a comparison of
rounded numbers decides one of the exact numbers.
-/

namespace Json

open Decimal (halfEven)

namespace Binary64

def signed (negative : Bool) (magnitude : ℚ) : ℚ := if negative then -magnitude else magnitude

/-- The number nearest to a rational; a zero has the sign it is given. -/
def rounded (negative : Bool) (q : ℚ) : Binary64 :=
  if q = 0 then finite negative 0 else nearest (decide (q < 0)) q.num.natAbs q.den

def neg : Binary64 → Binary64
  | finite negative magnitude => finite (!negative) magnitude
  | infinite negative => infinite (!negative)
  | nan => nan

def abs : Binary64 → Binary64
  | finite _ magnitude => finite false magnitude
  | infinite _ => infinite false
  | nan => nan

def add : Binary64 → Binary64 → Binary64
  | finite s x, finite t y => rounded (s && t) (signed s x + signed t y)
  | infinite s, infinite t => if s = t then infinite s else nan
  | infinite s, finite _ _ => infinite s
  | finite _ _, infinite t => infinite t
  | _, _ => nan

def sub (a b : Binary64) : Binary64 := add a b.neg

def mul : Binary64 → Binary64 → Binary64
  | finite s x, finite t y => rounded (s ^^ t) (signed s x * signed t y)
  | infinite s, infinite t => infinite (s ^^ t)
  | infinite s, finite t y => if y = 0 then nan else infinite (s ^^ t)
  | finite s x, infinite t => if x = 0 then nan else infinite (s ^^ t)
  | _, _ => nan

/-- A division by zero has no result. -/
def div? : Binary64 → Binary64 → Option Binary64
  | finite s x, finite t y =>
      if y = 0 then none else some (rounded (s ^^ t) (signed s x / signed t y))
  | infinite s, finite t y => if y = 0 then none else some (infinite (s ^^ t))
  | nan, finite _ y => if y = 0 then none else some nan
  | finite s _, infinite t => some (finite (s ^^ t) 0)
  | _, _ => some nan

def lt : Binary64 → Binary64 → Bool
  | finite s x, finite t y => signed s x < signed t y
  | finite _ _, infinite t => !t
  | infinite s, finite _ _ => s
  | infinite s, infinite t => s && !t
  | _, _ => false

def le : Binary64 → Binary64 → Bool
  | finite s x, finite t y => signed s x ≤ signed t y
  | finite _ _, infinite t => !t
  | infinite s, finite _ _ => s
  | infinite s, infinite t => s || !t
  | _, _ => false

/-- The first of two numbers, unless the second one is greater. -/
def larger (a b : Binary64) : Binary64 := if lt a b then b else a

/-- `float` of a decimal. -/
def ofExact (d : Decimal) : Binary64 := rounded d.negative d.toRat

def ofNat (n : ℕ) : Binary64 := rounded false n

theorem two_zpow_toNat (e : ℤ) : (2 : ℚ) ^ e * 2 ^ (-e).toNat = 2 ^ e.toNat := by
  rw [← zpow_natCast, ← zpow_natCast, ← zpow_add₀ (by norm_num)]
  congr 1
  omega

theorem scaled_le_iff (a b : ℕ) (e : ℤ) :
    a * 2 ^ e.toNat ≤ b * 2 ^ (-e).toNat ↔ (a : ℚ) * 2 ^ e ≤ b := by
  have hpos : (0 : ℚ) < 2 ^ (-e).toNat := by positivity
  rw [← mul_le_mul_iff_left₀ hpos, mul_assoc, two_zpow_toNat]
  exact_mod_cast Iff.rfl

/-- The quotient has 53 bits before the last one, unless it is subnormal. -/
theorem lastBit_spec {n d : ℕ} (hn : n ≠ 0) (hd : d ≠ 0) :
    (n : ℚ) < 2 ^ (lastBit n d + 53) * d ∧
      (lastBit n d = -1074 ∨ (2 : ℚ) ^ (lastBit n d + 52) * d ≤ n) := by
  have two_ne : (2 : ℚ) ≠ 0 := by norm_num
  have hdpos : (0 : ℚ) < d := by exact_mod_cast Nat.pos_of_ne_zero hd
  have hnlog : (2 : ℚ) ^ (Nat.log2 n : ℤ) ≤ n := by
    rw [zpow_natCast]
    exact_mod_cast Nat.log2_self_le hn
  have hnlog' : (n : ℚ) < 2 ^ ((Nat.log2 n : ℤ) + 1) := by
    have h := @Nat.lt_log2_self n
    have hcast : (2 : ℚ) ^ ((Nat.log2 n : ℤ) + 1) = ((2 ^ (Nat.log2 n + 1) : ℕ) : ℚ) := by
      push_cast
      exact_mod_cast zpow_natCast (2 : ℚ) (Nat.log2 n + 1)
    rw [hcast]
    exact_mod_cast h
  have hdlog : (2 : ℚ) ^ (Nat.log2 d : ℤ) ≤ d := by
    rw [zpow_natCast]
    exact_mod_cast Nat.log2_self_le hd
  have hdlog' : (d : ℚ) < 2 ^ ((Nat.log2 d : ℤ) + 1) := by
    have h := @Nat.lt_log2_self d
    have hcast : (2 : ℚ) ^ ((Nat.log2 d : ℤ) + 1) = ((2 ^ (Nat.log2 d + 1) : ℕ) : ℚ) := by
      push_cast
      exact_mod_cast zpow_natCast (2 : ℚ) (Nat.log2 d + 1)
    rw [hcast]
    exact_mod_cast h
  -- the first guess is right, or one too small
  obtain ⟨e, he⟩ : ∃ e : ℤ, (Nat.log2 n : ℤ) - Nat.log2 d - 53 = e := ⟨_, rfl⟩
  have habove : (n : ℚ) < 2 ^ (e + 54) * d := by
    calc (n : ℚ) < 2 ^ ((Nat.log2 n : ℤ) + 1) := hnlog'
      _ = 2 ^ (e + 54) * 2 ^ (Nat.log2 d : ℤ) := by
          rw [← zpow_add₀ two_ne]
          congr 1
          omega
      _ ≤ 2 ^ (e + 54) * d := by gcongr
  have hbelow : (2 : ℚ) ^ (e + 52) * d ≤ n := by
    calc (2 : ℚ) ^ (e + 52) * d ≤ 2 ^ (e + 52) * 2 ^ ((Nat.log2 d : ℤ) + 1) := by gcongr
      _ = 2 ^ (Nat.log2 n : ℤ) := by
          rw [← zpow_add₀ two_ne]
          congr 1
          omega
      _ ≤ n := hnlog
  have hguess : ∃ f : ℤ, lastBit n d = max f (-1074) ∧ (n : ℚ) < 2 ^ (f + 53) * d ∧
      (2 : ℚ) ^ (f + 52) * d ≤ n := by
    unfold lastBit
    dsimp only
    rw [he]
    have hcompare : 2 ^ 53 * (d * 2 ^ e.toNat) ≤ n * 2 ^ (-e).toNat ↔
        (2 : ℚ) ^ (e + 53) * d ≤ n := by
      rw [← mul_assoc, scaled_le_iff]
      push_cast
      rw [zpow_add₀ two_ne]
      norm_num
      rw [show (9007199254740992 : ℚ) * d * 2 ^ e = 2 ^ e * 9007199254740992 * d by ring]
    split_ifs with h
    · rw [hcompare] at h
      exact ⟨e + 1, rfl, by rwa [add_assoc], by rwa [add_assoc]⟩
    · rw [hcompare, not_le] at h
      exact ⟨e, rfl, h, hbelow⟩
  obtain ⟨f, hf, hlt, hle⟩ := hguess
  rw [hf]
  rcases le_total f (-1074) with hsmall | hlarge
  · rw [max_eq_right hsmall]
    refine ⟨hlt.trans_le ?_, .inl rfl⟩
    gcongr
    norm_num
  · rw [max_eq_left hlarge]
    exact ⟨hlt, .inr hle⟩

theorem halfEven_mul {k : ℕ} (hk : 0 < k) (c p : ℕ) : halfEven (c * k) (p * k) = halfEven c p := by
  unfold halfEven
  rw [Nat.mul_div_mul_right _ _ hk, Nat.mul_mod_mul_right, ← mul_assoc]
  refine if_congr ?_ rfl rfl
  rw [Nat.mul_lt_mul_right hk, Nat.mul_left_inj hk.ne']

theorem halfEven_mono_div {c p c' p' : ℕ} (hp : 0 < p) (hp' : 0 < p') (h : c * p' ≤ c' * p) :
    halfEven c p ≤ halfEven c' p' := by
  rw [← halfEven_mul hp' c p, ← halfEven_mul hp c' p', mul_comm p' p]
  exact Decimal.halfEven_mono (Nat.mul_pos hp hp') h

/-- `n / d` in units of `2 ^ e`, rounded half to even. -/
def units (e : ℤ) (n d : ℕ) : ℕ := halfEven (n * 2 ^ (-e).toNat) (d * 2 ^ e.toNat)

section Units
variable {e : ℤ} {n d n' d' k : ℕ}

theorem units_mono (hd : 0 < d) (hd' : 0 < d') (h : n * d' ≤ n' * d) :
    units e n d ≤ units e n' d' := by
  unfold units
  apply halfEven_mono_div (by positivity) (by positivity)
  calc n * 2 ^ (-e).toNat * (d' * 2 ^ e.toNat) = n * d' * (2 ^ (-e).toNat * 2 ^ e.toNat) := by ring
    _ ≤ n' * d * (2 ^ (-e).toNat * 2 ^ e.toNat) := Nat.mul_le_mul_right _ h
    _ = n' * 2 ^ (-e).toNat * (d * 2 ^ e.toNat) := by ring

theorem units_le (hd : 0 < d) (h : (n : ℚ) ≤ k * 2 ^ e * d) : units e n d ≤ k := by
  unfold units
  apply Decimal.halfEven_le_of_le (by positivity)
  have hpos : (0 : ℚ) < 2 ^ (-e).toNat := by positivity
  have hscaled := mul_le_mul_of_nonneg_right h hpos.le
  rw [show (k : ℚ) * 2 ^ e * d * 2 ^ (-e).toNat = k * d * (2 ^ e * 2 ^ (-e).toNat) by ring,
    two_zpow_toNat] at hscaled
  rw [← mul_assoc]
  exact_mod_cast hscaled

theorem le_units (hd : 0 < d) (h : (k : ℚ) * 2 ^ e * d ≤ n) : k ≤ units e n d := by
  unfold units
  apply Decimal.le_halfEven_of_le (by positivity)
  have hpos : (0 : ℚ) < 2 ^ (-e).toNat := by positivity
  have hscaled := mul_le_mul_of_nonneg_right h hpos.le
  rw [show (k : ℚ) * 2 ^ e * d * 2 ^ (-e).toNat = k * d * (2 ^ e * 2 ^ (-e).toNat) by ring,
    two_zpow_toNat] at hscaled
  rw [← mul_assoc]
  exact_mod_cast hscaled

end Units

def magnitudeOf (q : ℚ) : ℚ :=
  units (lastBit q.num.natAbs q.den) q.num.natAbs q.den * 2 ^ lastBit q.num.natAbs q.den

section Magnitude
variable {p q : ℚ}

theorem natAbs_eq (q : ℚ) : (q.num.natAbs : ℚ) = |q| * q.den := by
  have hden : (0 : ℚ) < q.den := by exact_mod_cast q.den_pos
  rw [← Rat.num_div_den |q|, Rat.num_abs_eq_abs_num, Rat.den_abs_eq_den]
  rw [div_mul_cancel₀ _ hden.ne', Nat.cast_natAbs]

/-- The exponent of the last bit of the number nearest to a rational. -/
def unitOf (q : ℚ) : ℤ := lastBit q.num.natAbs q.den

theorem two_zpow_add (e : ℤ) (k : ℕ) : (2 : ℚ) ^ (e + k) = (2 ^ k : ℕ) * 2 ^ e := by
  rw [zpow_add₀ (by norm_num), zpow_natCast, mul_comm]
  push_cast
  rfl

theorem unitOf_spec (hq : q ≠ 0) : |q| < (2 ^ 53 : ℕ) * 2 ^ unitOf q ∧
    (unitOf q = -1074 ∨ (2 ^ 52 : ℕ) * 2 ^ unitOf q ≤ |q|) := by
  have hden : (0 : ℚ) < q.den := by exact_mod_cast q.den_pos
  obtain ⟨hlt, hle⟩ := lastBit_spec (Int.natAbs_ne_zero.mpr (Rat.num_ne_zero.mpr hq)) q.den_nz
  rw [natAbs_eq] at hlt hle
  rw [← two_zpow_add, ← two_zpow_add]
  refine ⟨lt_of_mul_lt_mul_right hlt hden.le, ?_⟩
  rcases hle with h | h
  · exact .inl h
  · exact .inr (le_of_mul_le_mul_right h hden)

theorem two_units_le {e f : ℤ} (h : e < f) :
    ((2 ^ 53 : ℕ) : ℚ) * 2 ^ e ≤ (2 ^ 52 : ℕ) * 2 ^ f := by
  rw [← two_zpow_add, ← two_zpow_add]
  apply zpow_le_zpow_right₀ (by norm_num)
  push_cast
  omega

theorem neg_1074_le_unitOf (q : ℚ) : -1074 ≤ unitOf q := le_max_right _ _

theorem magnitudeOf_zero : magnitudeOf 0 = 0 := by decide +kernel

theorem magnitudeOf_nonneg (q : ℚ) : 0 ≤ magnitudeOf q := by
  unfold magnitudeOf
  positivity

theorem magnitudeOf_le {k : ℕ} (h : |q| ≤ k * 2 ^ unitOf q) :
    magnitudeOf q ≤ k * 2 ^ unitOf q := by
  have hunits := @units_le (unitOf q) q.num.natAbs q.den k q.den_pos (by
    rw [natAbs_eq]
    exact mul_le_mul_of_nonneg_right h (Nat.cast_nonneg _))
  unfold magnitudeOf
  apply mul_le_mul_of_nonneg_right _ (by positivity)
  exact_mod_cast hunits

theorem le_magnitudeOf {k : ℕ} (h : k * 2 ^ unitOf q ≤ |q|) :
    k * 2 ^ unitOf q ≤ magnitudeOf q := by
  have hunits := @le_units (unitOf q) q.num.natAbs q.den k q.den_pos (by
    rw [natAbs_eq]
    exact mul_le_mul_of_nonneg_right h (Nat.cast_nonneg _))
  unfold magnitudeOf
  apply mul_le_mul_of_nonneg_right _ (by positivity)
  exact_mod_cast hunits

theorem unitOf_mono (hp : p ≠ 0) (hq : q ≠ 0) (h : |p| ≤ |q|) : unitOf p ≤ unitOf q := by
  by_contra hlt
  rw [not_le] at hlt
  have hsmallest := neg_1074_le_unitOf q
  have hbig : unitOf p ≠ -1074 := by omega
  have hle := (unitOf_spec hp).2.resolve_left hbig
  linarith [(unitOf_spec hq).1, two_units_le hlt]

/-- Rounding keeps the order of two magnitudes. -/
theorem magnitudeOf_mono (h : |p| ≤ |q|) : magnitudeOf p ≤ magnitudeOf q := by
  rcases eq_or_ne p 0 with rfl | hp
  · rw [magnitudeOf_zero]
    exact magnitudeOf_nonneg q
  have hq : q ≠ 0 := by
    rintro rfl
    rw [abs_zero] at h
    exact hp (abs_nonpos_iff.mp h)
  rcases (unitOf_mono hp hq h).eq_or_lt with heq | hlt
  · have hunits := @units_mono (unitOf q) p.num.natAbs p.den q.num.natAbs q.den p.den_pos q.den_pos
      (by
        have hscaled := mul_le_mul_of_nonneg_right h
          (by positivity : (0 : ℚ) ≤ (p.den : ℚ) * q.den)
        have hcast : (p.num.natAbs : ℚ) * q.den ≤ q.num.natAbs * p.den := by
          rw [natAbs_eq, natAbs_eq]
          linarith
        exact_mod_cast hcast)
    change (units (unitOf p) _ _ : ℚ) * 2 ^ unitOf p ≤ units (unitOf q) _ _ * 2 ^ unitOf q
    rw [heq]
    apply mul_le_mul_of_nonneg_right _ (by positivity)
    exact_mod_cast hunits
  · have hbig : unitOf q ≠ -1074 := by
      have := neg_1074_le_unitOf p
      omega
    calc magnitudeOf p ≤ (2 ^ 53 : ℕ) * 2 ^ unitOf p := magnitudeOf_le (unitOf_spec hp).1.le
      _ ≤ (2 ^ 52 : ℕ) * 2 ^ unitOf q := two_units_le hlt
      _ ≤ magnitudeOf q := le_magnitudeOf ((unitOf_spec hq).2.resolve_left hbig)

theorem magnitudeOf_eq {k : ℕ} (h : |q| = k * 2 ^ unitOf q) : magnitudeOf q = |q| := by
  rw [h]
  exact le_antisymm (magnitudeOf_le h.le) (le_magnitudeOf h.ge)

/-- A number is the nearest to itself. -/
theorem magnitudeOf_magnitudeOf (q : ℚ) : magnitudeOf (magnitudeOf q) = magnitudeOf q := by
  rcases eq_or_ne q 0 with rfl | hq
  · rw [magnitudeOf_zero, magnitudeOf_zero]
  obtain ⟨k, hk⟩ : ∃ k : ℕ, magnitudeOf q = k * 2 ^ unitOf q := ⟨_, rfl⟩
  have habs : |magnitudeOf q| = magnitudeOf q := abs_of_nonneg (magnitudeOf_nonneg q)
  rcases eq_or_ne (magnitudeOf q) 0 with hzero | hm
  · rw [hzero, magnitudeOf_zero]
  obtain ⟨-, hspec⟩ := unitOf_spec hm
  rw [habs] at hspec
  rcases le_or_gt (unitOf (magnitudeOf q)) (unitOf q) with hle | hlt
  · obtain ⟨j, hj⟩ := Int.le.dest hle
    have hmultiple : |magnitudeOf q| = (k * 2 ^ j : ℕ) * 2 ^ unitOf (magnitudeOf q) := by
      rw [habs]
      conv_lhs => rw [hk, ← hj]
      rw [two_zpow_add]
      push_cast
      ring
    rw [magnitudeOf_eq hmultiple, habs]
  · -- the magnitude was rounded up to a power of two
    have hbig : unitOf (magnitudeOf q) ≠ -1074 := by
      have := neg_1074_le_unitOf q
      omega
    have hge := hspec.resolve_left hbig
    have hupper := magnitudeOf_le (unitOf_spec hq).1.le
    have hmultiple : |magnitudeOf q| = (2 ^ 52 : ℕ) * 2 ^ unitOf (magnitudeOf q) := by
      rw [habs]
      exact le_antisymm (hupper.trans (two_units_le hlt)) hge
    rw [magnitudeOf_eq hmultiple, habs]

/-- The number nearest to a rational, as if there were no greatest one. -/
def valueOf (q : ℚ) : ℚ := signed (decide (q < 0)) (magnitudeOf q)

theorem valueOf_of_nonneg (h : 0 ≤ q) : valueOf q = magnitudeOf q := by
  rw [valueOf, decide_eq_false (not_lt.mpr h), signed, if_neg (by decide)]

theorem valueOf_of_neg (h : q < 0) : valueOf q = -magnitudeOf q := by
  rw [valueOf, decide_eq_true h, signed, if_pos rfl]

theorem valueOf_mono (h : p ≤ q) : valueOf p ≤ valueOf q := by
  rcases lt_or_ge p 0 with hp | hp
  · rw [valueOf_of_neg hp]
    rcases lt_or_ge q 0 with hq | hq
    · rw [valueOf_of_neg hq]
      apply neg_le_neg
      apply magnitudeOf_mono
      rw [abs_of_neg hp, abs_of_neg hq]
      linarith
    · rw [valueOf_of_nonneg hq]
      linarith [magnitudeOf_nonneg p, magnitudeOf_nonneg q]
  · have hq : 0 ≤ q := hp.trans h
    rw [valueOf_of_nonneg hp, valueOf_of_nonneg hq]
    apply magnitudeOf_mono
    rwa [abs_of_nonneg hp, abs_of_nonneg hq]

theorem magnitudeOf_congr (h : |p| = |q|) : magnitudeOf p = magnitudeOf q :=
  le_antisymm (magnitudeOf_mono h.le) (magnitudeOf_mono h.ge)

theorem valueOf_valueOf (q : ℚ) : valueOf (valueOf q) = valueOf q := by
  have hnonneg := magnitudeOf_nonneg q
  rcases lt_or_ge q 0 with hq | hq
  · rw [valueOf_of_neg hq]
    have hsame : magnitudeOf (-magnitudeOf q) = magnitudeOf q :=
      (magnitudeOf_congr (abs_neg _)).trans (magnitudeOf_magnitudeOf q)
    rcases hnonneg.eq_or_lt with hzero | hpos
    · rw [← hzero, neg_zero, valueOf_of_nonneg le_rfl, magnitudeOf_zero]
    · rw [valueOf_of_neg (by linarith), hsame]
  · rw [valueOf_of_nonneg hq, valueOf_of_nonneg hnonneg, magnitudeOf_magnitudeOf]

def Overflows (q : ℚ) : Prop := 2 ^ 1024 ≤ magnitudeOf q

instance (q : ℚ) : Decidable (Overflows q) := by
  unfold Overflows
  infer_instance

theorem rounded_eq (negative : Bool) (q : ℚ) : rounded negative q =
    if Overflows q then infinite (decide (q < 0))
    else finite (if q = 0 then negative else decide (q < 0)) (magnitudeOf q) := by
  unfold rounded
  split_ifs with hq h h
  · rw [hq, Overflows, magnitudeOf_zero] at h
    exact (not_le.mpr (by positivity) h).elim
  · rw [hq, magnitudeOf_zero]
  · unfold nearest
    rw [if_neg (Int.natAbs_ne_zero.mpr (Rat.num_ne_zero.mpr hq))]
    exact if_pos h
  · unfold nearest
    rw [if_neg (Int.natAbs_ne_zero.mpr (Rat.num_ne_zero.mpr hq))]
    exact if_neg h

theorem signed_zero (negative : Bool) : signed negative 0 = 0 := by
  unfold signed
  split_ifs
  · exact neg_zero
  · rfl

theorem toRat?_eq (negative : Bool) (magnitude : ℚ) :
    (finite negative magnitude).toRat? = some (signed negative magnitude) := rfl

theorem toRat?_rounded {negative : Bool} (h : ¬ Overflows q) :
    (rounded negative q).toRat? = some (valueOf q) := by
  rw [rounded_eq, if_neg h, toRat?_eq]
  split_ifs with hq
  · rw [hq, magnitudeOf_zero, signed_zero, valueOf_of_nonneg le_rfl, magnitudeOf_zero]
  · rfl

/-- Rounding keeps the order of two numbers. -/
theorem le_rounded {s t : Bool} (h : p ≤ q) : le (rounded s p) (rounded t q) = true := by
  by_cases hp : Overflows p
  · rw [rounded_eq s p, if_pos hp]
    rcases lt_or_ge p 0 with hneg | hnonneg
    · rw [decide_eq_true hneg, rounded_eq]
      split <;> rfl
    · have hq : Overflows q := by
        refine le_trans hp (magnitudeOf_mono ?_)
        rwa [abs_of_nonneg hnonneg, abs_of_nonneg (hnonneg.trans h)]
      rw [rounded_eq, if_pos hq, decide_eq_false (not_lt.mpr (hnonneg.trans h))]
      exact Bool.or_true _
  · by_cases hq : Overflows q
    · have hnonneg : 0 ≤ q := by
        by_contra hneg
        rw [not_le] at hneg
        apply hp
        refine le_trans hq (magnitudeOf_mono ?_)
        rw [abs_of_neg hneg, abs_of_neg (h.trans_lt hneg)]
        linarith
      rw [rounded_eq s p, if_neg hp, rounded_eq t q, if_pos hq,
        decide_eq_false (not_lt.mpr hnonneg)]
      rfl
    · have hvalue := valueOf_mono h
      have hfirst := @toRat?_rounded p s hp
      have hsecond := @toRat?_rounded q t hq
      rw [rounded_eq, if_neg hp] at hfirst ⊢
      rw [rounded_eq, if_neg hq] at hsecond ⊢
      rw [toRat?_eq, Option.some.injEq] at hfirst hsecond
      change decide (signed _ _ ≤ signed _ _) = true
      rw [hfirst, hsecond]
      exact decide_eq_true hvalue

def isNan : Binary64 → Bool
  | nan => true
  | _ => false

theorem isNan_rounded (s : Bool) (q : ℚ) : (rounded s q).isNan = false := by
  rw [rounded_eq]
  split <;> rfl

theorem lt_eq_not_le {x y : Binary64} (hx : x.isNan = false) (hy : y.isNan = false) :
    lt x y = !le y x := by
  cases x with
  | nan => cases hx
  | infinite s =>
    cases y with
    | nan => cases hy
    | infinite t => cases s <;> cases t <;> rfl
    | finite t y => cases s <;> rfl
  | finite s x =>
    cases y with
    | nan => cases hy
    | infinite t => cases t <;> rfl
    | finite t y =>
      unfold lt le
      rw [← decide_not, decide_eq_decide]
      exact not_le.symm

theorem lt_of_lt_rounded {s t : Bool} (h : lt (rounded s p) (rounded t q) = true) : p < q := by
  rw [lt_eq_not_le (isNan_rounded s p) (isNan_rounded t q), Bool.not_eq_true'] at h
  by_contra hle
  rw [le_rounded (not_lt.mp hle)] at h
  cases h

theorem lt_of_not_le_rounded {s t : Bool} (h : le (rounded s p) (rounded t q) ≠ true) : q < p := by
  by_contra hle
  exact h (le_rounded (not_lt.mp hle))

theorem abs_rounded (s : Bool) (q : ℚ) : abs (rounded s q) = rounded false |q| := by
  have hsame : magnitudeOf |q| = magnitudeOf q := magnitudeOf_congr (abs_abs q)
  have hnonneg : ¬ |q| < 0 := not_lt.mpr (abs_nonneg q)
  have hoverflows : Overflows |q| ↔ Overflows q := by rw [Overflows, Overflows, hsame]
  rw [rounded_eq, rounded_eq, hsame, decide_eq_false hnonneg]
  by_cases h : Overflows q
  · rw [if_pos h, if_pos (hoverflows.mpr h)]
    rfl
  · rw [if_neg h, if_neg fun h' => h (hoverflows.mp h'), ite_self]
    rfl

theorem sub_eq_rounded {x y : Binary64} {a b : ℚ} (hx : x.toRat? = some a)
    (hy : y.toRat? = some b) : ∃ s, sub x y = rounded s (a - b) := by
  cases x with
  | nan => cases hx
  | infinite s => cases hx
  | finite s x =>
    cases y with
    | nan => cases hy
    | infinite t => cases hy
    | finite t y =>
      rw [toRat?_eq, Option.some.injEq] at hx hy
      refine ⟨s && !t, ?_⟩
      have hneg : signed (!t) y = -b := by
        rw [← hy]
        cases t
        · rfl
        · exact (neg_neg y).symm
      change rounded (s && !t) (signed s x + signed (!t) y) = _
      rw [hx, hneg, sub_eq_add_neg]

/-- A rational is less than a number. -/
def Below (q : ℚ) : Binary64 → Prop
  | finite negative magnitude => q < signed negative magnitude
  | infinite negative => negative = false
  | nan => False

instance (q : ℚ) (t : Binary64) : Decidable (Below q t) := by
  unfold Below
  split <;> infer_instance

theorem lt_zero_infinite (s : Bool) : lt (infinite s) (finite false 0) = s := rfl

theorem sub_infinite {x : Binary64} {a : ℚ} (hx : x.toRat? = some a) (s : Bool) :
    sub x (infinite s) = infinite (!s) := by
  cases x with
  | nan => cases hx
  | infinite t => cases hx
  | finite t x => rfl

section Margin
variable {x t : Binary64} {a b g : ℚ} {sign : Bool}

/-- A difference beyond the margin has the sign of the exact difference, which is beyond it too. -/
theorem beyond_margin (hx : x.toRat? = some a) (ht : t.toRat? = some b) (hg : 0 ≤ g)
    (hgray : le (abs (sub x t)) (rounded sign g) ≠ true) :
    (lt (sub x t) (finite false 0) = true ∧ a < b - g) ∨
      (lt (sub x t) (finite false 0) ≠ true ∧ b + g < a) := by
  obtain ⟨s, hsub⟩ := sub_eq_rounded hx ht
  rw [hsub, abs_rounded] at hgray
  have hbeyond := lt_of_not_le_rounded hgray
  have hzero : (finite false 0 : Binary64) = rounded false 0 := (if_pos rfl).symm
  rw [hsub]
  by_cases hlt : lt (rounded s (a - b)) (finite false 0) = true
  · refine .inl ⟨hlt, ?_⟩
    rw [hzero] at hlt
    have hneg := lt_of_lt_rounded hlt
    rw [abs_of_neg hneg] at hbeyond
    linarith
  · refine .inr ⟨hlt, ?_⟩
    have hnonneg : 0 ≤ a - b := by
      by_contra hneg
      rw [not_le] at hneg
      have hover : ¬ Overflows (a - b) := by
        intro hover
        apply hlt
        rw [rounded_eq, if_pos hover, decide_eq_true hneg]
        rfl
      -- a negative difference that is not below zero was rounded to it
      have hrounded : rounded s (a - b) = finite true (magnitudeOf (a - b)) := by
        rw [rounded_eq, if_neg hover, if_neg hneg.ne, decide_eq_true hneg]
      have hvanished : magnitudeOf (a - b) = 0 := by
        rw [hrounded] at hlt
        refine le_antisymm ?_ (magnitudeOf_nonneg _)
        by_contra hpos
        apply hlt
        exact decide_eq_true (neg_lt_neg (not_le.mp hpos))
      apply hgray
      rw [← abs_rounded s, hrounded, hvanished]
      change le (finite false 0) (rounded sign g) = true
      rw [hzero]
      exact le_rounded hg
    rw [abs_of_nonneg hnonneg] at hbeyond
    linarith

theorem Below_of_toRat? (ht : t.toRat? = some b) (q : ℚ) : Below q t ↔ q < b := by
  cases t with
  | nan => cases ht
  | infinite s => cases ht
  | finite s y =>
    rw [toRat?_eq, Option.some.injEq] at ht
    rw [← ht]
    rfl

theorem lt_zero_iff_below {net : ℚ} (hx : x.toRat? = some a) (hclose : |a - net| ≤ g)
    (ht : t.isNan = false) (hgray : le (abs (sub x t)) (rounded sign g) ≠ true) :
    lt (sub x t) (finite false 0) = true ↔ Below net t := by
  rw [abs_le] at hclose
  cases t with
  | nan => cases ht
  | infinite s =>
    rw [sub_infinite hx, lt_zero_infinite, Below, Bool.not_eq_true']
  | finite s y =>
    have hy : (finite s y).toRat? = some (signed s y) := rfl
    rw [Below_of_toRat? hy]
    rcases beyond_margin hx hy (by linarith) hgray with ⟨hlt, h⟩ | ⟨hlt, h⟩
    · refine iff_of_true hlt ?_
      linarith
    · refine iff_of_false hlt ?_
      linarith

theorem lt_zero_iff_below_nat {n : ℕ} {d : Decimal} (hn : ¬ Overflows n) (hg : 0 ≤ g)
    (hgray : le (abs (sub (ofNat n) (ofExact d))) (rounded sign g) ≠ true) :
    lt (sub (ofNat n) (ofExact d)) (finite false 0) = true ↔ Below n (ofExact d) := by
  have hx : (ofNat n).toRat? = some (valueOf n) := toRat?_rounded hn
  by_cases hover : Overflows d.toRat
  · have hinfinite : ofExact d = infinite (decide (d.toRat < 0)) := by
      rw [ofExact, rounded_eq, if_pos hover]
    rw [hinfinite, sub_infinite hx, lt_zero_infinite, Below, Bool.not_eq_true']
  · have hy : (ofExact d).toRat? = some (valueOf d.toRat) := toRat?_rounded hover
    rw [Below_of_toRat? hy]
    rcases beyond_margin hx hy hg hgray with ⟨hlt, h⟩ | ⟨hlt, h⟩
    · refine iff_of_true hlt ?_
      by_contra hle
      have hvalue := valueOf_mono (not_lt.mp hle)
      rw [valueOf_valueOf] at hvalue
      linarith
    · refine iff_of_false hlt ?_
      intro hlt'
      have hvalue := valueOf_mono hlt'.le
      rw [valueOf_valueOf] at hvalue
      linarith

end Margin

end Magnitude

end Binary64

end Json
