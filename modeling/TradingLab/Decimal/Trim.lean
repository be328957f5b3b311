import TradingLab.Decimal.Format
import TradingLab.Decimal.Quotient

/-!
# Texts without zeros at the end

The trimmed text of a numeral is the fixed-point text of a numeral of the same
value whose fraction does not end with a zero. So it depends on nothing but the
value and the sign, and tells how many fraction digits the value needs.
-/

namespace Decimal

open List

/-- Take zeros from the end of a fraction of `k` digits. -/
def stripFraction : ℕ → ℕ → ℕ × ℕ
  | 0, c => (c, 0)
  | k + 1, c => if c % 10 = 0 then stripFraction k (c / 10) else (c, k + 1)

/-- The numeral without zeros at the end of its fraction. -/
def trimmed (d : Decimal) : Decimal :=
  if 0 ≤ d.exponent then ⟨d.negative, d.coefficient * 10 ^ d.exponent.toNat, 0⟩
  else
    let stripped := stripFraction (-d.exponent).toNat d.coefficient
    ⟨d.negative, stripped.1, -(stripped.2 : ℤ)⟩

theorem toRat_stripFraction (negative : Bool) (k c : ℕ) :
    (⟨negative, (stripFraction k c).1, -((stripFraction k c).2 : ℤ)⟩ : Decimal).toRat =
      (⟨negative, c, -(k : ℤ)⟩ : Decimal).toRat := by
  induction k generalizing c with
  | zero => rfl
  | succ k ih =>
    rw [stripFraction]
    split_ifs with h
    · have hc : c = c / 10 * 10 ^ 1 := by omega
      have hshift := toRat_shift negative (c / 10) 1 (-((k + 1 : ℕ) : ℤ))
      rw [← hc] at hshift
      rw [ih, ← hshift]
      congr 2
      push_cast
      omega
    · rfl

theorem stripFraction_last (k c : ℕ) :
    (stripFraction k c).2 = 0 ∨ (stripFraction k c).1 % 10 ≠ 0 := by
  induction k generalizing c with
  | zero => exact .inl rfl
  | succ k ih =>
    rw [stripFraction]
    split_ifs with h
    · exact ih (c / 10)
    · exact .inr h

@[simp] theorem negative_trimmed (d : Decimal) : d.trimmed.negative = d.negative := by
  unfold trimmed
  split <;> rfl

theorem exponent_trimmed (d : Decimal) : d.trimmed.exponent ≤ 0 := by
  unfold trimmed
  split
  · exact le_rfl
  · simp

theorem trimmed_last (d : Decimal) : d.trimmed.exponent = 0 ∨ d.trimmed.coefficient % 10 ≠ 0 := by
  unfold trimmed
  split
  · exact .inl rfl
  · simpa using stripFraction_last (-d.exponent).toNat d.coefficient

@[simp] theorem toRat_trimmed (d : Decimal) : d.trimmed.toRat = d.toRat := by
  obtain ⟨negative, c, e⟩ := d
  unfold trimmed
  split
  · rename_i he
    have hshift := toRat_shift negative c e.toNat 0
    have hexp : 0 + (e.toNat : ℤ) = e := by
      dsimp only at he
      omega
    rw [hexp] at hshift
    exact hshift.symm
  · rename_i he
    dsimp only at he ⊢
    have hk : -((-e).toNat : ℤ) = e := by omega
    rw [toRat_stripFraction, hk]

variable {d d' : Decimal} {k n : ℕ} {cs : List Char}

theorem coefficient_of_toRat (hle : d.exponent ≤ d'.exponent) (hvalue : d.toRat = d'.toRat) :
    d.coefficient = d'.coefficient * 10 ^ (d'.exponent - d.exponent).toNat := by
  have h := (equiv_iff_scaled d d').mpr hvalue
  rw [min_eq_left hle] at h
  have habs := congrArg Int.natAbs h
  simpa [scaled, Int.natAbs_mul, natAbs_int, Int.natAbs_pow] using habs

/-- A numeral without zeros at the end of its fraction is known by its sign and its value. -/
theorem trimmed_congr (hsign : d.negative = d'.negative)
    (hvalue : d.toRat = d'.toRat) : d.trimmed = d'.trimmed := by
  wlog hle : d.trimmed.exponent ≤ d'.trimmed.exponent generalizing d d'
  · exact (this hsign.symm hvalue.symm (by omega)).symm
  have hrat : d.trimmed.toRat = d'.trimmed.toRat := by
    rw [toRat_trimmed, toRat_trimmed, hvalue]
  have hcoefficient := coefficient_of_toRat hle hrat
  have hexponent : d.trimmed.exponent = d'.trimmed.exponent := by
    rcases trimmed_last d with hzero | hlast
    · have hnonpos := exponent_trimmed d'
      omega
    · by_contra hne
      obtain ⟨j, hj⟩ : ∃ j, (d'.trimmed.exponent - d.trimmed.exponent).toNat = j + 1 :=
        ⟨(d'.trimmed.exponent - d.trimmed.exponent).toNat - 1, by omega⟩
      rw [hcoefficient, hj, pow_succ, ← mul_assoc] at hlast
      exact hlast (Nat.mul_mod_left _ 10)
  have hzero : (d'.trimmed.exponent - d.trimmed.exponent).toNat = 0 := by omega
  rw [hzero, pow_zero, mul_one] at hcoefficient
  have hnegative : d.trimmed.negative = d'.trimmed.negative := by simp [hsign]
  cases h : d.trimmed with
  | mk n c e =>
    cases h' : d'.trimmed with
    | mk n' c' e' =>
      rw [h, h'] at hexponent hcoefficient hnegative
      simp_all

theorem paddedChars_succ (hk : 0 < k) (hn : n < 10 ^ (k + 1)) :
    paddedChars (k + 1) n = paddedChars k (n / 10) ++ [Nat.digitChar (n % 10)] := by
  have hlast : n % 10 < 10 := Nat.mod_lt _ (by norm_num)
  have hfront : n / 10 < 10 ^ k := by
    rw [Nat.div_lt_iff_lt_mul (by norm_num), ← pow_succ]
    exact hn
  have hchar : [Nat.digitChar (n % 10)] = Nat.toDigits 10 (n % 10) :=
    (Nat.toDigits_of_lt_base hlast).symm
  have hdigits : (paddedChars k (n / 10) ++ [Nat.digitChar (n % 10)]).all Char.isDigit := by
    rw [all_append, all_isDigit_paddedChars, hchar, all_isDigit_toDigits]
    rfl
  have hvalue : digitsValue (paddedChars k (n / 10) ++ [Nat.digitChar (n % 10)]) = n := by
    rw [digitsValue_append_eq, digitsValue_paddedChars, length_singleton, hchar,
      digitsValue_toDigits]
    omega
  have hpadded := paddedChars_digitsValue hdigits (by simp)
  rw [length_append, length_paddedChars hk hfront, length_singleton, hvalue] at hpadded
  exact hpadded

theorem digitChar_ne_zero (hn : n < 10) (h0 : n ≠ 0) : Nat.digitChar n ≠ '0' := by
  interval_cases n <;> first | exact absurd rfl h0 | decide

theorem digitChar_ne_point (hn : n < 10) : Nat.digitChar n ≠ '.' := by
  interval_cases n <;> decide

theorem trimFraction_of_last (hn : n < 10) (h0 : n ≠ 0) :
    trimFraction (cs ++ [Nat.digitChar n]) = cs ++ [Nat.digitChar n] := by
  unfold trimFraction
  split
  · rw [rdropWhile_concat_neg _ _ _ (by simpa using digitChar_ne_zero hn h0),
      rdropWhile_concat_neg _ _ _ (by simp [digitChar_ne_point hn])]
  · rfl

theorem trimFraction_of_zero (h : '.' ∈ cs) :
    trimFraction (cs ++ ['0']) = trimFraction cs := by
  unfold trimFraction
  rw [if_pos (mem_append_left _ h), if_pos h, rdropWhile_concat_pos _ _ _ rfl]

theorem trimFraction_of_point (h : cs.all Char.isDigit) (hne : cs ≠ [])
    (sign : List Char) : trimFraction (sign ++ cs ++ ['.', '0']) = sign ++ cs := by
  obtain ⟨front, c, rfl⟩ := (eq_nil_or_concat cs).resolve_left hne
  have hc : c.isDigit := all_eq_true.mp h c (by simp)
  have hpoint : c ≠ '.' := by
    rintro rfl
    exact absurd hc (by decide)
  have hcut : sign ++ front.concat c ++ ['.', '0'] = (sign ++ front ++ [c] ++ ['.']) ++ ['0'] := by
    simp
  rw [hcut, trimFraction, if_pos (by simp), rdropWhile_concat_pos _ _ _ rfl,
    rdropWhile_concat_neg _ _ _ (by decide), rdropWhile_concat_pos _ _ _ rfl,
    rdropWhile_concat_neg _ _ _ (by simp [hpoint])]
  simp

theorem fixedChars_fraction (c k : ℕ) : fixedChars c (-((k + 1 : ℕ) : ℤ)) =
    Nat.toDigits 10 (c / 10 ^ (k + 1)) ++ '.' :: paddedChars (k + 1) (c % 10 ^ (k + 1)) := by
  have hk : (-(-((k + 1 : ℕ) : ℤ))).toNat = k + 1 := by omega
  rw [fixedChars, if_neg (by omega), hk]

theorem fixedChars_of_zero {c : ℕ} (h : c % 10 = 0) :
    fixedChars c (-((k + 2 : ℕ) : ℤ)) = fixedChars (c / 10) (-((k + 1 : ℕ) : ℤ)) ++ ['0'] := by
  have hlt : c % 10 ^ (k + 2) < 10 ^ (k + 2) := Nat.mod_lt _ (by positivity)
  have hlast : c % 10 ^ (k + 2) % 10 = 0 := by
    rw [Nat.mod_mod_of_dvd c (dvd_pow_self 10 (by omega)), h]
  have hfront : c % 10 ^ (k + 2) / 10 = c / 10 % 10 ^ (k + 1) := by
    rw [pow_succ', Nat.mod_mul_right_div_self]
  have hwhole : c / 10 ^ (k + 2) = c / 10 / 10 ^ (k + 1) := by
    rw [Nat.div_div_eq_div_mul, ← pow_succ']
  rw [fixedChars_fraction c (k + 1), fixedChars_fraction (c / 10) k,
    paddedChars_succ (by omega) hlt, hlast, hfront, hwhole]
  simp

theorem fixedChars_of_last {c : ℕ} :
    ∃ cs, fixedChars c (-((k + 1 : ℕ) : ℤ)) = cs ++ [Nat.digitChar (c % 10)] := by
  have hlt : c % 10 ^ (k + 1) < 10 ^ (k + 1) := Nat.mod_lt _ (by positivity)
  have hlast : c % 10 ^ (k + 1) % 10 = c % 10 := Nat.mod_mod_of_dvd c (dvd_pow_self 10 (by omega))
  rw [fixedChars_fraction]
  cases k with
  | zero =>
    refine ⟨Nat.toDigits 10 (c / 10 ^ 1) ++ ['.'], ?_⟩
    have hone : paddedChars (0 + 1) (c % 10 ^ (0 + 1)) = [Nat.digitChar (c % 10)] := by
      rw [paddedChars, zero_add, pow_one, Nat.toDigits_of_lt_base (Nat.mod_lt _ (by norm_num))]
      rfl
    rw [hone]
    simp
  | succ k =>
    rw [paddedChars_succ (by omega) hlt, hlast]
    exact ⟨Nat.toDigits 10 (c / 10 ^ (k + 1 + 1)) ++
      '.' :: paddedChars (k + 1) (c % 10 ^ (k + 1 + 1) / 10), by simp⟩

theorem point_mem_fixedChars (c k : ℕ) : '.' ∈ fixedChars c (-((k + 1 : ℕ) : ℤ)) := by
  rw [fixedChars_fraction]
  simp

theorem point_not_mem_toDigits (c : ℕ) : '.' ∉ Nat.toDigits 10 c := fun h =>
  absurd (isDigit_of_mem h) (by decide)

/-- The trimmed text of a fraction is that of the stripped one. -/
theorem trimFraction_fixedChars {sign : List Char} (hsign : '.' ∉ sign) (k c : ℕ) :
    trimFraction (sign ++ fixedChars c (-(k : ℤ))) =
      sign ++ fixedChars (stripFraction k c).1 (-((stripFraction k c).2 : ℤ)) := by
  induction k generalizing c with
  | zero =>
    have hnot : '.' ∉ sign ++ fixedChars c (-((0 : ℕ) : ℤ)) := by
      have hdigits := point_not_mem_toDigits c
      simp [fixedChars, hsign, hdigits]
    rw [trimFraction, if_neg hnot]
    rfl
  | succ k ih =>
    rw [stripFraction]
    split_ifs with h
    · cases k with
      | zero =>
        have hone : fixedChars c (-((0 + 1 : ℕ) : ℤ)) =
            Nat.toDigits 10 (c / 10) ++ ['.', '0'] := by
          rw [fixedChars_fraction, zero_add, pow_one, h]
          rfl
        rw [hone, ← append_assoc,
          trimFraction_of_point (all_isDigit_toDigits _) Nat.toDigits_ne_nil]
        simp [stripFraction, fixedChars]
      | succ k =>
        have hpoint := point_mem_fixedChars (c / 10) k
        rw [fixedChars_of_zero h, ← append_assoc,
          trimFraction_of_zero (mem_append_right _ hpoint), ih]
    · obtain ⟨cs, hcs⟩ := fixedChars_of_last (c := c) (k := k)
      rw [hcs, ← append_assoc, trimFraction_of_last (Nat.mod_lt _ (by norm_num)) h]

/-- Trimming the text of a numeral gives the text of the trimmed numeral. -/
theorem trimFraction_fixed (d : Decimal) :
    String.ofList (trimFraction d.fixed.toList) = d.trimmed.fixed := by
  obtain ⟨negative, c, e⟩ := d
  have hsign : '.' ∉ (if negative then ['-'] else []) := by cases negative <;> simp
  have hsplit : ∀ cs : List Char, (if negative then '-' :: cs else cs) =
      (if negative then ['-'] else []) ++ cs := by
    intro cs
    cases negative <;> rfl
  have hfixed : ∀ (c : ℕ) (e : ℤ), (⟨negative, c, e⟩ : Decimal).fixed =
      String.ofList ((if negative then ['-'] else []) ++ fixedChars c e) := fun c e =>
    congrArg String.ofList (hsplit _)
  by_cases he : 0 ≤ e
  · have hsame : fixedChars c e = fixedChars (c * 10 ^ e.toNat) (-((0 : ℕ) : ℤ)) := by
      simp [fixedChars, he]
    have htrimmed : (⟨negative, c, e⟩ : Decimal).trimmed = ⟨negative, c * 10 ^ e.toNat, 0⟩ :=
      if_pos he
    rw [htrimmed, hfixed, hfixed, String.toList_ofList, hsame, trimFraction_fixedChars hsign]
    rfl
  · have hk : e = -((-e).toNat : ℤ) := by omega
    have htrimmed : (⟨negative, c, e⟩ : Decimal).trimmed =
        ⟨negative, (stripFraction (-e).toNat c).1, -((stripFraction (-e).toNat c).2 : ℤ)⟩ :=
      if_neg he
    rw [htrimmed, hfixed, hfixed, String.toList_ofList]
    conv_lhs => rw [hk]
    rw [trimFraction_fixedChars hsign]

theorem trimFraction_congr (hsign : d.negative = d'.negative)
    (hvalue : d.toRat = d'.toRat) : String.ofList (trimFraction d.fixed.toList) =
      String.ofList (trimFraction d'.fixed.toList) := by
  rw [trimFraction_fixed, trimFraction_fixed, trimmed_congr hsign hvalue]

theorem toRat_ofText_trimFraction (d : Decimal) :
    (ofText (String.ofList (trimFraction d.fixed.toList))).toRat = d.toRat := by
  rw [trimFraction_fixed, toRat_ofText_fixed, toRat_trimmed]

/-- A trimmed numeral has no more fraction digits than its value needs. -/
theorem onGrid_iff_trimmed {f : ℕ} (d : Decimal) : OnGrid f d.toRat ↔ -d.trimmed.exponent ≤ f := by
  rw [← toRat_trimmed]
  constructor
  · rintro ⟨n, hn⟩
    rcases trimmed_last d with hzero | hlast
    · omega
    · by_contra hlong
      have hgrid : (Decimal.ofInt n (-(f : ℤ))).toRat = d.trimmed.toRat := by
        rw [toRat_ofInt, ← hn, mul_assoc, zpow_neg, zpow_natCast,
          mul_inv_cancel₀ (by positivity), mul_one]
      have hle : d.trimmed.exponent ≤ (Decimal.ofInt n (-(f : ℤ))).exponent := by
        change d.trimmed.exponent ≤ -(f : ℤ)
        omega
      have hcoefficient := coefficient_of_toRat hle hgrid.symm
      obtain ⟨j, hj⟩ : ∃ j, ((Decimal.ofInt n (-(f : ℤ))).exponent - d.trimmed.exponent).toNat =
          j + 1 := by
        refine ⟨(-(f : ℤ) - d.trimmed.exponent).toNat - 1, ?_⟩
        change (-(f : ℤ) - d.trimmed.exponent).toNat = _
        omega
      rw [hj, pow_succ, ← mul_assoc] at hcoefficient
      exact hlast (by rw [hcoefficient]; exact Nat.mul_mod_left _ 10)
  · intro h
    exact onGrid_toRat (by omega)

theorem unsignedText_trimFraction {w f : ℕ} (hw : 0 < w) (hn : d.negative = false)
    (hlt : d.toRat < 10 ^ w) :
    unsignedText w f (String.ofList (trimFraction d.fixed.toList)) = true ↔ OnGrid f d.toRat := by
  rw [trimFraction_fixed, unsignedText_fixed hw (exponent_trimmed d) (by simp [hn]) (by simpa),
    onGrid_iff_trimmed]

end Decimal
