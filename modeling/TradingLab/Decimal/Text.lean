import TradingLab.Decimal.Exact
import TradingLab.Text.Digits

/-!
# Plain decimal texts

The texts read here are a non-empty digit string without a superfluous leading
zero, optionally followed by a point and a non-empty digit string; the lengths
of both parts are bounded. Reading such a text is exact: the digits become the
coefficient and the fraction digits count the exponent down.
-/

namespace Decimal

/-- The digits before the point, and those after it when there is one. -/
def splitPoint (cs : List Char) : List Char × Option (List Char) :=
  (cs.takeWhile (· ≠ '.'),
    match cs.dropWhile (· ≠ '.') with
    | [] => none
    | _ :: fraction => some fraction)

/-- `0`, or at most `w` digits that do not start with `0`. -/
def wholeText (w : ℕ) (cs : List Char) : Bool :=
  cs == ['0'] || (!cs.isEmpty && cs.head? != some '0' && cs.all Char.isDigit && cs.length ≤ w)

/-- No point, or a point with one to `f` digits. -/
def fractionText (f : ℕ) : Option (List Char) → Bool
  | none => true
  | some cs => !cs.isEmpty && cs.all Char.isDigit && cs.length ≤ f

def plainChars (w f : ℕ) (cs : List Char) : Bool :=
  wholeText w (splitPoint cs).1 && fractionText f (splitPoint cs).2

def unsignedText (w f : ℕ) (s : String) : Bool := plainChars w f s.toList

/-- A plain decimal text with an optional minus sign. -/
def signedText (w f : ℕ) (s : String) : Bool :=
  match s.toList with
  | '-' :: cs => plainChars w f cs
  | cs => plainChars w f cs

def ofChars (negative : Bool) (cs : List Char) : Decimal :=
  let parts := splitPoint cs
  let fraction := parts.2.getD []
  ⟨negative, digitsValue (parts.1 ++ fraction), -(fraction.length : ℤ)⟩

def ofText (s : String) : Decimal :=
  match s.toList with
  | '-' :: cs => ofChars true cs
  | cs => ofChars false cs

variable {w f : ℕ} {s : String}

/-- The number of digits a plain decimal text has after the point. -/
def fractionDigits (s : String) : ℕ := (-(ofText s).exponent).toNat

theorem wholeText_digits {cs : List Char} (hw : 0 < w) (h : wholeText w cs) :
    cs.all Char.isDigit ∧ cs.length ≤ w := by
  simp only [wholeText, Bool.or_eq_true, beq_iff_eq, Bool.and_eq_true, decide_eq_true_eq] at h
  rcases h with rfl | h
  · exact ⟨by decide, hw⟩
  · exact ⟨h.1.2, h.2⟩

theorem fractionText_digits {o : Option (List Char)} (h : fractionText f o) :
    (o.getD []).all Char.isDigit ∧ (o.getD []).length ≤ f := by
  cases o with
  | none => simp
  | some cs =>
    simp only [fractionText, Bool.and_eq_true, decide_eq_true_eq] at h
    exact ⟨h.1.2, h.2⟩

theorem exponent_ofChars (neg : Bool) (cs : List Char) : (ofChars neg cs).exponent ≤ 0 := by
  simp [ofChars]

/-- A plain text denotes a multiple of `10^-f` whose absolute value is below `10^w`. -/
theorem ofChars_bounds {cs : List Char} (hw : 0 < w) (neg : Bool) (h : plainChars w f cs) :
    -(f : ℤ) ≤ (ofChars neg cs).exponent ∧ |(ofChars neg cs).toRat| < 10 ^ w := by
  rw [plainChars, Bool.and_eq_true] at h
  obtain ⟨hd, hl⟩ := wholeText_digits hw h.1
  obtain ⟨fd, fl⟩ := fractionText_digits h.2
  set whole := (splitPoint cs).1
  set fraction := (splitPoint cs).2.getD []
  have hc : (ofChars neg cs).coefficient < 10 ^ (whole.length + fraction.length) := by
    have hall : (whole ++ fraction).all Char.isDigit := by
      simp only [List.all_append, hd, fd, Bool.and_self]
    have := digitsValue_lt hall
    rwa [List.length_append] at this
  have he : (ofChars neg cs).exponent = -(fraction.length : ℤ) := rfl
  refine ⟨by omega, ?_⟩
  rw [toRat, abs_mul, abs_of_pos (by positivity : (0 : ℚ) < 10 ^ (ofChars neg cs).exponent),
    ← Int.cast_abs, Int.abs_eq_natAbs, natAbs_int, he, zpow_neg, zpow_natCast, Int.cast_natCast,
    ← div_eq_mul_inv, div_lt_iff₀ (by positivity), ← pow_add]
  have hpow : 10 ^ (whole.length + fraction.length) ≤ 10 ^ (w + fraction.length) :=
    Nat.pow_le_pow_right (by norm_num) (by omega)
  exact_mod_cast hc.trans_le hpow

theorem toRat_ofChars_nonneg (cs : List Char) : 0 ≤ (ofChars false cs).toRat :=
  (toRat_nonneg_iff _).mpr (.inl rfl)

theorem splitPoint_cons_minus_not_plain (w f : ℕ) (cs : List Char) (hw : 0 < w) :
    plainChars w f ('-' :: cs) = false := by
  by_contra h
  simp only [Bool.not_eq_false, plainChars, Bool.and_eq_true] at h
  have hd := (wholeText_digits hw h.1).1
  have hs : (splitPoint ('-' :: cs)).1 = '-' :: cs.takeWhile (· ≠ '.') := rfl
  rw [hs] at hd
  simp at hd

theorem ofText_of_unsigned (hw : 0 < w) (h : unsignedText w f s) :
    ofText s = ofChars false s.toList := by
  unfold ofText
  split
  · rename_i cs heq
    rw [unsignedText, heq, splitPoint_cons_minus_not_plain w f cs hw] at h
    cases h
  · rfl

theorem unsignedText_bounds (hw : 0 < w) (h : unsignedText w f s) :
    -(f : ℤ) ≤ (ofText s).exponent ∧ (ofText s).exponent ≤ 0 ∧
      0 ≤ (ofText s).toRat ∧ (ofText s).toRat < 10 ^ w := by
  rw [ofText_of_unsigned hw h]
  obtain ⟨h1, h2⟩ := ofChars_bounds hw false h
  have h0 := toRat_ofChars_nonneg s.toList
  rw [abs_of_nonneg h0] at h2
  exact ⟨h1, exponent_ofChars _ _, h0, h2⟩

theorem plainChars_of_not_minus (hne : ∀ cs, s.toList ≠ '-' :: cs)
    (h : signedText w f s) : plainChars w f s.toList := by
  unfold signedText at h
  split at h
  · rename_i cs heq
    exact (hne cs heq).elim
  · exact h

theorem signedText_bounds (hw : 0 < w) (h : signedText w f s) :
    -(f : ℤ) ≤ (ofText s).exponent ∧ (ofText s).exponent ≤ 0 ∧ |(ofText s).toRat| < 10 ^ w := by
  unfold ofText
  split
  · rename_i cs heq
    rw [signedText, heq] at h
    obtain ⟨h1, h2⟩ := ofChars_bounds hw true h
    exact ⟨h1, exponent_ofChars _ _, h2⟩
  · rename_i hne
    have h' := plainChars_of_not_minus hne h
    obtain ⟨h1, h2⟩ := ofChars_bounds hw false h'
    exact ⟨h1, exponent_ofChars _ _, h2⟩

theorem negative_of_unsignedText (hw : 0 < w) (h : unsignedText w f s) :
    (ofText s).negative = false := by
  rw [ofText_of_unsigned hw h]
  rfl

theorem onGrid_of_unsignedText (hw : 0 < w) (h : unsignedText w f s) :
    OnGrid f (ofText s).toRat := onGrid_toRat (unsignedText_bounds hw h).1

example : ofText "-12.50" = ⟨true, 1250, -2⟩ := by decide
example : unsignedText 40 40 "0.001" = true ∧ unsignedText 40 40 "01" = false := by decide

end Decimal
