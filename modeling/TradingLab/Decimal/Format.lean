import TradingLab.Decimal.Text
import Mathlib.Data.List.DropRight

/-!
# Fixed-point notation

The fixed-point text of a numeral has no exponent and shows every digit of the
coefficient, trailing zeros included. For numerals without a positive exponent it
is the inverse of reading a plain text: a plain text is the fixed-point text of
the numeral it denotes, and the numeral is read back exactly.
-/

namespace Decimal

open List

/-- A number below `10^k` written with `k` digits. -/
def paddedChars (k n : ℕ) : List Char :=
  List.replicate (k - (Nat.toDigits 10 n).length) '0' ++ Nat.toDigits 10 n

def fixedChars (coefficient : ℕ) (exponent : ℤ) : List Char :=
  if 0 ≤ exponent then Nat.toDigits 10 (coefficient * 10 ^ exponent.toNat)
  else
    let k := (-exponent).toNat
    Nat.toDigits 10 (coefficient / 10 ^ k) ++ '.' :: paddedChars k (coefficient % 10 ^ k)

/-- Fixed-point notation of a numeral. -/
def fixed (d : Decimal) : String :=
  let chars := fixedChars d.coefficient d.exponent
  String.ofList (if d.negative then '-' :: chars else chars)

theorem all_isDigit_paddedChars (k n : ℕ) : (paddedChars k n).all Char.isDigit := by
  rw [paddedChars, all_append, all_isDigit_toDigits, Bool.and_true, all_eq_true]
  intro c hc
  rw [eq_of_mem_replicate hc]
  rfl

theorem length_paddedChars {k n : ℕ} (hk : 0 < k) (hn : n < 10 ^ k) :
    (paddedChars k n).length = k := by
  have h := (length_toDigits_le hk).mpr hn
  rw [paddedChars, length_append, length_replicate]
  omega

@[simp] theorem digitsValue_paddedChars (k n : ℕ) : digitsValue (paddedChars k n) = n := by
  rw [paddedChars, digitsValue_append_eq, digitsValue_replicate_zero, digitsValue_toDigits]
  omega

variable {cs : List Char} {w f : ℕ} {d : Decimal}

theorem paddedChars_digitsValue (hd : cs.all Char.isDigit) (hne : cs ≠ []) :
    paddedChars cs.length (digitsValue cs) = cs := by
  induction cs with
  | nil => exact (hne rfl).elim
  | cons c cs ih =>
    by_cases h0 : c = '0'
    · subst h0
      simp only [all_cons, Bool.and_eq_true] at hd
      rcases cs with _ | ⟨d, ds⟩
      · rfl
      · have hv : digitsValue ('0' :: d :: ds) = digitsValue (d :: ds) := rfl
        have hlen := (length_toDigits_le (by simp)).mpr (digitsValue_lt hd.2)
        have hrec := ih hd.2 (by simp)
        rw [hv]
        rw [paddedChars] at hrec ⊢
        rw [length_cons] at hlen
        rw [length_cons, show (d :: ds).length + 1 - (Nat.toDigits 10 (digitsValue (d :: ds))).length =
          (d :: ds).length - (Nat.toDigits 10 (digitsValue (d :: ds))).length + 1 by
            simp only [length_cons]; omega, replicate_succ, cons_append, hrec]
    · rw [paddedChars, toDigits_digitsValue hd h0, Nat.sub_self]
      rfl

theorem isDigit_ne_point (h : cs.all Char.isDigit) :
    ∀ c ∈ cs, decide (c ≠ '.') = true := by
  intro c hc
  have hd := all_eq_true.mp h c hc
  rw [decide_eq_true_eq]
  rintro rfl
  exact absurd hd (by decide)

theorem splitPoint_digits (h : cs.all Char.isDigit) :
    splitPoint cs = (cs, none) := by
  have hall := isDigit_ne_point h
  have htake : cs.takeWhile (· ≠ '.') = cs := takeWhile_eq_self_iff.mpr hall
  have hdrop : cs.dropWhile (· ≠ '.') = [] := dropWhile_eq_nil_iff.mpr hall
  rw [splitPoint, htake, hdrop]

theorem splitPoint_append {fs : List Char} (h : cs.all Char.isDigit) :
    splitPoint (cs ++ '.' :: fs) = (cs, some fs) := by
  have hall := isDigit_ne_point h
  rw [splitPoint, takeWhile_append_of_pos hall, dropWhile_append_of_pos hall]
  simp

theorem append_splitPoint (cs : List Char) :
    cs = (splitPoint cs).1 ++ match (splitPoint cs).2 with
      | none => []
      | some fs => '.' :: fs := by
  have hcs := takeWhile_append_dropWhile (p := (· ≠ '.')) (l := cs)
  unfold splitPoint
  cases hd : cs.dropWhile (· ≠ '.') with
  | nil =>
    rw [hd] at hcs
    exact hcs.symm
  | cons c fs =>
    have hc : c = '.' := by
      have hhead := head?_dropWhile_not (fun c => decide (c ≠ '.')) cs
      rw [hd] at hhead
      simpa using hhead
    rw [hd, hc] at hcs
    exact hcs.symm

theorem wholeText_toDigits {n : ℕ} (hw : 0 < w) :
    wholeText w (Nat.toDigits 10 n) = true ↔ n < 10 ^ w := by
  rw [← length_toDigits_le hw]
  by_cases hn : n = 0
  · subst hn
    simp [wholeText]
    omega
  · have hne : Nat.toDigits 10 n ≠ [] := Nat.toDigits_ne_nil
    have h0 : (Nat.toDigits 10 n).head? ≠ some '0' := fun h => hn (head_toDigits h)
    have hz : Nat.toDigits 10 n ≠ ['0'] := fun h => h0 (by rw [h]; rfl)
    simp [wholeText, all_isDigit_toDigits, hne, h0, hz]

theorem plainChars_fixedChars {c : ℕ} {e : ℤ} (hw : 0 < w) (he : e ≤ 0) :
    plainChars w f (fixedChars c e) = true ↔ c < 10 ^ (w + (-e).toNat) ∧ -e ≤ f := by
  rcases he.lt_or_eq with hneg | rfl
  · have hk : 0 < (-e).toNat := by omega
    have hlt : c % 10 ^ (-e).toNat < 10 ^ (-e).toNat := Nat.mod_lt _ (by positivity)
    have hlen := length_paddedChars hk hlt
    have hne : paddedChars (-e).toNat (c % 10 ^ (-e).toNat) ≠ [] :=
      ne_nil_of_length_pos (by omega)
    rw [fixedChars, if_neg (by omega), plainChars, splitPoint_append (all_isDigit_toDigits _),
      Bool.and_eq_true, wholeText_toDigits hw, Nat.div_lt_iff_lt_mul (by positivity), ← pow_add]
    simp only [fractionText, all_isDigit_paddedChars, hlen, Bool.and_true, Bool.and_eq_true,
      Bool.not_eq_true', isEmpty_eq_false_iff, decide_eq_true_eq]
    have : (-e).toNat ≤ f ↔ -e ≤ f := by omega
    tauto
  · rw [fixedChars, if_pos le_rfl, plainChars, splitPoint_digits (all_isDigit_toDigits _)]
    simp [fractionText, wholeText_toDigits hw]

theorem ofChars_fixedChars (neg : Bool) (c : ℕ) {e : ℤ} (he : e ≤ 0) :
    ofChars neg (fixedChars c e) = ⟨neg, c, e⟩ := by
  rcases he.lt_or_eq with hneg | rfl
  · have hk : 0 < (-e).toNat := by omega
    have hlt : c % 10 ^ (-e).toNat < 10 ^ (-e).toNat := Nat.mod_lt _ (by positivity)
    have hlen := length_paddedChars hk hlt
    rw [fixedChars, if_neg (by omega), ofChars, splitPoint_append (all_isDigit_toDigits _)]
    simp only [Option.getD_some, digitsValue_append_eq, digitsValue_toDigits,
      digitsValue_paddedChars, hlen, Nat.div_add_mod', mk.injEq, true_and]
    omega
  · rw [fixedChars, if_pos le_rfl, ofChars, splitPoint_digits (all_isDigit_toDigits _)]
    simp

theorem head_fixedChars (c : ℕ) (e : ℤ) : (fixedChars c e).head? ≠ some '-' := by
  have hdig : ∀ n : ℕ, (Nat.toDigits 10 n).head? ≠ some '-' := by
    intro n h
    have hmem := mem_of_head? h
    exact absurd (isDigit_of_mem hmem) (by decide)
  unfold fixedChars
  split
  · exact hdig _
  · rw [head?_append_of_ne_nil _ Nat.toDigits_ne_nil]
    exact hdig _

theorem ofText_fixed (h : d.exponent ≤ 0) : ofText d.fixed = d := by
  have hhead := head_fixedChars d.coefficient d.exponent
  obtain ⟨neg, c, e⟩ := d
  unfold ofText fixed
  rw [String.toList_ofList]
  cases neg with
  | true => exact ofChars_fixedChars true c h
  | false =>
    simp only [Bool.false_eq_true, if_false]
    split
    · rename_i cs heq
      rw [heq] at hhead
      exact (hhead rfl).elim
    · exact ofChars_fixedChars false c h

/-- The fixed-point text has the value of the numeral, whatever the exponent. -/
theorem toRat_ofText_fixed (d : Decimal) : (ofText d.fixed).toRat = d.toRat := by
  rcases le_or_gt d.exponent 0 with h | h
  · rw [ofText_fixed h]
  · obtain ⟨negative, c, e⟩ := d
    dsimp only at h
    have hfixed : (⟨negative, c, e⟩ : Decimal).fixed =
        (⟨negative, c * 10 ^ e.toNat, 0⟩ : Decimal).fixed := by
      unfold fixed fixedChars
      simp [h.le]
    have he : e = 0 + (e.toNat : ℤ) := by omega
    have hshift := toRat_shift negative c e.toNat 0
    rw [← he] at hshift
    rw [hfixed, ofText_fixed (by exact le_rfl), hshift]

/-- A plain text is the fixed-point text of what it denotes. -/
theorem fixedChars_ofChars (neg : Bool) (hw : 0 < w) (h : plainChars w f cs) :
    fixedChars (ofChars neg cs).coefficient (ofChars neg cs).exponent = cs := by
  rw [plainChars, Bool.and_eq_true] at h
  have hparts := append_splitPoint cs
  obtain ⟨hwd, -⟩ := wholeText_digits hw h.1
  have hwhole : Nat.toDigits 10 (digitsValue (splitPoint cs).1) = (splitPoint cs).1 := by
    have hwt := h.1
    rcases hc : (splitPoint cs).1 with _ | ⟨d, ds⟩
    · rw [hc] at hwt
      simp [wholeText] at hwt
    · rw [hc] at hwt hwd
      by_cases h0 : d = '0'
      · have hds : ds = [] := by simpa [wholeText, h0] using hwt
        subst h0 hds
        rfl
      · exact toDigits_digitsValue hwd h0
  cases hf : (splitPoint cs).2 with
  | none =>
    rw [hf, append_nil] at hparts
    simp only [ofChars, hf, Option.getD_none, append_nil, length_nil, Nat.cast_zero,
      neg_zero]
    rw [fixedChars, if_pos le_rfl, Int.toNat_zero, pow_zero, Nat.mul_one, hwhole, ← hparts]
  | some fs =>
    rw [hf] at hparts
    have hft := h.2
    rw [hf] at hft
    simp only [fractionText, Bool.and_eq_true, Bool.not_eq_true', isEmpty_eq_false_iff,
      decide_eq_true_eq] at hft
    obtain ⟨⟨hne, hfd⟩, -⟩ := hft
    have hpos : 0 < fs.length := length_pos_of_ne_nil hne
    have hlt := digitsValue_lt hfd
    simp only [ofChars, hf, Option.getD_some]
    rw [fixedChars, if_neg (by omega), neg_neg, Int.toNat_natCast, digitsValue_append_eq,
      Nat.mul_comm]
    dsimp only
    rw [Nat.mul_add_div (by positivity), Nat.div_eq_of_lt hlt, Nat.add_zero,
      Nat.mul_add_mod, Nat.mod_eq_of_lt hlt, hwhole, paddedChars_digitsValue hfd hne, ← hparts]

theorem fixed_ofText_unsigned {s : String} (hw : 0 < w) (h : unsignedText w f s) :
    (ofText s).fixed = s := by
  rw [ofText_of_unsigned hw h, fixed, fixedChars_ofChars false hw h]
  exact String.ofList_toList

theorem unsignedText_fixed (hw : 0 < w) (he : d.exponent ≤ 0)
    (hn : d.negative = false) (hlt : d.toRat < 10 ^ w) :
    unsignedText w f d.fixed = true ↔ -d.exponent ≤ f := by
  have hc : d.coefficient < 10 ^ (w + (-d.exponent).toNat) := by
    have hz : (10 : ℚ) ^ d.exponent = ((10 : ℚ) ^ (-d.exponent).toNat)⁻¹ := by
      rw [← zpow_natCast, ← zpow_neg]
      congr 1
      omega
    rw [toRat, hz, ← div_eq_mul_inv, div_lt_iff₀ (by positivity), ← pow_add, int, hn,
      if_neg Bool.false_ne_true] at hlt
    exact_mod_cast hlt
  rw [unsignedText, fixed, hn, String.toList_ofList]
  simp only [Bool.false_eq_true, if_false, plainChars_fixedChars hw he, hc, true_and]

example : fixed ⟨true, 1250, -2⟩ = "-12.50" ∧ fixed ⟨false, 7, -3⟩ = "0.007" := by decide

/-!
## Quantized texts

Quantizing rewrites a numeral at a given exponent, half to even. It raises when
the result needs more digits than the context keeps. A plain text has at most
forty digits after the point and no trailing zero there.
-/

/-- The numeral at another exponent. -/
def rescale (e : ℤ) (d : Decimal) : Decimal :=
  if e ≤ d.exponent then ⟨d.negative, d.coefficient * 10 ^ (d.exponent - e).toNat, e⟩
  else ⟨d.negative, halfEven d.coefficient (10 ^ (e - d.exponent).toNat), e⟩

/-- `quantize`, half to even; nothing where it raises. -/
def quantize? (prec : ℕ) (e : ℤ) (d : Decimal) : Option Decimal :=
  if digits (rescale e d).coefficient ≤ prec then some (rescale e d) else none

def trimFraction (cs : List Char) : List Char :=
  if '.' ∈ cs then (cs.rdropWhile (· == '0')).rdropWhile (· == '.') else cs

/-- Fixed-point notation with at most forty digits after the point. -/
def _plain (prec : ℕ) (d : Decimal) : Option String := do
  let value ← if d.exponent < -40 then quantize? prec (-40) d else some d
  return String.ofList (trimFraction (fixed value).toList)

theorem _plain_of_exponent {prec : ℕ} (h : -40 ≤ d.exponent) :
    _plain prec d = some (String.ofList (trimFraction (fixed d).toList)) := by
  unfold _plain
  rw [if_neg (not_lt.mpr h)]
  rfl

example : _plain 28 ⟨false, 1250, -2⟩ = some "12.5" := by decide
example : _plain 50 ⟨false, 15, -41⟩ = some "0.0000000000000000000000000000000000000002" := by
  decide +kernel

end Decimal
