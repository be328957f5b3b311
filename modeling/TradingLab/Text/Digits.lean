import Mathlib.Data.Nat.Digits.Defs
import Mathlib.Data.List.Basic
import Mathlib.Tactic.IntervalCases

/-!
# Strings of decimal digits

Reading a digit string and writing a number are inverse to each other, up to the
leading zeros that writing never produces.
-/

def digitsValue (cs : List Char) : ℕ := cs.foldl (fun n c => 10 * n + (c.toNat - 48)) 0

theorem digitsValue_append (xs ys : List Char) :
    digitsValue (xs ++ ys) =
      ys.foldl (fun n c => 10 * n + (c.toNat - 48)) (digitsValue xs) := by
  rw [digitsValue, List.foldl_append]
  rfl

theorem foldl_digits (cs : List Char) (n : ℕ) :
    cs.foldl (fun n c => 10 * n + (c.toNat - 48)) n = n * 10 ^ cs.length + digitsValue cs := by
  induction cs generalizing n with
  | nil => simp [digitsValue]
  | cons c cs ih =>
    rw [digitsValue, List.foldl_cons, List.foldl_cons, ih, ih (10 * 0 + _), List.length_cons]
    ring

theorem digitsValue_append_eq (xs ys : List Char) :
    digitsValue (xs ++ ys) = digitsValue xs * 10 ^ ys.length + digitsValue ys := by
  rw [digitsValue_append, foldl_digits]

@[simp] theorem digitsValue_replicate_zero (k : ℕ) : digitsValue (List.replicate k '0') = 0 := by
  induction k with
  | zero => rfl
  | succ k ih =>
    have h0 : digitsValue ['0'] = 0 := rfl
    rw [List.replicate_succ', digitsValue_append_eq, ih, h0]
    rfl

variable {c : Char} {cs : List Char} {n : ℕ}

theorem digit_lt (h : c.isDigit) : c.toNat - 48 < 10 := by
  simp only [Char.isDigit, Bool.and_eq_true, decide_eq_true_eq, UInt32.le_iff_toNat_le] at h
  have h2 : c.toNat ≤ 57 := h.2
  omega

theorem foldl_digits_lt (h : cs.all Char.isDigit) (n : ℕ) :
    cs.foldl (fun n c => 10 * n + (c.toNat - 48)) n < (n + 1) * 10 ^ cs.length := by
  induction cs generalizing n with
  | nil => simp
  | cons c cs ih =>
    simp only [List.all_cons, Bool.and_eq_true] at h
    have hd := digit_lt h.1
    have hrec := ih h.2 (10 * n + (c.toNat - 48))
    simp only [List.foldl_cons, List.length_cons]
    refine hrec.trans_le ?_
    rw [pow_succ, mul_comm (10 ^ cs.length) 10, ← mul_assoc]
    exact Nat.mul_le_mul_right _ (by omega)

theorem digitsValue_lt (h : cs.all Char.isDigit) :
    digitsValue cs < 10 ^ cs.length := by
  simpa [digitsValue] using foldl_digits_lt h 0

theorem isDigit_of_mem (h : c ∈ Nat.toDigits 10 n) : c.isDigit :=
  Nat.isDigit_of_mem_toDigits (by decide) (by decide) h

theorem all_isDigit_toDigits (n : ℕ) : (Nat.toDigits 10 n).all Char.isDigit :=
  List.all_eq_true.mpr fun _ hc => isDigit_of_mem hc

@[simp] theorem digitsValue_toDigits (n : ℕ) : digitsValue (Nat.toDigits 10 n) = n :=
  Nat.ofDigitChars_ten_toDigits

theorem head_toDigits (h : (Nat.toDigits 10 n).head? = some '0') : n = 0 := by
  induction n using Nat.strong_induction_on with
  | _ n ih =>
    by_cases hn : n < 10
    · rw [Nat.toDigits_of_lt_base hn] at h
      interval_cases n <;> simp_all [Nat.digitChar]
    · rw [Nat.toDigits_of_base_le (by decide) (by omega)] at h
      have hne : Nat.toDigits 10 (n / 10) ≠ [] := Nat.toDigits_ne_nil
      rw [List.head?_append_of_ne_nil _ hne] at h
      have := ih (n / 10) (by omega) h
      omega

theorem digitChar_of_isDigit (h : c.isDigit) : Nat.digitChar (c.toNat - 48) = c := by
  have hlt := digit_lt h
  simp only [Char.isDigit, Bool.and_eq_true, decide_eq_true_eq, UInt32.le_iff_toNat_le] at h
  have h1 : 48 ≤ c.toNat := h.1
  apply Char.toNat_inj.mp
  rw [Nat.toNat_digitChar_of_lt_ten hlt]
  omega

theorem toDigits_foldl (h : cs.all Char.isDigit) (hn : 0 < n) :
    Nat.toDigits 10 (cs.foldl (fun n c => 10 * n + (c.toNat - 48)) n) = Nat.toDigits 10 n ++ cs := by
  induction cs generalizing n with
  | nil => simp
  | cons c cs ih =>
    simp only [List.all_cons, Bool.and_eq_true] at h
    have hd := digit_lt h.1
    rw [List.foldl_cons, ih h.2 (by omega), ← Nat.toDigits_append_toDigits (by decide) hn hd,
      Nat.toDigits_of_lt_base hd, digitChar_of_isDigit h.1, List.append_assoc]
    rfl

theorem toDigits_digitsValue (hd : (c :: cs).all Char.isDigit)
    (h0 : c ≠ '0') : Nat.toDigits 10 (digitsValue (c :: cs)) = c :: cs := by
  simp only [List.all_cons, Bool.and_eq_true] at hd
  have hlt := digit_lt hd.1
  have hone : Nat.toDigits 10 (c.toNat - 48) = [c] := by
    rw [Nat.toDigits_of_lt_base hlt, digitChar_of_isDigit hd.1]
  have hpos : 0 < 10 * 0 + (c.toNat - 48) := by
    by_contra hz
    have hc := digitChar_of_isDigit hd.1
    rw [show c.toNat - 48 = 0 by omega] at hc
    exact h0 hc.symm
  rw [digitsValue, List.foldl_cons, toDigits_foldl hd.2 hpos, Nat.mul_zero, Nat.zero_add, hone]
  rfl

theorem length_toDigits_le {w : ℕ} (hw : 0 < w) : (Nat.toDigits 10 n).length ≤ w ↔ n < 10 ^ w :=
  Nat.length_toDigits_le_iff (by decide) hw
