import TradingLab.Decimal.Exact

/-!
# Sums and roots in a context

A sum adds from the left and rounds after every step; it is exact as long as no
partial sum can outgrow the context. A square root is computed with one digit
more than the context keeps. An inexact root is kept off multiples of five, so
that the final rounding sees on which side it lies; an exact one is rescaled to
the ideal exponent.
-/

namespace Decimal

open List

def sum (prec : ℕ) (ds : List Decimal) : Decimal := ds.foldl (add prec) 0

theorem sum_append_singleton (prec : ℕ) (ds : List Decimal) (d : Decimal) :
    sum prec (ds ++ [d]) = add prec (sum prec ds) d := by
  rw [sum, foldl_append]
  rfl

variable {ds : List Decimal} {prec : ℕ}

theorem abs_sum_le {m : ℚ} (h : ∀ d ∈ ds, |d.toRat| ≤ m) :
    |(ds.map toRat).sum| ≤ ds.length * m := by
  induction ds with
  | nil => simp
  | cons d ds ih =>
    have hd := h d mem_cons_self
    have hds := ih fun e he => h e (mem_cons_of_mem d he)
    rw [map_cons, sum_cons, length_cons]
    push_cast
    linarith [abs_add_le d.toRat (ds.map toRat).sum]

/-- Numbers of one grid and one size add up exactly while their number leaves room. -/
theorem toRat_sum {f b : ℕ} {m : ℚ} (hp : 0 < prec) (hroom : f + b ≤ prec)
    (hgrid : ∀ d ∈ ds, OnGrid f d.toRat) (hm : ∀ d ∈ ds, |d.toRat| ≤ m)
    (h0 : 0 ≤ m) (hlen : ds.length * m < 10 ^ b) : (sum prec ds).toRat = (ds.map toRat).sum := by
  induction ds using reverseRecOn with
  | nil => exact toRat_zero
  | append_singleton ds d ih =>
    have hfits : Fits f b ((ds ++ [d]).map toRat).sum := by
      refine ⟨OnGrid.list_sum ?_, (abs_sum_le hm).trans_lt hlen⟩
      intro q hq
      obtain ⟨e, he, rfl⟩ := mem_map.mp hq
      exact hgrid e he
    have hinitial := ih (fun e he => hgrid e (mem_append_left _ he))
      (fun e he => hm e (mem_append_left _ he)) (by
        rw [length_append, length_singleton] at hlen
        push_cast at hlen
        linarith)
    rw [map_append, sum_append, map_singleton, sum_singleton] at hfits ⊢
    rw [sum_append_singleton]
    have hrep := hfits.representable hroom
    rw [← hinitial] at hrep ⊢
    exact toRat_add hp hrep

theorem Representable.mono {p q : ℕ} {x : ℚ} (hpq : p ≤ q) (h : Representable p x) :
    Representable q x := by
  obtain ⟨n, e, hn, hx⟩ := h
  exact ⟨n, e, hn.trans_le (pow_le_pow_right₀ (by norm_num) hpq), hx⟩

theorem toRat_sum_of_partial (hp : 0 < prec)
    (h : ∀ initial, initial <+: ds → Representable prec (initial.map toRat).sum) :
    (sum prec ds).toRat = (ds.map toRat).sum := by
  induction ds using reverseRecOn with
  | nil => exact toRat_zero
  | append_singleton ds d ih =>
    have hinitial := ih fun initial hi => h initial (hi.trans (prefix_append ds [d]))
    have hall := h _ (prefix_refl (ds ++ [d]))
    rw [map_append, sum_append, map_singleton, sum_singleton, ← hinitial]
      at hall ⊢
    rw [sum_append_singleton]
    exact toRat_add hp hall

theorem sum_gains_losses (ds : List Decimal) :
    ((ds.filter fun d => 0 < d).map toRat).sum + ((ds.filter fun d => d < 0).map toRat).sum =
      (ds.map toRat).sum := by
  induction ds with
  | nil => simp
  | cons d ds ih =>
    rw [map_cons, sum_cons, ← ih, filter_cons, filter_cons]
    rcases lt_trichotomy d.toRat 0 with hneg | hzero | hpos
    · rw [if_neg (by simp [lt_def, hneg.le]), if_pos (by simp [lt_def, hneg]), map_cons,
        sum_cons]
      ring
    · rw [if_neg (by simp [lt_def, hzero]), if_neg (by simp [lt_def, hzero]), hzero, zero_add]
    · rw [if_pos (by simp [lt_def, hpos]), if_neg (by simp [lt_def, hpos.le]), map_cons,
        sum_cons]
      ring

/-- The square root of a number that is not negative. -/
def sqrt (prec : ℕ) (d : Decimal) : Decimal :=
  if d.coefficient = 0 then round prec ⟨d.negative, 0, d.exponent / 2⟩ else
    let odd := d.exponent % 2 = 1
    let c := if odd then d.coefficient * 10 else d.coefficient
    let l := if odd then digits d.coefficient / 2 + 1 else (digits d.coefficient + 1) / 2
    let shift : ℤ := prec + 1 - l
    let num := c * 100 ^ shift.toNat
    let den := 100 ^ (-shift).toNat
    let n := (num / den).sqrt
    let e := d.exponent / 2 - shift
    if num % den = 0 ∧ n * n = num / den then
      round prec ⟨false, n / 10 ^ shift.toNat * 10 ^ (-shift).toNat, e + shift⟩
    else round prec ⟨false, if n % 5 = 0 then n + 1 else n, e⟩

def square (prec : ℕ) (d : Decimal) : Decimal := mul prec d d

example : sqrt 5 2 = ⟨false, 14142, -4⟩ := by decide +kernel
example : sqrt 5 ⟨false, 6250, -3⟩ = ⟨false, 250, -2⟩ := by decide +kernel

/-!
## Running totals

A sum that is added up in a context is exact at every point of the way exactly
when every running total fits the context.
-/

/-- Every running total of a list fits a context. -/
def RunningFits (prec : ℕ) (ds : List Decimal) : Prop :=
  ∀ initial, initial <+: ds → Representable prec (initial.map toRat).sum

theorem representable_zero (prec : ℕ) : Representable prec 0 :=
  ⟨0, 0, by simp, by simp⟩

theorem representable_sum (hp : 0 < prec) (ds : List Decimal) :
    Representable prec (sum prec ds).toRat := by
  induction ds using reverseRecOn with
  | nil =>
    have hzero : (sum prec []).toRat = 0 := toRat_zero
    rw [hzero]
    exact representable_zero prec
  | append_singleton ds d _ =>
    rw [sum_append_singleton]
    exact representable_round hp _

theorem representable_neg (hp : 0 < prec) (d : Decimal) :
    Representable prec (neg prec d).toRat := representable_round hp _

theorem Representable.of_neg {q : ℚ} (h : Representable prec (-q)) :
    Representable prec q := by
  obtain ⟨n, e, hn, hq⟩ := h
  refine ⟨-n, e, by rwa [abs_neg], ?_⟩
  rw [← neg_neg q, hq]
  push_cast
  ring

theorem RunningFits.initial {es : List Decimal} (h : RunningFits prec ds)
    (hes : es <+: ds) : RunningFits prec es := fun initial hi => h initial (hi.trans hes)

theorem RunningFits.mono {p q : ℕ} (hpq : p ≤ q) (h : RunningFits p ds) :
    RunningFits q ds := fun initial hi => (h initial hi).mono hpq

theorem RunningFits.toRat_sum (hp : 0 < prec)
    (h : RunningFits prec ds) : (sum prec ds).toRat = (ds.map toRat).sum :=
  toRat_sum_of_partial hp h

theorem runningFits_iff (hp : 0 < prec) :
    RunningFits prec ds ↔
      ∀ initial, initial <+: ds → (sum prec initial).toRat = (initial.map toRat).sum := by
  constructor
  · exact fun h initial hi => (h.initial hi).toRat_sum hp
  · intro h initial hi
    rw [← h initial hi]
    exact representable_sum hp initial

end Decimal
