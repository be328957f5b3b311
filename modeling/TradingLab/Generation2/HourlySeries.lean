import TradingLab.Generation2.ScaleLaw
import Mathlib.Data.List.ReduceOption

/-!
# A series without gaps

On a bar for each hour every day is complete, and the return of a day is that of its
hours. With a price that moves once, one day has a return, and the months that look
back on it have a scale below one. A month whose first bar has no values is then
entered with the scale of the month before.
-/

namespace TradingLab

open Decimal Search List

namespace Generation2.VolScaling

/-- A bar for each hour since January 1970. -/
def hourlyBars (price : ℕ → String) (n : ℕ) : List (Bar String) :=
  (List.range n).map fun h : ℕ => ⟨(h : ℤ) * hourMs, price h, price h⟩

section Hourly
variable {price : ℕ → String} {n i : ℕ}

theorem getElem?_hourlyBars (h : i < n) :
    (hourlyBars price n)[i]? = some ⟨i * hourMs, price i, price i⟩ := by
  unfold hourlyBars
  rw [getElem?_map, getElem?_range h]
  rfl

theorem length_hourlyBars : (hourlyBars price n).length = n := by simp [hourlyBars]

theorem timesOf_hourlyBars :
    timesOf (hourlyBars price n) = (List.range n).map fun h : ℕ => (h : ℤ) * hourMs := by
  unfold timesOf hourlyBars
  rw [map_map]
  rfl

theorem hourly_ordered : (timesOf (hourlyBars price n)).Pairwise (· < ·) := by
  rw [timesOf_hourlyBars, pairwise_map]
  apply pairwise_lt_range.imp
  intro a b hab
  rw [hourMs_eq]
  omega

theorem hourly_sinceEpoch : ∀ t ∈ timesOf (hourlyBars price n), 0 ≤ t := by
  rw [timesOf_hourlyBars, hourMs_eq]
  intro t ht
  obtain ⟨h, -, rfl⟩ := mem_map.mp ht
  omega

def hourly (price : ℕ → String) (n : ℕ) : ExactSeries :=
  ⟨hourlyBars price n, hourly_ordered, hourly_sinceEpoch⟩

theorem bisectLeft_hourly {k : ℕ} (h : k ≤ n) :
    bisectLeft (hourly price n).times (k * hourMs) = k := by
  apply eq_of_forall_lt_iff
  intro i
  rw [BarSeries.times, lt_bisectLeft_iff (hourly price n).ordered, hourly, timesOf_hourlyBars,
    hourMs_eq]
  constructor
  · rintro ⟨s, hs, hlt⟩
    rw [getElem?_map, Option.map_eq_some_iff] at hs
    obtain ⟨j, hj, rfl⟩ := hs
    obtain ⟨hin, rfl⟩ := List.getElem?_eq_some_iff.mp hj
    rw [List.getElem_range] at hlt
    omega
  · intro hi
    refine ⟨(i : ℤ) * 3600000, ?_, by omega⟩
    rw [getElem?_map, getElem?_range (by omega)]
    rfl

/-- The return of an hour. -/
def hourlyValue (price : ℕ → String) (positions : List Bool) (i : ℕ) : Decimal :=
  if positions.getD i false then
    sub decimalPrecision
      (quotient decimalPrecision (ofText (price i)) (ofText (price (i - 1)))) 1
  else 0

def hourlyReturn (price : ℕ → String) (positions : List Bool) (i : ℕ) : HourReturn :=
  ⟨(i / 24 : ℕ) * dayMs, (i % 24 : ℕ), hourlyValue price positions i⟩

theorem day_of_hour (i : ℕ) : (i : ℤ) * hourMs / dayMs = (i / 24 : ℕ) := by
  rw [hourMs_eq, dayMs_eq]
  omega

variable {positions : List Bool} {daily : Daily} {b : ℕ}

theorem hourReturn_hourly
    (hprice : ∀ i, (ofText (price i)).coefficient ≠ 0) (hi : 1 ≤ i) (hn : i < n) :
    hourReturn (hourlyBars price n) positions 0 i =
      .ok (if i < 24 then none else some (hourlyReturn price positions i)) := by
  have hprevious : ((i - 1 : ℕ) : ℤ) * hourMs = i * hourMs - hourMs := by
    rw [Nat.cast_sub hi]
    ring
  have hratio : div? decimalPrecision (ofText (price i)) (ofText (price (i - 1))) =
      some (quotient decimalPrecision (ofText (price i)) (ofText (price (i - 1)))) := by
    unfold div?
    rw [if_neg (hprice _)]
  unfold hourReturn
  rw [getElem?_hourlyBars hn, getElem?_hourlyBars (by omega)]
  dsimp only
  rw [hprevious, day_of_hour]
  by_cases hfirst : i < 24
  · rw [if_pos (.inr (.inr (by rw [hourMs_eq, dayMs_eq] at *; omega))), if_pos hfirst]
  · have hhour : ((i : ℤ) * hourMs - (i / 24 : ℕ) * dayMs) / hourMs = (i % 24 : ℕ) := by
      rw [hourMs_eq, dayMs_eq]
      omega
    rw [if_neg (by rw [hourMs_eq, dayMs_eq] at *; omega), if_neg hfirst, hhour]
    unfold hourlyReturn hourlyValue
    split
    · rw [hratio]
    · rfl

theorem getLast?_filter_of_unique {α : Type} {P : α → Bool} {xs : List α} {x : α} (hx : x ∈ xs)
    (hP : P x = true) (hunique : ∀ y ∈ xs, P y = true → y = x) :
    (xs.filter P).getLast? = some x := by
  have hne : xs.filter P ≠ [] := ne_nil_of_mem (mem_filter.mpr ⟨hx, hP⟩)
  rw [getLast?_eq_some_getLast hne]
  obtain ⟨hmem, hlast⟩ := mem_filter.mp (getLast_mem hne)
  rw [hunique _ hmem hlast]

theorem hourReturns_hourly (hprice : ∀ i, (ofText (price i)).coefficient ≠ 0)
    (positions : List Bool) : ∃ entries,
      hourReturns (hourlyBars price n) positions 0 = .ok entries ∧
      ∀ e, e ∈ entries ↔ ∃ i, 24 ≤ i ∧ i < n ∧ e = hourlyReturn price positions i := by
  have hmap : (windowBars 1 n).mapM (hourReturn (hourlyBars price n) positions 0) =
      .ok ((windowBars 1 n).map fun i =>
        if i < 24 then none else some (hourlyReturn price positions i)) := by
    apply mapM_eq_map
    intro i hi
    unfold windowBars at hi
    rw [mem_range'_1] at hi
    exact hourReturn_hourly hprice hi.1 (by omega)
  unfold hourReturns
  rw [length_hourlyBars, hmap]
  refine ⟨_, rfl, fun e => ?_⟩
  rw [reduceOption_mem_iff, mem_map]
  unfold windowBars
  constructor
  · rintro ⟨i, hi, he⟩
    rw [mem_range'_1] at hi
    split at he
    · cases he
    · cases he
      exact ⟨i, by omega, by omega, rfl⟩
  · rintro ⟨i, hlow, hhigh, rfl⟩
    refine ⟨i, ?_, if_neg (by omega)⟩
    rw [mem_range'_1]
    omega

/-- The return of a day is that of its hours. -/
def hourlyDay (price : ℕ → String) (positions : List Bool) (d : ℕ) : Decimal :=
  compound ((List.range 24).map fun h => hourlyValue price positions (24 * d + h))

theorem dayReturn_hourly {entries : List HourReturn} {d : ℕ}
    (hmem : ∀ e, e ∈ entries ↔ ∃ i, 24 ≤ i ∧ i < n ∧ e = hourlyReturn price positions i)
    (hd : 1 ≤ d) (hn : 24 * d + 24 ≤ n) :
    dayReturn entries ((d : ℤ) * dayMs) = some (hourlyDay price positions d) := by
  have hhours : (range 24).mapM (hourOf entries ((d : ℤ) * dayMs)) =
      some ((range 24).map fun h => hourlyValue price positions (24 * d + h)) := by
    apply mapM_eq_some_map
    intro h hh
    rw [mem_range] at hh
    have hentry : (entries.filter fun e => e.day = (d : ℤ) * dayMs ∧ e.hour = (h : ℤ)).getLast? =
        some (hourlyReturn price positions (24 * d + h)) := by
      apply getLast?_filter_of_unique
      · exact (hmem _).mpr ⟨24 * d + h, by omega, by omega, rfl⟩
      · unfold hourlyReturn
        simp only [decide_eq_true_eq]
        rw [show (24 * d + h) / 24 = d by omega, show (24 * d + h) % 24 = h by omega]
        exact ⟨rfl, rfl⟩
      · intro e he hP
        obtain ⟨i, -, -, rfl⟩ := (hmem e).mp he
        unfold hourlyReturn at hP
        simp only [decide_eq_true_eq] at hP
        rw [dayMs_eq] at hP
        rw [show i = 24 * d + h by omega]
    unfold hourOf
    rw [hentry]
    rfl
  unfold dayReturn
  rw [hhours]
  rfl

theorem dailyControlReturns_hourly (hprice : ∀ i, (ofText (price i)).coefficient ≠ 0)
    (hlength : positions.length = n) : ∃ daily,
      _dailyControlReturns (hourlyBars price n) positions 0 = .ok daily ∧
      ∀ d, 1 ≤ d → 24 * d + 24 ≤ n →
        daily ((d : ℤ) * dayMs) = some (hourlyDay price positions d) := by
  obtain ⟨entries, hentries, hmem⟩ := hourReturns_hourly (n := n) hprice positions
  unfold _dailyControlReturns
  rw [length_hourlyBars, raiseIf_neg (not_not.mpr hlength), ok_bind, hentries]
  exact ⟨_, rfl, fun d hd hn => dayReturn_hourly hmem hd hn⟩

/-- A day that the series does not reach the end of has no return. -/
theorem daily_hourly_none (hprice : ∀ i, (ofText (price i)).coefficient ≠ 0)
    (hdaily : _dailyControlReturns (hourlyBars price n) positions 0 = .ok daily)
    {d : ℕ} (hn : n < 24 * d + 24) : daily ((d : ℤ) * dayMs) = none := by
  obtain ⟨entries, hentries, hmem⟩ := hourReturns_hourly (n := n) hprice positions
  unfold _dailyControlReturns at hdaily
  obtain ⟨-, hdaily⟩ := raiseIf_bind_eq_ok.mp hdaily
  rw [hentries] at hdaily
  cases hdaily
  have hlast : hourOf entries ((d : ℤ) * dayMs) 23 = none := by
    have hnone : (entries.filter fun e => e.day = (d : ℤ) * dayMs ∧ e.hour = ((23 : ℕ) : ℤ)) = [] := by
      rw [filter_eq_nil_iff]
      intro e he hmatch
      obtain ⟨i, -, hi, rfl⟩ := (hmem e).mp he
      unfold hourlyReturn at hmatch
      simp only [decide_eq_true_eq] at hmatch
      rw [dayMs_eq] at hmatch
      omega
    unfold hourOf
    rw [hnone]
    rfl
  cases hhours : (range 24).mapM (hourOf entries ((d : ℤ) * dayMs)) with
  | none =>
    unfold dayReturn
    rw [hhours]
    rfl
  | some hours =>
    have hall := forall₂_iff_get.mp (mapM_eq_some.mp hhours)
    have hlength : 24 = hours.length := length_range.symm.trans hall.1
    have hvalue := hall.2 23 (by rw [length_range]; omega) (by omega)
    rw [get_eq_getElem, List.getElem_range, hlast] at hvalue
    cases hvalue

theorem daysBefore_hourly (hb : windowDays ≤ b) :
    daysBefore ((b : ℤ) * dayMs) =
      (List.range windowDays).map fun k : ℕ => ((b - windowDays + k : ℕ) : ℤ) * dayMs := by
  unfold daysBefore
  apply map_congr_left
  intro k hk
  rw [mem_range] at hk
  unfold windowDays at *
  rw [dayMs_eq]
  omega

theorem window_hourly (hdaily : ∀ d, 1 ≤ d → 24 * d + 24 ≤ n →
      daily ((d : ℤ) * dayMs) = some (hourlyDay price positions d))
    (hb : windowDays < b) (hn : 24 * b ≤ n) :
    missingDays daily ((b : ℤ) * dayMs) = [] ∧
      (daysBefore ((b : ℤ) * dayMs)).filterMap daily =
        (List.range windowDays).map fun k => hourlyDay price positions (b - windowDays + k) := by
  have hall : ∀ k ∈ range windowDays, daily (((b - windowDays + k : ℕ) : ℤ) * dayMs) =
      some (hourlyDay price positions (b - windowDays + k)) := by
    intro k hk
    rw [mem_range] at hk
    exact hdaily _ (by omega) (by omega)
  unfold missingDays
  rw [daysBefore_hourly hb.le]
  constructor
  · rw [filter_eq_nil_iff]
    intro day hday
    obtain ⟨k, hk, rfl⟩ := mem_map.mp hday
    rw [hall k hk]
    simp
  · rw [filterMap_map, ← filterMap_eq_map]
    apply filterMap_congr
    exact hall

theorem scaleFromReturns_hourly (hdaily : ∀ d, 1 ≤ d → 24 * d + 24 ≤ n →
      daily ((d : ℤ) * dayMs) = some (hourlyDay price positions d))
    (hb : windowDays < b) (hn : 24 * b ≤ n) :
    _scaleFromReturns daily ((b : ℤ) * dayMs) = .ok (scaleOf
      ((List.range windowDays).map fun k => hourlyDay price positions (b - windowDays + k))) := by
  obtain ⟨hmissing, hvalues⟩ := window_hourly hdaily hb hn
  unfold _scaleFromReturns
  rw [if_neg (not_not.mpr hmissing), hvalues]

theorem volatilityWindowGaps_hourly (hprice : ∀ i, (ofText (price i)).coefficient ≠ 0)
    (symbol : String) {scoredStartMs endMs : ℤ}
    (hboundaries : ∀ boundary ∈ _monthBoundaries scoredStartMs endMs,
      ∃ b : ℕ, boundary = (b : ℤ) * dayMs ∧ windowDays < b ∧ 24 * b ≤ n) :
    _volatilityWindowGaps [(symbol, hourly price n)] 0 scoredStartMs endMs = .ok [] := by
  have hlength : (replicate n false).length = n := length_replicate
  obtain ⟨daily, hcomputed, hdaily⟩ := dailyControlReturns_hourly hprice hlength
  have hnone : ((_monthBoundaries scoredStartMs endMs).filter fun boundary =>
      missingDays daily boundary ≠ []) = [] := by
    rw [filter_eq_nil_iff]
    intro boundary hboundary
    obtain ⟨b, rfl, hb, hn⟩ := hboundaries boundary hboundary
    simp [(window_hourly hdaily hb hn).1]
  unfold _volatilityWindowGaps
  rw [mapM_cons, mapM_nil]
  unfold hourly
  dsimp only
  rw [length_hourlyBars, hcomputed, ok_bind, hnone]
  rfl

/-- The schedule looks up the scales of the windows. -/
theorem scaleSchedule_hourly (hprice : ∀ i, (ofText (price i)).coefficient ≠ 0)
    (hlength : positions.length = n) {scoredStartMs endMs : ℤ}
    {months : List ℕ}
    (hboundaries : _monthBoundaries scoredStartMs endMs = months.map fun b : ℕ => (b : ℤ) * dayMs)
    (hmonths : ∀ b ∈ months, windowDays < b ∧ 24 * b ≤ n) :
    _scaleSchedule (hourlyBars price n) positions 0 scoredStartMs endMs =
      .ok fun boundary => (months.map fun b : ℕ => ((b : ℤ) * dayMs, scaleOf
        ((List.range windowDays).map fun k =>
          hourlyDay price positions (b - windowDays + k)))).lookup boundary := by
  obtain ⟨daily, hcomputed, hdaily⟩ := dailyControlReturns_hourly hprice hlength
  unfold _scaleSchedule
  rw [hcomputed, ok_bind, hboundaries, mapM_map]
  rw [mapM_eq_map (g := fun b : ℕ => ((b : ℤ) * dayMs, scaleOf
    ((range windowDays).map fun k => hourlyDay price positions (b - windowDays + k))))]
  · rfl
  · intro b hb
    rw [Function.comp_apply, scaleFromReturns_hourly hdaily (hmonths b hb).1 (hmonths b hb).2]
    rfl

theorem follows_hourly (hi : 1 ≤ i) (hn : i < n) : follows (hourlyBars price n) i = true := by
  unfold follows
  rw [getElem?_hourlyBars hn, getElem?_hourlyBars (by omega)]
  simp only [decide_eq_true_eq]
  rw [Nat.cast_sub hi]
  ring

theorem controlPositions_hourly (shortValues longValues : Indicator) (hn : 0 < n) :
    _controlPositions (hourlyBars price n) shortValues longValues 0 =
      .ok (controlStates (hourlyBars price n) shortValues longValues 0 false (List.range' 0 n)) := by
  have hzero : bisectLeft (timesOf (hourlyBars price n)) 0 = 0 := by
    have h := @bisectLeft_hourly price n 0 (Nat.zero_le n)
    rwa [Nat.cast_zero, zero_mul] at h
  unfold _controlPositions
  rw [hzero, length_hourlyBars]
  dsimp only
  rw [raiseIf_neg (by omega), ok_bind]
  rfl

end Hourly

set_option maxRecDepth 100000

/-- The price doubles at the begin of the 220th day after the first. -/
def doubling : ℕ → String := fun h => if h < 5280 then "100" else "200"

/-- The first of September is day 243, its first hour 5832. -/
def summer : ExactSeries := hourly doubling 5836

/-- Above the level from the second hour on, but for a dip before the end of August; the
first hour of September has no value. -/
def dipped : Indicator := fun i =>
  if i = 5832 then none else if i = 0 ∨ i = 5829 then some 0 else some 2

def septemberScale : Decimal :=
  scaleOf ((List.range windowDays).map fun k => if 60 + k = 220 then 1 else 0)

def summerSchedule : Schedule := fun boundary =>
  if boundary = 212 * dayMs then some 1
  else if boundary = 243 * dayMs then some septemberScale else none

def summerPositions : List Bool :=
  controlStates summer.bars dipped levelOne 0 false (List.range' 0 5836)

theorem doubling_ne_zero (i : ℕ) : (ofText (doubling i)).coefficient ≠ 0 := by
  unfold doubling
  split
  · decide
  · decide

theorem foldl_controlStep_true {bars : List (Bar String)} {shortValues longValues : Indicator}
    {start : ℕ} {is : List ℕ}
    (h : ∀ i ∈ is, controlStep bars shortValues longValues start true i = true) :
    is.foldl (controlStep bars shortValues longValues start) true = true := by
  induction is with
  | nil => rfl
  | cons i is ih =>
    rw [foldl_cons, h i mem_cons_self]
    exact ih fun j hj => h j (mem_cons_of_mem i hj)

/-- A position is held when the price doubles. -/
theorem positions_doubling {n : ℕ} (hn : 5281 ≤ n) :
    (controlStates (hourlyBars doubling n) dipped levelOne 0 false (List.range' 0 n)).getD 5280 false =
      true := by
  have hfirst : ∀ i ∈ range' 0 3, ∀ position,
      controlStep (hourlyBars doubling n) dipped levelOne 0 position i =
        controlStep summer.bars dipped levelOne 0 position i := by
    intro i hi position
    rw [mem_range'_1] at hi
    unfold controlStep summer hourly
    by_cases htwo : 0 + 2 ≤ i
    · rw [follows_hourly (by omega) (by omega), follows_hourly (by omega) (by omega)]
    · rw [if_neg fun h => htwo h.1, if_neg fun h => htwo h.1]
  have hentered : (range' 0 3).foldl (controlStep (hourlyBars doubling n) dipped levelOne 0)
      false = true := by
    rw [foldl_ext _ _ _ fun position i hi => hfirst i hi position]
    decide
  have hkept : (range' 3 5278).foldl (controlStep (hourlyBars doubling n) dipped levelOne 0)
      true = true := by
    apply foldl_controlStep_true
    intro i hi
    rw [mem_range'_1] at hi
    have hvalues : valuesAt dipped levelOne (i - 1) = some ⟨2, 1, 2, 1⟩ := by
      unfold valuesAt dipped levelOne
      rw [if_neg (by omega), if_neg (by omega), if_neg (by omega), if_neg (by omega)]
      rfl
    unfold controlStep
    rw [if_pos ⟨by omega, follows_hourly (by omega) (by omega)⟩, hvalues]
    rfl
  have hsplit : (range' 0 n).take (5280 + 1) = range' 0 3 ++ range' 3 5278 := by
    rw [take_range'_of_length_ge (by omega), range'_append_1]
  rw [getD_eq_getElem?_getD, getElem?_controlStates (by rw [length_range']; omega), hsplit,
    foldl_append, hentered, hkept]
  rfl

theorem hourlyValue_doubling {positions : List Bool} (h : positions.getD 5280 false = true) (i : ℕ) :
    hourlyValue doubling positions i = if i = 5280 then 1 else 0 := by
  have hlow : sub decimalPrecision (quotient decimalPrecision (ofText "100") (ofText "100")) 1 = 0 := by
    decide +kernel
  have hhigh : sub decimalPrecision (quotient decimalPrecision (ofText "200") (ofText "200")) 1 = 0 := by
    decide +kernel
  have hjump : sub decimalPrecision (quotient decimalPrecision (ofText "200") (ofText "100")) 1 = 1 := by
    decide +kernel
  unfold hourlyValue doubling
  rcases lt_trichotomy i 5280 with hlt | rfl | hgt
  · rw [if_pos hlt, if_pos (show i - 1 < 5280 by omega), hlow, ite_self, if_neg hlt.ne]
  · rw [h, if_pos rfl, if_pos rfl, if_neg (lt_irrefl _), if_pos (by omega), hjump]
  · rw [if_neg (show ¬ i < 5280 by omega), if_neg (show ¬ i - 1 < 5280 by omega), hhigh, ite_self,
      if_neg hgt.ne']

theorem hourlyDay_doubling {positions : List Bool} (h : positions.getD 5280 false = true) (d : ℕ) :
    hourlyDay doubling positions d = if d = 220 then 1 else 0 := by
  unfold hourlyDay
  simp only [hourlyValue_doubling h]
  split
  · rename_i hd
    rw [hd]
    decide
  · have hzero : ((range 24).map fun hour => if 24 * d + hour = 5280 then (1 : Decimal) else 0) =
        (range 24).map fun _ => 0 := by
      apply map_congr_left
      intro hour hhour
      rw [mem_range] at hhour
      rw [if_neg (by omega)]
    rw [hzero]
    decide

theorem lookup_pair {α : Type} (a b : ℤ) (x y : α) (t : ℤ) :
    [(a, x), (b, y)].lookup t = if t = a then some x else if t = b then some y else none := by
  by_cases ha : t = a
  · rw [if_pos ha, ha, lookup_cons_self]
  · rw [if_neg ha, lookup_cons, beq_false_of_ne ha]
    by_cases hb : t = b
    · rw [if_pos hb, hb]
      exact lookup_cons_self
    · rw [if_neg hb, lookup_cons, beq_false_of_ne hb]
      rfl

/-- The scales of August and September. -/
theorem scaleSchedule_doubling {n : ℕ} (hn : 5836 ≤ n) :
    _scaleSchedule (hourlyBars doubling n)
      (controlStates (hourlyBars doubling n) dipped levelOne 0 false (List.range' 0 n)) 0
      (212 * dayMs) (5835 * hourMs) = .ok summerSchedule := by
  have hlength : (controlStates (hourlyBars doubling n) dipped levelOne 0 false
      (range' 0 n)).length = n := by
    rw [length_controlStates, length_range']
  have hboundaries : _monthBoundaries (212 * dayMs) (5835 * hourMs) =
      [212, 243].map fun b : ℕ => (b : ℤ) * dayMs := by
    decide
  have hmonths : ∀ b ∈ [212, 243], windowDays < b ∧ 24 * b ≤ n := by
    intro b hb
    unfold windowDays
    rcases mem_pair.mp hb with rfl | rfl <;> omega
  have hflat : scaleOf ((range windowDays).map fun k =>
      if 212 - windowDays + k = 220 then 1 else 0) = 1 := by
    decide
  rw [scaleSchedule_hourly doubling_ne_zero hlength hboundaries hmonths]
  simp only [hourlyDay_doubling (positions_doubling (show 5281 ≤ n by omega)), map_cons,
    map_nil, hflat, lookup_pair]
  rw [show 243 - windowDays = 60 from rfl]
  rfl

theorem scaleSchedule_summer : _scaleSchedule summer.bars summerPositions 0 (212 * dayMs)
    (5835 * hourMs) = .ok summerSchedule := by
  have hlength : 5836 ≤ 5836 := by omega
  have hschedule := scaleSchedule_doubling hlength
  unfold summerPositions summer hourly
  dsimp only
  rw [hschedule]

theorem start_summer : bisectLeft summer.times (5829 * hourMs) = 5829 :=
  bisectLeft_hourly (show 5829 ≤ 5836 by omega)

theorem stop_summer : bisectLeft summer.times (5835 * hourMs) = 5835 :=
  bisectLeft_hourly (show 5835 ≤ 5836 by omega)

theorem bar_summer {i : ℕ} (h : i < 5836) :
    summer.bars[i]? = some ⟨i * hourMs, doubling i, doubling i⟩ := by
  unfold summer hourly
  dsimp only
  exact getElem?_hourlyBars h

theorem startsWith_summer : StartsWith summer 5829 1 (some summerSchedule) := by
  refine ⟨⟨(5829 : ℕ) * hourMs, doubling 5829, doubling 5829⟩, bar_summer (by omega), ?_⟩
  decide

theorem cellBars_summer : cellBars summer (5829 * hourMs) (5835 * hourMs) =
    [5829, 5830, 5831, 5832, 5833, 5834] := by
  unfold cellBars
  rw [start_summer, stop_summer]
  rfl

theorem loop_summer :
    (loop summer.bars dipped levelOne samplePolicy (some summerSchedule) 5835 (.init samplePolicy 1)
      [5829, 5830, 5831, 5832, 5833, 5834]).map
        (fun s => (s.logicalPosition, s.rebalanceCount, s.base.quantity, s.drawdown.peak)) =
      .ok (true, 0, ofText "0.001", ofText "1000") := by
  decide +kernel

theorem summer_run : ∃ s, loop summer.bars dipped levelOne samplePolicy (some summerSchedule) 5835
      (.init samplePolicy 1) [5829, 5830, 5831, 5832, 5833, 5834] = .ok s ∧
    s.logicalPosition = true ∧ s.rebalanceCount = 0 ∧ s.base.quantity = ofText "0.001" ∧
    s.drawdown.peak = ofText "1000" := by
  have hloop := loop_summer
  cases hs : loop summer.bars dipped levelOne samplePolicy (some summerSchedule) 5835
      (.init samplePolicy 1) [5829, 5830, 5831, 5832, 5833, 5834] with
  | error e =>
    rw [hs] at hloop
    cases hloop
  | ok s =>
    rw [hs] at hloop
    have hvalues := Except.ok.inj hloop
    simp only [Prod.mk.injEq] at hvalues
    exact ⟨s, rfl, hvalues⟩

theorem result_of_peak {s : CellState} {p : Policy} (h : s.drawdown.peak.coefficient ≠ 0)
    (finalMark : Decimal) : ∃ c, s.result p finalMark = .ok c := by
  obtain ⟨middle, hmiddle⟩ := medianScale_eq_ok s
  unfold CellState.result Drawdown.close Drawdown.below div?
  dsimp only
  rw [if_neg h, hmiddle]
  exact ⟨_, rfl⟩

theorem simulateCell_summer : ∃ c, _simulateCell summer summer dipped levelOne (5829 * hourMs)
    (5835 * hourMs) samplePolicy (some summerSchedule) = .ok c := by
  have hwindow : bisectLeft summer.times (5829 * hourMs) < bisectLeft summer.times (5835 * hourMs) := by
    rw [start_summer, stop_summer]
    omega
  have hscale : StartsWith summer (bisectLeft summer.times (5829 * hourMs)) 1 (some summerSchedule) := by
    rw [start_summer]
    exact startsWith_summer
  have hopened := openCell_of_startsWith samplePolicy rfl hwindow hscale
  have hlast : barAt summer.bars (5835 - 1) = .ok ⟨(5834 : ℕ) * hourMs, doubling 5834, doubling 5834⟩ :=
    barAt_eq_ok.mpr (bar_summer (by omega))
  have hbars := cellBars_summer
  unfold cellBars at hbars
  obtain ⟨s, hs, -, -, -, hpeak⟩ := summer_run
  obtain ⟨c, hc⟩ := result_of_peak (s := s) (p := samplePolicy) (by rw [hpeak]; decide)
    (ofText (doubling 5834))
  refine ⟨c, ?_⟩
  unfold _simulateCell
  rw [hopened, ok_bind]
  dsimp only
  rw [hbars, stop_summer, hs, ok_bind, hlast, ok_bind]
  exact hc

theorem gaps_summer :
    _volatilityWindowGaps [("BTCUSDT", summer)] 0 (212 * dayMs) (5835 * hourMs) = .ok [] := by
  have hboundaries : ∀ boundary ∈ _monthBoundaries (212 * dayMs) (5835 * hourMs),
      ∃ b : ℕ, boundary = (b : ℤ) * dayMs ∧ windowDays < b ∧ 24 * b ≤ 5836 := by
    have hmonths : _monthBoundaries (212 * dayMs) (5835 * hourMs) = [212 * dayMs, 243 * dayMs] := by
      decide
    rw [hmonths]
    intro boundary hboundary
    rcases mem_pair.mp hboundary with rfl | rfl
    · exact ⟨212, rfl, by decide, by decide⟩
    · exact ⟨243, rfl, by decide, by decide⟩
  exact volatilityWindowGaps_hourly doubling_ne_zero _ hboundaries

theorem controlPositions_summer :
    _controlPositions summer.bars dipped levelOne 0 = .ok summerPositions := by
  unfold summerPositions summer hourly
  dsimp only
  exact controlPositions_hourly dipped levelOne (by omega)

/-- A position taken in August keeps its quantity in September, although no window has a
gap and the month's first bar is there: the bar has no values, and is skipped. -/
theorem boundary_skipped :
    _volatilityWindowGaps [("BTCUSDT", summer)] 0 (212 * dayMs) (5835 * hourMs) = .ok [] ∧
    ∃ positions schedule,
      _controlPositions summer.bars dipped levelOne 0 = .ok positions ∧
      _scaleSchedule summer.bars positions 0 (212 * dayMs) (5835 * hourMs) = .ok schedule ∧
      (∃ c, _simulateCell summer summer dipped levelOne (5829 * hourMs) (5835 * hourMs)
        samplePolicy (some schedule) = .ok c) ∧
      ∃ scale s bar, StartsWith summer (bisectLeft summer.times (5829 * hourMs)) scale (some schedule) ∧
        loop summer.bars dipped levelOne samplePolicy (some schedule) (cellStop summer (5835 * hourMs))
          (.init samplePolicy scale) (cellBars summer (5829 * hourMs) (5835 * hourMs)) = .ok s ∧
        summer.bars[cellStop summer (5835 * hourMs) - 1]? = some bar ∧
        s.rebalanceCount = 0 ∧ ¬ Sized samplePolicy schedule bar s := by
  refine ⟨gaps_summer, summerPositions, summerSchedule, controlPositions_summer,
    scaleSchedule_summer, simulateCell_summer, ?_⟩
  obtain ⟨s, hs, hposition, hcount, hquantity, -⟩ := summer_run
  unfold cellStop
  rw [start_summer, stop_summer, cellBars_summer, show 5835 - 1 = 5834 from rfl]
  refine ⟨1, s, ⟨(5834 : ℕ) * hourMs, doubling 5834, doubling 5834⟩, startsWith_summer, hs,
    bar_summer (by omega), hcount, ?_⟩
  intro hsized
  obtain ⟨scale, hscale, hholds⟩ := hsized hposition
  have hmonth : summerSchedule (_monthStartMs ((5834 : ℕ) * hourMs)) = some septemberScale := by
    decide +kernel
  have hseptember : scale = septemberScale := Option.some.inj (hscale.symm.trans hmonth)
  have hequal := (hholds hposition).1
  have hsmaller : ¬ ofText "0.001" ≈ mul defaultPrecision samplePolicy.quantity septemberScale := by
    decide +kernel
  rw [hquantity, hseptember] at hequal
  exact hsmaller hequal

end Generation2.VolScaling

end TradingLab
