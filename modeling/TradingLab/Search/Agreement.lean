import TradingLab.Search.Series

/-!
# Series that agree before a time

Two series agree before a time when they have the same bars before it and open alike
at it. They then share their first indexes, and every time divides these alike.
-/

namespace TradingLab

open List

namespace Search

section Bars
variable {P : Type}

/-- The bars that open before a time. -/
def BarSeries.barsBefore (s : BarSeries P) (t : ℤ) : List (Bar P) :=
  s.bars.filter fun b => b.openTimeMs < t

/-- A bar opens at a time, with a price. -/
def BarSeries.OpensAt (s : BarSeries P) (t : ℤ) (price : P) : Prop :=
  ∃ bar ∈ s.bars, bar.openTimeMs = t ∧ bar.opening = price

/-- What can be known of a series at the open of a time is the same. -/
structure Agree (t : ℤ) (A B : BarSeries P) : Prop where
  before : A.barsBefore t = B.barsBefore t
  opening : ∀ price, A.OpensAt t price ↔ B.OpensAt t price

variable {s A B : BarSeries P} {t : ℤ} {i : ℕ} {bar : Bar P}

/-- How many bars open before a time. -/
def BarSeries.countBefore (s : BarSeries P) (t : ℤ) : ℕ := bisectLeft s.times t

theorem lt_countBefore_iff :
    i < s.countBefore t ↔ ∃ bar, s.bars[i]? = some bar ∧ bar.openTimeMs < t := by
  unfold BarSeries.countBefore BarSeries.times
  rw [lt_bisectLeft_iff s.ordered, getElem?_timesOf]
  simp [Option.map_eq_some_iff]

theorem lt_countBefore_succ_iff :
    i < s.countBefore (t + 1) ↔ ∃ bar, s.bars[i]? = some bar ∧ bar.openTimeMs ≤ t := by
  rw [lt_countBefore_iff]
  simp only [Int.lt_add_one_iff]

theorem countBefore_le_succ (s : BarSeries P) (t : ℤ) : s.countBefore t ≤ s.countBefore (t + 1) := by
  apply le_of_forall_lt
  intro i hi
  obtain ⟨bar, hbar, htime⟩ := lt_countBefore_iff.mp hi
  exact lt_countBefore_succ_iff.mpr ⟨bar, hbar, htime.le⟩

theorem time_lt_of_lt {j : ℕ} {later : Bar P} (hij : i < j) (hi : s.bars[i]? = some bar)
    (hj : s.bars[j]? = some later) : bar.openTimeMs < later.openTimeMs := by
  have hordered := List.pairwise_iff_getElem.mp s.ordered
  obtain ⟨hin, rfl⟩ := List.getElem?_eq_some_iff.mp hi
  obtain ⟨hjn, rfl⟩ := List.getElem?_eq_some_iff.mp hj
  have hlength : (timesOf s.bars).length = s.bars.length := length_map _
  have hlt := hordered i j (by omega) (by omega) hij
  simpa [timesOf] using hlt

theorem le_time_of_countBefore_le (hi : s.bars[i]? = some bar) (h : s.countBefore t ≤ i) :
    t ≤ bar.openTimeMs := by
  by_contra hlt
  have hcount := lt_countBefore_iff.mpr ⟨bar, hi, not_le.mp hlt⟩
  omega

theorem filter_eq_take {bars : List (Bar P)} (h : (timesOf bars).Pairwise (· < ·)) (t : ℤ) :
    (bars.filter fun b => b.openTimeMs < t) = bars.take (bisectLeft (timesOf bars) t) := by
  unfold bisectLeft
  induction bars with
  | nil => rfl
  | cons bar bars ih =>
    obtain ⟨hhead, htail⟩ := pairwise_cons.mp h
    by_cases hbar : bar.openTimeMs < t
    · rw [filter_cons_of_pos (by simpa using hbar), ih htail]
      unfold timesOf
      rw [map_cons, takeWhile_cons_of_pos (by simpa using hbar), length_cons,
        take_succ_cons]
    · have hnone : (bars.filter fun b => b.openTimeMs < t) = [] := by
        rw [filter_eq_nil_iff]
        intro b hb hlt
        have hlater : bar.openTimeMs < b.openTimeMs := hhead b.openTimeMs (mem_map_of_mem hb)
        have hlt : b.openTimeMs < t := by simpa using hlt
        omega
      rw [filter_cons_of_neg (by simpa using hbar), hnone]
      unfold timesOf
      rw [map_cons, takeWhile_cons_of_neg (by simpa using hbar)]
      rfl

theorem countBefore_le (s : BarSeries P) (t : ℤ) : s.countBefore t ≤ s.bars.length := by
  have hle := (takeWhile_sublist (fun u => decide (u < t)) (l := s.times)).length_le
  rwa [BarSeries.times, timesOf, length_map] at hle

theorem barsBefore_eq_take (s : BarSeries P) (t : ℤ) :
    s.barsBefore t = s.bars.take (s.countBefore t) := filter_eq_take s.ordered t

namespace Agree

variable (h : Agree t A B)
include h

theorem countBefore_eq : A.countBefore t = B.countBefore t := by
  have hlength := congrArg length h.before
  rwa [barsBefore_eq_take, barsBefore_eq_take, length_take_of_le (countBefore_le A t),
    length_take_of_le (countBefore_le B t)] at hlength

theorem getElem?_eq (hi : i < A.countBefore t) : A.bars[i]? = B.bars[i]? := by
  have hbefore := congrArg (fun bars => bars[i]?) h.before
  have hi' := hi
  rw [h.countBefore_eq] at hi'
  simp only [barsBefore_eq_take] at hbefore
  rwa [getElem?_take_of_lt hi, getElem?_take_of_lt hi'] at hbefore

theorem lt_countBefore_congr (hi : i < A.countBefore t) (u : ℤ) :
    i < A.countBefore u ↔ i < B.countBefore u := by
  rw [lt_countBefore_iff, lt_countBefore_iff, h.getElem?_eq hi]

theorem symm : Agree t B A := ⟨h.before.symm, fun price => (h.opening price).symm⟩

theorem opens (hbar : A.bars[A.countBefore t]? = some bar) (htime : bar.openTimeMs = t) :
    ∃ other, B.bars[A.countBefore t]? = some other ∧ other.openTimeMs = t ∧
      other.opening = bar.opening := by
  obtain ⟨other, hmem, hother, hprice⟩ :=
    (h.opening bar.opening).mp ⟨bar, mem_of_getElem? hbar, htime, rfl⟩
  obtain ⟨j, hj⟩ := mem_iff_getElem?.mp hmem
  have hge : B.countBefore t ≤ j := by
    by_contra hlt
    obtain ⟨b, hb, hbt⟩ := lt_countBefore_iff.mp (not_le.mp hlt)
    cases hj.symm.trans hb
    omega
  rcases hge.eq_or_lt with heq | hgt
  · rw [h.countBefore_eq, heq]
    exact ⟨other, hj, hother, hprice⟩
  · have hlength := (List.getElem?_eq_some_iff.mp hj).1
    have hfirst := List.getElem?_eq_getElem (hgt.trans hlength)
    have hlate := le_time_of_countBefore_le hfirst le_rfl
    have hearlier := time_lt_of_lt hgt hfirst hj
    omega

theorem opened (hi : i < A.countBefore (t + 1)) : ∃ bar other, A.bars[i]? = some bar ∧
    B.bars[i]? = some other ∧ other.openTimeMs = bar.openTimeMs ∧ other.opening = bar.opening := by
  obtain ⟨bar, hbar, htime⟩ := lt_countBefore_succ_iff.mp hi
  rcases lt_or_ge i (A.countBefore t) with hlt | hge
  · have hsame := h.getElem?_eq hlt
    exact ⟨bar, bar, hbar, hsame ▸ hbar, rfl, rfl⟩
  · have hat : i = A.countBefore t := by
      rcases hge.eq_or_lt with heq | hgt
      · exact heq.symm
      · have hfirst := List.getElem?_eq_getElem (hgt.trans (List.getElem?_eq_some_iff.mp hbar).1)
        have hlate := le_time_of_countBefore_le hfirst le_rfl
        have hearlier := time_lt_of_lt hgt hfirst hbar
        omega
    have hlate := le_time_of_countBefore_le hbar hge
    rw [hat] at hbar ⊢
    obtain ⟨other, hother, hothertime, hopening⟩ := h.opens hbar (le_antisymm htime hlate)
    exact ⟨bar, other, hbar, hother, hothertime.trans (le_antisymm hlate htime), hopening⟩

theorem opened_congr (hi : i < A.countBefore (t + 1)) (u : ℤ) :
    i < A.countBefore u ↔ i < B.countBefore u := by
  obtain ⟨bar, other, hbar, hother, htime, -⟩ := h.opened hi
  rw [lt_countBefore_iff, lt_countBefore_iff, hbar, hother]
  simp [htime]

theorem countBefore_congr {u : ℤ} (hu : A.countBefore u < A.countBefore (t + 1)) :
    A.countBefore u = B.countBefore u := by
  have hle := (h.opened_congr hu u).not.mp (lt_irrefl _)
  have hge := (h.opened_congr ((not_lt.mp hle).trans_lt hu) u).not.mpr (lt_irrefl _)
  exact le_antisymm (not_lt.mp hge) (not_lt.mp hle)

theorem countOpened_eq : A.countBefore (t + 1) = B.countBefore (t + 1) := by
  apply eq_of_forall_lt_iff
  intro i
  constructor
  · intro hi
    exact (h.opened_congr hi _).mp hi
  · intro hi
    exact (h.symm.opened_congr hi _).mp hi

end Agree

end Bars

end Search

end TradingLab
