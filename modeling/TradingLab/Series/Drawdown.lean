import Mathlib.Algebra.Order.BigOperators.Group.Multiset
import Mathlib.Order.Bounds.Basic
import Mathlib.Tactic.Abel

/-!
# The drawdown of a running total

A single pass over gains and losses keeps the running total, its peak so far and
the largest fall below the peak. The last one is the largest fall from any total to
a later one. Where the depth of a fall is measured in another way, a pass that
watches the peak finds the deepest fall from a peak, and the first of them.
-/

namespace Series

open List

variable {K : Type} [AddCommGroup K]

/-- The total after the first `i` terms. -/
def cumulative (xs : List K) (i : ℕ) : K := (xs.take i).sum

def totals (xs : List K) : Set K := {t | ∃ i, i ≤ xs.length ∧ t = cumulative xs i}

def declines (xs : List K) : Set K :=
  {d | ∃ i j, i ≤ j ∧ j ≤ xs.length ∧ d = cumulative xs i - cumulative xs j}

structure Pass (K : Type) where
  total : K
  peak : K
  drawdown : K

def Pass.start : Pass K := ⟨0, 0, 0⟩

def Pass.next [LinearOrder K] (s : Pass K) (x : K) : Pass K :=
  let total := s.total + x
  let peak := max s.peak total
  ⟨total, peak, max s.drawdown (peak - total)⟩

/-- What the pass says about the terms it has read. -/
structure Pass.Reads [LinearOrder K] (s : Pass K) (xs : List K) : Prop where
  total : s.total = xs.sum
  peak : IsGreatest (totals xs) s.peak
  drawdown : IsGreatest (declines xs) s.drawdown

theorem cumulative_length (xs : List K) : cumulative xs xs.length = xs.sum := by
  rw [cumulative, take_length]

variable {xs : List K} {x : K}

theorem cumulative_concat_of_le {i : ℕ} (h : i ≤ xs.length) :
    cumulative (xs ++ [x]) i = cumulative xs i := by
  rw [cumulative, cumulative, take_append_of_le_length h]

theorem mem_totals_concat {t : K} :
    t ∈ totals (xs ++ [x]) ↔ t ∈ totals xs ∨ t = xs.sum + x := by
  have hlast : cumulative (xs ++ [x]) (xs.length + 1) = xs.sum + x := by
    rw [show xs.length + 1 = (xs ++ [x]).length by simp, cumulative_length, sum_append,
      sum_singleton]
  constructor
  · rintro ⟨i, hi, rfl⟩
    rw [length_append, length_singleton] at hi
    rcases Nat.le_succ_iff.mp hi with h | rfl
    · exact .inl ⟨i, h, cumulative_concat_of_le h⟩
    · exact .inr hlast
  · rintro (⟨i, hi, rfl⟩ | rfl)
    · exact ⟨i, by simp; omega, (cumulative_concat_of_le hi).symm⟩
    · exact ⟨xs.length + 1, by simp, hlast.symm⟩

theorem mem_declines_concat {d : K} : d ∈ declines (xs ++ [x]) ↔
    d ∈ declines xs ∨ ∃ t ∈ totals (xs ++ [x]), d = t - (xs.sum + x) := by
  have hlast : cumulative (xs ++ [x]) (xs.length + 1) = xs.sum + x := by
    rw [show xs.length + 1 = (xs ++ [x]).length by simp, cumulative_length, sum_append,
      sum_singleton]
  constructor
  · rintro ⟨i, j, hij, hj, rfl⟩
    rw [length_append, length_singleton] at hj
    rcases Nat.le_succ_iff.mp hj with h | rfl
    · refine .inl ⟨i, j, hij, h, ?_⟩
      rw [cumulative_concat_of_le h, cumulative_concat_of_le (hij.trans h)]
    · exact .inr ⟨_, ⟨i, by simpa using hij, rfl⟩, by rw [hlast]⟩
  · rintro (⟨i, j, hij, hj, rfl⟩ | ⟨t, ⟨i, hi, rfl⟩, rfl⟩)
    · refine ⟨i, j, hij, by simp; omega, ?_⟩
      rw [cumulative_concat_of_le hj, cumulative_concat_of_le (hij.trans hj)]
    · exact ⟨i, xs.length + 1, by simpa using hi, by simp, by rw [hlast]⟩

variable [LinearOrder K]

theorem Pass.reads_start : (Pass.start : Pass K).Reads [] := by
  refine ⟨rfl, ⟨⟨0, le_rfl, rfl⟩, ?_⟩, ⟨⟨0, 0, le_rfl, le_rfl, (sub_self _).symm⟩, ?_⟩⟩
  · rintro t ⟨i, -, rfl⟩
    simp [cumulative, Pass.start]
  · rintro d ⟨i, j, -, -, rfl⟩
    simp [cumulative, Pass.start]

theorem Pass.Reads.gap_mem {s : Pass K} (h : s.Reads xs) :
    s.peak - s.total ∈ declines xs := by
  obtain ⟨i, hi, hpeak⟩ := h.peak.1
  exact ⟨i, xs.length, hi, le_rfl, by rw [hpeak, h.total, cumulative_length]⟩

variable [IsOrderedAddMonoid K]

theorem Pass.Reads.next {s : Pass K} (h : s.Reads xs) (x : K) :
    (s.next x).Reads (xs ++ [x]) := by
  have htotal : s.total + x = xs.sum + x := by rw [h.total]
  have hpeak : IsGreatest (totals (xs ++ [x])) (max s.peak (xs.sum + x)) := by
    constructor
    · rcases max_choice s.peak (xs.sum + x) with hmax | hmax <;> rw [hmax, mem_totals_concat]
      · exact .inl h.peak.1
      · exact .inr rfl
    · intro t ht
      rcases mem_totals_concat.mp ht with ht | rfl
      · exact le_max_of_le_left (h.peak.2 ht)
      · exact le_max_right _ _
  refine ⟨?_, ?_, ?_⟩
  · rw [sum_append, sum_singleton]
    exact htotal
  · simpa only [Pass.next, htotal] using hpeak
  · simp only [Pass.next, htotal]
    constructor
    · rcases max_choice s.drawdown (max s.peak (xs.sum + x) - (xs.sum + x)) with hmax | hmax <;>
        rw [hmax, mem_declines_concat]
      · exact .inl h.drawdown.1
      · exact .inr ⟨_, hpeak.1, rfl⟩
    · intro d hd
      rcases mem_declines_concat.mp hd with hd | ⟨t, ht, rfl⟩
      · exact le_max_of_le_left (h.drawdown.2 hd)
      · exact le_max_of_le_right (sub_le_sub_right (hpeak.2 ht) _)

theorem Pass.reads_foldl (xs : List K) : (xs.foldl Pass.next Pass.start).Reads xs := by
  induction xs using List.reverseRecOn with
  | nil => exact Pass.reads_start
  | append_singleton xs x ih =>
    rw [List.foldl_append]
    exact ih.next x

theorem abs_sum_le (xs : List K) : |xs.sum| ≤ (xs.map abs).sum := by
  simpa using Multiset.abs_sum_le_sum_abs (s := (xs : Multiset K))

theorem abs_le_of_mem_declines {d : K} (h : d ∈ declines xs) :
    |d| ≤ (xs.map abs).sum := by
  obtain ⟨i, j, hij, -, rfl⟩ := h
  have hsplit : cumulative xs j = cumulative xs i + ((xs.take j).drop i).sum := by
    have htake : xs.take i = (xs.take j).take i := by rw [take_take, min_eq_left hij]
    rw [cumulative, cumulative, htake, ← sum_append, take_append_drop]
  have hsub : ((xs.take j).drop i).Sublist xs := (drop_sublist _ _).trans (take_sublist _ _)
  rw [hsplit, sub_add_cancel_left, abs_neg]
  refine (abs_sum_le _).trans ((hsub.map abs).sum_le_sum ?_)
  intro x hx
  obtain ⟨y, -, rfl⟩ := mem_map.mp hx
  exact abs_nonneg y

end Series

namespace Series

variable {α K : Type} [LinearOrder K] (rank : α → K) (depth : α × α → K)

/-- A value that is not exceeded. -/
def IsPeak (xs : List α) (p : α) : Prop := p ∈ xs ∧ ∀ x ∈ xs, rank x ≤ rank p

/-- The values, each with one that is not later. -/
def falls (xs : List α) : Set (α × α) :=
  {q | ∃ before after, xs = before ++ q.2 :: after ∧ q.1 ∈ before ++ [q.2]}

/-- The values, each with a peak of the values up to it. -/
def peakFalls (xs : List α) : Set (α × α) :=
  {q | ∃ before after, xs = before ++ q.2 :: after ∧ IsPeak rank (before ++ [q.2]) q.1}

/-- A deepest fall from a peak, before whose end there is none as deep. -/
def FirstDeepest (xs : List α) (q : α × α) : Prop :=
  (∃ before after, xs = before ++ q.2 :: after ∧ IsPeak rank (before ++ [q.2]) q.1 ∧
    ∀ r ∈ peakFalls rank before, depth r < depth q) ∧
  ∀ r ∈ peakFalls rank xs, depth r ≤ depth q

/-- The peak so far and the deepest fall from a peak. -/
structure Watch (α : Type) where
  peak : α
  deepest : α × α

def Watch.start (x : α) : Watch α := ⟨x, (x, x)⟩

def Watch.next (w : Watch α) (x : α) : Watch α :=
  let peak := if rank w.peak < rank x then x else w.peak
  { peak := peak
    deepest := if depth w.deepest < depth (peak, x) then (peak, x) else w.deepest }

/-- What the watch says about the values it has seen. -/
structure Watch.Sees (w : Watch α) (xs : List α) : Prop where
  peak : IsPeak rank xs w.peak
  deepest : FirstDeepest rank depth xs w.deepest

variable {rank depth} {xs : List α} {x p : α} {q : α × α} {w : Watch α}

theorem isPeak_concat (h : IsPeak rank xs p) :
    IsPeak rank (xs ++ [x]) (if rank p < rank x then x else p) := by
  split_ifs with hlt
  · refine ⟨by simp, fun y hy => ?_⟩
    rw [List.mem_append, List.mem_singleton] at hy
    rcases hy with hy | rfl
    · exact (h.2 y hy).trans hlt.le
    · exact le_rfl
  · refine ⟨List.mem_append_left _ h.1, fun y hy => ?_⟩
    rw [List.mem_append, List.mem_singleton] at hy
    rcases hy with hy | rfl
    · exact h.2 y hy
    · exact not_lt.mp hlt

theorem mem_peakFalls_concat : q ∈ peakFalls rank (xs ++ [x]) ↔
    q ∈ peakFalls rank xs ∨ q.2 = x ∧ IsPeak rank (xs ++ [x]) q.1 := by
  constructor
  · rintro ⟨before, after, hsplit, hpeak⟩
    rcases List.eq_nil_or_concat after with rfl | ⟨after, y, rfl⟩
    · obtain ⟨rfl, hx⟩ := List.append_inj' hsplit rfl
      cases hx
      exact .inr ⟨rfl, hpeak⟩
    · rw [List.concat_eq_append, ← List.cons_append, ← List.append_assoc] at hsplit
      exact .inl ⟨before, after, (List.append_inj' hsplit rfl).1, hpeak⟩
  · rintro (⟨before, after, rfl, hpeak⟩ | ⟨rfl, hpeak⟩)
    · exact ⟨before, after ++ [x], by simp, hpeak⟩
    · exact ⟨xs, [], rfl, hpeak⟩

/-- The depth of a fall depends on the height of its peak only. -/
def DepthOfRank (rank : α → K) (depth : α × α → K) (xs : List α) : Prop :=
  ∀ p ∈ xs, ∀ p' ∈ xs, ∀ x, rank p = rank p' → depth (p, x) = depth (p', x)

theorem depth_eq_of_isPeak (hd : DepthOfRank rank depth xs) {p' : α} (h : IsPeak rank xs p)
    (h' : IsPeak rank xs p') : depth (p, x) = depth (p', x) :=
  hd p h.1 p' h'.1 x (le_antisymm (h'.2 p h.1) (h.2 p' h'.1))

theorem Watch.sees_start (hd : DepthOfRank rank depth [x]) :
    (Watch.start x).Sees rank depth [x] := by
  have hpeak : IsPeak rank [x] x := ⟨by simp, by simp⟩
  refine ⟨hpeak, ⟨[], [], rfl, hpeak, ?_⟩, ?_⟩
  · rintro r ⟨before, after, hsplit, -⟩
    simp at hsplit
  · intro r hr
    have hr : r ∈ peakFalls rank ([] ++ [x]) := hr
    rcases mem_peakFalls_concat.mp hr with ⟨before, after, hsplit, -⟩ | ⟨h2, h1⟩
    · simp at hsplit
    · obtain ⟨p, y⟩ := r
      cases h2
      exact (depth_eq_of_isPeak hd h1 hpeak).le

theorem Watch.Sees.next (hd : DepthOfRank rank depth (xs ++ [x])) (h : w.Sees rank depth xs) :
    (w.next rank depth x).Sees rank depth (xs ++ [x]) := by
  have hpeak := isPeak_concat (x := x) h.peak
  unfold Watch.next
  dsimp only
  generalize (if rank w.peak < rank x then x else w.peak) = p at hpeak
  refine ⟨hpeak, ?_⟩
  have hlast : ∀ r : α × α, r.2 = x → IsPeak rank (xs ++ [x]) r.1 → depth r = depth (p, x) := by
    rintro ⟨p', y⟩ rfl h1
    exact depth_eq_of_isPeak hd h1 hpeak
  obtain ⟨⟨before, after, hsplit, hfirst, hearlier⟩, hall⟩ := h.deepest
  split_ifs with hdeeper
  · refine ⟨⟨xs, [], rfl, hpeak, fun r hr => (hall r hr).trans_lt hdeeper⟩, fun r hr => ?_⟩
    rcases mem_peakFalls_concat.mp hr with hr | ⟨h2, h1⟩
    · exact (hall r hr).trans hdeeper.le
    · exact (hlast r h2 h1).le
  · refine ⟨⟨before, after ++ [x], by simp [hsplit], hfirst, hearlier⟩, fun r hr => ?_⟩
    rcases mem_peakFalls_concat.mp hr with hr | ⟨h2, h1⟩
    · exact hall r hr
    · rw [hlast r h2 h1]
      exact not_lt.mp hdeeper

theorem Watch.sees_foldl (hd : DepthOfRank rank depth (x :: xs)) :
    (xs.foldl (Watch.next rank depth) (Watch.start x)).Sees rank depth (x :: xs) := by
  induction xs using List.reverseRecOn with
  | nil => exact Watch.sees_start hd
  | append_singleton xs y ih =>
    rw [← List.cons_append] at hd
    rw [List.foldl_append]
    have hbefore : DepthOfRank rank depth (x :: xs) := fun p hp p' hp' =>
      hd p (List.mem_append_left _ hp) p' (List.mem_append_left _ hp')
    exact (ih hbefore).next hd

theorem exists_isPeak (rank : α → K) (hx : x ∈ xs) : ∃ p, IsPeak rank xs p := by
  cases xs with
  | nil => cases hx
  | cons y xs =>
    have hd : DepthOfRank rank (fun q => rank q.1) (y :: xs) := fun _ _ _ _ _ h => h
    exact ⟨_, (Watch.sees_foldl hd).peak⟩

/-- Where a higher start makes a fall deeper, no fall is deeper than those from a peak. -/
theorem FirstDeepest.falls_le (h : FirstDeepest rank depth xs q)
    (hmono : ∀ a p e, (a, e) ∈ falls xs → (p, e) ∈ falls xs → rank e ≤ rank p → rank a ≤ rank p →
      depth (a, e) ≤ depth (p, e)) :
    (∀ r ∈ falls xs, depth r ≤ depth q) ∧
      ∃ before after, xs = before ++ q.2 :: after ∧ q.1 ∈ before ++ [q.2] ∧
        ∀ r ∈ falls before, depth r < depth q := by
  have hdeeper : ∀ ys zs, xs = ys ++ zs → ∀ r ∈ falls ys,
      ∃ r' ∈ peakFalls rank ys, depth r ≤ depth r' := by
    rintro ys zs rfl ⟨a, e⟩ ⟨before, after, rfl, ha⟩
    obtain ⟨p, hp⟩ := exists_isPeak rank ha
    refine ⟨(p, e), ⟨before, after, rfl, hp⟩, hmono a p e ?_ ?_ (hp.2 e (by simp)) (hp.2 a ha)⟩
    · exact ⟨before, after ++ zs, by simp, ha⟩
    · exact ⟨before, after ++ zs, by simp, hp.1⟩
  obtain ⟨⟨before, after, rfl, hpeak, hearlier⟩, hall⟩ := h
  refine ⟨fun r hr => ?_, before, after, rfl, hpeak.1, fun r hr => ?_⟩
  · obtain ⟨r', hr', hle⟩ := hdeeper _ [] (List.append_nil _).symm r hr
    exact hle.trans (hall r' hr')
  · obtain ⟨r', hr', hle⟩ := hdeeper before _ rfl r hr
    exact hle.trans_lt (hearlier r' hr')

end Series
