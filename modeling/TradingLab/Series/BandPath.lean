import Mathlib.Analysis.Convex.PathConnected

/-!
# Paths in a band

A path starts at a value of a band, never leaves the band and reaches both of its
bounds. A pair of levels is touched when the path is at or below the lower level, or
at or above the upper one. The value of the first touch is known from the band alone.
-/

open Set

/-- A path that starts at `o`, between `l` and `h`, which it both reaches. -/
structure BandPath (o l h : ℝ) where
  value : ℝ → ℝ
  continuous : ContinuousOn value (Icc 0 1)
  start : value 0 = o
  within : ∀ t ∈ Icc (0 : ℝ) 1, value t ∈ Icc l h
  low : ∃ t ∈ Icc (0 : ℝ) 1, value t = l
  high : ∃ t ∈ Icc (0 : ℝ) 1, value t = h

namespace BandPath

variable {o l h : ℝ} (γ : BandPath o l h) (lower upper : ℝ)

def Touches (t : ℝ) : Prop := t ∈ Icc (0 : ℝ) 1 ∧ (γ.value t ≤ lower ∨ upper ≤ γ.value t)

def FirstTouch (t : ℝ) : Prop := γ.Touches lower upper t ∧ ∀ u < t, ¬ γ.Touches lower upper u

theorem exists_of_mem (ho : o ∈ Icc l h) : Nonempty (BandPath o l h) := by
  have hle : l ≤ h := ho.1.trans ho.2
  have hconnected : IsPathConnected (Icc l h) := (convex_Icc l h).isPathConnected ⟨o, ho⟩
  obtain ⟨γ, hrange, hthrough⟩ := hconnected.exists_path_through_family ![o, l, h] (by
    intro i
    fin_cases i
    · exact ho
    · exact left_mem_Icc.mpr hle
    · exact right_mem_Icc.mpr hle)
  have hreach : ∀ i, ∃ t ∈ Icc (0 : ℝ) 1, γ.extend t = ![o, l, h] i := by
    intro i
    obtain ⟨t, ht⟩ := hthrough i
    exact ⟨t, t.2, by rw [γ.extend_apply t.2]; exact ht⟩
  exact ⟨{
    value := γ.extend
    continuous := γ.continuous_extend.continuousOn
    start := γ.extend_zero
    within := fun t ht => hrange ⟨⟨t, ht⟩, (γ.extend_apply ht).symm⟩
    low := hreach 1
    high := hreach 2 }⟩

theorem exists_touches_iff : (∃ t, γ.Touches lower upper t) ↔ l ≤ lower ∨ upper ≤ h := by
  constructor
  · rintro ⟨t, ht, hlower | hupper⟩
    · exact .inl ((γ.within t ht).1.trans hlower)
    · exact .inr (hupper.trans (γ.within t ht).2)
  · rintro (hlower | hupper)
    · obtain ⟨t, ht, hvalue⟩ := γ.low
      exact ⟨t, ht, .inl (hvalue.trans_le hlower)⟩
    · obtain ⟨t, ht, hvalue⟩ := γ.high
      exact ⟨t, ht, .inr (hupper.trans_eq hvalue.symm)⟩

variable {γ lower upper} {t : ℝ}

theorem FirstTouch.eq_start (hfirst : γ.FirstTouch lower upper t) (ho : o ≤ lower ∨ upper ≤ o) :
    γ.value t = o := by
  have hzero : γ.Touches lower upper 0 := by
    refine ⟨left_mem_Icc.mpr zero_le_one, ?_⟩
    rwa [γ.start]
  have hnotlt : ¬ 0 < t := fun hpos => hfirst.2 0 hpos hzero
  rw [le_antisymm (not_lt.mp hnotlt) hfirst.1.1.1, γ.start]

theorem FirstTouch.lower_le (hfirst : γ.FirstTouch lower upper t) (ho : lower < o) :
    lower ≤ γ.value t := by
  by_contra hbelow
  have hlt : γ.value t < lower := not_le.mp hbelow
  have ht := hfirst.1.1
  have hsub : Icc 0 t ⊆ Icc (0 : ℝ) 1 := Icc_subset_Icc le_rfl ht.2
  have hmem : lower ∈ Icc (γ.value t) (γ.value 0) := ⟨hlt.le, by rw [γ.start]; exact ho.le⟩
  obtain ⟨u, hu, hvalue⟩ := intermediate_value_Icc' ht.1 (γ.continuous.mono hsub) hmem
  have hne : u ≠ t := by
    rintro rfl
    exact hlt.ne hvalue
  exact hfirst.2 u (lt_of_le_of_ne hu.2 hne) ⟨hsub hu, .inl hvalue.le⟩

theorem FirstTouch.upper_le (hfirst : γ.FirstTouch lower upper t) (hl : lower < l) :
    upper ≤ γ.value t := by
  rcases hfirst.1.2 with hlower | hupper
  · exact absurd ((γ.within t hfirst.1.1).1.trans hlower) (not_le.mpr hl)
  · exact hupper

end BandPath
