import TradingLab.Generation2.UnitScale

/-!
# The scale in force

A position should have the quantity of its month. The cell looks for a new scale only
at a bar that opens with the month and has values, so the law holds in the runs in
which every month is entered through such a bar.
-/

namespace TradingLab

open Decimal Search

namespace Generation2.VolScaling

variable {a a' : _Account} {r : Rates} {reference x y : Decimal}

theorem quantity_buy {startCycle : Bool} (h : a._buy r reference x startCycle = .ok a') :
    a'.quantity = if x ≈ 0 then a.quantity else add defaultPrecision a.quantity x := by
  unfold _Account._buy at h
  obtain ⟨-, h⟩ := raiseIf_bind_eq_ok.mp h
  obtain ⟨cashflow, -, h⟩ := bind_eq_ok.mp h
  split at h
  · cases h
    rw [if_pos ‹_›]
  · obtain ⟨-, h⟩ := raiseIf_bind_eq_ok.mp h
    cases h
    rw [if_neg ‹_›]

theorem quantity_sell (h : a._sell r reference x false = .ok a') :
    a'.quantity = if 0 < x then sub defaultPrecision a.quantity x else a.quantity := by
  unfold _Account._sell at h
  obtain ⟨-, h⟩ := raiseIf_bind_eq_ok.mp h
  split at h
  · cases h
  · cases h
    unfold _Account.sold
    split <;> rfl

theorem quantity_after_buy (hx : 0 < x) (hy : Held y) (hsum : a.quantity.toRat + x.toRat = y.toRat)
    (h : a._buy r reference x false = .ok a') : a'.quantity ≈ y := by
  rw [quantity_buy h, if_neg (not_equiv_zero hx)]
  exact hy.add hsum

theorem quantity_after_sell (hx : 0 < x)
    (hy : Held y) (hdiff : a.quantity.toRat - x.toRat = y.toRat)
    (h : a._sell r reference x false = .ok a') : a'.quantity ≈ y := by
  rw [quantity_sell h, if_pos hx]
  exact hy.sub hdiff

/-- A position has the quantity of a scale in both accounts. -/
def Holds (p : Policy) (scale : Decimal) (s : CellState) : Prop :=
  s.logicalPosition = true → s.base.quantity ≈ mul defaultPrecision p.quantity scale ∧
    s.stress.quantity ≈ mul defaultPrecision p.quantity scale

/-- What the quantity is short of the one of a scale, in digits that the default context
holds. -/
def Adjustable (p : Policy) (scale : Decimal) (s : CellState) : Prop :=
  Held (addExact (mul defaultPrecision p.quantity scale) (copyNegate s.base.quantity))

instance (p : Policy) (scale : Decimal) (s : CellState) : Decidable (Adjustable p scale s) :=
  inferInstanceAs (Decidable (Held _))

section Step
variable {bars : List (Bar String)} {shortValues longValues : Indicator} {p : Policy}
  {schedule : Schedule} {stop : ℕ} {s s' u : CellState} {scale : Decimal}

variable {reference : Decimal} {i : ℕ} {v : Values}

theorem holds_entered (h : s.entered p reference scale = .ok s') :
    s'.currentScale = s.currentScale ∧ Holds p scale s' := by
  unfold CellState.entered at h
  obtain ⟨base, hbase, h⟩ := bind_eq_ok.mp h
  obtain ⟨stress, hstress, h⟩ := bind_eq_ok.mp h
  cases h
  refine ⟨rfl, fun _ => ?_⟩
  exact ⟨quantity_entry (held_mul _ _) hbase, quantity_entry (held_mul _ _) hstress⟩

theorem holds_exited (h : s.exited p reference = .ok s') :
    s'.currentScale = s.currentScale ∧ Holds p scale s' := by
  unfold CellState.exited at h
  obtain ⟨base, -, h⟩ := bind_eq_ok.mp h
  obtain ⟨stress, -, h⟩ := bind_eq_ok.mp h
  cases h
  exact ⟨rfl, nofun⟩

/-- An adjustable position is brought to the quantity of the scale. -/
theorem holds_rebalanced (hsame : s.stress.quantity ≈ s.base.quantity)
    (hadjustable : Adjustable p scale s) (h : s.rebalanced p reference scale = .ok s') :
    Holds p scale s' := by
  set target := mul defaultPrecision p.quantity scale with htarget
  have hheld : Held target := held_mul _ _
  have hdelta : (sub defaultPrecision target s.base.quantity).toRat =
      target.toRat - s.base.quantity.toRat := by
    rw [sub_eq_add_neg, ← toRat_copyNegate, ← toRat_addExact]
    exact hadjustable
  have hstress := equiv_def.mp hsame
  unfold CellState.rebalanced at h
  dsimp only at h
  rw [← htarget] at h
  generalize sub defaultPrecision target s.base.quantity = delta at h hdelta
  split at h
  · obtain ⟨base, hbase, h⟩ := bind_eq_ok.mp h
    obtain ⟨stress, hstress', h⟩ := bind_eq_ok.mp h
    cases h
    intro _
    constructor
    · apply quantity_after_buy ‹_› hheld _ hbase
      rw [hdelta, add_sub_cancel]
    · apply quantity_after_buy ‹_› hheld _ hstress'
      rw [hdelta, hstress, add_sub_cancel]
  · split at h
    · have hnegate : (neg defaultPrecision delta).toRat = -delta.toRat := by
        apply toRat_neg defaultPrecision_pos
        have hrepresentable := hadjustable.representable
        rwa [toRat_addExact, toRat_copyNegate, ← sub_eq_add_neg, ← hdelta] at hrepresentable
      have hpos : 0 < neg defaultPrecision delta := by
        have hneg : delta < 0 := ‹_›
        rw [lt_def, toRat_zero] at hneg ⊢
        rw [hnegate]
        linarith
      obtain ⟨base, hbase, h⟩ := bind_eq_ok.mp h
      obtain ⟨stress, hstress', h⟩ := bind_eq_ok.mp h
      cases h
      intro _
      constructor
      · apply quantity_after_sell hpos hheld _ hbase
        rw [hnegate, hdelta]
        ring
      · apply quantity_after_sell hpos hheld _ hstress'
        rw [hnegate, hdelta, hstress]
        ring
    · cases h
      have hzero : target.toRat = s.base.quantity.toRat := by
        rw [lt_def, toRat_zero] at *
        linarith
      exact fun _ => ⟨equiv_def.mpr hzero.symm, equiv_def.mpr (hstress.trans hzero.symm)⟩

theorem settle_none (hholds : Holds p u.currentScale u)
    (h : settle bars p stop u i v none = .ok s') :
    s'.currentScale = u.currentScale ∧ Holds p u.currentScale s' := by
  unfold settle at h
  split at h
  · split at h
    · cases h
      exact ⟨rfl, hholds⟩
    · split at h
      · cases h
      · unfold act at h
        simp only [CellState.rescaled, bind_pure, Option.getD_none] at h
        split at h
        · exact holds_exited h
        · split at h
          · exact holds_entered h
          · cases h
            exact ⟨rfl, hholds⟩
  · cases h
    exact ⟨rfl, hholds⟩

theorem Holds.rescaled {x : Decimal} (h : Holds p x s) (boundary : Option Decimal) :
    Holds p x (s.rescaled boundary) := by
  unfold CellState.rescaled
  cases boundary <;> exact h

/-- A new scale is brought into force, if there is time, and its quantity is reached. -/
theorem settle_some (hholds : Holds p u.currentScale u)
    (htime : u.logicalPosition = true → i + 1 < stop ∨ scale = u.currentScale)
    (hadjustable : u.logicalPosition = true → v.exits true = false → Adjustable p scale u)
    (h : settle bars p stop u i v (some scale) = .ok s') :
    (i + 1 < stop → s'.currentScale = scale) ∧ Holds p scale s' := by
  unfold settle at h
  split at h
  · split at h
    · cases h
      refine ⟨fun hlt => absurd hlt (by omega), fun hposition => ?_⟩
      have hsame := (htime hposition).resolve_left (by omega)
      rw [hsame]
      exact hholds hposition
    · split at h
      · cases h
      · unfold act at h
        split at h
        · obtain ⟨w, hw, h⟩ := bind_eq_ok.mp h
          cases h
          exact ⟨fun _ => rfl, (holds_exited hw).2.rescaled _⟩
        · split at h
          · obtain ⟨w, hw, h⟩ := bind_eq_ok.mp h
            cases h
            exact ⟨fun _ => rfl, (holds_entered hw).2.rescaled _⟩
          · obtain ⟨w, hw, h⟩ := bind_eq_ok.mp h
            cases h
            have hposition : u.logicalPosition = true := by simp_all
            have hquantities := hholds hposition
            have hsame := equiv_trans hquantities.2 (equiv_symm hquantities.1)
            refine ⟨fun _ => rfl, (holds_rebalanced hsame (hadjustable hposition ?_) hw).rescaled _⟩
            rw [← hposition]
            simpa using ‹¬ v.exits u.logicalPosition = true›
  · cases h
    refine ⟨fun _ => rfl, fun hposition => ?_⟩
    have hflat : u.logicalPosition = false := by simp_all
    rw [show (u.rescaled (some scale)).logicalPosition = u.logicalPosition from rfl, hflat]
      at hposition
    cases hposition

end Step

section Run
variable (bars : List (Bar String)) (shortValues longValues : Indicator) (p : Policy)
  (schedule : Schedule) (start stop : ℕ)

/-- The first bar of a new month opens with it and has values; a position can be filled
after it, and adjusted unless it is left. -/
def Prompt (s : CellState) (i : ℕ) : Prop :=
  ∀ bar ∈ bars[i]?, ∀ previous ∈ bars[i - 1]?, start < i →
    _monthStartMs bar.openTimeMs ≠ _monthStartMs previous.openTimeMs →
      _isMonthBoundary bar.openTimeMs = true ∧ ∃ v ∈ valuesAt shortValues longValues i,
        s.logicalPosition = true → i + 1 < stop ∧
          (v.exits true = false → ∀ scale ∈ schedule bar.openTimeMs, Adjustable p scale s)

instance (s : CellState) (i : ℕ) :
    Decidable (Prompt bars shortValues longValues p schedule start stop s i) :=
  inferInstanceAs (Decidable (∀ bar ∈ bars[i]?, _))

/-- After a bar a position has the quantity of the scale of the bar's month. -/
def Sized (bar : Bar String) (s : CellState) : Prop :=
  s.logicalPosition = true →
    ∃ scale ∈ schedule (_monthStartMs bar.openTimeMs), Holds p scale s

/-- Before a bar the scale in force is that of the month of the last bar seen. -/
def Ready (i : ℕ) (s : CellState) : Prop :=
  ∃ seen, bars[max start (i - 1)]? = some seen ∧
    schedule (_monthStartMs seen.openTimeMs) = some s.currentScale ∧ Holds p s.currentScale s

variable {bars shortValues longValues p schedule start stop} {s s' : CellState} {i : ℕ}

theorem boundaryScale_eq_ok {t : ℤ} {boundary : Option Decimal}
    (h : boundaryScale (some schedule) t = .ok boundary) :
    (_isMonthBoundary t = false ∧ boundary = none) ∨
      (_isMonthBoundary t = true ∧ ∃ scale, schedule t = some scale ∧ boundary = some scale) := by
  unfold boundaryScale at h
  dsimp only at h
  cases ht : _isMonthBoundary t with
  | false =>
    rw [ht, if_neg Bool.false_ne_true] at h
    cases h
    exact .inl ⟨rfl, rfl⟩
  | true =>
    rw [ht, if_pos rfl] at h
    cases hscale : schedule t with
    | none =>
      rw [hscale] at h
      cases h
    | some scale =>
      rw [hscale] at h
      cases h
      exact .inr ⟨rfl, scale, rfl, rfl⟩

theorem Prompt.same_month (h : Prompt bars shortValues longValues p schedule start stop s i)
    (hle : start ≤ i) {bar seen : Bar String} (hbar : bars[i]? = some bar)
    (hseen : bars[max start (i - 1)]? = some seen)
    (hnot : _isMonthBoundary bar.openTimeMs = false ∨ valuesAt shortValues longValues i = none ∨
      i = 0) : _monthStartMs bar.openTimeMs = _monthStartMs seen.openTimeMs := by
  rcases hle.eq_or_lt with rfl | hlt
  · rw [show max start (start - 1) = start by omega] at hseen
    cases hbar.symm.trans hseen
    rfl
  · rw [show max start (i - 1) = i - 1 by omega] at hseen
    by_contra hne
    obtain ⟨hboundary, v, hv, -⟩ := h bar hbar seen hseen hlt hne
    rcases hnot with hnot | hnone | hzero
    · rw [hboundary] at hnot
      cases hnot
    · rw [hnone] at hv
      cases hv
    · omega

theorem adjustable_of_holds (h : Holds p s.currentScale s) (hposition : s.logicalPosition = true) :
    Adjustable p s.currentScale s := by
  apply Held.of_equiv (show Held 0 by decide)
  rw [equiv_def, toRat_addExact, toRat_copyNegate, equiv_def.mp (h hposition).1, add_neg_cancel,
    toRat_zero]

/-- A bar entered in time leaves a position of the right size. -/
theorem ready_step (hready : Ready bars p schedule start i s) (hle : start ≤ i)
    (hprompt : Prompt bars shortValues longValues p schedule start stop s i)
    (h : step bars shortValues longValues p (some schedule) stop s i = .ok s') :
    ∃ bar, bars[i]? = some bar ∧ Sized p schedule bar s' ∧
      (i + 1 < stop → Ready bars p schedule start (i + 1) s') := by
  obtain ⟨seen, hseen, hscale, hholds⟩ := hready
  have hnext : max start (i + 1 - 1) = i := by omega
  unfold Ready
  rw [hnext]
  cases stepped_of_ok h with
  | @skipped bar hbar hmark hskip =>
    have hmonth := hprompt.same_month hle hbar hseen (.inr hskip.symm)
    obtain ⟨hbase, hstress, hposition, hcurrent⟩ := marked_eq_ok hmark
    have hholds : Holds p s'.currentScale s' := by
      unfold Holds
      rw [hbase, hstress, hposition, hcurrent]
      exact hholds
    rw [← hmonth, ← hcurrent] at hscale
    exact ⟨bar, hbar, fun _ => ⟨_, hscale, hholds⟩, fun _ => ⟨bar, hbar, hscale, hholds⟩⟩
  | @settled bar u v boundary hbar hmark hi hv hboundary hsettle =>
    obtain ⟨hbase, hstress, hposition, hcurrent⟩ := marked_eq_ok hmark
    have hholds : Holds p (u.counted v).currentScale (u.counted v) := by
      change Holds p u.currentScale (u.counted v)
      unfold Holds CellState.counted
      dsimp only
      rw [hbase, hstress, hposition, hcurrent]
      exact hholds
    rcases boundaryScale_eq_ok hboundary with ⟨hfalse, rfl⟩ | ⟨htrue, scale, hnew, rfl⟩
    · have hmonth := hprompt.same_month hle hbar hseen (.inl hfalse)
      obtain ⟨hafter, hholds'⟩ := settle_none hholds hsettle
      have hafter : s'.currentScale = s.currentScale := hafter.trans hcurrent
      rw [← hmonth, ← hafter] at hscale
      rw [show (u.counted v).currentScale = s'.currentScale from hcurrent.trans hafter.symm]
        at hholds'
      exact ⟨bar, hbar, fun _ => ⟨_, hscale, hholds'⟩, fun _ => ⟨bar, hbar, hscale, hholds'⟩⟩
    · have hstart : _monthStartMs bar.openTimeMs = bar.openTimeMs := by
        unfold _isMonthBoundary at htrue
        exact (decide_eq_true_eq.mp htrue).symm
      have hdone : (i + 1 < stop → s'.currentScale = scale) ∧ Holds p scale s' := by
        by_cases hmonth : _monthStartMs bar.openTimeMs = _monthStartMs seen.openTimeMs
        · have hsame : scale = (u.counted v).currentScale := by
            rw [← hmonth, hstart, hnew] at hscale
            cases hscale
            exact hcurrent.symm
          rw [hsame] at hsettle ⊢
          exact settle_some hholds (fun _ => .inr rfl)
            (fun hposition _ => adjustable_of_holds hholds hposition) hsettle
        · have hlt : start < i := by
            rcases hle.eq_or_lt with rfl | hlt
            · rw [show max start (start - 1) = start by omega] at hseen
              cases hbar.symm.trans hseen
              exact (hmonth rfl).elim
            · exact hlt
          rw [show max start (i - 1) = i - 1 by omega] at hseen
          obtain ⟨-, v', hv', hprompt⟩ := hprompt bar hbar seen hseen hlt hmonth
          cases hv.symm.trans hv'
          have hposition' : (u.counted v).logicalPosition = s.logicalPosition := hposition
          refine settle_some hholds (fun h => .inl ?_) (fun h hexits => ?_) hsettle
          · rw [hposition'] at h
            exact (hprompt h).1
          · rw [hposition'] at h
            have hadjustable := (hprompt h).2 hexits scale hnew
            unfold Adjustable CellState.counted at *
            rwa [hbase]
      rw [← hstart] at hnew
      refine ⟨bar, hbar, fun _ => ⟨scale, hnew, hdone.2⟩, fun hlt => ⟨bar, hbar, ?_⟩⟩
      rw [hdone.1 hlt]
      exact ⟨hnew, hdone.2⟩

theorem sized_foldlM {n : ℕ} (hready : Ready bars p schedule start i s) (hle : start ≤ i)
    (hstop : i + n ≤ stop)
    (hprompt : Along (Prompt bars shortValues longValues p schedule start stop)
      (step bars shortValues longValues p (some schedule) stop) s (List.range' i n)) {k : ℕ}
    (hk : k < n) (h : (List.range' i (k + 1)).foldlM
      (step bars shortValues longValues p (some schedule) stop) s = .ok s') :
    ∃ bar, bars[i + k]? = some bar ∧ Sized p schedule bar s' := by
  induction n generalizing i s k with
  | zero => omega
  | succ n ih =>
    rw [List.range'_succ] at hprompt h
    rw [List.foldlM_cons] at h
    obtain ⟨u, hu, h⟩ := bind_eq_ok.mp h
    obtain ⟨bar, hbar, hsized, hnext⟩ := ready_step hready hle hprompt.1 hu
    cases k with
    | zero =>
      cases h
      exact ⟨bar, hbar, hsized⟩
    | succ k =>
      rw [show i + (k + 1) = i + 1 + k by omega]
      exact ih (hnext (by omega)) (by omega) (by omega) (hprompt.tail hu) (by omega) h

end Run

/-- In a cell that enters every month in time, a position held after the decision of a bar
has the quantity of the month of this bar, in both accounts. -/
theorem scale_in_force {exact : ExactSeries} {shortValues longValues : Indicator} {startMs endMs : ℤ}
    {p : Policy} {schedule : Schedule} {scale : Decimal} {s : CellState} {k : ℕ}
    (hscale : StartsWith exact (bisectLeft exact.times startMs) scale (some schedule))
    (hprompt : Along (Prompt exact.bars shortValues longValues p schedule
        (bisectLeft exact.times startMs) (cellStop exact endMs))
      (step exact.bars shortValues longValues p (some schedule) (cellStop exact endMs))
      (.init p scale) (cellBars exact startMs endMs))
    (hk : k < (cellBars exact startMs endMs).length)
    (h : loop exact.bars shortValues longValues p (some schedule) (cellStop exact endMs)
      (.init p scale) ((cellBars exact startMs endMs).take (k + 1)) = .ok s) :
    ∃ bar, exact.bars[bisectLeft exact.times startMs + k]? = some bar ∧ Sized p schedule bar s := by
  obtain ⟨first, hfirst, hscale⟩ := hscale
  have hready : Ready exact.bars p schedule (bisectLeft exact.times startMs)
      (bisectLeft exact.times startMs) (.init p scale) := by
    refine ⟨first, ?_, hscale, nofun⟩
    rwa [show max (bisectLeft exact.times startMs) (bisectLeft exact.times startMs - 1) =
      bisectLeft exact.times startMs by omega]
  unfold cellBars windowBars at hprompt hk h
  rw [List.length_range'] at hk
  rw [List.take_range'_of_length_ge (by omega)] at h
  exact sized_foldlM hready le_rfl (by unfold cellStop; omega) hprompt hk h

/-- The last hours of January 1970 and the first ones of February. -/
def monthEnd : ExactSeries := ⟨flatBars [741, 742, 743, 744, 745, 746], by decide, by decide⟩

/-- An entry signal at the second bar, and no other. -/
def risen : Indicator
  | 0 => some 0
  | _ => some 2

def halvedInFebruary : Schedule := fun month =>
  if month = monthMs 0 then some 1 else if month = monthMs 1 then some (ofText "0.5") else none

/-- A position of January is halved at the first bar of February. -/
theorem scale_in_force_month_end :
    ∃ s bar, loop monthEnd.bars risen levelOne samplePolicy (some halvedInFebruary) 6
        (.init samplePolicy 1) [0, 1, 2, 3] = .ok s ∧
      monthEnd.bars[3]? = some bar ∧ s.logicalPosition = true ∧ s.rebalanceCount = 1 ∧
      Sized samplePolicy halvedInFebruary bar s := by
  have hstart : bisectLeft monthEnd.times (741 * hourMs) = 0 := by decide +kernel
  have hstop : cellStop monthEnd (747 * hourMs) = 6 := by decide +kernel
  have hbars : cellBars monthEnd (741 * hourMs) (747 * hourMs) = [0, 1, 2, 3, 4, 5] := by
    decide +kernel
  obtain ⟨s, hs⟩ : ∃ s, loop monthEnd.bars risen levelOne samplePolicy (some halvedInFebruary) 6
      (.init samplePolicy 1) [0, 1, 2, 3] = .ok s := exists_of_isOk (by decide +kernel)
  have hdone : (loop monthEnd.bars risen levelOne samplePolicy (some halvedInFebruary) 6
      (.init samplePolicy 1) [0, 1, 2, 3]).map (fun s => (s.logicalPosition, s.rebalanceCount)) =
        .ok (true, 1) := by
    decide +kernel
  rw [hs] at hdone
  obtain ⟨hposition, hcount⟩ := Prod.mk.inj (Except.ok.inj hdone)
  have law := @scale_in_force monthEnd risen levelOne (741 * hourMs) (747 * hourMs) samplePolicy
    halvedInFebruary 1 s 3
  rw [hstart, hstop, hbars] at law
  obtain ⟨bar, hbar, hsized⟩ := law ⟨_, rfl, by decide +kernel⟩ (by decide +kernel) (by decide) hs
  exact ⟨s, bar, hs, hbar, hposition, hcount, hsized⟩

end Generation2.VolScaling

end TradingLab
