import TradingLab.Generation2.VolScaling
import TradingLab.Search.Agreement
import TradingLab.Series.Causal
import Mathlib.Data.List.ReduceOption

/-!
# The schedule looks back

A scale is made of the days before its month, a day of its hours, an hour of two closes
and a control position, and this of values before the hour. What two series have in
common before a time is therefore enough for the months up to it.
-/

namespace TradingLab

open Decimal Search List

namespace Generation2.VolScaling

/-- The bars and the values of two runs that are the same before a time. -/
structure SamePast {P : Type} (t : ℤ) (A B : BarSeries P) (shortA longA shortB longB : Indicator) :
    Prop where
  series : Agree t A B
  short : ∀ i < A.countBefore t, shortA i = shortB i
  long : ∀ i < A.countBefore t, longA i = longB i

section Positions
variable {P : Type} {t : ℤ} {A B : BarSeries P} {shortA longA shortB longB : Indicator}
  (h : SamePast t A B shortA longA shortB longB)
include h

theorem SamePast.symm : SamePast t B A shortB longB shortA longA := by
  refine ⟨h.series.symm, ?_, ?_⟩
  · rw [← h.series.countBefore_eq]
    exact fun i hi => (h.short i hi).symm
  · rw [← h.series.countBefore_eq]
    exact fun i hi => (h.long i hi).symm

variable {i : ℕ} {bars : List (Bar P)} {shortValues longValues : Indicator} {resetMs : ℤ}
  {positions : List Bool}

theorem SamePast.valuesAt_eq (hi : i < A.countBefore t) :
    valuesAt shortA longA i = valuesAt shortB longB i := by
  unfold valuesAt
  rw [h.short i hi, h.long i hi, h.short (i - 1) (by omega), h.long (i - 1) (by omega)]

theorem SamePast.controlStep_eq {start : ℕ} (hi : i < A.countBefore t) (position : Bool) :
    controlStep A.bars shortA longA start position i =
      controlStep B.bars shortB longB start position i := by
  have hfollows : follows A.bars i = follows B.bars i := by
    unfold follows
    rw [h.series.getElem?_eq hi, h.series.getElem?_eq (show i - 1 < A.countBefore t by omega)]
  unfold controlStep
  rw [hfollows, h.valuesAt_eq (show i - 1 < A.countBefore t by omega)]

omit h in
/-- The control position at a bar is that of the signals since the reset. -/
theorem getD_controlPositions
    (hpositions : _controlPositions bars shortValues longValues resetMs = .ok positions)
    (hi : i < bars.length) : positions.getD i false =
      if bisectLeft (timesOf bars) resetMs ≤ i then
        (List.range' (bisectLeft (timesOf bars) resetMs)
          (i - bisectLeft (timesOf bars) resetMs + 1)).foldl
            (controlStep bars shortValues longValues (bisectLeft (timesOf bars) resetMs)) false
      else false := by
  unfold _controlPositions at hpositions
  obtain ⟨hstart, hpositions⟩ := raiseIf_bind_eq_ok.mp hpositions
  cases hpositions
  generalize bisectLeft (timesOf bars) resetMs = start at hstart ⊢
  rw [getD_eq_getElem?_getD]
  split
  · have hk : i - start < (windowBars start bars.length).length := by
      unfold windowBars
      rw [length_range']
      omega
    rw [getElem?_append_right (by rw [length_replicate]; assumption),
      length_replicate, getElem?_controlStates hk]
    unfold windowBars
    rw [take_range'_of_length_ge (by omega)]
    rfl
  · rw [getElem?_append_left (by rw [length_replicate]; omega), getElem?_replicate,
      if_pos (by omega)]
    rfl

theorem SamePast.position_eq {positionsA positionsB : List Bool}
    (hA : _controlPositions A.bars shortA longA resetMs = .ok positionsA)
    (hB : _controlPositions B.bars shortB longB resetMs = .ok positionsB)
    (hi : i < A.countBefore t) : positionsA.getD i false = positionsB.getD i false := by
  have hiB := hi
  rw [h.series.countBefore_eq] at hiB
  have hle : ∀ j < A.countBefore t,
      (j < bisectLeft (timesOf A.bars) resetMs ↔ j < bisectLeft (timesOf B.bars) resetMs) :=
    fun j hj => h.series.lt_countBefore_congr hj resetMs
  rw [getD_controlPositions hA (hi.trans_le (countBefore_le A t)),
    getD_controlPositions hB (hiB.trans_le (countBefore_le B t))]
  by_cases hstart : bisectLeft (timesOf A.bars) resetMs ≤ i
  · have hsame : bisectLeft (timesOf A.bars) resetMs = bisectLeft (timesOf B.bars) resetMs :=
      h.series.countBefore_congr (hstart.trans_lt (hi.trans_le (countBefore_le_succ A t)))
    rw [if_pos hstart, if_pos (hsame ▸ hstart), ← hsame]
    apply foldl_ext
    intro position j hj
    rw [mem_range'_1] at hj
    exact h.controlStep_eq (by omega) position
  · rw [if_neg hstart, if_neg fun hge => hstart ?_]
    exact not_lt.mp fun hlt => absurd ((hle i hi).mp hlt) (not_lt.mpr hge)

omit h in
theorem length_controlPositions
    (hpositions : _controlPositions bars shortValues longValues resetMs = .ok positions) :
    positions.length = bars.length := by
  unfold _controlPositions at hpositions
  obtain ⟨hstart, hpositions⟩ := raiseIf_bind_eq_ok.mp hpositions
  cases hpositions
  rw [length_append, length_replicate, length_controlStates]
  unfold windowBars
  rw [length_range']
  omega

end Positions

section Past
variable {t : ℤ} {A B : ExactSeries} {positionsA positionsB : List Bool} {warmupStartMs : ℤ}
  (h : Agree t A B)
  (hpositions : ∀ i < A.countBefore t, positionsA.getD i false = positionsB.getD i false)
include h hpositions

variable {i c : ℕ} {bars : List (Bar String)} {positions : List Bool} {e : HourReturn}
  {day boundary : ℤ} {daily : Daily}

theorem hourReturn_congr (hi : i < A.countBefore t) :
    hourReturn A.bars positionsA warmupStartMs i = hourReturn B.bars positionsB warmupStartMs i := by
  unfold hourReturn
  rw [h.getElem?_eq hi, h.getElem?_eq (show i - 1 < A.countBefore t by omega),
    hpositions i hi]

omit h hpositions in
theorem day_of_hourReturn (he : hourReturn bars positions warmupStartMs i = .ok (some e)) :
    ∃ bar, bars[i]? = some bar ∧ e.day = bar.openTimeMs / dayMs * dayMs := by
  unfold hourReturn at he
  cases hbar : bars[i]? with
  | none =>
    rw [hbar] at he
    cases he
  | some bar =>
    refine ⟨bar, rfl, ?_⟩
    rw [hbar] at he
    cases hprevious : bars[i - 1]? with
    | none =>
      rw [hprevious] at he
      cases he
    | some previous =>
      rw [hprevious] at he
      dsimp only at he
      split at he
      · cases he
      · split at he
        · split at he
          · cases he
          · cases he
            rfl
        · cases he
          rfl

omit h hpositions in
/-- The returns of the bars before an index, and of those from it on. -/
theorem hourReturns_split {entries : List HourReturn} (hc : 1 ≤ c) (hle : c ≤ max 1 bars.length)
    (hentries : hourReturns bars positions warmupStartMs = .ok entries) :
    ∃ early late, (List.range' 1 (c - 1)).mapM (hourReturn bars positions warmupStartMs) = .ok early ∧
      (List.range' c (bars.length - c)).mapM (hourReturn bars positions warmupStartMs) = .ok late ∧
      entries = early.reduceOption ++ late.reduceOption := by
  have hsplit : windowBars 1 bars.length = range' 1 (c - 1) ++ range' c (bars.length - c) := by
    unfold windowBars
    have happend := @range'_append_1 1 (c - 1) (bars.length - c)
    rw [show 1 + (c - 1) = c by omega] at happend
    rw [happend]
    congr 1
    omega
  unfold hourReturns at hentries
  rw [hsplit, mapM_append] at hentries
  obtain ⟨all, hall, hentries⟩ := bind_eq_ok.mp hentries
  obtain ⟨early, hearly, hall⟩ := bind_eq_ok.mp hall
  obtain ⟨late, hlate, hall⟩ := bind_eq_ok.mp hall
  cases hall
  cases hentries
  exact ⟨early, late, hearly, hlate, reduceOption_append _ _⟩

omit h hpositions in
theorem late_day {S : ExactSeries} {late : List (Option HourReturn)} (hc : S.countBefore t ≤ c)
    (hlate : (List.range' c (S.bars.length - c)).mapM (hourReturn S.bars positions warmupStartMs) =
      .ok late) (he : e ∈ late.reduceOption) : t < e.day + dayMs := by
  rw [reduceOption_mem_iff] at he
  obtain ⟨i, hi, hreturn⟩ := mem_of_mapM hlate he
  obtain ⟨bar, hbar, hday⟩ := day_of_hourReturn hreturn
  rw [mem_range'_1] at hi
  have htime := le_time_of_countBefore_le hbar (hc.trans hi.1)
  rw [hday, dayMs_eq]
  omega

/-- The hours of a day that has ended are the same. -/
theorem hourOf_congr {entriesA entriesB : List HourReturn}
    (hA : hourReturns A.bars positionsA warmupStartMs = .ok entriesA)
    (hB : hourReturns B.bars positionsB warmupStartMs = .ok entriesB)
    (hday : day + dayMs ≤ t) (hour : ℕ) : hourOf entriesA day hour = hourOf entriesB day hour := by
  set c := max 1 (A.countBefore t) with hc
  have hcount := h.countBefore_eq
  obtain ⟨earlyA, lateA, hearlyA, hlateA, rfl⟩ := hourReturns_split (c := c) (by omega)
    (by have := countBefore_le A t; omega) hA
  obtain ⟨earlyB, lateB, hearlyB, hlateB, rfl⟩ := hourReturns_split (c := c) (by omega)
    (by have := countBefore_le B t; omega) hB
  have hsame : earlyA = earlyB := by
    have hcongr : (range' 1 (c - 1)).mapM (hourReturn A.bars positionsA warmupStartMs) =
        (range' 1 (c - 1)).mapM (hourReturn B.bars positionsB warmupStartMs) := by
      apply Series.mapM_congr
      intro i hi
      rw [mem_range'_1] at hi
      exact hourReturn_congr h hpositions (by omega)
    rw [hearlyA, hearlyB] at hcongr
    exact Except.ok.inj hcongr
  have hnone : ∀ late : List (Option HourReturn),
      (∀ e ∈ late.reduceOption, t < e.day + dayMs) →
      (late.reduceOption.filter fun e => e.day = day ∧ e.hour = (hour : ℤ)) = [] := by
    intro late hlate
    rw [filter_eq_nil_iff]
    intro e he hmatch
    have hafter := hlate e he
    simp only [decide_eq_true_eq] at hmatch
    omega
  unfold hourOf
  rw [filter_append, filter_append, hsame,
    hnone lateA fun e he => late_day (by omega) hlateA he,
    hnone lateB fun e he => late_day (by omega) hlateB he]

theorem daily_congr {dailyA dailyB : Daily}
    (hA : _dailyControlReturns A.bars positionsA warmupStartMs = .ok dailyA)
    (hB : _dailyControlReturns B.bars positionsB warmupStartMs = .ok dailyB)
    (hday : day + dayMs ≤ t) : dailyA day = dailyB day := by
  unfold _dailyControlReturns at hA hB
  obtain ⟨-, hA⟩ := raiseIf_bind_eq_ok.mp hA
  obtain ⟨-, hB⟩ := raiseIf_bind_eq_ok.mp hB
  obtain ⟨entriesA, hentriesA, hA⟩ := bind_eq_ok.mp hA
  obtain ⟨entriesB, hentriesB, hB⟩ := bind_eq_ok.mp hB
  cases hA
  cases hB
  have hours : hourOf entriesA day = hourOf entriesB day :=
    funext fun hour => hourOf_congr h hpositions hentriesA hentriesB hday hour
  unfold dayReturn
  rw [hours]

omit h hpositions in
theorem day_before (hday : day ∈ daysBefore boundary) : day + dayMs ≤ boundary := by
  unfold daysBefore at hday
  obtain ⟨k, hk, rfl⟩ := mem_map.mp hday
  rw [mem_range] at hk
  rw [dayMs_eq]
  omega

theorem scale_congr {dailyA dailyB : Daily}
    (hA : _dailyControlReturns A.bars positionsA warmupStartMs = .ok dailyA)
    (hB : _dailyControlReturns B.bars positionsB warmupStartMs = .ok dailyB)
    (hboundary : boundary ≤ t) :
    _scaleFromReturns dailyA boundary = _scaleFromReturns dailyB boundary := by
  have hdaily : ∀ day ∈ daysBefore boundary, dailyA day = dailyB day := fun day hday =>
    daily_congr h hpositions hA hB ((day_before hday).trans hboundary)
  have hmissing : missingDays dailyA boundary = missingDays dailyB boundary := by
    unfold missingDays
    apply filter_congr
    intro day hday
    rw [hdaily day hday]
  have hvalues : (daysBefore boundary).filterMap dailyA = (daysBefore boundary).filterMap dailyB :=
    filterMap_congr hdaily
  unfold _scaleFromReturns
  rw [hmissing, hvalues]

omit h hpositions in
theorem monthBoundaries_ordered (startMs endMs : ℤ) :
    (_monthBoundaries startMs endMs).Pairwise (· < ·) := by
  unfold _monthBoundaries
  apply Pairwise.filter
  rw [pairwise_map]
  apply pairwise_lt_range.imp
  intro a b hab
  have hmonth := Calendar.monthStart_strictMono hab
  unfold monthMs
  rw [dayMs_eq]
  omega

/-- The scale of a month and the month. -/
def scheduled (daily : Daily) (boundary : ℤ) : Except SearchError (ℤ × Decimal) := do
  return (boundary, ← _scaleFromReturns daily boundary)

omit h hpositions in
theorem scaleSchedule_of_daily
    (hdaily : _dailyControlReturns bars positions warmupStartMs = .ok daily)
    (scoredStartMs endMs : ℤ) :
    _scaleSchedule bars positions warmupStartMs scoredStartMs endMs =
      ((_monthBoundaries scoredStartMs endMs).mapM (scheduled daily) >>= fun scales =>
        .ok fun boundary => scales.lookup boundary) := by
  unfold _scaleSchedule
  rw [hdaily, ok_bind]
  rfl

omit h hpositions in
theorem lookup_scheduled {boundaries : List ℤ} {scales : List (ℤ × Decimal)}
    (hscales : boundaries.mapM (scheduled daily) = .ok scales) (boundary : ℤ) :
    scales.lookup boundary =
      if boundary ∈ boundaries then (_scaleFromReturns daily boundary).toOption else none := by
  induction boundaries generalizing scales with
  | nil =>
    cases hscales
    rfl
  | cons first boundaries ih =>
    rw [mapM_cons] at hscales
    obtain ⟨entry, hentry, hscales⟩ := bind_eq_ok.mp hscales
    obtain ⟨rest, hrest, hscales⟩ := bind_eq_ok.mp hscales
    cases hscales
    obtain ⟨scale, hscale, hentry⟩ := bind_eq_ok.mp hentry
    cases hentry
    rw [lookup_cons]
    by_cases hfirst : boundary = first
    · rw [hfirst, beq_self_eq_true, if_pos mem_cons_self, hscale]
      rfl
    · rw [beq_false_of_ne hfirst]
      simp only [mem_cons, hfirst, false_or]
      exact ih hrest

omit h hpositions in
theorem scheduled_eq_error {e : SearchError} :
    scheduled daily boundary = .error e ↔ _scaleFromReturns daily boundary = .error e := by
  unfold scheduled
  rw [bind_eq_error]
  constructor
  · rintro (herror | ⟨scale, -, hscale⟩)
    · exact herror
    · cases hscale
  · exact .inl

omit h hpositions in
theorem incomplete_eq {reported : ℤ} {missing : List ℤ}
    (hscale : _scaleFromReturns daily boundary = .error (.incompleteWindow reported missing)) :
    reported = boundary := by
  unfold _scaleFromReturns at hscale
  split at hscale
  · cases hscale
    rfl
  · cases hscale

section Schedules
variable {dailyA dailyB : Daily} {scoredStartMs endMs : ℤ}
  (hA : _dailyControlReturns A.bars positionsA warmupStartMs = .ok dailyA)
  (hB : _dailyControlReturns B.bars positionsB warmupStartMs = .ok dailyB)
include hA hB

/-- A month that has begun keeps one schedule from being made when it does so to the other. -/
theorem incomplete_congr {boundary : ℤ} (hboundary : boundary ≤ t)
    {missing : List ℤ}
    (herror : _scaleSchedule A.bars positionsA warmupStartMs scoredStartMs endMs =
      .error (.incompleteWindow boundary missing)) :
    _scaleSchedule B.bars positionsB warmupStartMs scoredStartMs endMs =
      .error (.incompleteWindow boundary missing) := by
  have hordered := monthBoundaries_ordered scoredStartMs endMs
  rw [scaleSchedule_of_daily hA] at herror
  rw [scaleSchedule_of_daily hB]
  generalize _monthBoundaries scoredStartMs endMs = boundaries at hordered herror ⊢
  have hmapM : boundaries.mapM (scheduled dailyA) = .error (.incompleteWindow boundary missing) := by
    rcases bind_eq_error.mp herror with hmapM | ⟨scales, -, hscales⟩
    · exact hmapM
    · cases hscales
  rw [bind_eq_error]
  left
  obtain ⟨initial, first, rest, rfl, ⟨scales, hinitial⟩, hfirst⟩ := mapM_eq_error.mp hmapM
  rw [scheduled_eq_error] at hfirst
  have hreported := incomplete_eq hfirst
  subst hreported
  refine mapM_eq_error.mpr ⟨initial, boundary, rest, rfl, ⟨scales, ?_⟩, ?_⟩
  · rw [← hinitial]
    apply Series.mapM_congr
    intro earlier hearlier
    have hlt := (pairwise_append.mp hordered).2.2 earlier hearlier boundary mem_cons_self
    unfold scheduled
    rw [scale_congr h hpositions hA hB (hlt.le.trans hboundary)]
  · rw [scheduled_eq_error, ← scale_congr h hpositions hA hB hboundary, hfirst]

theorem schedule_congr {scheduleA scheduleB : Schedule}
    (hscheduleA : _scaleSchedule A.bars positionsA warmupStartMs scoredStartMs endMs =
      .ok scheduleA)
    (hscheduleB : _scaleSchedule B.bars positionsB warmupStartMs scoredStartMs endMs =
      .ok scheduleB) {boundary : ℤ} (hboundary : boundary ≤ t) :
    scheduleA boundary = scheduleB boundary := by
  rw [scaleSchedule_of_daily hA] at hscheduleA
  rw [scaleSchedule_of_daily hB] at hscheduleB
  obtain ⟨scalesA, hscalesA, hscheduleA⟩ := bind_eq_ok.mp hscheduleA
  obtain ⟨scalesB, hscalesB, hscheduleB⟩ := bind_eq_ok.mp hscheduleB
  cases hscheduleA
  cases hscheduleB
  dsimp only
  rw [lookup_scheduled hscalesA, lookup_scheduled hscalesB, scale_congr h hpositions hA hB hboundary]

end Schedules

end Past

def Priced (bars : List (Bar String)) : Prop := ∀ bar ∈ bars, 0 < ofText bar.closing

instance (bars : List (Bar String)) : Decidable (Priced bars) :=
  inferInstanceAs (Decidable (∀ bar ∈ bars, 0 < ofText bar.closing))

variable {bars : List (Bar String)}

theorem exists_hourReturn (hpriced : Priced bars) (positions : List Bool)
    (warmupStartMs : ℤ) {i : ℕ} (hi : i < bars.length) :
    ∃ e, hourReturn bars positions warmupStartMs i = .ok e := by
  have hprevious : i - 1 < bars.length := by omega
  have hpositive := hpriced _ (getElem_mem hprevious)
  have hcoefficient : (ofText bars[i - 1].closing).coefficient ≠ 0 := by
    intro hzero
    rw [lt_def, toRat_zero, (toRat_eq_zero_iff _).mpr hzero] at hpositive
    exact lt_irrefl 0 hpositive
  unfold hourReturn
  rw [getElem?_eq_getElem hi, getElem?_eq_getElem hprevious]
  dsimp only
  unfold div?
  rw [if_neg hcoefficient]
  split_ifs <;> exact ⟨_, rfl⟩

theorem exists_daily (hpriced : Priced bars) {positions : List Bool}
    (hlength : positions.length = bars.length) (warmupStartMs : ℤ) : ∃ daily, _dailyControlReturns bars positions warmupStartMs = .ok daily := by
  unfold _dailyControlReturns
  rw [raiseIf_neg (not_not.mpr hlength), ok_bind]
  unfold hourReturns
  cases hentries : (windowBars 1 bars.length).mapM (hourReturn bars positions warmupStartMs) with
  | ok entries => exact ⟨_, rfl⟩
  | error e =>
    obtain ⟨initial, i, rest, hsplit, -, hreturn⟩ := mapM_eq_error.mp hentries
    have hi : i ∈ windowBars 1 bars.length := by
      rw [hsplit]
      exact mem_append_right _ mem_cons_self
    unfold windowBars at hi
    rw [mem_range'_1] at hi
    obtain ⟨e', he'⟩ := exists_hourReturn hpriced positions warmupStartMs (show i < bars.length by omega)
    cases he'.symm.trans hreturn

end Generation2.VolScaling

end TradingLab
