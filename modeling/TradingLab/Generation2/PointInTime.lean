import TradingLab.Generation2.HourlySeries
import TradingLab.Generation2.ScheduleCausal

/-!
# The scaled cell sees no future

A fill is made at the open of the bar after the one that decides it. Two runs that have
the bars before a time and the open at it in common decide alike on every fill up to that
open, and what they decide later is filled later.
-/

namespace TradingLab

open Decimal Search List

namespace Generation2.VolScaling

/-- An open that a cell fills at, with the accounts before and after it. -/
structure Fill where
  timeMs : ℤ
  reference : String
  base : _Account
  stress : _Account
  baseAfter : _Account
  stressAfter : _Account
deriving DecidableEq

def CellState.fills (s : CellState) : ℕ := s.entryFills + s.exitFills + s.rebalanceCount

section Fills
variable (bars : List (Bar String))

/-- What a step fills at the next open. -/
def filled (i : ℕ) (s s' : CellState) : List Fill :=
  if s'.fills = s.fills then []
  else (nextBar bars i).toList.map fun next =>
    ⟨next.openTimeMs, next.opening, s.base, s.stress, s'.base, s'.stress⟩

variable (shortValues longValues : Indicator) (p : Policy) (scaling : Scaling) (stop : ℕ)

/-- The fills of a loop, up to the step that raises. -/
def fillsOf : CellState → List ℕ → List Fill
  | _, [] => []
  | s, i :: is =>
      match step bars shortValues longValues p scaling stop s i with
      | .error _ => []
      | .ok s' => filled bars i s s' ++ fillsOf s' is

end Fills

/-- The fills of a cell. -/
def cellFills {P : Type} (signal : BarSeries P) (exact : ExactSeries)
    (shortValues longValues : Indicator) (startMs endMs : ℤ) (p : Policy) (scaling : Scaling) :
    List Fill :=
  match openCell signal exact startMs endMs p scaling with
  | .error _ => []
  | .ok opened =>
      fillsOf exact.bars shortValues longValues p scaling opened.stop opened.state
        (windowBars opened.start opened.stop)

def fillsBy (t : ℤ) (fills : List Fill) : List Fill := fills.filter fun f => f.timeMs ≤ t

section Late
variable {S : ExactSeries} {t : ℤ} {shortValues longValues : Indicator} {p : Policy}
  {scaling : Scaling} {stop i : ℕ}

theorem nextBar_eq_some {P : Type} {bars : List (Bar P)} {next : Bar P} (h : nextBar bars i = some next) :
    bars[i + 1]? = some next := by
  unfold nextBar at h
  split at h
  · split at h
    · cases h
      assumption
    · cases h
  · cases h

theorem filled_late (hi : S.countBefore (t + 1) ≤ i + 1) (s s' : CellState) :
    fillsBy t (filled S.bars i s s') = [] := by
  unfold filled
  split
  · rfl
  · unfold fillsBy
    rw [filter_eq_nil_iff]
    intro fill hfill
    obtain ⟨next, hnext, rfl⟩ := mem_map.mp hfill
    have hbar := nextBar_eq_some (Option.mem_toList.mp hnext)
    have hlate := le_time_of_countBefore_le hbar hi
    simpa [Int.add_one_le_iff] using hlate

theorem fillsOf_late {s : CellState} {is : List ℕ} (h : ∀ i ∈ is, S.countBefore (t + 1) ≤ i + 1) :
    fillsBy t (fillsOf S.bars shortValues longValues p scaling stop s is) = [] := by
  induction is generalizing s with
  | nil => rfl
  | cons i is ih =>
    unfold fillsOf
    cases step S.bars shortValues longValues p scaling stop s i with
    | error e => rfl
    | ok s' =>
      have hhead := filled_late (h i mem_cons_self) s s'
      have htail := @ih s' fun j hj => h j (mem_cons_of_mem i hj)
      unfold fillsBy at hhead htail ⊢
      dsimp only
      rw [filter_append, hhead, htail]
      rfl

end Late

/-- What two runs have in common that can be known at the open of a time. -/
structure SameView (t : ℤ) (A B : ExactSeries) (shortA longA shortB longB : Indicator)
    (scheduleA scheduleB : Schedule) : Prop extends
    SamePast t A B shortA longA shortB longB where
  schedule : ∀ boundary ≤ t, scheduleA boundary = scheduleB boundary

section Early
variable {t : ℤ} {A B : ExactSeries} {shortA longA shortB longB : Indicator}
  {scheduleA scheduleB : Schedule} {p : Policy} {i : ℕ}
  (h : SameView t A B shortA longA shortB longB scheduleA scheduleB)
include h

theorem SameView.symm : SameView t B A shortB longB shortA longA scheduleB scheduleA where
  toSamePast := h.toSamePast.symm
  schedule boundary hboundary := (h.schedule boundary hboundary).symm

omit h in
theorem lt_countBefore_of_next (hi : i + 1 < A.countBefore (t + 1)) : i < A.countBefore t := by
  obtain ⟨next, hnext, htime⟩ := lt_countBefore_succ_iff.mp hi
  have hlength := (List.getElem?_eq_some_iff.mp hnext).1
  have hbar := List.getElem?_eq_getElem (show i < A.bars.length by omega)
  exact lt_countBefore_iff.mpr ⟨_, hbar, (time_lt_of_lt (by omega) hbar hnext).trans_le htime⟩

theorem SameView.nextBar_eq (hi : i + 1 < A.countBefore (t + 1)) :
    (nextBar A.bars i).map (fun b => (b.openTimeMs, b.opening)) =
      (nextBar B.bars i).map fun b => (b.openTimeMs, b.opening) := by
  obtain ⟨next, other, hnext, hother, htime, hopening⟩ := h.series.opened hi
  obtain ⟨bar, hbar, -⟩ := lt_countBefore_iff.mp (lt_countBefore_of_next hi)
  have hbar' := hbar
  rw [h.series.getElem?_eq (lt_countBefore_of_next hi)] at hbar'
  unfold nextBar
  rw [hbar, hbar', hnext, hother]
  dsimp only
  rw [htime]
  split
  · simp [htime, hopening]
  · rfl

theorem SameView.settle_eq (hi : i + 1 < A.countBefore (t + 1)) (endMs : ℤ) (s : CellState)
    (v : Values) (boundary : Option Decimal) :
    settle A.bars p (A.countBefore endMs) s i v boundary =
      settle B.bars p (B.countBefore endMs) s i v boundary := by
  have hstop : A.countBefore endMs ≤ i + 1 ↔ B.countBefore endMs ≤ i + 1 := by
    have hcongr := h.series.opened_congr hi endMs
    omega
  have hnext := h.nextBar_eq hi
  unfold settle
  simp only [hstop]
  cases hA : nextBar A.bars i with
  | none =>
    rw [hA, Option.map_none, eq_comm, Option.map_eq_none_iff] at hnext
    rw [hnext]
  | some next =>
    rw [hA, Option.map_some, eq_comm, Option.map_eq_some_iff] at hnext
    obtain ⟨other, hB, hother⟩ := hnext
    rw [hB]
    dsimp only
    rw [(Prod.mk.inj hother).2]

theorem SameView.step_eq (hi : i + 1 < A.countBefore (t + 1)) (endMs : ℤ) (s : CellState) :
    step A.bars shortA longA p (some scheduleA) (A.countBefore endMs) s i =
      step B.bars shortB longB p (some scheduleB) (B.countBefore endMs) s i := by
  have hbefore := lt_countBefore_of_next hi
  obtain ⟨bar, hbar, htime⟩ := lt_countBefore_iff.mp hbefore
  have hbar' := hbar
  rw [h.series.getElem?_eq hbefore] at hbar'
  have hboundary : boundaryScale (some scheduleA) bar.openTimeMs =
      boundaryScale (some scheduleB) bar.openTimeMs := by
    unfold boundaryScale
    dsimp only
    rw [h.schedule _ htime.le]
  unfold step
  rw [barAt_eq_ok.mpr hbar, barAt_eq_ok.mpr hbar', ok_bind, ok_bind, h.valuesAt_eq hbefore, hboundary]
  simp only [h.settle_eq hi endMs]

theorem SameView.filled_eq (hi : i + 1 < A.countBefore (t + 1)) (s s' : CellState) :
    filled A.bars i s s' = filled B.bars i s s' := by
  have hnext := h.nextBar_eq hi
  unfold filled
  split
  · rfl
  · cases hA : nextBar A.bars i with
    | none =>
      rw [hA, Option.map_none, eq_comm, Option.map_eq_none_iff] at hnext
      rw [hnext]
    | some next =>
      rw [hA, Option.map_some, eq_comm, Option.map_eq_some_iff] at hnext
      obtain ⟨other, hB, hother⟩ := hnext
      rw [hB]
      simp only [Option.toList_some, map_cons, map_nil]
      rw [(Prod.mk.inj hother).1, (Prod.mk.inj hother).2]

/-- Loops that begin with the same bars fill alike up to the time. -/
theorem SameView.fillsOf_eq (endMs : ℤ) {early lateA lateB : List ℕ}
    (hearly : ∀ i ∈ early, i + 1 < A.countBefore (t + 1))
    (hlateA : ∀ i ∈ lateA, A.countBefore (t + 1) ≤ i + 1)
    (hlateB : ∀ i ∈ lateB, B.countBefore (t + 1) ≤ i + 1) (s : CellState) :
    fillsBy t (fillsOf A.bars shortA longA p (some scheduleA) (A.countBefore endMs) s
        (early ++ lateA)) =
      fillsBy t (fillsOf B.bars shortB longB p (some scheduleB) (B.countBefore endMs) s
        (early ++ lateB)) := by
  induction early generalizing s with
  | nil => rw [nil_append, nil_append, fillsOf_late hlateA, fillsOf_late hlateB]
  | cons i early ih =>
    have hi := hearly i mem_cons_self
    rw [cons_append, cons_append]
    unfold fillsOf
    rw [h.step_eq hi]
    cases step B.bars shortB longB p (some scheduleB) (B.countBefore endMs) s i with
    | error e => rfl
    | ok s' =>
      have htail := ih (fun j hj => hearly j (mem_cons_of_mem i hj)) s'
      unfold fillsBy at htail ⊢
      dsimp only
      rw [filter_append, filter_append, htail, h.filled_eq hi]

omit h in
theorem windowBars_split (start stop c : ℕ) :
    windowBars start stop = windowBars start (min stop c) ++ windowBars (max start c) stop := by
  unfold windowBars
  rcases le_total c start with hc | hc
  · rw [max_eq_left hc, show min stop c - start = 0 by omega]
    rfl
  · rcases le_total stop c with hstop | hstop
    · rw [min_eq_left hstop, show stop - max start c = 0 by omega, range'_zero, append_nil]
    · have happend := @range'_append_1 start (c - start) (stop - c)
      rw [show start + (c - start) = c by omega, show c - start + (stop - c) = stop - start by omega]
        at happend
      rw [min_eq_right hstop, max_eq_right hc, happend]

omit h in
theorem mem_windowBars {start stop i : ℕ} : i ∈ windowBars start stop ↔ start ≤ i ∧ i < stop := by
  unfold windowBars
  rw [mem_range'_1]
  omega

omit h in
theorem monthStartMs_le {ms : ℤ} (hms : 0 ≤ ms) : _monthStartMs ms ≤ ms := by
  have hle := Calendar.monthStart_monthIndex_le (ms / dayMs).toNat
  unfold _monthStartMs monthMs monthOf
  rw [dayMs_eq] at *
  omega

variable {P : Type} {signalA signalB : BarSeries P}

/-- A cell that begins before the last open up to the time begins alike in both runs. -/
theorem SameView.openCell_eq {startMs endMs : ℤ} {opened : Opened} (htimes : signalB.times = B.times)
    (hstart : A.countBefore startMs + 1 < A.countBefore (t + 1))
    (hopened : openCell signalA A startMs endMs p (some scheduleA) = .ok opened) :
    openCell signalB B startMs endMs p (some scheduleB) =
      .ok ⟨opened.start, B.countBefore endMs, opened.state⟩ := by
  obtain ⟨-, hA, hstop, hwindow, scale, hstate, first, hfirst, hscale⟩ := openCell_eq_ok hopened
  have hA : opened.start = A.countBefore startMs := hA
  have hsame : opened.start = B.countBefore startMs :=
    hA.trans (h.series.countBefore_congr (by omega))
  have hbefore : opened.start < A.countBefore t := lt_countBefore_of_next (hA ▸ hstart)
  have hwindowB : B.countBefore startMs < B.countBefore endMs := by
    rw [hstop] at hwindow
    rw [← hsame]
    exact (h.series.opened_congr (hbefore.trans_le (countBefore_le_succ A t)) endMs).mp hwindow
  obtain ⟨bar, hbar, htime⟩ := lt_countBefore_iff.mp hbefore
  cases hfirst.symm.trans hbar
  have hmonth : _monthStartMs first.openTimeMs ≤ t :=
    (monthStartMs_le (A.sinceEpoch _ (mem_map_of_mem (mem_of_getElem? hbar)))).trans htime.le
  rw [h.series.getElem?_eq hbefore] at hbar
  rw [h.schedule _ hmonth] at hscale
  have hstarts : StartsWith B (B.countBefore startMs) scale (some scheduleB) := by
    rw [← hsame]
    exact ⟨first, hbar, hscale⟩
  have hopen := openCell_of_startsWith p htimes hwindowB hstarts
  rw [hopen, hstate, hsame]
  rfl

omit h in
theorem cellFills_late {signal : BarSeries P} {S : ExactSeries} {shortValues longValues : Indicator}
    {startMs endMs : ℤ} {scaling : Scaling}
    (hstart : S.countBefore (t + 1) ≤ S.countBefore startMs + 1) :
    fillsBy t (cellFills signal S shortValues longValues startMs endMs p scaling) = [] := by
  unfold cellFills
  cases hopened : openCell signal S startMs endMs p scaling with
  | error e => rfl
  | ok opened =>
    obtain ⟨-, hfirst, -⟩ := openCell_eq_ok hopened
    apply fillsOf_late
    intro i hi
    have hge := (mem_windowBars.mp hi).1
    have hfirst : opened.start = S.countBefore startMs := hfirst
    omega

/-- The fills of two cells up to the time are the same. -/
theorem SameView.cellFills_eq (htimesA : signalA.times = A.times) (htimesB : signalB.times = B.times)
    (startMs endMs : ℤ) (p : Policy) :
    fillsBy t (cellFills signalA A shortA longA startMs endMs p (some scheduleA)) =
      fillsBy t (cellFills signalB B shortB longB startMs endMs p (some scheduleB)) := by
  have hcount := h.series.countOpened_eq
  by_cases hstart : A.countBefore startMs + 1 < A.countBefore (t + 1)
  · have hsame := h.series.countBefore_congr (show A.countBefore startMs < _ by omega)
    unfold cellFills
    cases hA : openCell signalA A startMs endMs p (some scheduleA) with
    | error e =>
      cases hB : openCell signalB B startMs endMs p (some scheduleB) with
      | error e => rfl
      | ok opened =>
        cases hA.symm.trans (h.symm.openCell_eq htimesA (by omega) hB)
    | ok opened =>
      rw [h.openCell_eq htimesB hstart hA]
      obtain ⟨-, -, hstop, -⟩ := openCell_eq_ok hA
      have hearly : min (A.countBefore endMs) (A.countBefore (t + 1) - 1) =
          min (B.countBefore endMs) (A.countBefore (t + 1) - 1) := by
        apply eq_of_forall_lt_iff
        intro i
        rw [lt_min_iff, lt_min_iff]
        apply and_congr_left
        intro hi
        exact h.series.opened_congr (by omega) endMs
      dsimp only
      rw [hstop, windowBars_split opened.start _ (A.countBefore (t + 1) - 1),
        windowBars_split opened.start (B.countBefore endMs) (A.countBefore (t + 1) - 1), ← hearly]
      apply h.fillsOf_eq endMs
      · intro i hi
        have hlt := (mem_windowBars.mp hi).2
        omega
      · intro i hi
        have hge := (mem_windowBars.mp hi).1
        omega
      · intro i hi
        have hge := (mem_windowBars.mp hi).1
        omega
  · have hstartB : B.countBefore (t + 1) ≤ B.countBefore startMs + 1 := by
      by_contra hlt
      have hsame := h.symm.series.countBefore_congr (show B.countBefore startMs < _ by omega)
      omega
    rw [cellFills_late (by omega), cellFills_late hstartB]

end Early

/-- What a run is given. The simulator checks the times, and a candle its prices. -/
structure Given (P : Type) where
  signal : BarSeries P
  exact : ExactSeries
  shortValues : Indicator
  longValues : Indicator
  times : signal.times = exact.times
  priced : Priced exact.bars

namespace Given

section Run
variable {P : Type} (g : Given P) (warmupStartMs : ℤ)

def positions : Except SearchError (List Bool) :=
  _controlPositions g.signal.bars g.shortValues g.longValues warmupStartMs

/-- The scale of a month. -/
def scale (boundary : ℤ) : Except SearchError Decimal := do
  let positions ← g.positions warmupStartMs
  let daily ← _dailyControlReturns g.exact.bars positions warmupStartMs
  _scaleFromReturns daily boundary

/-- The scales of all the months of an analysis. -/
def schedule (scoredStartMs endMs : ℤ) : Except SearchError Schedule := do
  let positions ← g.positions warmupStartMs
  _scaleSchedule g.exact.bars positions warmupStartMs scoredStartMs endMs

/-- The fills of the scaled cell. -/
def fills (startMs endMs : ℤ) (p : Policy) (schedule : Schedule) : List Fill :=
  cellFills g.signal g.exact g.shortValues g.longValues startMs endMs p (some schedule)

theorem countBefore_signal (t : ℤ) : g.signal.countBefore t = g.exact.countBefore t := by
  unfold BarSeries.countBefore
  rw [g.times]

theorem length_signal : g.signal.bars.length = g.exact.bars.length := by
  have hlength := congrArg List.length g.times
  rwa [BarSeries.times, BarSeries.times, timesOf, timesOf, length_map, length_map] at hlength

variable {g warmupStartMs}

theorem exists_daily {positions : List Bool} (hpositions : g.positions warmupStartMs = .ok positions) :
    ∃ daily, _dailyControlReturns g.exact.bars positions warmupStartMs = .ok daily ∧
      ∀ boundary, g.scale warmupStartMs boundary = _scaleFromReturns daily boundary := by
  have hlength := (length_controlPositions hpositions).trans g.length_signal
  obtain ⟨daily, hdaily⟩ := VolScaling.exists_daily g.priced hlength warmupStartMs
  refine ⟨daily, hdaily, fun boundary => ?_⟩
  unfold scale
  rw [hpositions, ok_bind, hdaily, ok_bind]

end Run

/-- The two runs are given the same before a time. -/
structure Alike {P : Type} (t : ℤ) (g g' : Given P) : Prop where
  signal : Agree t g.signal g'.signal
  exact : Agree t g.exact g'.exact
  short : ∀ i < g.exact.countBefore t, g.shortValues i = g'.shortValues i
  long : ∀ i < g.exact.countBefore t, g.longValues i = g'.longValues i

section Agreement
variable {P : Type} {t warmupStartMs : ℤ} {g g' : Given P} (h : Given.Alike t g g')
include h

theorem Alike.signals :
    SamePast t g.signal g'.signal g.shortValues g.longValues g'.shortValues g'.longValues where
  series := h.signal
  short i hi := h.short i (g.countBefore_signal t ▸ hi)
  long i hi := h.long i (g.countBefore_signal t ▸ hi)

theorem Alike.exacts :
    SamePast t g.exact g'.exact g.shortValues g.longValues g'.shortValues g'.longValues :=
  ⟨h.exact, h.short, h.long⟩

theorem Alike.positions_eq {positions positions' : List Bool}
    (hpositions : g.positions warmupStartMs = .ok positions)
    (hpositions' : g'.positions warmupStartMs = .ok positions') :
    ∀ i < g.exact.countBefore t, positions.getD i false = positions'.getD i false := by
  intro i hi
  rw [← g.countBefore_signal t] at hi
  exact h.signals.position_eq hpositions hpositions' hi

end Agreement

end Given

section Doubling
variable {n m k : ℕ} {price : ℕ → String}

theorem priced_doubling (n : ℕ) : Priced (hourlyBars doubling n) := by
  intro bar hbar
  unfold hourlyBars at hbar
  obtain ⟨i, -, rfl⟩ := mem_map.mp hbar
  unfold doubling
  dsimp only
  split
  · decide
  · decide

def doublingRun (n : ℕ) : Given String :=
  ⟨hourly doubling n, hourly doubling n, dipped, levelOne, rfl, priced_doubling n⟩

theorem opensAt_hourly {x : String} :
    (hourly price n).OpensAt (k * hourMs) x ↔ k < n ∧ price k = x := by
  unfold BarSeries.OpensAt hourly hourlyBars
  simp only [mem_map, mem_range]
  constructor
  · rintro ⟨bar, ⟨i, hi, rfl⟩, htime, hopening⟩
    dsimp only at htime
    rw [hourMs_eq] at htime
    have hik : i = k := by omega
    exact ⟨hik ▸ hi, hik ▸ hopening⟩
  · rintro ⟨hk, hprice⟩
    exact ⟨_, ⟨k, hk, rfl⟩, rfl, hprice⟩

theorem agree_hourly (hn : k < n) (hm : k < m) :
    Agree (k * hourMs) (hourly price n) (hourly price m) where
  before := by
    rw [barsBefore_eq_take, barsBefore_eq_take, BarSeries.countBefore, BarSeries.countBefore,
      bisectLeft_hourly hn.le, bisectLeft_hourly hm.le]
    unfold hourly hourlyBars
    rw [← map_take, ← map_take, take_range, take_range, min_eq_left hn.le,
      min_eq_left hm.le]
  opening x := by
    rw [opensAt_hourly, opensAt_hourly]
    simp [hn, hm]

theorem alike_doubling (hn : k < n) (hm : k < m) :
    Given.Alike (k * hourMs) (doublingRun n) (doublingRun m) where
  signal := agree_hourly hn hm
  exact := agree_hourly hn hm
  short _ _ := rfl
  long _ _ := rfl

theorem positions_doublingRun (hn : 0 < n) : (doublingRun n).positions 0 =
    .ok (controlStates (hourlyBars doubling n) dipped levelOne 0 false (List.range' 0 n)) :=
  controlPositions_hourly dipped levelOne hn

theorem schedule_doublingRun (hn : 5836 ≤ n) :
    (doublingRun n).schedule 0 (212 * dayMs) (5835 * hourMs) = .ok summerSchedule := by
  unfold Given.schedule
  rw [positions_doublingRun (by omega), ok_bind]
  exact scaleSchedule_doubling hn

end Doubling

/-- The scales of the months up to a time and the fills up to its open are those of every
run that is given the same before it. A schedule is made for all months or for none. -/
theorem vol_scaling_point_in_time {P : Type} {t warmupStartMs : ℤ} {g g' : Given P}
    {positions positions' : List Bool} (h : Given.Alike t g g')
    (hpositions : g.positions warmupStartMs = .ok positions)
    (hpositions' : g'.positions warmupStartMs = .ok positions') (scoredStartMs endMs : ℤ) :
    (∀ boundary ≤ t, g.scale warmupStartMs boundary = g'.scale warmupStartMs boundary) ∧
    (∀ boundary ≤ t, ∀ missing,
      g.schedule warmupStartMs scoredStartMs endMs = .error (.incompleteWindow boundary missing) ↔
        g'.schedule warmupStartMs scoredStartMs endMs =
          .error (.incompleteWindow boundary missing)) ∧
    ∀ schedule schedule', g.schedule warmupStartMs scoredStartMs endMs = .ok schedule →
      g'.schedule warmupStartMs scoredStartMs endMs = .ok schedule' →
      (∀ boundary ≤ t, schedule boundary = schedule' boundary) ∧
        ∀ cellStartMs cellEndMs p, fillsBy t (g.fills cellStartMs cellEndMs p schedule) =
          fillsBy t (g'.fills cellStartMs cellEndMs p schedule') := by
  have hsame := h.positions_eq hpositions hpositions'
  have hsame' : ∀ i < g'.exact.countBefore t, positions'.getD i false = positions.getD i false := by
    rw [← h.exact.countBefore_eq]
    exact fun i hi => (hsame i hi).symm
  obtain ⟨daily, hdaily, hscale⟩ := Given.exists_daily hpositions
  obtain ⟨daily', hdaily', hscale'⟩ := Given.exists_daily hpositions'
  have hschedule : g.schedule warmupStartMs scoredStartMs endMs =
      _scaleSchedule g.exact.bars positions warmupStartMs scoredStartMs endMs := by
    unfold Given.schedule
    rw [hpositions, ok_bind]
  have hschedule' : g'.schedule warmupStartMs scoredStartMs endMs =
      _scaleSchedule g'.exact.bars positions' warmupStartMs scoredStartMs endMs := by
    unfold Given.schedule
    rw [hpositions', ok_bind]
  rw [hschedule, hschedule']
  refine ⟨?_, ?_, ?_⟩
  · intro boundary hboundary
    rw [hscale, hscale', scale_congr h.exact hsame hdaily hdaily' hboundary]
  · intro boundary hboundary missing
    exact ⟨incomplete_congr h.exact hsame hdaily hdaily' hboundary,
      incomplete_congr h.exact.symm hsame' hdaily' hdaily hboundary⟩
  · intro schedule schedule' hmade hmade'
    have hscales : ∀ boundary ≤ t, schedule boundary = schedule' boundary := fun boundary hboundary =>
      schedule_congr h.exact hsame hdaily hdaily' hmade hmade' hboundary
    refine ⟨hscales, fun cellStartMs cellEndMs p => ?_⟩
    have hview : SameView t g.exact g'.exact g.shortValues g.longValues g'.shortValues g'.longValues
        schedule schedule' := ⟨h.exacts, hscales⟩
    exact hview.cellFills_eq g.times g'.times cellStartMs cellEndMs p

/-- Two runs that end after another hour of September. -/
theorem vol_scaling_point_in_time_summer :
    (doublingRun 5836).schedule 0 (212 * dayMs) (5835 * hourMs) = .ok summerSchedule ∧
      (doublingRun 5840).schedule 0 (212 * dayMs) (5835 * hourMs) = .ok summerSchedule ∧
      fillsBy ((5831 : ℕ) * hourMs)
          ((doublingRun 5836).fills (5829 * hourMs) (5835 * hourMs) samplePolicy summerSchedule) =
        fillsBy ((5831 : ℕ) * hourMs)
          ((doublingRun 5840).fills (5829 * hourMs) (5835 * hourMs) samplePolicy summerSchedule) := by
  have halike : Given.Alike ((5831 : ℕ) * hourMs) (doublingRun 5836) (doublingRun 5840) :=
    alike_doubling (by omega) (by omega)
  have hpositions := positions_doublingRun (show 0 < 5836 by omega)
  have hpositions' := positions_doublingRun (show 0 < 5840 by omega)
  have hmade := schedule_doublingRun (show 5836 ≤ 5836 by omega)
  have hmade' := schedule_doublingRun (show 5836 ≤ 5840 by omega)
  obtain ⟨-, -, hsame⟩ := vol_scaling_point_in_time halike hpositions hpositions' (212 * dayMs)
    (5835 * hourMs)
  exact ⟨hmade, hmade', (hsame summerSchedule summerSchedule hmade hmade').2 _ _ _⟩

/-- A gap in September leaves a run without the scale of August, which another run given
the same before August has. -/
theorem later_gap_leaves_no_schedule : ∃ (t : ℤ) (g g' : Given String) (scoredStartMs endMs : ℤ),
    Given.Alike t g g' ∧ (∃ positions, g'.positions 0 = .ok positions) ∧
      (∃ schedule, g.schedule 0 scoredStartMs endMs = .ok schedule ∧ schedule t = some 1) ∧
      ∃ boundary missing, t < boundary ∧
        g'.schedule 0 scoredStartMs endMs = .error (.incompleteWindow boundary missing) := by
  have hboundaries : _monthBoundaries (212 * dayMs) (5835 * hourMs) =
      [((212 : ℕ) : ℤ) * dayMs, ((243 : ℕ) : ℤ) * dayMs] := by
    decide +kernel
  have hlast : ((242 : ℕ) : ℤ) * dayMs ∈ daysBefore (((243 : ℕ) : ℤ) * dayMs) := by
    decide +kernel
  have hlength : (controlStates (hourlyBars doubling 5500) dipped levelOne 0 false
      (List.range' 0 5500)).length = 5500 := by
    rw [length_controlStates, List.length_range']
  obtain ⟨daily, hdaily, hcomplete⟩ := dailyControlReturns_hourly doubling_ne_zero hlength
  have hmissing : missingDays daily (((243 : ℕ) : ℤ) * dayMs) ≠ [] := by
    intro hnil
    unfold missingDays at hnil
    rw [List.filter_eq_nil_iff] at hnil
    have hnone := daily_hourly_none doubling_ne_zero hdaily (show 5500 < 24 * 242 + 24 by omega)
    exact hnil _ hlast (by rw [hnone]; rfl)
  have haugust := scaleFromReturns_hourly hcomplete (show windowDays < 212 by decide)
    (show 24 * 212 ≤ 5500 by omega)
  have hseptember : _scaleFromReturns daily (((243 : ℕ) : ℤ) * dayMs) =
      .error (.incompleteWindow (((243 : ℕ) : ℤ) * dayMs) (missingDays daily _)) := if_pos hmissing
  have hpositions := positions_doublingRun (show 0 < 5500 by omega)
  have hmade := schedule_doublingRun (show 5836 ≤ 5836 by omega)
  refine ⟨(5088 : ℕ) * hourMs, doublingRun 5836, doublingRun 5500, 212 * dayMs, 5835 * hourMs,
    alike_doubling (by omega) (by omega), ⟨_, hpositions⟩, ⟨summerSchedule, hmade, ?_⟩,
    ((243 : ℕ) : ℤ) * dayMs, missingDays daily (((243 : ℕ) : ℤ) * dayMs), ?_, ?_⟩
  · unfold summerSchedule
    rw [if_pos (by rw [hourMs_eq, dayMs_eq]; omega)]
  · rw [hourMs_eq, dayMs_eq]
    omega
  · unfold Given.schedule
    rw [hpositions, ok_bind]
    unfold doublingRun hourly
    dsimp only
    rw [scaleSchedule_of_daily hdaily, hboundaries, List.mapM_cons, List.mapM_cons]
    unfold scheduled
    rw [haugust, hseptember]
    rfl

end Generation2.VolScaling

end TradingLab
