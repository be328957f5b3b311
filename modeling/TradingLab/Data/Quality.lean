import TradingLab.Data.Stream

/-!
# The quality of a range

The open times that were observed in a range are compared with the grid of its
interval. What is missing is a historical gap, or the candle that is still forming;
neighbouring gaps are joined to ranges that can be repaired by one download each.
-/

namespace TradingLab

open List

/-- `range(start, stop, step)` for a positive step. -/
def timeRange (start stop step : ℤ) : List ℤ :=
  (List.range ((stop - start + step - 1) / step).toNat).map fun i : ℕ => start + i * step

theorem timeRange_of_le {start stop step : ℤ} (hstep : 0 < step) (h : stop ≤ start) :
    timeRange start stop step = [] := by
  have hcount : (stop - start + step - 1) / step < 1 :=
    Int.ediv_lt_of_lt_mul hstep (by omega)
  unfold timeRange
  rw [Int.toNat_of_nonpos (by omega)]
  rfl

theorem timeRange_of_lt {start stop step : ℤ} (hstep : 0 < step) (h : start < stop) :
    timeRange start stop step = start :: timeRange (start + step) stop step := by
  have hnext : stop - (start + step) + step - 1 = stop - start - 1 := by ring
  have hcount : (stop - start + step - 1) / step = (stop - start - 1) / step + 1 := by
    rw [show stop - start + step - 1 = stop - start - 1 + step by ring,
      Int.add_ediv_of_dvd_right (dvd_refl step), Int.ediv_self hstep.ne']
  have hnonneg : 0 ≤ (stop - start - 1) / step := Int.ediv_nonneg (by omega) hstep.le
  unfold timeRange
  rw [hnext, hcount, Int.toNat_add hnonneg (by decide), Int.toNat_one, range_succ_eq_map,
    map_cons, map_map]
  congr 1
  · simp
  · apply map_congr_left
    intro i _
    simp only [Function.comp_apply, Nat.succ_eq_add_one]
    push_cast
    ring

theorem mem_timeRange {start stop step : ℤ} (hstep : 0 < step) {x : ℤ} :
    x ∈ timeRange start stop step ↔ start ≤ x ∧ x < stop ∧ step ∣ x - start := by
  unfold timeRange
  simp only [mem_map, mem_range]
  constructor
  · rintro ⟨i, hi, rfl⟩
    have hi' : (i : ℤ) < (stop - start + step - 1) / step := by omega
    have hmul : ((i : ℤ) + 1) * step ≤ stop - start + step - 1 :=
      (Int.le_ediv_iff_mul_le hstep).mp hi'
    have hpos : 0 ≤ (i : ℤ) * step := mul_nonneg (Int.natCast_nonneg i) hstep.le
    rw [add_mul, one_mul] at hmul
    exact ⟨by omega, by omega, ⟨i, by ring⟩⟩
  · rintro ⟨hle, hlt, k, hk⟩
    have hk0 : 0 ≤ k := by
      by_contra hneg
      have : step * k < 0 := mul_neg_of_pos_of_neg hstep (not_le.mp hneg)
      omega
    refine ⟨k.toNat, ?_, ?_⟩
    · have hstop : k < (stop - start + step - 1) / step := by
        apply (Int.le_ediv_iff_mul_le hstep).mpr
        rw [add_mul, one_mul, mul_comm]
        omega
      omega
    · rw [Int.toNat_of_nonneg hk0, mul_comm]
      omega

theorem length_timeRange (start stop step : ℤ) :
    (timeRange start stop step).length = ((stop - start + step - 1) / step).toNat := by
  unfold timeRange
  rw [length_map, length_range]

theorem pairwise_timeRange {start stop step : ℤ} (hstep : 0 < step) :
    (timeRange start stop step).Pairwise (· < ·) := by
  unfold timeRange
  rw [pairwise_map]
  apply pairwise_lt_range.imp
  intro i j hij
  have : (i : ℤ) * step < j * step := by
    apply (mul_lt_mul_iff_left₀ hstep).mpr
    exact_mod_cast hij
  omega

def maxRepairRanges : ℕ := 1000

structure QualityError where
  message : String
deriving Repr, DecidableEq

structure RangeQualityReport where
  symbol : Symbol
  interval : Interval
  startTimeMs : ℤ
  endTimeMs : ℤ
  expectedRows : ℤ
  observedRows : ℕ
  observedUniqueRows : ℕ
  duplicateOpenTimes : List ℤ
  historicalGapOpenTimes : List ℤ
  expectedCurrentOpenTimeMs : Option ℤ
  expectedCurrentOpenMissing : Bool
  repairRanges : List (ℤ × ℤ)
deriving Repr, DecidableEq

namespace Quality

/-- The ranges of the missing times, of which the one from `start` on reaches `previous`. -/
def _rangesFrom (duration start previous : ℤ) : List ℤ → List (ℤ × ℤ)
  | [] => [(start, previous + duration)]
  | openTime :: rest =>
      if openTime ≠ previous + duration then
        (start, previous + duration) :: _rangesFrom duration openTime openTime rest
      else _rangesFrom duration start openTime rest

def _repairRanges (missingOpenTimes : List ℤ) (duration : ℤ) :
    Except QualityError (List (ℤ × ℤ)) :=
  match missingOpenTimes with
  | [] => .ok []
  | first :: rest => do
      let ranges := _rangesFrom duration first first rest
      raiseIf (maxRepairRanges < ranges.length) ⟨"Missing candles require too many repair ranges"⟩
      return ranges

/-- What has been seen: every time once, and every time again that was repeated. -/
structure Observed where
  seen : List ℤ
  duplicates : List ℤ

def Observed.add (o : Observed) (openTime : ℤ) : Observed where
  seen := if openTime ∈ o.seen then o.seen else o.seen ++ [openTime]
  duplicates := if openTime ∈ o.seen ∧ openTime ∉ o.duplicates then o.duplicates ++ [openTime]
    else o.duplicates

def Observed.next (startTimeMs endTimeMs duration : ℤ) (o : Observed) (openTime : ℤ) :
    Except QualityError Observed := do
  raiseIf (openTime < startTimeMs ∨ endTimeMs ≤ openTime ∨ openTime % duration ≠ 0)
    ⟨"Observed candle timestamp is outside the exact UTC grid"⟩
  return o.add openTime

def currentOpen (serverTimeMs duration : ℤ) : ℤ := serverTimeMs / duration * duration

/-- The candle of the range that may still be forming. -/
def expectedCurrentOpen (startTimeMs endTimeMs serverTimeMs duration : ℤ) : Option ℤ :=
  let current := currentOpen serverTimeMs duration
  if startTimeMs ≤ current ∧ current < endTimeMs then some current else none

def missingOpenTimes (startTimeMs endTimeMs duration : ℤ) (seen : List ℤ) : List ℤ :=
  (timeRange startTimeMs endTimeMs duration).filter fun t => t ∉ seen

/-- The open times that are missing for good. -/
def historicalGaps (startTimeMs endTimeMs serverTimeMs duration : ℤ) (seen : List ℤ) : List ℤ :=
  (missingOpenTimes startTimeMs endTimeMs duration seen).filter fun t =>
    some t ≠ expectedCurrentOpen startTimeMs endTimeMs serverTimeMs duration

def analyzeOpenTimes (pair : Symbol × Interval) (startTimeMs endTimeMs : ℤ) (openTimes : List ℤ)
    (serverTimeMs : ℤ) : Except QualityError RangeQualityReport := do
  let duration := pair.2.milliseconds
  raiseIf (startTimeMs < 0 ∨ serverTimeMs < 0 ∨ endTimeMs ≤ startTimeMs ∨
      startTimeMs % duration ≠ 0 ∨ endTimeMs % duration ≠ 0)
    ⟨"Quality range or server time is invalid"⟩
  let expectedRows := (endTimeMs - startTimeMs) / duration
  raiseIf (History.maxRangeCandles < expectedRows) ⟨"Quality range exceeds the candle limit"⟩
  raiseIf (currentOpen serverTimeMs duration + duration < endTimeMs)
    ⟨"Quality range extends beyond the current interval"⟩
  raiseIf (History.maxRangeCandles < openTimes.length)
    ⟨"Open-time collection is invalid or too large"⟩
  let observed ← openTimes.foldlM (Observed.next startTimeMs endTimeMs duration) ⟨[], []⟩
  let missing := missingOpenTimes startTimeMs endTimeMs duration observed.seen
  let expectedCurrent := expectedCurrentOpen startTimeMs endTimeMs serverTimeMs duration
  let gaps := historicalGaps startTimeMs endTimeMs serverTimeMs duration observed.seen
  let repairRanges ← _repairRanges gaps duration
  return {
    symbol := pair.1
    interval := pair.2
    startTimeMs
    endTimeMs
    expectedRows
    observedRows := openTimes.length
    observedUniqueRows := observed.seen.length
    duplicateOpenTimes := observed.duplicates
    historicalGapOpenTimes := gaps
    expectedCurrentOpenTimeMs := expectedCurrent
    expectedCurrentOpenMissing := expectedCurrent.any fun t => t ∈ missing
    repairRanges }

section Ranges
variable {duration : ℤ} {ts : List ℤ}

/-- The ranges begin with the one that is given, and none touches the next one. -/
theorem pairwise_rangesFrom (hpos : 0 < duration) {start previous : ℤ} (hstart : start ≤ previous)
    (h : (previous :: ts).Pairwise fun s t => s + duration ≤ t) (hfrom : duration ∣ start)
    (hgrid : ∀ t ∈ previous :: ts, duration ∣ t) :
    (_rangesFrom duration start previous ts).Pairwise (fun p q => p.2 < q.1) ∧
      ∀ p ∈ _rangesFrom duration start previous ts,
        start ≤ p.1 ∧ p.1 < p.2 ∧ duration ∣ p.1 ∧ duration ∣ p.2 := by
  have hto := dvd_add_self_right.mpr (hgrid previous mem_cons_self)
  induction ts generalizing start previous with
  | nil =>
    refine ⟨pairwise_singleton _ _, fun p hp => ?_⟩
    rw [mem_singleton.mp hp]
    exact ⟨le_rfl, by dsimp only; omega, hfrom, hto⟩
  | cons t ts ih =>
    obtain ⟨hfirst, hrest⟩ := pairwise_cons.mp h
    have hnext := hfirst t mem_cons_self
    have ht := hgrid t (mem_cons_of_mem _ mem_cons_self)
    have hgrid' := fun u hu => hgrid u (mem_cons_of_mem _ hu)
    unfold _rangesFrom
    split
    · rename_i hgap
      obtain ⟨hpairwise, hbounds⟩ := ih le_rfl hrest ht hgrid' (dvd_add_self_right.mpr ht)
      refine ⟨pairwise_cons.mpr ⟨fun q hq => ?_, hpairwise⟩, fun p hp => ?_⟩
      · have := (hbounds q hq).1
        dsimp only
        omega
      · rcases mem_cons.mp hp with rfl | hp
        · exact ⟨le_rfl, by dsimp only; omega, hfrom, hto⟩
        · obtain ⟨hle, hp⟩ := hbounds p hp
          exact ⟨by omega, hp⟩
    · exact ih (by omega) hrest hfrom hgrid' (dvd_add_self_right.mpr ht)

/-- Of the times on the grid, the ranges cover those from the start of the first range to the
last one before the list, and the list. -/
theorem mem_rangesFrom (hpos : 0 < duration) {start previous x : ℤ} (hstart : start ≤ previous)
    (h : (previous :: ts).Pairwise fun s t => s + duration ≤ t)
    (hgrid : ∀ t ∈ previous :: ts, x < t + duration ↔ x ≤ t) :
    (∃ p ∈ _rangesFrom duration start previous ts, p.1 ≤ x ∧ x < p.2) ↔
      start ≤ x ∧ x ≤ previous ∨ x ∈ ts := by
  induction ts generalizing start previous with
  | nil => simp [_rangesFrom, hgrid previous mem_cons_self]
  | cons t ts ih =>
    obtain ⟨hfirst, hrest⟩ := pairwise_cons.mp h
    have hnext := hfirst t mem_cons_self
    have hprevious := hgrid previous mem_cons_self
    have hstep := fun {s} (hs : s ≤ t) =>
      ih hs hrest fun u hu => hgrid u (mem_cons_of_mem _ hu)
    unfold _rangesFrom
    rw [mem_cons]
    split
    · rw [exists_mem_cons_iff, hstep le_rfl, hprevious]
      constructor
      · rintro (hx | hx | hx)
        · exact .inl hx
        · exact .inr (.inl (by omega))
        · exact .inr (.inr hx)
      · rintro (hx | rfl | hx)
        · exact .inl hx
        · exact .inr (.inl ⟨le_rfl, le_rfl⟩)
        · exact .inr (.inr hx)
    · rw [hstep (by omega)]
      constructor
      · rintro (hx | hx)
        · by_cases hle : x ≤ previous
          · exact .inl ⟨hx.1, hle⟩
          · exact .inr (.inl (by omega))
        · exact .inr (.inr hx)
      · rintro (hx | rfl | hx)
        · exact .inl (by omega)
        · exact .inl (by omega)
        · exact .inr hx

/-- Ranges in order that do not touch, and between them cover the given slots of the grid. -/
structure Covers (duration : ℤ) (ranges : List (ℤ × ℤ)) (gaps : List ℤ) : Prop where
  apart : ranges.Pairwise fun p q => p.2 < q.1
  bounds : ∀ p ∈ ranges, p.1 < p.2 ∧ duration ∣ p.1 ∧ duration ∣ p.2
  slots : ∀ t, duration ∣ t → ((∃ p ∈ ranges, p.1 ≤ t ∧ t < p.2) ↔ t ∈ gaps)

theorem add_le_of_lt {s t : ℤ} (hs : duration ∣ s) (ht : duration ∣ t)
    (h : s < t) : s + duration ≤ t := by
  have := Int.le_of_dvd (by omega : 0 < t - s) (dvd_sub ht hs)
  omega

theorem covers_of_repairRanges (hpos : 0 < duration) {ranges : List (ℤ × ℤ)}
    (h : _repairRanges ts duration = .ok ranges) (hgrid : ∀ t ∈ ts, duration ∣ t)
    (hordered : ts.Pairwise (· < ·)) : Covers duration ranges ts := by
  cases ts with
  | nil =>
    cases h
    exact ⟨.nil, (fun _ hp => nomatch hp), fun t _ => by simp⟩
  | cons first rest =>
    unfold _repairRanges at h
    dsimp only at h
    rw [raiseIf_bind_eq_ok] at h
    obtain ⟨-, hranges⟩ := h
    cases hranges
    have hspaced : (first :: rest).Pairwise fun s t => s + duration ≤ t :=
      hordered.imp_of_mem fun hs ht hlt => add_le_of_lt (hgrid _ hs) (hgrid _ ht) hlt
    have hfirst := hgrid first mem_cons_self
    obtain ⟨hapart, hbounds⟩ := pairwise_rangesFrom hpos le_rfl hspaced hfirst hgrid
    refine ⟨hapart, fun p hp => (hbounds p hp).2, fun t ht => ?_⟩
    rw [mem_rangesFrom hpos le_rfl hspaced, mem_cons]
    · exact or_congr_left ⟨fun h => le_antisymm h.2 h.1, fun h => ⟨h.ge, h.le⟩⟩
    · intro u hu
      constructor
      · intro hlt
        by_contra hle
        have := add_le_of_lt (hgrid u hu) ht (not_le.mp hle)
        omega
      · omega

end Ranges

section Observed
variable {s e d : ℤ} {o o' : Observed} {ts : List ℤ}

theorem foldlM_next : ts.foldlM (Observed.next s e d) o = .ok o' ↔
    (∀ t ∈ ts, s ≤ t ∧ t < e ∧ t % d = 0) ∧ ts.foldl Observed.add o = o' := by
  induction ts generalizing o with
  | nil => simp [pure, Except.pure]
  | cons t ts ih =>
    rw [foldlM_cons, Observed.next, bind_assoc, raiseIf_bind_eq_ok, pure_bind, ih,
      forall_mem_cons, not_or, not_or, not_lt, not_le, not_not, foldl_cons]
    simp only [and_assoc]

theorem mem_seen {x : ℤ} : x ∈ (ts.foldl Observed.add o).seen ↔ x ∈ o.seen ∨ x ∈ ts := by
  induction ts generalizing o with
  | nil => simp
  | cons t ts ih =>
    rw [foldl_cons, ih, mem_cons]
    unfold Observed.add
    dsimp only
    split
    · grind
    · grind

theorem nodup_seen (h : o.seen.Nodup) : (ts.foldl Observed.add o).seen.Nodup := by
  induction ts generalizing o with
  | nil => exact h
  | cons t ts ih =>
    apply ih
    unfold Observed.add
    dsimp only
    split
    · exact h
    · rename_i ht
      exact h.append (nodup_singleton t) (by simpa using ht)

/-- Nothing is repeated exactly when the times differ from one another and from what was seen. -/
theorem duplicates_eq_nil : (ts.foldl Observed.add o).duplicates = [] ↔
    o.duplicates = [] ∧ ts.Nodup ∧ ∀ t ∈ ts, t ∉ o.seen := by
  induction ts generalizing o with
  | nil => simp
  | cons t ts ih =>
    rw [foldl_cons, ih, nodup_cons, forall_mem_cons]
    unfold Observed.add
    dsimp only
    by_cases ht : t ∈ o.seen
    · by_cases hd : t ∈ o.duplicates
      · have : o.duplicates ≠ [] := ne_nil_of_mem hd
        simp [ht, hd, this]
      · simp [ht, hd]
    · simp only [ht, false_and, if_false, not_false_eq_true, true_and, mem_append,
        mem_singleton, not_or]
      constructor
      · rintro ⟨hnil, hnodup, hseen⟩
        exact ⟨hnil, ⟨fun hmem => (hseen t hmem).2 rfl, hnodup⟩, fun u hu => (hseen u hu).1⟩
      · rintro ⟨hnil, ⟨hmem, hnodup⟩, hseen⟩
        refine ⟨hnil, hnodup, fun u hu => ⟨hseen u hu, ?_⟩⟩
        rintro rfl
        exact hmem hu

end Observed

structure Window (interval : Interval) (s e server : ℤ) : Prop where
  start : 0 ≤ s ∧ interval.milliseconds ∣ s
  stop : s < e ∧ interval.milliseconds ∣ e
  rows : (e - s) / interval.milliseconds ≤ History.maxRangeCandles
  server : 0 ≤ server ∧ e ≤ currentOpen server interval.milliseconds + interval.milliseconds

/-- The times that can be observed in a window. -/
def Observable (interval : Interval) (s e : ℤ) (openTimes : List ℤ) : Prop :=
  openTimes.length ≤ History.maxRangeCandles ∧
    ∀ t ∈ openTimes, s ≤ t ∧ t < e ∧ interval.milliseconds ∣ t

section Report
variable {pair : Symbol × Interval} {s e server : ℤ} {openTimes : List ℤ}
    {report : RangeQualityReport}

structure Reports (pair : Symbol × Interval) (s e server : ℤ) (openTimes : List ℤ)
    (report : RangeQualityReport) : Prop where
  window : report.interval = pair.2 ∧ report.startTimeMs = s ∧ report.endTimeMs = e
  unique : report.observedUniqueRows = openTimes.toFinset.card
  duplicates : report.duplicateOpenTimes = [] ↔ openTimes.Nodup
  gaps : report.historicalGapOpenTimes = historicalGaps s e server pair.2.milliseconds openTimes
  current : report.expectedCurrentOpenTimeMs = expectedCurrentOpen s e server pair.2.milliseconds
  missing : report.expectedCurrentOpenMissing = report.expectedCurrentOpenTimeMs.any fun t =>
    t ∈ missingOpenTimes s e pair.2.milliseconds openTimes
  ranges : _repairRanges report.historicalGapOpenTimes pair.2.milliseconds = .ok report.repairRanges

theorem gaps_congr {xs ys : List ℤ} (s e server d : ℤ) (h : ∀ t, t ∈ xs ↔ t ∈ ys) :
    missingOpenTimes s e d xs = missingOpenTimes s e d ys ∧
      historicalGaps s e server d xs = historicalGaps s e server d ys := by
  have hmissing : missingOpenTimes s e d xs = missingOpenTimes s e d ys :=
    filter_congr fun t _ => by simp only [h]
  unfold historicalGaps
  rw [hmissing]
  exact ⟨rfl, rfl⟩

theorem reports_of_analyze (h : analyzeOpenTimes pair s e openTimes server = .ok report) :
    Window pair.2 s e server ∧ Observable pair.2 s e openTimes ∧
      Reports pair s e server openTimes report := by
  unfold analyzeOpenTimes at h
  simp only [raiseIf_bind_eq_ok, not_or, not_lt, not_le, not_not] at h
  simp only [bind_eq_ok, foldlM_next] at h
  obtain ⟨⟨hs, hserver, hse, hds, hde⟩, hrows, hcurrent, hlength, observed, ⟨hgrid, hseen⟩, ranges,
    hranges, hreport⟩ := h
  subst hseen
  cases hreport
  have hmem : ∀ t, t ∈ (openTimes.foldl Observed.add ⟨[], []⟩).seen ↔ t ∈ openTimes := by
    simp [mem_seen]
  obtain ⟨hmissing, hgaps⟩ := gaps_congr s e server pair.2.milliseconds hmem
  refine ⟨⟨⟨hs, Int.dvd_of_emod_eq_zero hds⟩, ⟨hse, Int.dvd_of_emod_eq_zero hde⟩, hrows, hserver,
    hcurrent⟩, ⟨hlength, fun t ht => ?_⟩, ⟨⟨rfl, rfl, rfl⟩, ?_, ?_, hgaps, rfl, ?_,
    hranges⟩⟩
  · obtain ⟨h1, h2, h3⟩ := hgrid t ht
    exact ⟨h1, h2, Int.dvd_of_emod_eq_zero h3⟩
  · rw [← toFinset_card_of_nodup (nodup_seen nodup_nil)]
    dsimp only
    refine congrArg Finset.card (Finset.ext fun t => ?_)
    rw [mem_toFinset, mem_toFinset, hmem]
  · simp [duplicates_eq_nil]
  · dsimp only
    rw [hmissing]

theorem analyze_of_window (hwindow : Window pair.2 s e server)
    (hobservable : Observable pair.2 s e openTimes) {ranges : List (ℤ × ℤ)}
    (hranges : _repairRanges (historicalGaps s e server pair.2.milliseconds openTimes)
      pair.2.milliseconds = .ok ranges) :
    ∃ report, analyzeOpenTimes pair s e openTimes server = .ok report := by
  have hmem : ∀ t, t ∈ (openTimes.foldl Observed.add ⟨[], []⟩).seen ↔ t ∈ openTimes := by
    simp [mem_seen]
  have hgaps := (gaps_congr s e server pair.2.milliseconds hmem).2
  obtain ⟨⟨hs, hds⟩, ⟨hse, hde⟩, hrows, hserver, hcurrent⟩ := hwindow
  unfold analyzeOpenTimes
  simp only [raiseIf_bind_eq_ok, not_or, not_lt, not_le, not_not]
  simp only [bind_eq_ok, foldlM_next]
  refine ⟨_, ⟨hs, hserver, hse, Int.emod_eq_zero_of_dvd hds, Int.emod_eq_zero_of_dvd hde⟩, hrows,
    hcurrent, hobservable.1, _, ⟨fun t ht => ?_, rfl⟩, ranges, by rw [hgaps]; exact hranges, rfl⟩
  obtain ⟨h1, h2, h3⟩ := hobservable.2 t ht
  exact ⟨h1, h2, Int.emod_eq_zero_of_dvd h3⟩

/-- The current candle, when it is missing. -/
def missingCurrent (report : RangeQualityReport) : List ℤ :=
  if report.expectedCurrentOpenMissing then report.expectedCurrentOpenTimeMs.toList else []

/-- The observed slots, the gaps and the missing current slot make up the grid, and the ranges
cover the gaps. -/
structure Partitions (pair : Symbol × Interval) (s e : ℤ) (openTimes : List ℤ)
    (report : RangeQualityReport) : Prop where
  grid : ∀ t, t ∈ timeRange s e pair.2.milliseconds ↔
    t ∈ openTimes ∨ t ∈ report.historicalGapOpenTimes ∨ t ∈ missingCurrent report
  disjoint : openTimes.Disjoint report.historicalGapOpenTimes ∧
    openTimes.Disjoint (missingCurrent report) ∧
    report.historicalGapOpenTimes.Disjoint (missingCurrent report)
  unique : report.observedUniqueRows = openTimes.toFinset.card
  ordered : report.historicalGapOpenTimes.Pairwise (· < ·)
  ranges : Covers pair.2.milliseconds report.repairRanges report.historicalGapOpenTimes

theorem mem_missingCurrent (h : Reports pair s e server openTimes report) {t : ℤ} :
    t ∈ missingCurrent report ↔ t ∈ missingOpenTimes s e pair.2.milliseconds openTimes ∧
      expectedCurrentOpen s e server pair.2.milliseconds = some t := by
  unfold missingCurrent
  rw [h.missing, h.current]
  cases hcurrent : expectedCurrentOpen s e server pair.2.milliseconds with
  | none => simp
  | some u =>
    rw [Option.any_some, Option.toList_some, Option.some.injEq]
    by_cases hu : u ∈ missingOpenTimes s e pair.2.milliseconds openTimes
    · rw [if_pos (decide_eq_true hu), mem_singleton]
      exact ⟨fun h => ⟨h ▸ hu, h.symm⟩, fun h => h.2.symm⟩
    · rw [if_neg (by simpa using hu)]
      exact ⟨fun h => (not_mem_nil h).elim, fun h => (hu (h.2 ▸ h.1)).elim⟩

theorem partitions_of_analyze
    (h : analyzeOpenTimes pair s e openTimes server = .ok report) :
    Partitions pair s e openTimes report := by
  obtain ⟨hwindow, hobservable, hreports⟩ := reports_of_analyze h
  have hpos := pair.2.milliseconds_pos
  have hgap : ∀ t, t ∈ report.historicalGapOpenTimes ↔
      t ∈ missingOpenTimes s e pair.2.milliseconds openTimes ∧
        expectedCurrentOpen s e server pair.2.milliseconds ≠ some t := by
    intro t
    rw [hreports.gaps, historicalGaps, mem_filter, decide_eq_true_eq, ne_comm]
  have hmissing : ∀ t, t ∈ missingOpenTimes s e pair.2.milliseconds openTimes ↔
      t ∈ timeRange s e pair.2.milliseconds ∧ t ∉ openTimes := by
    intro t
    rw [missingOpenTimes, mem_filter, decide_eq_true_eq]
  have hgrid : ∀ t ∈ openTimes, t ∈ timeRange s e pair.2.milliseconds := by
    intro t ht
    obtain ⟨hle, hlt, hdvd⟩ := hobservable.2 t ht
    exact (mem_timeRange hpos).mpr ⟨hle, hlt, dvd_sub hdvd hwindow.start.2⟩
  have hordered : report.historicalGapOpenTimes.Pairwise (· < ·) := by
    rw [hreports.gaps]
    exact ((pairwise_timeRange hpos).filter _).filter _
  refine ⟨fun t => ?_, ⟨?_, ?_, ?_⟩, hreports.unique, hordered,
    covers_of_repairRanges hpos hreports.ranges (fun t ht => ?_) hordered⟩
  · rw [hgap, mem_missingCurrent hreports, hmissing]
    have := hgrid t
    tauto
  · intro t ht hg
    exact ((hmissing t).mp ((hgap t).mp hg).1).2 ht
  · intro t ht hc
    exact ((hmissing t).mp ((mem_missingCurrent hreports).mp hc).1).2 ht
  · intro t hg hc
    exact ((hgap t).mp hg).2 ((mem_missingCurrent hreports).mp hc).2
  · have hslot := (mem_timeRange hpos).mp ((hmissing t).mp ((hgap t).mp ht).1).1
    exact (dvd_sub_left hwindow.start.2).mp hslot.2.2

theorem analyzeOpenTimes_returns : (∃ report, analyzeOpenTimes pair s e openTimes server =
      .ok report) ↔ Window pair.2 s e server ∧ Observable pair.2 s e openTimes ∧
    ∃ ranges, _repairRanges (historicalGaps s e server pair.2.milliseconds openTimes)
      pair.2.milliseconds = .ok ranges := by
  constructor
  · rintro ⟨report, hreport⟩
    obtain ⟨hwindow, hobservable, hreports⟩ := reports_of_analyze hreport
    exact ⟨hwindow, hobservable, _, hreports.gaps ▸ hreports.ranges⟩
  · rintro ⟨hwindow, hobservable, ranges, hranges⟩
    exact analyze_of_window hwindow hobservable hranges

/-- **Gap analysis.** A window is analysed unless its gaps need too many ranges, and every report
divides the grid of its window. -/
theorem analyzeOpenTimes_partitions (pair : Symbol × Interval) (s e : ℤ) (openTimes : List ℤ)
    (server : ℤ) :
    ((∃ report, analyzeOpenTimes pair s e openTimes server = .ok report) ↔
      Window pair.2 s e server ∧ Observable pair.2 s e openTimes ∧ ∃ ranges, _repairRanges
        (historicalGaps s e server pair.2.milliseconds openTimes) pair.2.milliseconds =
          .ok ranges) ∧
      ∀ report, analyzeOpenTimes pair s e openTimes server = .ok report →
        Partitions pair s e openTimes report :=
  ⟨analyzeOpenTimes_returns, fun _ => partitions_of_analyze⟩

/-- Three slots of an hour, of which the first was observed twice and the last one is open. -/
theorem analyzeOpenTimes_partitions_sample : ∃ report,
    analyzeOpenTimes (.btcusdt, .h1) 0 10800000 [0, 0] 7200000 = .ok report ∧
      Partitions (.btcusdt, .h1) 0 10800000 [0, 0] report := by
  have hreturns : (analyzeOpenTimes (.btcusdt, .h1) 0 10800000 [0, 0] 7200000).isOk = true := by
    decide
  obtain ⟨report, hreport⟩ := exists_of_isOk hreturns
  exact ⟨report, hreport, (analyzeOpenTimes_partitions _ _ _ _ _).2 report hreport⟩

end Report

end Quality

end TradingLab
