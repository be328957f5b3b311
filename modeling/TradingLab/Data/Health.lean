import TradingLab.Data.Quality
import Mathlib.Data.List.Sort

/-!
# The health of a range

The stored candles of a range are ready for a backtest when every slot that has
closed holds a single closed candle, and nothing else but the candle that is still
forming is open or missing. The order in which the candles are read does not matter.
-/

namespace TradingLab

open Quality List

structure HealthError where
  message : String
deriving Repr, DecidableEq

structure DataHealthReport where
  symbol : Symbol
  interval : Interval
  requestedStartTimeMs : ℤ
  requestedEndTimeMs : ℤ
  storedFirstOpenTimeMs : Option ℤ
  storedLastOpenTimeMs : Option ℤ
  totalRows : ℕ
  uniqueRows : ℕ
  closedRows : ℕ
  openRows : ℕ
  duplicateOpenTimes : List ℤ
  historicalGapOpenTimes : List ℤ
  repairRanges : List (ℤ × ℤ)
  expectedCurrentOpenTimeMs : Option ℤ
  expectedCurrentOpenMissing : Bool
  unexpectedOpenTimes : List ℤ
  malformedRows : ℤ
  conflictingRows : ℤ
  freshnessMs : Option ℤ
  fresh : Bool
  backtestReady : Bool
  failureReasons : List String
deriving Repr, DecidableEq

namespace Health

/-- The first candle of every open time. -/
def uniqueByTime : List Candle → List Candle
  | [] => []
  | c :: cs => c :: (uniqueByTime cs).filter fun later => later.openTimeMs ≠ c.openTimeMs

/-- The open time of the last candle of the range that has to be closed. -/
def latestRequiredClosed (startTimeMs endTimeMs serverTimeMs duration : ℤ) : Option ℤ :=
  let boundary := min endTimeMs (currentOpen serverTimeMs duration)
  if startTimeMs < boundary then some (boundary - duration) else none

/-- Why a range is not ready. -/
def failureReasons (quality : RangeQualityReport) (unexpectedOpen : List ℤ)
    (malformedRows conflictingRows : ℤ) (fresh : Bool) : List String :=
  (if quality.duplicateOpenTimes ≠ [] then ["duplicates"] else []) ++
    (if quality.historicalGapOpenTimes ≠ [] then ["historical_gaps"] else []) ++
    (if unexpectedOpen ≠ [] then ["unexpected_open_candles"] else []) ++
    (if malformedRows ≠ 0 then ["malformed_rows"] else []) ++
    (if conflictingRows ≠ 0 then ["conflicting_rows"] else []) ++
    (if fresh then [] else ["stale_closed_data"])

/-- The report on candles whose times have been analysed. -/
def healthReport (quality : RangeQualityReport) (candles : List Candle)
    (serverTimeMs malformedRows conflictingRows : ℤ) : DataHealthReport :=
  let duration := quality.interval.milliseconds
  let ordered := candles.insertionSort fun a b => a.openTimeMs ≤ b.openTimeMs
  let unique := uniqueByTime ordered
  let closed := unique.filter fun c => c.isClosed
  let opened := unique.filter fun c => !c.isClosed
  let unexpectedOpen := (opened.map fun c => c.openTimeMs).filter fun t =>
    some t ≠ quality.expectedCurrentOpenTimeMs
  let fresh := (latestRequiredClosed quality.startTimeMs quality.endTimeMs serverTimeMs duration).all
    fun t => t ∈ closed.map fun c => c.openTimeMs
  let reasons := failureReasons quality unexpectedOpen malformedRows conflictingRows fresh
  { symbol := quality.symbol
    interval := quality.interval
    requestedStartTimeMs := quality.startTimeMs
    requestedEndTimeMs := quality.endTimeMs
    storedFirstOpenTimeMs := ordered.head?.map fun c => c.openTimeMs
    storedLastOpenTimeMs := ordered.getLast?.map fun c => c.openTimeMs
    totalRows := candles.length
    uniqueRows := unique.length
    closedRows := closed.length
    openRows := opened.length
    duplicateOpenTimes := quality.duplicateOpenTimes
    historicalGapOpenTimes := quality.historicalGapOpenTimes
    repairRanges := quality.repairRanges
    expectedCurrentOpenTimeMs := quality.expectedCurrentOpenTimeMs
    expectedCurrentOpenMissing := quality.expectedCurrentOpenMissing
    unexpectedOpenTimes := unexpectedOpen
    malformedRows
    conflictingRows
    freshnessMs := (@List.argmax _ ℤ Int.instLinearOrder.toPreorder _
        (fun c => c.openTimeMs) closed).map fun c =>
      max 0 (serverTimeMs - (c.closeTimeMs + 1))
    fresh
    backtestReady := reasons = []
    failureReasons := reasons }

def buildHealthReport (pair : Symbol × Interval) (startTimeMs endTimeMs : ℤ)
    (candles : List Candle) (serverTimeMs malformedRows conflictingRows : ℤ) :
    Except HealthError DataHealthReport := do
  raiseIf (History.maxRangeCandles < candles.length ∨ malformedRows < 0 ∨ conflictingRows < 0)
    ⟨"Health-report rows or diagnostics are invalid"⟩
  raiseIf (∃ c ∈ candles, c.pair ≠ pair) ⟨"Candle identity does not match the health report"⟩
  -- the duplicate keys are looked for as well, and not used
  let quality ← (analyzeOpenTimes pair startTimeMs endTimeMs (candles.map fun c => c.openTimeMs)
    serverTimeMs).mapError fun _ => ⟨"Health range failed quality validation"⟩
  return healthReport quality candles serverTimeMs malformedRows conflictingRows

def Contains (duration t now : ℤ) : Prop := t ≤ now ∧ now < t + duration

section Slots
variable {duration now t : ℤ} (hpos : 0 < duration)
include hpos

theorem contains_currentOpen (now : ℤ) : Contains duration (currentOpen now duration) now :=
  ⟨Int.ediv_mul_le now hpos.ne', Int.lt_ediv_add_one_mul_self now hpos |>.trans_eq (by
    unfold currentOpen
    ring)⟩

theorem contains_iff (ht : duration ∣ t) : Contains duration t now ↔ t = currentOpen now duration := by
  have hcurrent := contains_currentOpen hpos now
  have hdvd : duration ∣ currentOpen now duration := dvd_mul_left _ _
  unfold Contains at hcurrent ⊢
  constructor
  · intro h
    by_contra hne
    rcases lt_or_gt_of_ne hne with hlt | hlt
    · have := add_le_of_lt ht hdvd hlt
      omega
    · have := add_le_of_lt hdvd ht hlt
      omega
  · rintro rfl
    exact hcurrent

end Slots

section Unique
variable {cs : List Candle}

theorem uniqueByTime_of_nodup (h : (cs.map fun c => c.openTimeMs).Nodup) : uniqueByTime cs = cs := by
  induction cs with
  | nil => rfl
  | cons c cs ih =>
    rw [map_cons, nodup_cons] at h
    rw [uniqueByTime, ih h.2, filter_eq_self.mpr]
    intro later hlater
    rw [decide_eq_true_eq]
    exact fun heq => h.1 (heq ▸ mem_map_of_mem hlater)

theorem nodup_keys {pair : Symbol × Interval} (h : ∀ c ∈ cs, c.pair = pair) :
    (cs.map Candle.key).Nodup ↔ (cs.map fun c => c.openTimeMs).Nodup := by
  have hkeys : cs.map Candle.key = (cs.map fun c => c.openTimeMs).map fun t => (pair, t) := by
    rw [map_map]
    exact map_congr_left fun c hc => by rw [Candle.key, h c hc]; rfl
  rw [hkeys, nodup_map_iff fun _ _ h => (Prod.mk.inj h).2]

end Unique

section Ready
variable {pair : Symbol × Interval} {s e server malformed conflicting : ℤ} {candles : List Candle}

/-- When a range is ready for a backtest. -/
structure Ready (pair : Symbol × Interval) (s e : ℤ) (candles : List Candle)
    (server malformed conflicting : ℤ) : Prop where
  keys : (candles.map Candle.key).Nodup
  closed : ∀ t ∈ timeRange s e pair.2.milliseconds, t + pair.2.milliseconds ≤ server →
    ∃ c ∈ candles, c.openTimeMs = t ∧ c.isClosed = true
  current : ∀ t ∈ timeRange s e pair.2.milliseconds, ((∀ c ∈ candles, c.openTimeMs ≠ t) ∨
    ∃ c ∈ candles, c.openTimeMs = t ∧ c.isClosed = false) → Contains pair.2.milliseconds t server
  diagnostics : malformed = 0 ∧ conflicting = 0

variable {quality : RangeQualityReport} {d : ℤ} {report : DataHealthReport}
  {candles' : List Candle}

theorem failureReasons_eq_nil {unexpectedOpen : List ℤ}
    {fresh : Bool} : failureReasons quality unexpectedOpen malformed conflicting fresh = [] ↔
      quality.duplicateOpenTimes = [] ∧ quality.historicalGapOpenTimes = [] ∧
        unexpectedOpen = [] ∧ malformed = 0 ∧ conflicting = 0 ∧ fresh = true := by
  unfold failureReasons
  simp only [append_eq_nil_iff, ite_eq_right_iff, ite_eq_left_iff, cons_ne_nil, imp_false,
    not_not, and_assoc, Bool.not_eq_true, Bool.not_eq_false]

theorem expectedCurrentOpen_eq_some {t : ℤ} :
    expectedCurrentOpen s e server d = some t ↔ t = currentOpen server d ∧ s ≤ t ∧ t < e := by
  unfold expectedCurrentOpen
  dsimp only
  split
  · rw [Option.some.injEq]
    constructor
    · rintro rfl
      exact ⟨rfl, by assumption⟩
    · exact fun h => h.1.symm
  · rename_i hne
    constructor
    · intro h
      cases h
    · rintro ⟨rfl, h⟩
      exact (hne h).elim

theorem latestRequiredClosed_all {P : ℤ → Bool} :
    (latestRequiredClosed s e server d).all P = true ↔
      (s < min e (currentOpen server d) → P (min e (currentOpen server d) - d) = true) := by
  unfold latestRequiredClosed
  dsimp only
  split
  · rename_i h
    simp [h]
  · rename_i h
    simp [h]

theorem healthReport_ready
    (h : analyzeOpenTimes pair s e (candles.map fun c => c.openTimeMs) server = .ok quality)
    (hpairs : ∀ c ∈ candles, c.pair = pair) :
    (healthReport quality candles server malformed conflicting).backtestReady = true ↔
      Ready pair s e candles server malformed conflicting := by
  obtain ⟨hwindow, hobservable, hreports⟩ := reports_of_analyze h
  obtain ⟨hinterval, hstart, hend⟩ := hreports.window
  have hpos := pair.2.milliseconds_pos
  have hslot : ∀ t ∈ timeRange s e pair.2.milliseconds, s ≤ t ∧ t < e ∧ pair.2.milliseconds ∣ t := by
    intro t ht
    obtain ⟨hle, hlt, hdvd⟩ := (mem_timeRange hpos).mp ht
    exact ⟨hle, hlt, (dvd_sub_left hwindow.start.2).mp hdvd⟩
  have hgrid : ∀ c ∈ candles, c.openTimeMs ∈ timeRange s e pair.2.milliseconds := by
    intro c hc
    obtain ⟨hle, hlt, hdvd⟩ := hobservable.2 _ (mem_map_of_mem hc)
    exact (mem_timeRange hpos).mpr ⟨hle, hlt, dvd_sub hdvd hwindow.start.2⟩
  have hcontains : ∀ t ∈ timeRange s e pair.2.milliseconds,
      (expectedCurrentOpen s e server pair.2.milliseconds = some t ↔
        Contains pair.2.milliseconds t server) := by
    intro t ht
    obtain ⟨hle, hlt, hdvd⟩ := hslot t ht
    rw [expectedCurrentOpen_eq_some, contains_iff hpos hdvd]
    exact ⟨fun h => h.1, fun h => ⟨h, hle, hlt⟩⟩
  have hgaps : quality.historicalGapOpenTimes = [] ↔ ∀ t ∈ timeRange s e pair.2.milliseconds,
      (∀ c ∈ candles, c.openTimeMs ≠ t) → Contains pair.2.milliseconds t server := by
    rw [hreports.gaps, historicalGaps, missingOpenTimes, filter_filter, filter_eq_nil_iff]
    refine forall₂_congr fun t ht => ?_
    rw [← hcontains t ht]
    simp only [mem_map, not_exists, not_and, ne_eq, Bool.and_eq_true, decide_eq_true_eq,
      eq_comm (a := some t)]
    tauto
  unfold healthReport
  dsimp only
  rw [decide_eq_true_eq, failureReasons_eq_nil, hreports.duplicates, hgaps, hinterval, hstart, hend,
    hreports.current, latestRequiredClosed_all]
  by_cases hnodup : (candles.map fun c => c.openTimeMs).Nodup
  swap
  · exact ⟨fun h => (hnodup h.1).elim, fun h => (hnodup ((nodup_keys hpairs).mp h.keys)).elim⟩
  have hperm := perm_insertionSort (fun a b : Candle => a.openTimeMs ≤ b.openTimeMs) candles
  rw [uniqueByTime_of_nodup ((hperm.map _).nodup_iff.mpr hnodup)]
  have hunexpected : (((candles.insertionSort fun a b => a.openTimeMs ≤ b.openTimeMs).filter
        fun c => !c.isClosed).map fun c => c.openTimeMs).filter (fun t =>
          some t ≠ expectedCurrentOpen s e server pair.2.milliseconds) = [] ↔
      ∀ c ∈ candles, c.isClosed = false → Contains pair.2.milliseconds c.openTimeMs server := by
    rw [filter_eq_nil_iff, forall_mem_map]
    simp only [mem_filter, hperm.mem_iff, and_imp, Bool.not_eq_true', decide_eq_true_eq, ne_eq,
      not_not, eq_comm (b := expectedCurrentOpen s e server pair.2.milliseconds)]
    exact forall₂_congr fun c hc => by rw [hcontains _ (hgrid c hc)]
  have hclosed : ∀ r, decide (r ∈ ((candles.insertionSort fun a b =>
        a.openTimeMs ≤ b.openTimeMs).filter fun c => c.isClosed).map fun c => c.openTimeMs) = true ↔
      ∃ c ∈ candles, c.openTimeMs = r ∧ c.isClosed = true := by
    intro r
    simp only [decide_eq_true_eq, mem_map, mem_filter, hperm.mem_iff, and_assoc,
      and_comm (a := _ = r)]
  rw [hunexpected, hclosed]
  constructor
  · rintro ⟨-, hgap, hopen, hmalformed, hconflicting, -⟩
    refine ⟨(nodup_keys hpairs).mpr hnodup, fun t ht hpast => ?_, fun t ht h => ?_,
      hmalformed, hconflicting⟩
    · have hnot : ¬ Contains pair.2.milliseconds t server := fun h => by
        have := h.2
        omega
      by_contra hnone
      push Not at hnone
      refine hnot (hgap t ht fun c hc heq => ?_)
      have := hopen c hc (by simpa using hnone c hc heq)
      exact hnot (heq ▸ this)
    · rcases h with habsent | ⟨c, hc, rfl, hopened⟩
      · exact hgap t ht habsent
      · exact hopen c hc hopened
  · intro h
    refine ⟨hnodup, fun t ht habsent => h.current t ht (.inl habsent), fun c hc hopened =>
      h.current _ (hgrid c hc) (.inr ⟨c, hc, rfl, hopened⟩), h.diagnostics.1, h.diagnostics.2,
      fun hboundary => ?_⟩
    have hdvd : pair.2.milliseconds ∣ min e (currentOpen server pair.2.milliseconds) := by
      rcases min_choice e (currentOpen server pair.2.milliseconds) with hmin | hmin
      · rw [hmin]
        exact hwindow.stop.2
      · rw [hmin]
        exact dvd_mul_left _ _
    have hle := add_le_of_lt hwindow.start.2 hdvd hboundary
    have hcurrent := (contains_currentOpen hpos server).1
    refine h.closed _ ((mem_timeRange hpos).mpr ⟨by omega, by omega, ?_⟩) (by omega)
    exact dvd_sub (dvd_sub hdvd dvd_rfl) hwindow.start.2

theorem buildHealthReport_eq_ok :
    buildHealthReport pair s e candles server malformed conflicting = .ok report ↔
      ¬ (History.maxRangeCandles < candles.length ∨ malformed < 0 ∨ conflicting < 0) ∧
        ¬ (∃ c ∈ candles, c.pair ≠ pair) ∧ ∃ quality,
          analyzeOpenTimes pair s e (candles.map fun c => c.openTimeMs) server = .ok quality ∧
            healthReport quality candles server malformed conflicting = report := by
  unfold buildHealthReport
  rw [raiseIf_bind_eq_ok, raiseIf_bind_eq_ok, bind_eq_ok]
  simp only [mapError_eq_ok, pure, Except.pure, Except.ok.injEq]

theorem ready_of_build
    (h : buildHealthReport pair s e candles server malformed conflicting = .ok report) :
    report.backtestReady = true ↔ Ready pair s e candles server malformed conflicting := by
  obtain ⟨-, hpairs, quality, hquality, rfl⟩ := buildHealthReport_eq_ok.mp h
  push Not at hpairs
  exact healthReport_ready hquality hpairs

theorem Ready.perm (hperm : candles'.Perm candles)
    (h : Ready pair s e candles server malformed conflicting) :
    Ready pair s e candles' server malformed conflicting where
  keys := (hperm.map _).nodup_iff.mpr h.keys
  closed := by simpa only [hperm.mem_iff] using h.closed
  current := by simpa only [hperm.mem_iff] using h.current
  diagnostics := h.diagnostics

theorem analyze_perm {ts ts' : List ℤ} (hperm : ts'.Perm ts)
    (h : analyzeOpenTimes pair s e ts server = .ok quality) :
    ∃ quality', analyzeOpenTimes pair s e ts' server = .ok quality' := by
  obtain ⟨hwindow, ⟨hlength, hgrid⟩, hranges⟩ := analyzeOpenTimes_returns.mp ⟨quality, h⟩
  refine analyzeOpenTimes_returns.mpr ⟨hwindow, ⟨hperm.length_eq ▸ hlength, fun t ht =>
    hgrid t (hperm.mem_iff.mp ht)⟩, ?_⟩
  rwa [(gaps_congr _ _ _ _ fun _ => hperm.mem_iff).2]

/-- The errors depend on the checks only. -/
theorem build_perm (hperm : candles'.Perm candles) :
    (buildHealthReport pair s e candles' server malformed conflicting).map
        (fun report => report.backtestReady) =
      (buildHealthReport pair s e candles server malformed conflicting).map
        fun report => report.backtestReady := by
  have hpairs : (∃ c ∈ candles', c.pair ≠ pair) ↔ ∃ c ∈ candles, c.pair ≠ pair := by
    simp only [hperm.mem_iff]
  have hready : ∀ r r', buildHealthReport pair s e candles server malformed conflicting = .ok r →
      buildHealthReport pair s e candles' server malformed conflicting = .ok r' →
        r'.backtestReady = r.backtestReady := by
    intro r r' h h'
    rw [Bool.eq_iff_iff, ready_of_build h, ready_of_build h']
    exact ⟨Ready.perm hperm.symm, Ready.perm hperm⟩
  have htimes := hperm.map fun c => c.openTimeMs
  unfold buildHealthReport at hready ⊢
  simp only [hperm.length_eq, hpairs] at hready ⊢
  generalize raiseIf (History.maxRangeCandles < candles.length ∨ malformed < 0 ∨ conflicting < 0) _ =
    rows at hready ⊢
  generalize raiseIf (∃ c ∈ candles, c.pair ≠ pair) _ = identity at hready ⊢
  cases rows with
  | error e => rfl
  | ok u =>
    cases identity with
    | error e => rfl
    | ok v =>
      cases h : analyzeOpenTimes pair s e (candles.map fun c => c.openTimeMs) server with
      | ok quality =>
        obtain ⟨quality', h'⟩ := analyze_perm htimes h
        rw [h, h'] at hready
        rw [h']
        exact congrArg Except.ok (hready _ _ rfl rfl)
      | error err =>
        cases h' : analyzeOpenTimes pair s e (candles'.map fun c => c.openTimeMs) server with
        | ok quality' =>
          obtain ⟨quality, h''⟩ := analyze_perm htimes.symm h'
          rw [h] at h''
          cases h''
        | error err' => rfl

end Ready

/-- **Readiness.** A report says that a range is ready exactly when it is, in whatever order the
rows are. -/
theorem buildHealthReport_ready (pair : Symbol × Interval) (s e : ℤ) (candles : List Candle)
    (server malformed conflicting : ℤ) :
    (∀ report, buildHealthReport pair s e candles server malformed conflicting = .ok report →
      (report.backtestReady = true ↔ Ready pair s e candles server malformed conflicting)) ∧
    ∀ candles' : List Candle, candles'.Perm candles →
      (buildHealthReport pair s e candles' server malformed conflicting).map
          (fun report => report.backtestReady) =
        (buildHealthReport pair s e candles server malformed conflicting).map
          fun report => report.backtestReady :=
  ⟨fun _ => ready_of_build, fun _ => build_perm⟩

def sampleCandle : Candle := ⟨_, Candle.postInit_flat .btcusdt (by decide : (0 : ℤ) ≤ 0)
  (by decide : (0 : ℤ) % Interval.h1.milliseconds = 0)⟩

/-- The slot of one closed hour, and the one that is forming. -/
theorem buildHealthReport_ready_sample : ∃ report,
    buildHealthReport (.btcusdt, .h1) 0 7200000 [sampleCandle] 3600000 0 0 = .ok report ∧
      report.backtestReady = true ∧
        Ready (.btcusdt, .h1) 0 7200000 [sampleCandle] 3600000 0 0 ∧
        (buildHealthReport (.btcusdt, .h1) 0 7200000 [sampleCandle].reverse 3600000 0 0).map
          (fun report => report.backtestReady) = .ok true := by
  have hreturns : (buildHealthReport (.btcusdt, .h1) 0 7200000 [sampleCandle] 3600000 0 0).map
      (fun report => report.backtestReady) = .ok true := by decide +kernel
  cases h : buildHealthReport (.btcusdt, .h1) 0 7200000 [sampleCandle] 3600000 0 0 with
  | error err =>
    rw [h] at hreturns
    cases hreturns
  | ok report =>
    obtain ⟨hready, hperm⟩ :=
      buildHealthReport_ready (.btcusdt, .h1) 0 7200000 [sampleCandle] 3600000 0 0
    rw [h] at hreturns
    have hyes : report.backtestReady = true := Except.ok.inj hreturns
    refine ⟨report, rfl, hyes, (hready report h).mp hyes, ?_⟩
    rw [hperm _ (List.reverse_perm _), h]
    exact hreturns

end Health

end TradingLab
