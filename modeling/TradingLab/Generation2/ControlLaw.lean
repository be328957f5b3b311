import TradingLab.Generation2.Control
import TradingLab.Generation2.Unscaled

/-!
# What the control conditions reproduce

The exact cell is the reference. The stop overlay without a threshold is the exact
cell; the volatility cell without scaling is the exact cell where no signal meets a
gap; the float cell takes the same decisions as long as both go on.
-/

namespace TradingLab

open Decimal Search

namespace Generation2

open VolScaling (cellBars cellStop)

section Float
set_option linter.unusedSectionVars false

variable {F : Type} [Add F] [Sub F] [Mul F] [Div F] [Neg F] [Zero F] [One F] [LT F]
  [DecidableLT F] [DecidableEq F]

/-- What the exact and the float cell have done so far. -/
structure SameDecisions (s : Survivor.CellState) (t : TrendMa.CellState F) : Prop where
  position : t.position = s.position
  entries : t.entryFills = s.entryFills
  exits : t.exitFills = s.exitFills
  missing : t.missingFill = s.missing

variable {bars : List (Bar String)} {others : List (Bar F)} {shortValues longValues : Indicator}
  {p : Policy} {c : TrendMa.Costs F} {stop : ℕ} {s s' : Survivor.CellState}
  {t t' : TrendMa.CellState F}

theorem sameDecisions_marked (h : SameDecisions s t) {bar : Bar String} (close : F)
    (hs : s.marked p bar = .ok s') : SameDecisions s' (t.marked c close) := by
  unfold Survivor.CellState.marked at hs
  obtain ⟨drawdown, -, hs⟩ := bind_eq_ok.mp hs
  cases hs
  exact ⟨h.position, h.entries, h.exits, h.missing⟩

theorem sameDecisions_entered (h : SameDecisions s t) {reference : Decimal} {reference' : F}
    (hs : s.entered p reference = .ok s') (ht : t.entered c reference' = .ok t') :
    SameDecisions s' t' := by
  unfold Survivor.CellState.entered at hs
  obtain ⟨base, -, hs⟩ := bind_eq_ok.mp hs
  obtain ⟨stress, -, hs⟩ := bind_eq_ok.mp hs
  cases hs
  unfold TrendMa.CellState.entered at ht
  obtain ⟨-, ht⟩ := raiseIf_bind_eq_ok.mp ht
  cases ht
  exact ⟨rfl, congrArg (· + 1) h.entries, h.exits, h.missing⟩

theorem sameDecisions_exited (h : SameDecisions s t) {reference : Decimal} (reference' : F)
    (hs : s.exited p reference = .ok s') : SameDecisions s' (t.exited c reference') := by
  unfold Survivor.CellState.exited at hs
  obtain ⟨base, -, hs⟩ := bind_eq_ok.mp hs
  obtain ⟨stress, -, hs⟩ := bind_eq_ok.mp hs
  cases hs
  exact ⟨rfl, h.entries, congrArg (· + 1) h.exits, h.missing⟩

theorem sameDecisions_fill (htimes : timesOf others = timesOf bars) (h : SameDecisions s t) {i : ℕ}
    {v : Values} (hs : Survivor.fill bars p stop s i v = .ok s')
    (ht : TrendMa.fill others c stop t i v = .ok t') : SameDecisions s' t' := by
  have hsome := fillBar_isSome_congr htimes stop i
  unfold Survivor.fill at hs
  unfold TrendMa.fill at ht
  rw [h.position] at ht
  split at hs
  · rw [if_pos ‹_›] at ht
    cases hs
    cases ht
    exact h
  · rw [if_neg ‹_›] at ht
    cases hnext : fillBar bars stop i with
    | none =>
      rw [hnext] at hs hsome
      rw [Option.isSome_none, Option.isSome_eq_false_iff, Option.isNone_iff_eq_none] at hsome
      rw [hsome] at ht
      cases hs
      cases ht
      exact ⟨rfl, h.entries, h.exits, congrArg (· + 1) h.missing⟩
    | some next =>
      rw [hnext] at hs hsome
      obtain ⟨next', hnext'⟩ := Option.isSome_iff_exists.mp hsome
      rw [hnext'] at ht
      dsimp only at hs ht
      split at hs
      · rw [if_pos ‹_›] at ht
        exact sameDecisions_entered h hs ht
      · rw [if_neg ‹_›] at ht
        cases ht
        exact sameDecisions_exited h _ hs

theorem sameDecisions_step (htimes : timesOf others = timesOf bars) (h : SameDecisions s t) (i : ℕ)
    (hs : Survivor.step bars shortValues longValues p stop s i = .ok s')
    (ht : TrendMa.step others shortValues longValues c stop t i = .ok t') :
    SameDecisions s' t' := by
  unfold Survivor.step at hs
  unfold TrendMa.step at ht
  obtain ⟨bar, -, hs⟩ := bind_eq_ok.mp hs
  obtain ⟨bar', -, ht⟩ := bind_eq_ok.mp ht
  obtain ⟨u, hu, hs⟩ := bind_eq_ok.mp hs
  have h := sameDecisions_marked (c := c) h bar'.closing hu
  split at hs
  · rw [if_pos ‹_›] at ht
    cases hs
    cases ht
    exact h
  · rw [if_neg ‹_›] at ht
    cases hv : valuesAt shortValues longValues i with
    | none =>
      rw [hv] at hs ht
      cases hs
      cases ht
      exact h
    | some v =>
      rw [hv] at hs ht
      exact sameDecisions_fill htimes h hs ht

/-- Both cells have entered and left at the same bars, as long as both go on. -/
theorem sameDecisions_loop (htimes : timesOf others = timesOf bars) {is : List ℕ}
    (hs : Survivor.loop bars shortValues longValues p stop is = .ok s)
    (ht : TrendMa.loop others shortValues longValues c stop is = .ok t) : SameDecisions s t := by
  have hinit : SameDecisions (.init p) (TrendMa.CellState.init c) := ⟨rfl, rfl, rfl, rfl⟩
  apply foldlM_of_ok _ hinit hs ht
  exact fun _ _ i _ _ h => sameDecisions_step htimes h i

end Float

def flatBars (hours : List ℤ) : List (Bar String) := hours.map fun h => ⟨h * hourMs, "100", "100"⟩

def crossing : Indicator
  | 1 => some 2
  | _ => some 0

def levelOne : Indicator := fun _ => some 1

def sampleRates : Rates := ⟨ofText "10", ofText "5"⟩

def samplePolicy : Policy := ⟨ofText "0.001", ofText "1000", sampleRates, sampleRates⟩

def fiveHours : ExactSeries := ⟨flatBars [0, 1, 2, 3, 4], by decide, by decide⟩

def gapAfterSignal : ExactSeries := ⟨flatBars [0, 1, 3, 4], by decide, by decide⟩

def fiveRationals : BarSeries ℚ :=
  ⟨[0, 1, 2, 3, 4].map fun h => ⟨h * hourMs, 100, 100⟩, by decide, by decide⟩

def sampleCosts : TrendMa.Costs ℚ := ⟨1 / 1000, 1000, 1 / 1000, 1 / 2000, 1 / 1000, 1 / 2000⟩

/-- The three other simulators against the exact cell. -/
theorem control_conditions {P : Type} (exact : ExactSeries) (signal : BarSeries P)
    (shortValues longValues : Indicator) (startMs endMs : ℤ) (p : Policy) :
    ((∀ is, Alike StopOverlay.Same
        (Survivor.loop exact.bars shortValues longValues p (cellStop exact endMs) is)
        (StopOverlay.loop exact.bars shortValues longValues none p (cellStop exact endMs) is)) ∧
      Alike StopOverlay.SameResult
        (Survivor._exactCell exact signal shortValues longValues startMs endMs p)
        (StopOverlay._simulateCell signal exact shortValues longValues startMs endMs none p)) ∧
    (0 < p.quantity → VolScaling.Held p.quantity →
      VolScaling.HeldAlong exact.bars shortValues longValues p (cellStop exact endMs)
        (cellBars exact startMs endMs) →
      (∀ is, is <+: cellBars exact startMs endMs →
        VolScaling.FilledAlong exact.bars shortValues longValues p (cellStop exact endMs) is →
        Alike (VolScaling.SameCell p)
          (Survivor.loop exact.bars shortValues longValues p (cellStop exact endMs) is)
          (VolScaling.loop exact.bars shortValues longValues p none (cellStop exact endMs)
            (.init p 1) is)) ∧
      ((∃ result, VolScaling._simulateCell signal exact shortValues longValues startMs endMs p none =
          .ok result) ↔
        (∃ result, Survivor._exactCell exact signal shortValues longValues startMs endMs p =
          .ok result) ∧
        VolScaling.FilledAlong exact.bars shortValues longValues p (cellStop exact endMs)
          (cellBars exact startMs endMs)) ∧
      ∀ e c, Survivor._exactCell exact signal shortValues longValues startMs endMs p = .ok e →
        VolScaling._simulateCell signal exact shortValues longValues startMs endMs p none = .ok c →
        VolScaling.SameResult e c) ∧
    ∀ {F : Type} [Add F] [Sub F] [Mul F] [Div F] [Neg F] [Zero F] [One F] [LT F] [DecidableLT F]
      [DecidableEq F] (costs : TrendMa.Costs F) (series : BarSeries F),
      series.times = exact.times → ∀ is s t,
        Survivor.loop exact.bars shortValues longValues p (cellStop exact endMs) is = .ok s →
        TrendMa.loop series.bars shortValues longValues costs (cellStop exact endMs) is = .ok t →
        SameDecisions s t := by
  refine ⟨⟨fun is => StopOverlay.alike_loop is, ?_⟩, ?_, ?_⟩
  · exact StopOverlay.alike_cell exact signal shortValues longValues startMs endMs p
  · intro hpos hheld hfills
    refine ⟨?_, VolScaling.cell_ok_iff shortValues longValues p hpos hheld hfills, ?_⟩
    · rintro is ⟨rest, hrest⟩ hfilled
      rw [← hrest] at hfills
      exact VolScaling.alike_loop hpos hheld hfills.of_append hfilled
    · intro e c he hc
      exact VolScaling.sameResult_of_ok shortValues longValues p hpos hheld hfills he hc
  · intro F _ _ _ _ _ _ _ _ _ _ costs series htimes is s t hs ht
    exact sameDecisions_loop htimes hs ht

/-- A round trip within five hours. -/
theorem control_conditions_five_hours :
    (VolScaling.FilledAlong fiveHours.bars crossing levelOne samplePolicy 5 [0, 1, 2, 3, 4] ∧
      ∀ e c, Survivor._exactCell fiveHours fiveHours crossing levelOne 0 (5 * hourMs) samplePolicy =
          .ok e →
        VolScaling._simulateCell fiveHours fiveHours crossing levelOne 0 (5 * hourMs) samplePolicy
          none = .ok c →
        VolScaling.SameResult e c) ∧
    ∀ s t, Survivor.loop fiveHours.bars crossing levelOne samplePolicy 5 [0, 1, 2, 3, 4] = .ok s →
      TrendMa.loop fiveRationals.bars crossing levelOne sampleCosts 5 [0, 1, 2, 3, 4] = .ok t →
      SameDecisions s t := by
  have law := control_conditions fiveHours fiveHours crossing levelOne 0 (5 * hourMs) samplePolicy
  have hunscaled := law.2.1 (by decide +kernel) (by decide +kernel) (by decide +kernel)
  exact ⟨⟨by decide +kernel, hunscaled.2.2⟩, law.2.2 sampleCosts fiveRationals (by decide) _⟩

/-- The exact cell counts a signal before a gap; the volatility cell without scaling raises. -/
theorem missing_fill_raises :
    (Survivor._exactCell gapAfterSignal gapAfterSignal crossing levelOne 0 (5 * hourMs)
      samplePolicy).map (fun e => e.missingFillSignals) = .ok 1 ∧
    VolScaling._simulateCell gapAfterSignal gapAfterSignal crossing levelOne 0 (5 * hourMs)
      samplePolicy none = .error (.vol "required GEN2-002 fill bar is missing") := by
  decide +kernel

end Generation2

end TradingLab
