import TradingLab.Generation2.StopOverlay
import TradingLab.Generation2.VolCell
import TradingLab.Search.FloatCell

/-!
# The control conditions

Without a stop threshold the stop overlay is the exact cell. Without scaling the
volatility cell is the exact cell too, as long as no signal is followed by a gap, where
it raises, and its sums in the default context are exact. The float cell decides on
the same bars as the exact one.
-/

namespace TradingLab

open Decimal Search

namespace Generation2

namespace StopOverlay

structure Same (s : Survivor.CellState) (t : CellState) : Prop where
  base : t.base = s.base
  stress : t.stress = s.stress
  position : t.position = s.position
  drawdown : t.drawdown = s.drawdown
  entries : t.entries = s.entryFills
  exits : t.ordinaryExits = s.exitFills
  missing : t.missingSignalFills = s.missing
  stops : t.stopExits = 0 ∧ t.dualExits = 0 ∧ t.missingStopFills = 0

section Loop
variable {bars : List (Bar String)} {shortValues longValues : Indicator} {p : Policy} {stop : ℕ}
  {s : Survivor.CellState} {t : CellState}

theorem same_init (p : Policy) : Same (.init p) (.init p) := by
  constructor <;> simp [Survivor.CellState.init, CellState.init]

theorem alike_marked (h : Same s t) (bar : Bar String) :
    Alike Same (s.marked p bar) (t.marked p bar) := by
  unfold Survivor.CellState.marked CellState.marked
  rw [h.base, h.drawdown]
  apply (Alike.refl _).bind
  intro d d' hd
  exact .ok ⟨rfl, h.stress, h.position, hd.symm, h.entries, h.exits, h.missing, h.stops⟩

theorem alike_entered (h : Same s t) (reference : Decimal) :
    Alike Same (s.entered p reference) (t.entered p reference) := by
  unfold Survivor.CellState.entered CellState.entered
  rw [h.base, h.stress]
  apply (Alike.refl _).bind
  intro base base' hbase
  apply (Alike.refl _).bind
  intro stress stress' hstress
  exact .ok ⟨hbase.symm, hstress.symm, rfl, h.drawdown, congrArg (· + 1) h.entries, h.exits,
    h.missing, h.stops⟩

theorem alike_exited (h : Same s t) (reference : Decimal) :
    Alike Same (s.exited p reference) (t.exited p reference true false) := by
  unfold Survivor.CellState.exited CellState.exited
  rw [h.base, h.stress]
  apply (Alike.refl _).bind
  intro base base' hbase
  apply (Alike.refl _).bind
  intro stress stress' hstress
  exact .ok ⟨hbase.symm, hstress.symm, rfl, h.drawdown, h.entries, congrArg (· + 1) h.exits,
    h.missing, h.stops⟩

theorem alike_fill (h : Same s t) (i : ℕ) (close : Decimal) (v : Values) :
    Alike Same (Survivor.fill bars p stop s i v) (fill bars none p stop t i close v) := by
  have hmissed : Same { s with missing := s.missing + 1 } (t.missed false) :=
    ⟨h.base, h.stress, h.position, h.drawdown, h.entries, h.exits, congrArg (· + 1) h.missing,
      h.stops⟩
  unfold Survivor.fill fill CellState.stopExit
  rw [h.position, ok_bind]
  cases henter : v.enter s.position with
  | true =>
    rw [Values.not_exits_of_enter henter]
    simp only [Bool.not_true, Bool.false_and, Bool.false_eq_true, if_false, Bool.or_self,
      Bool.and_false, if_true]
    cases fillBar bars stop i with
    | none => exact .ok hmissed
    | some next => exact alike_entered h _
  | false =>
    cases hexits : v.exits s.position with
    | true =>
      have hposition : s.position = true := by
        cases hp : s.position with
        | true => rfl
        | false => simp [Values.exits, hp] at hexits
      have hleaves : (s.position && (true || false)) = true := by simp [hposition]
      simp only [Bool.not_true, Bool.and_false, Bool.false_eq_true, if_false, if_pos hleaves]
      cases fillBar bars stop i with
      | none => exact .ok hmissed
      | some next => exact alike_exited h _
    | false =>
      simp only [Bool.not_false, Bool.and_self, if_true, Bool.or_self, Bool.and_false,
        Bool.false_eq_true, if_false]
      exact .ok h

theorem alike_step (h : Same s t) (i : ℕ) :
    Alike Same (Survivor.step bars shortValues longValues p stop s i)
      (step bars shortValues longValues none p stop t i) := by
  unfold Survivor.step step
  apply (Alike.refl _).bind
  intro bar bar' hbar
  rw [← hbar]
  apply (alike_marked h bar).bind
  intro s t h
  by_cases hi : i = 0
  · simp only [if_pos hi]
    exact .ok h
  · simp only [if_neg hi]
    cases valuesAt shortValues longValues i with
    | none => exact .ok h
    | some v => exact alike_fill h i _ v

theorem alike_loop (is : List ℕ) :
    Alike Same (Survivor.loop bars shortValues longValues p stop is)
      (loop bars shortValues longValues none p stop is) :=
  Alike.foldlM_self (fun _ _ i h => alike_step h i) is (same_init p)

end Loop

open Survivor (_plain _exactCell)

/-- What the claims of both cells agree on. -/
structure SameResult (e : Survivor.ExactResult) (c : CellResult) : Prop where
  base : e.base.netPnlAfterCostsQuote = _plain c.baseNet
  stress : e.stress.netPnlAfterCostsQuote = _plain c.stressNet
  realized : e.base.realizedClosedTradePnlQuote = _plain c.realized
  stressRealized : e.stress.realizedClosedTradePnlQuote = _plain c.stressRealized
  drawdown : e.base.maximumDrawdownFraction = _plain c.maximumDrawdown
  completed : e.completedTrades = c.completedTrades
  entries : e.entryFills = c.entryFills
  exits : e.exitFills = c.ordinaryExitFills
  missing : e.missingFillSignals = c.missingSignalFills
  openAtEnd : e.openPositionAtEnd = c.openPositionAtEnd
  stops : c.stopExitFills = 0 ∧ c.dualExitFills = 0 ∧ c.missingStopFills = 0

section Result
variable {bars : List (Bar String)} {shortValues longValues : Indicator} {p : Policy} {stop : ℕ}
  {s : Survivor.CellState} {t : CellState}

theorem alike_result (h : Same s t) (hinitial : p.initialEquityQuote.coefficient ≠ 0)
    (finalMark : Decimal) : Alike SameResult (s.result p finalMark) (t.result p finalMark) := by
  unfold Survivor.CellState.result CellState.result
  rw [h.base, h.stress, h.drawdown]
  apply (Alike.refl _).bind
  intro drawdown drawdown' hdrawdown
  rw [← hdrawdown]
  dsimp only
  rw [Survivor.returnOf_eq _ hinitial, ok_bind, Survivor.returnOf_eq _ hinitial, ok_bind]
  exact .ok ⟨rfl, rfl, rfl, rfl, rfl, rfl, h.entries.symm, h.exits.symm, h.missing.symm,
    h.position.symm, h.stops⟩

theorem alike_cell {P : Type} (exact : ExactSeries) (signal : BarSeries P)
    (shortValues longValues : Indicator) (startMs endMs : ℤ) (p : Policy) :
    Alike SameResult (_exactCell exact signal shortValues longValues startMs endMs p)
      (_simulateCell signal exact shortValues longValues startMs endMs none p) := by
  unfold _exactCell _simulateCell
  apply (Alike.raiseIf _ _ ⟨Ne.symm, Ne.symm⟩).bind
  intro _ _ _
  dsimp only
  by_cases hempty : bisectLeft exact.times endMs ≤ bisectLeft exact.times startMs
  · rw [raiseIf_pos hempty, raiseIf_pos hempty]
    exact .error _ _
  · rw [raiseIf_neg hempty, raiseIf_neg hempty, ok_bind, ok_bind, raiseIf_neg (by simp), ok_bind]
    have hwindow : windowBars (bisectLeft exact.times startMs) (bisectLeft exact.times endMs) ≠ [] := by
      unfold windowBars
      rw [Ne, List.range'_eq_nil_iff]
      omega
    refine ((alike_loop _).imp fun s t hs _ hsame =>
      (⟨hsame, Survivor.initial_ne_zero hwindow hs⟩ : Same s t ∧ p.initialEquityQuote.coefficient ≠ 0)).bind ?_
    intro s t hst
    apply (Alike.refl _).bind
    intro last last' hlast
    rw [← hlast]
    exact alike_result hst.1 hst.2 _

end Result

end StopOverlay

end Generation2

end TradingLab
