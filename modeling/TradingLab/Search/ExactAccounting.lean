import TradingLab.Search.ExactTotals

/-!
# The accounting of the survivor ranking

What a cell reports of its trades and costs, and what a candidate reports of its
cells, is exact all along exactly when every running total fits the context it is
added up in.
-/

namespace TradingLab

open Decimal List

namespace Search.Survivor

def amount (text : String) : ℚ := (ofText text).toRat

@[simp] theorem amount_plain (d : Decimal) : amount (_plain d) = d.toRat := by
  unfold amount _plain
  split
  · rename_i hzero
    rw [equiv_def, toRat_zero] at hzero
    rw [hzero]
    exact toRat_zero
  · exact toRat_ofText_trimFraction d

def gains (realized : List Decimal) : List Decimal := realized.filter fun x => 0 < x
def losses (realized : List Decimal) : List Decimal := realized.filter fun x => x < 0

def grossProfitQuote (realized : List Decimal) : String := _plain (_sum (gains realized))
def grossLossQuote (realized : List Decimal) : String :=
  _plain (neg defaultPrecision (_sum (losses realized)))

/-- What is reported of realized amounts is exact. -/
structure ExactRealized (realized : List Decimal) : Prop where
  total : amount (_plain (_sum realized)) = (realized.map toRat).sum
  difference : amount (grossProfitQuote realized) - amount (grossLossQuote realized) =
    amount (_plain (_sum realized))

/-- The running totals of the realized amounts fit. -/
structure FitsRealized (realized : List Decimal) : Prop where
  total : RunningFits decimalPrecision realized
  profit : RunningFits decimalPrecision (gains realized)
  loss : RunningFits defaultPrecision (losses realized)

section
variable {realized part : List Decimal}

theorem FitsRealized.initial (h : FitsRealized realized) (hpart : part <+: realized) :
    FitsRealized part :=
  ⟨h.total.initial hpart, h.profit.initial (hpart.filter _), h.loss.initial (hpart.filter _)⟩

theorem FitsRealized.exact (h : FitsRealized realized) : ExactRealized realized := by
  have hdecimal : 0 < decimalPrecision := by decide
  have htotal : (_sum realized).toRat = (realized.map toRat).sum := h.total.toRat_sum hdecimal
  have hprofit : (_sum (gains realized)).toRat = ((gains realized).map toRat).sum :=
    h.profit.toRat_sum hdecimal
  have hsum : (_sum (losses realized)).toRat = ((losses realized).map toRat).sum :=
    (h.loss.mono (by decide)).toRat_sum hdecimal
  have hloss : (neg defaultPrecision (_sum (losses realized))).toRat =
      -(_sum (losses realized)).toRat :=
    toRat_neg (by decide) (hsum ▸ h.loss _ (prefix_refl _))
  constructor
  · rw [amount_plain, htotal]
  · unfold grossProfitQuote grossLossQuote
    rw [amount_plain, amount_plain, amount_plain, hprofit, hloss, hsum, htotal, sub_neg_eq_add]
    exact sum_gains_losses realized

/-- Profit and loss are exact on their own, when they are together all along. -/
theorem exact_apart (h : ∀ part, part <+: realized → ExactRealized part) :
    ∀ part, part <+: realized →
      amount (grossProfitQuote part) = ((gains part).map toRat).sum ∧
        amount (grossLossQuote part) = -((losses part).map toRat).sum := by
  intro part hpart
  induction part using reverseRecOn with
  | nil =>
    have hprofit : amount (grossProfitQuote []) = 0 := (amount_plain _).trans toRat_zero
    have hloss : amount (grossLossQuote []) = 0 := by
      have hneg := @toRat_neg 0 defaultPrecision (by decide)
        (toRat_zero ▸ representable_zero _)
      exact (amount_plain _).trans (hneg.trans (by rw [toRat_zero, neg_zero]))
    constructor
    · simpa [gains] using hprofit
    · simpa [losses] using hloss
  | append_singleton part pnl ih =>
    obtain ⟨hprofit, hloss⟩ := ih ((prefix_append _ _).trans hpart)
    have hexact := h _ hpart
    have hdifference := hexact.difference
    rw [hexact.total, ← sum_gains_losses] at hdifference
    change _ = ((gains _).map toRat).sum + ((losses _).map toRat).sum at hdifference
    by_cases hpositive : 0 < pnl
    · -- The losses are those of before.
      have hsame : losses (part ++ [pnl]) = losses part := by
        unfold losses
        rw [lt_def, toRat_zero] at hpositive
        rw [filter_append, filter_singleton, decide_eq_false]
        · exact append_nil _
        · rw [lt_def, toRat_zero]
          exact hpositive.not_gt
      unfold grossLossQuote at hloss hdifference ⊢
      rw [hsame, hloss] at hdifference ⊢
      exact ⟨by linarith, rfl⟩
    · have hsame : gains (part ++ [pnl]) = gains part := by
        unfold gains
        rw [filter_append, filter_singleton]
        simp [hpositive]
      unfold grossProfitQuote at hprofit hdifference ⊢
      rw [hsame, hprofit] at hdifference ⊢
      exact ⟨rfl, by linarith⟩

/-- Realized amounts are reported exactly all along, exactly when they fit. -/
theorem fitsRealized_iff :
    FitsRealized realized ↔ ∀ part, part <+: realized → ExactRealized part := by
  have hdecimal : 0 < decimalPrecision := by decide
  constructor
  · exact fun h part hpart => (h.initial hpart).exact
  · intro h
    have hapart := exact_apart h
    refine ⟨?_, ?_, ?_⟩
    · refine (runningFits_iff hdecimal).mpr fun part hpart => ?_
      have htotal := (h part hpart).total
      rwa [amount_plain] at htotal
    · rintro part ⟨rest, hrest⟩
      obtain ⟨front, back, hsplit, rfl, -⟩ := filter_eq_append_iff.mp hrest.symm
      have hprofit := (hapart front ⟨back, hsplit.symm⟩).1
      unfold grossProfitQuote at hprofit
      rw [amount_plain] at hprofit
      exact hprofit ▸ representable_sum hdecimal _
    · rintro part ⟨rest, hrest⟩
      obtain ⟨front, back, hsplit, rfl, -⟩ := filter_eq_append_iff.mp hrest.symm
      have hloss := (hapart front ⟨back, hsplit.symm⟩).2
      unfold grossLossQuote at hloss
      rw [amount_plain] at hloss
      exact Representable.of_neg (hloss ▸ representable_neg (by decide) _)

end

/-- What is reported of an account after some fills is exact. -/
structure ExactAccount (r : Rates) (quantity : Decimal) (fills : List Fill) (a : _Account) :
    Prop where
  fee : amount (_plain a.totalFee) = ((_Account.fees r quantity fills).map toRat).sum
  slippage : amount (_plain a.totalSlippage) =
    ((_Account.slippages r quantity fills).map toRat).sum
  realized : ExactRealized a.realized

/-- The running totals of an account fit. -/
structure FitsAccount (r : Rates) (quantity : Decimal) (fills : List Fill) (a : _Account) :
    Prop where
  fee : RunningFits defaultPrecision (_Account.fees r quantity fills)
  slippage : RunningFits defaultPrecision (_Account.slippages r quantity fills)
  realized : FitsRealized a.realized

namespace _Account
variable {r : Rates} {quantity initial : Decimal} {fills : List Fill} {a : _Account}

/-- An account is exact after each of its fills, exactly when its running totals fit. -/
theorem fitsAccount_iff (h : (_newAccount initial).run r quantity fills = .ok a) :
    FitsAccount r quantity fills a ↔
      ∀ part b, part <+: fills → (_newAccount initial).run r quantity part = .ok b →
        ExactAccount r quantity part b := by
  have hdefault : 0 < defaultPrecision := by decide
  constructor
  · intro hfits part b hpart hb
    obtain ⟨b', hb', hrealized⟩ := run_prefix h hpart
    rw [hb] at hb'
    cases hb'
    refine ⟨?_, ?_, (hfits.realized.initial hrealized).exact⟩
    · rw [amount_plain, (run_totals hb).1]
      exact (hfits.fee.initial (hpart.map _)).toRat_sum hdefault
    · rw [amount_plain, (run_totals hb).2]
      exact (hfits.slippage.initial (hpart.map _)).toRat_sum hdefault
  · intro hexact
    refine ⟨?_, ?_, fitsRealized_iff.mpr ?_⟩
    · refine (runningFits_iff hdefault).mpr fun part hpart => ?_
      obtain ⟨made, hmade, rfl⟩ := prefix_map_iff.mp hpart
      obtain ⟨b, hb, -⟩ := run_prefix h hmade
      have hfee := (hexact made b hmade hb).fee
      rwa [amount_plain, (run_totals hb).1] at hfee
    · refine (runningFits_iff hdefault).mpr fun part hpart => ?_
      obtain ⟨made, hmade, rfl⟩ := prefix_map_iff.mp hpart
      obtain ⟨b, hb, -⟩ := run_prefix h hmade
      have hslippage := (hexact made b hmade hb).slippage
      rwa [amount_plain, (run_totals hb).2] at hslippage
    · intro part hpart
      obtain ⟨front, b, hfront, hb, rfl⟩ := run_realized h rfl hpart
      exact (hexact front b hfront hb).realized

end _Account

section
variable {bars : List (Bar String)} {shortValues longValues : Indicator} {p : Policy} {stop : ℕ}

theorem cellFills_append (position : Bool) (is js : List ℕ) :
    cellFills bars shortValues longValues stop position is <+:
      cellFills bars shortValues longValues stop position (is ++ js) := by
  induction is generalizing position with
  | nil => exact nil_prefix
  | cons i is ih =>
    rw [cons_append]
    unfold cellFills
    split
    · exact ih position
    · exact (prefix_cons_inj _).mpr (ih _)

theorem exists_cellFills {fills : List Fill} {position : Bool} {is : List ℕ}
    (h : fills <+: cellFills bars shortValues longValues stop position is) :
    ∃ js, js <+: is ∧ cellFills bars shortValues longValues stop position js = fills := by
  induction is generalizing position fills with
  | nil => exact ⟨[], prefix_refl _, (prefix_nil.mp h).symm⟩
  | cons i is ih =>
    cases fills with
    | nil => exact ⟨[], nil_prefix, rfl⟩
    | cons fill fills =>
      unfold cellFills at h
      split at h
      · rename_i hnone
        obtain ⟨js, hjs, hfills⟩ := ih h
        refine ⟨i :: js, (prefix_cons_inj i).mpr hjs, ?_⟩
        unfold cellFills
        rw [hnone]
        exact hfills
      · rename_i made hmade
        obtain ⟨rfl, hrest⟩ := cons_prefix_cons.mp h
        obtain ⟨js, hjs, hfills⟩ := ih hrest
        refine ⟨i :: js, (prefix_cons_inj i).mpr hjs, ?_⟩
        unfold cellFills
        rw [hmade]
        exact congrArg _ hfills

theorem loop_prefix {is js : List ℕ} {s : CellState} (hjs : js <+: is)
    (h : loop bars shortValues longValues p stop is = .ok s) :
    ∃ t, loop bars shortValues longValues p stop js = .ok t := by
  obtain ⟨rest, rfl⟩ := hjs
  unfold loop at h
  rw [foldlM_append] at h
  obtain ⟨t, ht, -⟩ := bind_eq_ok.mp h
  exact ⟨t, ht⟩

end

structure CellRun (p : Policy) where
  bars : List (Bar String)
  shortValues : Indicator
  longValues : Indicator
  start : ℕ
  stop : ℕ
  state : CellState
  finalMark : Decimal
  result : ExactResult
  loop_eq : loop bars shortValues longValues p stop (windowBars start stop) = .ok state
  result_eq : state.result p finalMark = .ok result

namespace CellRun
variable {p : Policy} (run : CellRun p)

def fillsOf (is : List ℕ) : List Fill :=
  cellFills run.bars run.shortValues run.longValues run.stop false is

/-- What the cell would report is exact after any of its bars. -/
def Exact : Prop :=
  ∀ is s, is <+: windowBars run.start run.stop →
    loop run.bars run.shortValues run.longValues p run.stop is = .ok s →
      ExactAccount p.base p.quantity (run.fillsOf is) s.base ∧
        amount (_plain (_sum s.stress.realized)) = (s.stress.realized.map toRat).sum

structure Fits : Prop where
  base : FitsAccount p.base p.quantity (run.fillsOf (windowBars run.start run.stop)) run.state.base
  stress : RunningFits decimalPrecision run.state.stress.realized

/-- A cell is exact after each of its bars, exactly when its running totals fit. -/
theorem exact_iff : run.Exact ↔ run.Fits := by
  have hdecimal : 0 < decimalPrecision := by decide
  obtain ⟨hbase, hstress⟩ := loop_run run.loop_eq
  constructor
  · intro hexact
    have hat : ∀ fills, fills <+: run.fillsOf (windowBars run.start run.stop) → ∃ is s,
        run.fillsOf is = fills ∧ is <+: windowBars run.start run.stop ∧
          loop run.bars run.shortValues run.longValues p run.stop is = .ok s := by
      intro fills hfills
      obtain ⟨is, his, rfl⟩ := exists_cellFills hfills
      obtain ⟨s, hs⟩ := loop_prefix his run.loop_eq
      exact ⟨is, s, rfl, his, hs⟩
    constructor
    · refine (_Account.fitsAccount_iff hbase).mpr fun part b hpart hb => ?_
      obtain ⟨is, s, rfl, his, hs⟩ := hat part hpart
      have hsame := (loop_run hs).1
      rw [show (CellState.init p).position = false from rfl] at hsame
      unfold fillsOf at hb
      cases hsame.symm.trans hb
      exact (hexact is s his hs).1
    · refine (runningFits_iff hdecimal).mpr fun part hpart => ?_
      obtain ⟨fills, b, hfills, hb, rfl⟩ := _Account.run_realized hstress rfl hpart
      obtain ⟨is, s, rfl, his, hs⟩ := hat fills hfills
      have hsame := (loop_run hs).2
      cases hsame.symm.trans hb
      have htotal := (hexact is s his hs).2
      rwa [amount_plain] at htotal
  · intro hfits is s his hs
    obtain ⟨rest, hrest⟩ := his
    obtain ⟨hb, hb'⟩ := loop_run hs
    have hfills : run.fillsOf is <+: run.fillsOf (windowBars run.start run.stop) := by
      rw [← hrest]
      exact cellFills_append false is rest
    constructor
    · exact (_Account.fitsAccount_iff hbase).mp hfits.base _ _ hfills hb
    · obtain ⟨b, hsame, hrealized⟩ := _Account.run_prefix hstress hfills
      cases hsame.symm.trans hb'
      rw [amount_plain]
      exact (hfits.stress.initial hrealized).toRat_sum hdecimal

end CellRun

/-- What `_exact_candidate` gathers from its cells. -/
structure Gathered where
  totalCompleted : ℕ
  wins : ℕ
  losses : ℕ
  netValues : List Decimal
  stressValues : List Decimal
  cellReturns : List Decimal
  grossProfit : Decimal
  grossLoss : Decimal
  largestPositive : Decimal
  realizedValues : List Decimal
  stressRealizedValues : List Decimal
  maxDrawdown : Decimal
  positiveCells : ℕ

namespace Gathered

def init : Gathered := ⟨0, 0, 0, [], [], [], 0, 0, 0, [], [], 0, 0⟩

/-- The gross profits and losses are added up in the default context. -/
def cell (g : Gathered) (x : ExactResult) : Gathered :=
  let net := ofText x.base.netPnlAfterCostsQuote
  { totalCompleted := g.totalCompleted + x.completedTrades
    wins := g.wins + x.wins
    losses := g.losses + x.losses
    netValues := g.netValues ++ [net]
    stressValues := g.stressValues ++ [ofText x.stress.netPnlAfterCostsQuote]
    cellReturns := g.cellReturns ++ [ofText x.base.netReturnAfterCosts]
    grossProfit := add defaultPrecision g.grossProfit (ofText x.base.grossProfitQuote)
    grossLoss := add defaultPrecision g.grossLoss (ofText x.base.grossLossQuote)
    largestPositive := larger g.largestPositive (ofText x.base.largestPositiveTradeQuote)
    realizedValues := g.realizedValues ++ [ofText x.base.realizedClosedTradePnlQuote]
    stressRealizedValues :=
      g.stressRealizedValues ++ [ofText x.stress.realizedClosedTradePnlQuote]
    maxDrawdown := larger g.maxDrawdown (ofText x.base.maximumDrawdownFraction)
    positiveCells := if 0 < net then g.positiveCells + 1 else g.positiveCells }

end Gathered

def gather (cells : List ExactResult) : Gathered := cells.foldl .cell .init

section
variable (cells : List ExactResult)

def nets : List Decimal := cells.map fun x => ofText x.base.netPnlAfterCostsQuote
def stressNets : List Decimal := cells.map fun x => ofText x.stress.netPnlAfterCostsQuote
def profits : List Decimal := cells.map fun x => ofText x.base.grossProfitQuote
def lossQuotes : List Decimal := cells.map fun x => ofText x.base.grossLossQuote
def realizedQuotes : List Decimal := cells.map fun x => ofText x.base.realizedClosedTradePnlQuote
def stressRealizedQuotes : List Decimal :=
  cells.map fun x => ofText x.stress.realizedClosedTradePnlQuote

theorem gather_eq :
    (gather cells).netValues = nets cells ∧ (gather cells).stressValues = stressNets cells ∧
      (gather cells).realizedValues = realizedQuotes cells ∧
      (gather cells).stressRealizedValues = stressRealizedQuotes cells ∧
      (gather cells).grossProfit = sum defaultPrecision (profits cells) ∧
      (gather cells).grossLoss = sum defaultPrecision (lossQuotes cells) := by
  induction cells using reverseRecOn with
  | nil => exact ⟨rfl, rfl, rfl, rfl, rfl, rfl⟩
  | append_singleton cells x ih =>
    have hlast : gather (cells ++ [x]) = (gather cells).cell x := foldl_concat ..
    obtain ⟨hnet, hstress, hrealized, hstressRealized, hprofit, hloss⟩ := ih
    rw [hlast]
    unfold Gathered.cell nets stressNets profits lossQuotes realizedQuotes stressRealizedQuotes
    simp only [hnet, hstress, hrealized, hstressRealized, hprofit, hloss, map_append,
      map_singleton, sum_append_singleton]
    exact ⟨rfl, rfl, rfl, rfl, rfl, rfl⟩

/-- What a candidate reports is the sum of what its cells report. -/
structure ExactTotals : Prop where
  net : amount (_plain (_sum (gather cells).netValues)) =
    (cells.map fun x => amount x.base.netPnlAfterCostsQuote).sum
  stressNet : amount (_plain (_sum (gather cells).stressValues)) =
    (cells.map fun x => amount x.stress.netPnlAfterCostsQuote).sum
  realized : amount (_plain (_sum (gather cells).realizedValues)) =
    (cells.map fun x => amount x.base.realizedClosedTradePnlQuote).sum
  stressRealized : amount (_plain (_sum (gather cells).stressRealizedValues)) =
    (cells.map fun x => amount x.stress.realizedClosedTradePnlQuote).sum
  profit : amount (_plain (gather cells).grossProfit) =
    (cells.map fun x => amount x.base.grossProfitQuote).sum
  loss : amount (_plain (gather cells).grossLoss) =
    (cells.map fun x => amount x.base.grossLossQuote).sum

structure FitsTotals : Prop where
  net : RunningFits decimalPrecision (nets cells)
  stressNet : RunningFits decimalPrecision (stressNets cells)
  realized : RunningFits decimalPrecision (realizedQuotes cells)
  stressRealized : RunningFits decimalPrecision (stressRealizedQuotes cells)
  profit : RunningFits defaultPrecision (profits cells)
  loss : RunningFits defaultPrecision (lossQuotes cells)

end

theorem running_field {prec : ℕ} (hp : 0 < prec) (field : ExactResult → String)
    {cells : List ExactResult} :
    RunningFits prec (cells.map fun x => ofText (field x)) ↔ ∀ part, part <+: cells →
      (sum prec (part.map fun x => ofText (field x))).toRat =
        (part.map fun x => amount (field x)).sum := by
  have hmap : ∀ part : List ExactResult,
      (part.map fun x => ofText (field x)).map toRat = part.map fun x => amount (field x) :=
    fun part => map_map
  rw [runningFits_iff hp]
  constructor
  · intro h part hpart
    rw [h _ (hpart.map _), hmap]
  · intro h _ hmapped
    obtain ⟨part, hpart, rfl⟩ := prefix_map_iff.mp hmapped
    rw [h part hpart, hmap]

theorem fitsTotals_iff (cells : List ExactResult) :
    FitsTotals cells ↔ ∀ part, part <+: cells → ExactTotals part := by
  have hdecimal : 0 < decimalPrecision := by decide
  have hdefault : 0 < defaultPrecision := by decide
  constructor
  · rintro ⟨hnet, hstress, hrealized, hstressRealized, hprofit, hloss⟩ part hpart
    obtain ⟨enet, estress, erealized, estressRealized, eprofit, eloss⟩ := gather_eq part
    refine ⟨?_, ?_, ?_, ?_, ?_, ?_⟩ <;> rw [amount_plain]
    · rw [enet]
      exact (running_field hdecimal _).mp hnet part hpart
    · rw [estress]
      exact (running_field hdecimal _).mp hstress part hpart
    · rw [erealized]
      exact (running_field hdecimal _).mp hrealized part hpart
    · rw [estressRealized]
      exact (running_field hdecimal _).mp hstressRealized part hpart
    · rw [eprofit]
      exact (running_field hdefault _).mp hprofit part hpart
    · rw [eloss]
      exact (running_field hdefault _).mp hloss part hpart
  · intro h
    refine ⟨?_, ?_, ?_, ?_, ?_, ?_⟩
    · refine (running_field hdecimal _).mpr fun part hpart => ?_
      rw [← (h part hpart).net, amount_plain, (gather_eq part).1]
      rfl
    · refine (running_field hdecimal _).mpr fun part hpart => ?_
      rw [← (h part hpart).stressNet, amount_plain, (gather_eq part).2.1]
      rfl
    · refine (running_field hdecimal _).mpr fun part hpart => ?_
      rw [← (h part hpart).realized, amount_plain, (gather_eq part).2.2.1]
      rfl
    · refine (running_field hdecimal _).mpr fun part hpart => ?_
      rw [← (h part hpart).stressRealized, amount_plain, (gather_eq part).2.2.2.1]
      rfl
    · refine (running_field hdefault _).mpr fun part hpart => ?_
      rw [← (h part hpart).profit, amount_plain, (gather_eq part).2.2.2.2.1]
      rfl
    · refine (running_field hdefault _).mpr fun part hpart => ?_
      rw [← (h part hpart).loss, amount_plain, (gather_eq part).2.2.2.2.2]
      rfl

def finePrice : String := "100.000000000000000000000000000001"

def fineHours : ExactSeries :=
  ⟨[0, 1, 2].map fun h => ⟨h * hourMs, finePrice, finePrice⟩, by decide, by decide⟩

def fineRates : Rates := ⟨ofText "10", ofText "5"⟩

def finePolicy : Policy :=
  ⟨ofText "0.001", ofText "10000", fineRates, ⟨ofText "20", ofText "10"⟩⟩

def risingOnce : Indicator
  | 1 => some 2
  | _ => some 0

def level : Indicator := fun _ => some 1

end Search.Survivor

end TradingLab
