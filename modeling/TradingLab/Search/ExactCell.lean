import TradingLab.Alike
import TradingLab.Decimal.Congr
import TradingLab.Decimal.Sign
import TradingLab.Search.Series

/-!
# The exact cell of the survivor ranking

The frozen reference of all control conditions: one position of a fixed quantity,
entered and left at the open of the next bar, with a base and a stress account that
are charged in a context of 256 digits.
-/

namespace TradingLab

open Decimal

namespace Search.Survivor

def _plain (d : Decimal) : String :=
  if d ≈ 0 then "0" else String.ofList (trimFraction (fixed d).toList)

def _sum (values : List Decimal) : Decimal := sum decimalPrecision values

/-- The gains for each unit lost. -/
def _profitFactor (grossProfit grossLoss : Decimal) : Option String × Bool :=
  if grossLoss ≈ 0 then (none, decide (0 < grossProfit))
  else (some (_plain (quotient decimalPrecision grossProfit grossLoss)), false)

/-- The share of each of a number of items; of none it is what is said for none. -/
def meanOf (total : Decimal) (count : ℕ) (none : Decimal) : Decimal :=
  if count = 0 then none else quotient decimalPrecision total (ofInt count 0)

/-- The middle of the sorted values, or the mean of the two in the middle. -/
def _medianDecimal (values : List Decimal) : Except SearchError Decimal :=
  let ordered := values.mergeSort fun a b => decide (a ≤ b)
  let n := ordered.length
  match ordered[n / 2]?, ordered[n / 2 - 1]? with
  | some upper, some lower =>
      if n % 2 = 1 then .ok upper
      else .ok (quotient decimalPrecision (add decimalPrecision lower upper) (ofInt 2 0))
  | _, _ => .error (.survivor "cannot compute median of empty values")

structure _Account where
  cash : Decimal
  entryDebit : Option Decimal
  realized : List Decimal
  totalFee : Decimal
  totalSlippage : Decimal
deriving DecidableEq

def _newAccount (initial : Decimal) : _Account := ⟨initial, none, [], 0, 0⟩

namespace _Account

variable (a : _Account) (r : Rates) (reference quantity : Decimal)

/-- The totals of the costs are added up in the default context. -/
def charged (c : Costed) : _Account :=
  { a with
    totalFee := add defaultPrecision a.totalFee c.fee
    totalSlippage := add defaultPrecision a.totalSlippage c.slippage }

def _entry : Except SearchError _Account := do
  raiseIf (a.entryDebit.isSome = true) (.survivor "HSSE-003 overlapping exact entry")
  let c := r.bought reference quantity
  let cash := sub decimalPrecision a.cash c.debit
  raiseIf (cash < 0) (.survivor "HSSE-003 exact account has insufficient cash")
  return { a.charged c with cash, entryDebit := some c.debit }

def _exit : Except SearchError _Account :=
  match a.entryDebit with
  | none => .error (.survivor "HSSE-003 exact exit has no entry")
  | some debit =>
      let c := r.sold reference quantity
      .ok { a.charged c with
        cash := add decimalPrecision a.cash c.proceeds
        realized := a.realized ++ [sub decimalPrecision c.proceeds debit]
        entryDebit := none }

def _equity (mark : Decimal) : Decimal :=
  match a.entryDebit with
  | none => a.cash
  | some _ => add decimalPrecision a.cash (r.liquidation mark quantity)

end _Account

structure CellState where
  base : _Account
  stress : _Account
  position : Bool
  missing : ℕ
  entryFills : ℕ
  exitFills : ℕ
  drawdown : Drawdown
deriving DecidableEq

namespace CellState

variable (s : CellState) (p : Policy) (reference : Decimal)

def init : CellState where
  base := _newAccount p.initialEquityQuote
  stress := _newAccount p.initialEquityQuote
  position := false
  missing := 0
  entryFills := 0
  exitFills := 0
  drawdown := ⟨p.initialEquityQuote, 0⟩

def entered : Except SearchError CellState := do
  let base ← s.base._entry p.base reference p.quantity
  let stress ← s.stress._entry p.stress reference p.quantity
  return { s with base, stress, position := true, entryFills := s.entryFills + 1 }

def exited : Except SearchError CellState := do
  let base ← s.base._exit p.base reference p.quantity
  let stress ← s.stress._exit p.stress reference p.quantity
  return { s with base, stress, position := false, exitFills := s.exitFills + 1 }

/-- The mark of a bar. -/
def marked (bar : Bar String) : Except SearchError CellState := do
  let drawdown ← s.drawdown.mark (s.base._equity p.base p.quantity (ofText bar.closing))
  return { s with drawdown }

end CellState

section Cell
variable (bars : List (Bar String)) (shortValues longValues : Indicator) (p : Policy) (stop : ℕ)

/-- A decision is filled at the next open, or counted as missing. -/
def fill (s : CellState) (i : ℕ) (v : Values) : Except SearchError CellState :=
  if !v.enter s.position && !v.exits s.position then .ok s
  else match fillBar bars stop i with
    | none => .ok { s with missing := s.missing + 1 }
    | some next =>
        if v.enter s.position then s.entered p (ofText next.opening)
        else s.exited p (ofText next.opening)

def step (s : CellState) (i : ℕ) : Except SearchError CellState := do
  let bar ← barAt bars i
  let s ← s.marked p bar
  if i = 0 then return s
  else match valuesAt shortValues longValues i with
    | none => return s
    | some v => fill bars p stop s i v

/-- The cell after some of its bars. -/
def loop (is : List ℕ) : Except SearchError CellState :=
  is.foldlM (step bars shortValues longValues p stop) (.init p)

end Cell

/-- The drawdown of the first bar divides by the initial equity. -/
theorem initial_ne_zero {bars : List (Bar String)} {shortValues longValues : Indicator} {p : Policy}
    {stop : ℕ} {s : CellState} {is : List ℕ} (hne : is ≠ [])
    (h : loop bars shortValues longValues p stop is = .ok s) :
    p.initialEquityQuote.coefficient ≠ 0 := by
  intro hzero
  have hbelow : Drawdown.below p.initialEquityQuote p.initialEquityQuote = .error .decimal := by
    unfold Drawdown.below div?
    rw [if_pos hzero]
  have hlarger : larger p.initialEquityQuote p.initialEquityQuote = p.initialEquityQuote := by
    unfold larger
    exact ite_self _
  have hmark : ∀ bar, (CellState.init p).marked p bar = .error .decimal := by
    intro bar
    change ((Drawdown.below (larger p.initialEquityQuote p.initialEquityQuote)
      p.initialEquityQuote >>= _) >>= _) = _
    rw [hlarger, hbelow]
    rfl
  cases is with
  | nil => exact hne rfl
  | cons i is =>
    unfold loop at h
    rw [List.foldlM_cons] at h
    obtain ⟨s', hstep, -⟩ := bind_eq_ok.mp h
    unfold step at hstep
    obtain ⟨bar, -, hstep⟩ := bind_eq_ok.mp hstep
    rw [hmark] at hstep
    cases hstep

structure BaseResult where
  netPnlAfterCostsQuote : String
  netReturnAfterCosts : String
  realizedClosedTradePnlQuote : String
  grossProfitQuote : String
  grossLossQuote : String
  largestPositiveTradeQuote : String
  executedFeeQuote : String
  executedSlippageQuote : String
  maximumDrawdownFraction : String
deriving Repr, DecidableEq

structure StressResult where
  netPnlAfterCostsQuote : String
  netReturnAfterCosts : String
  realizedClosedTradePnlQuote : String
deriving Repr, DecidableEq

structure ExactResult where
  completedTrades : ℕ
  wins : ℕ
  losses : ℕ
  breakeven : ℕ
  entryFills : ℕ
  exitFills : ℕ
  missingFillSignals : ℕ
  openPositionAtEnd : Bool
  base : BaseResult
  stress : StressResult
deriving Repr, DecidableEq

/-- A result as a part of the initial equity. -/
def returnOf (net initial : Decimal) : Except SearchError Decimal :=
  match div? decimalPrecision net initial with
  | none => .error .decimal
  | some value => .ok value

theorem returnOf_eq (net : Decimal) {initial : Decimal} (h : initial.coefficient ≠ 0) :
    returnOf net initial = .ok (quotient decimalPrecision net initial) := by
  unfold returnOf div?
  rw [if_neg h]

def CellState.result (s : CellState) (p : Policy) (finalMark : Decimal) :
    Except SearchError ExactResult := do
  let baseFinal := s.base._equity p.base p.quantity finalMark
  let stressFinal := s.stress._equity p.stress p.quantity finalMark
  let maximumDrawdown ← s.drawdown.close baseFinal
  let wins := s.base.realized.filter fun x => 0 < x
  let losses := s.base.realized.filter fun x => x < 0
  let baseNet := sub decimalPrecision baseFinal p.initialEquityQuote
  let stressNet := sub decimalPrecision stressFinal p.initialEquityQuote
  let baseReturn ← returnOf baseNet p.initialEquityQuote
  let stressReturn ← returnOf stressNet p.initialEquityQuote
  return {
    completedTrades := s.base.realized.length
    wins := wins.length
    losses := losses.length
    breakeven := s.base.realized.length - wins.length - losses.length
    entryFills := s.entryFills
    exitFills := s.exitFills
    missingFillSignals := s.missing
    openPositionAtEnd := s.position
    base := {
      netPnlAfterCostsQuote := _plain baseNet
      netReturnAfterCosts := _plain baseReturn
      realizedClosedTradePnlQuote := _plain (_sum s.base.realized)
      grossProfitQuote := _plain (_sum wins)
      grossLossQuote := _plain (neg defaultPrecision (_sum losses))
      largestPositiveTradeQuote := _plain ((wins.tail.foldl larger (wins.headD 0)))
      executedFeeQuote := _plain s.base.totalFee
      executedSlippageQuote := _plain s.base.totalSlippage
      maximumDrawdownFraction := _plain maximumDrawdown }
    stress := {
      netPnlAfterCostsQuote := _plain stressNet
      netReturnAfterCosts := _plain stressReturn
      realizedClosedTradePnlQuote := _plain (_sum s.stress.realized) } }

def _exactCell {P : Type} (exact : ExactSeries) (signal : BarSeries P)
    (shortValues longValues : Indicator) (startMs endMs : ℤ) (p : Policy) :
    Except SearchError ExactResult := do
  raiseIf (exact.times ≠ signal.times) (.survivor "exact and signal series timestamps differ")
  let start := bisectLeft exact.times startMs
  let stop := bisectLeft exact.times endMs
  raiseIf (stop ≤ start) (.survivor "HSSE-003 exact cell is empty")
  let s ← loop exact.bars shortValues longValues p stop (windowBars start stop)
  let last ← barAt exact.bars (stop - 1)
  s.result p (ofText last.closing)

end Search.Survivor

end TradingLab

/-!
## Costs, drawdowns and texts of equal numbers

The numerals of an account may differ in their zeros. What is charged, marked, summed
up and written depends on the numbers only.
-/

namespace TradingLab

open Decimal

theorem defaultPrecision_pos : 0 < defaultPrecision := by decide

namespace Search

/-- Lists of equal numbers. -/
abbrev Equals (xs ys : List Decimal) : Prop := List.Forall₂ (fun x y => x ≈ y) xs ys

theorem equals_refl (xs : List Decimal) : Equals xs xs :=
  List.forall₂_same.mpr fun _ _ => equiv_refl _

namespace Costed

structure Same (c d : Costed) : Prop where
  gross : c.gross ≈ d.gross
  fee : c.fee ≈ d.fee
  slippage : c.slippage ≈ d.slippage

variable {c d : Costed}

theorem Same.debit (h : Same c d) : c.debit ≈ d.debit :=
  add_congr decimalPrecision_pos h.gross h.fee

theorem Same.proceeds (h : Same c d) : c.proceeds ≈ d.proceeds :=
  sub_congr decimalPrecision_pos h.gross h.fee

end Costed

namespace Rates

variable (r : Rates) (reference : Decimal) {quantity quantity' : Decimal}

theorem bought_congr (h : quantity ≈ quantity') :
    (r.bought reference quantity).Same (r.bought reference quantity') := by
  unfold bought
  constructor <;> dsimp only
  · exact mul_congr decimalPrecision_pos h rfl
  · exact mul_congr decimalPrecision_pos (mul_congr decimalPrecision_pos h rfl) rfl
  · exact mul_congr decimalPrecision_pos h rfl

theorem sold_congr (h : quantity ≈ quantity') :
    (r.sold reference quantity).Same (r.sold reference quantity') := by
  unfold sold
  constructor <;> dsimp only
  · exact mul_congr decimalPrecision_pos h rfl
  · exact mul_congr decimalPrecision_pos (mul_congr decimalPrecision_pos h rfl) rfl
  · exact mul_congr decimalPrecision_pos h rfl

theorem liquidation_congr (h : quantity ≈ quantity') :
    r.liquidation reference quantity ≈ r.liquidation reference quantity' :=
  mul_congr decimalPrecision_pos (r.sold_congr reference h).gross rfl

end Rates

namespace Drawdown

structure Same (d e : Drawdown) : Prop where
  peak : d.peak ≈ e.peak
  maximum : d.maximum ≈ e.maximum

variable {d e : Drawdown} {x y : Decimal}

theorem alike_below {peak peak' : Decimal} (hpeak : peak ≈ peak') (h : x ≈ y) :
    Alike (fun a b => a ≈ b) (below peak x) (below peak' y) := by
  unfold below
  generalize hd : div? decimalPrecision (sub decimalPrecision peak x) peak = d
  generalize he : div? decimalPrecision (sub decimalPrecision peak' y) peak' = e
  have hdiv := div?_congr decimalPrecision_pos (sub_congr decimalPrecision_pos hpeak h) hpeak
  rw [hd, he] at hdiv
  cases hdiv with
  | none => exact .error _ _
  | some hab => exact .ok hab

theorem alike_mark (h : d.Same e) (hxy : x ≈ y) : Alike Same (d.mark x) (e.mark y) := by
  have hpeak := larger_congr h.peak hxy
  unfold mark
  apply (alike_below hpeak hxy).bind
  intro a b hab
  exact .ok ⟨hpeak, larger_congr h.maximum hab⟩

theorem alike_close (h : d.Same e) (hxy : x ≈ y) :
    Alike (fun a b => a ≈ b) (d.close x) (e.close y) := by
  unfold close
  apply (alike_below h.peak hxy).bind
  intro a b hab
  exact .ok (larger_congr h.maximum hab)

end Drawdown

namespace Survivor

variable {xs ys : List Decimal} {x y : Decimal}

theorem negative_congr (h : x ≈ y) (hx : ¬ x ≈ 0) : x.negative = y.negative := by
  have hzero : x.coefficient ≠ 0 := by
    intro hc
    exact hx (equiv_def.mpr (by rw [toRat_zero, toRat_eq_zero_iff, hc]))
  have hzero' : y.coefficient ≠ 0 := fun hc => hzero ((coefficient_eq_zero_congr h).mpr hc)
  have hpos : 0 < x.toRat ↔ 0 < y.toRat := by rw [equiv_def.mp h]
  rw [toRat_pos_iff, toRat_pos_iff] at hpos
  cases hx : x.negative <;> cases hy : y.negative <;> simp_all

theorem _plain_congr (h : x ≈ y) : _plain x = _plain y := by
  unfold _plain
  by_cases hx : x ≈ 0
  · rw [if_pos hx, if_pos (equiv_trans (equiv_symm h) hx)]
  · rw [if_neg hx, if_neg fun hy => hx (equiv_trans h hy)]
    exact trimFraction_congr (negative_congr h hx) h

theorem meanOf_congr (h : x ≈ y) (count : ℕ) (none : Decimal) :
    meanOf x count none ≈ meanOf y count none := by
  unfold meanOf
  split
  · rfl
  · exact quotient_congr_left decimalPrecision_pos h _

theorem _profitFactor_congr {x' y' : Decimal} (hx : x ≈ x') (hy : y ≈ y') :
    _profitFactor x y = _profitFactor x' y' := by
  unfold _profitFactor
  by_cases hzero : y ≈ 0
  · have hpos : 0 < x ↔ 0 < x' := lt_congr rfl hx
    rw [if_pos hzero, if_pos (equiv_trans (equiv_symm hy) hzero), decide_eq_decide.mpr hpos]
  · have hcoefficient : y.coefficient ≠ 0 := by
      intro hc
      exact hzero (equiv_def.mpr (by rw [toRat_zero, toRat_eq_zero_iff, hc]))
    rw [if_neg hzero, if_neg fun hzero' => hzero (equiv_trans hy hzero'),
      _plain_congr (quotient_congr decimalPrecision_pos hx hy hcoefficient)]

theorem gains_congr (h : Equals xs ys) :
    Equals (xs.filter fun d => 0 < d) (ys.filter fun d => 0 < d) := by
  apply List.rel_filter _ h
  intro d e hde
  simp only [decide_eq_true_eq]
  exact lt_congr rfl hde

theorem losses_congr (h : Equals xs ys) :
    Equals (xs.filter fun d => d < 0) (ys.filter fun d => d < 0) := by
  apply List.rel_filter _ h
  intro d e hde
  simp only [decide_eq_true_eq]
  exact lt_congr hde rfl

theorem _sum_congr (h : Equals xs ys) : _sum xs ≈ _sum ys := sum_congr decimalPrecision_pos h

end Survivor

end Search

end TradingLab
