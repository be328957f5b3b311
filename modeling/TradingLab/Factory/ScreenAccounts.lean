import TradingLab.Json.Arithmetic
import TradingLab.Search.ExactCell

/-!
# The two accounts of a screening

A rule is screened over its signals with an account in binary floating point, and
recomputed with the decimal account of the survivor ranking. A signal is filled at
the next open; both accounts mark every bar after the first one.
-/

namespace TradingLab

open Decimal Json

namespace Factory.Screening

inductive ScreenError where
  | mcf (message : String)
  | search (e : Search.SearchError)
  /-- A text that is not a finite number. -/
  | value
  /-- An integer that is too large for `float`. -/
  | overflow
  | zeroDivision
deriving Repr, DecidableEq

def number (text : String) : Except ScreenError Decimal :=
  match Numeral.ofString text with
  | some (.finite d) => .ok d
  | _ => .error .value

structure CostPolicy where
  ref : String
  quantity : String
  initialEquity : String
  baseFeeBps : String
  baseSlippageBps : String
  stressFeeBps : String
  stressSlippageBps : String
deriving Repr, DecidableEq

structure Amounts where
  quantity : Decimal
  initialEquity : Decimal
  base : Search.Rates
  stress : Search.Rates
deriving DecidableEq

def CostPolicy.amount (text : String) : Except ScreenError Decimal :=
  match Numeral.ofString text with
  | none => .error .value
  | some (.finite d) => .ok d
  | some _ => .error (.mcf "invalid cost policy")

def CostPolicy.validate (p : CostPolicy) : Except ScreenError Amounts := do
  raiseIf (¬ "/v1".toList.isSuffixOf p.ref.toList) (.mcf "unversioned cost policy")
  let quantity ← amount p.quantity
  let initialEquity ← amount p.initialEquity
  let baseFee ← amount p.baseFeeBps
  let baseSlippage ← amount p.baseSlippageBps
  let stressFee ← amount p.stressFeeBps
  let stressSlippage ← amount p.stressSlippageBps
  raiseIf (quantity ≤ 0 ∨ initialEquity ≤ 0 ∨
      ∃ rate ∈ [baseFee, baseSlippage, stressFee, stressSlippage], rate < 0)
    (.mcf "invalid cost policy")
  return ⟨quantity, initialEquity, ⟨baseFee, baseSlippage⟩, ⟨stressFee, stressSlippage⟩⟩

def Amounts.rates (a : Amounts) (stress : Bool) : Search.Rates := if stress then a.stress else a.base

/-- What is filled and marked at a bar: the signal of the bar before it, its open and close. -/
structure Bar where
  signal : Bool
  opening : String
  closing : String
deriving Repr, DecidableEq

structure Series where
  signals : List Bool
  opens : List String
  closes : List String
deriving Repr, DecidableEq

namespace Series

/-- The bars after the first one. -/
def bars (s : Series) : List Bar :=
  s.signals.zipWith (fun signal prices => ⟨signal, prices.1, prices.2⟩)
    ((s.opens.drop 1).zip (s.closes.drop 1))

/-- `closes[-1]` -/
def lastClose (s : Series) : Except ScreenError String :=
  match s.closes.getLast? with
  | some text => .ok text
  | none => .error (.search .index)

/-- The series from one index up to another. -/
def slice (s : Series) (fold : ℕ × ℕ) : Series :=
  let cut := fun {α : Type} (xs : List α) => (xs.take fold.2).drop fold.1
  ⟨cut s.signals, cut s.opens, cut s.closes⟩

end Series

/-- The rates of an account, as fractions. -/
structure FloatCosts where
  quantity : Binary64
  fee : Binary64
  slip : Binary64
deriving DecidableEq

def fraction (bps : Decimal) : Binary64 :=
  ((Binary64.ofExact bps).div? (Binary64.ofNat 10000)).getD .nan

def Amounts.float (a : Amounts) (stress : Bool) : FloatCosts :=
  ⟨.ofExact a.quantity, fraction (a.rates stress).feeBps, fraction (a.rates stress).slippageBps⟩

structure FloatAccount where
  cash : Binary64
  debit : Option Binary64
  peak : Binary64
  drawdown : Binary64
  fills : ℕ
  realized : Binary64
  fees : Binary64
  slippage : Binary64
deriving DecidableEq

def one : Binary64 := Binary64.ofNat 1
def zero : Binary64 := .finite false 0

/-- `-1e-10` -/
def cashTolerance : Binary64 := Binary64.ofExact ⟨true, 1, -10⟩

namespace FloatAccount

variable (c : FloatCosts) (s : FloatAccount)

def init (initial : Binary64) : FloatAccount := ⟨initial, none, initial, zero, 0, zero, zero, zero⟩

def entered (price : Binary64) : Except ScreenError FloatAccount := do
  let ex := price.mul (one.add c.slip)
  let gross := c.quantity.mul ex
  let cost := gross.mul c.fee
  let debit := gross.add cost
  let cash := s.cash.sub debit
  raiseIf (cash.lt cashTolerance = true) (.mcf "insufficient cash")
  return { s with
    cash
    debit := some debit
    fills := s.fills + 1
    fees := s.fees.add cost
    slippage := s.slippage.add (c.quantity.mul (ex.sub price)) }

def exited (debit price : Binary64) : FloatAccount :=
  let ex := price.mul (one.sub c.slip)
  let gross := c.quantity.mul ex
  let cost := gross.mul c.fee
  let proceeds := gross.sub cost
  { s with
    cash := s.cash.add proceeds
    realized := s.realized.add (proceeds.sub debit)
    debit := none
    fills := s.fills + 1
    fees := s.fees.add cost
    slippage := s.slippage.add (c.quantity.mul (price.sub ex)) }

/-- The fill of a bar. -/
def filled (signal : Bool) (price : Binary64) : Except ScreenError FloatAccount :=
  match s.debit with
  | none => if signal then s.entered c price else .ok s
  | some debit => if signal then .ok s else .ok (s.exited c debit price)

/-- The cash with what the position brings at a mark. -/
def equity (mark : Binary64) : Binary64 :=
  s.cash.add (match s.debit with
    | some _ => ((c.quantity.mul mark).mul (one.sub c.slip)).mul (one.sub c.fee)
    | none => zero)

def marked (mark : Binary64) : Except ScreenError FloatAccount :=
  let eq := s.equity c mark
  let peak := s.peak.larger eq
  match (peak.sub eq).div? peak with
  | none => .error .zeroDivision
  | some below => .ok { s with peak, drawdown := s.drawdown.larger below }

def step (bar : Bar) : Except ScreenError FloatAccount := do
  let price ← number bar.opening
  let s ← s.filled c bar.signal (.ofExact price)
  let mark ← number bar.closing
  s.marked c (.ofExact mark)

end FloatAccount

structure FloatResult where
  net : Binary64
  maximumDrawdownFraction : Binary64
  fills : ℕ
  realized : Binary64
  fees : Binary64
  slippage : Binary64
deriving DecidableEq

def floatAccount (series : Series) (policy : CostPolicy) (stress : Bool) :
    Except ScreenError FloatResult := do
  let amounts ← policy.validate
  let costs := amounts.float stress
  let initial := Binary64.ofExact amounts.initialEquity
  let s ← series.bars.foldlM (FloatAccount.step costs) (.init initial)
  let mark ← series.lastClose >>= number
  return {
    net := (s.equity costs (.ofExact mark)).sub initial
    maximumDrawdownFraction := s.drawdown
    fills := s.fills
    realized := s.realized
    fees := s.fees
    slippage := s.slippage }

structure ExactState where
  account : Search.Survivor._Account
  equityPeak : Decimal
  drawdown : Decimal
  fills : ℕ
deriving DecidableEq

namespace ExactState

open Search.Survivor

variable (r : Search.Rates) (quantity : Decimal) (s : ExactState)

def init (initial : Decimal) : ExactState := ⟨_newAccount initial, initial, 0, 0⟩

/-- Both totals are added up in the context of the caller. -/
def charged (before after : _Account) (c : Search.Costed) : _Account :=
  { after with
    totalFee := add decimalPrecision before.totalFee c.fee
    totalSlippage := add decimalPrecision before.totalSlippage c.slippage }

def entered (price : Decimal) : Except ScreenError ExactState := do
  let account ← (s.account._entry r price quantity).mapError .search
  return { s with
    account := charged s.account account (r.bought price quantity)
    fills := s.fills + 1 }

def exited (price : Decimal) : Except ScreenError ExactState := do
  let account ← (s.account._exit r price quantity).mapError .search
  return { s with
    account := charged s.account account (r.sold price quantity)
    fills := s.fills + 1 }

def filled (signal : Bool) (price : Decimal) : Except ScreenError ExactState :=
  match s.account.entryDebit with
  | none => if signal then s.entered r quantity price else .ok s
  | some _ => if signal then .ok s else s.exited r quantity price

def marked (mark : Decimal) : ExactState :=
  let eq := s.account._equity r quantity mark
  let peak := larger s.equityPeak eq
  { s with
    equityPeak := peak
    drawdown := larger s.drawdown (quotient decimalPrecision (sub decimalPrecision peak eq) peak) }

def step (bar : Bar) : Except ScreenError ExactState := do
  let price ← number bar.opening
  let s ← s.filled r quantity bar.signal price
  let mark ← number bar.closing
  return s.marked r quantity mark

end ExactState

structure ExactResult where
  net : Decimal
  maximumDrawdownFraction : Decimal
  fills : ℕ
  realized : Decimal
  fees : Decimal
  slippage : Decimal
deriving DecidableEq

def account (series : Series) (policy : CostPolicy) (stress : Bool) :
    Except ScreenError ExactResult := do
  let amounts ← policy.validate
  raiseIf (series.signals.length ≠ series.opens.length ∨
      series.opens.length ≠ series.closes.length ∨ series.opens.length < 2)
    (.mcf "series lengths")
  let r := amounts.rates stress
  let s ← series.bars.foldlM (ExactState.step r amounts.quantity) (.init amounts.initialEquity)
  let mark ← series.lastClose >>= number
  let final := s.account._equity r amounts.quantity mark
  return {
    net := sub decimalPrecision final amounts.initialEquity
    maximumDrawdownFraction := s.drawdown
    fills := s.fills
    realized := sum decimalPrecision s.account.realized
    fees := s.account.totalFee
    slippage := s.account.totalSlippage }

end Factory.Screening

end TradingLab
