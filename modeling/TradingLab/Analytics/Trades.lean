import TradingLab.Backtest.FillEngine
import TradingLab.Decimal.Numeral
import TradingLab.Decimal.Sum

/-!
# Reconstructed trades

The accepted fills of a source are paired into completed trades, in their order. The
result of a trade is the sum of the cash effects of its two fills, and the results,
fees and slippage of all trades have to agree with the last accepted portfolio.
-/

namespace TradingLab

open Decimal

namespace Analytics

inductive AnalyticsError where
  | tradeReconstruction (message : String)
  | performanceMetrics (message : String)
  | segmentation (message : String)
deriving Repr, DecidableEq

def tradeSchemaVersion : ℤ := 1
def decimalPrecision : ℕ := 256
def maxRecords : ℕ := 4096
def insufficientEvidence : String := "INSUFFICIENT_EVIDENCE"

def plainDecimalPattern (s : String) : Bool := signedText s.length s.length s

def _decimal (value label : String) : Except AnalyticsError Decimal :=
  if plainDecimalPattern value then
    match Numeral.ofString value with
    | some (.finite d) => .ok d
    | some _ => .error (.tradeReconstruction (label ++ " is not finite"))
    | none => .error (.tradeReconstruction (label ++ " is invalid"))
  else .error (.tradeReconstruction (label ++ " is not a canonical decimal"))

def _sha (value label : String) : Except AnalyticsError Unit :=
  raiseIf (¬ Sha256.isHexDigest value) (.tradeReconstruction (label ++ " digest is invalid"))

inductive TradeAction where
  | enterLong
  | exitLong
deriving Repr, DecidableEq

def TradeAction.value : TradeAction → String
  | enterLong => "ENTER_LONG"
  | exitLong => "EXIT_LONG"

inductive PortfolioPosition where
  | long
  | flat
deriving Repr, DecidableEq

inductive TradeBookStatus where
  | noFills
  | opened
  | flat
deriving Repr, DecidableEq

def TradeBookStatus.value : TradeBookStatus → String
  | noFills => "NO_FILLS"
  | opened => "OPEN"
  | flat => "FLAT"

def PortfolioPosition.value : PortfolioPosition → String
  | long => "LONG"
  | flat => "FLAT"

namespace AcceptedTradeFill

structure Fields where
  fillEventSha256 : String
  authorizationSha256 : String
  intentSha256 : String
  orderStateSha256 : String
  fillStepSha256 : String
  fillIndex : ℤ
  action : TradeAction
  symbol : Symbol
  decisionTimeMs : ℤ
  fillTimeMs : ℤ
  quantity : String
  referencePrice : String
  reason : String
  feeBps : String
  slippageBps : String
  executionPrice : String
  grossQuote : String
  feeQuote : String
  slippageQuote : String
  cashDelta : String
  assetDelta : String
deriving Repr, DecidableEq

/-- The sign of an exit is changed in the surrounding context, not in the wide one. -/
def Fields.postInit (f : Fields) : Except AnalyticsError Unit := do
  _sha f.fillEventSha256 "Fill event"
  _sha f.authorizationSha256 "Authorization"
  _sha f.intentSha256 "Intent"
  _sha f.orderStateSha256 "Order state"
  _sha f.fillStepSha256 "Fill step"
  raiseIf (f.fillIndex < 0 ∨ f.decisionTimeMs < 0 ∨ f.fillTimeMs < f.decisionTimeMs ∨ f.reason = "")
    (.tradeReconstruction "Accepted trade fill identity is invalid")
  let quantity ← _decimal f.quantity "Fill quantity"
  let reference ← _decimal f.referencePrice "Reference price"
  let execution ← _decimal f.executionPrice "Execution price"
  let gross ← _decimal f.grossQuote "Gross quote"
  let fee ← _decimal f.feeQuote "Fee quote"
  let slippage ← _decimal f.slippageQuote "Slippage quote"
  let feeBps ← _decimal f.feeBps "Fee bps"
  let slippageBps ← _decimal f.slippageBps "Slippage bps"
  let cash ← _decimal f.cashDelta "Cash delta"
  let asset ← _decimal f.assetDelta "Asset delta"
  raiseIf (quantity ≤ 0 ∨ reference ≤ 0 ∨ execution ≤ 0 ∨ gross ≤ 0 ∨ fee < 0 ∨ slippage < 0 ∨
      feeBps < 0 ∨ slippageBps < 0)
    (.tradeReconstruction "Accepted fill economics are out of bounds")
  match f.action with
  | .enterLong =>
      raiseIf (0 ≤ cash ∨ ¬ asset ≈ quantity)
        (.tradeReconstruction "Entry fill cash/asset direction is inconsistent")
  | .exitLong =>
      raiseIf (cash ≤ 0 ∨ ¬ asset ≈ neg defaultPrecision quantity)
        (.tradeReconstruction "Exit fill cash/asset direction is inconsistent")

end AcceptedTradeFill

structure AcceptedTradeFill extends AcceptedTradeFill.Fields where
  valid : toFields.postInit = .ok ()
deriving DecidableEq

def AcceptedTradeFill.build (f : AcceptedTradeFill.Fields) :
    Except AnalyticsError AcceptedTradeFill :=
  construct f.postInit fun h => ⟨f, h⟩

def AcceptedTradeFill.asRecord (f : AcceptedTradeFill) : Json := .dict [
  ("fill_event_sha256", .str f.fillEventSha256),
  ("authorization_sha256", .str f.authorizationSha256),
  ("intent_sha256", .str f.intentSha256),
  ("order_state_sha256", .str f.orderStateSha256),
  ("fill_step_sha256", .str f.fillStepSha256),
  ("fill_index", .int f.fillIndex),
  ("action", .str f.action.value),
  ("symbol", .str f.symbol.value),
  ("decision_time_ms", .int f.decisionTimeMs),
  ("fill_time_ms", .int f.fillTimeMs),
  ("quantity", .str f.quantity),
  ("reference_price", .str f.referencePrice),
  ("reason", .str f.reason),
  ("fee_bps", .str f.feeBps),
  ("slippage_bps", .str f.slippageBps),
  ("execution_price", .str f.executionPrice),
  ("gross_quote", .str f.grossQuote),
  ("fee_quote", .str f.feeQuote),
  ("slippage_quote", .str f.slippageQuote),
  ("cash_delta", .str f.cashDelta),
  ("asset_delta", .str f.assetDelta)]

namespace CompletedPaperTrade

structure Fields where
  tradeIndex : ℤ
  symbol : Symbol
  entry : AcceptedTradeFill
  exit : AcceptedTradeFill
  realizedPnlQuote : String
  totalFeeQuote : String
  totalSlippageQuote : String
  holdingTimeMs : ℤ
deriving DecidableEq

def Fields.postInit (t : Fields) : Except AnalyticsError Unit := do
  raiseIf (t.tradeIndex < 0 ∨ t.entry.symbol ≠ t.symbol ∨ t.exit.symbol ≠ t.symbol ∨
      t.entry.action ≠ .enterLong ∨ t.exit.action ≠ .exitLong ∨
      t.entry.quantity ≠ t.exit.quantity ∨ t.exit.fillTimeMs < t.entry.fillTimeMs ∨
      t.holdingTimeMs ≠ t.exit.fillTimeMs - t.entry.fillTimeMs)
    (.tradeReconstruction "Completed Paper trade identity is invalid")
  let entryCash ← _decimal t.entry.cashDelta "Entry cash delta"
  let exitCash ← _decimal t.exit.cashDelta "Exit cash delta"
  let entryFee ← _decimal t.entry.feeQuote "Entry fee"
  let exitFee ← _decimal t.exit.feeQuote "Exit fee"
  let entrySlippage ← _decimal t.entry.slippageQuote "Entry slippage"
  let exitSlippage ← _decimal t.exit.slippageQuote "Exit slippage"
  let realized ← _decimal t.realizedPnlQuote "Realized PnL"
  let fees ← _decimal t.totalFeeQuote "Trade fee"
  let slippage ← _decimal t.totalSlippageQuote "Trade slippage"
  raiseIf (¬ realized ≈ add decimalPrecision entryCash exitCash ∨
      ¬ fees ≈ add decimalPrecision entryFee exitFee ∨
      ¬ slippage ≈ add decimalPrecision entrySlippage exitSlippage)
    (.tradeReconstruction "Completed trade arithmetic differs from accepted fill cash effects")

end CompletedPaperTrade

structure CompletedPaperTrade extends CompletedPaperTrade.Fields where
  valid : toFields.postInit = .ok ()
deriving DecidableEq

namespace CompletedPaperTrade

def build (t : Fields) : Except AnalyticsError CompletedPaperTrade :=
  construct t.postInit fun h => ⟨t, h⟩

def entries (t : CompletedPaperTrade) : List (String × Json) := [
  ("trade_index", .int t.tradeIndex),
  ("symbol", .str t.symbol.value),
  ("entry", t.entry.asRecord),
  ("exit", t.exit.asRecord),
  ("realized_pnl_quote", .str t.realizedPnlQuote),
  ("total_fee_quote", .str t.totalFeeQuote),
  ("total_slippage_quote", .str t.totalSlippageQuote),
  ("holding_time_ms", .int t.holdingTimeMs),
  ("strategy_evidence", .str insufficientEvidence),
  ("economics_source", .str "ACCEPTED_P5_FILL_CASH_EFFECTS")]

def asRecord (t : CompletedPaperTrade) : Json := .dict t.entries

def tradeSha256 (t : CompletedPaperTrade) : String := (Json.dict [
  ("schema_version", .int tradeSchemaVersion),
  ("trade", t.asRecord)]).sha256

end CompletedPaperTrade

structure OpenPaperTrade where
  symbol : Symbol
  entry : AcceptedTradeFill
  valid : entry.symbol = symbol ∧ entry.action = .enterLong
deriving DecidableEq

namespace OpenPaperTrade

def build (symbol : Symbol) (entry : AcceptedTradeFill) : Except AnalyticsError OpenPaperTrade :=
  if h : entry.symbol = symbol ∧ entry.action = .enterLong then .ok ⟨symbol, entry, h⟩
  else .error (.tradeReconstruction "Open Paper trade identity is invalid")

def entries (t : OpenPaperTrade) : List (String × Json) := [
  ("symbol", .str t.symbol.value),
  ("status", .str "OPEN"),
  ("entry", t.entry.asRecord),
  ("realized_pnl_quote", .null),
  ("strategy_evidence", .str insufficientEvidence)]

def asRecord (t : OpenPaperTrade) : Json := .dict t.entries

def openTradeSha256 (t : OpenPaperTrade) : String := (Json.dict [
  ("schema_version", .int tradeSchemaVersion),
  ("open_trade", t.asRecord)]).sha256

end OpenPaperTrade

namespace FinalPortfolioEvidence

structure Fields where
  projectionSha256 : String
  position : PortfolioPosition
  assetQuantity : String
  costBasisQuote : String
  realizedPnlQuote : String
  totalFeeQuote : String
  totalSlippageQuote : String
  closedTrades : ℤ
deriving Repr, DecidableEq

def Fields.postInit (p : Fields) : Except AnalyticsError Unit := do
  _sha p.projectionSha256 "Portfolio projection"
  raiseIf (p.closedTrades < 0) (.tradeReconstruction "Final portfolio identity is invalid")
  let quantity ← _decimal p.assetQuantity "Final asset quantity"
  let costBasis ← _decimal p.costBasisQuote "Final cost basis"
  let _ ← _decimal p.realizedPnlQuote "Final realized PnL"
  let fee ← _decimal p.totalFeeQuote "Final total fee"
  let slippage ← _decimal p.totalSlippageQuote "Final total slippage"
  raiseIf (quantity < 0 ∨ costBasis < 0 ∨ fee < 0 ∨ slippage < 0)
    (.tradeReconstruction "Final portfolio values are out of bounds")
  raiseIf (¬ (p.position = .flat ↔ quantity ≈ 0 ∧ costBasis ≈ 0))
    (.tradeReconstruction "Final portfolio position and balances disagree")

end FinalPortfolioEvidence

structure FinalPortfolioEvidence extends FinalPortfolioEvidence.Fields where
  valid : toFields.postInit = .ok ()
deriving DecidableEq

namespace FinalPortfolioEvidence

def build (p : Fields) : Except AnalyticsError FinalPortfolioEvidence :=
  construct p.postInit fun h => ⟨p, h⟩

def asRecord (p : FinalPortfolioEvidence) : Json := .dict [
  ("projection_sha256", .str p.projectionSha256),
  ("position", .str p.position.value),
  ("asset_quantity", .str p.assetQuantity),
  ("cost_basis_quote", .str p.costBasisQuote),
  ("realized_pnl_quote", .str p.realizedPnlQuote),
  ("total_fee_quote", .str p.totalFeeQuote),
  ("total_slippage_quote", .str p.totalSlippageQuote),
  ("closed_trades", .int p.closedTrades)]

end FinalPortfolioEvidence

end Analytics

end TradingLab
