import TradingLab.Analytics.Trades

/-!
# The reconstruction of a trade book

The fills and the portfolio of a source, as they were validated, are turned into
completed trades, at most one open trade, and the evidence of the final portfolio.
-/

namespace TradingLab

open Decimal

namespace Analytics

structure FillPayload where
  action : TradeAction
  symbol : Symbol
  decisionTimeMs : ℤ
  fillTimeMs : ℤ
  quantity : String
  referencePrice : String
  reason : String
  feeBps : String
  slippageBps : String
  executionPrice : String
  grossQuote : String
  feeQuote : String
  slippageQuote : String
  cashDelta : String
  assetDelta : String
deriving Repr, DecidableEq

structure FillEvent where
  fillEventSha256 : String
  authorizationSha256 : String
  intentSha256 : String
  orderStateSha256 : String
  fillStepSha256 : String
  fillIndex : ℤ
  payload : FillPayload
deriving Repr, DecidableEq

/-- The validated fills of a source in their order, which are as many as are read at most, its
portfolio, and the timeline they are part of. -/
structure P5Evidence where
  snapshotTimeMs : ℤ
  symbol : Symbol
  timelineSha256 : String
  fills : List FillEvent
  projection : Option FinalPortfolioEvidence.Fields
  bounded : fills.length ≤ maxRecords

def _acceptedFill (item : FillEvent) : Except AnalyticsError AcceptedTradeFill :=
  AcceptedTradeFill.build {
    fillEventSha256 := item.fillEventSha256
    authorizationSha256 := item.authorizationSha256
    intentSha256 := item.intentSha256
    orderStateSha256 := item.orderStateSha256
    fillStepSha256 := item.fillStepSha256
    fillIndex := item.fillIndex
    action := item.payload.action
    symbol := item.payload.symbol
    decisionTimeMs := item.payload.decisionTimeMs
    fillTimeMs := item.payload.fillTimeMs
    quantity := item.payload.quantity
    referencePrice := item.payload.referencePrice
    reason := item.payload.reason
    feeBps := item.payload.feeBps
    slippageBps := item.payload.slippageBps
    executionPrice := item.payload.executionPrice
    grossQuote := item.payload.grossQuote
    feeQuote := item.payload.feeQuote
    slippageQuote := item.payload.slippageQuote
    cashDelta := item.payload.cashDelta
    assetDelta := item.payload.assetDelta }

def _portfolioEvidence :
    Option FinalPortfolioEvidence.Fields → Except AnalyticsError (Option FinalPortfolioEvidence)
  | none => .ok none
  | some p => some <$> FinalPortfolioEvidence.build p

structure Episodes where
  completed : List CompletedPaperTrade
  openEntry : Option AcceptedTradeFill
  acceptedFills : List AcceptedTradeFill

/-- The trade that an exit completes. -/
def _completedTrade (symbol : Symbol) (index : ℕ) (entry fill : AcceptedTradeFill) :
    Except AnalyticsError CompletedPaperTrade := do
  let entryCash ← _decimal entry.cashDelta "Entry cash delta"
  let exitCash ← _decimal fill.cashDelta "Exit cash delta"
  let entryFee ← _decimal entry.feeQuote "Entry fee"
  let exitFee ← _decimal fill.feeQuote "Exit fee"
  let entrySlippage ← _decimal entry.slippageQuote "Entry slippage"
  let exitSlippage ← _decimal fill.slippageQuote "Exit slippage"
  CompletedPaperTrade.build {
    tradeIndex := index
    symbol
    entry
    exit := fill
    realizedPnlQuote := (add decimalPrecision entryCash exitCash).fixed
    totalFeeQuote := (add decimalPrecision entryFee exitFee).fixed
    totalSlippageQuote := (add decimalPrecision entrySlippage exitSlippage).fixed
    holdingTimeMs := fill.fillTimeMs - entry.fillTimeMs }

def Episodes.next (symbol : Symbol) (s : Episodes) (item : FillEvent) :
    Except AnalyticsError Episodes := do
  let fill ← _acceptedFill item
  let acceptedFills := s.acceptedFills ++ [fill]
  match fill.action, s.openEntry with
  | .enterLong, some _ =>
      .error (.tradeReconstruction "Overlapping accepted Paper entries are ambiguous")
  | .enterLong, none => return ⟨s.completed, some fill, acceptedFills⟩
  | .exitLong, none =>
      .error (.tradeReconstruction "Accepted Paper exit has no preceding open entry")
  | .exitLong, some entry =>
      raiseIf (fill.quantity ≠ entry.quantity)
        (.tradeReconstruction "Accepted Paper exit quantity differs from open entry")
      let trade ← _completedTrade symbol s.completed.length entry fill
      return ⟨s.completed ++ [trade], none, acceptedFills⟩

def _buildEpisodes (symbol : Symbol) (fills : List FillEvent) : Except AnalyticsError Episodes :=
  fills.foldlM (Episodes.next symbol) ⟨[], none, []⟩

def _reconcileTotals (s : Episodes) (p : FinalPortfolioEvidence) : Except AnalyticsError Unit := do
  let realized ← s.completed.mapM fun t => _decimal t.realizedPnlQuote "Trade realized PnL"
  let fees ← s.acceptedFills.mapM fun f => _decimal f.feeQuote "Fill fee"
  let slippage ← s.acceptedFills.mapM fun f => _decimal f.slippageQuote "Fill slippage"
  let portfolioRealized ← _decimal p.realizedPnlQuote "Portfolio realized PnL"
  let portfolioFee ← _decimal p.totalFeeQuote "Portfolio total fee"
  let portfolioSlippage ← _decimal p.totalSlippageQuote "Portfolio total slippage"
  raiseIf (¬ sum decimalPrecision realized ≈ portfolioRealized ∨
      ¬ sum decimalPrecision fees ≈ portfolioFee ∨
      ¬ sum decimalPrecision slippage ≈ portfolioSlippage)
    (.tradeReconstruction "Reconstructed economics do not reconcile to accepted P5 portfolio")

def _reconcileBalances (s : Episodes) (p : FinalPortfolioEvidence) : Except AnalyticsError Unit := do
  let quantity ← _decimal p.assetQuantity "Portfolio quantity"
  let costBasis ← _decimal p.costBasisQuote "Portfolio cost basis"
  match s.openEntry with
  | none =>
      raiseIf (p.position ≠ .flat ∨ ¬ quantity ≈ 0 ∨ ¬ costBasis ≈ 0)
        (.tradeReconstruction "Flat trade book differs from accepted portfolio")
  | some entry => do
      let cash ← _decimal entry.cashDelta "Open entry cash delta"
      let openQuantity ← _decimal entry.quantity "Open entry quantity"
      raiseIf (p.position ≠ .long ∨ ¬ quantity ≈ openQuantity ∨
          ¬ costBasis ≈ neg decimalPrecision cash)
        (.tradeReconstruction "Open trade differs from accepted portfolio balances")

def _reconcile (s : Episodes) (finalPortfolio : Option FinalPortfolioEvidence) :
    Except AnalyticsError Unit := do
  if s.acceptedFills = [] then
    raiseIf (finalPortfolio ≠ none ∨ s.completed ≠ [] ∨ s.openEntry ≠ none)
      (.tradeReconstruction "Empty fill history has unexpected trade or portfolio evidence")
  else
    match finalPortfolio with
    | none =>
        .error (.tradeReconstruction "Accepted fills exist without final portfolio evidence")
    | some p => do
        _reconcileTotals s p
        _reconcileBalances s p

namespace PaperTradeReconstruction

structure Fields where
  snapshotTimeMs : ℤ
  symbol : Symbol
  timelineSha256 : String
  status : TradeBookStatus
  completed : List CompletedPaperTrade
  openTrade : Option OpenPaperTrade
  finalPortfolio : Option FinalPortfolioEvidence
deriving DecidableEq

def Fields.expectedStatus (r : Fields) : TradeBookStatus :=
  if r.finalPortfolio = none then .noFills
  else if r.openTrade ≠ none then .opened
  else .flat

def Fields.postInit (r : Fields) : Except AnalyticsError Unit := do
  raiseIf (r.snapshotTimeMs < 0) (.tradeReconstruction "Paper trade reconstruction is invalid")
  _sha r.timelineSha256 "Timeline"
  raiseIf (r.completed.map (·.tradeIndex) ≠ (List.range r.completed.length).map Int.ofNat)
    (.tradeReconstruction "Completed trade indexes are noncanonical")
  raiseIf (∃ t ∈ r.completed, t.symbol ≠ r.symbol)
    (.tradeReconstruction "Completed trade is cross-symbol")
  raiseIf (∃ t ∈ r.openTrade, t.symbol ≠ r.symbol) (.tradeReconstruction "Open trade is cross-symbol")
  raiseIf (r.status ≠ r.expectedStatus) (.tradeReconstruction "Trade-book status is inconsistent")
  match r.finalPortfolio with
  | none =>
      raiseIf (r.completed ≠ [] ∨ r.openTrade ≠ none)
        (.tradeReconstruction "Trade episodes exist without final portfolio evidence")
  | some p =>
      raiseIf (p.closedTrades ≠ r.completed.length)
        (.tradeReconstruction "Closed-trade count differs from accepted portfolio")

end PaperTradeReconstruction

structure PaperTradeReconstruction extends PaperTradeReconstruction.Fields where
  valid : toFields.postInit = .ok ()

namespace PaperTradeReconstruction

def build (r : Fields) : Except AnalyticsError PaperTradeReconstruction :=
  construct r.postInit fun h => ⟨r, h⟩

def asRecord (r : PaperTradeReconstruction) : Json := .dict [
  ("schema_version", .int tradeSchemaVersion),
  ("snapshot_time_ms", .int r.snapshotTimeMs),
  ("symbol", .str r.symbol.value),
  ("timeline_sha256", .str r.timelineSha256),
  ("status", .str r.status.value),
  ("completed", .list (r.completed.map fun t =>
    .dict (t.entries ++ [("trade_sha256", .str t.tradeSha256)]))),
  ("open_trade", .ofOption (fun t : OpenPaperTrade =>
    .dict (t.entries ++ [("open_trade_sha256", .str t.openTradeSha256)])) r.openTrade),
  ("final_portfolio", .ofOption FinalPortfolioEvidence.asRecord r.finalPortfolio),
  ("strategy_evidence", .str insufficientEvidence),
  ("safety", .dict [
    ("descriptive_only", .bool true),
    ("read_only", .bool true),
    ("paper_only", .bool true),
    ("live_master_lock", .str "OFF"),
    ("upstream_mutation", .bool false),
    ("trade_permission", .bool false),
    ("order_endpoints", .bool false),
    ("quantity_authority", .bool false),
    ("risk_authorization_mutation", .bool false),
    ("ai_direct_execution", .bool false)])]

def reconstructionSha256 (r : PaperTradeReconstruction) : String := r.asRecord.sha256

end PaperTradeReconstruction

def reconstructPaperTrades (e : P5Evidence) : Except AnalyticsError PaperTradeReconstruction := do
  let s ← _buildEpisodes e.symbol e.fills
  let finalPortfolio ← _portfolioEvidence e.projection
  _reconcile s finalPortfolio
  let openTrade ← s.openEntry.mapM (OpenPaperTrade.build e.symbol)
  let status : TradeBookStatus :=
    if s.acceptedFills = [] then .noFills else if openTrade ≠ none then .opened else .flat
  PaperTradeReconstruction.build {
    snapshotTimeMs := e.snapshotTimeMs
    symbol := e.symbol
    timelineSha256 := e.timelineSha256
    status
    completed := s.completed
    openTrade
    finalPortfolio }

end Analytics

end TradingLab
