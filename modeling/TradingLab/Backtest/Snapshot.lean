import TradingLab.Backtest.Portfolio
import TradingLab.Decimal.Numeral

/-!
# Portfolio snapshots

A snapshot values the ledger at a mark price, after slippage and fee of a sale.
Its constructor adds the amounts up again; the amounts may come from a text, so
the sums are taken over numerals of any form and can signal.
-/

namespace TradingLab

open Decimal

structure Amounts (α : Type) where
  cash : α
  assetQuantity : α
  costBasisQuote : α
  liquidationValueQuote : α
  realizedPnlQuote : α
  unrealizedPnlQuote : α
  equityQuote : α
  totalFeeQuote : α
  totalSlippageQuote : α
deriving Repr, DecidableEq

namespace Amounts

def map {α β : Type} (f : α → β) (a : Amounts α) : Amounts β where
  cash := f a.cash
  assetQuantity := f a.assetQuantity
  costBasisQuote := f a.costBasisQuote
  liquidationValueQuote := f a.liquidationValueQuote
  realizedPnlQuote := f a.realizedPnlQuote
  unrealizedPnlQuote := f a.unrealizedPnlQuote
  equityQuote := f a.equityQuote
  totalFeeQuote := f a.totalFeeQuote
  totalSlippageQuote := f a.totalSlippageQuote

/-- Whether the equity and the unrealized result are the sums they should be. -/
def sumsAgree (a : Amounts Numeral) : Except Signal Bool := do
  let equity ← Numeral.add decimalPrecision a.cash a.liquidationValueQuote
  let equityIsValid ← Numeral.equals a.equityQuote equity
  let unrealized ← Numeral.sub decimalPrecision a.liquidationValueQuote a.costBasisQuote
  let unrealizedIsValid ← Numeral.equals a.unrealizedPnlQuote unrealized
  return equityIsValid && unrealizedIsValid

/-- The signs the constructor demands, and a flat position without value. -/
def Ordinary (a : Amounts Decimal) : Prop :=
  ¬ (a.cash < 0 ∨ a.assetQuantity < 0 ∨ a.costBasisQuote < 0 ∨ a.liquidationValueQuote < 0 ∨
    a.totalFeeQuote < 0 ∨ a.totalSlippageQuote < 0 ∨
    (a.assetQuantity ≈ 0 ∧ (¬ a.costBasisQuote ≈ 0 ∨ ¬ a.liquidationValueQuote ≈ 0)))

instance (a : Amounts Decimal) : Decidable a.Ordinary := by
  unfold Ordinary
  infer_instance

end Amounts

inductive SnapshotError where
  | portfolio (e : PortfolioError)
  | signal (s : Signal)
deriving Repr, DecidableEq

def inconsistentSnapshot : SnapshotError :=
  .portfolio ⟨"Portfolio snapshot arithmetic is inconsistent"⟩

namespace PortfolioSnapshot

structure Fields extends Amounts Decimal where
  symbol : Symbol
  closedTrades : ℤ
deriving DecidableEq

def Fields.postInit (s : Fields) : Except SnapshotError Unit := do
  let agree ← (s.toAmounts.map Numeral.finite).sumsAgree.mapError .signal
  raiseIf (¬ s.toAmounts.Ordinary ∨ s.closedTrades < 0 ∨ agree = false) inconsistentSnapshot

end PortfolioSnapshot

structure PortfolioSnapshot extends PortfolioSnapshot.Fields where
  valid : toFields.postInit = .ok ()
deriving DecidableEq

namespace PortfolioSnapshot

def build (f : Fields) : Except SnapshotError PortfolioSnapshot :=
  construct f.postInit fun h => ⟨f, h⟩

end PortfolioSnapshot

def _mark (value : String) : Except SnapshotError Decimal := do
  raiseIf (¬ decimalPattern value)
    (.portfolio ⟨"Mark price must be a plain positive decimal string"⟩)
  let number := ofText value
  raiseIf (number ≤ 0) (.portfolio ⟨"Mark price must be positive"⟩)
  return number

namespace PortfolioLedger

/-- What a sale of the position at a price would bring. -/
def liquidation (s : PortfolioLedger) (price : Decimal) : Decimal :=
  if s.hasPosition then
    let slipped := mul decimalPrecision price
      (sub decimalPrecision 1 (quotient decimalPrecision s.spec.slippageBpsDecimal basisPoints))
    let gross := mul decimalPrecision s.assetQuantity slipped
    mul decimalPrecision gross
      (sub decimalPrecision 1 (quotient decimalPrecision s.spec.feeBpsDecimal basisPoints))
  else 0

def snapshotFields (s : PortfolioLedger) (price : Decimal) : PortfolioSnapshot.Fields :=
  let liquidation := s.liquidation price
  { symbol := s.spec.symbol
    cash := s.cash
    assetQuantity := s.assetQuantity
    costBasisQuote := s.costBasisQuote
    liquidationValueQuote := liquidation
    realizedPnlQuote := s.realizedPnlQuote
    unrealizedPnlQuote := sub decimalPrecision liquidation s.costBasisQuote
    equityQuote := add decimalPrecision s.cash liquidation
    totalFeeQuote := s.totalFeeQuote
    totalSlippageQuote := s.totalSlippageQuote
    closedTrades := s.closedTrades }

def snapshot (s : PortfolioLedger) (markPrice : String) : Except SnapshotError PortfolioSnapshot := do
  let price ← _mark markPrice
  PortfolioSnapshot.build (s.snapshotFields price)

end PortfolioLedger

end TradingLab
