import TradingLab.Risk.State
import TradingLab.Decimal.Quotient

/-!
# Sizing, limits and the protective gate

An entry passes three gates in turn. Sizing finds the greatest stepped quantity
whose loss at the stop, costs included, stays within the risk budget; the limits
compare its notional with cash and the two exposure caps; the protective gate
looks at the levels and at the reward after costs. Each gate leaves evidence that
repeats every number as its fixed-point text and is recomputed on construction.
-/

namespace TradingLab

open RiskState (_canonical precision)
open Decimal (ofText add sub mul quotient)

structure RiskSizingError where
  message : String
deriving Repr, DecidableEq

structure RiskLimitError where
  message : String
deriving Repr, DecidableEq

structure ProtectiveGateError where
  message : String
deriving Repr, DecidableEq

namespace Sizing

def feeBps : Decimal := ofText "10"
def slippageBps : Decimal := ofText "5"
def quantityStep : Decimal := ofText "0.000001"
def basisPoints : Decimal := ofText "10000"

def feeRate : Decimal := quotient precision feeBps basisPoints
def slippageRate : Decimal := quotient precision slippageBps basisPoints

/-- The greatest integer not above a non-negative number. -/
def floorInteger (d : Decimal) : Decimal :=
  if 0 ≤ d.exponent then d else ⟨d.negative, d.coefficient / 10 ^ (-d.exponent).toNat, 0⟩

structure Values where
  quantity : Decimal
  riskBudgetQuote : Decimal
  entryExecutionPrice : Decimal
  stopExecutionPrice : Decimal
  lossPerUnitQuote : Decimal
  plannedLossQuote : Decimal
  feeQuote : Decimal
  slippageQuote : Decimal

def raised (price : Decimal) : Decimal := mul precision price (add precision 1 slippageRate)

def lowered (price : Decimal) : Decimal := mul precision price (sub precision 1 slippageRate)

def _entryValues (request : RiskRequest) : Except RiskSizingError Values := do
  let decision := request.strategyDecision
  match decision.setup with
  | none => .error ⟨"Entry request is not eligible for sizing"⟩
  | some setup =>
      raiseIf (decision.action ≠ .enterLong ∨ request.evidenceLabel ≠ .qualifiedForP4Research ∨
          request.portfolio.killSwitchActive ∨ request.portfolio.openPositions ≠ 0)
        ⟨"Entry request is not eligible for sizing"⟩
      let equity := ofText request.portfolio.equityQuote
      let entry := ofText setup.referencePrice
      let stop := ofText setup.invalidationPrice
      let riskBudget := mul precision equity (ofText request.policy.riskPerTradeFraction)
      let entryExecution := raised entry
      let stopExecution := lowered stop
      raiseIf (stopExecution ≤ 0 ∨ entryExecution ≤ stopExecution)
        ⟨"Cost-adjusted entry and stop are invalid"⟩
      let feePerUnit := mul precision (add precision entryExecution stopExecution) feeRate
      let slippagePerUnit := mul precision (add precision entry stop) slippageRate
      let lossPerUnit := add precision (sub precision entryExecution stopExecution) feePerUnit
      raiseIf (riskBudget ≤ 0 ∨ lossPerUnit ≤ 0) ⟨"Risk budget or loss per unit is invalid"⟩
      let steps := floorInteger
        (quotient precision (quotient precision riskBudget lossPerUnit) quantityStep)
      let quantity := mul precision steps quantityStep
      raiseIf (quantity ≤ 0) ⟨"Risk budget is below the minimum quantity step"⟩
      let plannedLoss := mul precision quantity lossPerUnit
      raiseIf (riskBudget < plannedLoss) ⟨"Rounded quantity exceeds the loss budget"⟩
      return {
        quantity
        riskBudgetQuote := riskBudget
        entryExecutionPrice := entryExecution
        stopExecutionPrice := stopExecution
        lossPerUnitQuote := lossPerUnit
        plannedLossQuote := plannedLoss
        feeQuote := mul precision quantity feePerUnit
        slippageQuote := mul precision quantity slippagePerUnit }

end Sizing

/-- A repeated number that is a plain text and the text of what was recomputed. -/
def repeats (pattern : String → Bool) (value : String) (expected : Decimal) : Bool :=
  pattern value && value == _canonical expected

namespace PositionSize

structure Fields where
  request : RiskRequest
  quantity : String
  riskBudgetQuote : String
  entryExecutionPrice : String
  stopExecutionPrice : String
  lossPerUnitQuote : String
  plannedLossQuote : String
  feeQuote : String
  slippageQuote : String
deriving DecidableEq

def Fields.matches (p : Fields) (v : Sizing.Values) : Bool :=
  [(p.quantity, v.quantity), (p.riskBudgetQuote, v.riskBudgetQuote),
    (p.entryExecutionPrice, v.entryExecutionPrice), (p.stopExecutionPrice, v.stopExecutionPrice),
    (p.lossPerUnitQuote, v.lossPerUnitQuote), (p.plannedLossQuote, v.plannedLossQuote),
    (p.feeQuote, v.feeQuote), (p.slippageQuote, v.slippageQuote)].all
      fun e => repeats decimalPattern e.1 e.2

def Fields.postInit (p : Fields) : Except RiskSizingError Unit := do
  let expected ← Sizing._entryValues p.request
  raiseIf (¬ p.matches expected) ⟨"Position-size result is noncanonical or inconsistent"⟩
  raiseIf (ofText p.riskBudgetQuote < ofText p.plannedLossQuote)
    ⟨"Position-size result exceeds its loss budget"⟩
  let nextLoss := mul precision (add precision (ofText p.quantity) Sizing.quantityStep)
    (ofText p.lossPerUnitQuote)
  raiseIf (nextLoss ≤ ofText p.riskBudgetQuote)
    ⟨"Position size was not rounded to the maximum safe step"⟩

end PositionSize

structure PositionSize extends PositionSize.Fields where
  valid : toFields.postInit = .ok ()
deriving DecidableEq

def sizeEntry (request : RiskRequest) : Except RiskSizingError PositionSize := do
  let v ← Sizing._entryValues request
  let fields : PositionSize.Fields := {
    request
    quantity := _canonical v.quantity
    riskBudgetQuote := _canonical v.riskBudgetQuote
    entryExecutionPrice := _canonical v.entryExecutionPrice
    stopExecutionPrice := _canonical v.stopExecutionPrice
    lossPerUnitQuote := _canonical v.lossPerUnitQuote
    plannedLossQuote := _canonical v.plannedLossQuote
    feeQuote := _canonical v.feeQuote
    slippageQuote := _canonical v.slippageQuote }
  construct fields.postInit fun h => ⟨fields, h⟩

inductive LimitStatus where
  | pass
  | reject
deriving Repr, DecidableEq

def LimitStatus.value : LimitStatus → String
  | pass => "PASS"
  | reject => "REJECT"

inductive LimitReason where
  | withinLimits
  | cashInsufficient
  | notionalOrExposureLimit
deriving Repr, DecidableEq

def LimitReason.value : LimitReason → String
  | withinLimits => "WITHIN_LIMITS"
  | cashInsufficient => "CASH_INSUFFICIENT"
  | notionalOrExposureLimit => "NOTIONAL_OR_EXPOSURE_LIMIT"

namespace Limits

structure Values where
  status : LimitStatus
  reason : LimitReason
  entryNotionalQuote : Decimal
  entryFeeQuote : Decimal
  cashRequiredQuote : Decimal
  positionLimitQuote : Decimal
  grossExposureBeforeQuote : Decimal
  grossExposureAfterQuote : Decimal
  grossExposureLimitQuote : Decimal

def _values (size : PositionSize) : Except RiskLimitError Values := do
  let state := size.request.portfolio
  let policy := size.request.policy
  raiseIf (state.openPositions ≠ 0 ∨ ¬ ofText state.positionQuantity ≈ 0)
    ⟨"Entry limit assessment requires a flat portfolio"⟩
  let quantity := ofText size.quantity
  let equity := ofText state.equityQuote
  let cash := ofText state.cashQuote
  let entryNotional := mul precision quantity (ofText size.entryExecutionPrice)
  let entryFee :=
    quotient precision (mul precision entryNotional Sizing.feeBps) Sizing.basisPoints
  let cashRequired := add precision entryNotional entryFee
  let positionLimit := mul precision equity (ofText policy.maxPositionFraction)
  let grossBefore := mul precision (ofText state.positionQuantity) (ofText state.markPrice)
  let grossAfter := add precision grossBefore entryNotional
  let grossLimit := mul precision equity (ofText policy.maxGrossExposureFraction)
  let (status, reason) : LimitStatus × LimitReason :=
    if positionLimit < entryNotional ∨ grossLimit < grossAfter then
      (.reject, .notionalOrExposureLimit)
    else if cash < cashRequired then (.reject, .cashInsufficient)
    else (.pass, .withinLimits)
  return {
    status, reason
    entryNotionalQuote := entryNotional
    entryFeeQuote := entryFee
    cashRequiredQuote := cashRequired
    positionLimitQuote := positionLimit
    grossExposureBeforeQuote := grossBefore
    grossExposureAfterQuote := grossAfter
    grossExposureLimitQuote := grossLimit }

end Limits

namespace EntryLimitAssessment

structure Fields where
  positionSize : PositionSize
  status : LimitStatus
  reason : LimitReason
  entryNotionalQuote : String
  entryFeeQuote : String
  cashRequiredQuote : String
  positionLimitQuote : String
  grossExposureBeforeQuote : String
  grossExposureAfterQuote : String
  grossExposureLimitQuote : String
deriving DecidableEq

def Fields.matches (a : Fields) (v : Limits.Values) : Bool :=
  [(a.entryNotionalQuote, v.entryNotionalQuote), (a.entryFeeQuote, v.entryFeeQuote),
    (a.cashRequiredQuote, v.cashRequiredQuote), (a.positionLimitQuote, v.positionLimitQuote),
    (a.grossExposureBeforeQuote, v.grossExposureBeforeQuote),
    (a.grossExposureAfterQuote, v.grossExposureAfterQuote),
    (a.grossExposureLimitQuote, v.grossExposureLimitQuote)].all
      fun e => repeats decimalPattern e.1 e.2

def Fields.postInit (a : Fields) : Except RiskLimitError Unit := do
  let expected ← Limits._values a.positionSize
  raiseIf (a.status ≠ expected.status ∨ a.reason ≠ expected.reason)
    ⟨"Limit status or reason is inconsistent"⟩
  raiseIf (¬ a.matches expected) ⟨"Limit assessment is noncanonical or inconsistent"⟩

end EntryLimitAssessment

structure EntryLimitAssessment extends EntryLimitAssessment.Fields where
  valid : toFields.postInit = .ok ()
deriving DecidableEq

def assessEntryLimits (size : PositionSize) : Except RiskLimitError EntryLimitAssessment := do
  let v ← Limits._values size
  let fields : EntryLimitAssessment.Fields := {
    positionSize := size
    status := v.status
    reason := v.reason
    entryNotionalQuote := _canonical v.entryNotionalQuote
    entryFeeQuote := _canonical v.entryFeeQuote
    cashRequiredQuote := _canonical v.cashRequiredQuote
    positionLimitQuote := _canonical v.positionLimitQuote
    grossExposureBeforeQuote := _canonical v.grossExposureBeforeQuote
    grossExposureAfterQuote := _canonical v.grossExposureAfterQuote
    grossExposureLimitQuote := _canonical v.grossExposureLimitQuote }
  construct fields.postInit fun h => ⟨fields, h⟩

inductive ProtectiveStatus where
  | pass
  | reject
deriving Repr, DecidableEq

def ProtectiveStatus.value : ProtectiveStatus → String
  | pass => "PASS"
  | reject => "REJECT"

inductive ProtectiveReason where
  | protectiveGatePassed
  | priorLimitRejected
  | invalidProtectiveLevels
  | nonPositivePostCostReward
  | plannedLossExceedsBudget
deriving Repr, DecidableEq

def ProtectiveReason.value : ProtectiveReason → String
  | protectiveGatePassed => "PROTECTIVE_GATE_PASSED"
  | priorLimitRejected => "PRIOR_LIMIT_REJECTED"
  | invalidProtectiveLevels => "INVALID_PROTECTIVE_LEVELS"
  | nonPositivePostCostReward => "NON_POSITIVE_POST_COST_REWARD"
  | plannedLossExceedsBudget => "PLANNED_LOSS_EXCEEDS_BUDGET"

namespace Protective

structure Values where
  status : ProtectiveStatus
  reason : ProtectiveReason
  quantity : Decimal
  referenceEntryPrice : Decimal
  referenceStopPrice : Decimal
  referenceTargetPrice : Decimal
  entryExecutionPrice : Decimal
  stopExecutionPrice : Decimal
  targetExecutionPrice : Decimal
  entryFeeQuote : Decimal
  stopFeeQuote : Decimal
  targetFeeQuote : Decimal
  worstLossQuote : Decimal
  riskBudgetQuote : Decimal
  netRewardQuote : Decimal

def _values (limit : EntryLimitAssessment) : Except ProtectiveGateError Values :=
  let size := limit.positionSize
  match size.request.strategyDecision.setup with
  | none => .error ⟨"Protective gate requires an entry setup"⟩
  | some setup =>
      let quantity := ofText size.quantity
      let entryReference := ofText setup.referencePrice
      let stopReference := ofText setup.invalidationPrice
      let targetReference := ofText setup.targetPrice
      let entryExecution := Sizing.raised entryReference
      let stopExecution := Sizing.lowered stopReference
      let targetExecution := Sizing.lowered targetReference
      let fee := fun price => mul precision (mul precision quantity price) Sizing.feeRate
      let entryFee := fee entryExecution
      let stopFee := fee stopExecution
      let targetFee := fee targetExecution
      let worstLoss := add precision (add precision
        (mul precision quantity (sub precision entryExecution stopExecution)) entryFee) stopFee
      let netReward := sub precision (sub precision
        (mul precision quantity (sub precision targetExecution entryExecution)) entryFee) targetFee
      let riskBudget := ofText size.riskBudgetQuote
      let levelsValid := (stopReference < entryReference ∧ entryReference < targetReference) ∧
        0 < stopExecution ∧ stopExecution < entryExecution
      let (status, reason) : ProtectiveStatus × ProtectiveReason :=
        if limit.status ≠ .pass then (.reject, .priorLimitRejected)
        else if ¬ levelsValid then (.reject, .invalidProtectiveLevels)
        else if riskBudget < worstLoss then (.reject, .plannedLossExceedsBudget)
        else if netReward ≤ 0 then (.reject, .nonPositivePostCostReward)
        else (.pass, .protectiveGatePassed)
      .ok {
        status, reason, quantity
        referenceEntryPrice := entryReference
        referenceStopPrice := stopReference
        referenceTargetPrice := targetReference
        entryExecutionPrice := entryExecution
        stopExecutionPrice := stopExecution
        targetExecutionPrice := targetExecution
        entryFeeQuote := entryFee
        stopFeeQuote := stopFee
        targetFeeQuote := targetFee
        worstLossQuote := worstLoss
        riskBudgetQuote := riskBudget
        netRewardQuote := netReward }

end Protective

namespace ProtectiveAssessment

structure Fields where
  limitAssessment : EntryLimitAssessment
  status : ProtectiveStatus
  reason : ProtectiveReason
  quantity : String
  referenceEntryPrice : String
  referenceStopPrice : String
  referenceTargetPrice : String
  entryExecutionPrice : String
  stopExecutionPrice : String
  targetExecutionPrice : String
  entryFeeQuote : String
  stopFeeQuote : String
  targetFeeQuote : String
  worstLossQuote : String
  riskBudgetQuote : String
  netRewardQuote : String
deriving DecidableEq

/-- All numbers are unsigned, the net reward excepted. -/
def Fields.matches (a : Fields) (v : Protective.Values) : Bool :=
  ([(a.quantity, v.quantity), (a.referenceEntryPrice, v.referenceEntryPrice),
    (a.referenceStopPrice, v.referenceStopPrice), (a.referenceTargetPrice, v.referenceTargetPrice),
    (a.entryExecutionPrice, v.entryExecutionPrice), (a.stopExecutionPrice, v.stopExecutionPrice),
    (a.targetExecutionPrice, v.targetExecutionPrice), (a.entryFeeQuote, v.entryFeeQuote),
    (a.stopFeeQuote, v.stopFeeQuote), (a.targetFeeQuote, v.targetFeeQuote),
    (a.worstLossQuote, v.worstLossQuote), (a.riskBudgetQuote, v.riskBudgetQuote)].all
      fun e => repeats decimalPattern e.1 e.2) &&
    repeats signedDecimalPattern a.netRewardQuote v.netRewardQuote

def Fields.postInit (a : Fields) : Except ProtectiveGateError Unit := do
  let expected ← Protective._values a.limitAssessment
  raiseIf (a.status ≠ expected.status ∨ a.reason ≠ expected.reason)
    ⟨"Protective status or reason is inconsistent"⟩
  raiseIf (¬ a.matches expected) ⟨"Protective assessment is noncanonical or inconsistent"⟩
  raiseIf (a.worstLossQuote ≠ a.limitAssessment.positionSize.plannedLossQuote)
    ⟨"Worst loss does not match accepted sizing"⟩

end ProtectiveAssessment

structure ProtectiveAssessment extends ProtectiveAssessment.Fields where
  valid : toFields.postInit = .ok ()
deriving DecidableEq

namespace ProtectiveAssessment

def payload (a : ProtectiveAssessment) : Json := .dict [
  ("schema_version", .int 1),
  ("request_sha256", .str a.limitAssessment.positionSize.request.requestSha256),
  ("limit_status", .str a.limitAssessment.status.value),
  ("limit_reason", .str a.limitAssessment.reason.value),
  ("status", .str a.status.value),
  ("reason", .str a.reason.value),
  ("quantity", .str a.quantity),
  ("reference_entry_price", .str a.referenceEntryPrice),
  ("reference_stop_price", .str a.referenceStopPrice),
  ("reference_target_price", .str a.referenceTargetPrice),
  ("entry_execution_price", .str a.entryExecutionPrice),
  ("stop_execution_price", .str a.stopExecutionPrice),
  ("target_execution_price", .str a.targetExecutionPrice),
  ("entry_fee_quote", .str a.entryFeeQuote),
  ("stop_fee_quote", .str a.stopFeeQuote),
  ("target_fee_quote", .str a.targetFeeQuote),
  ("worst_loss_quote", .str a.worstLossQuote),
  ("risk_budget_quote", .str a.riskBudgetQuote),
  ("net_reward_quote", .str a.netRewardQuote)]

def gateSha256 (a : ProtectiveAssessment) : String := a.payload.sha256

end ProtectiveAssessment

def assessProtectiveEntry (limit : EntryLimitAssessment) :
    Except ProtectiveGateError ProtectiveAssessment := do
  let v ← Protective._values limit
  let fields : ProtectiveAssessment.Fields := {
    limitAssessment := limit
    status := v.status
    reason := v.reason
    quantity := _canonical v.quantity
    referenceEntryPrice := _canonical v.referenceEntryPrice
    referenceStopPrice := _canonical v.referenceStopPrice
    referenceTargetPrice := _canonical v.referenceTargetPrice
    entryExecutionPrice := _canonical v.entryExecutionPrice
    stopExecutionPrice := _canonical v.stopExecutionPrice
    targetExecutionPrice := _canonical v.targetExecutionPrice
    entryFeeQuote := _canonical v.entryFeeQuote
    stopFeeQuote := _canonical v.stopFeeQuote
    targetFeeQuote := _canonical v.targetFeeQuote
    worstLossQuote := _canonical v.worstLossQuote
    riskBudgetQuote := _canonical v.riskBudgetQuote
    netRewardQuote := _canonical v.netRewardQuote }
  construct fields.postInit fun h => ⟨fields, h⟩

end TradingLab
