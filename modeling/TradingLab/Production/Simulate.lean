import TradingLab.Production.Universe
import TradingLab.Decimal.Quotient
import TradingLab.Decimal.Numeral

/-!
# The simulator of one symbol

A symbol is simulated over its bars in the Development window, one position at a
time. At the open of a bar a position is closed when the symbol has left the
universe, and otherwise the state that was desired one bar before is acted on. The
arithmetic is a parameter: decimal numbers of 34 digits, or exact numbers.
-/

namespace TradingLab.Production

structure Arithmetic (D : Type) where
  ofDecimal : Decimal → D
  ofNat : ℕ → D
  add : D → D → D
  sub : D → D → D
  mul : D → D → D
  div : D → D → D
  lt : D → D → Bool

/-- A decimal context of 34 digits. -/
def decimal34 : Arithmetic Decimal where
  ofDecimal := id
  ofNat := fun n => Decimal.ofInt n 0
  add := Decimal.add 34
  sub := Decimal.sub 34
  mul := Decimal.mul 34
  div := Decimal.quotient 34
  lt := fun a b => decide (a < b)

/-- The same operations without rounding. -/
def exact : Arithmetic ℚ where
  ofDecimal := Decimal.toRat
  ofNat := fun n => n
  add := (· + ·)
  sub := (· - ·)
  mul := (· * ·)
  div := (· / ·)
  lt := fun a b => decide (a < b)

inductive Timeframe where
  | m15 | h1 | h4 | d1
deriving Repr, DecidableEq

def Timeframe.cadenceMs : Timeframe → ℤ
  | .m15 => 900000
  | .h1 => 3600000
  | .h4 => 14400000
  | .d1 => dayMs

structure Bar where
  time : ℤ
  opening : Decimal
  close : Decimal
  desiredState : Bool
  featureAvailable : Bool
deriving Repr, DecidableEq

structure SeriesFields where
  symbol : String
  timeframe : Timeframe
  bars : List Bar
deriving Repr, DecidableEq

def SeriesFields.validate (fields : SeriesFields) : Except Failure Unit := do
  raiseIf (fields.symbol.endsWith "USDT" = false ∨ fields.bars.length < 2)
    (.mcf "invalid production series identity")
  raiseIf (¬ (fields.bars.map Bar.time).Pairwise (· < ·))
    (.mcf "production series must be strictly increasing")
  raiseIf (fields.bars.any (fun bar => bar.time % fields.timeframe.cadenceMs ≠ 0) = true)
    (.mcf "production timestamps must align to timeframe cadence")
  raiseIf (fields.bars.any (fun bar => decide (bar.opening ≤ 0)) = true)
    (.mcf "invalid production prices")
  raiseIf (fields.bars.any (fun bar => decide (bar.close ≤ 0)) = true)
    (.mcf "invalid production prices")

structure ProductionSeries extends SeriesFields where
  valid : toSeriesFields.validate = .ok ()

def costPolicyRef : String := "MCF-SPOT-COST/v1"

structure CostPolicyFields where
  ref : String
  initialEquity : Decimal
  targetEntryNotional : Decimal
  baseFeeBps : Decimal
  baseSlippageBps : Decimal
  stressFeeBps : Decimal
  stressSlippageBps : Decimal
deriving Repr, DecidableEq

def CostPolicyFields.validate (fields : CostPolicyFields) : Except Failure Unit := do
  raiseIf (fields.ref ≠ costPolicyRef) (.mcf "invalid MCF-03 cost policy")
  raiseIf (fields.initialEquity ≤ 0 ∨ fields.targetEntryNotional ≤ 0 ∨
    fields.initialEquity < fields.targetEntryNotional ∨ fields.baseFeeBps < 0 ∨
    fields.baseSlippageBps < 0 ∨ fields.stressFeeBps < 0 ∨ fields.stressSlippageBps < 0)
    (.mcf "unsafe MCF-03 cost policy")

/-- A cost policy that passes its checks. -/
structure ProductionCostPolicy extends CostPolicyFields where
  valid : toCostPolicyFields.validate = .ok ()

def fraction (bps : Decimal) : Decimal := Decimal.quotient 28 bps (Decimal.ofInt 10000 0)

def ProductionCostPolicy.feeBps (policy : ProductionCostPolicy) (stress : Bool) : Decimal :=
  if stress then policy.stressFeeBps else policy.baseFeeBps

def ProductionCostPolicy.slippageBps (policy : ProductionCostPolicy) (stress : Bool) : Decimal :=
  if stress then policy.stressSlippageBps else policy.baseSlippageBps

def ProductionCostPolicy.fee (policy : ProductionCostPolicy) (stress : Bool) : Decimal :=
  fraction (policy.feeBps stress)

def ProductionCostPolicy.slip (policy : ProductionCostPolicy) (stress : Bool) : Decimal :=
  fraction (policy.slippageBps stress)

structure Account (D : Type) where
  cash : D
  qty : Option D
  peak : D
  maxDrawdown : D
  completedTrades : ℕ
  fills : ℕ
  failedEntries : ℕ
  exposureBars : ℕ
  evaluableBars : ℕ
  sourceGapCancellations : ℕ
  forcedMembershipExits : ℕ
  forcedExitDays : List ℤ
  turnoverNotional : D
  marks : List (ℤ × D)
  memberMarks : List (ℤ × D)
deriving Repr, DecidableEq

section
variable {D : Type} (A : Arithmetic D)

def Arithmetic.larger (a b : D) : D := if A.lt a b then b else a

structure Costs (D : Type) where
  fee : D
  slip : D
deriving Repr, DecidableEq

def openAccount (policy : ProductionCostPolicy) : Account D where
  cash := A.ofDecimal policy.initialEquity
  qty := none
  peak := A.ofDecimal policy.initialEquity
  maxDrawdown := A.ofNat 0
  completedTrades := 0
  fills := 0
  failedEntries := 0
  exposureBars := 0
  evaluableBars := 0
  sourceGapCancellations := 0
  forcedMembershipExits := 0
  forcedExitDays := []
  turnoverNotional := A.ofNat 0
  marks := []
  memberMarks := []

/-- Sell the whole position at the open. -/
def sell (costs : Costs D) (qty : D) (bar : Bar) (account : Account D) : Account D :=
  let ref := A.ofDecimal bar.opening
  let execPrice := A.mul ref (A.sub (A.ofNat 1) costs.slip)
  let gross := A.mul qty execPrice
  { account with
    cash := A.add account.cash (A.sub gross (A.mul gross costs.fee))
    turnoverNotional := A.add account.turnoverNotional gross
    qty := none
    fills := account.fills + 1
    completedTrades := account.completedTrades + 1 }

/-- Buy for the target notional at the open, if the cash covers it. -/
def buy (costs : Costs D) (target : D) (bar : Bar) (account : Account D) : Account D :=
  let ref := A.ofDecimal bar.opening
  let candidateQty := A.div target ref
  let execPrice := A.mul ref (A.add (A.ofNat 1) costs.slip)
  let gross := A.mul candidateQty execPrice
  let debit := A.add gross (A.mul gross costs.fee)
  if A.lt account.cash debit then { account with failedEntries := account.failedEntries + 1 }
  else { account with
    cash := A.sub account.cash debit
    turnoverNotional := A.add account.turnoverNotional gross
    qty := some candidateQty
    fills := account.fills + 1 }

/-- What is done at the open of a bar, from the bar that was scored before it and the membership
then. -/
def trade (binding : ProductionUniverseBinding) (symbol : String) (cadence : ℤ) (costs : Costs D)
    (target : D) (previous : Option (Bar × Bool)) (bar : Bar) (account : Account D) : Account D :=
  match previous with
  | none => account
  | some (before, previousMember) =>
      match account.qty with
      | some qty =>
          if binding.leftMembershipBetween symbol before.time bar.time then
            { sell A costs qty bar account with
              forcedMembershipExits := account.forcedMembershipExits + 1
              forcedExitDays := account.forcedExitDays ++ [bar.time / dayMs] }
          else if bar.time ≠ before.time + cadence then
            if before.featureAvailable && !before.desiredState then
              { account with sourceGapCancellations := account.sourceGapCancellations + 1 }
            else account
          else if before.featureAvailable && !before.desiredState then sell A costs qty bar account
          else account
      | none =>
          if bar.time ≠ before.time + cadence then
            if before.featureAvailable && (before.desiredState && previousMember) then
              { account with sourceGapCancellations := account.sourceGapCancellations + 1 }
            else account
          else if before.featureAvailable && (before.desiredState && previousMember &&
              binding.isMember symbol bar.time) then
            buy A costs target bar account
          else account

/-- The value of the account when the position is sold at a price. -/
def equityAt (costs : Costs D) (close : D) (account : Account D) : D :=
  match account.qty with
  | none => account.cash
  | some qty =>
      let liquidation := A.mul (A.mul qty close) (A.sub (A.ofNat 1) costs.slip)
      A.add account.cash (A.mul liquidation (A.sub (A.ofNat 1) costs.fee))

/-- Mark the account at the close of a bar. -/
def mark (costs : Costs D) (currentMember heldBefore : Bool) (bar : Bar) (account : Account D) :
    Account D :=
  let equity := equityAt A costs (A.ofDecimal bar.close) account
  let peak := A.larger account.peak equity
  let marked : Account D := { account with
    peak := peak
    maxDrawdown := if A.lt (A.ofNat 0) peak then
      A.larger account.maxDrawdown (A.div (A.sub peak equity) peak) else account.maxDrawdown
    marks := account.marks ++ [(bar.time, equity)] }
  if currentMember || heldBefore then { marked with
    memberMarks := account.memberMarks ++ [(bar.time, equity)]
    evaluableBars := account.evaluableBars + 1
    exposureBars := if account.qty.isSome then account.exposureBars + 1 else account.exposureBars }
  else marked

/-- One scored bar. -/
def score (binding : ProductionUniverseBinding) (symbol : String) (cadence : ℤ) (costs : Costs D)
    (target : D) (previous : Option (Bar × Bool)) (bar : Bar) (account : Account D) : Account D :=
  mark A costs (binding.isMember symbol bar.time) account.qty.isSome bar
    (trade A binding symbol cadence costs target previous bar account)

/-- The scored bars from one on. -/
def scoreAll (binding : ProductionUniverseBinding) (symbol : String) (cadence : ℤ) (costs : Costs D)
    (target : D) : Option (Bar × Bool) → List Bar → Account D → Account D
  | _, [], account => account
  | previous, bar :: bars, account =>
      scoreAll binding symbol cadence costs target (some (bar, binding.isMember symbol bar.time)) bars
        (score A binding symbol cadence costs target previous bar account)

end

def Bar.scored (bar : Bar) : Bool :=
  decide (developmentStartMs ≤ bar.time) && decide (bar.time < developmentEndMs)

def ProductionSeries.scoredBars (series : ProductionSeries) : List Bar := series.bars.filter Bar.scored

structure SymbolResult (D : Type) where
  symbol : String
  evaluable : Bool
  completedTrades : ℕ
  fills : ℕ
  failedEntries : ℕ
  turnover : D
  exposureCoverage : D
  maximumDrawdownFraction : D
  netReturn : D
  sourceGapCancellations : ℕ
  forcedMembershipExits : ℕ
  forcedExitDays : List ℤ
  timeframe : Timeframe
  cadenceMs : ℤ
  marks : List (ℤ × D)
  memberMarks : List (ℤ × D)
deriving Repr, DecidableEq

section
variable {D : Type} (A : Arithmetic D) (series : ProductionSeries)
  (binding : ProductionUniverseBinding) (policy : ProductionCostPolicy) (stress : Bool)

def ProductionCostPolicy.costs : Costs D := ⟨A.ofDecimal (policy.fee stress),
  A.ofDecimal (policy.slip stress)⟩

/-- The account after the first scored bars. -/
def accountAfter (n : ℕ) : Account D :=
  scoreAll A binding series.symbol series.timeframe.cadenceMs (policy.costs A stress)
    (A.ofDecimal policy.targetEntryNotional) none (series.scoredBars.take n) (openAccount A policy)

/-- The result of a symbol without a scored bar. -/
def emptyResult : SymbolResult D where
  symbol := series.symbol
  evaluable := false
  completedTrades := 0
  fills := 0
  failedEntries := 0
  turnover := A.ofNat 0
  exposureCoverage := A.ofNat 0
  maximumDrawdownFraction := A.ofNat 0
  netReturn := A.ofNat 0
  sourceGapCancellations := 0
  forcedMembershipExits := 0
  forcedExitDays := []
  timeframe := series.timeframe
  cadenceMs := series.timeframe.cadenceMs
  marks := []
  memberMarks := []

/-- The equity of the last mark. -/
def finalEquity (initial : D) (account : Account D) : D :=
  (account.marks.getLast?.map Prod.snd).getD initial

/-- Simulate a symbol over the Development window. -/
def simulate : SymbolResult D :=
  if series.scoredBars = [] then emptyResult A series
  else
    let initial := A.ofDecimal policy.initialEquity
    let account := accountAfter A series binding policy stress series.scoredBars.length
    { symbol := series.symbol
      evaluable := !account.memberMarks.isEmpty
      completedTrades := account.completedTrades
      fills := account.fills
      failedEntries := account.failedEntries
      turnover := A.div account.turnoverNotional initial
      exposureCoverage := if account.evaluableBars = 0 then A.ofNat 0
        else A.div (A.ofNat account.exposureBars) (A.ofNat account.evaluableBars)
      maximumDrawdownFraction := account.maxDrawdown
      netReturn := A.sub (A.div (finalEquity initial account) initial) (A.ofNat 1)
      sourceGapCancellations := account.sourceGapCancellations
      forcedMembershipExits := account.forcedMembershipExits
      forcedExitDays := account.forcedExitDays.dedup.mergeSort
      timeframe := series.timeframe
      cadenceMs := series.timeframe.cadenceMs
      marks := account.marks
      memberMarks := account.memberMarks }

end

section
variable {D : Type} (A : Arithmetic D) (binding : ProductionUniverseBinding) (symbol : String)
  (cadence : ℤ) (costs : Costs D) (target : D)

/-- What the next bar sees of the bar that was scored last. -/
def seen (previous : Option (Bar × Bool)) (bars : List Bar) : Option (Bar × Bool) :=
  match bars.getLast? with
  | none => previous
  | some bar => some (bar, binding.isMember symbol bar.time)

theorem scoreAll_concat (previous : Option (Bar × Bool)) (bars : List Bar) (bar : Bar)
    (account : Account D) :
    scoreAll A binding symbol cadence costs target previous (bars ++ [bar]) account =
      score A binding symbol cadence costs target (seen binding symbol previous bars) bar
        (scoreAll A binding symbol cadence costs target previous bars account) := by
  induction bars generalizing previous account with
  | nil => rfl
  | cons first bars ih =>
    rw [List.cons_append, scoreAll, ih, scoreAll]
    congr 1
    unfold seen
    cases bars with
    | nil => rfl
    | cons second bars =>
      rw [List.getLast?_cons_cons, List.getLast?_eq_some_getLast (List.cons_ne_nil second bars)]

end

/-- The bar that was scored before the `n`-th, if there is one. -/
def ProductionSeries.before (series : ProductionSeries) (n : ℕ) : Option Bar :=
  if n = 0 then none else series.scoredBars[n - 1]?

section
variable {D : Type} (A : Arithmetic D) (series : ProductionSeries)
  (binding : ProductionUniverseBinding) (policy : ProductionCostPolicy) (stress : Bool)

theorem accountAfter_succ {n : ℕ} {bar : Bar} (h : series.scoredBars[n]? = some bar) :
    accountAfter A series binding policy stress (n + 1) =
      score A binding series.symbol series.timeframe.cadenceMs (policy.costs A stress)
        (A.ofDecimal policy.targetEntryNotional)
        ((series.before n).map fun before => (before, binding.isMember series.symbol before.time)) bar
        (accountAfter A series binding policy stress n) := by
  obtain ⟨hn, hbar⟩ := List.getElem?_eq_some_iff.mp h
  unfold accountAfter
  rw [List.take_succ_eq_append_getElem hn, hbar, scoreAll_concat]
  congr 1
  unfold seen ProductionSeries.before
  cases n with
  | zero => rfl
  | succ n =>
    have hlast : (series.scoredBars.take (n + 1)).getLast? = series.scoredBars[n]? := by
      rw [List.take_succ_eq_append_getElem (by omega), List.getLast?_concat,
        List.getElem?_eq_getElem]
    rw [hlast, if_neg (Nat.succ_ne_zero n), Nat.add_sub_cancel]
    cases series.scoredBars[n]? <;> rfl

end

end TradingLab.Production
