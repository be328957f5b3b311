import TradingLab.Selection.Greedy
import TradingLab.Backtest.FillEngine
import Mathlib.Data.Prod.Lex
import Mathlib.Data.String.Basic

/-!
# Survivor ranking

Of the candidates that pass both gates, those that no other dominates are put in
order, and the first of them within the caps are proposed. A metric that is
better when it is smaller is negated before it is compared; that unary minus
rounds to the digits of the default context, whatever digits were recorded.
-/

namespace TradingLab

open Decimal

namespace Search.Survivor

inductive Family where
  | sma | ema | dema
deriving DecidableEq, Repr

def Family.text : Family → String
  | .sma => "TREND_MA_SMA"
  | .ema => "TREND_MA_EMA"
  | .dema => "TREND_MA_DEMA"

/-- What the ranking reads of an evaluated candidate. -/
structure Candidate where
  family : Family
  n1 : ℕ
  n2 : ℕ
  exactGate : Bool
  neighborRobust : Bool
  medianReturn : Decimal
  lowerQuartile : Decimal
  profitFactor : Option Decimal
  profitFactorInfinite : Bool
  maximumDrawdown : Decimal
  stressNet : Decimal
  neighborPassFraction : Decimal
  largestTradeShare : Decimal
  /-- The exact gate fails without a profit factor. -/
  profitable : exactGate = true → profitFactorInfinite = true ∨ profitFactor.isSome = true

/-- The ranking section of the registered protocol. -/
structure Ranking where
  familyComplexity : Family → ℤ
  familySurvivorCap : ℕ
  overallSurvivorCap : ℕ
  registered : familySurvivorCap = 3 ∧ overallSurvivorCap = 12

/-- A number of at least four digits. -/
def fourDigits (n : ℕ) : List Char :=
  let digits := Nat.toDigits 10 n
  List.replicate (4 - digits.length) '0' ++ digits

namespace Candidate

def trialId (c : Candidate) : String :=
  "HSSE002-" ++ c.family.text ++ "-" ++ String.ofList (fourDigits c.n1) ++ "-" ++
    String.ofList (fourDigits c.n2)

def Eligible (c : Candidate) : Prop := c.exactGate = true ∧ c.neighborRobust = true

instance (c : Candidate) : Decidable c.Eligible := inferInstanceAs (Decidable (_ ∧ _))

def _pfRank (c : Candidate) : Decimal :=
  if c.profitFactorInfinite then ⟨false, 1, 100⟩ else c.profitFactor.getD 0

def _vector (c : Candidate) : List Decimal :=
  [c.medianReturn, c.lowerQuartile, c._pfRank, neg defaultPrecision c.maximumDrawdown, c.stressNet,
    c.neighborPassFraction]

def _dominates (left right : Candidate) : Bool :=
  let pairs := left._vector.zip right._vector
  pairs.all (fun p => decide (p.2 ≤ p.1)) && pairs.any (fun p => decide (p.2 < p.1))

/-- Keys are compared as the source compares tuples. -/
abbrev TieKey : Type := ℚ ×ₗ ℚ ×ₗ ℚ ×ₗ ℚ ×ₗ ℤ ×ₗ ℚ ×ₗ String ×ₗ ℕ ×ₗ ℕ

def _tieKey (ranking : Ranking) (c : Candidate) : TieKey :=
  toLex ((neg defaultPrecision c.lowerQuartile).toRat,
    toLex ((neg defaultPrecision c.medianReturn).toRat,
      toLex ((neg defaultPrecision c._pfRank).toRat,
        toLex (c.maximumDrawdown.toRat,
          toLex (ranking.familyComplexity c.family,
            toLex (c.largestTradeShare.toRat,
              toLex (c.family.text, toLex (c.n1, c.n2))))))))

end Candidate

/-- The loop over the ordered frontier; it ends when the proposal is full. -/
def _select (ranking : Ranking) : List Candidate → (Family → ℕ) → ℕ → List Candidate
  | [], _, _ => []
  | item :: ordered, counts, selected =>
      if ranking.familySurvivorCap ≤ counts item.family then _select ranking ordered counts selected
      else if ranking.overallSurvivorCap ≤ selected + 1 then [item]
      else item :: _select ranking ordered
        (Function.update counts item.family (counts item.family + 1)) (selected + 1)

def _frontier (candidates : List Candidate) : List Candidate :=
  let eligible := candidates.filter fun item => decide item.Eligible
  eligible.filter fun item =>
    !eligible.any fun other => decide (other.trialId ≠ item.trialId) && other._dominates item

def _rank (candidates : List Candidate) (ranking : Ranking) : List Candidate × List String :=
  let frontier := _frontier candidates
  let ordered := frontier.mergeSort fun a b => decide (a._tieKey ranking ≤ b._tieKey ranking)
  (_select ranking ordered (fun _ => 0) 0, frontier.map Candidate.trialId)

namespace Candidate

def profit (c : Candidate) : WithTop ℚ :=
  if c.profitFactorInfinite then ⊤ else ((c.profitFactor.getD 0).toRat : ℚ)

/-- The exact metrics, with the order that says which are better. -/
abbrev Metrics : Type := ℚ × ℚ × WithTop ℚ × ℚᵒᵈ × ℚ × ℚ

def metrics (c : Candidate) : Metrics :=
  (c.medianReturn.toRat, c.lowerQuartile.toRat, c.profit,
    OrderDual.toDual c.maximumDrawdown.toRat, c.stressNet.toRat, c.neighborPassFraction.toRat)

/-- At least as good in every recorded metric, and better in one. -/
def Dominates (left right : Candidate) : Prop := right.metrics < left.metrics

abbrev ExactKey : Type :=
  ℚᵒᵈ ×ₗ ℚᵒᵈ ×ₗ (WithTop ℚ)ᵒᵈ ×ₗ ℚ ×ₗ ℤ ×ₗ ℚ ×ₗ String ×ₗ ℕ ×ₗ ℕ

/-- The tie-break order on the recorded metrics. -/
def exactKey (ranking : Ranking) (c : Candidate) : ExactKey :=
  toLex (OrderDual.toDual c.lowerQuartile.toRat,
    toLex (OrderDual.toDual c.medianReturn.toRat,
      toLex (OrderDual.toDual c.profit,
        toLex (c.maximumDrawdown.toRat,
          toLex (ranking.familyComplexity c.family,
            toLex (c.largestTradeShare.toRat,
              toLex (c.family.text, toLex (c.n1, c.n2))))))))

/-- The six values that are compared. -/
def compared (c : Candidate) : ℚ × ℚ × ℚ × ℚ × ℚ × ℚ :=
  (c.medianReturn.toRat, c.lowerQuartile.toRat, c._pfRank.toRat,
    (neg defaultPrecision c.maximumDrawdown).toRat, c.stressNet.toRat, c.neighborPassFraction.toRat)

theorem dominates_iff {left right : Candidate} :
    left._dominates right = true ↔ right.compared < left.compared := by
  unfold _dominates
  rw [Bool.and_eq_true, lt_iff_le_not_ge]
  simp only [_vector, compared, List.zip_cons_cons, List.zip_nil_right, List.all_cons,
    List.all_nil, List.any_cons, List.any_nil, Bool.and_eq_true, Bool.or_eq_true, Bool.and_true,
    Bool.or_false, decide_eq_true_eq, le_def, lt_def, Prod.mk_le_mk]
  constructor
  · rintro ⟨hle, hlt⟩
    refine ⟨hle, fun hge => ?_⟩
    rcases hlt with h | h | h | h | h | h
    · exact absurd hge.1 (not_le.mpr h)
    · exact absurd hge.2.1 (not_le.mpr h)
    · exact absurd hge.2.2.1 (not_le.mpr h)
    · exact absurd hge.2.2.2.1 (not_le.mpr h)
    · exact absurd hge.2.2.2.2.1 (not_le.mpr h)
    · exact absurd hge.2.2.2.2.2 (not_le.mpr h)
  · rintro ⟨hle, hnot⟩
    refine ⟨hle, ?_⟩
    by_contra hall
    simp only [not_or, not_lt] at hall
    exact hnot hall

end Candidate

end Search.Survivor

end TradingLab
