import TradingLab.Calendar.Months
import TradingLab.Search.ExactCell

/-!
# The volatility scaling of the second generation

The quantity of a position is scaled by the volatility that the control position had
over the 183 days before the month. The simulator takes the scale of a month at its
first bar, in an account that buys and sells any quantity within one cycle.
-/

namespace TradingLab

open Decimal Search Search.Survivor

namespace Generation2.VolScaling

def dayMs : ℤ := 24 * hourMs

theorem dayMs_eq : dayMs = 86400000 := rfl

/-- The month of a time since January 1970; times are not earlier. -/
def monthOf (ms : ℤ) : ℕ := Calendar.monthIndex (ms / dayMs).toNat

def monthMs (month : ℕ) : ℤ := Calendar.monthStart month * dayMs

def _monthStartMs (ms : ℤ) : ℤ := monthMs (monthOf ms)

def _isMonthBoundary (ms : ℤ) : Bool := ms = _monthStartMs ms

/-- The months that begin in a span of time; a month has 28 days at least. -/
def _monthBoundaries (startMs endMs : ℤ) : List ℤ :=
  ((List.range ((endMs / dayMs).toNat / 28 + 1)).map monthMs).filter fun b =>
    startMs ≤ b ∧ b < endMs

section Positions
variable {P : Type} (bars : List (Bar P))

/-- The bar follows the one before it without a gap. -/
def follows (i : ℕ) : Bool :=
  match bars[i]?, bars[i - 1]? with
  | some bar, some previous => bar.openTimeMs = previous.openTimeMs + hourMs
  | _, _ => false

/-- The control position after the values of the bar before. -/
def controlStep (shortValues longValues : Indicator) (start : ℕ) (position : Bool) (i : ℕ) : Bool :=
  if start + 2 ≤ i ∧ follows bars i then
    match valuesAt shortValues longValues (i - 1) with
    | none => position
    | some v => if v.enter position then true else if v.exits position then false else position
  else position

def controlStates (shortValues longValues : Indicator) (start : ℕ) : Bool → List ℕ → List Bool
  | _, [] => []
  | position, i :: is =>
      let next := controlStep bars shortValues longValues start position i
      next :: controlStates shortValues longValues start next is

variable {bars}

variable {shortValues longValues : Indicator} {start : ℕ} {position : Bool}

theorem getElem?_controlStates {is : List ℕ} {k : ℕ} (hk : k < is.length) :
    (controlStates bars shortValues longValues start position is)[k]? =
      some ((is.take (k + 1)).foldl (controlStep bars shortValues longValues start) position) := by
  induction is generalizing position k with
  | nil => simp at hk
  | cons i is ih =>
    cases k with
    | zero => rfl
    | succ k =>
      rw [List.length_cons] at hk
      unfold controlStates
      rw [List.getElem?_cons_succ, ih (by omega), List.take_succ_cons, List.foldl_cons]

theorem length_controlStates {is : List ℕ} :
    (controlStates bars shortValues longValues start position is).length = is.length := by
  induction is generalizing position with
  | nil => rfl
  | cons i is ih =>
    unfold controlStates
    rw [List.length_cons, ih, List.length_cons]

variable (bars)

/-- The position that the signals alone would hold, from a reset on. -/
def _controlPositions (shortValues longValues : Indicator) (resetMs : ℤ) :
    Except SearchError (List Bool) := do
  let start := bisectLeft (timesOf bars) resetMs
  raiseIf (bars.length ≤ start) (.vol "volatility-state reset is outside series")
  return List.replicate start false ++
    controlStates bars shortValues longValues start false (windowBars start bars.length)

end Positions

section Returns
variable (bars : List (Bar String))

structure HourReturn where
  day : ℤ
  hour : ℤ
  value : Decimal
deriving DecidableEq

/-- The return of a bar over the bar an hour before; without a position it is zero. -/
def hourReturn (positions : List Bool) (warmupStartMs : ℤ) (i : ℕ) :
    Except SearchError (Option HourReturn) :=
  match bars[i]?, bars[i - 1]? with
  | some bar, some previous =>
      let t := bar.openTimeMs
      let day := t / dayMs * dayMs
      if t < warmupStartMs ∨ previous.openTimeMs ≠ t - hourMs ∨
        day = warmupStartMs / dayMs * dayMs then .ok none
      else if positions.getD i false then
        match div? decimalPrecision (ofText bar.closing) (ofText previous.closing) with
        | none => .error .decimal
        | some ratio => .ok (some ⟨day, (t - day) / hourMs, sub decimalPrecision ratio 1⟩)
      else .ok (some ⟨day, (t - day) / hourMs, 0⟩)
  | _, _ => .error .index

def hourReturns (positions : List Bool) (warmupStartMs : ℤ) :
    Except SearchError (List HourReturn) := do
  let entries ← (windowBars 1 bars.length).mapM (hourReturn bars positions warmupStartMs)
  return entries.reduceOption

end Returns

/-- The last return written for an hour. -/
def hourOf (entries : List HourReturn) (day : ℤ) (hour : ℕ) : Option Decimal :=
  ((entries.filter fun e => e.day = day ∧ e.hour = (hour : ℤ)).getLast?).map fun e => e.value

def compound (hours : List Decimal) : Decimal :=
  sub decimalPrecision
    (hours.foldl (fun c r => mul decimalPrecision c (add decimalPrecision 1 r)) 1) 1

/-- The return of a day whose 24 hours are all there. -/
def dayReturn (entries : List HourReturn) (day : ℤ) : Option Decimal := do
  let hours ← (List.range 24).mapM (hourOf entries day)
  return compound hours

/-- The returns by day. -/
abbrev Daily := ℤ → Option Decimal

def _dailyControlReturns (bars : List (Bar String)) (positions : List Bool) (warmupStartMs : ℤ) :
    Except SearchError Daily := do
  raiseIf (positions.length ≠ bars.length) (.vol "control-state length mismatch")
  let entries ← hourReturns bars positions warmupStartMs
  return dayReturn entries

def windowDays : ℕ := 183
def annualizationDays : ℕ := 365
def target : Decimal := ofText "0.12"

/-- The days of the window before a month, the oldest one first. -/
def daysBefore (boundaryMs : ℤ) : List ℤ :=
  (List.range windowDays).map fun k => boundaryMs - ((windowDays - k : ℕ) : ℤ) * dayMs

def missingDays (daily : Daily) (boundaryMs : ℤ) : List ℤ :=
  (daysBefore boundaryMs).filter fun day => (daily day).isNone

/-- The scale for the returns of a window. -/
def scaleOf (values : List Decimal) : Decimal :=
  let sumsq := values.foldl (fun s v => add decimalPrecision s (mul decimalPrecision v v)) 0
  let variance := quotient decimalPrecision (mul decimalPrecision (ofInt annualizationDays 0) sumsq)
    (ofInt windowDays 0)
  if variance ≈ 0 then 1
  else smaller 1 (quotient decimalPrecision target (sqrt decimalPrecision variance))

def _scaleFromReturns (daily : Daily) (boundaryMs : ℤ) : Except SearchError Decimal :=
  if missingDays daily boundaryMs ≠ [] then
    .error (.incompleteWindow boundaryMs (missingDays daily boundaryMs))
  else .ok (scaleOf ((daysBefore boundaryMs).filterMap daily))

/-- The scales by the begin of the month. -/
abbrev Schedule := ℤ → Option Decimal

def _scaleSchedule (bars : List (Bar String)) (positions : List Bool)
    (warmupStartMs scoredStartMs endMs : ℤ) : Except SearchError Schedule := do
  let daily ← _dailyControlReturns bars positions warmupStartMs
  let scales ← (_monthBoundaries scoredStartMs endMs).mapM fun boundary => do
    return (boundary, ← _scaleFromReturns daily boundary)
  return fun boundary => scales.lookup boundary

/-- A window with days that are not complete. -/
structure WindowGap where
  symbol : String
  boundaryMs : ℤ
  missingDays : List ℤ
deriving DecidableEq

/-- The windows that no schedule can be made from, whatever the signals are. -/
def _volatilityWindowGaps (exactSeries : List (String × ExactSeries))
    (warmupStartMs scoredStartMs endMs : ℤ) : Except SearchError (List WindowGap) := do
  let gaps ← exactSeries.mapM fun entry => do
    let daily ← _dailyControlReturns entry.2.bars
      (List.replicate entry.2.bars.length false) warmupStartMs
    return ((_monthBoundaries scoredStartMs endMs).filter fun boundary =>
      missingDays daily boundary ≠ []).map fun boundary =>
        (⟨entry.1, boundary, missingDays daily boundary⟩ : WindowGap)
  return gaps.flatten

end Generation2.VolScaling

end TradingLab
