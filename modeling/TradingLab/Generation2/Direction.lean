import TradingLab.Generation2.Unscaled

/-!
# Scaling preserves direction

The direction of a cell is what its signals decide: whether there is a position, how
many entries and exits were filled, and for how many hours. It is a machine of its own,
which every run of the cell follows, scaled or not.
-/

namespace TradingLab

open Decimal Search

namespace Generation2.VolScaling

structure Direction where
  position : Bool
  entrySignals : ℕ
  entryFills : ℕ
  exitFills : ℕ
  activeHours : ℕ
  completedTrades : ℕ
deriving Repr, DecidableEq

namespace Direction

def init : Direction := ⟨false, 0, 0, 0, 0, 0⟩

section Step
variable (bars : List (Bar String)) (shortValues longValues : Indicator) (stop : ℕ)

/-- A signal counts; it is filled when a bar follows in time. -/
def settle (d : Direction) (i : ℕ) (v : Values) : Direction :=
  let counted := { d with entrySignals := d.entrySignals + if v.enter d.position then 1 else 0 }
  if (fillBar bars stop i).isSome then
    if v.exits d.position then
      { counted with
        position := false
        exitFills := d.exitFills + 1
        completedTrades := d.completedTrades + 1 }
    else if v.enter d.position then { counted with position := true, entryFills := d.entryFills + 1 }
    else counted
  else counted

def step (d : Direction) (i : ℕ) : Direction :=
  let marked := { d with activeHours := d.activeHours + if d.position then 1 else 0 }
  if i = 0 then marked
  else match valuesAt shortValues longValues i with
    | none => marked
    | some v => marked.settle bars stop i v

def loop (is : List ℕ) : Direction := is.foldl (step bars shortValues longValues stop) init

end Step

end Direction

def CellState.direction (s : CellState) : Direction where
  position := s.logicalPosition
  entrySignals := s.entrySignals
  entryFills := s.entryFills
  exitFills := s.exitFills
  activeHours := s.activeHours
  completedTrades := s.base.realized.length

variable {a a' : _Account} {r : Rates} {quantity : Decimal}

theorem realized_buy {reference : Decimal} {startCycle : Bool}
    (h : a._buy r reference quantity startCycle = .ok a') : a'.realized = a.realized := by
  unfold _Account._buy at h
  obtain ⟨-, h⟩ := raiseIf_bind_eq_ok.mp h
  obtain ⟨cashflow, -, h⟩ := bind_eq_ok.mp h
  split at h
  · cases h
    rfl
  · obtain ⟨-, h⟩ := raiseIf_bind_eq_ok.mp h
    cases h
    rfl

theorem realized_sold (a : _Account) (r : Rates) (reference quantity cashflow : Decimal) :
    (a.sold r reference quantity cashflow).realized = a.realized := by
  unfold _Account.sold
  split <;> rfl

theorem realized_sell {reference : Decimal}
    {closeCycle : Bool} (h : a._sell r reference quantity closeCycle = .ok a') :
    a'.realized.length = a.realized.length + if closeCycle then 1 else 0 := by
  unfold _Account._sell at h
  obtain ⟨-, h⟩ := raiseIf_bind_eq_ok.mp h
  cases hflow : a.cycleCashflow with
  | none =>
    rw [hflow] at h
    cases h
  | some cashflow =>
    rw [hflow] at h
    cases closeCycle with
    | false =>
      cases h
      rw [realized_sold]
      rfl
    | true =>
      dsimp only at h
      rw [if_pos rfl] at h
      unfold _Account.closed at h
      split at h
      · cases h
        have hsome : (a.sold r reference quantity cashflow).cycleCashflow.toList.length = 1 := by
          unfold _Account.sold
          split
          · rfl
          · rw [hflow]
            rfl
        rw [List.length_append, realized_sold, hsome, if_pos rfl]
      · cases h

section Step
variable {bars : List (Bar String)} {shortValues longValues : Indicator} {p : Policy}
  {scaling : Scaling} {stop : ℕ} {s s' : CellState}

theorem direction_marked {bar : Bar String} (h : s.marked p bar = .ok s') :
    s'.direction = { s.direction with
      activeHours := s.activeHours + if s.logicalPosition then 1 else 0 } := by
  unfold CellState.marked at h
  obtain ⟨drawdown, -, h⟩ := bind_eq_ok.mp h
  cases h
  cases hposition : s.logicalPosition with
  | false => simp [CellState.direction, hposition]
  | true => simp [CellState.direction, hposition]

@[simp] theorem direction_rescaled (s : CellState) (boundary : Option Decimal) :
    (s.rescaled boundary).direction = s.direction := by
  unfold CellState.rescaled
  cases boundary <;> rfl

variable {reference scale : Decimal}

theorem direction_exited (h : s.exited p reference = .ok s') :
    s'.direction = { s.direction with
      position := false
      exitFills := s.exitFills + 1
      completedTrades := s.base.realized.length + 1 } := by
  unfold CellState.exited at h
  obtain ⟨base, hbase, h⟩ := bind_eq_ok.mp h
  obtain ⟨stress, -, h⟩ := bind_eq_ok.mp h
  cases h
  have hclosed := realized_sell hbase
  rw [if_pos rfl] at hclosed
  simp [CellState.direction, hclosed]

theorem direction_entered (h : s.entered p reference scale = .ok s') :
    s'.direction = { s.direction with position := true, entryFills := s.entryFills + 1 } := by
  unfold CellState.entered at h
  obtain ⟨base, hbase, h⟩ := bind_eq_ok.mp h
  obtain ⟨stress, -, h⟩ := bind_eq_ok.mp h
  cases h
  simp [CellState.direction, realized_buy hbase]

theorem direction_rebalanced
    (h : s.rebalanced p reference scale = .ok s') : s'.direction = s.direction := by
  unfold CellState.rebalanced at h
  dsimp only at h
  split at h
  · obtain ⟨base, hbase, h⟩ := bind_eq_ok.mp h
    obtain ⟨stress, -, h⟩ := bind_eq_ok.mp h
    cases h
    simp [CellState.direction, realized_buy hbase]
  · split at h
    · obtain ⟨base, hbase, h⟩ := bind_eq_ok.mp h
      obtain ⟨stress, -, h⟩ := bind_eq_ok.mp h
      cases h
      have hkept := realized_sell hbase
      rw [if_neg Bool.false_ne_true] at hkept
      simp [CellState.direction, hkept]
    · cases h
      rfl

variable {v : Values} {boundary : Option Decimal} {i : ℕ} {is : List ℕ}

theorem direction_act (h : act p s v boundary reference = .ok s') : s'.direction =
      if v.exits s.logicalPosition then
        { s.direction with
          position := false
          exitFills := s.exitFills + 1
          completedTrades := s.base.realized.length + 1 }
      else if v.enter s.logicalPosition then
        { s.direction with position := true, entryFills := s.entryFills + 1 }
      else s.direction := by
  unfold act at h
  split at h
  · obtain ⟨u, hu, h⟩ := bind_eq_ok.mp h
    cases h
    rw [direction_rescaled, direction_exited hu, if_pos ‹_›]
  · rw [if_neg ‹_›]
    split at h
    · obtain ⟨u, hu, h⟩ := bind_eq_ok.mp h
      cases h
      rw [direction_rescaled, direction_entered hu, if_pos ‹_›]
    · rw [if_neg ‹_›]
      cases boundary with
      | none =>
        cases h
        rfl
      | some scale =>
        obtain ⟨u, hu, h⟩ := bind_eq_ok.mp h
        cases h
        rw [direction_rescaled, direction_rebalanced hu]

theorem direction_settle (h : settle bars p stop (s.counted v) i v boundary = .ok s') :
    s'.direction = s.direction.settle bars stop i v := by
  unfold settle CellState.counted at h
  dsimp only at h
  unfold Direction.settle fillBar
  split at h
  · split at h
    · cases h
      rw [if_neg (show ¬ i + 1 < stop by omega)]
      rfl
    · rw [if_pos (show i + 1 < stop by omega)]
      cases hnext : nextBar bars i with
      | none =>
        rw [hnext] at h
        cases h
      | some next =>
        rw [hnext] at h
        rw [direction_act h, Option.isSome_some, if_pos rfl]
        rfl
  · cases h
    have hsignal : v.enter s.logicalPosition = false ∧ v.exits s.logicalPosition = false := by
      simp_all
    rw [direction_rescaled]
    simp [CellState.direction, hsignal]

theorem direction_step (h : step bars shortValues longValues p scaling stop s i = .ok s') :
    s'.direction = s.direction.step bars shortValues longValues stop i := by
  unfold Direction.step
  cases stepped_of_ok h with
  | skipped hbar hmark hskip =>
    rw [direction_marked hmark]
    rcases hskip with hi | hv
    · rw [if_pos hi]
      rfl
    · rw [hv]
      exact (ite_self _).symm
  | settled hbar hmark hi hv hboundary hsettle =>
    rw [direction_settle hsettle, direction_marked hmark, if_neg hi, hv]
    rfl

theorem direction_foldlM
    (h : is.foldlM (step bars shortValues longValues p scaling stop) s = .ok s') :
    s'.direction = is.foldl (Direction.step bars shortValues longValues stop) s.direction := by
  induction is generalizing s with
  | nil =>
    cases h
    rfl
  | cons i is ih =>
    rw [List.foldlM_cons] at h
    obtain ⟨u, hu, h⟩ := bind_eq_ok.mp h
    rw [ih h, direction_step hu, List.foldl_cons]

/-- Every run of the cell follows the machine, whatever the scales are. -/
theorem direction_loop
    (h : loop bars shortValues longValues p scaling stop (.init p scale) is = .ok s) :
    s.direction = Direction.loop bars shortValues longValues stop is := direction_foldlM h

end Step

end Generation2.VolScaling

end TradingLab
