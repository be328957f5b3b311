import TradingLab.Search.ExactCell

/-!
# The totals of the exact cell

A cell is a sequence of fills. Its amounts are worked out in a context of 256
digits, but its fees and slippages are added up, and its losses are negated, in
the default context; so are the gross profits and losses of the cells of a
candidate.
-/

namespace TradingLab

open Decimal List

namespace Search.Survivor

inductive Fill where
  | entry (reference : Decimal)
  | exit (reference : Decimal)
deriving DecidableEq

/-- What a fill amounts to under some rates. -/
def Fill.costed (r : Rates) (quantity : Decimal) : Fill → Costed
  | .entry reference => r.bought reference quantity
  | .exit reference => r.sold reference quantity

def Fill.isEntry : Fill → Bool
  | .entry _ => true
  | .exit _ => false

namespace _Account

def filled (r : Rates) (quantity : Decimal) (a : _Account) : Fill → Except SearchError _Account
  | .entry reference => a._entry r reference quantity
  | .exit reference => a._exit r reference quantity

/-- The account after a sequence of fills. -/
def run (r : Rates) (quantity : Decimal) (fills : List Fill) (a : _Account) :
    Except SearchError _Account := fills.foldlM (filled r quantity) a

end _Account

section Cell
variable (bars : List (Bar String)) (shortValues longValues : Indicator) (stop : ℕ)

/-- The fill that a bar brings about. -/
def fillAt (position : Bool) (i : ℕ) : Option Fill :=
  if i = 0 then none
  else match valuesAt shortValues longValues i with
    | none => none
    | some v =>
        if !v.enter position && !v.exits position then none
        else match fillBar bars stop i with
          | none => none
          | some next =>
              if v.enter position then some (.entry (ofText next.opening))
              else some (.exit (ofText next.opening))

/-- The fills of a sequence of bars. -/
def cellFills : Bool → List ℕ → List Fill
  | _, [] => []
  | position, i :: is =>
      match fillAt bars shortValues longValues stop position i with
      | none => cellFills position is
      | some fill => fill :: cellFills fill.isEntry is

end Cell

section
variable {bars : List (Bar String)} {shortValues longValues : Indicator} {p : Policy} {stop : ℕ}
    {s t : CellState} {i : ℕ} {is : List ℕ}

theorem marked_same {bar : Bar String} (h : s.marked p bar = .ok t) :
    t.base = s.base ∧ t.stress = s.stress ∧ t.position = s.position := by
  unfold CellState.marked at h
  obtain ⟨drawdown, -, h⟩ := bind_eq_ok.mp h
  cases h
  exact ⟨rfl, rfl, rfl⟩

/-- What a step makes of the accounts and the position, given its fill. -/
def Follows (p : Policy) (s t : CellState) : Option Fill → Prop
  | none => t.base = s.base ∧ t.stress = s.stress ∧ t.position = s.position
  | some fill => s.base.filled p.base p.quantity fill = .ok t.base ∧
      s.stress.filled p.stress p.quantity fill = .ok t.stress ∧ t.position = fill.isEntry

theorem fill_follows {v : Values} (hi : i ≠ 0) (hv : valuesAt shortValues longValues i = some v)
    (h : fill bars p stop s i v = .ok t) :
    Follows p s t (fillAt bars shortValues longValues stop s.position i) := by
  unfold fill at h
  unfold fillAt
  rw [if_neg hi, hv]
  dsimp only
  split at h
  · rename_i hstay
    rw [if_pos hstay]
    cases h
    exact ⟨rfl, rfl, rfl⟩
  · rename_i hmove
    rw [if_neg hmove]
    cases hnext : fillBar bars stop i with
    | none =>
      rw [hnext] at h
      cases h
      exact ⟨rfl, rfl, rfl⟩
    | some next =>
      rw [hnext] at h
      dsimp only at h ⊢
      split at h
      · rename_i henter
        rw [if_pos henter]
        unfold CellState.entered at h
        obtain ⟨base, hbase, h⟩ := bind_eq_ok.mp h
        obtain ⟨stress, hstress, h⟩ := bind_eq_ok.mp h
        cases h
        exact ⟨hbase, hstress, rfl⟩
      · rename_i hexit
        rw [if_neg hexit]
        unfold CellState.exited at h
        obtain ⟨base, hbase, h⟩ := bind_eq_ok.mp h
        obtain ⟨stress, hstress, h⟩ := bind_eq_ok.mp h
        cases h
        exact ⟨hbase, hstress, rfl⟩

theorem step_follows (h : step bars shortValues longValues p stop s i = .ok t) :
    Follows p s t (fillAt bars shortValues longValues stop s.position i) := by
  unfold step at h
  obtain ⟨bar, -, h⟩ := bind_eq_ok.mp h
  obtain ⟨marked, hmarked, h⟩ := bind_eq_ok.mp h
  obtain ⟨hbase, hstress, hposition⟩ := marked_same hmarked
  by_cases hi : i = 0
  · rw [if_pos hi] at h
    cases h
    unfold fillAt
    rw [if_pos hi]
    exact ⟨hbase, hstress, hposition⟩
  · rw [if_neg hi] at h
    cases hv : valuesAt shortValues longValues i with
    | none =>
      rw [hv] at h
      cases h
      unfold fillAt
      rw [if_neg hi, hv]
      exact ⟨hbase, hstress, hposition⟩
    | some v =>
      rw [hv] at h
      have hfollows := fill_follows hi hv h
      rw [hposition] at hfollows
      unfold Follows at hfollows ⊢
      split at hfollows
      · rwa [hbase, hstress, hposition] at hfollows
      · rwa [hbase, hstress] at hfollows

theorem loop_run {s t : CellState} (h : is.foldlM (step bars shortValues longValues p stop) s = .ok t) :
    s.base.run p.base p.quantity (cellFills bars shortValues longValues stop s.position is) =
        .ok t.base ∧
      s.stress.run p.stress p.quantity (cellFills bars shortValues longValues stop s.position is) =
        .ok t.stress := by
  induction is generalizing s with
  | nil =>
    cases h
    exact ⟨rfl, rfl⟩
  | cons i is ih =>
    rw [foldlM_cons] at h
    obtain ⟨u, hstep, h⟩ := bind_eq_ok.mp h
    have hfollows := step_follows hstep
    have hrest := ih h
    unfold Follows at hfollows
    unfold cellFills
    split at hfollows
    · obtain ⟨hbase, hstress, hposition⟩ := hfollows
      rwa [hbase, hstress, hposition] at hrest
    · obtain ⟨hbase, hstress, hposition⟩ := hfollows
      rw [hposition] at hrest
      unfold _Account.run at hrest ⊢
      rw [foldlM_cons, foldlM_cons, hbase, hstress]
      exact hrest

end

namespace _Account
variable {r : Rates} {quantity : Decimal} {fills : List Fill} {a b : _Account}

theorem run_append (fills : List Fill) (fill : Fill) (a : _Account) :
    a.run r quantity (fills ++ [fill]) = (a.run r quantity fills >>= fun b => b.filled r quantity fill) := by
  unfold run
  rw [foldlM_append]
  congr 1
  funext b
  rw [foldlM_cons]
  exact bind_pure _

theorem _entry_eq_ok {reference : Decimal} (h : a._entry r reference quantity = .ok b) :
    b.realized = a.realized ∧
      b.totalFee = add defaultPrecision a.totalFee (r.bought reference quantity).fee ∧
      b.totalSlippage =
        add defaultPrecision a.totalSlippage (r.bought reference quantity).slippage := by
  unfold _entry at h
  obtain ⟨-, h⟩ := raiseIf_bind_eq_ok.mp h
  obtain ⟨-, h⟩ := raiseIf_bind_eq_ok.mp h
  cases h
  exact ⟨rfl, rfl, rfl⟩

theorem _exit_eq_ok {reference : Decimal} (h : a._exit r reference quantity = .ok b) :
    (∃ pnl, b.realized = a.realized ++ [pnl]) ∧
      b.totalFee = add defaultPrecision a.totalFee (r.sold reference quantity).fee ∧
      b.totalSlippage =
        add defaultPrecision a.totalSlippage (r.sold reference quantity).slippage := by
  unfold _exit at h
  cases hdebit : a.entryDebit with
  | none =>
    rw [hdebit] at h
    cases h
  | some debit =>
    rw [hdebit] at h
    cases h
    exact ⟨⟨_, rfl⟩, rfl, rfl⟩

theorem filled_totals {fill : Fill} (h : a.filled r quantity fill = .ok b) :
    b.totalFee = add defaultPrecision a.totalFee (fill.costed r quantity).fee ∧
      b.totalSlippage = add defaultPrecision a.totalSlippage (fill.costed r quantity).slippage := by
  cases fill with
  | entry reference => exact (_entry_eq_ok h).2
  | exit reference => exact (_exit_eq_ok h).2

theorem filled_realized {fill : Fill} (h : a.filled r quantity fill = .ok b) :
    b.realized = a.realized ∨ ∃ pnl, b.realized = a.realized ++ [pnl] := by
  cases fill with
  | entry reference => exact .inl (_entry_eq_ok h).1
  | exit reference => exact .inr (_exit_eq_ok h).1

def fees (r : Rates) (quantity : Decimal) (fills : List Fill) : List Decimal :=
  fills.map fun fill => (fill.costed r quantity).fee

def slippages (r : Rates) (quantity : Decimal) (fills : List Fill) : List Decimal :=
  fills.map fun fill => (fill.costed r quantity).slippage

theorem run_totals {initial : Decimal} (h : (_newAccount initial).run r quantity fills = .ok a) :
    a.totalFee = sum defaultPrecision (fees r quantity fills) ∧
      a.totalSlippage = sum defaultPrecision (slippages r quantity fills) := by
  induction fills using reverseRecOn generalizing a with
  | nil =>
    cases h
    exact ⟨rfl, rfl⟩
  | append_singleton fills fill ih =>
    rw [run_append] at h
    obtain ⟨b, hb, h⟩ := bind_eq_ok.mp h
    obtain ⟨hfee, hslippage⟩ := filled_totals h
    rw [hfee, hslippage, (ih hb).1, (ih hb).2, fees, fees, slippages, slippages, map_append,
      map_append, map_singleton, map_singleton, sum_append_singleton,
      sum_append_singleton]
    exact ⟨rfl, rfl⟩

end _Account

namespace _Account
variable {r : Rates} {quantity : Decimal} {fills initial : List Fill} {a b start : _Account}

theorem run_prefix (h : start.run r quantity fills = .ok a) (hi : initial <+: fills) :
    ∃ b, start.run r quantity initial = .ok b ∧ b.realized <+: a.realized := by
  obtain ⟨rest, rfl⟩ := hi
  induction rest using reverseRecOn generalizing a with
  | nil => exact ⟨a, by rwa [append_nil] at h, prefix_refl _⟩
  | append_singleton rest fill ih =>
    rw [← append_assoc, run_append] at h
    obtain ⟨c, hc, h⟩ := bind_eq_ok.mp h
    obtain ⟨b, hb, hbc⟩ := ih hc
    refine ⟨b, hb, hbc.trans ?_⟩
    rcases filled_realized h with heq | ⟨pnl, heq⟩
    · rw [heq]
    · rw [heq]
      exact prefix_append _ _

/-- Every initial part of the realized amounts was all there was once. -/
theorem run_realized (h : start.run r quantity fills = .ok a) (hstart : start.realized = [])
    {realized : List Decimal} (hi : realized <+: a.realized) :
    ∃ initial b, initial <+: fills ∧ start.run r quantity initial = .ok b ∧
      b.realized = realized := by
  induction fills using reverseRecOn generalizing a with
  | nil =>
    cases h
    rw [hstart, prefix_nil] at hi
    exact ⟨[], start, prefix_refl _, rfl, hstart.trans hi.symm⟩
  | append_singleton fills fill ih =>
    have hall := h
    rw [run_append] at h
    obtain ⟨c, hc, h⟩ := bind_eq_ok.mp h
    have hearlier : realized <+: c.realized → ∃ initial b, initial <+: fills ++ [fill] ∧
        start.run r quantity initial = .ok b ∧ b.realized = realized := by
      intro hc'
      obtain ⟨initial, b, hinitial, hb, hrealized⟩ := ih hc hc'
      exact ⟨initial, b, hinitial.trans (prefix_append _ _), hb, hrealized⟩
    rcases filled_realized h with heq | ⟨pnl, heq⟩
    · exact hearlier (heq ▸ hi)
    · rw [heq, prefix_concat_iff] at hi
      rcases hi with hi | hi
      · exact ⟨_, a, prefix_refl _, hall, heq.trans hi.symm⟩
      · exact hearlier hi

end _Account

end Search.Survivor

end TradingLab
