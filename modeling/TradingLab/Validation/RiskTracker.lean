import TradingLab.Accounting.Book
import TradingLab.Backtest.FillEngine
import TradingLab.Backtest.Snapshot
import TradingLab.Risk.Contracts

/-!
# The risk tracker of a forward run

The tracker sees the portfolio once before every decision. It follows the peak
of the equity, the realized result of the current UTC day and the streak of
losing trades, and latches the kill switch when one of them reaches its limit.
It computes in the default context of 28 digits, in which the change of the
realized result is rounded before it is added to its session.
-/

namespace TradingLab

open Decimal Accounting List

structure ForwardPaperRunnerError where
  message : String
deriving Repr, DecidableEq

def utcDayMs : ℤ := 86400000

namespace PaperRunner

def _plain (d : Decimal) : String := String.ofList (trimFraction (fixed d).toList)

end PaperRunner

structure ValidationRiskState where
  symbol : Symbol
  equityQuote : String
  cashQuote : String
  positionQuantity : String
  markPrice : String
  peakEquityQuote : String
  sessionStartTimeMs : ℤ
  sessionStartEquityQuote : String
  sessionRealizedPnlQuote : String
  consecutiveLosses : ℤ
  openPositions : ℤ
  killSwitchActive : Bool
deriving Repr, DecidableEq

/-- What the tracker is shown before a decision. -/
structure Observation where
  eventTimeMs : ℤ
  snapshot : PortfolioSnapshot
  markPrice : String
deriving DecidableEq

namespace Observation

def equity (o : Observation) : Decimal := o.snapshot.equityQuote
def realized (o : Observation) : Decimal := o.snapshot.realizedPnlQuote
def closedTrades (o : Observation) : ℤ := o.snapshot.closedTrades

/-- The start of the UTC day. -/
def day (o : Observation) : ℤ := o.eventTimeMs / utcDayMs * utcDayMs

end Observation

/-- When a session started, and with which equity. -/
structure _Session where
  startTimeMs : ℤ
  startEquity : Decimal
deriving DecidableEq

structure _RiskTracker where
  symbol : Symbol
  peak : Decimal
  session : Option _Session
  sessionRealizedPnl : Decimal
  previousRealizedPnl : Decimal
  previousClosedTrades : ℤ
  consecutiveLosses : ℤ
  killSwitchActive : Bool
deriving DecidableEq

namespace _RiskTracker

open PaperRunner (_plain)

def init (symbol : Symbol) (initialEquity : String) : _RiskTracker where
  symbol := symbol
  peak := ofText initialEquity
  session := none
  sessionRealizedPnl := 0
  previousRealizedPnl := 0
  previousClosedTrades := 0
  consecutiveLosses := 0
  killSwitchActive := false

def maxSessionLoss : Decimal := ofText RiskPolicy.frozen.maxSessionLossFraction
def maxDrawdown : Decimal := ofText RiskPolicy.frozen.maxDrawdownFraction

/-- The loss of a session reaches its limit. -/
def lossReached (startEquity total : Decimal) : Bool :=
  mul defaultPrecision startEquity maxSessionLoss ≤ larger (neg defaultPrecision total) 0

def drawdownReached (peak equity : Decimal) : Bool :=
  mul defaultPrecision peak maxDrawdown ≤ sub defaultPrecision peak equity

/-- The session after an observation, its result, and whether the session it closes broke its
limit. The change at the first observation of a day still belongs to the day before. -/
def _roll (t : _RiskTracker) (day : ℤ) (equity delta : Decimal) : _Session × Decimal × Bool :=
  match t.session with
  | none => (⟨day, equity⟩, 0, false)
  | some session =>
      let total := add defaultPrecision t.sessionRealizedPnl delta
      if day ≠ session.startTimeMs then
        (⟨day, equity⟩, 0, lossReached session.startEquity total)
      else (session, total, false)

def observe (t : _RiskTracker) (o : Observation) :
    Except ForwardPaperRunnerError (ValidationRiskState × _RiskTracker) := do
  let delta := sub defaultPrecision o.realized t.previousRealizedPnl
  let closedDelta := o.closedTrades - t.previousClosedTrades
  raiseIf (closedDelta ≠ 0 ∧ closedDelta ≠ 1) ⟨"Paper close count advanced unexpectedly"⟩
  let losses := if closedDelta = 0 then t.consecutiveLosses
    else if delta < 0 then t.consecutiveLosses + 1 else 0
  let rolled := t._roll o.day o.equity delta
  let peak := larger t.peak o.equity
  let latched := t.killSwitchActive || rolled.2.2 || drawdownReached peak o.equity ||
    lossReached rolled.1.startEquity rolled.2.1 ||
    decide (RiskPolicy.frozen.maxConsecutiveLosses ≤ losses)
  return ({
    symbol := t.symbol
    equityQuote := _plain o.equity
    cashQuote := _plain o.snapshot.cash
    positionQuantity := _plain o.snapshot.assetQuantity
    markPrice := o.markPrice
    peakEquityQuote := _plain peak
    sessionStartTimeMs := rolled.1.startTimeMs
    sessionStartEquityQuote := _plain rolled.1.startEquity
    sessionRealizedPnlQuote := _plain rolled.2.1
    consecutiveLosses := losses
    openPositions := if 0 < o.snapshot.assetQuantity then 1 else 0
    killSwitchActive := latched }, {
    symbol := t.symbol
    peak
    session := some rolled.1
    sessionRealizedPnl := rolled.2.1
    previousRealizedPnl := o.realized
    previousClosedTrades := o.closedTrades
    consecutiveLosses := losses
    killSwitchActive := latched })

/-- The observations a tracker has been shown since its start. -/
inductive Fed (start : _RiskTracker) : List Observation → _RiskTracker → Prop
  | start : Fed start [] start
  | observe {os : List Observation} {o : Observation} {t t' : _RiskTracker}
      {state : ValidationRiskState} (fed : Fed start os t) (observed : t.observe o = .ok (state, t')) :
      Fed start (os ++ [o]) t'

end _RiskTracker

namespace RiskHistory

open _RiskTracker (lossReached drawdownReached)

variable {os pre : List Observation} {o last : Observation} {day : ℤ}

/-- The change of the realized result between two observations. -/
def change (p : Observation × Observation) : Decimal :=
  sub defaultPrecision p.2.realized p.1.realized

/-- A trade was closed between two observations. -/
def closes (p : Observation × Observation) : Bool := p.2.closedTrades ≠ p.1.closedTrades

def peak (initialEquity : Decimal) (os : List Observation) : Decimal :=
  os.foldl (fun p o => larger p o.equity) initialEquity

/-- The changes of a session, added up. -/
def total (day : ℤ) (os : List Observation) : Decimal :=
  ((session Observation.day day os).map change).foldl (add defaultPrecision) 0

/-- The losing trades since the last one that did not lose. -/
def streak (os : List Observation) : ℕ :=
  ((((steps os).filter closes).map change).rtakeWhile fun d => d < 0).length

/-- A session lost as much as its limit allows, measured on its first equity. -/
def LossBreached (day : ℤ) (os : List Observation) : Prop :=
  ∃ first ∈ os.find? (fun o => o.day = day), lossReached first.equity (total day os)

/-- An observation breaks a limit after those before it. -/
inductive Breached (initialEquity : Decimal) (pre : List Observation) (o : Observation) : Prop
  | drawdown (h : drawdownReached (peak initialEquity (pre ++ [o])) o.equity)
  | session (h : LossBreached o.day (pre ++ [o]))
  | boundary {last : Observation} (hlast : last ∈ pre.getLast?)
      (h : LossBreached last.day (pre ++ [o]))
  | streak (h : RiskPolicy.frozen.maxConsecutiveLosses ≤ streak (pre ++ [o]))

/-- Some observation so far broke a limit. -/
def EverBreached (initialEquity : Decimal) (os : List Observation) : Prop :=
  ∃ pre o post, os = pre ++ o :: post ∧ Breached initialEquity pre o

variable {initialEquity : Decimal}

theorem everBreached_concat :
    EverBreached initialEquity (os ++ [o]) ↔
      EverBreached initialEquity os ∨ Breached initialEquity os o :=
  exists_split_concat

theorem EverBreached.mono {before : List Observation}
    (h : EverBreached initialEquity before) (hinitial : before <+: os) :
    EverBreached initialEquity os := by
  obtain ⟨post, rfl⟩ := hinitial
  obtain ⟨pre, o, rest, rfl, ho⟩ := h
  exact ⟨pre, o, rest ++ post, by simp, ho⟩

theorem peak_concat (initialEquity : Decimal) (os : List Observation) (o : Observation) :
    peak initialEquity (os ++ [o]) = larger (peak initialEquity os) o.equity := by
  unfold peak
  rw [foldl_append]
  rfl

theorem total_singleton (day : ℤ) (o : Observation) : total day [o] = 0 := rfl

theorem total_concat (day : ℤ) (os : List Observation) (last o : Observation) :
    total day (os ++ [last, o]) = if last.day = day
      then add defaultPrecision (total day (os ++ [last])) (change (last, o))
      else total day (os ++ [last]) := by
  unfold total
  rw [session_concat, map_append, foldl_append]
  split_ifs <;> rfl

theorem total_of_new (h : ∀ x ∈ os, x.day ≠ day) : total day os = 0 := by
  unfold total
  rw [session_eq_nil _ h]
  rfl

theorem streak_concat (os : List Observation) (last o : Observation) :
    streak (os ++ [last, o]) = if closes (last, o) then
        if change (last, o) < 0 then streak (os ++ [last]) + 1 else 0
      else streak (os ++ [last]) := by
  unfold streak
  rw [steps_concat, filter_append]
  cases hc : closes (last, o) with
  | false => simp [hc]
  | true =>
    rw [filter_cons_of_pos hc, filter_nil, map_append, map_singleton,
      if_pos rfl]
    by_cases hneg : change (last, o) < 0
    · rw [rtakeWhile_concat_pos _ _ _ (by simpa using hneg), if_pos hneg,
        length_append, length_singleton]
    · rw [rtakeWhile_concat_neg _ _ _ (by simpa using hneg), if_neg hneg, length_nil]

variable {x first : Observation} {f b : ℕ}

theorem find?_concat_of_mem (h : x ∈ os.find? fun o => o.day = day) :
    (os ++ [o]).find? (fun o => o.day = day) = some x := by
  rw [find?_append, Option.mem_def.mp h]
  rfl

theorem breached_iff : Breached initialEquity pre o ↔
    drawdownReached (peak initialEquity (pre ++ [o])) o.equity ∨ LossBreached o.day (pre ++ [o]) ∨
      (∃ last ∈ pre.getLast?, LossBreached last.day (pre ++ [o])) ∨
      RiskPolicy.frozen.maxConsecutiveLosses ≤ streak (pre ++ [o]) := by
  constructor
  · intro h
    cases h with
    | drawdown h => exact .inl h
    | session h => exact .inr (.inl h)
    | boundary hlast h => exact .inr (.inr (.inl ⟨_, hlast, h⟩))
    | streak h => exact .inr (.inr (.inr h))
  · rintro (h | h | ⟨last, hlast, h⟩ | h)
    · exact .drawdown h
    · exact .session h
    · exact .boundary hlast h
    · exact .streak h

theorem everBreached_next (pre : List Observation)
    (last o : Observation) : EverBreached initialEquity (pre ++ [last, o]) ↔
      EverBreached initialEquity (pre ++ [last]) ∨
        drawdownReached (peak initialEquity (pre ++ [last, o])) o.equity ∨
        LossBreached o.day (pre ++ [last, o]) ∨ LossBreached last.day (pre ++ [last, o]) ∨
        RiskPolicy.frozen.maxConsecutiveLosses ≤ streak (pre ++ [last, o]) := by
  have happend : pre ++ [last, o] = pre ++ [last] ++ [o] := by simp
  rw [happend, everBreached_concat, breached_iff]
  simp

theorem peak_next (initialEquity : Decimal) (pre : List Observation) (last o : Observation) :
    peak initialEquity (pre ++ [last, o]) =
      larger (peak initialEquity (pre ++ [last])) o.equity := by
  have happend : pre ++ [last, o] = pre ++ [last] ++ [o] := by simp
  rw [happend, peak_concat]

theorem find?_next_of_mem (h : x ∈ (pre ++ [last]).find? fun o => o.day = day) :
    x ∈ (pre ++ [last, o]).find? fun o => o.day = day := by
  have happend : pre ++ [last, o] = pre ++ [last] ++ [o] := by simp
  rw [happend]
  exact find?_concat_of_mem h

theorem find?_next_of_new (h : ∀ x ∈ pre ++ [last], x.day ≠ o.day) :
    o ∈ (pre ++ [last, o]).find? fun x => x.day = o.day := by
  have happend : pre ++ [last, o] = pre ++ [last] ++ [o] := by simp
  rw [happend, find?_append, find?_eq_none.mpr fun x hx => by simpa using h x hx]
  simp

theorem lossBreached_iff (h : first ∈ os.find? fun o => o.day = day) :
    LossBreached day os ↔ lossReached first.equity (total day os) := by
  unfold LossBreached
  rw [Option.mem_def.mp h]
  simp

def gain (p : Observation × Observation) : ℚ := p.2.realized.toRat - p.1.realized.toRat

def Ordered (os : List Observation) : Prop :=
  os.Pairwise fun a b => a.eventTimeMs ≤ b.eventTimeMs

theorem day_le {a b : Observation} (h : a.eventTimeMs ≤ b.eventTimeMs) : a.day ≤ b.day := by
  unfold Observation.day utcDayMs
  omega

theorem representable_sub {q r : ℚ} (hfb : f + b < defaultPrecision) (hq : Fits f b q)
    (hr : Fits f b r) : Representable defaultPrecision (q - r) :=
  (hq.sub hr).representable hfb

/-- Whatever the sessions are exact about: the result of the last one runs from its first to its
last observation. -/
structure Exact (os : List Observation) : Prop where
  totals : ∀ day, (total day os).toRat = ((session Observation.day day os).map gain).sum
  last : ∀ last ∈ os.getLast?, ∃ first ∈ os, os.find? (fun o => o.day = last.day) = some first ∧
    (total last.day os).toRat = last.realized.toRat - first.realized.toRat

theorem exact_of_fits (hfb : f + b < defaultPrecision) (hordered : Ordered os)
    (hfits : ∀ o ∈ os, Fits f b o.realized.toRat) : Exact os := by
  have hp : 0 < defaultPrecision := by decide
  induction os using reverseRecOn with
  | nil =>
    constructor
    · intro day
      exact toRat_zero
    · intro last hlast
      cases hlast
  | append_singleton os o ih =>
    obtain ⟨hbefore, -, hlater⟩ := pairwise_append.mp hordered
    have hold := ih hbefore fun x hx => hfits x (mem_append_left _ hx)
    have ho := hfits o (by simp)
    rcases eq_nil_or_concat os with rfl | ⟨pre, last, rfl⟩
    · constructor
      · intro day
        exact toRat_zero
      · intro x hx
        obtain rfl : o = x := by simpa using hx
        refine ⟨o, by simp, by simp, ?_⟩
        rw [sub_self]
        exact toRat_zero
    · rw [concat_eq_append] at hold hbefore hlater hfits ⊢
      obtain ⟨first, hmem, hfirst, htotal⟩ := hold.last last (by simp)
      have hlast := hfits last (by simp)
      have hfirstFits := hfits first (mem_append_left _ hmem)
      have hchange : (change (last, o)).toRat = gain (last, o) :=
        toRat_sub hp (representable_sub hfb ho hlast)
      have hadd : (add defaultPrecision (total last.day (pre ++ [last])) (change (last, o))).toRat =
          o.realized.toRat - first.realized.toRat := by
        have hsum : (total last.day (pre ++ [last])).toRat + (change (last, o)).toRat =
            o.realized.toRat - first.realized.toRat := by
          rw [htotal, hchange, gain]
          ring
        rw [toRat_add hp]
        · exact hsum
        · rw [hsum]
          exact representable_sub hfb ho hfirstFits
      rw [append_assoc]
      change Exact (pre ++ [last, o])
      constructor
      · intro day
        rw [total_concat, session_concat, map_append, sum_append]
        by_cases hday : last.day = day
        · rw [if_pos hday, if_pos hday, ← hday, hadd, map_singleton, sum_singleton,
            ← hold.totals, htotal, gain]
          ring
        · rw [if_neg hday, if_neg hday, map_nil, sum_nil, add_zero]
          exact hold.totals day
      · intro x hx
        obtain rfl : o = x := by simpa using hx
        have hle := day_le (hlater last (by simp) o (by simp))
        rcases hle.lt_or_eq with hlt | heq
        · have hnew : ∀ x ∈ pre ++ [last], x.day ≠ o.day := by
            intro x hx
            have hxlast : x.day ≤ last.day := by
              rcases mem_append.mp hx with hpre | hsingle
              · exact day_le ((pairwise_append.mp hbefore).2.2 x hpre last (by simp))
              · rw [mem_singleton.mp hsingle]
            exact (hxlast.trans_lt hlt).ne
          refine ⟨o, by simp, find?_next_of_new hnew, ?_⟩
          rw [total_concat, if_neg hlt.ne, total_of_new hnew, sub_self]
          exact toRat_zero
        · refine ⟨first, ?_, ?_, ?_⟩
          · rw [← singleton_append, ← append_assoc]
            exact mem_append_left _ hmem
          · rw [← heq]
            exact find?_next_of_mem hfirst
          · rw [← heq, total_concat, if_pos rfl, hadd]

theorem Exact.sum (h : Exact (first :: os)) :
    ((sessions Observation.day (first :: os)).map fun day => (total day (first :: os)).toRat).sum =
      ((first :: os).getLastD first).realized.toRat - first.realized.toRat := by
  simp only [h.totals]
  rw [sum_sessions Observation.day gain, getLastD_cons]
  exact sum_steps (fun o : Observation => o.realized.toRat) first os

end RiskHistory

namespace _RiskTracker

open RiskHistory

variable {symbol : Symbol} {initialEquity : String} {os pre : List Observation}
  {o last : Observation} {t t' : _RiskTracker} {state : ValidationRiskState}

/-- What an accepted observation does. -/
theorem observe_eq_ok (h : t.observe o = .ok (state, t')) :
    let delta := sub defaultPrecision o.realized t.previousRealizedPnl
    let rolled := t._roll o.day o.equity delta
    (o.closedTrades - t.previousClosedTrades = 0 ∨ o.closedTrades - t.previousClosedTrades = 1) ∧
      t'.peak = larger t.peak o.equity ∧ t'.session = some rolled.1 ∧
      t'.sessionRealizedPnl = rolled.2.1 ∧ t'.previousRealizedPnl = o.realized ∧
      t'.previousClosedTrades = o.closedTrades ∧
      t'.consecutiveLosses = (if o.closedTrades - t.previousClosedTrades = 0
        then t.consecutiveLosses else if delta < 0 then t.consecutiveLosses + 1 else 0) ∧
      (t'.killSwitchActive = true ↔ t.killSwitchActive = true ∨ rolled.2.2 = true ∨
        drawdownReached t'.peak o.equity ∨ lossReached rolled.1.startEquity rolled.2.1 ∨
        RiskPolicy.frozen.maxConsecutiveLosses ≤ t'.consecutiveLosses) := by
  unfold observe at h
  rw [raiseIf_bind_eq_ok] at h
  obtain ⟨hclosed, h⟩ := h
  cases h
  refine ⟨by omega, rfl, rfl, rfl, rfl, rfl, rfl, ?_⟩
  simp only [Bool.or_eq_true, decide_eq_true_eq, or_assoc]

theorem observe_of_closed (h : o.closedTrades = t.previousClosedTrades ∨
    o.closedTrades = t.previousClosedTrades + 1) : ∃ state t', t.observe o = .ok (state, t') := by
  unfold observe
  dsimp only
  rw [raiseIf_neg (by omega)]
  exact ⟨_, _, rfl⟩

theorem roll_first (h : t.session = none) (day : ℤ) (equity delta : Decimal) :
    t._roll day equity delta = (⟨day, equity⟩, 0, false) := by
  unfold _roll
  rw [h]

theorem roll_same {session : _Session} (h : t.session = some session) (equity delta : Decimal) :
    t._roll session.startTimeMs equity delta =
      (session, add defaultPrecision t.sessionRealizedPnl delta, false) := by
  unfold _roll
  rw [h]
  exact if_neg (not_not.mpr rfl)

theorem roll_next {session : _Session} (h : t.session = some session) {day : ℤ}
    (hday : day ≠ session.startTimeMs) (equity delta : Decimal) :
    t._roll day equity delta = (⟨day, equity⟩, 0,
      lossReached session.startEquity (add defaultPrecision t.sessionRealizedPnl delta)) := by
  unfold _roll
  rw [h]
  exact if_pos hday

/-- What the tracker remembers of the last observation and its session. -/
structure Remembers (os : List Observation) (last : Observation) (t : _RiskTracker) : Prop where
  days : ∀ x ∈ os, x.day ≤ last.day
  session : ∃ first ∈ os.find? (fun o => o.day = last.day),
    t.session = some ⟨last.day, first.equity⟩
  total : t.sessionRealizedPnl = total last.day os
  realized : t.previousRealizedPnl = last.realized
  closed : t.previousClosedTrades = last.closedTrades

/-- The tracker agrees with the history of its observations. -/
structure Tracks (initialEquity : String) (os : List Observation) (t : _RiskTracker) : Prop where
  peak : t.peak = RiskHistory.peak (ofText initialEquity) os
  fresh : os = [] → t.session = none ∧ t.previousClosedTrades = 0
  remembers : ∀ last ∈ os.getLast?, Remembers os last t
  losses : t.consecutiveLosses = streak os
  latched : t.killSwitchActive = true ↔ EverBreached (ofText initialEquity) os

theorem not_everBreached_nil {equity : Decimal} : ¬ EverBreached equity [] := by
  rintro ⟨pre, o, post, h, -⟩
  exact cons_ne_nil _ _ (append_eq_nil_iff.mp h.symm).2

theorem tracks_init (symbol : Symbol) (initialEquity : String) :
    Tracks initialEquity [] (init symbol initialEquity) := by
  constructor
  · rfl
  · exact fun _ => ⟨rfl, rfl⟩
  · intro last hlast
    cases hlast
  · simp [init, streak, steps]
  · simp [init, not_everBreached_nil]

theorem Tracks.observe_first (h : Tracks initialEquity [] t) (hclosed : o.closedTrades = 0)
    (ho : t.observe o = .ok (state, t')) : Tracks initialEquity [o] t' := by
  obtain ⟨hsession, hprevious⟩ := h.fresh rfl
  have hpeak := h.peak
  have hlosses := h.losses
  obtain ⟨-, hpeak', hsession', htotal', hrealized', hclosed', hlosses', hlatched'⟩ :=
    observe_eq_ok ho
  rw [roll_first hsession] at hsession' htotal' hlatched'
  rw [hclosed, hprevious, sub_zero, if_pos rfl, hlosses] at hlosses'
  have hfind : o ∈ [o].find? fun x => x.day = o.day := by simp
  rw [hpeak] at hpeak'
  refine ⟨hpeak', nofun, ?_, hlosses', ?_⟩
  · rintro last ⟨⟩
    refine ⟨?_, ⟨o, hfind, hsession'⟩, htotal', hrealized', hclosed'⟩
    intro x hx
    rw [mem_singleton.mp hx]
    rfl
  · rw [hlatched', h.latched, hpeak', hlosses']
    change _ ↔ EverBreached _ ([] ++ [o])
    rw [everBreached_concat, breached_iff]
    change _ ↔ _ ∨ _ ∨ LossBreached o.day [o] ∨ _
    rw [lossBreached_iff hfind]
    simp [RiskHistory.peak, total_singleton, streak, steps]

theorem Tracks.total_next (h : Tracks initialEquity (pre ++ [last]) t) (o : Observation) :
    add defaultPrecision t.sessionRealizedPnl
        (sub defaultPrecision o.realized t.previousRealizedPnl) =
      total last.day (pre ++ [last, o]) := by
  obtain ⟨-, -, htotal, hrealized, -⟩ := h.remembers last (by simp)
  rw [total_concat, if_pos rfl, htotal, hrealized]
  rfl

section Next
variable (h : Tracks initialEquity (pre ++ [last]) t) (ho : t.observe o = .ok (state, t'))
include h ho

theorem Tracks.losses_next : t'.consecutiveLosses = streak (pre ++ [last, o]) := by
  obtain ⟨-, -, -, hrealized, hclosed⟩ := h.remembers last (by simp)
  obtain ⟨-, -, -, -, -, -, hlosses, -⟩ := observe_eq_ok ho
  have hchange : sub defaultPrecision o.realized last.realized = change (last, o) := rfl
  rw [hlosses, hrealized, hclosed, streak_concat, h.losses, hchange]
  by_cases hsame : o.closedTrades = last.closedTrades
  · have hno : ¬ closes (last, o) = true := by simp [closes, hsame]
    rw [if_pos (by omega), if_neg hno]
  · have hyes : closes (last, o) = true := by simp [closes, hsame]
    rw [if_neg (by omega), if_pos hyes]
    split_ifs
    · push_cast
      rfl
    · rfl

/-- A later observation of the same day adds its change to the session. -/
theorem Tracks.observe_same (hday : o.day = last.day) :
    Tracks initialEquity (pre ++ [last, o]) t' := by
  obtain ⟨hdays, ⟨first, hfirst, hsession⟩, -⟩ := h.remembers last (by simp)
  have hlosses := h.losses_next ho
  have htotal := h.total_next o
  obtain ⟨-, hpeak', hsession', htotal', hrealized', hclosed', -, hlatched'⟩ := observe_eq_ok ho
  have hroll := roll_same hsession o.equity (sub defaultPrecision o.realized t.previousRealizedPnl)
  dsimp only at hroll
  rw [hday, hroll] at hsession' htotal' hlatched'
  rw [htotal] at htotal' hlatched'
  rw [h.peak, ← peak_next] at hpeak'
  have hfind : first ∈ (pre ++ [last, o]).find? fun x => x.day = last.day :=
    find?_next_of_mem hfirst
  refine ⟨hpeak', ?_, ?_, hlosses, ?_⟩
  · intro hnil
    simp at hnil
  · intro x hx
    obtain rfl : o = x := by simpa using hx
    constructor
    · intro y hy
      simp only [mem_append, mem_cons, not_mem_nil, or_false] at hy
      rw [hday]
      rcases hy with hy | rfl | rfl
      · exact hdays y (mem_append_left _ hy)
      · exact le_rfl
      · exact hday.le
    · rw [hday]
      exact ⟨first, hfind, hsession'⟩
    · rw [hday]
      exact htotal'
    · exact hrealized'
    · exact hclosed'
  · rw [hlatched', h.latched, everBreached_next, hday, lossBreached_iff hfind, hpeak', hlosses]
    simp only [Bool.false_eq_true, false_or, or_self_left]

/-- The first observation of a later day closes the session with its change. -/
theorem Tracks.observe_later (hday : last.day < o.day) :
    Tracks initialEquity (pre ++ [last, o]) t' := by
  obtain ⟨hdays, ⟨first, hfirst, hsession⟩, -⟩ := h.remembers last (by simp)
  have hlosses := h.losses_next ho
  have hclosing := h.total_next o
  obtain ⟨-, hpeak', hsession', htotal', hrealized', hclosed', -, hlatched'⟩ := observe_eq_ok ho
  rw [roll_next hsession hday.ne', hclosing] at hsession' htotal' hlatched'
  rw [h.peak, ← peak_next] at hpeak'
  have hnew : ∀ x ∈ pre ++ [last], x.day ≠ o.day := fun x hx =>
    ((hdays x hx).trans_lt hday).ne
  have hzero : total o.day (pre ++ [last, o]) = 0 := by
    rw [total_concat, if_neg hday.ne]
    exact total_of_new hnew
  have hfindOld : first ∈ (pre ++ [last, o]).find? fun x => x.day = last.day :=
    find?_next_of_mem hfirst
  have hfind := find?_next_of_new hnew
  refine ⟨hpeak', ?_, ?_, hlosses, ?_⟩
  · intro hnil
    simp at hnil
  · intro x hx
    obtain rfl : o = x := by simpa using hx
    constructor
    · intro y hy
      simp only [mem_append, mem_cons, not_mem_nil, or_false] at hy
      rcases hy with hy | rfl | rfl
      · exact (hdays y (mem_append_left _ hy)).trans hday.le
      · exact hday.le
      · exact le_rfl
    · exact ⟨o, hfind, hsession'⟩
    · exact htotal'.trans hzero.symm
    · exact hrealized'
    · exact hclosed'
  · rw [hlatched', h.latched, everBreached_next, lossBreached_iff hfind,
      lossBreached_iff hfindOld, hzero, hpeak', hlosses]
    apply or_congr_right
    rw [or_left_comm]
    exact or_congr_right or_left_comm

end Next

/-- Observations that come in the order of time, the first before any closed trade. -/
structure Timely (os : List Observation) : Prop where
  ordered : Ordered os
  first : ∀ o ∈ os.head?, o.closedTrades = 0

theorem Fed.tracks (h : Fed (init symbol initialEquity) os t) (htimely : Timely os) :
    Tracks initialEquity os t := by
  induction h with
  | start => exact tracks_init symbol initialEquity
  | @observe os o t t' state fed observed ih =>
    obtain ⟨hordered, hfirst⟩ := htimely
    unfold Ordered at hordered
    rw [pairwise_append] at hordered
    have hhead : ∀ x ∈ os.head?, x.closedTrades = 0 := by
      intro x hx
      apply hfirst
      rw [head?_append, Option.mem_def.mp hx]
      rfl
    have hbefore := ih ⟨hordered.1, hhead⟩
    rcases eq_nil_or_concat os with rfl | ⟨pre, last, rfl⟩
    · exact hbefore.observe_first (hfirst o rfl) observed
    · rw [concat_eq_append] at hbefore hordered ⊢
      rw [append_assoc]
      have hle := day_le (hordered.2.2 last (by simp) o (by simp))
      rcases hle.lt_or_eq with hlt | heq
      · exact hbefore.observe_later observed hlt
      · exact hbefore.observe_same observed heq.symm

end _RiskTracker

end TradingLab
