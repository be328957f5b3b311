import TradingLab.Crisis.Replay

/-!
# The trackers of the risk overlay

The reference arm wraps the latched tracker of the forward runner. The challenger
has a tracker of its own: a drawdown latches for good, a session loss blocks until
the UTC day ends, and a streak of losses blocks for a number of decisions and then
until the account is flat with nothing else blocking it.
-/

namespace TradingLab

open Decimal Accounting

structure HSLRiskOverlayError where
  message : String
deriving Repr, DecidableEq

namespace RiskOverlay

open _RiskTracker (lossReached drawdownReached)

def _plain (d : Decimal) : String := Crisis._plain d

def _thresholdReasons (s : ValidationRiskState) : List EntryVetoReason :=
  (if lossReached (ofText s.sessionStartEquityQuote) (ofText s.sessionRealizedPnlQuote)
    then [.sessionLossLimit] else []) ++
  (if drawdownReached (ofText s.peakEquityQuote) (ofText s.equityQuote)
    then [.drawdownLimit] else []) ++
  (if RiskPolicy.frozen.maxConsecutiveLosses ≤ s.consecutiveLosses
    then [.consecutiveLossLimit] else [])

structure _ReferenceRiskTracker where
  tracker : _RiskTracker
  killSwitchTriggerCount : ℤ
  hardLatchTriggerCount : ℤ
  observedConsecutiveLossesPeak : ℤ
  hardLatched : Bool

namespace _ReferenceRiskTracker

def init (symbol : Symbol) (initialEquity : String) : _ReferenceRiskTracker where
  tracker := .init symbol initialEquity
  killSwitchTriggerCount := 0
  hardLatchTriggerCount := 0
  observedConsecutiveLossesPeak := 0
  hardLatched := false

def observe (t : _ReferenceRiskTracker) (o : Observation) :
    Except ForwardPaperRunnerError (ValidationRiskState × _ReferenceRiskTracker) := do
  let (state, tracker) ← t.tracker.observe o
  let latches := decide (.drawdownLimit ∈ _thresholdReasons state) && !t.hardLatched
  return (state, {
    tracker
    killSwitchTriggerCount := t.killSwitchTriggerCount +
      if state.killSwitchActive && !t.tracker.killSwitchActive then 1 else 0
    hardLatchTriggerCount := t.hardLatchTriggerCount + if latches then 1 else 0
    observedConsecutiveLossesPeak := max t.observedConsecutiveLossesPeak state.consecutiveLosses
    hardLatched := t.hardLatched || latches })

end _ReferenceRiskTracker

structure _RecoveryCooldownRiskTracker where
  symbol : Symbol
  peak : Decimal
  session : Option _Session
  sessionRealizedPnl : Decimal
  previousRealizedPnl : Decimal
  previousClosedTrades : ℤ
  observedConsecutiveLosses : ℤ
  entryEligibilityConsecutiveLosses : ℤ
  observedConsecutiveLossesPeak : ℤ
  hardLatched : Bool
  sessionBlockActive : Bool
  cooldownPrimaryDecisions : ℤ
  cooldownRemaining : ℤ
  cooldownReleasePending : Bool
  killSwitchTriggerCount : ℤ
  hardLatchTriggerCount : ℤ
  sessionTriggerCount : ℤ
  lossStreakTriggerCount : ℤ
  sessionReleaseCount : ℤ
  cooldownReleaseCount : ℤ
  cooldownBlockedDecisionCount : ℤ
deriving DecidableEq

/-- The number of decisions a streak of losses blocks after the one that triggered it. -/
def cooldownDecisions : ℤ := 24

namespace _RecoveryCooldownRiskTracker

def init (symbol : Symbol) (initialEquity : String) (cooldownPrimaryDecisions : ℤ) :
    Except HSLRiskOverlayError _RecoveryCooldownRiskTracker := do
  raiseIf (cooldownPrimaryDecisions ≠ cooldownDecisions)
    ⟨"HSL-002 cooldown differs from preregistration"⟩
  return {
    symbol
    peak := ofText initialEquity
    session := none
    sessionRealizedPnl := 0
    previousRealizedPnl := 0
    previousClosedTrades := 0
    observedConsecutiveLosses := 0
    entryEligibilityConsecutiveLosses := 0
    observedConsecutiveLossesPeak := 0
    hardLatched := false
    sessionBlockActive := false
    cooldownPrimaryDecisions
    cooldownRemaining := 0
    cooldownReleasePending := false
    killSwitchTriggerCount := 0
    hardLatchTriggerCount := 0
    sessionTriggerCount := 0
    lossStreakTriggerCount := 0
    sessionReleaseCount := 0
    cooldownReleaseCount := 0
    cooldownBlockedDecisionCount := 0 }

variable (t : _RecoveryCooldownRiskTracker) (o : Observation)

def _riskState (killSwitchActive : Bool) : Except HSLRiskOverlayError ValidationRiskState :=
  match t.session with
  | none => .error ⟨"HSL-002 recovery tracker has no session"⟩
  | some session => .ok {
      symbol := t.symbol
      equityQuote := _plain o.equity
      cashQuote := _plain o.snapshot.cash
      positionQuantity := _plain o.snapshot.assetQuantity
      markPrice := o.markPrice
      peakEquityQuote := _plain t.peak
      sessionStartTimeMs := session.startTimeMs
      sessionStartEquityQuote := _plain session.startEquity
      sessionRealizedPnlQuote := _plain t.sessionRealizedPnl
      consecutiveLosses := t.entryEligibilityConsecutiveLosses
      openPositions := if 0 < o.snapshot.assetQuantity then 1 else 0
      killSwitchActive }

/-- The change of the realized result since the last observation. -/
def delta : Decimal := sub defaultPrecision o.realized t.previousRealizedPnl

/-- A streak after an observation: a loss makes it longer, any other closed trade ends it. -/
def streakAfter (losses : ℤ) : ℤ :=
  if o.closedTrades - t.previousClosedTrades = 0 then losses
  else if t.delta o < 0 then losses + 1 else 0

def _countLosses : _RecoveryCooldownRiskTracker :=
  { t with
    observedConsecutiveLosses := t.streakAfter o t.observedConsecutiveLosses
    entryEligibilityConsecutiveLosses := t.streakAfter o t.entryEligibilityConsecutiveLosses
    observedConsecutiveLossesPeak :=
      max t.observedConsecutiveLossesPeak (t.streakAfter o t.observedConsecutiveLosses) }

/-- The session of an observation. The change at the first observation of a day is left out of
both sessions. -/
def _roll (delta : Decimal) : _RecoveryCooldownRiskTracker :=
  match t.session with
  | none => { t with session := some ⟨o.day, o.equity⟩, sessionRealizedPnl := 0 }
  | some session =>
      if o.day ≠ session.startTimeMs then
        { t with
          sessionBlockActive := false
          sessionReleaseCount := t.sessionReleaseCount + if t.sessionBlockActive then 1 else 0
          session := some ⟨o.day, o.equity⟩
          sessionRealizedPnl := 0 }
      else { t with sessionRealizedPnl := add defaultPrecision t.sessionRealizedPnl delta }

def sessionLossReached : Bool :=
  t.session.any fun session => lossReached session.startEquity t.sessionRealizedPnl

/-- The latch of the drawdown and the block of the session. -/
def _latch : _RecoveryCooldownRiskTracker :=
  let peak := larger t.peak o.equity
  let latches := drawdownReached peak o.equity && !t.hardLatched
  let blocks := t.sessionLossReached && !t.sessionBlockActive
  { t with
    peak
    hardLatched := t.hardLatched || latches
    hardLatchTriggerCount := t.hardLatchTriggerCount + if latches then 1 else 0
    sessionTriggerCount := t.sessionTriggerCount + if blocks then 1 else 0
    killSwitchTriggerCount := t.killSwitchTriggerCount + (if latches then 1 else 0) +
      if blocks then 1 else 0
    sessionBlockActive := t.sessionBlockActive || blocks }

def free : Bool :=
  decide (o.snapshot.assetQuantity ≈ 0) && !t.hardLatched && !t.sessionBlockActive

/-- The end of a cooldown. -/
def _release : _RecoveryCooldownRiskTracker :=
  let releases := t.cooldownReleasePending && t.free o
  { t with
    entryEligibilityConsecutiveLosses := if releases then 0 else t.entryEligibilityConsecutiveLosses
    cooldownReleasePending := t.cooldownReleasePending && !releases
    cooldownReleaseCount := t.cooldownReleaseCount + if releases then 1 else 0 }

/-- A streak of losses starts a cooldown. -/
def triggers : Bool :=
  !decide (0 < t.cooldownRemaining) && !t.cooldownReleasePending &&
    decide (RiskPolicy.frozen.maxConsecutiveLosses ≤ t.entryEligibilityConsecutiveLosses)

def _trigger : _RecoveryCooldownRiskTracker :=
  { t with
    cooldownRemaining := if t.triggers then t.cooldownPrimaryDecisions else t.cooldownRemaining
    lossStreakTriggerCount := t.lossStreakTriggerCount + if t.triggers then 1 else 0
    killSwitchTriggerCount := t.killSwitchTriggerCount + if t.triggers then 1 else 0 }

/-- One decision of a cooldown that began before it. -/
def _countDown : Except HSLRiskOverlayError _RecoveryCooldownRiskTracker := do
  raiseIf (t.cooldownRemaining - 1 < 0) ⟨"HSL-002 cooldown underflowed"⟩
  return { t with
    cooldownBlockedDecisionCount := t.cooldownBlockedDecisionCount + 1
    cooldownRemaining := t.cooldownRemaining - 1
    cooldownReleasePending := t.cooldownReleasePending || decide (t.cooldownRemaining - 1 = 0) }

/-- A cooldown counts the decisions after the one that started it. -/
def _counted (cooling : Bool) : Except HSLRiskOverlayError _RecoveryCooldownRiskTracker :=
  if cooling then t._countDown else .ok t

/-- The tracker before it decides on a cooldown. -/
def _updated : _RecoveryCooldownRiskTracker :=
  (((t._countLosses o)._roll o (t.delta o))._latch o)._release o

def observe : Except HSLRiskOverlayError (ValidationRiskState × _RecoveryCooldownRiskTracker) := do
  let closedDelta := o.closedTrades - t.previousClosedTrades
  raiseIf (closedDelta ≠ 0 ∧ closedDelta ≠ 1) ⟨"HSL-002 close count advanced unexpectedly"⟩
  let cooling := decide (0 < t.cooldownRemaining)
  let updated := t._updated o
  let triggered := updated._trigger
  let killSwitchActive := triggered.hardLatched || triggered.sessionBlockActive ||
    (cooling || updated.triggers) || triggered.cooldownReleasePending
  let state ← triggered._riskState o killSwitchActive
  let counted ← triggered._counted cooling
  return (state, { counted with
    previousRealizedPnl := o.realized
    previousClosedTrades := o.closedTrades })

section Observed
variable {t o}
variable {t' : _RecoveryCooldownRiskTracker} {state : ValidationRiskState} {d : Decimal}

theorem roll_first (h : t.session = none) : t._roll o d =
    { t with session := some ⟨o.day, o.equity⟩, sessionRealizedPnl := 0 } := by
  unfold _roll
  simp only [h]

theorem roll_same {session : _Session} (h : t.session = some session)
    (hday : o.day = session.startTimeMs) : t._roll o d =
    { t with sessionRealizedPnl := add defaultPrecision t.sessionRealizedPnl d } := by
  unfold _roll
  simp only [h]
  exact if_neg (not_not.mpr hday)

theorem roll_next {session : _Session} (h : t.session = some session)
    (hday : o.day ≠ session.startTimeMs) : t._roll o d =
    { t with
      sessionBlockActive := false
      sessionReleaseCount := t.sessionReleaseCount + if t.sessionBlockActive then 1 else 0
      session := some ⟨o.day, o.equity⟩
      sessionRealizedPnl := 0 } := by
  unfold _roll
  simp only [h]
  exact if_pos hday

theorem roll_frame : (t._roll o d).peak = t.peak ∧ (t._roll o d).hardLatched = t.hardLatched ∧
    (t._roll o d).cooldownPrimaryDecisions = t.cooldownPrimaryDecisions ∧
    (t._roll o d).cooldownRemaining = t.cooldownRemaining ∧
    (t._roll o d).cooldownReleasePending = t.cooldownReleasePending ∧
    (t._roll o d).cooldownReleaseCount = t.cooldownReleaseCount ∧
    (t._roll o d).lossStreakTriggerCount = t.lossStreakTriggerCount ∧
    (t._roll o d).entryEligibilityConsecutiveLosses = t.entryEligibilityConsecutiveLosses := by
  cases h : t.session with
  | none => simp [roll_first h]
  | some session =>
    by_cases hday : o.day = session.startTimeMs
    · simp [roll_same h hday]
    · simp [roll_next h hday]

theorem exists_session_roll : ∃ session, (t._roll o d).session = some session := by
  cases h : t.session with
  | none => simp [roll_first h]
  | some session =>
    by_cases hday : o.day = session.startTimeMs
    · simp [roll_same h hday, h]
    · simp [roll_next h hday]

theorem updated_peak : (t._updated o).peak = larger t.peak o.equity := by
  simp [_updated, _release, _latch, roll_frame, _countLosses]

theorem updated_hardLatched : (t._updated o).hardLatched =
    (t.hardLatched || drawdownReached (larger t.peak o.equity) o.equity) := by
  cases h : t.hardLatched <;> simp [_updated, _release, _latch, roll_frame, _countLosses, h]

theorem updated_primary :
    (t._updated o).cooldownPrimaryDecisions = t.cooldownPrimaryDecisions := by
  simp [_updated, _release, _latch, roll_frame, _countLosses]

theorem updated_remaining : (t._updated o).cooldownRemaining = t.cooldownRemaining := by
  simp [_updated, _release, _latch, roll_frame, _countLosses]

theorem updated_triggerCount :
    (t._updated o).lossStreakTriggerCount = t.lossStreakTriggerCount := by
  simp [_updated, _release, _latch, roll_frame, _countLosses]

theorem updated_free : (t._updated o).free o =
    (((t._countLosses o)._roll o (t.delta o))._latch o).free o := rfl

theorem updated_pending : (t._updated o).cooldownReleasePending =
    (t.cooldownReleasePending && !(t._updated o).free o) := by
  rw [updated_free]
  cases h : t.cooldownReleasePending <;>
    simp [_updated, _release, _latch, roll_frame, _countLosses, h]

theorem updated_releaseCount : (t._updated o).cooldownReleaseCount =
    t.cooldownReleaseCount + if t.cooldownReleasePending && (t._updated o).free o then 1 else 0 := by
  rw [updated_free]
  simp [_updated, _release, _latch, roll_frame, _countLosses]

theorem updated_eligible : (t._updated o).entryEligibilityConsecutiveLosses =
    if t.cooldownReleasePending && (t._updated o).free o then 0
    else t.streakAfter o t.entryEligibilityConsecutiveLosses := by
  rw [updated_free]
  simp [_updated, _release, _latch, roll_frame, _countLosses]

theorem exists_session_updated : ∃ session, (t._updated o).session = some session :=
  exists_session_roll

/-- What an accepted observation does. -/
theorem observe_eq_ok (h : t.observe o = .ok (state, t')) :
    (o.closedTrades - t.previousClosedTrades = 0 ∨ o.closedTrades - t.previousClosedTrades = 1) ∧
    state.consecutiveLosses = (t._updated o).entryEligibilityConsecutiveLosses ∧
    state.killSwitchActive = ((t._updated o).hardLatched || (t._updated o).sessionBlockActive ||
      (decide (0 < t.cooldownRemaining) || (t._updated o).triggers) ||
      (t._updated o).cooldownReleasePending) ∧
    ∃ counted, (t._updated o)._trigger._counted (0 < t.cooldownRemaining) = .ok counted ∧
      t' = { counted with
        previousRealizedPnl := o.realized
        previousClosedTrades := o.closedTrades } := by
  unfold observe at h
  rw [raiseIf_bind_eq_ok] at h
  obtain ⟨hclosed, h⟩ := h
  obtain ⟨s, hs, h⟩ := bind_eq_ok.mp h
  obtain ⟨counted, hcounted, h⟩ := bind_eq_ok.mp h
  obtain ⟨session, hsession⟩ : ∃ session, (t._updated o)._trigger.session = some session :=
    exists_session_updated
  unfold _riskState at hs
  rw [hsession] at hs
  cases hs
  cases h
  exact ⟨by omega, rfl, rfl, counted, hcounted, rfl⟩

theorem countDown_eq_ok {u : _RecoveryCooldownRiskTracker} : t._countDown = .ok u ↔
    0 < t.cooldownRemaining ∧ u = { t with
      cooldownBlockedDecisionCount := t.cooldownBlockedDecisionCount + 1
      cooldownRemaining := t.cooldownRemaining - 1
      cooldownReleasePending :=
        t.cooldownReleasePending || decide (t.cooldownRemaining - 1 = 0) } := by
  unfold _countDown
  rw [raiseIf_bind_eq_ok]
  constructor
  · rintro ⟨hpos, h⟩
    cases h
    exact ⟨by omega, rfl⟩
  · rintro ⟨hpos, rfl⟩
    exact ⟨by omega, rfl⟩

/-- A cooldown never counts below zero, so an observation is refused for its closed trades only. -/
theorem observe_of_closed (h : o.closedTrades - t.previousClosedTrades = 0 ∨
    o.closedTrades - t.previousClosedTrades = 1) : ∃ state t', t.observe o = .ok (state, t') := by
  obtain ⟨session, hsession⟩ : ∃ session, (t._updated o)._trigger.session = some session :=
    exists_session_updated
  unfold observe _riskState _counted
  dsimp only
  rw [raiseIf_neg (by omega), hsession]
  by_cases hcooling : 0 < t.cooldownRemaining
  · have htriggered : (t._updated o)._trigger.cooldownRemaining = t.cooldownRemaining := by
      simp [_trigger, triggers, updated_remaining, hcooling]
    have hdown := countDown_eq_ok.mpr ⟨htriggered ▸ hcooling, rfl⟩
    simp only [decide_eq_true hcooling, if_true, hdown]
    exact ⟨_, _, rfl⟩
  · simp only [decide_eq_false hcooling, Bool.false_eq_true, if_false]
    exact ⟨_, _, rfl⟩

end Observed

end _RecoveryCooldownRiskTracker

end RiskOverlay

end TradingLab
