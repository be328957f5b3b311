import TradingLab.Backtest.Reconcile

/-!
# Fills at a moment

Of its event the fill engine reads the symbol of the snapshot and the two times,
so that an event with another kind of snapshot is filled the same way.
-/

namespace TradingLab

open Decimal Method

structure Moment where
  symbol : Symbol
  decisionTimeMs : ℤ
  eligibleFillOpenTimeMs : ℤ
deriving DecidableEq

def DecisionEvent.moment (e : DecisionEvent) : Moment :=
  ⟨e.snapshot.symbol, e.decisionTimeMs, e.eligibleFillOpenTimeMs⟩

namespace PaperFillEngine

def _referenceAt (s : PaperFillEngine) (action : IntentAction) (m : Moment)
    (quantity price : String) (reason : FillReason) : Except FillModelError FillReference :=
  FillReference.build ⟨action, s.symbol, m.decisionTimeMs, m.eligibleFillOpenTimeMs, quantity, price,
    reason⟩

def _protectiveExitAt (m : Moment) (bar : Candle) :
    Method PaperFillEngine FillModelError (Option FillReference) := do
  let s ← read id
  match s._position with
  | none => return none
  | some position =>
      match _level position bar with
      | none => return none
      | some (price, reason) => do
          let result ← check (s._referenceAt .exitLong m position.quantity price reason)
          modify fun s => { s with _position := none }
          return some result

def _exitLongAt (m : Moment) (bar : Candle) :
    Method PaperFillEngine FillModelError (List FillReference) := do
  let s ← read id
  match s._position with
  | none => check (.error ⟨"Cannot exit without an open long position"⟩)
  | some position => do
      let fill ← check (s._referenceAt .exitLong m position.quantity bar.open' .scriptedExit)
      modify fun s => { s with _position := none }
      return [fill]

def _enterLongAt (m : Moment) (position : _OpenPosition) (bar : Candle) :
    Method PaperFillEngine FillModelError (List FillReference) := do
  let s ← read id
  check (raiseIf s.hasPosition ⟨"Overlapping long positions are forbidden"⟩)
  let opened := ofText bar.open'
  check (raiseIf (¬ (ofText position.stopPrice < opened ∧ opened < ofText position.targetPrice))
    ⟨"Next-open price is outside the long bracket"⟩)
  modify fun s => { s with _position := some position }
  let fill ← check (s._referenceAt .enterLong m position.quantity bar.open' .nextPrimaryOpen)
  let protective ← _protectiveExitAt m bar
  return fill :: protective.toList

def _fillsAt (m : Moment) (intent : PaperIntent) (bar : Candle) :
    Method PaperFillEngine FillModelError (List FillReference) :=
  if intent.action = .exitLong then _exitLongAt m bar
  else if h : intent.action = .enterLong then _enterLongAt m (intent.position h) bar
  else do
    let protective ← _protectiveExitAt m bar
    return protective.toList

/-- The arguments of `process` at a moment. -/
structure MomentCall where
  moment : Moment
  intent : PaperIntent
  fillCandle : Candle

def Call.atMoment (c : Call) : MomentCall := ⟨c.event.moment, c.intent, c.fillCandle⟩

def MomentCall.Fits (c : MomentCall) (s : PaperFillEngine) : Prop :=
  c.intent.decisionTimeMs = c.moment.decisionTimeMs ∧ c.moment.symbol = s.symbol ∧
    c.fillCandle.symbol = s.symbol ∧ c.fillCandle.interval = primaryInterval ∧
    c.fillCandle.isClosed ∧ c.fillCandle.openTimeMs = c.moment.eligibleFillOpenTimeMs

instance (c : MomentCall) (s : PaperFillEngine) : Decidable (c.Fits s) := by
  unfold MomentCall.Fits
  infer_instance

def _attemptAt (c : MomentCall) : Method PaperFillEngine FillModelError (List FillReference) := do
  let fills ← _fillsAt c.moment c.intent c.fillCandle
  check (raiseIf (ofText c.fillCandle.baseVolume < _volume fills)
    ⟨"Paper fills exceed the candle base volume"⟩)
  return fills

def processAt (c : MomentCall) : Method PaperFillEngine FillModelError (List FillReference) := do
  let s ← read id
  check (raiseIf (¬ c.Fits s) ⟨"Intent, event or next-open candle is invalid"⟩)
  let original ← read _position
  (_attemptAt c).onError (modify fun s => { s with _position := original })

theorem process_eq_processAt (c : Call) : process c = processAt c.atMoment := rfl

def protectiveReasons : List FillReason := [.stop, .target, .ambiguousStopPriority]

variable {bar : Candle} {price : String} {reason : FillReason} {s s' : PaperFillEngine}
  {m : Moment}

theorem level_reason {position : _OpenPosition}
    (h : _level position bar = some (price, reason)) : reason ∈ protectiveReasons := by
  unfold _level at h
  dsimp only at h
  split_ifs at h
  all_goals
    cases h
    decide

/-- What happens to an engine that is told to hold: nothing, or its bracket closes the position. -/
inductive Protected (s s' : PaperFillEngine) : List FillReference → Prop
  | kept (h : s' = s) : Protected s s' []
  | closed {r : FillReference} (hexit : r.action = .exitLong) (hreason : r.reason ∈ protectiveReasons)
      (hheld : s.hasPosition) (hflat : ¬ s'.hasPosition) : Protected s s' [r]

theorem reason_of_referenceAt {action : IntentAction} {quantity : String} {r : FillReference}
    (h : s._referenceAt action m quantity price reason = .ok r) :
    r.action = action ∧ r.reason = reason := by
  obtain ⟨hv, rfl⟩ := construct_eq_ok.mp h
  exact ⟨rfl, rfl⟩

theorem call_protectiveExitAt_eq_ok {result : Option FillReference}
    (h : (_protectiveExitAt m bar).call s = (.ok result, s')) :
    Protected s s' result.toList := by
  unfold _protectiveExitAt at h
  rw [call_read_bind] at h
  simp only [id] at h
  cases hs : s._position with
  | none =>
    rw [hs] at h
    cases h
    exact .kept rfl
  | some position =>
    rw [hs] at h
    dsimp only at h
    cases hl : _level position bar with
    | none =>
      rw [hl] at h
      cases h
      exact .kept rfl
    | some level =>
      rw [hl] at h
      dsimp only at h
      rw [call_check_bind_eq_ok] at h
      obtain ⟨r, hr, h⟩ := h
      rw [call_modify_bind] at h
      cases h
      obtain ⟨haction, hreason⟩ := reason_of_referenceAt hr
      refine .closed haction (hreason ▸ level_reason hl) ?_ ?_
      · rw [hasPosition, hs]
        exact Option.some_ne_none position
      · exact fun hheld => hheld rfl

/-- An engine that is told to hold never opens a position, and closes one by its bracket only. -/
theorem call_processAt_hold {c : MomentCall} (hhold : c.intent.action = .hold)
    {fills : List FillReference}
    (h : (processAt c).call s = (.ok fills, s')) : Protected s s' fills := by
  unfold processAt at h
  simp only [call_read_bind, call_check_bind_eq_ok, raiseIf_eq_ok, id, exists_const] at h
  obtain ⟨-, h⟩ := h
  obtain ⟨refs, t, hfills, h⟩ := call_bind_eq_ok.mp (call_onError_eq_ok.mp h)
  rw [call_check_bind_eq_ok] at h
  obtain ⟨-, -, h⟩ := h
  cases h
  unfold _fillsAt at hfills
  rw [if_neg (by simp [hhold]), dif_neg (by simp [hhold])] at hfills
  obtain ⟨result, u, hexit, hfills⟩ := call_bind_eq_ok.mp hfills
  cases hfills
  exact call_protectiveExitAt_eq_ok hexit

end PaperFillEngine

namespace PaperSession

/-- Process a call at a moment, cost its fills and book them. -/
def submitAt (p : PaperSession) (c : PaperFillEngine.MomentCall) : Outcome × PaperSession :=
  match (PaperFillEngine.processAt c).call p.engine with
  | (.error e, engine) => (.raised e, ⟨engine, p.ledger⟩)
  | (.ok references, engine) =>
      match references.mapM fun r => applyCosts r p.ledger.spec with
      | .error e => (.uncosted e, ⟨engine, p.ledger⟩)
      | .ok [] => (.idle, ⟨engine, p.ledger⟩)
      | .ok costed => book engine p.ledger costed

def acceptAt (p : PaperSession) (c : PaperFillEngine.MomentCall) :
    Except RunError (List CostedFill × PaperSession) :=
  match p.submitAt c with
  | (.raised e, _) => .error (.fill e)
  | (.uncosted e, _) => .error (.cost e)
  | (.idle, p) => .ok ([], p)
  | (.applied fills, p) => .ok (fills, p)
  | (.refused _ e, _) => .error (.portfolio e)

theorem accept_eq_acceptAt (p : PaperSession) (c : PaperFillEngine.Call) :
    p.accept c = p.acceptAt c.atMoment := rfl

theorem reference_of_applyCosts {r : FillReference} {spec : BacktestSpec} {f : CostedFill}
    (h : applyCosts r spec = .ok f) : f.reference = r := by
  unfold applyCosts at h
  obtain ⟨hsymbol, -⟩ := raiseIf_bind_eq_ok.mp h
  have hcost := applyCosts_eq_ok (not_not.mp hsymbol)
  unfold applyCosts at hcost
  rw [hcost] at h
  cases h
  rfl

/-- The references of the engine are costed, and the ledger books them. -/
theorem acceptAt_cases {p p' : PaperSession} {c : PaperFillEngine.MomentCall}
    {fills : List CostedFill} (h : p.acceptAt c = .ok (fills, p')) : ∃ references,
      (PaperFillEngine.processAt c).call p.engine = (.ok references, p'.engine) ∧
      (references.mapM fun r => applyCosts r p.ledger.spec) = .ok fills ∧
      (PortfolioLedger._applyAll fills).call p.ledger = (.ok (), p'.ledger) := by
  unfold acceptAt submitAt at h
  rcases hcall : (PaperFillEngine.processAt c).call p.engine with ⟨⟨e⟩ | ⟨references⟩, engine⟩
  · rw [hcall] at h
    cases h
  · rw [hcall] at h
    dsimp only at h
    cases hcosted : references.mapM fun r => applyCosts r p.ledger.spec with
    | error e =>
      rw [hcosted] at h
      cases h
    | ok costed =>
      rw [hcosted] at h
      cases costed with
      | nil =>
        cases h
        exact ⟨references, rfl, hcosted, rfl⟩
      | cons f rest =>
        dsimp only [book] at h
        rcases hbook : (PortfolioLedger.applyMany (f :: rest)).call p.ledger with ⟨⟨e⟩ | ⟨⟨⟩⟩, ledger⟩
        · rw [hbook] at h
          cases h
        · rw [hbook] at h
          cases h
          exact ⟨references, rfl, hcosted, (PortfolioLedger.call_applyMany_eq_ok.mp hbook).2⟩

/-- The fills of an accepted call are the costed references of the engine. -/
theorem acceptAt_eq_ok {p p' : PaperSession} {c : PaperFillEngine.MomentCall} {fills : List CostedFill}
    (h : p.acceptAt c = .ok (fills, p')) :
    (PaperFillEngine.processAt c).call p.engine = (.ok (fills.map fun f => f.reference), p'.engine) := by
  obtain ⟨references, hcall, hcosted, -⟩ := acceptAt_cases h
  have hmap : fills.map (fun f => f.reference) = references := by
    have hall := mapM_eq_ok.mp hcosted
    clear hcosted hcall h
    induction hall with
    | nil => rfl
    | cons hhead _ ih => rw [List.map_cons, reference_of_applyCosts hhead, ih]
  rw [hcall, hmap]

end PaperSession

end TradingLab
