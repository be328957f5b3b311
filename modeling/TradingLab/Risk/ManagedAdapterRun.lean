import TradingLab.Risk.ManagedAdapter

/-!
# Runs of the risk-managed adapter

The remembered quantity is always the quantity of the engine's position. With
that, the checks after the engine call cannot fail, so a call that raises leaves
everything as it was, over any run.
-/

namespace TradingLab

open Method PaperFillEngine

theorem RiskAuthorization.request_eq (a : RiskAuthorization) : a.decision.request = a.request := by
  have h := a.valid
  unfold RiskAuthorization.Fields.postInit at h
  obtain ⟨expected, -, h⟩ := bind_eq_ok.mp h
  rw [raiseIf_eq_ok, not_or, not_not, not_not] at h
  exact h.2

theorem RiskRequest.time_eq (r : RiskRequest) :
    r.strategyDecision.decisionTimeMs = r.portfolio.decisionTimeMs := by
  have h := r.valid
  unfold RiskRequest.Fields.postInit at h
  rw [raiseIf_bind_eq_ok, not_or, not_not, not_not] at h
  exact h.1.2

namespace RiskManagedPaperAdapter

variable {s s' : RiskManagedPaperAdapter} {a : RiskAuthorization}
  {outcome : RiskAdapterOutcome} {intent : PaperIntent}

theorem _paper_eq_ok {o : RiskAdapterOutcome} {f : PaperIntent.Fields}
    (h : _paper o f = .ok (outcome, intent)) : outcome = o ∧ intent.toFields = f := by
  unfold _paper PaperIntent.build at h
  obtain ⟨i, hi, h⟩ := bind_eq_ok.mp h
  cases h
  cases hc : construct f.postInit (fun h => (⟨f, h⟩ : PaperIntent)) with
  | error e =>
    rw [hc] at hi
    cases hi
  | ok i' =>
    rw [hc] at hi
    cases hi
    obtain ⟨_, rfl⟩ := construct_eq_ok.mp hc
    exact ⟨rfl, rfl⟩

/-- The five translations of an authorization, with the quantity that reaches the engine. -/
inductive Translates (s : RiskManagedPaperAdapter) (a : RiskAuthorization) :
    RiskAdapterOutcome → IntentAction → Option String → Prop where
  | exit (held : s.hasPosition) (action : a.request.strategyDecision.action = .exitLong)
      (approved : a.decision.disposition = .approvePaper)
      (quantity : a.decision.approvedQuantity = s._activeQuantity) :
      Translates s a .exitApproved .exitLong none
  | hold (held : s.hasPosition) (action : a.request.strategyDecision.action = .noTrade)
      (quiet : a.decision.disposition = .noAction) : Translates s a .noAction .hold none
  | enter (flat : ¬ s.hasPosition) (action : a.request.strategyDecision.action = .enterLong)
      (approved : a.decision.disposition = .approvePaper) :
      Translates s a .entryApproved .enterLong a.decision.approvedQuantity
  | blocked (flat : ¬ s.hasPosition) (action : a.request.strategyDecision.action = .enterLong)
      (rejected : a.decision.disposition = .reject) : Translates s a .entryBlocked .hold none
  | quiet (flat : ¬ s.hasPosition) (action : a.request.strategyDecision.action = .noTrade)
      (quiet : a.decision.disposition = .noAction) : Translates s a .noAction .hold none

theorem translates_of_intent (h : s._intent a = .ok (outcome, intent)) :
    Translates s a outcome intent.action intent.quantity ∧
      intent.decisionTimeMs = a.request.strategyDecision.decisionTimeMs := by
  unfold _intent at h
  split at h
  · rename_i held
    unfold _openIntent at h
    dsimp only at h
    split at h
    · rename_i ha
      rw [raiseIf_bind_eq_ok, raiseIf_bind_eq_ok, not_not, not_not] at h
      obtain ⟨hd, hq, h⟩ := h
      obtain ⟨rfl, hi⟩ := _paper_eq_ok h
      rw [hi]
      exact ⟨.exit held ha hd hq, rfl⟩
    split at h
    · rename_i hc
      obtain ⟨rfl, hi⟩ := _paper_eq_ok h
      rw [hi]
      exact ⟨.hold held hc.1 hc.2.2.1, rfl⟩
    · cases h
  · rename_i flat
    unfold _flatIntent at h
    dsimp only at h
    split at h
    · rename_i hc
      obtain ⟨rfl, hi⟩ := _paper_eq_ok h
      rw [hi]
      exact ⟨.enter flat hc.1 hc.2, rfl⟩
    split at h
    · rename_i hc
      obtain ⟨rfl, hi⟩ := _paper_eq_ok h
      rw [hi]
      exact ⟨.blocked flat hc.1 hc.2, rfl⟩
    split at h
    · rename_i hc
      obtain ⟨rfl, hi⟩ := _paper_eq_ok h
      rw [hi]
      exact ⟨.quiet flat hc.1 hc.2.2, rfl⟩
    · cases h

variable {c : Call} {fills : List FillReference} {engine : PaperFillEngine}

/-- What the engine returned always passes the check of the step. -/
theorem postInit_step (ht : Translates s c.authorization outcome intent.action intent.quantity)
    (htime : intent.decisionTimeMs = c.authorization.request.strategyDecision.decisionTimeMs)
    (hp : (PaperFillEngine.process ⟨c.event, intent, c.fillCandle⟩).call s._fillEngine =
      (.ok fills, engine)) :
    (⟨c.authorization, outcome, intent, fills⟩ : RiskAdapterStep.Fields).postInit = .ok () := by
  have hrequest := c.authorization.request_eq
  have hlength := (call_process_eq_ok hp).2.length_le.1
  have htimes : intent.decisionTimeMs =
      c.authorization.decision.request.portfolio.decisionTimeMs := by
    rw [htime, hrequest]
    exact c.authorization.request.time_eq
  unfold RiskAdapterStep.Fields.postInit
  dsimp only
  rw [raiseIf_neg (by omega), ok_bind, hrequest]
  rw [hrequest] at htimes
  generalize hact : intent.action = action at ht
  generalize hq : intent.quantity = quantity at ht
  cases ht with
  | exit held ha hd hqty =>
    rw [raiseIf_neg (by simp [RiskAdapterStep._expected, ha, hd]), ok_bind,
      raiseIf_neg (not_not.mpr htimes), ok_bind, if_neg (by decide), raiseIf_neg (by simp)]
  | hold held ha hd =>
    rw [raiseIf_neg (by simp [RiskAdapterStep._expected, ha, hd]), ok_bind,
      raiseIf_neg (not_not.mpr htimes), ok_bind, if_neg (by decide), raiseIf_neg (by simp)]
  | enter flat ha hd =>
    obtain ⟨r, rest, rfl, hra, hrq⟩ := call_process_enter hp hact
    have hfill : some r.quantity = c.authorization.decision.approvedQuantity := hrq.trans hq
    rw [raiseIf_neg (by simp [RiskAdapterStep._expected, ha, hd]), ok_bind,
      raiseIf_neg (not_not.mpr htimes), ok_bind, if_pos rfl]
    unfold RiskAdapterStep.Fields._entryFill
    dsimp only
    rw [raiseIf_neg (not_not.mpr hq), ok_bind, raiseIf_neg (by simp [hra, hfill])]
  | blocked flat ha hd =>
    have hnil := call_process_hold hp hact flat
    rw [raiseIf_neg (by simp [RiskAdapterStep._expected, ha, hd]), ok_bind,
      raiseIf_neg (not_not.mpr htimes), ok_bind, if_neg (by decide), raiseIf_neg (by simp [hnil])]
  | quiet flat ha hd =>
    rw [raiseIf_neg (by simp [RiskAdapterStep._expected, ha, hd]), ok_bind,
      raiseIf_neg (not_not.mpr htimes), ok_bind, if_neg (by decide), raiseIf_neg (by simp)]

def Agrees (s : RiskManagedPaperAdapter) : Prop :=
  s._fillEngine.openQuantity = s._activeQuantity

theorem Agrees.hasPosition_iff (h : Agrees s) : s.hasPosition ↔ s._activeQuantity ≠ none := by
  rw [← h, Ne, openQuantity_eq_none, not_not]
  rfl

/-- The adapter after the engine has moved and the position was remembered. -/
def moved (s : RiskManagedPaperAdapter) (engine : PaperFillEngine) (outcome : RiskAdapterOutcome)
    (a : RiskAuthorization) : RiskManagedPaperAdapter :=
  _remember outcome a { s with _fillEngine := engine }

theorem engine_moved : (moved s engine outcome a)._fillEngine = engine := by
  unfold moved _remember
  split_ifs <;> rfl

/-- Whatever the engine emitted, the remembered quantity follows it. -/
theorem agrees_moved (hs : Agrees s)
    (ht : Translates s c.authorization outcome intent.action intent.quantity)
    (hp : (PaperFillEngine.process ⟨c.event, intent, c.fillCandle⟩).call s._fillEngine =
      (.ok fills, engine)) : Agrees (moved s engine outcome c.authorization) := by
  have hemits := (call_process_eq_ok hp).2
  unfold Agrees
  rw [engine_moved]
  unfold moved _remember
  have hheld : ({ s with _fillEngine := engine } : RiskManagedPaperAdapter).hasPosition ↔
      engine.openQuantity ≠ none := by
    rw [Ne, openQuantity_eq_none, not_not]
    rfl
  split_ifs with hpos hentry
  · -- an approved entry whose position is still open
    generalize hact : intent.action = action at ht
    generalize hq : intent.quantity = quantity at ht
    cases ht with
    | enter flat ha hd =>
      obtain ⟨r, rest, rfl, hra, hrq⟩ := call_process_enter hp hact
      have hopen := hheld.mp hpos
      generalize s._fillEngine.openQuantity = q at hemits
      generalize engine.openQuantity = q' at hemits hopen
      cases hemits with
      | enter _ _ => exact hrq.trans hq
      | exit hx _ =>
        rw [hra] at hx
        cases hx
      | roundTrip _ _ _ _ _ => exact (hopen rfl).elim
    | exit => cases hentry
    | hold => cases hentry
    | blocked => cases hentry
    | quiet => cases hentry
  · -- no entry: the position was open before and was left alone
    have hopen := hheld.mp hpos
    have hno : intent.action ≠ .enterLong := by
      generalize intent.action = action at ht
      generalize intent.quantity = quantity at ht
      cases ht with
      | enter => exact (hentry rfl).elim
      | exit => decide
      | hold => decide
      | blocked => decide
      | quiet => decide
    rcases call_process_no_enter hp hno with hsame | hnone
    · exact hsame.trans hs
    · exact (hopen hnone).elim
  · exact openQuantity_eq_none.mpr fun h => hpos h

/-- The adapter after a call that returned. -/
def finished (s : RiskManagedPaperAdapter) (engine : PaperFillEngine)
    (outcome : RiskAdapterOutcome) (c : Call) : RiskManagedPaperAdapter :=
  { moved s engine outcome c.authorization with
    _lastSequence := some c.event.sequence
    _lastDecisionTimeMs := some c.event.decisionTimeMs }

variable {step : RiskAdapterStep} {calls done : List Call} {q : Option String} {symbol : Symbol}
  {time : ℤ}

theorem call_settle (h : Agrees (moved s engine step.outcome c.authorization)) :
    (_settle c step).call { s with _fillEngine := engine } =
      (.ok step, finished s engine step.outcome c) := by
  have hcheck : raiseIf (¬ ((moved s engine step.outcome c.authorization).hasPosition ↔
      (moved s engine step.outcome c.authorization)._activeQuantity ≠ none))
      (Error.adapter ⟨"P4 and P2 Paper position states diverged"⟩) = .ok () :=
    raiseIf_neg (not_not.mpr h.hasPosition_iff)
  unfold moved at hcheck
  unfold _settle
  rw [call_modify_bind, call_read_bind, id, call_bind, call_check, hcheck]
  rfl

/-- A call that returned: what was translated, and what the engine made of it. -/
structure Processed (s : RiskManagedPaperAdapter) (c : Call) (step : RiskAdapterStep)
    (s' : RiskManagedPaperAdapter) : Prop where
  intent : s._intent c.authorization = .ok (step.outcome, step.intent)
  engine : ∃ engine, (PaperFillEngine.process ⟨c.event, step.intent, c.fillCandle⟩).call
    s._fillEngine = (.ok step.fills, engine) ∧ s' = finished s engine step.outcome c
  authorization : step.authorization = c.authorization

/-- A call either raises and leaves the adapter as it was, or goes all the way. -/
theorem call_process (hs : Agrees s) (c : Call) :
    (∃ e, (process c).call s = (.error e, s)) ∨
      ∃ step s', (process c).call s = (.ok step, s') ∧ Processed s c step s' := by
  unfold process
  rw [call_read_bind, id, call_bind, call_check]
  cases hv : s._validate c.event c.authorization with
  | error e => exact .inl ⟨_, rfl⟩
  | ok u =>
    simp only [Except.mapError]
    rw [call_bind, call_check]
    cases hi : s._intent c.authorization with
    | error e => exact .inl ⟨_, rfl⟩
    | ok translated =>
      obtain ⟨outcome, intent⟩ := translated
      simp only
      unfold _engine
      rw [call_bind, call_zoom]
      rcases hp : (PaperFillEngine.process ⟨c.event, intent, c.fillCandle⟩).call s._fillEngine with
        ⟨e | fills, engine⟩
      · rw [call_process_eq_error hp]
        exact .inl ⟨_, rfl⟩
      · obtain ⟨ht, htime⟩ := translates_of_intent hi
        have hvalid := postInit_step ht htime hp
        have hagrees := agrees_moved hs ht hp
        simp only
        unfold RiskAdapterStep.build
        rw [call_bind, call_check, construct_of_ok hvalid]
        exact .inr ⟨_, _, call_settle hagrees, hi, ⟨engine, hp, rfl⟩, rfl⟩

def submit (c : Call) : Method RiskManagedPaperAdapter Error Unit := do
  let _ ← process c
  return ()

theorem call_submit (hs : Agrees s) (c : Call) :
    (¬ (submit c).Returns s ∧ (submit c).after s = s) ∨
      ((submit c).Returns s ∧ ∃ step, Processed s c step ((submit c).after s)) := by
  unfold Returns after submit
  rw [call_bind]
  rcases call_process hs c with ⟨e, he⟩ | ⟨step, s', hc, hproc⟩
  · rw [he]
    refine .inl ⟨?_, rfl⟩
    rintro ⟨u, hu⟩
    cases hu
  · rw [hc]
    exact .inr ⟨⟨(), rfl⟩, step, hproc⟩

/-- The authorization of the call approves an entry. -/
def Call.ApprovesEntry (c : Call) : Prop :=
  c.authorization.request.strategyDecision.action = .enterLong ∧
    c.authorization.decision.disposition = .approvePaper

instance (c : Call) : Decidable c.ApprovesEntry := by
  unfold Call.ApprovesEntry
  infer_instance

/-- The quantity of the last approved entry among some accepted calls. -/
def lastApproved (calls : List Call) : Option String :=
  (calls.filter fun c => c.ApprovesEntry).getLast?.bind fun c =>
    c.authorization.decision.approvedQuantity

theorem lastApproved_snoc {c : Call} (h : c.ApprovesEntry) :
    lastApproved (calls ++ [c]) = c.authorization.decision.approvedQuantity := by
  unfold lastApproved
  rw [List.filter_append, List.filter_cons_of_pos (by simpa using h)]
  simp

theorem lastApproved_snoc_other {c : Call} (h : ¬ c.ApprovesEntry) :
    lastApproved (calls ++ [c]) = lastApproved calls := by
  unfold lastApproved
  rw [List.filter_append, List.filter_cons_of_neg (by simpa using h)]
  simp

/-- What holds after some accepted calls. -/
structure Sound (done : List Call) (s : RiskManagedPaperAdapter) : Prop where
  agrees : Agrees s
  approved : ∀ q ∈ s._activeQuantity, lastApproved done = some q

theorem Translates.kind {action : IntentAction} {quantity : Option String}
    (h : Translates s c.authorization outcome action quantity) :
    (outcome = .entryApproved ∧ c.ApprovesEntry ∧ action = .enterLong ∧
      quantity = c.authorization.decision.approvedQuantity) ∨
    (outcome ≠ .entryApproved ∧ ¬ c.ApprovesEntry ∧ (s.hasPosition ∨ action = .hold)) := by
  unfold Call.ApprovesEntry
  cases h with
  | exit held ha hd _ => exact .inr ⟨by decide, by simp [ha], .inl held⟩
  | hold held ha hd => exact .inr ⟨by decide, by simp [ha], .inl held⟩
  | enter flat ha hd => exact .inl ⟨rfl, ⟨ha, hd⟩, rfl, rfl⟩
  | blocked flat ha hd => exact .inr ⟨by decide, by simp [hd], .inr rfl⟩
  | quiet flat ha hd => exact .inr ⟨by decide, by simp [ha], .inr rfl⟩

theorem activeQuantity_moved {q : String} (hq : q ∈ (moved s engine outcome a)._activeQuantity) :
    (outcome = .entryApproved → a.decision.approvedQuantity = some q) ∧
      (outcome ≠ .entryApproved → s._activeQuantity = some q) := by
  unfold moved _remember at hq
  split_ifs at hq with hpos hentry
  · exact ⟨fun _ => hq, fun h => (h hentry).elim⟩
  · exact ⟨fun h => (hentry h).elim, fun _ => hq⟩
  · cases hq

theorem fills_of_enter {r : FillReference} {rest : List FillReference} {p : Option String}
    (h : PaperFillEngine.Emits symbol time p (r :: rest) q)
    (hr : r.action = .enterLong) : ∀ x ∈ r :: rest, x.quantity = r.quantity := by
  intro x hx
  cases h with
  | enter => rw [List.mem_singleton.mp hx]
  | exit => rw [List.mem_singleton.mp hx]
  | roundTrip _ _ _ _ hq =>
    rw [List.mem_cons, List.mem_singleton] at hx
    rcases hx with rfl | rfl
    · rfl
    · exact hq

theorem fills_of_held {fills : List FillReference} {p : String}
    (h : PaperFillEngine.Emits symbol time (some p) fills q) :
    ∀ x ∈ fills, x.quantity = p := by
  intro x hx
  cases h with
  | idle => cases hx
  | exit => rw [List.mem_singleton.mp hx]

/-- An accepted call keeps it, and every quantity it filled was approved. -/
theorem Sound.next (hs : Sound done s) (h : Processed s c step s') :
    Sound (done ++ [c]) s' ∧ ∀ r ∈ step.fills, lastApproved (done ++ [c]) = some r.quantity := by
  obtain ⟨engine, hp, rfl⟩ := h.engine
  obtain ⟨ht, -⟩ := translates_of_intent h.intent
  have hagrees : Agrees (finished s engine step.outcome c) := agrees_moved hs.agrees ht hp
  have hemits := (call_process_eq_ok hp).2
  rcases ht.kind with ⟨hout, hentry, hact, hqty⟩ | ⟨hout, hentry, hkind⟩
  · have hlast := @lastApproved_snoc done c hentry
    refine ⟨⟨hagrees, ?_⟩, ?_⟩
    · intro q hq
      rw [hlast]
      exact (activeQuantity_moved hq).1 hout
    · obtain ⟨r, rest, hfills, hra, hrq⟩ := call_process_enter hp hact
      rw [hfills] at hemits
      intro x hx
      rw [hfills] at hx
      rw [hlast, fills_of_enter hemits hra x hx, hrq]
      exact hqty.symm
  · have hlast := @lastApproved_snoc_other done c hentry
    refine ⟨⟨hagrees, ?_⟩, ?_⟩
    · intro q hq
      rw [hlast]
      exact hs.approved q ((activeQuantity_moved hq).2 hout)
    · intro x hx
      rw [hlast]
      by_cases held : s.hasPosition
      · obtain ⟨p, hp'⟩ := Option.ne_none_iff_exists'.mp (hs.agrees.hasPosition_iff.mp held)
        rw [hs.agrees, hp'] at hemits
        rw [fills_of_held hemits x hx]
        exact hs.approved p hp'
      · have hnil := call_process_hold hp (hkind.resolve_left held) held
        rw [hnil] at hx
        cases hx

theorem sound_run (calls : List Call) (h : Agrees s) (hnone : s._activeQuantity = none) :
    Sound (accepted submit calls s) (run submit calls s) := by
  apply run_accepted
  · refine ⟨h, ?_⟩
    intro q hq
    rw [hnone] at hq
    cases hq
  · intro done c t ht hr
    rcases call_submit ht.agrees c with ⟨-, hsame⟩ | ⟨hret, -⟩
    · rwa [hsame]
    · exact (hr hret).elim
  · intro done c t ht hr
    rcases call_submit ht.agrees c with ⟨hret, -⟩ | ⟨-, step, hproc⟩
    · exact (hret hr).elim
    · exact (ht.next hproc).1

/-- What is promised after some accepted calls. -/
structure Atomic (done : List Call) (s : RiskManagedPaperAdapter) : Prop where
  raised : ∀ (c : Call) e s', (process c).call s = (.error e, s') → s' = s
  position : s.hasPosition ↔ s.activeQuantity ≠ none
  quantity : s._fillEngine.openQuantity = s.activeQuantity
  approved : ∀ q, s.activeQuantity = some q → lastApproved done = some q
  reaches : ∀ (c : Call) outcome intent, s._intent c.authorization = .ok (outcome, intent) →
    ∀ q, intent.quantity = some q →
      c.ApprovesEntry ∧ c.authorization.decision.approvedQuantity = some q
  filled : ∀ (c : Call) step s', (process c).call s = (.ok step, s') →
    ∀ r ∈ step.fills, lastApproved (done ++ [c]) = some r.quantity

theorem Sound.atomic (hs : Sound done s) : Atomic done s where
  raised := by
    intro c e s' h
    rcases call_process hs.agrees c with ⟨e', he⟩ | ⟨step, t, ht, -⟩
    · rw [he] at h
      cases h
      rfl
    · rw [ht] at h
      cases h
  position := hs.agrees.hasPosition_iff
  quantity := hs.agrees
  approved := fun q hq => hs.approved q hq
  reaches := by
    intro c outcome intent hi q hq
    obtain ⟨ht, -⟩ := translates_of_intent hi
    rw [hq] at ht
    generalize intent.action = action at ht
    generalize hsome : some q = quantity at ht
    cases ht with
    | enter flat ha hd => exact ⟨⟨ha, hd⟩, rfl⟩
    | exit => cases hsome
    | hold => cases hsome
    | blocked => cases hsome
    | quiet => cases hsome
  filled := by
    intro c step s' h
    rcases call_process hs.agrees c with ⟨e', he⟩ | ⟨step', t, ht, hproc⟩
    · rw [he] at h
      cases h
    · rw [ht] at h
      cases h
      exact (hs.next hproc).2

/-- **Atomicity of the managed adapter.** -/
theorem managed_adapter_atomic {identity : StrategyIdentity} {symbol : Symbol}
    {adapter : RiskManagedPaperAdapter} (h : init identity symbol = .ok adapter)
    (calls : List Call) :
    Atomic (accepted submit calls adapter) (run submit calls adapter) := by
  unfold init at h
  rw [raiseIf_bind_eq_ok] at h
  obtain ⟨-, h⟩ := h
  cases h
  have hinit : Agrees ⟨identity, symbol, .init symbol, none, none, none, none⟩ := rfl
  exact (sound_run calls hinit rfl).atomic

def entryAuthorization : RiskAuthorization where
  request := entryRequest
  managedState := flatState
  killSwitchState := resetSwitch
  circuitAssessment := clearCircuit
  protectiveAssessment := some protectedEntry
  decision := entryDecision
  valid := by
    unfold RiskAuthorization.Fields.postInit
    rw [decisionFor_earliest, ok_bind, raiseIf_eq_ok]
    exact not_or.mpr ⟨fun h => h rfl, fun h => h rfl⟩

theorem valid_entryEvent : (⟨0, 14400000, 14400000, .earliest⟩ : DecisionEvent.Fields).postInit =
    .ok () := by
  decide

theorem valid_entryFill : (Candle.flat .btcusdt .h1 14400000 "100").postInit = .ok () := by
  decide

def entryCall : Call where
  event := ⟨⟨0, 14400000, 14400000, .earliest⟩, valid_entryEvent⟩
  authorization := entryAuthorization
  fillCandle := ⟨Candle.flat .btcusdt .h1 14400000 "100", valid_entryFill⟩

theorem managed_adapter_atomic_earliest :
    Atomic (accepted submit [entryCall]
        ⟨trendPullbackIdentity, .btcusdt, .init .btcusdt, none, none, none, none⟩)
      (run submit [entryCall]
        ⟨trendPullbackIdentity, .btcusdt, .init .btcusdt, none, none, none, none⟩) :=
  @managed_adapter_atomic trendPullbackIdentity .btcusdt _ (by decide) _

end RiskManagedPaperAdapter

end TradingLab
