import TradingLab.Risk.Circuit

/-!
# The kill switch

The switch starts triggered and stays triggered until a manual reset with clear
evidence. Its states are hash-chained, name the evidence consumed last and list
the breakers seen so far in their fixed order. A transition repeats the step it
records.
-/

namespace TradingLab

structure KillSwitchError where
  message : String
deriving Repr, DecidableEq

inductive KillSwitchMode where
  | inactive
  | triggered
deriving Repr, DecidableEq

def KillSwitchMode.value : KillSwitchMode → String
  | inactive => "INACTIVE"
  | triggered => "TRIGGERED"

inductive KillSwitchReason where
  | failClosedStartup
  | circuitBreakerTriggered
  | latchedUntilManualReset
  | circuitClear
  | manualReset
deriving Repr, DecidableEq

def KillSwitchReason.value : KillSwitchReason → String
  | failClosedStartup => "FAIL_CLOSED_STARTUP"
  | circuitBreakerTriggered => "CIRCUIT_BREAKER_TRIGGERED"
  | latchedUntilManualReset => "LATCHED_UNTIL_MANUAL_RESET"
  | circuitClear => "CIRCUIT_CLEAR"
  | manualReset => "MANUAL_RESET"

def _breakerOrder : List CircuitBreaker := [.sessionLossLimit, .drawdownLimit, .consecutiveLossLimit]

namespace KillSwitchState

structure Fields where
  mode : KillSwitchMode
  reason : KillSwitchReason
  sequence : ℤ
  eventTimeMs : ℤ
  triggeredBreakers : List CircuitBreaker
  lastCircuitTimeMs : Option ℤ
  lastCircuitSha256 : Option String
  previousStateSha256 : Option String
  eventSha256 : String
deriving Repr, DecidableEq

def Fields.consistent (s : Fields) : Prop :=
  match s.mode, s.reason with
  | .inactive, reason => reason ∈ [.circuitClear, .manualReset] ∧ s.triggeredBreakers = []
  | .triggered, .failClosedStartup => s.sequence = 0 ∧ s.triggeredBreakers = []
  | .triggered, .circuitBreakerTriggered => s.triggeredBreakers ≠ []
  | .triggered, reason => reason = .latchedUntilManualReset

instance (s : Fields) : Decidable s.consistent := by
  unfold Fields.consistent
  split <;> infer_instance

def Fields.postInit (s : Fields) : Except KillSwitchError Unit := do
  raiseIf (¬ (0 ≤ s.sequence ∧ s.sequence ≤ 1000000000)) ⟨"Kill Switch state sequence is invalid"⟩
  raiseIf (s.eventTimeMs < 0) ⟨"Kill Switch state time is invalid"⟩
  raiseIf (s.triggeredBreakers ≠ _breakerOrder.filter (· ∈ s.triggeredBreakers))
    ⟨"Triggered breaker reasons are invalid or unordered"⟩
  raiseIf (¬ s.consistent) ⟨"Kill Switch mode and reason are inconsistent"⟩
  raiseIf (¬ (s.lastCircuitTimeMs = none ↔ s.lastCircuitSha256 = none))
    ⟨"Last circuit time and digest must appear together"⟩
  raiseIf (s.lastCircuitTimeMs.any fun time =>
      time < 0 ∨ s.eventTimeMs < time ∨ ¬ s.lastCircuitSha256.any Sha256.isHexDigest)
    ⟨"Last circuit evidence is invalid"⟩
  if s.sequence = 0 then
    raiseIf (s.mode ≠ .triggered ∨ s.reason ≠ .failClosedStartup ∨
        s.previousStateSha256 ≠ none ∨ s.lastCircuitTimeMs ≠ none ∨ s.triggeredBreakers ≠ [])
      ⟨"Initial Kill Switch state must fail closed"⟩
  else
    raiseIf (¬ s.previousStateSha256.any Sha256.isHexDigest)
      ⟨"Kill Switch state is missing predecessor digest"⟩
    raiseIf (s.lastCircuitTimeMs = none)
      ⟨"Advanced Kill Switch state requires circuit evidence"⟩
  raiseIf (¬ Sha256.isHexDigest s.eventSha256) ⟨"Kill Switch state event digest is invalid"⟩

end KillSwitchState

structure KillSwitchState extends KillSwitchState.Fields where
  valid : toFields.postInit = .ok ()
deriving DecidableEq

namespace KillSwitchState

def build (f : Fields) : Except KillSwitchError KillSwitchState :=
  construct f.postInit fun h => ⟨f, h⟩

def active (s : KillSwitchState) : Bool := s.mode = .triggered

def payload (s : KillSwitchState) : Json := .dict [
  ("schema_version", .int 1),
  ("mode", .str s.mode.value),
  ("reason", .str s.reason.value),
  ("sequence", .int s.sequence),
  ("event_time_ms", .int s.eventTimeMs),
  ("triggered_breakers", .list (s.triggeredBreakers.map fun b => .str b.value)),
  ("last_circuit_time_ms", .optionInt s.lastCircuitTimeMs),
  ("last_circuit_sha256", .optionStr s.lastCircuitSha256),
  ("previous_state_sha256", .optionStr s.previousStateSha256),
  ("event_sha256", .str s.eventSha256)]

def stateSha256 (s : KillSwitchState) : String := s.payload.sha256

end KillSwitchState

inductive KillSwitchEventType where
  | startup
  | circuitObservation
  | manualReset
deriving Repr, DecidableEq

def KillSwitchEventType.value : KillSwitchEventType → String
  | startup => "STARTUP"
  | circuitObservation => "CIRCUIT_OBSERVATION"
  | manualReset => "MANUAL_RESET"

namespace KillSwitchEvent

structure Fields where
  sequence : ℤ
  eventTimeMs : ℤ
  eventType : KillSwitchEventType
  circuitAssessment : Option CircuitAssessment := none
  manualConfirmation : Bool := false
deriving DecidableEq

def Fields.consistent (e : Fields) : Prop :=
  match e.eventType with
  | .startup => e.sequence = 0 ∧ e.circuitAssessment = none ∧ e.manualConfirmation = false
  | .circuitObservation => e.circuitAssessment ≠ none ∧ e.manualConfirmation = false
  | .manualReset => e.circuitAssessment ≠ none ∧ e.manualConfirmation = true

instance (e : Fields) : Decidable e.consistent := by
  unfold Fields.consistent
  split <;> infer_instance

def Fields.postInit (e : Fields) : Except KillSwitchError Unit := do
  raiseIf (¬ (0 ≤ e.sequence ∧ e.sequence ≤ 1000000000)) ⟨"Kill Switch event sequence is invalid"⟩
  raiseIf (e.eventTimeMs < 0) ⟨"Kill Switch event time is invalid"⟩
  raiseIf (¬ e.consistent) ⟨"Kill Switch event fields are inconsistent"⟩
  raiseIf (e.circuitAssessment.any fun c => e.eventTimeMs < c.managedState.decisionTimeMs)
    ⟨"Kill Switch event cannot use future circuit state"⟩

end KillSwitchEvent

structure KillSwitchEvent extends KillSwitchEvent.Fields where
  valid : toFields.postInit = .ok ()
deriving DecidableEq

def KillSwitchEvent.eventSha256 (e : KillSwitchEvent) : String := Json.sha256 (.dict [
  ("schema_version", .int 1),
  ("sequence", .int e.sequence),
  ("event_time_ms", .int e.eventTimeMs),
  ("event_type", .str e.eventType.value),
  ("circuit_sha256", .optionStr (e.circuitAssessment.map CircuitAssessment.circuitSha256)),
  ("manual_confirmation", .bool e.manualConfirmation)])

namespace KillSwitch

def _mergeBreakers (existing observed : List CircuitBreaker) : List CircuitBreaker :=
  _breakerOrder.filter fun b => b ∈ existing ∨ b ∈ observed

/-- Mode, reason and breakers after consuming an assessment. -/
def _respond (previous : KillSwitchState) (eventType : KillSwitchEventType)
    (assessment : CircuitAssessment) :
    Except KillSwitchError (KillSwitchMode × KillSwitchReason × List CircuitBreaker) := do
  if eventType = .manualReset then
    raiseIf (previous.mode ≠ .triggered) ⟨"Only a triggered Kill Switch can be reset"⟩
    raiseIf (assessment.triggeredBreakers ≠ [])
      ⟨"Manual reset requires current clear circuit evidence"⟩
    return (.inactive, .manualReset, [])
  else if assessment.triggeredBreakers ≠ [] then
    return (.triggered, .circuitBreakerTriggered,
      _mergeBreakers previous.triggeredBreakers assessment.triggeredBreakers)
  else if previous.mode = .triggered then
    return (.triggered, .latchedUntilManualReset, previous.triggeredBreakers)
  else return (.inactive, .circuitClear, [])

variable {e : KillSwitchEvent} {k : KillSwitchState}

theorem assessment_of_event (h : e.eventType ≠ .startup) :
    e.circuitAssessment.isSome := by
  have hv := e.valid
  unfold KillSwitchEvent.Fields.postInit at hv
  simp only [unit_bind_eq_ok, raiseIf_eq_ok, not_not] at hv
  obtain ⟨-, -, hc, -⟩ := hv
  unfold KillSwitchEvent.Fields.consistent at hc
  cases ht : e.eventType with
  | startup => exact (h ht).elim
  | circuitObservation =>
    rw [ht] at hc
    exact Option.isSome_iff_ne_none.mpr hc.1
  | manualReset =>
    rw [ht] at hc
    exact Option.isSome_iff_ne_none.mpr hc.1

def _nextState (previous : Option KillSwitchState) (event : KillSwitchEvent) :
    Except KillSwitchError KillSwitchState :=
  match previous with
  | none => do
      raiseIf (event.eventType ≠ .startup)
        ⟨"Kill Switch must begin with fail-closed startup"⟩
      KillSwitchState.build ⟨.triggered, .failClosedStartup, event.sequence, event.eventTimeMs, [],
        none, none, none, event.eventSha256⟩
  | some previous =>
      if h : event.eventType = .startup then .error ⟨"Startup event cannot be repeated"⟩
      else do
        raiseIf (event.sequence ≠ previous.sequence + 1)
          ⟨"Kill Switch event sequence is duplicate or missing"⟩
        raiseIf (event.eventTimeMs ≤ previous.eventTimeMs)
          ⟨"Kill Switch event time is stale or out of order"⟩
        let assessment := event.circuitAssessment.get (assessment_of_event h)
        let circuitTime := assessment.managedState.decisionTimeMs
        raiseIf (previous.lastCircuitTimeMs.any fun last => circuitTime ≤ last)
          ⟨"Circuit evidence is stale or already consumed"⟩
        let (mode, reason, breakers) ← _respond previous event.eventType assessment
        KillSwitchState.build {
          mode, reason
          sequence := event.sequence
          eventTimeMs := event.eventTimeMs
          triggeredBreakers := breakers
          lastCircuitTimeMs := some circuitTime
          lastCircuitSha256 := some assessment.circuitSha256
          previousStateSha256 := some previous.stateSha256
          eventSha256 := event.eventSha256 }

variable {s : KillSwitchState} {c : CircuitAssessment} {m : KillSwitchMode} {r : KillSwitchReason}
  {bs : List CircuitBreaker}

theorem _nextState_none :
    _nextState none e = .ok s ↔ e.eventType = .startup ∧
      s.toFields = ⟨.triggered, .failClosedStartup, e.sequence, e.eventTimeMs, [], none, none, none,
        e.eventSha256⟩ := by
  unfold _nextState KillSwitchState.build
  rw [raiseIf_bind_eq_ok, construct_eq_ok, not_not]
  constructor
  · rintro ⟨ht, hv, rfl⟩
    exact ⟨ht, rfl⟩
  · rintro ⟨ht, hs⟩
    obtain ⟨f, hv⟩ := s
    subst hs
    exact ⟨ht, hv, rfl⟩

theorem exists_firstState (h : e.eventType = .startup) :
    ∃ s, _nextState none e = .ok s ∧ s.mode = .triggered := by
  have he := e.valid
  unfold KillSwitchEvent.Fields.postInit at he
  simp only [unit_bind_eq_ok, raiseIf_eq_ok, not_not, not_lt] at he
  obtain ⟨-, htime, hc, -⟩ := he
  unfold KillSwitchEvent.Fields.consistent at hc
  rw [h] at hc
  have hhex : Sha256.isHexDigest e.eventSha256 = true := Json.isHexDigest_sha256 _
  have hv : (⟨.triggered, .failClosedStartup, e.sequence, e.eventTimeMs, [], none, none, none,
      e.eventSha256⟩ : KillSwitchState.Fields).postInit = .ok () := by
    unfold KillSwitchState.Fields.postInit
    simp [KillSwitchState.Fields.consistent, hc.1, hhex, htime, _breakerOrder]
  exact ⟨⟨_, hv⟩, _nextState_none.mpr ⟨h, rfl⟩, rfl⟩

/-- What an accepted event after the startup does to the state. -/
theorem _nextState_some (h : _nextState (some k) e = .ok s) :
    ∃ c ∈ e.circuitAssessment, e.eventType ≠ .startup ∧ e.sequence = k.sequence + 1 ∧
      k.eventTimeMs < e.eventTimeMs ∧
      (∀ last ∈ k.lastCircuitTimeMs, last < c.managedState.decisionTimeMs) ∧
      _respond k e.eventType c = .ok (s.mode, s.reason, s.triggeredBreakers) ∧
      s.sequence = e.sequence ∧ s.eventTimeMs = e.eventTimeMs ∧
      s.lastCircuitTimeMs = some c.managedState.decisionTimeMs ∧
      s.lastCircuitSha256 = some c.circuitSha256 ∧ s.previousStateSha256 = some k.stateSha256 := by
  unfold _nextState at h
  simp only at h
  split at h
  · cases h
  rename_i hs
  rw [raiseIf_bind_eq_ok, raiseIf_bind_eq_ok, raiseIf_bind_eq_ok, bind_eq_ok, not_not,
    not_le] at h
  obtain ⟨hq, ht, hl, ⟨mode, reason, breakers⟩, hr, hb⟩ := h
  unfold KillSwitchState.build at hb
  obtain ⟨_, rfl⟩ := construct_eq_ok.mp hb
  refine ⟨e.circuitAssessment.get (assessment_of_event hs), Option.get_mem _, hs, hq, ht, ?_, hr,
    rfl, rfl, rfl, rfl, rfl⟩
  intro last hlast
  rw [Option.mem_def.mp hlast] at hl
  simpa using hl

/-- The mode, reason and breakers of an answer fit together. -/
theorem consistent_of_respond {t : KillSwitchEventType}
    (h : _respond k t c = .ok (m, r, bs)) (f : KillSwitchState.Fields)
    (hf : f.mode = m ∧ f.reason = r ∧ f.triggeredBreakers = bs) :
    f.consistent ∧ bs = _breakerOrder.filter (· ∈ bs) := by
  obtain ⟨hmode, hreason, hbreakers⟩ := hf
  unfold KillSwitchState.Fields.consistent
  rw [hmode, hreason, hbreakers]
  have hv := k.valid
  unfold KillSwitchState.Fields.postInit at hv
  simp only [unit_bind_eq_ok, raiseIf_eq_ok, not_not] at hv
  have horder := hv.2.2.1
  unfold _respond at h
  split at h
  · rw [raiseIf_bind_eq_ok, raiseIf_bind_eq_ok] at h
    obtain ⟨-, -, h⟩ := h
    cases h
    exact ⟨⟨by decide, rfl⟩, rfl⟩
  split at h
  · rename_i hc
    cases h
    obtain ⟨b, hb⟩ := List.exists_mem_of_ne_nil _ hc
    have hmem : ∀ b : CircuitBreaker, b ∈ _breakerOrder := by
      intro b
      cases b <;> decide
    have hmerged : b ∈ _mergeBreakers k.triggeredBreakers c.triggeredBreakers :=
      List.mem_filter.mpr ⟨hmem b, by simp [hb]⟩
    refine ⟨List.ne_nil_of_mem hmerged, ?_⟩
    unfold _mergeBreakers
    apply List.filter_congr
    intro b hb
    simp [hb]
  split at h
  · cases h
    exact ⟨rfl, horder⟩
  · cases h
    exact ⟨⟨by decide, rfl⟩, rfl⟩

/-- The transition accepts every event in its order that has an answer. -/
theorem exists_nextState (hc : e.circuitAssessment = some c) (hs : e.eventType ≠ .startup)
    (hq : e.sequence = k.sequence + 1) (ht : k.eventTimeMs < e.eventTimeMs)
    (hlast : ∀ last ∈ k.lastCircuitTimeMs, last < c.managedState.decisionTimeMs)
    (hr : _respond k e.eventType c = .ok (m, r, bs)) :
    ∃ s, _nextState (some k) e = .ok s ∧
      s.toFields = ⟨m, r, e.sequence, e.eventTimeMs, bs, some c.managedState.decisionTimeMs,
        some c.circuitSha256, some k.stateSha256, e.eventSha256⟩ := by
  have he := e.valid
  unfold KillSwitchEvent.Fields.postInit at he
  simp only [unit_bind_eq_ok, raiseIf_eq_ok, not_not, hc, Option.any_some] at he
  obtain ⟨hseq, htime, -, hfuture⟩ := he
  have hk := k.valid
  unfold KillSwitchState.Fields.postInit at hk
  simp only [unit_bind_eq_ok, raiseIf_eq_ok, not_not] at hk
  have hkseq := hk.1.1
  have hstate := c.managedState.facts.time.1
  let f : KillSwitchState.Fields := ⟨m, r, e.sequence, e.eventTimeMs, bs,
    some c.managedState.decisionTimeMs, some c.circuitSha256, some k.stateSha256, e.eventSha256⟩
  obtain ⟨hcons, horder⟩ := consistent_of_respond hr f ⟨rfl, rfl, rfl⟩
  have hhex : ∀ v : Json, Sha256.isHexDigest v.sha256 = true := Json.isHexDigest_sha256
  have hv : f.postInit = .ok () := by
    unfold KillSwitchState.Fields.postInit
    have hne : e.sequence ≠ 0 := by omega
    simp only [unit_bind_eq_ok, raiseIf_eq_ok, not_not]
    refine ⟨hseq, htime, horder, hcons, by simp [f], ?_, ?_⟩
    · have := hhex c.payload
      simp only [f, Option.any_some, decide_eq_true_eq, not_or, not_lt, not_not]
      exact ⟨hstate, by simpa using hfuture, this⟩
    · rw [if_neg hne]
      simp only [unit_bind_eq_ok, raiseIf_eq_ok, not_not]
      exact ⟨hhex k.payload, by simp [f], hhex _⟩
  refine ⟨⟨f, hv⟩, ?_, rfl⟩
  unfold _nextState
  simp only
  rw [dif_neg hs, raiseIf_neg (by simpa using hq), ok_bind, raiseIf_neg (by omega), ok_bind]
  have hget : e.circuitAssessment.get (assessment_of_event hs) = c := by simp [hc]
  rw [hget, raiseIf_neg, ok_bind, hr, ok_bind]
  · exact construct_of_ok hv
  · intro hany
    obtain ⟨last, hl, hle⟩ := (Option.any_eq_true _ _).mp hany
    have := hlast last hl
    simp only [decide_eq_true_eq] at hle
    omega

end KillSwitch

namespace KillSwitchTransition

structure Fields where
  previous : Option KillSwitchState
  event : KillSwitchEvent
  current : KillSwitchState
deriving DecidableEq

def Fields.postInit (t : Fields) : Except KillSwitchError Unit := do
  let expected ← KillSwitch._nextState t.previous t.event
  raiseIf (t.current ≠ expected) ⟨"Current Kill Switch state does not match transition"⟩

end KillSwitchTransition

structure KillSwitchTransition extends KillSwitchTransition.Fields where
  valid : toFields.postInit = .ok ()
deriving DecidableEq

def KillSwitchTransition.build (f : KillSwitchTransition.Fields) :
    Except KillSwitchError KillSwitchTransition :=
  construct f.postInit fun h => ⟨f, h⟩

def applyKillSwitchEvent (previous : Option KillSwitchState) (event : KillSwitchEvent) :
    Except KillSwitchError KillSwitchTransition := do
  let current ← KillSwitch._nextState previous event
  KillSwitchTransition.build ⟨previous, event, current⟩

/-- The transition accepts an event exactly when there is a next state. -/
theorem applyKillSwitchEvent_eq_ok {p : Option KillSwitchState} {e : KillSwitchEvent}
    {t : KillSwitchTransition} :
    applyKillSwitchEvent p e = .ok t ↔
      KillSwitch._nextState p e = .ok t.current ∧ t.toFields = ⟨p, e, t.current⟩ := by
  unfold applyKillSwitchEvent KillSwitchTransition.build
  rw [bind_eq_ok]
  constructor
  · rintro ⟨s, hs, ht⟩
    obtain ⟨_, rfl⟩ := construct_eq_ok.mp ht
    exact ⟨hs, rfl⟩
  · rintro ⟨hs, ht⟩
    obtain ⟨f, hv⟩ := t
    refine ⟨f.current, hs, ?_⟩
    change f = _ at ht
    rw [← ht]
    exact construct_of_ok hv

end TradingLab
