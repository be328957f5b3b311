import TradingLab.Execution.Journal

/-!
# Local order lifecycle

An order is created, activated and at last cancelled. Its events form a chain by
digests, and the durable state is the projection of the chain: each event row
goes together with one write of the state row.
-/

namespace TradingLab

open Method

/-- Errors of the order store; a refused transition is one of them. A number that does not
fit an integer column is not caught by the store. -/
inductive LocalOrderError where
  | failed (message : String)
  | transition (message : String)
  | overflow
deriving Repr, DecidableEq

inductive LocalOrderEventType where
  | create
  | activate
  | cancel
deriving Repr, DecidableEq

namespace LocalOrderEventType

def value : LocalOrderEventType → String
  | create => "CREATE"
  | activate => "ACTIVATE"
  | cancel => "CANCEL"

def ofText? (s : String) : Option LocalOrderEventType :=
  [create, activate, cancel].find? fun x => x.value == s

@[simp] theorem ofText?_value (x : LocalOrderEventType) : ofText? x.value = some x := by
  cases x <;> decide

end LocalOrderEventType

inductive LocalOrderStatus where
  | pendingLocal
  | activeLocal
  | cancelledLocal
deriving Repr, DecidableEq

namespace LocalOrderStatus

def value : LocalOrderStatus → String
  | pendingLocal => "PENDING_LOCAL"
  | activeLocal => "ACTIVE_LOCAL"
  | cancelledLocal => "CANCELLED_LOCAL"

def ofText? (s : String) : Option LocalOrderStatus :=
  [pendingLocal, activeLocal, cancelledLocal].find? fun x => x.value == s

@[simp] theorem ofText?_value (x : LocalOrderStatus) : ofText? x.value = some x := by
  cases x <;> decide

end LocalOrderStatus

inductive LocalOrderReason where
  | acceptedIntentRecorded
  | localActivationConfirmed
  | localCancellationConfirmed
deriving Repr, DecidableEq

namespace LocalOrderReason

def value : LocalOrderReason → String
  | acceptedIntentRecorded => "ACCEPTED_INTENT_RECORDED"
  | localActivationConfirmed => "LOCAL_ACTIVATION_CONFIRMED"
  | localCancellationConfirmed => "LOCAL_CANCELLATION_CONFIRMED"

def ofText? (s : String) : Option LocalOrderReason :=
  [acceptedIntentRecorded, localActivationConfirmed, localCancellationConfirmed].find? fun x =>
    x.value == s

@[simp] theorem ofText?_value (x : LocalOrderReason) : ofText? x.value = some x := by
  cases x <;> decide

end LocalOrderReason

def eventReasons : LocalOrderEventType → LocalOrderReason
  | .create => .acceptedIntentRecorded
  | .activate => .localActivationConfirmed
  | .cancel => .localCancellationConfirmed

def eventStatuses : LocalOrderEventType → LocalOrderStatus
  | .create => .pendingLocal
  | .activate => .activeLocal
  | .cancel => .cancelledLocal

def stateReasons : LocalOrderStatus → LocalOrderReason
  | .pendingLocal => .acceptedIntentRecorded
  | .activeLocal => .localActivationConfirmed
  | .cancelledLocal => .localCancellationConfirmed

namespace LocalPaperOrderEvent

structure Fields where
  authorizationSha256 : String
  intentSha256 : String
  sequence : ℤ
  eventTimeMs : ℤ
  eventType : LocalOrderEventType
  reason : LocalOrderReason
  previousEventSha256 : Option String
deriving Repr, DecidableEq

/-- The first event has no predecessor, and every later one names it. -/
def Fields._predecessor (e : Fields) : Except LocalOrderError Unit :=
  if e.sequence = 0 then
    raiseIf (e.previousEventSha256 ≠ none)
      (.failed "Initial local order event has a predecessor")
  else
    raiseIf (¬ e.previousEventSha256.any Sha256.isHexDigest)
      (.failed "Local order event is missing predecessor evidence")

def Fields.postInit (e : Fields) : Except LocalOrderError Unit := do
  raiseIf (¬ Sha256.isHexDigest e.authorizationSha256 ∨ ¬ Sha256.isHexDigest e.intentSha256)
    (.failed "Local order identity digest is invalid")
  raiseIf (¬ (0 ≤ e.sequence ∧ e.sequence ≤ 1000000000))
    (.failed "Local order event sequence is invalid")
  raiseIf (e.eventTimeMs < 0) (.failed "Local order event time is invalid")
  raiseIf (e.reason ≠ eventReasons e.eventType)
    (.failed "Local order event type and reason disagree")
  e._predecessor

end LocalPaperOrderEvent

structure LocalPaperOrderEvent extends LocalPaperOrderEvent.Fields where
  valid : toFields.postInit = .ok ()
deriving DecidableEq

namespace LocalPaperOrderEvent

def material (e : LocalPaperOrderEvent) : List (String × Json) := [
  ("schema_version", .int 1),
  ("authorization_sha256", .str e.authorizationSha256),
  ("intent_sha256", .str e.intentSha256),
  ("sequence", .int e.sequence),
  ("event_time_ms", .int e.eventTimeMs),
  ("event_type", .str e.eventType.value),
  ("reason", .str e.reason.value),
  ("previous_event_sha256", .optionStr e.previousEventSha256)]

def eventSha256 (e : LocalPaperOrderEvent) : String := (Json.dict e.material).sha256

def asRecord (e : LocalPaperOrderEvent) : Json :=
  .dict (e.material ++ [("event_sha256", .str e.eventSha256)])

end LocalPaperOrderEvent

namespace LocalPaperOrderState

structure Fields where
  authorizationSha256 : String
  intentSha256 : String
  sequence : ℤ
  updatedTimeMs : ℤ
  status : LocalOrderStatus
  reason : LocalOrderReason
  previousStateSha256 : Option String
  eventSha256 : String
deriving Repr, DecidableEq

def Fields._predecessor (s : Fields) : Except LocalOrderError Unit :=
  if s.sequence = 0 then
    raiseIf (s.previousStateSha256 ≠ none)
      (.failed "Initial local order state has a predecessor")
  else
    raiseIf (¬ s.previousStateSha256.any Sha256.isHexDigest)
      (.failed "Local order state is missing predecessor evidence")

def Fields.postInit (s : Fields) : Except LocalOrderError Unit := do
  raiseIf (¬ Sha256.isHexDigest s.authorizationSha256 ∨ ¬ Sha256.isHexDigest s.intentSha256)
    (.failed "Local order state identity digest is invalid")
  raiseIf (¬ (0 ≤ s.sequence ∧ s.sequence ≤ 1000000000))
    (.failed "Local order state sequence is invalid")
  raiseIf (s.updatedTimeMs < 0) (.failed "Local order state time is invalid")
  raiseIf (s.reason ≠ stateReasons s.status)
    (.failed "Local order status and reason disagree")
  s._predecessor
  raiseIf (¬ Sha256.isHexDigest s.eventSha256)
    (.failed "Local order state event digest is invalid")

end LocalPaperOrderState

structure LocalPaperOrderState extends LocalPaperOrderState.Fields where
  valid : toFields.postInit = .ok ()
deriving DecidableEq

namespace LocalPaperOrderState

def build (f : Fields) : Except LocalOrderError LocalPaperOrderState :=
  construct f.postInit fun h => ⟨f, h⟩

def material (s : LocalPaperOrderState) : List (String × Json) := [
  ("schema_version", .int 1),
  ("authorization_sha256", .str s.authorizationSha256),
  ("intent_sha256", .str s.intentSha256),
  ("sequence", .int s.sequence),
  ("updated_time_ms", .int s.updatedTimeMs),
  ("status", .str s.status.value),
  ("reason", .str s.reason.value),
  ("previous_state_sha256", .optionStr s.previousStateSha256),
  ("event_sha256", .str s.eventSha256)]

def stateSha256 (s : LocalPaperOrderState) : String := (Json.dict s.material).sha256

def asRecord (s : LocalPaperOrderState) : Json :=
  .dict (s.material ++ [("state_sha256", .str s.stateSha256)])

end LocalPaperOrderState

/-- What an event must meet in the state before it. -/
def _checkPrevious (intent : LocalPaperIntentRecord) (event : LocalPaperOrderEvent) :
    Option LocalPaperOrderState → Except LocalOrderError (Option String)
  | none => do
      raiseIf (event.sequence ≠ 0 ∨ event.eventType ≠ .create)
        (.transition "Local order lifecycle must begin with sequence-zero CREATE")
      return none
  | some previous => do
      raiseIf (previous.authorizationSha256 ≠ intent.authorizationSha256 ∨
          previous.intentSha256 ≠ intent.intentSha256)
        (.transition "Local order state and intent disagree")
      raiseIf (event.sequence ≠ previous.sequence + 1)
        (.transition "Local order event sequence is duplicate, skipped or out of order")
      raiseIf (event.eventTimeMs ≤ previous.updatedTimeMs)
        (.transition "Local order event time is stale")
      raiseIf (event.previousEventSha256 ≠ some previous.eventSha256)
        (.transition "Local order event chain is broken")
      raiseIf (¬ ((previous.status = .pendingLocal ∧ event.eventType = .activate) ∨
          (previous.status = .activeLocal ∧ event.eventType = .cancel)))
        (.transition "Local order transition is impossible")
      return some previous.stateSha256

/-- The state an event leads to. -/
def stateAfter (event : LocalPaperOrderEvent) (previousStateSha256 : Option String) :
    LocalPaperOrderState.Fields where
  authorizationSha256 := event.authorizationSha256
  intentSha256 := event.intentSha256
  sequence := event.sequence
  updatedTimeMs := event.eventTimeMs
  status := eventStatuses event.eventType
  reason := event.reason
  previousStateSha256 := previousStateSha256
  eventSha256 := event.eventSha256

def _nextState (intent : LocalPaperIntentRecord) (previous : Option LocalPaperOrderState)
    (event : LocalPaperOrderEvent) : Except LocalOrderError LocalPaperOrderState := do
  raiseIf (event.authorizationSha256 ≠ intent.authorizationSha256 ∨
      event.intentSha256 ≠ intent.intentSha256)
    (.transition "Local order event and intent disagree")
  let previousStateSha256 ← _checkPrevious intent event previous
  LocalPaperOrderState.build (stateAfter event previousStateSha256)

/-- A transition carries the proof that its state follows from its event. -/
structure LocalPaperOrderTransition where
  intent : LocalPaperIntentRecord
  previous : Option LocalPaperOrderState
  event : LocalPaperOrderEvent
  current : LocalPaperOrderState
  valid : _nextState intent previous event = .ok current

def applyLocalOrderEvent (intent : LocalPaperIntentRecord) (previous : Option LocalPaperOrderState)
    (event : LocalPaperOrderEvent) : Except LocalOrderError LocalPaperOrderTransition :=
  match h : _nextState intent previous event with
  | .ok current => .ok ⟨intent, previous, event, current, h⟩
  | .error e => .error e

structure Follows (intent : LocalPaperIntentRecord) (previous : Option LocalPaperOrderState)
    (event : LocalPaperOrderEvent) : Prop where
  authorization : event.authorizationSha256 = intent.authorizationSha256
  identity : event.intentSha256 = intent.intentSha256
  first : previous = none → event.sequence = 0 ∧ event.eventType = .create
  later : ∀ p ∈ previous, p.authorizationSha256 = intent.authorizationSha256 ∧
    event.sequence = p.sequence + 1 ∧ p.updatedTimeMs < event.eventTimeMs ∧
    ((p.status = .pendingLocal ∧ event.eventType = .activate) ∨
      (p.status = .activeLocal ∧ event.eventType = .cancel))

variable {intent : LocalPaperIntentRecord} {previous : Option LocalPaperOrderState}

theorem nextState_eq_ok {event : LocalPaperOrderEvent} {s : LocalPaperOrderState}
    (h : _nextState intent previous event = .ok s) :
    Follows intent previous event ∧
      s.toFields = stateAfter event (previous.map (·.stateSha256)) := by
  unfold _nextState at h
  simp only [raiseIf_bind_eq_ok, not_or, not_not] at h
  obtain ⟨⟨ha, hi⟩, h⟩ := h
  obtain ⟨digest, hprev, hbuild⟩ := bind_eq_ok.mp h
  obtain ⟨_, rfl⟩ := construct_eq_ok.mp hbuild
  cases previous with
  | none =>
    unfold _checkPrevious at hprev
    simp only [raiseIf_bind_eq_ok, not_or, not_not, pure, Except.pure, Except.ok.injEq] at hprev
    obtain ⟨hfirst, rfl⟩ := hprev
    exact ⟨⟨ha, hi, fun _ => hfirst, fun _ hp => (by cases hp)⟩, rfl⟩
  | some p =>
    unfold _checkPrevious at hprev
    simp only [raiseIf_bind_eq_ok, not_or, not_not, pure, Except.pure, Except.ok.injEq,
      not_le] at hprev
    obtain ⟨⟨pa, -⟩, hseq, htime, -, hallowed, rfl⟩ := hprev
    refine ⟨⟨ha, hi, fun hp => (by cases hp), ?_⟩, rfl⟩
    intro q hq
    cases hq
    exact ⟨pa, hseq, htime, not_not.mp fun hn => hallowed (not_or.mp hn)⟩

theorem applyLocalOrderEvent_eq_ok {event : LocalPaperOrderEvent}
    {t : LocalPaperOrderTransition} (h : applyLocalOrderEvent intent previous event = .ok t) :
    _nextState intent previous event = .ok t.current := by
  unfold applyLocalOrderEvent at h
  split at h
  · rename_i s hs
    cases h
    exact hs
  · cases h

theorem applyLocalOrderEvent_of_nextState {event : LocalPaperOrderEvent}
    {s : LocalPaperOrderState} (h : _nextState intent previous event = .ok s) :
    ∃ t, applyLocalOrderEvent intent previous event = .ok t ∧ t.current = s := by
  unfold applyLocalOrderEvent
  split
  · rename_i s' hs
    rw [h] at hs
    cases hs
    exact ⟨_, rfl, rfl⟩
  · rename_i e he
    rw [h] at he
    cases he

/-- The event of a row, when its constructor accepts the columns. -/
def OrderEventRow.event? (r : OrderEventRow) : Option LocalPaperOrderEvent := do
  let sequence ← r.sequence.int?
  let eventTimeMs ← r.eventTimeMs.int?
  let eventType ← LocalOrderEventType.ofText? r.eventType
  let reason ← LocalOrderReason.ofText? r.reason
  let fields : LocalPaperOrderEvent.Fields := {
    authorizationSha256 := r.authorizationSha256
    intentSha256 := r.intentSha256
    sequence, eventTimeMs, eventType, reason
    previousEventSha256 := r.previousEventSha256 }
  (construct fields.postInit fun h => (⟨fields, h⟩ : LocalPaperOrderEvent)).toOption

/-- The state of a row, when its constructor accepts the columns. -/
def OrderStateRow.state? (r : OrderStateRow) : Option LocalPaperOrderState := do
  let sequence ← r.sequence.int?
  let updatedTimeMs ← r.updatedTimeMs.int?
  let status ← LocalOrderStatus.ofText? r.status
  let reason ← LocalOrderReason.ofText? r.reason
  let fields : LocalPaperOrderState.Fields := {
    authorizationSha256 := r.authorizationSha256
    intentSha256 := r.intentSha256
    sequence, updatedTimeMs, status, reason
    previousStateSha256 := r.previousStateSha256
    eventSha256 := r.eventSha256 }
  (LocalPaperOrderState.build fields).toOption

def LocalPaperOrderEvent.row (e : LocalPaperOrderEvent) : OrderEventRow where
  authorizationSha256 := e.authorizationSha256
  intentSha256 := e.intentSha256
  sequence := .int e.sequence
  eventTimeMs := .int e.eventTimeMs
  eventType := e.eventType.value
  reason := e.reason.value
  previousEventSha256 := e.previousEventSha256
  eventSha256 := e.eventSha256

def LocalPaperOrderState.row (s : LocalPaperOrderState) : OrderStateRow where
  authorizationSha256 := s.authorizationSha256
  intentSha256 := s.intentSha256
  sequence := .int s.sequence
  updatedTimeMs := .int s.updatedTimeMs
  status := s.status.value
  reason := s.reason.value
  previousStateSha256 := s.previousStateSha256
  eventSha256 := s.eventSha256
  stateSha256 := s.stateSha256

@[simp] theorem event?_row (e : LocalPaperOrderEvent) : e.row.event? = some e := by
  unfold OrderEventRow.event? LocalPaperOrderEvent.row
  simp only [Cell.int?_int, LocalOrderEventType.ofText?_value, LocalOrderReason.ofText?_value,
    Option.bind_eq_bind, Option.bind_some]
  rw [construct_of_ok e.valid]
  rfl

@[simp] theorem state?_row (s : LocalPaperOrderState) : s.row.state? = some s := by
  unfold OrderStateRow.state? LocalPaperOrderState.row LocalPaperOrderState.build
  simp only [Cell.int?_int, LocalOrderStatus.ofText?_value, LocalOrderReason.ofText?_value,
    Option.bind_eq_bind, Option.bind_some]
  rw [construct_of_ok s.valid]
  rfl

namespace LocalPaperOrderStore

def _getIntent (db : Database) (authorizationSha256 : String) :
    Except LocalOrderError LocalPaperIntentRecord :=
  match db.selectIntent authorizationSha256 with
  | none => .error (.transition "Local order event has no recorded accepted intent")
  | some row => (LocalPaperIntentRecord.build row).mapError fun _ =>
      .failed "Stored intent failed local order validation"

def _eventFromRow (row : OrderEventRow) : Except LocalOrderError LocalPaperOrderEvent :=
  match row.event? with
  | none => .error (.failed "Stored local order event is invalid")
  | some event => do
      raiseIf (event.eventSha256 ≠ row.eventSha256)
        (.failed "Stored local order event digest changed")
      return event

def _stateFromRow : Option OrderStateRow → Except LocalOrderError (Option LocalPaperOrderState)
  | none => return none
  | some row =>
      match row.state? with
      | none => .error (.failed "Stored local order state is invalid")
      | some state => do
          raiseIf (state.stateSha256 ≠ row.stateSha256)
            (.failed "Stored local order state digest changed")
          return some state

def integrityError : LocalOrderError :=
  .transition "Local order event is duplicate or conflicts with durable state"

def maxInteger : ℤ := 2 ^ 63 - 1

def _insertEvent (event : LocalPaperOrderEvent) : Method Database LocalOrderError Unit := do
  let db ← read id
  check (raiseIf (maxInteger < event.eventTimeMs) .overflow)
  check (raiseIf (∃ r ∈ db.orderEvents, r.eventSha256 = event.eventSha256 ∨
      (r.authorizationSha256 = event.authorizationSha256 ∧ r.sequence = .int event.sequence))
    integrityError)
  modify fun db => { db with orderEvents := db.orderEvents ++ [event.row] }

/-- Insert the state of a new order, or update the row it follows. No fill may refer to a
digest that is replaced. -/
def _writeState (previous : Option LocalPaperOrderState) (current : LocalPaperOrderState) :
    Method Database LocalOrderError Unit := do
  let db ← read id
  match previous with
  | none =>
      check (raiseIf (∃ r ∈ db.orderStates, r.authorizationSha256 = current.authorizationSha256 ∨
          r.stateSha256 = current.stateSha256) integrityError)
      modify fun db => { db with orderStates := db.orderStates ++ [current.row] }
  | some previous =>
      let isPrevious := fun r : OrderStateRow =>
        r.authorizationSha256 = current.authorizationSha256 ∧ r.stateSha256 = previous.stateSha256
      check (raiseIf (¬ ∃ r ∈ db.orderStates, isPrevious r)
        (.transition "Local order state changed concurrently"))
      check (raiseIf ((∃ r ∈ db.orderStates, ¬ isPrevious r ∧ r.stateSha256 = current.stateSha256) ∨
          (current.stateSha256 ≠ previous.stateSha256 ∧
            ∃ f ∈ db.fillEvents, f.orderStateSha256 = previous.stateSha256)) integrityError)
      modify fun db => { db with
        orderStates := db.orderStates.map fun r => if isPrevious r then current.row else r }

def apply (event : LocalPaperOrderEvent) :
    Method Database LocalOrderError LocalPaperOrderTransition :=
  atomic do
    let db ← read id
    let intent ← check (_getIntent db event.authorizationSha256)
    let previous ← check (_stateFromRow (db.selectState event.authorizationSha256))
    let transition ← check (applyLocalOrderEvent intent previous event)
    _insertEvent event
    _writeState previous transition.current
    return transition

end LocalPaperOrderStore

end TradingLab
