import TradingLab.Notifications.Transport

/-!
# The law of guarded delivery

The guard calls its sender, and sleeps between the calls. Here a call of the
guard keeps what it does to the outside, in order, and a run hands the snapshot
that one call returns to the next; a call that raises returns none.
-/

namespace TradingLab.Notifications

open List Method

inductive SendEvent where
  | called (outcome : Except SenderFailure TelegramDeliveryReceipt)
  | slept (seconds : ℕ)

inductive GuardFailure where
  | guard (code : DeliveryGuardErrorCode)
  /-- What the sender raised besides transport errors. -/
  | other
deriving DecidableEq

abbrev Guarding (α : Type) : Type := Method (List SendEvent) GuardFailure α

structure GuardedCall where
  message : NotificationMessage
  /-- The message, its formatted text and the credentials pass the first check. -/
  wellFormed : Bool
  /-- What the sender does at its `n`-th call. -/
  sender : ℕ → Except SenderFailure TelegramDeliveryReceipt

def record (event : SendEvent) : Guarding Unit := Method.modify fun events => events ++ [event]

def checkGuard {α : Type} (x : Except DeliveryGuardErrorCode α) : Guarding α :=
  Method.check (x.mapError .guard)

section
variable (policySha256 : String)

/-- What is made of a receipt. -/
def acknowledge (message : NotificationMessage) (current : DeliveryState) (attempt : ℕ)
    (waits : List ℕ) (receipt : TelegramDeliveryReceipt) :
    Except DeliveryGuardErrorCode GuardedDeliveryResult := do
  let receipt ← validateReceipt policySha256 message receipt
  let record ← (deliveredRecord message receipt attempt waits).check
  let updated ← appendRecord current record
  return ⟨.delivered, record, attempt, waits, updated⟩

/-- The attempts that are left, from a given one on. -/
def sendAttempts (call : GuardedCall) (current : DeliveryState) :
    ℕ → ℕ → List ℕ → Guarding GuardedDeliveryResult
  | 0, _, _ => checkGuard (.error .retryExhausted)
  | left + 1, attempt, waits => do
      record (.called (call.sender attempt))
      match call.sender attempt with
      | .error .other => Method.check (.error .other)
      | .error (.transport error) =>
          match guardErrorForTransport error with
          | some rejected => checkGuard (.error rejected)
          | none => do
              let waitSeconds ← checkGuard (waitAfter attempt error)
              checkGuard (raiseIf (maxTotalWaitSeconds < waits.sum + waitSeconds) .waitBoundExceeded)
              record (.slept waitSeconds)
              sendAttempts call current left (attempt + 1) (waits ++ [waitSeconds])
      | .ok receipt =>
          checkGuard (acknowledge policySha256 call.message current attempt waits receipt)

/-- One call of the guard. -/
def guardedSendCall (call : GuardedCall) (current : DeliveryState) :
    Guarding GuardedDeliveryResult := do
  checkGuard (raiseIf (call.wellFormed = false) .invalidRequest)
  match current.find (deliveryIdentity call.message) with
  | some existing => pure ⟨.duplicateSuppressed, existing, 0, [], current⟩
  | none => do
      checkGuard (raiseIf (maxDeliveryRecords ≤ current.records.length) .stateFull)
      sendAttempts policySha256 call current maxAttempts 1 []

/-- A call of a run: the snapshot it is given, its outcome and its events. -/
structure GuardedStep where
  call : GuardedCall
  before : DeliveryState
  outcome : Except GuardFailure GuardedDeliveryResult
  events : List SendEvent

/-- The snapshot that the caller keeps. -/
def GuardedStep.after (step : GuardedStep) : DeliveryState :=
  match step.outcome with
  | .ok result => result.state
  | .error _ => step.before

def guardedStep (call : GuardedCall) (state : DeliveryState) : GuardedStep :=
  let r := (guardedSendCall policySha256 call state).call []
  ⟨call, state, r.1, r.2⟩

def guardedRun : DeliveryState → List GuardedCall → List GuardedStep
  | _, [] => []
  | state, call :: calls =>
      let step := guardedStep policySha256 call state
      step :: guardedRun step.after calls

end

section
variable {policySha256 : String} {call : GuardedCall} {current : DeliveryState}

variable {reply : ℕ → Except TelegramTransportError TelegramDeliveryReceipt}

theorem sendAttempts_eq_sendLoop
    (h : call.sender = fun n => (reply n).mapError .transport) (left attempt : ℕ) (waits : List ℕ)
    (events : List SendEvent) :
    ((sendAttempts policySha256 call current left attempt waits).call events).1 =
      (sendLoop policySha256 call.message current reply left attempt waits).mapError .guard := by
  induction left generalizing attempt waits events with
  | zero => rfl
  | succ left ih =>
    rw [sendAttempts, sendLoop, call_bind, record, call_modify, h]
    dsimp only
    cases reply attempt with
    | ok receipt => rfl
    | error error =>
      dsimp only [Except.mapError]
      cases guardErrorForTransport error with
      | some rejected => rfl
      | none =>
        dsimp only
        rw [call_bind, checkGuard, call_check]
        cases waitAfter attempt error with
        | error code => rfl
        | ok waitSeconds =>
          dsimp only [Except.mapError]
          rw [call_bind, checkGuard, call_check, ok_bind]
          by_cases hbound : maxTotalWaitSeconds < waits.sum + waitSeconds
          · rw [raiseIf_pos hbound]
            rfl
          · rw [raiseIf_neg hbound, ok_bind]
            exact ih (attempt + 1) (waits ++ [waitSeconds]) _

theorem guardedSendCall_eq_guardedSend
    (h : call.sender = fun n => (reply n).mapError .transport) (hformed : call.wellFormed = true) :
    ((guardedSendCall policySha256 call current).call []).1 =
      (guardedSend policySha256 call.message current reply).mapError .guard := by
  rw [guardedSendCall, guardedSend, call_bind, checkGuard, call_check,
    raiseIf_neg (by rw [hformed]; simp)]
  dsimp only [Except.mapError]
  cases current.find (deliveryIdentity call.message) with
  | some existing => rfl
  | none =>
    dsimp only
    rw [call_bind, checkGuard, call_check]
    by_cases hfull : maxDeliveryRecords ≤ current.records.length
    · rw [raiseIf_pos hfull]
      rfl
    · rw [raiseIf_neg hfull]
      exact sendAttempts_eq_sendLoop h maxAttempts 1 [] []

end

/-- What the sender did in a call. -/
def SendEvent.outcome? : SendEvent → Option (Except SenderFailure TelegramDeliveryReceipt)
  | .called outcome => some outcome
  | .slept _ => none

def SendEvent.seconds : SendEvent → ℕ
  | .called _ => 0
  | .slept seconds => seconds

/-- An outcome after which the sender is called again. -/
def MayRetry (outcome : Except SenderFailure TelegramDeliveryReceipt) : Prop :=
  ∃ e : SenderFailure, outcome = .error e ∧ e.Retryable

/-- The events of one call of the guard are within its bounds. -/
structure Bounded (call : GuardedCall) (events : List SendEvent) : Prop where
  calls : ∃ n ≤ maxAttempts, events.filterMap SendEvent.outcome? =
    (List.range' 1 n).map call.sender
  sleeps : (events.map SendEvent.seconds).sum ≤ maxTotalWaitSeconds
  retries : ∀ outcome, .called outcome ∈ events.dropLast → MayRetry outcome

/-- Before an attempt: every earlier one may be tried again. -/
structure Attempting (call : GuardedCall) (attempt : ℕ) (waits : List ℕ)
    (events : List SendEvent) : Prop where
  positive : 1 ≤ attempt
  calls : events.filterMap SendEvent.outcome? = (List.range' 1 (attempt - 1)).map call.sender
  sleeps : (events.map SendEvent.seconds).sum = waits.sum
  bounded : waits.sum ≤ maxTotalWaitSeconds
  retries : ∀ outcome, .called outcome ∈ events → MayRetry outcome

section
variable {policySha256 : String} {call : GuardedCall} {current : DeliveryState}
    {attempt : ℕ} {waits : List ℕ} {events : List SendEvent}

theorem Attempting.called (h : Attempting call attempt waits events) :
    (events ++ [SendEvent.called (call.sender attempt)]).filterMap SendEvent.outcome? =
      (List.range' 1 attempt).map call.sender := by
  obtain ⟨n, rfl⟩ : ∃ n, attempt = n + 1 := ⟨attempt - 1, by have := h.positive; omega⟩
  rw [filterMap_append, h.calls, range'_concat, map_append, Nat.add_sub_cancel]
  simp [SendEvent.outcome?, Nat.add_comm]

theorem Attempting.bounded_called (h : Attempting call attempt waits events)
    (hattempt : attempt ≤ maxAttempts) :
    Bounded call (events ++ [.called (call.sender attempt)]) where
  calls := ⟨attempt, hattempt, h.called⟩
  sleeps := by
    have := h.sleeps
    have := h.bounded
    simp [SendEvent.seconds]
    omega
  retries := by
    intro o ho
    rw [dropLast_concat] at ho
    exact h.retries o ho

theorem Attempting.next (h : Attempting call attempt waits events) {e : TelegramTransportError}
    (hreply : call.sender attempt = .error (.transport e))
    (hretry : guardErrorForTransport e = none) {seconds : ℕ}
    (hwait : ¬ maxTotalWaitSeconds < waits.sum + seconds) :
    Attempting call (attempt + 1) (waits ++ [seconds])
      (events ++ [.called (call.sender attempt)] ++ [.slept seconds]) where
  positive := Nat.le_add_left _ _
  calls := by
    rw [filterMap_append, h.called, Nat.add_sub_cancel]
    exact append_nil _
  sleeps := by
    have := h.sleeps
    simp [SendEvent.seconds]
    omega
  bounded := by
    rw [sum_append, sum_singleton]
    omega
  retries := by
    intro o ho
    rcases mem_append.mp ho with ho | ho
    · rcases mem_append.mp ho with ho | ho
      · exact h.retries o ho
      · cases mem_singleton.mp ho
        refine ⟨_, hreply, ?_⟩
        cases e with
        | networkError => trivial
        | rateLimited seconds => trivial
        | _ => cases hretry
    · cases mem_singleton.mp ho

variable {left : ℕ} {result : GuardedDeliveryResult}

/-- However the sender behaves, the attempts that are left keep to the bounds. -/
theorem sendAttempts_bounded (h : Attempting call attempt waits events)
    (hleft : attempt + left = maxAttempts + 1) :
    Bounded call ((sendAttempts policySha256 call current left attempt waits).after events) := by
  induction left generalizing attempt waits events with
  | zero =>
    have hsleeps := h.sleeps
    have hbounded := h.bounded
    refine ⟨⟨attempt - 1, by omega, h.calls⟩, ?_, fun o ho => h.retries o (mem_of_mem_dropLast ho)⟩
    · change (events.map SendEvent.seconds).sum ≤ maxTotalWaitSeconds
      omega
  | succ left ih =>
    have hcalled := h.bounded_called (by omega)
    unfold Method.after
    rw [sendAttempts, call_bind, record, call_modify]
    dsimp only
    split
    · exact hcalled
    · rename_i error hreply
      cases hretry : guardErrorForTransport error with
      | some rejected => exact hcalled
      | none =>
        dsimp only
        rw [call_bind, checkGuard, call_check]
        cases waitAfter attempt error with
        | error code => exact hcalled
        | ok waitSeconds =>
          dsimp only [Except.mapError]
          rw [call_bind, checkGuard, call_check]
          by_cases hwait : maxTotalWaitSeconds < waits.sum + waitSeconds
          · rw [raiseIf_pos hwait]
            exact hcalled
          · rw [raiseIf_neg hwait]
            exact ih (h.next hreply hretry hwait) (by omega)
    · exact hcalled

theorem bounded_nil : Bounded call [] where
  calls := ⟨0, Nat.zero_le _, rfl⟩
  sleeps := Nat.zero_le _
  retries := nofun

theorem guardedSendCall_bounded :
    Bounded call ((guardedSendCall policySha256 call current).after []) := by
  unfold guardedSendCall Method.after
  rw [call_bind, checkGuard, call_check]
  by_cases hformed : call.wellFormed = false
  · rw [raiseIf_pos hformed]
    exact bounded_nil
  rw [raiseIf_neg hformed]
  dsimp only [Except.mapError]
  cases current.find (deliveryIdentity call.message) with
  | some existing => exact bounded_nil
  | none =>
    dsimp only
    rw [call_bind, checkGuard, call_check]
    by_cases hfull : maxDeliveryRecords ≤ current.records.length
    · rw [raiseIf_pos hfull]
      exact bounded_nil
    · rw [raiseIf_neg hfull]
      refine sendAttempts_bounded ⟨le_rfl, rfl, rfl, Nat.zero_le _, nofun⟩ ?_
      exact Nat.add_comm 1 maxAttempts

theorem guardedSendCall_recorded {existing : DeliveryRecord}
    (h : current.find (deliveryIdentity call.message) = some existing) :
    ((guardedSendCall policySha256 call current).call []).2 = [] ∧
      ∀ result, ((guardedSendCall policySha256 call current).call []).1 = .ok result →
        result.status = .duplicateSuppressed ∧ result.state = current := by
  unfold guardedSendCall
  rw [call_bind, checkGuard, call_check, h]
  by_cases hformed : call.wellFormed = false
  · rw [raiseIf_pos hformed]
    exact ⟨rfl, nofun⟩
  · rw [raiseIf_neg hformed]
    refine ⟨rfl, fun result hresult => ?_⟩
    cases hresult
    exact ⟨rfl, rfl⟩

/-- An attempt that is acknowledged adds the record of its message. -/
theorem sendAttempts_eq_ok {events' : List SendEvent}
    (h : (sendAttempts policySha256 call current left attempt waits).call events =
      (.ok result, events')) :
    result.status = .delivered ∧ result.record.deliveryId = deliveryIdentity call.message ∧
      appendRecord current result.record = .ok result.state := by
  induction left generalizing attempt waits events with
  | zero => cases h
  | succ left ih =>
    rw [sendAttempts, call_bind_eq_ok] at h
    obtain ⟨_, _, _, h⟩ := h
    split at h
    · cases h
    · split at h
      · cases h
      · rw [call_bind_eq_ok] at h
        obtain ⟨_, _, _, h⟩ := h
        rw [call_bind_eq_ok] at h
        obtain ⟨_, _, _, h⟩ := h
        rw [call_bind_eq_ok] at h
        obtain ⟨_, _, _, h⟩ := h
        exact ih h
    · rw [checkGuard, call_check, Prod.mk.injEq, mapError_eq_ok] at h
      have h := h.1
      unfold acknowledge at h
      rw [bind_eq_ok] at h
      obtain ⟨receipt, -, h⟩ := h
      rw [bind_eq_ok] at h
      obtain ⟨record, hrecord, h⟩ := h
      rw [bind_eq_ok] at h
      obtain ⟨updated, hupdated, h⟩ := h
      unfold DeliveryRecord.check at hrecord
      split at hrecord
      · cases hrecord
        cases h
        exact ⟨rfl, rfl, hupdated⟩
      · cases hrecord

theorem guardedSendCall_eq_ok
    (h : ((guardedSendCall policySha256 call current).call []).1 = .ok result) :
    (result.status = .delivered ∧ current.find (deliveryIdentity call.message) = none ∧
        result.record.deliveryId = deliveryIdentity call.message ∧
        appendRecord current result.record = .ok result.state) ∨
      result.status = .duplicateSuppressed ∧ result.state = current := by
  rcases hfind : current.find (deliveryIdentity call.message) with _ | existing
  · left
    obtain ⟨events, hcall⟩ : ∃ events, (guardedSendCall policySha256 call current).call [] =
        (.ok result, events) := ⟨_, Prod.ext h rfl⟩
    rw [guardedSendCall, call_bind_eq_ok] at hcall
    obtain ⟨_, _, _, hcall⟩ := hcall
    rw [hfind] at hcall
    dsimp only at hcall
    rw [call_bind_eq_ok] at hcall
    obtain ⟨_, _, _, hcall⟩ := hcall
    obtain ⟨hstatus, hid, hstate⟩ := sendAttempts_eq_ok hcall
    exact ⟨hstatus, rfl, hid, hstate⟩
  · exact .inr ((guardedSendCall_recorded hfind).2 result h)

end

def GuardedStep.identity (step : GuardedStep) : String := deliveryIdentity step.call.message

def GuardedStep.Delivers (step : GuardedStep) : Prop :=
  ∃ result, step.outcome = .ok result ∧ result.status = .delivered

def DeliveryState.Has (state : DeliveryState) (id : String) : Prop :=
  ∃ record ∈ state.records, record.deliveryId = id

structure GuardedStep.Lawful (step : GuardedStep) : Prop where
  bounded : Bounded step.call step.events
  /-- The snapshot is sorted, without duplicates, and has no more than its bound of records. -/
  valid : DeliveryState.Valid step.after.records
  raised : ∀ e, step.outcome = .error e → step.after = step.before
  /-- What has a record is not sent. -/
  known : step.before.Has step.identity → step.events = [] ∧ ¬ step.Delivers
  delivered : step.Delivers → step.after.Has step.identity
  kept : ∀ id, step.before.Has id → step.after.Has id

section
variable (policySha256 : String)

theorem has_find {state : DeliveryState} {id : String} (h : state.Has id) :
    ∃ existing, state.find id = some existing := by
  obtain ⟨record, hrecord, hid⟩ := h
  exact ⟨record, find_eq_some.mpr ⟨hrecord, hid⟩⟩

theorem lawful_guardedStep (call : GuardedCall) (state : DeliveryState) :
    (guardedStep policySha256 call state).Lawful := by
  refine ⟨guardedSendCall_bounded, (GuardedStep.after _).valid, ?_, ?_, ?_, ?_⟩
  · intro e he
    unfold GuardedStep.after
    rw [he]
  · intro hhas
    obtain ⟨existing, hfind⟩ := has_find hhas
    obtain ⟨hevents, hreturned⟩ := @guardedSendCall_recorded policySha256 _ _ _ hfind
    refine ⟨hevents, ?_⟩
    rintro ⟨result, hresult, hstatus⟩
    rw [(hreturned result hresult).1] at hstatus
    cases hstatus
  · rintro ⟨result, hresult, hstatus⟩
    unfold GuardedStep.after
    rw [hresult]
    rcases guardedSendCall_eq_ok hresult with ⟨_, _, hid, happend⟩ | ⟨hduplicate, _⟩
    · exact ⟨result.record, (mem_appendRecord happend).mpr (.inr rfl), hid⟩
    · rw [hduplicate] at hstatus
      cases hstatus
  · rintro id ⟨record, hrecord, hid⟩
    unfold GuardedStep.after
    split
    · rename_i result hresult
      rcases guardedSendCall_eq_ok hresult with ⟨_, _, _, happend⟩ | ⟨_, hstate⟩
      · exact ⟨record, (mem_appendRecord happend).mpr (.inl hrecord), hid⟩
      · rw [hstate]
        exact ⟨record, hrecord, hid⟩
    · exact ⟨record, hrecord, hid⟩

theorem guardedRun_has {start : DeliveryState} {id : String} (h : start.Has id)
    (calls : List GuardedCall) :
    ∀ step ∈ guardedRun policySha256 start calls, step.Lawful ∧ step.before.Has id := by
  induction calls generalizing start with
  | nil => exact nofun
  | cons call calls ih =>
    have hlawful := lawful_guardedStep policySha256 call start
    intro step hstep
    rcases mem_cons.mp hstep with rfl | hstep
    · exact ⟨hlawful, h⟩
    · exact ih (hlawful.kept id h) step hstep

/-- The law of guarded delivery, over every run and every behaviour of the sender: each call is
lawful, a recorded identity is not sent again and not recorded again, and where the transport lets
an attempt be repeated it has sent nothing or was refused for the rate. -/
theorem guarded_delivery (start : DeliveryState) (calls : List GuardedCall) :
    (∀ step ∈ guardedRun policySha256 start calls, step.Lawful) ∧
      (guardedRun policySha256 start calls).Pairwise (fun earlier later =>
        earlier.after.Has later.identity → later.events = [] ∧ ¬ later.Delivers) ∧
      ∀ message network, MayRetry
          ((sendFormattedNotification policySha256 message network).call .idle).1 →
        let wire := ((sendFormattedNotification policySha256 message network).call .idle).2
        wire.requested = false ∨ wire.status = some 429 := by
  refine ⟨?_, ?_, ?_⟩
  · induction calls generalizing start with
    | nil => exact nofun
    | cons call calls ih =>
      intro step hstep
      rcases List.mem_cons.mp hstep with rfl | hstep
      · exact lawful_guardedStep policySha256 call start
      · exact ih _ step hstep
  · induction calls generalizing start with
    | nil => exact .nil
    | cons call calls ih =>
      refine List.pairwise_cons.mpr ⟨?_, ih _⟩
      intro later hlater hhas
      obtain ⟨hlawful, hbefore⟩ := guardedRun_has policySha256 hhas calls later hlater
      exact hlawful.known hbefore
  · rintro message network ⟨e, he, hretry⟩
    exact unsent_of_retryable (Prod.ext he rfl) hretry

end

end TradingLab.Notifications
