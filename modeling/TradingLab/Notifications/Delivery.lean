import TradingLab.Json.Basic
import TradingLab.Method
import Mathlib.Data.List.Sort
import Mathlib.Data.String.Basic

/-!
# Guarded delivery

A notification is sent once. A record of every acknowledged notification is kept in
a snapshot, in the order of the identities, and a notification that has a record is
not sent again. A send is tried at most three times.
-/

namespace TradingLab.Notifications

def deliverySchemaVersion : ℕ := 1
def maxDeliveryRecords : ℕ := 256
def maxAttempts : ℕ := 3
def networkBackoffSeconds : List ℕ := [1, 2]
def maxRateLimitWaitSeconds : ℕ := 30
def maxTotalWaitSeconds : ℕ := 60
def telegramTransportId : String := "P9_TELEGRAM_SEND_MESSAGE_V1"

inductive DeliveryGuardErrorCode where
  | invalidRequest | stateInvalid | stateFull | waitBoundExceeded | retryExhausted
  | transportRejected | receiptInvalid
deriving Repr, DecidableEq

/-- What the transport raises; only a rate limit says how long to wait. -/
inductive TelegramTransportError where
  | configMissing | configInvalid | requestInvalid | networkError | networkAmbiguous | httpStatus
  | rateLimited (retryAfterSeconds : ℕ)
  | responseTooLarge | responseInvalid | apiRejected
deriving Repr, DecidableEq

/-- What the guard uses of a validated notification and of its formatted text. -/
structure NotificationMessage where
  messageSha256 : String
  formattedSha256 : String
  valid : Sha256.isHexDigest messageSha256 = true ∧ Sha256.isHexDigest formattedSha256 = true
deriving DecidableEq

structure TelegramDeliveryReceipt where
  notificationSha256 : String
  formattedSha256 : String
  telegramMessageId : ℕ
  policySha256 : String
  valid : Sha256.isHexDigest notificationSha256 = true ∧ Sha256.isHexDigest formattedSha256 = true ∧
    0 < telegramMessageId ∧ Sha256.isHexDigest policySha256 = true
deriving DecidableEq

def jsonSha256 (v : Json) : String := Sha256.hexDigest v.plainText

def TelegramDeliveryReceipt.receiptSha256 (receipt : TelegramDeliveryReceipt) : String :=
  jsonSha256 (.dict [
    ("notification_sha256", .str receipt.notificationSha256),
    ("formatted_sha256", .str receipt.formattedSha256),
    ("telegram_message_id", .int receipt.telegramMessageId),
    ("policy_sha256", .str receipt.policySha256), ("transport_id", .str telegramTransportId)])

/-- The identity under which a notification is delivered. -/
def deliveryIdentity (message : NotificationMessage) : String :=
  jsonSha256 (.dict [
    ("schema_version", .int deliverySchemaVersion), ("transport_id", .str telegramTransportId),
    ("notification_sha256", .str message.messageSha256),
    ("formatted_sha256", .str message.formattedSha256)])

/-- One successfully acknowledged notification. -/
structure DeliveryRecord where
  deliveryId : String
  notificationSha256 : String
  formattedSha256 : String
  receiptSha256 : String
  telegramMessageId : ℕ
  attempts : ℕ
  totalWaitSeconds : ℕ
deriving Repr, DecidableEq

structure DeliveryRecord.Valid (record : DeliveryRecord) : Prop where
  deliveryId : Sha256.isHexDigest record.deliveryId = true
  notificationSha256 : Sha256.isHexDigest record.notificationSha256 = true
  formattedSha256 : Sha256.isHexDigest record.formattedSha256 = true
  receiptSha256 : Sha256.isHexDigest record.receiptSha256 = true
  telegramMessageId : 0 < record.telegramMessageId
  attempts : 1 ≤ record.attempts ∧ record.attempts ≤ maxAttempts
  totalWaitSeconds : record.totalWaitSeconds ≤ maxTotalWaitSeconds

/-- The checks of the constructor, on the records of a snapshot. -/
structure DeliveryState.Valid (records : List DeliveryRecord) : Prop where
  length : records.length ≤ maxDeliveryRecords
  each : ∀ record ∈ records, record.Valid
  sorted : (records.map DeliveryRecord.deliveryId).Pairwise (· ≤ ·)
  nodup : (records.map DeliveryRecord.deliveryId).Nodup

instance (record : DeliveryRecord) : Decidable record.Valid :=
  decidable_of_iff
    (Sha256.isHexDigest record.deliveryId = true ∧ Sha256.isHexDigest record.notificationSha256 = true ∧
      Sha256.isHexDigest record.formattedSha256 = true ∧
      Sha256.isHexDigest record.receiptSha256 = true ∧ 0 < record.telegramMessageId ∧
      (1 ≤ record.attempts ∧ record.attempts ≤ maxAttempts) ∧
      record.totalWaitSeconds ≤ maxTotalWaitSeconds)
    ⟨fun ⟨a, b, c, d, e, f, g⟩ => ⟨a, b, c, d, e, f, g⟩,
      fun ⟨a, b, c, d, e, f, g⟩ => ⟨a, b, c, d, e, f, g⟩⟩

instance (records : List DeliveryRecord) : Decidable (DeliveryState.Valid records) :=
  decidable_of_iff
    (records.length ≤ maxDeliveryRecords ∧ (∀ record ∈ records, record.Valid) ∧
      (records.map DeliveryRecord.deliveryId).Pairwise (· ≤ ·) ∧
      (records.map DeliveryRecord.deliveryId).Nodup)
    ⟨fun ⟨a, b, c, d⟩ => ⟨a, b, c, d⟩, fun ⟨a, b, c, d⟩ => ⟨a, b, c, d⟩⟩

structure DeliveryState where
  records : List DeliveryRecord
  valid : DeliveryState.Valid records
deriving DecidableEq

def DeliveryState.empty : DeliveryState := ⟨[], by decide, by decide, by decide, by decide⟩

def DeliveryState.ofRecords (records : List DeliveryRecord) :
    Except DeliveryGuardErrorCode DeliveryState :=
  if h : DeliveryState.Valid records then .ok ⟨records, h⟩ else .error .stateInvalid

def DeliveryState.find (state : DeliveryState) (deliveryId : String) : Option DeliveryRecord :=
  state.records.find? fun record => decide (record.deliveryId = deliveryId)

def appendRecord (state : DeliveryState) (record : DeliveryRecord) :
    Except DeliveryGuardErrorCode DeliveryState := do
  raiseIf (maxDeliveryRecords ≤ state.records.length) .stateFull
  DeliveryState.ofRecords
    ((state.records ++ [record]).mergeSort fun a b => decide (a.deliveryId ≤ b.deliveryId))

inductive DeliveryStatus where
  | delivered | duplicateSuppressed
deriving Repr, DecidableEq

structure GuardedDeliveryResult where
  status : DeliveryStatus
  record : DeliveryRecord
  attempts : ℕ
  waitSeconds : List ℕ
  state : DeliveryState
deriving DecidableEq

/-- An error that is not tried again. -/
def guardErrorForTransport : TelegramTransportError → Option DeliveryGuardErrorCode
  | .networkError => none
  | .rateLimited _ => none
  | _ => some .transportRejected

/-- How long to wait after a failed attempt. -/
def waitAfter (attempt : ℕ) : TelegramTransportError → Except DeliveryGuardErrorCode ℕ
  | .networkError =>
      if maxAttempts ≤ attempt then .error .retryExhausted
      else .ok (networkBackoffSeconds.getD (attempt - 1) 0)
  | .rateLimited seconds =>
      if maxRateLimitWaitSeconds < seconds then .error .waitBoundExceeded
      else if maxAttempts ≤ attempt then .error .retryExhausted
      else .ok seconds
  | _ => .error .transportRejected

section
variable (policySha256 : String)

def validateReceipt (message : NotificationMessage) (receipt : TelegramDeliveryReceipt) :
    Except DeliveryGuardErrorCode TelegramDeliveryReceipt := do
  raiseIf (receipt.notificationSha256 ≠ message.messageSha256 ∨
    receipt.formattedSha256 ≠ message.formattedSha256 ∨ receipt.policySha256 ≠ policySha256)
    .receiptInvalid
  return receipt

/-- What is recorded of a receipt. -/
def deliveredRecord (message : NotificationMessage) (receipt : TelegramDeliveryReceipt)
    (attempt : ℕ) (waits : List ℕ) : DeliveryRecord where
  deliveryId := deliveryIdentity message
  notificationSha256 := message.messageSha256
  formattedSha256 := message.formattedSha256
  receiptSha256 := receipt.receiptSha256
  telegramMessageId := receipt.telegramMessageId
  attempts := attempt
  totalWaitSeconds := waits.sum

def DeliveryRecord.check (record : DeliveryRecord) : Except DeliveryGuardErrorCode DeliveryRecord :=
  if record.Valid then .ok record else .error .stateInvalid

/-- The attempts that are left, from a given one on; `reply n` is what the sender does at its
`n`-th call. -/
def sendLoop (message : NotificationMessage) (current : DeliveryState)
    (reply : ℕ → Except TelegramTransportError TelegramDeliveryReceipt) :
    ℕ → ℕ → List ℕ → Except DeliveryGuardErrorCode GuardedDeliveryResult
  | 0, _, _ => .error .retryExhausted
  | left + 1, attempt, waits =>
      match reply attempt with
      | .error error =>
          match guardErrorForTransport error with
          | some rejected => .error rejected
          | none => do
              let waitSeconds ← waitAfter attempt error
              raiseIf (maxTotalWaitSeconds < waits.sum + waitSeconds) .waitBoundExceeded
              sendLoop message current reply left (attempt + 1) (waits ++ [waitSeconds])
      | .ok receipt => do
          let receipt ← validateReceipt policySha256 message receipt
          let record ← (deliveredRecord message receipt attempt waits).check
          let updated ← appendRecord current record
          return ⟨.delivered, record, attempt, waits, updated⟩

/-- Deliver once, unless the snapshot has the notification. -/
def guardedSend (message : NotificationMessage) (current : DeliveryState)
    (reply : ℕ → Except TelegramTransportError TelegramDeliveryReceipt) :
    Except DeliveryGuardErrorCode GuardedDeliveryResult :=
  match current.find (deliveryIdentity message) with
  | some existing => .ok ⟨.duplicateSuppressed, existing, 0, [], current⟩
  | none => do
      raiseIf (maxDeliveryRecords ≤ current.records.length) .stateFull
      sendLoop policySha256 message current reply maxAttempts 1 []

end

theorem mem_appendRecord {state updated : DeliveryState} {record other : DeliveryRecord}
    (h : appendRecord state record = .ok updated) :
    other ∈ updated.records ↔ other ∈ state.records ∨ other = record := by
  unfold appendRecord at h
  rw [raiseIf_bind_eq_ok] at h
  have h := h.2
  unfold DeliveryState.ofRecords at h
  split at h
  · cases h
    simp [List.mem_mergeSort]
  · cases h

theorem find_eq_some {state : DeliveryState} {id : String} {record : DeliveryRecord} :
    state.find id = some record ↔ record ∈ state.records ∧ record.deliveryId = id := by
  constructor
  · intro h
    have hid := List.find?_some h
    exact ⟨List.mem_of_find?_eq_some h, by simpa using hid⟩
  · intro h
    have hsome : (state.find id).isSome := by
      unfold DeliveryState.find
      rw [List.find?_isSome]
      exact ⟨record, h.1, by simpa using h.2⟩
    obtain ⟨found, hfound⟩ := Option.isSome_iff_exists.mp hsome
    have hid := List.find?_some hfound
    have hmem := List.mem_of_find?_eq_some hfound
    have heq : found.deliveryId = record.deliveryId := by
      rw [h.2]
      simpa using hid
    rw [hfound, List.inj_on_of_nodup_map state.valid.nodup hmem h.1 heq]

/-- A send that returns adds the record of its notification, or finds it. -/
theorem sendLoop_eq_ok {policySha256 : String} {message : NotificationMessage}
    {current : DeliveryState} {reply : ℕ → Except TelegramTransportError TelegramDeliveryReceipt}
    {left attempt : ℕ} {waits : List ℕ} {result : GuardedDeliveryResult}
    (h : sendLoop policySha256 message current reply left attempt waits = .ok result) :
    result.status = .delivered ∧ result.record.deliveryId = deliveryIdentity message ∧
      appendRecord current result.record = .ok result.state := by
  induction left generalizing attempt waits with
  | zero => cases h
  | succ left ih =>
    rw [sendLoop] at h
    split at h
    · split at h
      · cases h
      · rw [bind_eq_ok] at h
        obtain ⟨wait, -, h⟩ := h
        rw [raiseIf_bind_eq_ok] at h
        exact ih h.2
    · rw [bind_eq_ok] at h
      obtain ⟨receipt, -, h⟩ := h
      rw [bind_eq_ok] at h
      obtain ⟨record, hrecord, h⟩ := h
      rw [bind_eq_ok] at h
      obtain ⟨updated, hupdated, h⟩ := h
      unfold DeliveryRecord.check at hrecord
      split at hrecord
      · cases hrecord
        cases h
        exact ⟨rfl, rfl, hupdated⟩
      · cases hrecord

end TradingLab.Notifications
