import TradingLab.Notifications.Delivery
import TradingLab.Json.Members

/-!
# The guarded notifier runner

An invocation sends one notification and keeps the snapshot in a state file. It
reads the whole file, sends, and replaces the whole file; several invocations may
share the file, and no lock is taken.
-/

namespace TradingLab.Notifications

def maxDeliveryStateBytes : ℕ := 512 * 1024

inductive NotifierRunnerCode where
  | delivered | duplicateSuppressed | invalidRequest | sourceRejected | sourceMutated | stateRejected
  | configRejected | deliveryRejected | storageError | outputTooLarge | internalError
deriving Repr, DecidableEq

/-- What the state file holds, when there is one. -/
abbrev StateFile : Type := Option (List Char)

def DeliveryRecord.asRecord (record : DeliveryRecord) : Json := .dict [
  ("delivery_id", .str record.deliveryId),
  ("notification_sha256", .str record.notificationSha256),
  ("formatted_sha256", .str record.formattedSha256),
  ("receipt_sha256", .str record.receiptSha256),
  ("telegram_message_id", .int record.telegramMessageId),
  ("attempts", .int record.attempts),
  ("total_wait_seconds", .int record.totalWaitSeconds)]

def DeliveryState.asRecord (state : DeliveryState) : Json := .dict [
  ("schema_version", .int deliverySchemaVersion),
  ("records", .list (state.records.map DeliveryRecord.asRecord))]

def jsonText (v : Json) : List Char := v.text ++ ['\n']

def expectKeys (v : Json) (expected : List String) : Except DeliveryGuardErrorCode Unit :=
  match v with
  | .object ms => raiseIf (ms.keys ≠ expected) .stateInvalid
  | _ => .error .stateInvalid

/-- A number of a record, which is no less than zero. -/
def natField (v : Json) (key : String) : Except DeliveryGuardErrorCode ℕ :=
  match (v.get? key).bind Json.int? with
  | some n => if 0 ≤ n then .ok n.toNat else .error .stateInvalid
  | none => .error .stateInvalid

def strField (v : Json) (key : String) : Except DeliveryGuardErrorCode String :=
  match (v.get? key).bind Json.str? with
  | some text => .ok text
  | none => .error .stateInvalid

def deliveryRecordFromRecord (item : Json) : Except DeliveryGuardErrorCode DeliveryRecord := do
  expectKeys item ["attempts", "delivery_id", "formatted_sha256", "notification_sha256",
    "receipt_sha256", "telegram_message_id", "total_wait_seconds"]
  let deliveryId ← strField item "delivery_id"
  let notificationSha256 ← strField item "notification_sha256"
  let formattedSha256 ← strField item "formatted_sha256"
  let receiptSha256 ← strField item "receipt_sha256"
  let telegramMessageId ← natField item "telegram_message_id"
  let attempts ← natField item "attempts"
  let totalWaitSeconds ← natField item "total_wait_seconds"
  DeliveryRecord.check ⟨deliveryId, notificationSha256, formattedSha256, receiptSha256,
    telegramMessageId, attempts, totalWaitSeconds⟩

def deliveryStateFromRecord (v : Json) : Except DeliveryGuardErrorCode DeliveryState := do
  expectKeys v ["records", "schema_version"]
  raiseIf (((v.get? "schema_version").getD .null).same (.int deliverySchemaVersion) = false)
    .stateInvalid
  match v.get? "records" with
  | some (.array items) => do
      raiseIf (maxDeliveryRecords < items.toList.length) .stateInvalid
      let records ← items.toList.mapM deliveryRecordFromRecord
      DeliveryState.ofRecords records
  | _ => .error .stateInvalid

/-- Load strict canonical state; a missing state file means an empty state. -/
def loadDeliveryState : StateFile → Except NotifierRunnerCode DeliveryState
  | none => .ok .empty
  | some text => do
      let payload := String.ofList text
      raiseIf (text = [] ∨ maxDeliveryStateBytes < payload.utf8ByteSize) .stateRejected
      match Json.loads payload with
      | none => .error .stateRejected
      | some v =>
          match deliveryStateFromRecord v with
          | .error _ => .error .stateRejected
          | .ok state => do
              raiseIf (jsonText state.asRecord ≠ text) .stateRejected
              return state

/-- What the operating system does when the state file is written. -/
inductive Storage where
  | done
  /-- An error, before the file is replaced or after. -/
  | refused (replaced : Bool)
deriving Repr, DecidableEq

/-- Replace the state file. An identifier of too many digits has no text. -/
def writeDeliveryState (storage : Storage) (state : DeliveryState) (file : StateFile) :
    Except NotifierRunnerCode Unit × StateFile :=
  if state.asRecord.hasLongInteger then (.error .internalError, file)
  else if maxDeliveryStateBytes < (String.ofList (jsonText state.asRecord)).utf8ByteSize then
    (.error .storageError, file)
  else
    match storage with
    | .done => (.ok (), some (jsonText state.asRecord))
    | .refused true => (.error .storageError, some (jsonText state.asRecord))
    | .refused false => (.error .storageError, file)

/-- What an invocation is given, and what its surroundings do. -/
structure Invocation where
  /-- The notification that the request and the source file give, or why they are rejected. -/
  source : Except NotifierRunnerCode NotificationMessage
  credentials : Bool
  reply : ℕ → Except TelegramTransportError TelegramDeliveryReceipt
  /-- The source file still holds the same bytes at the end. -/
  sourceUnchanged : Bool
  storage : Storage

structure NotifierReply where
  code : NotifierRunnerCode
  record : DeliveryRecord
  attempts : ℕ
  waitSeconds : List ℕ
  state : DeliveryState
deriving DecidableEq

abbrev Outcome : Type := Except NotifierRunnerCode NotifierReply

section
variable (policySha256 : String)

def duplicateReply (existing : DeliveryRecord) (state : DeliveryState) : NotifierReply :=
  ⟨.duplicateSuppressed, existing, 0, [], state⟩

def deliveredReply (result : GuardedDeliveryResult) : NotifierReply :=
  ⟨.delivered, result.record, result.attempts, result.waitSeconds, result.state⟩

/-- The last check of an invocation. -/
def Invocation.finish (invocation : Invocation) (reply : NotifierReply) : Outcome :=
  if invocation.sourceUnchanged then .ok reply else .error .sourceMutated

/-- The part of an invocation between reading the state and writing it. -/
def Invocation.send (invocation : Invocation) (message : NotificationMessage)
    (state : DeliveryState) : Except NotifierRunnerCode GuardedDeliveryResult :=
  if invocation.credentials then
    (guardedSend policySha256 message state invocation.reply).mapError fun _ => .deliveryRejected
  else .error .configRejected

/-- Send exactly one accepted notification and persist only delivery state. -/
def notifierRun (invocation : Invocation) (file : StateFile) : Outcome × StateFile :=
  match invocation.source with
  | .error e => (.error e, file)
  | .ok message =>
    match loadDeliveryState file with
    | .error e => (.error e, file)
    | .ok state =>
      match state.find (deliveryIdentity message) with
      | some existing => (invocation.finish (duplicateReply existing state), file)
      | none =>
        match invocation.send policySha256 message state with
        | .error e => (.error e, file)
        | .ok result =>
          if result.status = .delivered then
            match writeDeliveryState invocation.storage result.state file with
            | (.error e, written) => (.error e, written)
            | (.ok (), written) => (invocation.finish (deliveredReply result), written)
          else (invocation.finish (deliveredReply result), file)

/-- How far an invocation has come. Between two phases the others may run. -/
inductive Phase where
  | begun
  /-- The state file has been read. -/
  | loaded (message : NotificationMessage) (state : DeliveryState)
  /-- The sender has acknowledged. -/
  | sent (state : DeliveryState) (result : GuardedDeliveryResult)
  | written (result : GuardedDeliveryResult)
  | ended (outcome : Outcome)

/-- One step of an invocation. -/
def Invocation.advance (invocation : Invocation) : Phase → StateFile → Phase × StateFile
  | .begun, file =>
      match invocation.source with
      | .error e => (.ended (.error e), file)
      | .ok message =>
        match loadDeliveryState file with
        | .error e => (.ended (.error e), file)
        | .ok state => (.loaded message state, file)
  | .loaded message state, file =>
      match state.find (deliveryIdentity message) with
      | some existing => (.ended (invocation.finish (duplicateReply existing state)), file)
      | none =>
        match invocation.send policySha256 message state with
        | .error e => (.ended (.error e), file)
        | .ok result => (.sent state result, file)
  | .sent _ result, file =>
      if result.status = .delivered then
        match writeDeliveryState invocation.storage result.state file with
        | (.error e, written) => (.ended (.error e), written)
        | (.ok (), written) => (.written result, written)
      else (.written result, file)
  | .written result, file => (.ended (invocation.finish (deliveredReply result)), file)
  | .ended outcome, file => (.ended outcome, file)

structure Notifiers where
  file : StateFile
  invocations : List (Invocation × Phase)

def Notifiers.start (file : StateFile) (invocations : List Invocation) : Notifiers :=
  ⟨file, invocations.map fun invocation => (invocation, .begun)⟩

/-- One step of the `i`-th invocation. -/
def Notifiers.step (w : Notifiers) (i : ℕ) : Notifiers :=
  match w.invocations[i]? with
  | none => w
  | some (invocation, phase) =>
      let next := invocation.advance policySha256 phase w.file
      ⟨next.2, w.invocations.set i (invocation, next.1)⟩

def Notifiers.run (w : Notifiers) (schedule : List ℕ) : Notifiers :=
  schedule.foldl (Notifiers.step policySha256) w

end

end TradingLab.Notifications
