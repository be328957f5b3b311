import TradingLab.Coordinator.Database
import TradingLab.Factory.Manifest

/-!
# The local coordinator

The coordinator's registry on one machine: a table of batches in a database that
is bound to a plan. Every call is one transaction, which is rolled back when it
raises. A claim first makes every batch available whose lease has expired.
-/

namespace TradingLab.Factory

open Coordinator (BatchState)

def coordinatorSchema : String := "MCF_DISTRIBUTED_COORDINATOR/1.0.0"

/-- A row of `batches`. -/
structure BatchRecord where
  batchCode : String
  batchSha256 : String
  state : BatchState
  ownerNode : Option String
  leaseUntilMs : Option ℤ
  updatedAtMs : ℤ
  ingestedManifestSha256 : Option String
deriving Repr, DecidableEq

structure Registry where
  schema : Option String
  planSha256 : Option String
  batches : Table BatchRecord.batchCode

abbrev Call (α : Type) : Type := Method Registry Failure α

namespace Registry

def empty : Registry := ⟨none, none, Table.empty⟩

def batch? (r : Registry) (code : String) : Option BatchRecord := r.batches.find? code

/-- `UPDATE batches SET … WHERE …` -/
def update (r : Registry) (p : BatchRecord → Bool) (f : BatchRecord → BatchRecord)
    (hf : ∀ b, (f b).batchCode = b.batchCode) : Registry :=
  { r with batches := r.batches.update p f hf }

end Registry

/-- `INSERT OR IGNORE` -/
def insertBatch (now : ℤ) (batches : Table BatchRecord.batchCode) (item : PlanBatch) :
    Table BatchRecord.batchCode :=
  if (batches.find? item.batchCode).isSome then batches
  else batches.put ⟨item.batchCode, item.batchSha256, .available, none, none, now, none⟩

def initCoordinator (plan : Plan) (now : ℤ) : Call Unit := Method.atomic do
  let existing ← Method.read fun r : Registry => r
  Method.check (raiseIf ((existing.schema.isSome ∨ existing.planSha256.isSome) ∧
      existing.planSha256 ≠ some plan.planSha256)
    (Failure.mcf "coordinator database bound to different distributed plan"))
  Method.modify fun r => {
    schema := some coordinatorSchema
    planSha256 := some plan.planSha256
    batches := plan.batches.foldl (insertBatch now) r.batches }

def node (nodeId : String) : Call Unit :=
  Method.check (raiseIf (!isNode nodeId) (.mcf "invalid distributed node id"))

def coordinatorBound (plan : Plan) : Call Unit := do
  let r ← Method.read fun r : Registry => r
  Method.check (raiseIf (r.schema ≠ some coordinatorSchema ∨ r.planSha256 ≠ some plan.planSha256)
    (Failure.mcf "coordinator database binding mismatch"))

def checkLease (leaseSeconds : ℤ) : Call Unit :=
  Method.check (raiseIf (leaseSeconds < 60 ∨ 86400 < leaseSeconds)
    (Failure.mcf "invalid coordinator lease"))

def selectBatch (code : String) : Call (Option BatchRecord) := Method.read fun r => r.batch? code

/-- Change the row of one batch. -/
def setBatch (code : String) (f : BatchRecord → BatchRecord)
    (hf : ∀ b, (f b).batchCode = b.batchCode) : Call Unit :=
  Method.modify fun r => r.update (fun b => b.batchCode = code) f hf

/-- A transaction that changes a batch whose row allows it. -/
def transition (plan : Plan) (code : String) (allowed : BatchRecord → Bool) (message : String)
    (f : BatchRecord → BatchRecord) (hf : ∀ b, (f b).batchCode = b.batchCode) : Call Unit :=
  Method.atomic do
    coordinatorBound plan
    let row ← selectBatch code
    Method.check (raiseIf (!row.any allowed) (.mcf message))
    setBatch code f hf

/-- Every batch is made available whose lease has expired. -/
def Registry.swept (now : ℤ) (r : Registry) : Registry :=
  r.update (fun b => b.state = .claimed ∧ b.leaseUntilMs.any (· < now))
    (fun b => { b with state := .available, ownerNode := none, leaseUntilMs := none,
                       updatedAtMs := now })
    fun _ => rfl

def sweep (now : ℤ) : Call Unit := Method.modify (Registry.swept now)

/-- Why a batch that was asked for cannot be claimed. -/
def claimRefusal (nodeId : String) (now : ℤ) : Option BatchRecord → Option String
  | none => some "coordinator missing frozen batch"
  | some row =>
      if row.state = .ingested then some "batch already ingested"
      else if row.state = .pauseRequested ∨ row.state = .paused ∨ row.state = .awaitingIngest ∨
          row.state = .blocked then
        some ("batch unavailable in state " ++ row.state.text)
      else if row.state = .claimed ∧ row.ownerNode ≠ some nodeId ∧
          now ≤ row.leaseUntilMs.getD 0 then
        some "batch already claimed by another node"
      else none

/-- The first available batch by its code. -/
def firstAvailable (r : Registry) : Option String :=
  let codes := (r.batches.rows.filter fun b => b.state = .available).map BatchRecord.batchCode
  (codes.insertionSort fun a b => !keyLt b.toList a.toList).head?

def chooseBatch (plan : Plan) (nodeId : String) (now : ℤ) : Option String → Call String
  | some code => do
      let _ ← Method.check (batch plan code)
      let row ← selectBatch code
      match claimRefusal nodeId now row with
      | some message => Method.check (.error (.mcf message))
      | none => pure code
  | none => do
      match ← Method.read firstAvailable with
      | none => Method.check (.error (.mcf "no available distributed batch"))
      | some code => pure code

/-- Claim a batch; the answer is its code and the end of the lease. -/
def claimBatch (plan : Plan) (nodeId : String) (code : Option String) (leaseSeconds now : ℤ) :
    Call (String × ℤ) := do
  node nodeId
  checkLease leaseSeconds
  Method.atomic do
    coordinatorBound plan
    sweep now
    let chosen ← chooseBatch plan nodeId now code
    let leaseUntil := now + leaseSeconds * 1000
    setBatch chosen (fun b => { b with state := .claimed, ownerNode := some nodeId,
                                       leaseUntilMs := some leaseUntil, updatedAtMs := now })
      fun _ => rfl
    pure (chosen, leaseUntil)

/-- The node holds the batch under a lease that has not expired. -/
def holdsLease (nodeId : String) (now : ℤ) (row : BatchRecord) : Bool :=
  row.state = .claimed ∧ row.ownerNode = some nodeId ∧ now ≤ row.leaseUntilMs.getD 0

/-- The lease of a heartbeat is not checked. -/
def heartbeat (plan : Plan) (nodeId code : String) (leaseSeconds now : ℤ) : Call ℤ := do
  node nodeId
  let _ ← Method.check (batch plan code)
  let leaseUntil := now + leaseSeconds * 1000
  transition plan code (holdsLease nodeId now) "heartbeat requires active matching lease"
    (fun b => { b with leaseUntilMs := some leaseUntil, updatedAtMs := now }) fun _ => rfl
  pure leaseUntil

def coordinatorPauseRequest (plan : Plan) (nodeId code : String) (now : ℤ) : Call Unit := do
  node nodeId
  let _ ← Method.check (batch plan code)
  transition plan code (holdsLease nodeId now) "pause request requires active matching lease"
    (fun b => { b with state := .pauseRequested, updatedAtMs := now }) fun _ => rfl

def coordinatorMarkPaused (plan : Plan) (nodeId code : String) (now : ℤ) : Call Unit := do
  node nodeId
  let _ ← Method.check (batch plan code)
  transition plan code (fun row => row.state = .pauseRequested ∧ row.ownerNode = some nodeId)
    "safe pause acknowledgement requires matching pause request"
    (fun b => { b with state := .paused, leaseUntilMs := none, updatedAtMs := now }) fun _ => rfl

def coordinatorResume (plan : Plan) (nodeId code : String) (leaseSeconds now : ℤ) : Call ℤ := do
  node nodeId
  let _ ← Method.check (batch plan code)
  checkLease leaseSeconds
  let leaseUntil := now + leaseSeconds * 1000
  transition plan code (fun row => row.state = .paused ∧ row.ownerNode = some nodeId)
    "resume requires matching paused owner"
    (fun b => { b with state := .claimed, leaseUntilMs := some leaseUntil, updatedAtMs := now })
    fun _ => rfl
  pure leaseUntil

def coordinatorRelease (plan : Plan) (nodeId code : String) (now : ℤ) : Call Unit := do
  node nodeId
  let _ ← Method.check (batch plan code)
  transition plan code
    (fun row => row.ownerNode = some nodeId ∧
      (row.state = .claimed ∨ row.state = .pauseRequested ∨ row.state = .paused))
    "release requires matching active/paused owner"
    (fun b => { b with state := .available, ownerNode := none, leaseUntilMs := none,
                       updatedAtMs := now })
    fun _ => rfl

/-- Why a manifest cannot be ingested. -/
def ingestRefusal (manifestSha : String) : Option BatchRecord → Option String
  | none => some "coordinator missing ingested batch"
  | some row =>
      if row.state = .ingested ∧ row.ingestedManifestSha256 ≠ some manifestSha then
        some "conflicting ingested manifest"
      else none

def manifestCode (manifest : JsonMembers) : String :=
  ((manifest.lookup "batch_code").bind Json.str?).getD ""

def manifestSha (manifest : JsonMembers) : String :=
  ((manifest.lookup "batch_result_manifest_sha256").bind Json.str?).getD ""

/-- Ingest a batch, in whatever state it is. -/
def markIngested (plan : Plan) (manifest : JsonMembers) (now : ℤ) : Call Unit := do
  Method.check (validateBatchManifestStructure plan manifest)
  Method.atomic do
    coordinatorBound plan
    let row ← selectBatch (manifestCode manifest)
    match ingestRefusal (manifestSha manifest) row with
    | some message => Method.check (.error (.mcf message))
    | none =>
      setBatch (manifestCode manifest)
        (fun b => { b with state := .ingested, ownerNode := none, leaseUntilMs := none,
                           updatedAtMs := now,
                           ingestedManifestSha256 := some (manifestSha manifest) })
        fun _ => rfl

end TradingLab.Factory
