import TradingLab.Concurrency.Interleaving
import TradingLab.Json.Basic
import TradingLab.Store.Table
import Mathlib.Data.List.Sort

/-!
# The coordinator's database and its statements

The tables `nodes`, `batches` and `events`, the object store, and the statements
that the handlers issue. Each statement is atomic. An `UPDATE` of a batch is
given by the rows it selects and by what it sets.
-/

namespace TradingLab.Coordinator

open Interleaving

inductive BatchState where
  | available
  | claimed
  | pauseRequested
  | paused
  | awaitingIngest
  | ingested
  | blocked
deriving Repr, DecidableEq

namespace BatchState

def text : BatchState → String
  | available => "AVAILABLE"
  | claimed => "CLAIMED"
  | pauseRequested => "PAUSE_REQUESTED"
  | paused => "PAUSED"
  | awaitingIngest => "AWAITING_INGEST"
  | ingested => "INGESTED"
  | blocked => "BLOCKED"

end BatchState

structure BatchRow where
  batchCode : String
  batchSha256 : String
  planSha256 : String
  candidateCount : ℤ
  state : BatchState
  ownerNode : Option String
  leaseUntilMs : Option ℤ
  updatedAtMs : ℤ
  resultManifestSha256 : Option String
  resultCount : Option ℤ
  transferMode : Option String
deriving Repr, DecidableEq

structure NodeRow where
  nodeId : String
  tokenSha256 : String
  enabled : Bool
  lastSeenMs : Option ℤ
deriving Repr, DecidableEq

structure EventRow where
  eventMs : ℤ
  eventType : String
  nodeId : Option String
  batchCode : Option String
  payload : Json
deriving Repr, DecidableEq

/-- An object of the result store, with its metadata. -/
structure StoredObject where
  key : String
  body : List ℕ
  nodeId : String
  batchCode : String
  candidateId : Option String
  semanticSha256 : String
  rawSha256 : String
deriving Repr, DecidableEq

structure Store where
  /-- What `Date.now()` reads. -/
  clock : ℤ
  /-- The value of `plan_sha256` in `meta`. -/
  planSha256 : Option String
  nodes : Table NodeRow.nodeId
  batches : Table BatchRow.batchCode
  events : List EventRow
  objects : Table StoredObject.key

/-- The `UPDATE` statements on `batches`, with what is bound to their parameters. -/
inductive Update where
  | claim (nodeId : String) (leaseUntil now : ℤ) (batchCode : String)
  | heartbeat (leaseUntil now : ℤ) (batchCode nodeId : String)
  | pauseRequest (now : ℤ) (batchCode nodeId : String)
  | paused (now : ℤ) (batchCode nodeId : String)
  | resume (leaseUntil now : ℤ) (batchCode nodeId : String)
  | release (now : ℤ) (batchCode nodeId : String)
  | ready (now : ℤ) (manifestSha : String) (resultCount : ℤ) (transferMode batchCode nodeId : String)
  | ingested (now : ℤ) (batchCode manifestSha : String)
deriving Repr, DecidableEq

namespace Update

/-- The batch that the statement names. -/
def batchCode : Update → String
  | claim _ _ _ batchCode | heartbeat _ _ batchCode _ | pauseRequest _ batchCode _
  | paused _ batchCode _ | resume _ _ batchCode _ | release _ batchCode _
  | ready _ _ _ _ batchCode _ | ingested _ batchCode _ => batchCode

/-- The `WHERE` clause. A comparison with `NULL` does not hold. -/
def selects : Update → BatchRow → Bool
  | claim nodeId _ now batchCode, r =>
      r.batchCode = batchCode ∧ r.state ≠ .ingested ∧ r.state ≠ .awaitingIngest ∧
        r.state ≠ .blocked ∧ r.state ≠ .paused ∧ r.state ≠ .pauseRequested ∧
        (r.state = .available ∨ r.state = .claimed ∧ r.ownerNode = some nodeId ∨
          r.state = .claimed ∧ r.leaseUntilMs.any (· < now))
  | heartbeat _ now batchCode nodeId, r =>
      r.batchCode = batchCode ∧ r.state = .claimed ∧ r.ownerNode = some nodeId ∧
        r.leaseUntilMs.any (now ≤ ·)
  | pauseRequest now batchCode nodeId, r =>
      r.batchCode = batchCode ∧ r.state = .claimed ∧ r.ownerNode = some nodeId ∧
        r.leaseUntilMs.any (now ≤ ·)
  | paused _ batchCode nodeId, r =>
      r.batchCode = batchCode ∧ r.state = .pauseRequested ∧ r.ownerNode = some nodeId
  | resume _ _ batchCode nodeId, r =>
      r.batchCode = batchCode ∧ r.state = .paused ∧ r.ownerNode = some nodeId
  | release _ batchCode nodeId, r =>
      r.batchCode = batchCode ∧
        (r.state = .claimed ∨ r.state = .pauseRequested ∨ r.state = .paused) ∧
        r.ownerNode = some nodeId
  | ready _ _ resultCount _ batchCode nodeId, r =>
      r.batchCode = batchCode ∧ r.state = .claimed ∧ r.ownerNode = some nodeId ∧
        r.candidateCount = resultCount
  | ingested _ batchCode manifestSha, r =>
      r.batchCode = batchCode ∧ r.state = .awaitingIngest ∧
        r.resultManifestSha256 = some manifestSha

/-- The `SET` clause. -/
def sets : Update → BatchRow → BatchRow
  | claim nodeId leaseUntil now _, r =>
      { r with state := .claimed, ownerNode := some nodeId, leaseUntilMs := some leaseUntil,
               updatedAtMs := now }
  | heartbeat leaseUntil now _ _, r => { r with leaseUntilMs := some leaseUntil, updatedAtMs := now }
  | pauseRequest now _ _, r => { r with state := .pauseRequested, updatedAtMs := now }
  | paused now _ _, r => { r with state := .paused, leaseUntilMs := none, updatedAtMs := now }
  | resume leaseUntil now _ _, r =>
      { r with state := .claimed, leaseUntilMs := some leaseUntil, updatedAtMs := now }
  | release now _ _, r =>
      { r with state := .available, ownerNode := none, leaseUntilMs := none, updatedAtMs := now }
  | ready now manifestSha resultCount transferMode _ _, r =>
      { r with state := .awaitingIngest, leaseUntilMs := none, updatedAtMs := now,
               resultManifestSha256 := some manifestSha, resultCount := some resultCount,
               transferMode := some transferMode }
  | ingested now _ _, r =>
      { r with state := .ingested, ownerNode := none, leaseUntilMs := none, updatedAtMs := now }

@[simp] theorem batchCode_sets (u : Update) (r : BatchRow) : (u.sets r).batchCode = r.batchCode := by
  cases u <;> rfl

variable {u : Update} {r : BatchRow}

theorem batchCode_of_selects (h : u.selects r = true) :
    r.batchCode = u.batchCode := by
  cases u <;> exact (of_decide_eq_true h).1

def apply (u : Update) (r : BatchRow) : BatchRow := if u.selects r then u.sets r else r

theorem apply_of_selects (h : u.selects r = true) :
    u.apply r = u.sets r := if_pos h

theorem apply_of_not_selects (h : u.selects r = false) :
    u.apply r = r := by
  rw [apply, h]
  rfl

theorem selects_claim_iff {nodeId code : String} {leaseUntil now : ℤ} :
    (claim nodeId leaseUntil now code).selects r = true ↔ r.batchCode = code ∧
      (r.state = .available ∨ r.state = .claimed ∧
        (r.ownerNode = some nodeId ∨ r.leaseUntilMs.any (· < now) = true)) := by
  unfold selects
  rw [decide_eq_true_eq]
  cases r.state <;> simp

end Update

structure ClaimedBatch where
  batchCode : String
  batchSha256 : String
  candidateCount : ℤ
  leaseUntilMs : Option ℤ
deriving Repr, DecidableEq

structure BatchOwnership where
  state : BatchState
  ownerNode : Option String
  planSha256 : String
  candidateCount : ℤ
deriving Repr, DecidableEq

/-- The operations that a handler waits for. -/
inductive Op where
  | now
  | selectNode (nodeId : String)
  | touchNode (nodeId : String) (now : ℤ)
  | insertEvent (row : EventRow)
  | selectPlan
  | update (u : Update)
  | selectClaimed (batchCode : String)
  | selectCandidate (now : ℤ)
  | selectBatch (batchCode : String)
  | selectActive (batchCode nodeId : String)
  | putObject (object : StoredObject)
  | headObject (key : String)

/-- What an operation answers. An update answers the number of rows it changed. -/
abbrev Ans : Op → Type
  | .now => ℤ
  | .selectNode _ => Option NodeRow
  | .touchNode _ _ => Unit
  | .insertEvent _ => Unit
  | .selectPlan => Option String
  | .update _ => ℕ
  | .selectClaimed _ => Option ClaimedBatch
  | .selectCandidate _ => Option String
  | .selectBatch _ => Option BatchOwnership
  | .selectActive _ _ => Option String
  | .putObject _ => Unit
  | .headObject _ => Bool

namespace Store

/-- `UPDATE nodes SET last_seen_ms` -/
def touchNode (s : Store) (nodeId : String) (now : ℤ) : Store :=
  let nodes := s.nodes.update (fun r => r.nodeId = nodeId)
    (fun r => { r with lastSeenMs := some now }) fun _ => rfl
  { s with nodes := nodes }

def update (s : Store) (u : Update) : Store :=
  { s with batches := s.batches.update u.selects u.sets u.batchCode_sets }

/-- The first batch, by its code, that is available or whose lease has expired. -/
def candidate (s : Store) (now : ℤ) : Option String :=
  let claimable := s.batches.rows.filter fun r =>
    r.state = .available ∨ r.state = .claimed ∧ r.leaseUntilMs.any (· < now)
  ((claimable.map BatchRow.batchCode).insertionSort fun a b => !keyLt b.toList a.toList).head?

def exec : (o : Op) → Store → Ans o × Store
  | .now, s => (s.clock, s)
  | .selectNode nodeId, s => (s.nodes.find? nodeId, s)
  | .touchNode nodeId now, s => ((), s.touchNode nodeId now)
  | .insertEvent row, s => ((), { s with events := s.events ++ [row] })
  | .selectPlan, s => (s.planSha256, s)
  | .update u, s => (s.batches.changes u.selects, s.update u)
  | .selectClaimed batchCode, s =>
      ((s.batches.find? batchCode).map fun r =>
        ⟨r.batchCode, r.batchSha256, r.candidateCount, r.leaseUntilMs⟩, s)
  | .selectCandidate now, s => (s.candidate now, s)
  | .selectBatch batchCode, s =>
      ((s.batches.find? batchCode).map fun r =>
        ⟨r.state, r.ownerNode, r.planSha256, r.candidateCount⟩, s)
  | .selectActive batchCode nodeId, s =>
      (((s.batches.find? batchCode).filter fun r =>
        r.state = .claimed ∧ r.ownerNode = some nodeId).map BatchRow.planSha256, s)
  | .putObject object, s => ((), { s with objects := s.objects.put object })
  | .headObject key, s => ((s.objects.find? key).isSome, s)

/-- The clock never runs backwards. -/
def Tick (s t : Store) : Prop := ∃ clock, s.clock ≤ clock ∧ t = { s with clock := clock }

def batch? (s : Store) (batchCode : String) : Option BatchRow := s.batches.find? batchCode

end Store

def machine : Machine Store Op Ans where
  exec := Store.exec
  env := Store.Tick

theorem batches_after {s : Store} {o : Op} (h : ∀ u, o ≠ .update u) :
    (machine.after s o).batches = s.batches := by
  cases o with
  | update u => exact (h u rfl).elim
  | _ => rfl

theorem batch?_after_update (s : Store) (u : Update) (b : String) :
    (machine.after s (.update u)).batch? b = (s.batch? b).map u.apply :=
  s.batches.find?_update u.selects u.sets u.batchCode_sets b

theorem clock_after (s : Store) (o : Op) : (machine.after s o).clock = s.clock := by
  cases o <;> rfl

theorem changes_update (s : Store) (u : Update) :
    (machine.exec (.update u) s).1 = if (s.batch? u.batchCode).any u.selects then 1 else 0 :=
  Table.changes_of_key fun _ h => Update.batchCode_of_selects h

end TradingLab.Coordinator
