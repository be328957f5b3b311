import TradingLab.Decimal.Numeral
import TradingLab.Json.Basic
import TradingLab.Method
import Mathlib.Data.List.Sort

/-!
# The distributed execution plan

The plan splits the candidates into batches and each batch into micro-shards of
one candidate. Every level carries the digest of what it holds. A plan is a value
only when it passes `validate_plan`.
-/

namespace TradingLab.Factory

/-- What a call raises: a contract violation, the plain error of a value that is no JSON, that
of a value of the wrong kind, or that of a file that is not there. -/
inductive Failure where
  | mcf (message : String)
  | valueError
  | typeError
  | attributeError
  | missingFile
deriving Repr, DecidableEq

def planSchema : String := "MCF_DISTRIBUTED_EXECUTION_PLAN/1.0.0"
def generationId : String := "MCF-PROD-001"
def frozenState : String := "DISTRIBUTED_PLAN_FROZEN_NO_PERFORMANCE"
def expectedExecutableCount : ℕ := 6852
def logicalBatchSize : ℕ := 500
def microshardSize : ℕ := 1

def safety : Json := .dict [
  ("paper_research_only", .bool true), ("live_master_lock", .str "OFF"), ("futures", .bool false),
  ("leverage", .bool false), ("short", .bool false), ("live", .bool false),
  ("order_endpoint", .bool false), ("ai_direct_execution", .bool false),
  ("fresh_oos_read", .bool false), ("recent_reserve_read", .bool false), ("p10_read", .bool false),
  ("p10_write", .bool false), ("p11_locked", .bool true),
  ("performance_execution_authorized", .bool false)]

/-- The decimal digits of a number, with zeros before them up to a width. -/
def paddedDigits (width n : ℕ) : List Char :=
  List.replicate (width - (Nat.toDigits 10 n).length) '0' ++ Nat.toDigits 10 n

/-- `B001`, `B002`, … -/
def batchCode (index : ℕ) : String := String.ofList ('B' :: paddedDigits 3 index)

def microshardCode (batchCode : String) (index : ℕ) : String :=
  batchCode ++ "-S" ++ String.ofList (paddedDigits 3 index)

structure PlanCandidate where
  candidateId : String
  candidateSpecSha256 : String
  family : String
  timeframe : String
deriving Repr, DecidableEq

structure Microshard where
  microshardCode : String
  candidateCount : ℤ
  candidates : List PlanCandidate
  microshardSha256 : String
deriving Repr, DecidableEq

structure PlanBatch where
  batchCode : String
  candidateCount : ℤ
  firstCandidateId : String
  lastCandidateId : String
  microshards : List Microshard
  batchSha256 : String
deriving Repr, DecidableEq

structure Plan.Fields where
  schema : String
  generationId : String
  state : String
  executableFreezeSha256 : String
  candidateLedgerSha256 : String
  neighborGraphSha256 : String
  candidateCount : ℤ
  logicalBatchSize : ℤ
  microshardSize : ℤ
  batchCount : ℤ
  batches : List PlanBatch
  safety : Json
  planSha256 : String
deriving Repr, DecidableEq

namespace PlanCandidate

def toDict (c : PlanCandidate) : Json := .dict [
  ("candidate_id", .str c.candidateId), ("candidate_spec_sha256", .str c.candidateSpecSha256),
  ("family", .str c.family), ("timeframe", .str c.timeframe)]

end PlanCandidate

namespace Microshard

/-- The document without its digest. -/
def base (s : Microshard) : List (String × Json) := [
  ("microshard_code", .str s.microshardCode), ("candidate_count", .int s.candidateCount),
  ("candidates", .list (s.candidates.map PlanCandidate.toDict))]

def toDict (s : Microshard) : Json :=
  .dict (s.base ++ [("microshard_sha256", .str s.microshardSha256)])

end Microshard

namespace PlanBatch

def base (b : PlanBatch) : List (String × Json) := [
  ("batch_code", .str b.batchCode), ("candidate_count", .int b.candidateCount),
  ("first_candidate_id", .str b.firstCandidateId), ("last_candidate_id", .str b.lastCandidateId),
  ("microshards", .list (b.microshards.map Microshard.toDict))]

def toDict (b : PlanBatch) : Json := .dict (b.base ++ [("batch_sha256", .str b.batchSha256)])

def candidates (b : PlanBatch) : List PlanCandidate := b.microshards.flatMap Microshard.candidates

end PlanBatch

namespace Plan.Fields

def base (p : Plan.Fields) : List (String × Json) := [
  ("schema", .str p.schema), ("generation_id", .str p.generationId), ("state", .str p.state),
  ("executable_freeze_sha256", .str p.executableFreezeSha256),
  ("candidate_ledger_sha256", .str p.candidateLedgerSha256),
  ("neighbor_graph_sha256", .str p.neighborGraphSha256),
  ("candidate_count", .int p.candidateCount), ("logical_batch_size", .int p.logicalBatchSize),
  ("microshard_size", .int p.microshardSize), ("batch_count", .int p.batchCount),
  ("batches", .list (p.batches.map PlanBatch.toDict)), ("safety", p.safety)]

end Plan.Fields

/-- Run a check on every item, with its number. -/
def checkEach {α : Type} (check : ℕ → α → Except Failure Unit) : ℕ → List α → Except Failure Unit
  | _, [] => .ok ()
  | n, a :: as => do
      check n a
      checkEach check (n + 1) as

def validateMicroshard (expectedCode : String) (index : ℕ) (shard : Microshard) :
    Except Failure Unit := do
  raiseIf (shard.microshardCode ≠ microshardCode expectedCode index)
    (.mcf "distributed microshard code mismatch")
  raiseIf ((Json.dict shard.base).digest ≠ shard.microshardSha256)
    (.mcf "distributed microshard hash mismatch")
  raiseIf (shard.candidateCount ≠ shard.candidates.length) (.mcf "distributed microshard count mismatch")
  raiseIf (shard.candidateCount ≠ microshardSize)
    (.mcf "distributed microshard must isolate exactly one candidate")

/-- Three digits after the letter, as the codes of the first 999 batches have them. -/
def validateBatch (index : ℕ) (batch : PlanBatch) : Except Failure Unit := do
  raiseIf (batch.batchCode ≠ batchCode index ∨ 999 < index) (.mcf "distributed batch code mismatch")
  raiseIf ((Json.dict batch.base).digest ≠ batch.batchSha256) (.mcf "distributed batch hash mismatch")
  checkEach (validateMicroshard (batchCode index)) 1 batch.microshards
  raiseIf (batch.candidateCount ≠ batch.candidates.length) (.mcf "distributed batch count mismatch")
  raiseIf (batch.candidates.head?.map PlanCandidate.candidateId ≠ some batch.firstCandidateId ∨
      batch.candidates.getLast?.map PlanCandidate.candidateId ≠ some batch.lastCandidateId)
    (.mcf "distributed batch boundary mismatch")

def strictlySorted (ids : List String) : Prop :=
  ids.IsChain fun a b => keyLt a.toList b.toList = true

instance (ids : List String) : Decidable (strictlySorted ids) :=
  inferInstanceAs (Decidable (ids.IsChain _))

def Plan.Fields.validate (p : Plan.Fields) : Except Failure Unit := do
  raiseIf (p.schema ≠ planSchema ∨ p.generationId ≠ Factory.generationId ∨ p.state ≠ frozenState ∨
      p.candidateCount ≠ expectedExecutableCount ∨ p.batchCount ≠ 14 ∨
      p.logicalBatchSize ≠ Factory.logicalBatchSize ∨ p.microshardSize ≠ Factory.microshardSize ∨
      p.safety ≠ Factory.safety ∨ (Json.dict p.base).digest ≠ p.planSha256)
    (.mcf "distributed execution plan boundary mismatch")
  checkEach validateBatch 1 p.batches
  let ids := (p.batches.flatMap PlanBatch.candidates).map PlanCandidate.candidateId
  raiseIf (ids.length ≠ expectedExecutableCount ∨ ¬ strictlySorted ids)
    (.mcf "distributed plan candidate coverage mismatch")

structure Plan extends Plan.Fields where
  valid : toFields.validate = .ok ()

def isDecimalDigit (c : Char) : Bool :=
  Decimal.zeroCodes.any fun z => z ≤ c.toNat && c.toNat < z + 10

def isBatchText (code : String) : Bool :=
  match code.toList with
  | 'B' :: cs => cs.length == 3 && cs.all isDecimalDigit
  | _ => false

/-- The batch of a code. -/
def batch (plan : Plan) (code : String) : Except Failure PlanBatch := do
  raiseIf (!isBatchText code) (.mcf "invalid batch code")
  match plan.batches.find? fun b => b.batchCode = code with
  | none => .error (.mcf "batch not in frozen distributed plan")
  | some found => .ok found

def batchCandidates (plan : Plan) (code : String) : Except Failure (List PlanCandidate) := do
  return (← batch plan code).candidates

end TradingLab.Factory
