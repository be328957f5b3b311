import TradingLab.Factory.Files

/-!
# Candidate results

A candidate's result is stored as one file that is named by the digest of its
scientific identity. The identity leaves out which node has produced the result.
A batch is complete when every candidate has its file, and its manifest is built
from what the files hold.
-/

namespace TradingLab.Factory

def resultSchema : String := "MCF_DISTRIBUTED_CANDIDATE_RESULT/1.0.0"

/-- The text of a document; a value that has none raises. -/
def canonicalText (v : Json) : Except Failure (List Char) :=
  if v.hasNonFinite || v.hasLongInteger then .error .valueError else .ok v.normal.canonical

def digestText (v : Json) : Except Failure String := do
  return Sha256.hexDigest (← canonicalText v)

/-- A document from the text of a file. -/
def readMapping (text : List Char) : Except Failure JsonMembers :=
  match Json.loads (String.ofList text) with
  | none => .error .valueError
  | some (.object ms) => .ok ms
  | some _ => .error .attributeError

def textField (document : JsonMembers) (key : String) : String :=
  ((document.lookup key).bind Json.str?).getD ""

def projectionSchema : String := "MCF_PRODUCTION_RESULT_PROJECTION/1.0.0"

def omittedFields : List String :=
  ["per_symbol_base", "per_symbol_stress", "per_symbol_daily_return_series"]

def requiredAdjudicationFields : List String := [
  "candidate_id", "candidate_spec_sha256", "family_id", "economic_mechanism_id",
  "family_spec_sha256", "neighbor_graph_sha256", "evidence_partition", "f0_f3_state",
  "aggregate_stress_net_return", "median_symbol_stress_net_return", "fold_stress_returns",
  "maximum_normalized_drawdown", "mean_turnover", "exact_accounting", "daily_return_series"]

def validResult (result : JsonMembers) : Except Failure Bool :=
  match result.lookup "result_sha256" with
  | none => return false
  | some sha => do
      let expected ← digestText (.object (result.erase "result_sha256"))
      return sha = .str expected

/-- `len(value)` -/
def lengthOf : Json → Except Failure ℕ
  | .array items => .ok items.toList.length
  | .object ms => .ok ms.keys.length
  | .str s => .ok s.toList.length
  | _ => .error .typeError

/-- `tuple(value)` -/
def tupleOf : Json → Except Failure (List Json)
  | .array items => .ok items.toList
  | .object ms => .ok (ms.keys.map .str)
  | .str s => .ok (s.toList.map fun c => .str (String.ofList [c]))
  | _ => .error .typeError

/-- The field's length; a field that is not there counts as empty. -/
def fieldLength (document : JsonMembers) (key : String) : Except Failure ℕ :=
  match document.lookup key with
  | none => .ok 0
  | some v => lengthOf v

def missingFields (result : JsonMembers) : List String :=
  requiredAdjudicationFields.filter fun name => (result.lookup name).isNone

def validateDailyEvidence (daily : JsonMembers) : Except Failure Unit := do
  let n ← fieldLength daily "calendar_days"
  raiseIf (n < 2) (.mcf "projected daily return evidence length mismatch")
  let returns ← fieldLength daily "returns"
  raiseIf (returns ≠ n) (.mcf "projected daily return evidence length mismatch")
  let mask ← fieldLength daily "valid_mask"
  raiseIf (mask ≠ n) (.mcf "projected daily return evidence length mismatch")

def validateProjection (result : JsonMembers) : Except Failure Unit := do
  let valid ← validResult result
  raiseIf (!valid) (.mcf "invalid projected result digest")
  raiseIf (result.lookup "projection_schema" ≠ some (.str projectionSchema))
    (.mcf "wrong projected result schema")
  let omitted ← match result.lookup "projection_omitted_fields" with
    | none => .ok []
    | some v => tupleOf v
  raiseIf (omitted ≠ omittedFields.map .str) (.mcf "projected result omitted-field contract changed")
  raiseIf (omittedFields.any fun name => (result.lookup name).isSome)
    (.mcf "projected result retained prohibited heavy field")
  raiseIf (((result.lookup "source_full_result_sha256").bind Json.str?).any Sha256.isHexDigest = false)
    (.mcf "projected result missing source full-result identity")
  raiseIf (missingFields result ≠ []) (.mcf "projected result missing adjudication field")
  match result.lookup "daily_return_series" with
  | some (.object daily) => validateDailyEvidence daily
  | _ => .error (.mcf "projected result missing daily return evidence")

/-- Drop the heavy fields after validating the full result. -/
def projectResult (result : JsonMembers) : Except Failure JsonMembers := do
  let valid ← validResult result
  raiseIf (!valid) (.mcf "cannot project invalid MCF-03 result")
  raiseIf (missingFields result ≠ []) (.mcf "cannot project incomplete MCF-03 adjudication surface")
  let sourceSha := textField result "result_sha256"
  let body := (omittedFields.foldl (fun ms name => ms.erase name) (result.erase "result_sha256"))
    |>.insert "projection_schema" (.str projectionSchema)
    |>.insert "source_full_result_sha256" (.str sourceSha)
    |>.insert "projection_omitted_fields" (.list (omittedFields.map .str))
  let sha ← digestText (.object body)
  let projected := body.insert "result_sha256" (.str sha)
  validateProjection projected
  return projected

/-- One validated compact result. -/
def storageResult (result : JsonMembers) : Except Failure JsonMembers := do
  if result.lookup "projection_schema" = some (.str projectionSchema) then
    validateProjection result
    return result
  else projectResult result

def pausePath (code : String) : Except Failure (List String) :=
  safePath ("control/" ++ code ++ ".pause")

def candidateResultDir (code candidateId : String) : Except Failure (List String) :=
  safePath ("results/" ++ code ++ "/" ++ candidateId)

def resultPath (code candidateId sha : String) : Except Failure (List String) :=
  safePath ("results/" ++ code ++ "/" ++ candidateId ++ "/result-" ++ sha ++ ".json")

def pauseMarker (code : String) : Json :=
  .dict [("batch_code", .str code), ("state", .str "PAUSE_REQUESTED")]

def requestPause (plan : Plan) (code : String) : RootCall Unit := do
  let _ ← Method.check (batch plan code)
  let target ← Method.check (pausePath code)
  writeOnce target (pauseMarker code).canonical

def pauseRequested (files : Files) (plan : Plan) (code : String) : Except Failure Bool := do
  let _ ← batch plan code
  let target ← pausePath code
  return (files.find? target).isSome

/-- What identifies a result, wherever it was computed. -/
def resultIdentity (plan : Plan) (code : String) (row : PlanCandidate)
    (gitSha runnerInputSha256 : String) (compact : JsonMembers) : JsonMembers :=
  JsonMembers.nil
    |>.insert "schema" (.str resultSchema)
    |>.insert "generation_id" (.str generationId)
    |>.insert "plan_sha256" (.str plan.planSha256)
    |>.insert "batch_code" (.str code)
    |>.insert "candidate_id" (.str row.candidateId)
    |>.insert "candidate_spec_sha256" (.str row.candidateSpecSha256)
    |>.insert "git_sha" (.str gitSha)
    |>.insert "runner_input_sha256" (.str runnerInputSha256)
    |>.insert "result" (.object compact)

/-- The stored document: the identity, the node and the identity's digest. -/
def resultDocument (identity : JsonMembers) (nodeId sha : String) : JsonMembers :=
  (identity.insert "producer_node_id" (.str nodeId)).insert "result_artifact_sha256" (.str sha)

def identityOf (document : JsonMembers) : JsonMembers :=
  (document.erase "result_artifact_sha256").erase "producer_node_id"

structure WrittenResult where
  batchCode : String
  candidateId : String
  resultArtifactSha256 : String
  artifact : List String
deriving Repr, DecidableEq

/-- What is already stored for the candidate must be the same result. -/
def acceptExisting (code candidateId sha : String) (file : File) : Except Failure WrittenResult := do
  let old ← readMapping file.text
  let oldSha ← digestText (.object (identityOf old))
  raiseIf (old.lookup "result_artifact_sha256" ≠ some (.str oldSha))
    (.mcf "existing candidate result artifact identity invalid")
  raiseIf (oldSha ≠ sha) (.mcf "nondeterministic duplicate candidate result")
  -- An identical rerun on another node is scientifically idempotent.
  return ⟨code, candidateId, oldSha, file.path⟩

/-- The identity that a result is written under. -/
def checkedIdentity (plan : Plan) (code candidateId nodeId gitSha runnerInputSha256 : String)
    (result : JsonMembers) : Except Failure JsonMembers := do
  raiseIf (!isNode nodeId) (.mcf "invalid distributed node id")
  raiseIf (!isGitSha gitSha ∨ !Sha256.isHexDigest runnerInputSha256)
    (.mcf "candidate result requires pinned git/runner identities")
  let rows ← batchCandidates plan code
  match rows.find? fun row => row.candidateId = candidateId with
  | none => .error (.mcf "candidate outside requested batch")
  | some row => do
      let compact ← storageResult result
      raiseIf (compact.lookup "candidate_id" ≠ some (.str candidateId) ∨
          compact.lookup "candidate_spec_sha256" ≠ some (.str row.candidateSpecSha256))
        (.mcf "candidate result identity mismatch")
      return resultIdentity plan code row gitSha runnerInputSha256 compact

/-- Persist one immutable candidate result; identical reruns are idempotent. -/
def writeCandidateResult (plan : Plan) (code candidateId nodeId gitSha runnerInputSha256 : String)
    (result : JsonMembers) : RootCall WrittenResult := do
  let identity ← Method.check
    (checkedIdentity plan code candidateId nodeId gitSha runnerInputSha256 result)
  let sha ← Method.check (digestText (.object identity))
  let directory ← Method.check (candidateResultDir code candidateId)
  let target ← Method.check (resultPath code candidateId sha)
  match ← Method.read fun files => globResults files directory with
  | file :: _ => Method.check (acceptExisting code candidateId sha file)
  | [] => do
      let text ← Method.check (canonicalText (.object (resultDocument identity nodeId sha)))
      writeOnce target text
      return ⟨code, candidateId, sha, target⟩

/-- What a result document is compared with. -/
structure ExpectedResult where
  candidateId : String
  candidateSpecSha256 : String
deriving Repr, DecidableEq

def PlanCandidate.expected (row : PlanCandidate) : ExpectedResult :=
  ⟨row.candidateId, row.candidateSpecSha256⟩

def validateCandidateResultDocument (plan : Plan) (code : String) (expected : ExpectedResult)
    (document : JsonMembers) (raw : Option (List Char)) : Except Failure JsonMembers := do
  if let some raw := raw then
    let text ← canonicalText (.object document)
    raiseIf (text ≠ raw) (.mcf "candidate result artifact boundary mismatch")
  raiseIf (document.lookup "schema" ≠ some (.str resultSchema) ∨
      document.lookup "generation_id" ≠ some (.str generationId) ∨
      document.lookup "plan_sha256" ≠ some (.str plan.planSha256) ∨
      document.lookup "batch_code" ≠ some (.str code) ∨
      document.lookup "candidate_id" ≠ some (.str expected.candidateId) ∨
      document.lookup "candidate_spec_sha256" ≠ some (.str expected.candidateSpecSha256) ∨
      ((document.lookup "git_sha").bind Json.str?).any isGitSha = false ∨
      ((document.lookup "runner_input_sha256").bind Json.str?).any Sha256.isHexDigest = false ∨
      ((document.lookup "producer_node_id").bind Json.str?).any isNode = false)
    (.mcf "candidate result artifact boundary mismatch")
  let sha ← digestText (.object (identityOf document))
  raiseIf (document.lookup "result_artifact_sha256" ≠ some (.str sha))
    (.mcf "candidate result artifact boundary mismatch")
  let result := document.lookup "result"
  raiseIf (result.bind (·.get? "candidate_id") ≠ some (.str expected.candidateId) ∨
      result.bind (·.get? "candidate_spec_sha256") ≠ some (.str expected.candidateSpecSha256))
    (.mcf "embedded candidate result identity mismatch")
  return document

/-- The result of a candidate, when there is one. -/
def readCandidateResult (files : Files) (plan : Plan) (code : String) (row : PlanCandidate) :
    Except Failure (Option JsonMembers) := do
  let directory ← candidateResultDir code row.candidateId
  match globResults files directory with
  | [] => return none
  | [file] => do
      let document ← readMapping file.text
      return some (← validateCandidateResultDocument plan code row.expected document (some file.text))
  | _ => .error (.mcf "duplicate result artifacts for candidate")

def sortedSet (names : List String) : List String :=
  names.dedup.insertionSort fun a b => !keyLt b.toList a.toList

/-- What the stored results of a batch have in common. -/
structure Progress where
  complete : List String
  nodes : List String
  gitShas : List String
  runnerInputSha256s : List String

def collectResults (files : Files) (plan : Plan) (code : String) :
    List PlanCandidate → Progress → Except Failure Progress
  | [], progress => return progress
  | row :: rows, progress => do
      match ← readCandidateResult files plan code row with
      | none => collectResults files plan code rows progress
      | some document => do
          raiseIf (textField document "candidate_id" ∈ progress.complete)
            (.mcf "duplicate completed candidate identity")
          collectResults files plan code rows {
            complete := progress.complete ++ [textField document "candidate_id"]
            nodes := progress.nodes ++ [textField document "producer_node_id"]
            gitShas := progress.gitShas ++ [textField document "git_sha"]
            runnerInputSha256s :=
              progress.runnerInputSha256s ++ [textField document "runner_input_sha256"] }

structure BatchStatus where
  batchCode : String
  status : String
  total : ℕ
  complete : ℕ
  remaining : ℕ
  nextCandidateId : Option String
  nodes : List String
  gitShas : List String
  runnerInputSha256s : List String
  pauseRequested : Bool
deriving Repr, DecidableEq

def status (files : Files) (plan : Plan) (code : String) : Except Failure BatchStatus := do
  let rows ← batchCandidates plan code
  let progress ← collectResults files plan code rows ⟨[], [], [], []⟩
  let pending := (rows.map PlanCandidate.candidateId).filter (· ∉ progress.complete)
  let paused ← pauseRequested files plan code
  return {
    batchCode := code
    status := if pending = [] then "COMPLETE"
      else if paused then "PAUSED_SAFE" else "READY_OR_RUNNING"
    total := rows.length
    complete := progress.complete.length
    remaining := pending.length
    nextCandidateId := pending.head?
    nodes := sortedSet progress.nodes
    gitShas := sortedSet progress.gitShas
    runnerInputSha256s := sortedSet progress.runnerInputSha256s
    pauseRequested := paused }

/-- The candidates of the batch that have a result. -/
def completedCandidates (files : Files) (plan : Plan) (code : String) :
    List PlanCandidate → Except Failure (List String)
  | [] => return []
  | row :: rows => do
      let document ← readCandidateResult files plan code row
      let ids ← completedCandidates files plan code rows
      return if document.isSome then row.candidateId :: ids else ids

def nextCandidate (files : Files) (plan : Plan) (code : String) :
    Except Failure (Option PlanCandidate) := do
  if ← pauseRequested files plan code then return none
  let rows ← batchCandidates plan code
  let completed ← completedCandidates files plan code rows
  return rows.find? fun row => row.candidateId ∉ completed

/-- The documents of all candidates, in the order of the plan. -/
def completeResults (files : Files) (plan : Plan) (code : String) :
    List PlanCandidate → Except Failure (List JsonMembers)
  | [] => return []
  | row :: rows => do
      match ← readCandidateResult files plan code row with
      | none => .error (.mcf "batch result manifest requires complete batch")
      | some document => return document :: (← completeResults files plan code rows)

/-- The digest that a list of documents gives for a candidate. -/
def artifactShaIn (documents : List JsonMembers) (row : PlanCandidate) : String :=
  ((documents.find? fun document => textField document "candidate_id" = row.candidateId).map
    fun document => textField document "result_artifact_sha256").getD ""

def buildBatchManifest (files : Files) (plan : Plan) (code : String) :
    Except Failure JsonMembers := do
  let frozen ← batch plan code
  let documents ← completeResults files plan code frozen.candidates
  match sortedSet (documents.map (textField · "git_sha")),
      sortedSet (documents.map (textField · "runner_input_sha256")) with
  | [gitSha], [runnerInputSha256] => return batchManifest plan frozen {
      gitSha := gitSha
      runnerInputSha256 := runnerInputSha256
      nodes := sortedSet (documents.map (textField · "producer_node_id"))
      artifactSha := artifactShaIn documents }
  | _, _ => .error (.mcf "batch mixes git or runner-input identities")

/-- The manifest reconciles to the artifacts. -/
def verifyBatchManifest (files : Files) (plan : Plan) (manifest : JsonMembers) :
    Except Failure Unit := do
  validateBatchManifestStructure plan manifest
  let rebuilt ← buildBatchManifest files plan (textField manifest "batch_code")
  raiseIf ((Json.object rebuilt).same (.object manifest) = false)
    (.mcf "batch result manifest does not reconcile to artifacts")

end TradingLab.Factory
