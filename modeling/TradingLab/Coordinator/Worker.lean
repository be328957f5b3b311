import TradingLab.Coordinator.Database

/-!
# The coordinator's request handlers

A handler is a program over the statements of the database. It returns a
response or throws one: the router does not wait for the handler inside its
`try`, so that it does not see what a handler throws.

A request is given by what the handlers read of it.
-/

namespace TradingLab.Coordinator

open Interleaving Prog

structure Reply where
  body : Json
  status : ℕ
deriving Repr, DecidableEq

def response (body : List (String × Json)) (status : ℕ) : Reply := ⟨.dict body, status⟩

/-- A handler: it returns or throws a response. -/
abbrev Handler (α : Type) : Type := Prog Op Ans α

abbrev Outcome : Type := Except Reply Reply

def await (o : Op) : Handler (Ans o) := perform o

def refuse (text : String) (status : ℕ) : Handler Outcome :=
  pure (.ok (response [("status", .str text)] status))

def throwReply (text : String) (status : ℕ) : Handler Outcome :=
  pure (.error (response [("status", .str text)] status))

def isDigit (c : Char) : Bool := '0' ≤ c && c ≤ '9'

def isUpperOrDigit (c : Char) : Bool := ('A' ≤ c && c ≤ 'Z') || isDigit c

/-- `^NODE-[A-Z0-9][A-Z0-9_-]{1,31}$` -/
def isNodeId (s : String) : Bool :=
  match s.toList with
  | 'N' :: 'O' :: 'D' :: 'E' :: '-' :: c :: cs =>
      isUpperOrDigit c && cs.all (fun c => isUpperOrDigit c || c == '_' || c == '-') &&
        1 ≤ cs.length && cs.length ≤ 31
  | _ => false

/-- `^B[0-9]{3}$` -/
def isBatchCode (s : String) : Bool :=
  match s.toList with
  | 'B' :: cs => cs.all isDigit && cs.length == 3
  | _ => false

/-- `^MCF-PROD-001-[0-9]{6}$` -/
def isCandidateId (s : String) : Bool :=
  let cs := s.toList
  cs.take 13 == "MCF-PROD-001-".toList && (cs.drop 13).all isDigit && (cs.drop 13).length == 6

/-- What `Number(field || fallback)` reads from a field. -/
inductive NumberField where
  /-- The field is absent, `null`, zero or empty. -/
  | falsy
  | integer (n : ℤ)
  /-- No integer. -/
  | other
deriving Repr, DecidableEq

def defaultLeaseSeconds : ℤ := 900
def maxClaimAttempts : ℕ := 8
def maxArtifactBytes : ℕ := 8 * 1024 * 1024
def maxManifestBytes : ℕ := 2 * 1024 * 1024

/-- The lease in seconds, when it is an integer from a minute to a day. -/
def NumberField.leaseSeconds? (field : NumberField) : Option ℤ :=
  let seconds := match field with
    | falsy => some defaultLeaseSeconds
    | integer n => some n
    | other => none
  seconds.filter fun n => 60 ≤ n ∧ n ≤ 86400

/-- The fields of a JSON body; `none` where a field is absent or `null`. -/
structure Body where
  nodeId : Option String
  batchCode : Option String
  leaseSeconds : NumberField
  resultManifestSha256 : Option String
  /-- The count, when it is an integer. -/
  resultCount : Option ℤ
  transferMode : Option String
deriving Repr, DecidableEq

/-- A `POST` request. The body is `none` when it is not a JSON object. -/
structure Posted where
  authorization : String
  body : Option Body
deriving Repr, DecidableEq

/-- A `PUT` request. -/
structure Upload where
  authorization : String
  /-- The header `x-yatl-node`. -/
  nodeId : String
  /-- The header `x-yatl-body-sha256`. -/
  rawSha256 : String
  /-- The header `content-length`, when it is an integer. -/
  contentLength : Option ℤ
  body : List ℕ
deriving Repr, DecidableEq

inductive Request where
  | claim (request : Posted)
  | heartbeat (request : Posted)
  | pauseRequest (request : Posted)
  | paused (request : Posted)
  | resume (request : Posted)
  | release (request : Posted)
  | ready (request : Posted)
  | ingested (request : Posted)
  | artifactPut (request : Upload) (batchCode candidateId artifactSha : String)
  | manifestPut (request : Upload) (batchCode manifestSha : String)
deriving Repr, DecidableEq

structure Env where
  adminTokenSha256 : Option String
  /-- The object store is bound. -/
  results : Bool
deriving Repr, DecidableEq

def sha256Bytes (bytes : List ℕ) : String := String.ofList (Sha256.hexState (Sha256.digestBytes bytes))

def bearer (authorization : String) : String :=
  if "Bearer ".toList.isPrefixOf authorization.toList then
    String.ofList (authorization.toList.drop 7)
  else ""

def parseJson (request : Posted) (handler : Body → Handler Outcome) : Handler Outcome :=
  match request.body with
  | none => throwReply "BAD_REQUEST" 400
  | some body => handler body

def adminAuthorized (env : Env) (authorization : String) : Bool :=
  let token := bearer authorization
  token ≠ "" && env.adminTokenSha256 == some (Sha256.hexDigest token.toList)

def nodeAuthorized (authorization nodeId : String) : Handler Bool :=
  if isNodeId nodeId then
    let token := bearer authorization
    if token = "" then pure false
    else do
      let row ← await (.selectNode nodeId)
      pure (row.any fun r => r.enabled && r.tokenSha256 == Sha256.hexDigest token.toList)
  else pure false

def touchNode (nodeId : String) (now : ℤ) : Handler Unit := await (.touchNode nodeId now)

def event (type : String) (nodeId batchCode : Option String) (payload : Json) (now : ℤ) :
    Handler Unit :=
  await (.insertEvent ⟨now, type, nodeId, batchCode, payload⟩)

def planSha : Handler (Option String) := await .selectPlan

def changesOne (u : Update) : Handler Bool := do
  let changes ← await (.update u)
  pure (changes == 1)

def claimSpecific (nodeId batchCode : String) (leaseSeconds now : ℤ) :
    Handler (Option ClaimedBatch) := do
  let leaseUntil := now + leaseSeconds * 1000
  if ← changesOne (.claim nodeId leaseUntil now batchCode) then
    await (.selectClaimed batchCode)
  else pure none

def claimAuto (nodeId : String) (leaseSeconds now : ℤ) : ℕ → Handler (Option ClaimedBatch)
  | 0 => pure none
  | attempts + 1 => do
      match ← await (.selectCandidate now) with
      | none => pure none
      | some candidate =>
          match ← claimSpecific nodeId candidate leaseSeconds now with
          | some claimed => pure (some claimed)
          | none => claimAuto nodeId leaseSeconds now attempts

/-- Claim the batch that the request names, or the first one that can be claimed. -/
def claimRequested (nodeId : String) (requested : Option String) (leaseSeconds now : ℤ) :
    Handler (Option ClaimedBatch) :=
  match requested with
  | some requested => claimSpecific nodeId requested leaseSeconds now
  | none => claimAuto nodeId leaseSeconds now maxClaimAttempts

def claimedReply (plan : Option String) (nodeId : String) (claimed : ClaimedBatch) :
    List (String × Json) :=
  [("status", .str "BATCH_CLAIMED"), ("plan_sha256", .optionStr plan), ("node_id", .str nodeId),
    ("batch_code", .str claimed.batchCode), ("batch_sha256", .str claimed.batchSha256),
    ("candidate_count", .int claimed.candidateCount),
    ("lease_until_ms", .optionInt claimed.leaseUntilMs)]

def handleClaim (request : Posted) : Handler Outcome :=
  parseJson request fun body => do
    let nodeId := body.nodeId.getD ""
    if !(← nodeAuthorized request.authorization nodeId) then refuse "UNAUTHORIZED" 401
    else match body.leaseSeconds.leaseSeconds? with
    | none => refuse "INVALID_LEASE" 400
    | some leaseSeconds =>
    if body.batchCode.any fun code => !isBatchCode code then refuse "INVALID_BATCH" 400
    else
      let now ← await .now
      touchNode nodeId now
      match ← claimRequested nodeId body.batchCode leaseSeconds now with
      | none =>
          refuse (if body.batchCode.isSome then "BATCH_UNAVAILABLE" else "NO_AVAILABLE_BATCH") 409
      | some claimed =>
          let plan ← planSha
          let payload := claimedReply plan nodeId claimed
          event "BATCH_CLAIMED" (some nodeId) (some claimed.batchCode) (.dict payload) now
          pure (.ok (response payload 200))

/-- A call of a node about a batch: it is authorized and names a batch. -/
def nodeCall (request : Posted)
    (handler : (body : Body) → (nodeId batchCode : String) → Handler Outcome) : Handler Outcome :=
  parseJson request fun body => do
    let nodeId := body.nodeId.getD ""
    let batchCode := body.batchCode.getD ""
    if !(← nodeAuthorized request.authorization nodeId) then refuse "UNAUTHORIZED" 401
    else if !isBatchCode batchCode then refuse "INVALID_BATCH" 400
    else handler body nodeId batchCode

def handleHeartbeat (request : Posted) : Handler Outcome :=
  nodeCall request fun body nodeId batchCode =>
    match body.leaseSeconds.leaseSeconds? with
    | none => refuse "INVALID_LEASE" 400
    | some leaseSeconds => do
      let now ← await .now
      let leaseUntil := now + leaseSeconds * 1000
      if !(← changesOne (.heartbeat leaseUntil now batchCode nodeId)) then refuse "LEASE_LOST" 409
      else
        touchNode nodeId now
        pure (.ok (response [("status", .str "HEARTBEAT_ACCEPTED"), ("node_id", .str nodeId),
          ("batch_code", .str batchCode), ("lease_until_ms", .int leaseUntil)] 200))

def handlePauseRequest (request : Posted) : Handler Outcome :=
  nodeCall request fun _ nodeId batchCode => do
    let now ← await .now
    if !(← changesOne (.pauseRequest now batchCode nodeId)) then refuse "PAUSE_REQUEST_REJECTED" 409
    else
      event "PAUSE_REQUESTED" (some nodeId) (some batchCode) (.dict []) now
      pure (.ok (response [("status", .str "PAUSE_REQUESTED"), ("batch_code", .str batchCode),
        ("node_id", .str nodeId)] 200))

def handlePaused (request : Posted) : Handler Outcome :=
  nodeCall request fun _ nodeId batchCode => do
    let now ← await .now
    if !(← changesOne (.paused now batchCode nodeId)) then refuse "PAUSED_ACK_REJECTED" 409
    else
      event "PAUSED_SAFE" (some nodeId) (some batchCode) (.dict []) now
      pure (.ok (response [("status", .str "PAUSED_SAFE"), ("batch_code", .str batchCode),
        ("node_id", .str nodeId)] 200))

def handleResume (request : Posted) : Handler Outcome :=
  parseJson request fun body => do
    let nodeId := body.nodeId.getD ""
    let batchCode := body.batchCode.getD ""
    if !(← nodeAuthorized request.authorization nodeId) then refuse "UNAUTHORIZED" 401
    else match (body.leaseSeconds.leaseSeconds?).filter fun _ => isBatchCode batchCode with
    | none => refuse "INVALID_RESUME" 400
    | some leaseSeconds =>
      let now ← await .now
      let leaseUntil := now + leaseSeconds * 1000
      if !(← changesOne (.resume leaseUntil now batchCode nodeId)) then refuse "RESUME_REJECTED" 409
      else
        event "BATCH_RESUMED" (some nodeId) (some batchCode)
          (.dict [("lease_until_ms", .int leaseUntil)]) now
        pure (.ok (response [("status", .str "BATCH_RESUMED"), ("batch_code", .str batchCode),
          ("node_id", .str nodeId), ("lease_until_ms", .int leaseUntil)] 200))

def handleRelease (request : Posted) : Handler Outcome :=
  nodeCall request fun _ nodeId batchCode => do
    let now ← await .now
    if !(← changesOne (.release now batchCode nodeId)) then refuse "RELEASE_REJECTED" 409
    else
      event "BATCH_RELEASED" (some nodeId) (some batchCode) (.dict []) now
      pure (.ok (response [("status", .str "BATCH_RELEASED"), ("batch_code", .str batchCode)] 200))

def resultKey (planSha batchCode candidateId artifactSha : String) : String :=
  "results/" ++ planSha ++ "/" ++ batchCode ++ "/" ++ candidateId ++ "/result-" ++ artifactSha ++
    ".json"

def manifestKey (planSha batchCode manifestSha : String) : String :=
  "results/" ++ planSha ++ "/" ++ batchCode ++ "/batch-manifest-" ++ manifestSha ++ ".json"

/-- The body of an upload, or the response that is thrown. -/
def readBoundedBody (request : Upload) (maxBytes : ℕ) : Except (String × ℕ) (List ℕ) :=
  if request.contentLength.any ((maxBytes : ℤ) < ·) then .error ("ARTIFACT_TOO_LARGE", 413)
  else if request.body.length < 1 ∨ maxBytes < request.body.length then
    .error ("ARTIFACT_SIZE_INVALID", 413)
  else .ok request.body

/-- An upload's body is read, matched with its digest and stored. -/
def storeBody (env : Env) (request : Upload) (maxBytes : ℕ) (mismatch : String)
    (object : List ℕ → StoredObject) (stored : Handler Outcome) : Handler Outcome :=
  if !Sha256.isHexDigest request.rawSha256 then refuse "MISSING_RAW_SHA256" 400
  else match readBoundedBody request maxBytes with
  | .error (text, status) => throwReply text status
  | .ok body =>
    if sha256Bytes body ≠ request.rawSha256 then refuse mismatch 400
    else if !env.results then throwReply "R2_NOT_CONFIGURED" 503
    else do
      await (.putObject (object body))
      stored

def handleArtifactPut (env : Env) (request : Upload) (batchCode candidateId artifactSha : String) :
    Handler Outcome := do
  let nodeId := request.nodeId
  if !(← nodeAuthorized request.authorization nodeId) then refuse "UNAUTHORIZED" 401
  else if !isBatchCode batchCode || !isCandidateId candidateId ||
      !Sha256.isHexDigest artifactSha then refuse "INVALID_ARTIFACT_PATH" 400
  else match (← await (.selectBatch batchCode)).filter fun row =>
      row.ownerNode = some nodeId ∧ (row.state = .claimed ∨ row.state = .awaitingIngest) with
  | none => refuse "ARTIFACT_UPLOAD_NOT_OWNED" 409
  | some row =>
    storeBody env request maxArtifactBytes "ARTIFACT_RAW_SHA_MISMATCH"
      (fun body => {
        key := resultKey row.planSha256 batchCode candidateId artifactSha
        body := body
        nodeId := nodeId
        batchCode := batchCode
        candidateId := some candidateId
        semanticSha256 := artifactSha
        rawSha256 := request.rawSha256 })
      (do
        let now ← await .now
        touchNode nodeId now
        event "RESULT_ARTIFACT_UPLOADED" (some nodeId) (some batchCode)
          (.dict [("candidate_id", .str candidateId), ("artifact_sha256", .str artifactSha)]) now
        pure (.ok (response [("status", .str "RESULT_ARTIFACT_STORED"),
          ("batch_code", .str batchCode), ("candidate_id", .str candidateId),
          ("artifact_sha256", .str artifactSha), ("raw_sha256", .str request.rawSha256)] 200)))

def handleManifestPut (env : Env) (request : Upload) (batchCode manifestSha : String) :
    Handler Outcome := do
  let nodeId := request.nodeId
  if !(← nodeAuthorized request.authorization nodeId) then refuse "UNAUTHORIZED" 401
  else if !isBatchCode batchCode || !Sha256.isHexDigest manifestSha then
    refuse "INVALID_MANIFEST_PATH" 400
  else match (← await (.selectBatch batchCode)).filter fun row =>
      row.ownerNode = some nodeId ∧ row.state = .claimed with
  | none => refuse "MANIFEST_UPLOAD_NOT_OWNED" 409
  | some row =>
    storeBody env request maxManifestBytes "MANIFEST_RAW_SHA_MISMATCH"
      (fun body => {
        key := manifestKey row.planSha256 batchCode manifestSha
        body := body
        nodeId := nodeId
        batchCode := batchCode
        candidateId := none
        semanticSha256 := manifestSha
        rawSha256 := request.rawSha256 })
      (do
        let now ← await .now
        event "BATCH_MANIFEST_UPLOADED" (some nodeId) (some batchCode)
          (.dict [("result_manifest_sha256", .str manifestSha)]) now
        pure (.ok (response [("status", .str "BATCH_MANIFEST_STORED"),
          ("batch_code", .str batchCode), ("result_manifest_sha256", .str manifestSha),
          ("raw_sha256", .str request.rawSha256)] 200)))

/-- The update of a ready call, and its response. -/
def declareReady (now : ℤ) (manifestSha : String) (resultCount : ℤ)
    (transferMode batchCode nodeId : String) : Handler Outcome := do
  if !(← changesOne (.ready now manifestSha resultCount transferMode batchCode nodeId)) then
    refuse "READY_REJECTED" 409
  else
    event "BATCH_READY_FOR_INGEST" (some nodeId) (some batchCode)
      (.dict [("result_manifest_sha256", .str manifestSha), ("result_count", .int resultCount),
        ("transfer_mode", .str transferMode)]) now
    pure (.ok (response [("status", .str "BATCH_AWAITING_INGEST"), ("batch_code", .str batchCode),
      ("result_manifest_sha256", .str manifestSha), ("transfer_mode", .str transferMode)] 200))

def handleReady (env : Env) (request : Posted) : Handler Outcome :=
  parseJson request fun body => do
    let nodeId := body.nodeId.getD ""
    let batchCode := body.batchCode.getD ""
    let manifestSha := body.resultManifestSha256.getD ""
    let transferMode := body.transferMode.getD "R2"
    if !(← nodeAuthorized request.authorization nodeId) then refuse "UNAUTHORIZED" 401
    else match body.resultCount.filter fun n =>
        isBatchCode batchCode ∧ Sha256.isHexDigest manifestSha ∧ 1 ≤ n ∧
          (transferMode = "R2" ∨ transferMode = "DIRECT_PULL") with
    | none => refuse "INVALID_READY_PAYLOAD" 400
    | some resultCount =>
      let now ← await .now
      if transferMode = "R2" then
        if !env.results then throwReply "R2_NOT_CONFIGURED" 503
        else match ← await (.selectActive batchCode nodeId) with
        | none => refuse "READY_REJECTED" 409
        | some planSha256 =>
          if !(← await (.headObject (manifestKey planSha256 batchCode manifestSha))) then
            refuse "MANIFEST_NOT_UPLOADED" 409
          else declareReady now manifestSha resultCount transferMode batchCode nodeId
      else declareReady now manifestSha resultCount transferMode batchCode nodeId

def handleIngested (env : Env) (request : Posted) : Handler Outcome :=
  if !adminAuthorized env request.authorization then refuse "UNAUTHORIZED" 401
  else parseJson request fun body => do
    let batchCode := body.batchCode.getD ""
    let manifestSha := body.resultManifestSha256.getD ""
    if !isBatchCode batchCode || !Sha256.isHexDigest manifestSha then refuse "INVALID_INGEST" 400
    else
      let now ← await .now
      if !(← changesOne (.ingested now batchCode manifestSha)) then refuse "INGEST_REJECTED" 409
      else
        event "BATCH_INGESTED" none (some batchCode)
          (.dict [("result_manifest_sha256", .str manifestSha)]) now
        pure (.ok (response [("status", .str "BATCH_INGESTED"), ("batch_code", .str batchCode),
          ("result_manifest_sha256", .str manifestSha)] 200))

def fetch (env : Env) : Request → Handler Outcome
  | .claim request => handleClaim request
  | .heartbeat request => handleHeartbeat request
  | .pauseRequest request => handlePauseRequest request
  | .paused request => handlePaused request
  | .resume request => handleResume request
  | .release request => handleRelease request
  | .ready request => handleReady env request
  | .ingested request => handleIngested env request
  | .artifactPut request batchCode candidateId artifactSha =>
      handleArtifactPut env request batchCode candidateId artifactSha
  | .manifestPut request batchCode manifestSha =>
      handleManifestPut env request batchCode manifestSha

def Admits (env : Env) (p : Handler Outcome) : Prop := ∃ request, p = fetch env request

end TradingLab.Coordinator
