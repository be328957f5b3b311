import TradingLab.Factory.ResultRun

/-!
# Transfer bundles

A complete batch travels as one bundle: a header line with the manifest, then the
stored artifacts, one a line, in the order of the manifest. The receiver validates
every line before it writes it, reconciles what it has written to the manifest,
marks the batch in its coordinator and leaves a receipt.

Between any two of these steps the receiver can stop, and other calls can run.
An ingest is therefore the list of its steps; running them one after another is
the whole call.
-/

namespace TradingLab.Factory

def bundleSchema : String := "MCF_SSH_BATCH_TRANSFER/1.0.0"
def receiptSchema : String := "MCF_SSH_INGEST_RECEIPT/1.0.0"
def ingestedStatus : String := "SSH_BATCH_INGESTED_ACCEPTED"

def maxBundleBytes : ℕ := 1024 * 1024 * 1024
def maxHeaderBytes : ℕ := 8 * 1024 * 1024
def maxArtifactLineBytes : ℕ := 32 * 1024 * 1024

def byteLength (text : List Char) : ℕ := (text.map Char.utf8Size).sum

/-- The text up to its first line feed, and what follows. -/
def readLine : List Char → List Char × List Char
  | [] => ([], [])
  | c :: cs =>
      if c = '\n' then (['\n'], cs)
      else (c :: (readLine cs).1, (readLine cs).2)

def rowField (row : Json) (key : String) : String := ((row.get? key).bind Json.str?).getD ""

def rowExpected (row : Json) : ExpectedResult :=
  ⟨rowField row "candidate_id", rowField row "candidate_spec_sha256"⟩

def rowSha (row : Json) : String := rowField row "result_artifact_sha256"

/-- Where the artifact of a manifest row is stored. -/
def artifactPath (code : String) (row : Json) : Except Failure (List String) :=
  resultPath code (rowField row "candidate_id") (rowSha row)

def bundleHeader (plan : Plan) (code : String) (manifest : JsonMembers) : JsonMembers :=
  JsonMembers.nil
    |>.insert "schema" (.str bundleSchema)
    |>.insert "plan_sha256" (.str plan.planSha256)
    |>.insert "batch_code" (.str code)
    |>.insert "candidate_count" ((manifest.lookup "candidate_count").getD .null)
    |>.insert "batch_result_manifest_sha256" (.str (manifestSha manifest))
    |>.insert "manifest" (.object manifest)

/-- The stored artifact of a manifest row, as it is sent. -/
def storedArtifact (files : Files) (plan : Plan) (code : String) (row : Json) :
    Except Failure (List Char) := do
  let path ← artifactPath code row
  match files.find? path with
  | none => .error .missingFile
  | some file => do
      let document ← readMapping file.text
      let _ ← validateCandidateResultDocument plan code (rowExpected row) document (some file.text)
      raiseIf (document.lookup "result_artifact_sha256" ≠ some (.str (rowSha row)))
        (.mcf "bundle artifact/manifest SHA mismatch")
      return file.text

/-- The artifacts of the rows, after so many bytes have been written. -/
def bundleArtifacts (files : Files) (plan : Plan) (code : String) :
    ℕ → List Json → Except Failure (List (List Char))
  | _, [] => return []
  | total, row :: rows => do
      let raw ← storedArtifact files plan code row
      raiseIf (maxBundleBytes < total + byteLength raw)
        (.mcf "SSH batch bundle exceeds bounded transfer size")
      let raws ← bundleArtifacts files plan code (total + byteLength raw) rows
      return raw :: raws

def manifestRows (manifest : JsonMembers) : List Json :=
  ((manifest.lookup "artifacts").bind items?).getD []

structure Bundle where
  batchCode : String
  candidateCount : Json
  manifestSha256 : String
  bundleSha256 : String
  bundleBytes : ℕ
  bundlePath : List String
  /-- What the file at the path holds. -/
  header : List Char
  artifacts : List (List Char)
deriving Repr, DecidableEq

def Bundle.text (b : Bundle) : List Char := b.header ++ b.artifacts.flatten

/-- Build one immutable transfer bundle from a complete verified batch. -/
def buildBatchBundle (files : Files) (plan : Plan) (code : String) : Except Failure Bundle := do
  let manifest ← buildBatchManifest files plan code
  verifyBatchManifest files plan manifest
  let header ← canonicalText (.object (bundleHeader plan code manifest))
  let artifacts ← bundleArtifacts files plan code (byteLength header) (manifestRows manifest)
  let sha := Sha256.hexDigest (header ++ artifacts.flatten)
  let path ← safePath ("bundles/" ++ code ++ "/bundle-" ++ manifestSha manifest ++ "-" ++ sha ++
    ".jsonl")
  return {
    batchCode := code
    candidateCount := (manifest.lookup "candidate_count").getD .null
    manifestSha256 := manifestSha manifest
    bundleSha256 := sha
    bundleBytes := byteLength (header ++ artifacts.flatten)
    bundlePath := path
    header := header
    artifacts := artifacts }

/-- What an upload has declared of its bundle. -/
structure Declared where
  batchCode : String
  manifestSha256 : String
deriving Repr, DecidableEq

/-- A bundle whose header is accepted, with the text after the header. -/
structure OpenBundle where
  batchCode : String
  manifest : JsonMembers
  rest : List Char

/-- `a.get(key) == b.get(key)` -/
def sameField (key : String) (a b : JsonMembers) : Bool :=
  ((a.lookup key).getD .null).same ((b.lookup key).getD .null)

def checkHeader (plan : Plan) (declared : Option Declared) (header : JsonMembers) :
    Except Failure (String × JsonMembers) := do
  match header.lookup "manifest" with
  | some (.object manifest) => do
      let code := textField header "batch_code"
      validateBatchManifestStructure plan manifest
      raiseIf (header.lookup "schema" ≠ some (.str bundleSchema) ∨
          header.lookup "plan_sha256" ≠ some (.str plan.planSha256) ∨
          manifest.lookup "batch_code" ≠ some (.str code) ∨
          sameField "candidate_count" header manifest = false ∨
          sameField "batch_result_manifest_sha256" header manifest = false)
        (.mcf "SSH batch bundle boundary mismatch")
      -- Bind the received header to the owned batch before any artifact is written.
      raiseIf (declared.any (fun d => d.batchCode ≠ code ∨ d.manifestSha256 ≠ manifestSha manifest))
        (.mcf "SSH upload declared batch/manifest mismatch")
      return (code, manifest)
  | _ => .error (.mcf "SSH batch bundle missing manifest")

def openBundle (plan : Plan) (nodeId : String) (declared : Option Declared) (text : List Char) :
    Except Failure OpenBundle := do
  raiseIf (!isNode nodeId) (.mcf "invalid SSH uploader node")
  raiseIf (byteLength text < 1 ∨ maxBundleBytes < byteLength text)
    (.mcf "SSH batch bundle size outside bounded range")
  let line := (readLine text).1
  raiseIf (line = [] ∨ maxHeaderBytes < byteLength line)
    (.mcf "SSH batch bundle header exceeds bound")
  match Json.loads (String.ofList line) with
  | none => .error .valueError
  | some (.object header) => do
      let canonical ← canonicalText (.object header)
      raiseIf (canonical ≠ line) (.mcf "SSH batch bundle header is not canonical")
      let (code, manifest) ← checkHeader plan declared header
      return ⟨code, manifest, (readLine text).2⟩
  | some _ => .error (.mcf "SSH batch bundle header is not canonical")

/-- Where an artifact line belongs, when the manifest row admits it. -/
def receivedArtifact (plan : Plan) (code : String) (row : Json) (line : List Char) :
    Except Failure (List String) := do
  raiseIf (line = [] ∨ maxArtifactLineBytes < byteLength line)
    (.mcf "SSH candidate artifact line missing or oversized")
  match Json.loads (String.ofList line) with
  | none => .error .valueError
  | some (.object document) => do
      let _ ← validateCandidateResultDocument plan code (rowExpected row) document (some line)
      raiseIf (document.lookup "result_artifact_sha256" ≠ some (.str (rowSha row)))
        (.mcf "SSH candidate artifact SHA differs from manifest")
      artifactPath code row
  | some _ => .error (.mcf "SSH candidate artifact must be JSON object")

structure Receipt where
  planSha256 : String
  batchCode : String
  manifestSha256 : String
  candidateCount : Json
  bundleSha256 : String
  bundleBytes : ℕ
  uploaderNodeId : String
deriving Repr, DecidableEq

def Receipt.toDict (r : Receipt) : Json := .dict [
  ("schema", .str receiptSchema), ("status", .str ingestedStatus), ("plan_sha256", .str r.planSha256),
  ("batch_code", .str r.batchCode), ("batch_result_manifest_sha256", .str r.manifestSha256),
  ("candidate_count", r.candidateCount), ("bundle_sha256", .str r.bundleSha256),
  ("bundle_bytes", .int r.bundleBytes), ("uploader_node_id", .str r.uploaderNodeId)]

def receiptPath (code manifestSha bundleSha : String) : Except Failure (List String) :=
  safePath ("receipts/" ++ code ++ "/receipt-" ++ manifestSha ++ "-" ++ bundleSha ++ ".json")

/-- One step of an ingest: a check that fails, a file that is written once, the manifest
reconciled to the files, or the batch marked in the coordinator. -/
inductive IngestStep where
  | refuse (e : Failure)
  | write (path : List String) (text : List Char)
  | verify (manifest : JsonMembers)
  | mark (manifest : JsonMembers)

/-- Read an artifact for every row and write it; then go on with the rest of the text. -/
def artifactSteps (plan : Plan) (code : String) (finish : List Char → List IngestStep) :
    List Json → List Char → List IngestStep
  | [], text => finish text
  | row :: rows, text =>
      match receivedArtifact plan code row (readLine text).1 with
      | .error e => [.refuse e]
      | .ok path =>
          .write path (readLine text).1 :: artifactSteps plan code finish rows (readLine text).2

def bundleReceipt (plan : Plan) (nodeId : String) (text : List Char) (bundle : OpenBundle) :
    Receipt where
  planSha256 := plan.planSha256
  batchCode := bundle.batchCode
  manifestSha256 := manifestSha bundle.manifest
  candidateCount := (bundle.manifest.lookup "candidate_count").getD .null
  bundleSha256 := Sha256.hexDigest text
  bundleBytes := byteLength text
  uploaderNodeId := nodeId

/-- The receipt is written under the names of the manifest and the bundle. -/
def receiptStep (receipt : Receipt) : IngestStep :=
  match receiptPath receipt.batchCode receipt.manifestSha256 receipt.bundleSha256,
      canonicalText receipt.toDict with
  | .error e, _ => .refuse e
  | .ok _, .error e => .refuse e
  | .ok path, .ok text => .write path text

/-- The steps after the artifacts. -/
def finishSteps (manifest : JsonMembers) (receipt : Receipt) (rest : List Char) : List IngestStep :=
  if rest ≠ [] then [.refuse (.mcf "SSH batch bundle has unexpected trailing content")]
  else [.verify manifest, .mark manifest, receiptStep receipt]

def ingestSteps (plan : Plan) (nodeId : String) (text : List Char) (bundle : OpenBundle) :
    List IngestStep :=
  artifactSteps plan bundle.batchCode
    (finishSteps bundle.manifest (bundleReceipt plan nodeId text bundle))
    (manifestRows bundle.manifest) bundle.rest

structure Site where
  registry : Registry
  results : Files
  /-- Milliseconds. -/
  clock : ℤ

abbrev SiteCall (α : Type) : Type := Method Site Failure α

def onResults {α : Type} (call : RootCall α) : SiteCall α :=
  Method.zoom Site.results (fun files s => { s with results := files }) id call

def onRegistry {α : Type} (call : ℤ → Call α) : SiteCall α := do
  let now ← Method.read Site.clock
  Method.zoom Site.registry (fun r s => { s with registry := r }) id (call now)

def IngestStep.perform (plan : Plan) : IngestStep → SiteCall Unit
  | .refuse e => Method.check (.error e)
  | .write path text => onResults (writeOnce path text)
  | .verify manifest => do
      let files ← Method.read Site.results
      Method.check (verifyBatchManifest files plan manifest)
  | .mark manifest => onRegistry fun now => markIngested plan manifest now

/-- The steps one after another, up to the first that raises. -/
def performAll (plan : Plan) : List IngestStep → SiteCall Unit
  | [] => pure ()
  | step :: steps => do
      step.perform plan
      performAll plan steps

/-- Verify a received bundle and take it in. -/
def ingestBatchBundle (plan : Plan) (nodeId : String) (declared : Option Declared)
    (text : List Char) : SiteCall Receipt := do
  let bundle ← Method.check (openBundle plan nodeId declared text)
  performAll plan (ingestSteps plan nodeId text bundle)
  return bundleReceipt plan nodeId text bundle

end TradingLab.Factory
