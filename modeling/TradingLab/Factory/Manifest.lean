import TradingLab.Factory.Plan
import TradingLab.Json.Members

/-!
# Batch result manifests

A manifest lists one result artifact for every candidate of a batch, in the
order of the plan, and carries its own digest.
-/

namespace TradingLab.Factory

open Json JsonMembers

def batchManifestSchema : String := "MCF_DISTRIBUTED_BATCH_RESULT_MANIFEST/1.0.0"

def isUpperOrDigit (c : Char) : Bool := ('A' ≤ c && c ≤ 'Z') || ('0' ≤ c && c ≤ '9')

/-- `^NODE-[A-Z0-9][A-Z0-9_-]{1,31}$` -/
def isNode (s : String) : Bool :=
  match s.toList with
  | 'N' :: 'O' :: 'D' :: 'E' :: '-' :: c :: cs =>
      isUpperOrDigit c && cs.all (fun c => isUpperOrDigit c || c == '_' || c == '-') &&
        1 ≤ cs.length && cs.length ≤ 31
  | _ => false

def isGitSha (s : String) : Bool := s.toList.length == 40 && s.toList.all Sha256.isHexDigit

/-- The digest of a document that was read from a text. -/
def digestOf (document : JsonMembers) : Except Failure String :=
  if (Json.object document).hasNonFinite then .error .valueError
  else .ok (Json.object document).normal.digest

/-- A non-empty list of node names in increasing order. -/
def isNodeList : Option Json → Bool
  | some (.array items) =>
      let names := items.toList.map fun v => (v.str?).getD ""
      names ≠ [] && names.all isNode && decide (strictlySorted names)
  | _ => false

def validateArtifact (want : PlanCandidate) (got : Json) : Except Failure Unit :=
  raiseIf (got.get? "candidate_id" ≠ some (.str want.candidateId) ∨
      got.get? "candidate_spec_sha256" ≠ some (.str want.candidateSpecSha256) ∨
      ((got.get? "result_artifact_sha256").bind Json.str?).any Sha256.isHexDigest = false)
    (.mcf "batch result manifest candidate coverage mismatch")

def validateArtifacts : List PlanCandidate → List Json → Except Failure Unit
  | want :: wants, got :: gots => do
      validateArtifact want got
      validateArtifacts wants gots
  | _, _ => .ok ()

def items? : Json → Option (List Json)
  | .array items => some items.toList
  | _ => none

/-- Validate a complete batch manifest without trusting worker-local files. -/
def validateBatchManifestStructure (plan : Plan) (manifest : JsonMembers) : Except Failure Unit := do
  let code := ((manifest.lookup "batch_code").bind Json.str?).getD ""
  let frozen ← batch plan code
  let expected ← batchCandidates plan code
  let base := manifest.erase "batch_result_manifest_sha256"
  let artifacts := (manifest.lookup "artifacts").bind items?
  raiseIf (manifest.lookup "schema" ≠ some (.str batchManifestSchema) ∨
      manifest.lookup "generation_id" ≠ some (.str generationId) ∨
      manifest.lookup "plan_sha256" ≠ some (.str plan.planSha256) ∨
      manifest.lookup "batch_sha256" ≠ some (.str frozen.batchSha256) ∨
      (manifest.lookup "candidate_count").all (fun v => !v.same (.int frozen.candidateCount)) ∨
      ((manifest.lookup "git_sha").bind Json.str?).any isGitSha = false ∨
      ((manifest.lookup "runner_input_sha256").bind Json.str?).any Sha256.isHexDigest = false ∨
      isNodeList (manifest.lookup "nodes") = false ∨
      artifacts.map List.length ≠ some expected.length)
    (.mcf "batch result manifest boundary mismatch")
  let expectedDigest ← digestOf base
  raiseIf (manifest.lookup "batch_result_manifest_sha256" ≠ some (.str expectedDigest))
    (.mcf "batch result manifest boundary mismatch")
  validateArtifacts expected (artifacts.getD [])

/-- The document that lists one artifact for every candidate of a batch. -/
def artifactEntry (artifactSha : PlanCandidate → String) (row : PlanCandidate) : Json := .dict [
  ("candidate_id", .str row.candidateId), ("candidate_spec_sha256", .str row.candidateSpecSha256),
  ("result_artifact_sha256", .str (artifactSha row))]

/-- What the results of a batch have in common. -/
structure BatchResults where
  gitSha : String
  runnerInputSha256 : String
  nodes : List String
  artifactSha : PlanCandidate → String

def manifestBase (plan : Plan) (frozen : PlanBatch) (results : BatchResults) : JsonMembers :=
  JsonMembers.nil
    |>.insert "schema" (.str batchManifestSchema)
    |>.insert "generation_id" (.str generationId)
    |>.insert "plan_sha256" (.str plan.planSha256)
    |>.insert "batch_code" (.str frozen.batchCode)
    |>.insert "batch_sha256" (.str frozen.batchSha256)
    |>.insert "candidate_count" (.int frozen.candidates.length)
    |>.insert "git_sha" (.str results.gitSha)
    |>.insert "runner_input_sha256" (.str results.runnerInputSha256)
    |>.insert "nodes" (.list (results.nodes.map .str))
    |>.insert "artifacts" (.list (frozen.candidates.map (artifactEntry results.artifactSha)))

/-- The manifest of a complete batch. -/
def batchManifest (plan : Plan) (frozen : PlanBatch) (results : BatchResults) : JsonMembers :=
  let base := manifestBase plan frozen results
  base.insert "batch_result_manifest_sha256" (.str (Json.object base).normal.digest)

theorem hasNonFinite_artifactEntry (artifactSha : PlanCandidate → String) (row : PlanCandidate) :
    (artifactEntry artifactSha row).hasNonFinite = false := by
  change membersHaveNonFinite (((JsonMembers.nil.insert _ (.str _)).insert _ (.str _)).insert _
    (.str _)) = false
  apply membersHaveNonFinite_insert rfl
  apply membersHaveNonFinite_insert rfl
  exact membersHaveNonFinite_insert rfl _ rfl

theorem hasNonFinite_manifestBase (plan : Plan) (frozen : PlanBatch) (results : BatchResults) :
    (Json.object (manifestBase plan frozen results)).hasNonFinite = false := by
  have hnodes : (Json.list (results.nodes.map .str)).hasNonFinite = false := by
    apply hasNonFinite_list
    intro v hv
    obtain ⟨name, -, rfl⟩ := List.mem_map.mp hv
    rfl
  have hartifacts :
      (Json.list (frozen.candidates.map (artifactEntry results.artifactSha))).hasNonFinite =
        false := by
    apply hasNonFinite_list
    intro v hv
    obtain ⟨row, -, rfl⟩ := List.mem_map.mp hv
    exact hasNonFinite_artifactEntry _ _
  rw [hasNonFinite, manifestBase]
  apply membersHaveNonFinite_insert hartifacts
  apply membersHaveNonFinite_insert hnodes
  iterate 7 apply membersHaveNonFinite_insert rfl
  exact membersHaveNonFinite_insert rfl _ rfl

theorem validateArtifacts_map {artifactSha : PlanCandidate → String}
    (hsha : ∀ row, Sha256.isHexDigest (artifactSha row) = true) (rows : List PlanCandidate) :
    validateArtifacts rows (rows.map (artifactEntry artifactSha)) = .ok () := by
  induction rows with
  | nil => rfl
  | cons row rows ih =>
    rw [List.map_cons, validateArtifacts, validateArtifact, raiseIf_neg]
    · exact ih
    · have hget : ∀ key, (artifactEntry artifactSha row).get? key =
          if key = "result_artifact_sha256" then some (.str (artifactSha row))
          else if key = "candidate_spec_sha256" then some (.str row.candidateSpecSha256)
          else if key = "candidate_id" then some (.str row.candidateId) else none := by
        intro key
        change (((JsonMembers.nil.insert _ _).insert _ _).insert _ _).lookup key = _
        rw [lookup_insert, lookup_insert, lookup_insert]
        rfl
      rw [hget, hget, hget, if_neg (by decide), if_neg (by decide), if_pos rfl,
        if_neg (by decide), if_pos rfl, if_pos rfl]
      rintro (h | h | h)
      · exact h rfl
      · exact h rfl
      · have hs := hsha row
        change Sha256.isHexDigest (artifactSha row) = false at h
        rw [hs] at h
        cases h

/-- The fields of the results have their form. -/
structure BatchResults.Valid (results : BatchResults) : Prop where
  gitSha : isGitSha results.gitSha = true
  runnerInput : Sha256.isHexDigest results.runnerInputSha256 = true
  nonempty : results.nodes ≠ []
  names : results.nodes.all isNode = true
  sorted : strictlySorted results.nodes
  artifacts : ∀ row, Sha256.isHexDigest (results.artifactSha row) = true

/-- The manifest of a batch of the plan is well formed. -/
theorem validate_batchManifest {plan : Plan} {frozen : PlanBatch} {results : BatchResults}
    (hbatch : batch plan frozen.batchCode = .ok frozen)
    (hcount : frozen.candidateCount = frozen.candidates.length) (hr : results.Valid) :
    validateBatchManifestStructure plan (batchManifest plan frozen results) = .ok () := by
  let manifest := batchManifest plan frozen results
  have hget : ∀ key, manifest.lookup key =
      if key = "batch_result_manifest_sha256" then
        some (.str (object (manifestBase plan frozen results)).normal.digest)
      else (manifestBase plan frozen results).lookup key :=
    fun key => lookup_insert _ _ _ _
  simp only [manifestBase, lookup_insert] at hget
  have hcode : ((manifest.lookup "batch_code").bind str?).getD "" = frozen.batchCode := by
    simp [hget, str?]
  have hartifacts : (manifest.lookup "artifacts").bind items? =
      some (frozen.candidates.map (artifactEntry results.artifactSha)) := by
    simp [hget, items?, Json.list]
  have hnodes : isNodeList (manifest.lookup "nodes") = true := by
    have hlist : manifest.lookup "nodes" = some (.list (results.nodes.map .str)) := by simp [hget]
    rw [hlist]
    unfold isNodeList
    dsimp only [Json.list]
    rw [JsonItems.toList_ofList, List.map_map]
    have hsame : results.nodes.map ((fun v => (v.str?).getD "") ∘ str) = results.nodes :=
      List.map_id _
    rw [hsame, hr.names, Bool.and_eq_true, Bool.and_eq_true]
    exact ⟨⟨decide_eq_true hr.nonempty, rfl⟩, decide_eq_true hr.sorted⟩
  have herase : manifest.erase "batch_result_manifest_sha256" = manifestBase plan frozen results := by
    apply erase_insert
    simp [manifestBase, lookup_insert, lookup]
  have hsha : manifest.lookup "batch_result_manifest_sha256" =
      some (.str (object (manifestBase plan frozen results)).normal.digest) := by
    rw [hget]
    rfl
  have hdigest : digestOf (manifestBase plan frozen results) =
      .ok (object (manifestBase plan frozen results)).normal.digest := by
    rw [digestOf, hasNonFinite_manifestBase]
    rfl
  change validateBatchManifestStructure plan manifest = .ok ()
  unfold validateBatchManifestStructure
  have hboundary : ¬ (manifest.lookup "schema" ≠ some (.str batchManifestSchema) ∨
      manifest.lookup "generation_id" ≠ some (.str generationId) ∨
      manifest.lookup "plan_sha256" ≠ some (.str plan.planSha256) ∨
      manifest.lookup "batch_sha256" ≠ some (.str frozen.batchSha256) ∨
      (manifest.lookup "candidate_count").all (fun v => !v.same (.int frozen.candidateCount)) ∨
      ((manifest.lookup "git_sha").bind str?).any isGitSha = false ∨
      ((manifest.lookup "runner_input_sha256").bind str?).any Sha256.isHexDigest = false ∨
      isNodeList (manifest.lookup "nodes") = false ∨
      (some (frozen.candidates.map (artifactEntry results.artifactSha))).map List.length ≠
        some frozen.candidates.length) := by
    have hsame : (int frozen.candidates.length).same (.int frozen.candidateCount) = true := by
      rw [hcount]
      simp [same, number?, Number.same]
    have hgit := hr.gitSha
    have hrunner := hr.runnerInput
    rw [hnodes]
    simp [hget, hsame, hgit, hrunner, str?]
  have hcandidates : batchCandidates plan frozen.batchCode = .ok frozen.candidates := by
    rw [batchCandidates, hbatch]
    rfl
  dsimp only
  rw [hcode, hbatch, ok_bind, hcandidates, ok_bind, hartifacts, herase, raiseIf_neg hboundary,
    ok_bind, hdigest, ok_bind, hsha, raiseIf_neg fun h => h rfl, ok_bind]
  exact validateArtifacts_map hr.artifacts frozen.candidates

end TradingLab.Factory
