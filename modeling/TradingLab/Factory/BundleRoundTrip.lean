import TradingLab.Factory.BundleText
import TradingLab.Coordinator.Protocol

/-!
# Sending and receiving a batch

A bundle that was built is opened again, and its artifacts are written under the
names they had. The receiver accepts it exactly when no line is longer than its
bounds, which the sender does not know.
-/

namespace TradingLab.Factory

open JsonMembers

section
variable (plan : Plan) (frozen : PlanBatch) (results : BatchResults)

theorem held_artifactEntry (artifactSha : PlanCandidate → String) (row : PlanCandidate) :
    (artifactEntry artifactSha row).Held := by
  change JsonMembers.Held _
  iterate 3 apply JsonMembers.Held.insert_str
  exact trivial

theorem held_batchManifest : (batchManifest plan frozen results).Held := by
  have hnodes : (Json.list (results.nodes.map .str)).Held := by
    apply Json.held_list
    intro v hv
    obtain ⟨name, -, rfl⟩ := List.mem_map.mp hv
    trivial
  have hartifacts : (Json.list (frozen.candidates.map (artifactEntry results.artifactSha))).Held := by
    apply Json.held_list
    intro v hv
    obtain ⟨row, -, rfl⟩ := List.mem_map.mp hv
    exact held_artifactEntry _ _
  unfold batchManifest manifestBase
  apply JsonMembers.Held.insert_str
  apply JsonMembers.Held.insert _ hartifacts
  apply JsonMembers.Held.insert _ hnodes
  apply JsonMembers.Held.insert_str
  apply JsonMembers.Held.insert_str
  apply JsonMembers.Held.insert
  · iterate 5 apply JsonMembers.Held.insert_str
    exact trivial
  · exact trivial

theorem lookup_batchManifest (key : String) : (batchManifest plan frozen results).lookup key =
    if key = "batch_result_manifest_sha256" then
      some (.str (Json.object (manifestBase plan frozen results)).normal.digest)
    else (manifestBase plan frozen results).lookup key :=
  JsonMembers.lookup_insert _ _ _ _

theorem manifestSha_batchManifest : (batchManifest plan frozen results).lookup
    "batch_result_manifest_sha256" = some (.str (manifestSha (batchManifest plan frozen results))) := by
  have h := lookup_batchManifest plan frozen results "batch_result_manifest_sha256"
  rw [if_pos rfl] at h
  rw [manifestSha, h]
  rfl

theorem batchCode_batchManifest :
    (batchManifest plan frozen results).lookup "batch_code" = some (.str frozen.batchCode) := by
  rw [lookup_batchManifest, if_neg (by decide)]
  simp [manifestBase, lookup_insert]

theorem candidateCount_batchManifest : (batchManifest plan frozen results).lookup "candidate_count" =
    some (.int frozen.candidates.length) := by
  rw [lookup_batchManifest, if_neg (by decide)]
  simp [manifestBase, lookup_insert]

theorem manifestRows_batchManifest : manifestRows (batchManifest plan frozen results) =
    frozen.candidates.map (artifactEntry results.artifactSha) := by
  have h : (batchManifest plan frozen results).lookup "artifacts" =
      some (.list (frozen.candidates.map (artifactEntry results.artifactSha))) := by
    rw [lookup_batchManifest, if_neg (by decide)]
    simp [manifestBase, lookup_insert]
  rw [manifestRows, h]
  exact JsonItems.toList_ofList _

end

theorem rowField_artifactEntry (artifactSha : PlanCandidate → String) (row : PlanCandidate)
    (key : String) : rowField (artifactEntry artifactSha row) key =
      if key = "result_artifact_sha256" then artifactSha row
      else if key = "candidate_spec_sha256" then row.candidateSpecSha256
      else if key = "candidate_id" then row.candidateId else "" := by
  have hget : (artifactEntry artifactSha row).get? key =
      if key = "result_artifact_sha256" then some (.str (artifactSha row))
      else if key = "candidate_spec_sha256" then some (.str row.candidateSpecSha256)
      else if key = "candidate_id" then some (.str row.candidateId) else none := by
    change (((JsonMembers.nil.insert _ _).insert _ _).insert _ _).lookup key = _
    rw [lookup_insert, lookup_insert, lookup_insert]
    rfl
  rw [rowField, hget]
  split
  · rfl
  · split
    · rfl
    · split <;> rfl

theorem rowExpected_artifactEntry (artifactSha : PlanCandidate → String) (row : PlanCandidate) :
    rowExpected (artifactEntry artifactSha row) = row.expected := by
  rw [rowExpected, rowField_artifactEntry, rowField_artifactEntry]
  rfl

theorem rowSha_artifactEntry (artifactSha : PlanCandidate → String) (row : PlanCandidate) :
    rowSha (artifactEntry artifactSha row) = artifactSha row := by
  rw [rowSha, rowField_artifactEntry]
  rfl

section
variable {plan : Plan} {code : String} {manifest : JsonMembers}

theorem lookup_bundleHeader (key : String) : (bundleHeader plan code manifest).lookup key =
    if key = "manifest" then some (.object manifest)
    else if key = "batch_result_manifest_sha256" then some (.str (manifestSha manifest))
    else if key = "candidate_count" then some ((manifest.lookup "candidate_count").getD .null)
    else if key = "batch_code" then some (.str code)
    else if key = "plan_sha256" then some (.str plan.planSha256)
    else if key = "schema" then some (.str bundleSchema) else none := by
  unfold bundleHeader
  iterate 6 rw [lookup_insert]
  rfl

theorem held_bundleHeader (h : manifest.Held) : (bundleHeader plan code manifest).Held := by
  have hcount : ((manifest.lookup "candidate_count").getD .null).Held := by
    cases hlookup : manifest.lookup "candidate_count" with
    | none => exact trivial
    | some v => exact h.lookup hlookup
  have hmanifest : (Json.object manifest).Held := h
  unfold bundleHeader
  apply JsonMembers.Held.insert _ hmanifest
  apply JsonMembers.Held.insert_str
  apply JsonMembers.Held.insert _ hcount
  iterate 3 apply JsonMembers.Held.insert_str
  exact trivial

variable {n : ℤ} {declared : Option Declared}

theorem checkHeader_bundleHeader (hvalid : ValidManifest plan manifest)
    (hcode : manifest.lookup "batch_code" = some (.str code))
    (hsha : manifest.lookup "batch_result_manifest_sha256" = some (.str (manifestSha manifest)))
    (hcount : manifest.lookup "candidate_count" = some (.int n))
    (hdeclared : ∀ d ∈ declared, d = ⟨code, manifestSha manifest⟩) :
    checkHeader plan declared (bundleHeader plan code manifest) = .ok (code, manifest) := by
  have hfield : textField (bundleHeader plan code manifest) "batch_code" = code := by
    rw [textField, lookup_bundleHeader]
    rfl
  have hsame : sameField "candidate_count" (bundleHeader plan code manifest) manifest = true := by
    rw [sameField, lookup_bundleHeader, hcount]
    simp [Json.same, Json.number?, Json.Number.same]
  have hsameSha : sameField "batch_result_manifest_sha256" (bundleHeader plan code manifest)
      manifest = true := by
    rw [sameField, lookup_bundleHeader, hsha]
    simp [Json.same]
  unfold ValidManifest at hvalid
  unfold checkHeader
  rw [lookup_bundleHeader, if_pos rfl]
  dsimp only
  rw [hvalid, ok_bind, hfield, raiseIf_neg, ok_bind, raiseIf_neg, ok_bind]
  · rfl
  · cases declared with
    | none => simp
    | some d => simp [hdeclared d rfl]
  · rw [lookup_bundleHeader, lookup_bundleHeader, hcode, hsame, hsameSha]
    simp

/-- The header line of a bundle is opened, unless it is too long. -/
theorem openBundle_bundleHeader (hheld : manifest.Held) (hvalid : ValidManifest plan manifest)
    (hcode : manifest.lookup "batch_code" = some (.str code))
    (hsha : manifest.lookup "batch_result_manifest_sha256" = some (.str (manifestSha manifest)))
    (hcount : manifest.lookup "candidate_count" = some (.int n))
    (hdeclared : ∀ d ∈ declared, d = ⟨code, manifestSha manifest⟩)
    {nodeId : String} (hnode : isNode nodeId = true) {header : List Char}
    (hheader : canonicalText (.object (bundleHeader plan code manifest)) = .ok header)
    (rest : List Char) (hsize : byteLength (header ++ rest) ≤ maxBundleBytes) :
    openBundle plan nodeId declared (header ++ rest) =
      if maxHeaderBytes < byteLength header then .error (.mcf "SSH batch bundle header exceeds bound")
      else .ok ⟨code, manifest, rest⟩ := by
  have hline := isLine_of_canonicalText hheader
  have hpos : ¬ (byteLength (header ++ rest) < 1 ∨ maxBundleBytes < byteLength (header ++ rest)) := by
    have hheaderPos := hline.byteLength_pos
    rw [byteLength_append] at hsize ⊢
    omega
  unfold openBundle
  rw [raiseIf_neg (by rw [hnode]; simp), ok_bind, raiseIf_neg hpos, ok_bind, readLine_append hline]
  dsimp only
  by_cases hlong : maxHeaderBytes < byteLength header
  · rw [raiseIf_pos (.inr hlong), if_pos hlong]
    rfl
  · have hloads := readMapping_eq_ok.mp (readMapping_canonical (held_bundleHeader hheld) hheader)
    rw [raiseIf_neg, ok_bind, if_neg hlong, hloads]
    · dsimp only
      rw [hheader, ok_bind, raiseIf_neg (fun hne => hne rfl), ok_bind,
        checkHeader_bundleHeader hvalid hcode hsha hcount hdeclared]
      rfl
    · rw [not_or]
      exact ⟨hline.ne_nil, hlong⟩

end

theorem bundleArtifacts_eq_ok {files : Files} {plan : Plan} {code : String} {total : ℕ}
    {rows : List Json} {raws : List (List Char)} :
    bundleArtifacts files plan code total rows = .ok raws ↔
      List.Forall₂ (fun row raw => storedArtifact files plan code row = .ok raw) rows raws ∧
        (rows = [] ∨ total + byteLength raws.flatten ≤ maxBundleBytes) := by
  induction rows generalizing total raws with
  | nil =>
    constructor
    · intro h
      cases h
      exact ⟨.nil, .inl rfl⟩
    · intro h
      cases h.1
      rfl
  | cons row rows ih =>
    rw [bundleArtifacts, bind_eq_ok]
    constructor
    · intro h
      obtain ⟨raw, hraw, h⟩ := h
      rw [raiseIf_bind_eq_ok, not_lt, bind_eq_ok] at h
      obtain ⟨hsize, rest, hrest, h⟩ := h
      cases h
      obtain ⟨hstored, hbound⟩ := ih.mp hrest
      refine ⟨.cons hraw hstored, .inr ?_⟩
      rw [List.flatten_cons, byteLength_append, ← Nat.add_assoc]
      rcases hbound with hnil | hbound
      · subst hnil
        cases hstored
        exact hsize
      · exact hbound
    · intro h
      obtain ⟨hstored, hbound⟩ := h
      cases hstored with
      | @cons _ raw _ rest hraw hstored =>
        have hsize : total + byteLength (raw :: rest).flatten ≤ maxBundleBytes := by
          simpa using hbound
        rw [List.flatten_cons, byteLength_append] at hsize
        refine ⟨raw, hraw, ?_⟩
        rw [raiseIf_bind_eq_ok, not_lt, bind_eq_ok]
        refine ⟨by omega, rest, ih.mpr ⟨hstored, .inr (by omega)⟩, rfl⟩

/-- A stored artifact, as the bundle lists and holds it. -/
structure SentArtifact (plan : Plan) (code : String) (sha : PlanCandidate → String)
    (sender : Files) (row : PlanCandidate) (file : File) : Prop where
  path : file.path = resultFile code row (sha row)
  stored : ∃ document, Stored plan code sender row file document ∧ artifactSha document = sha row

structure BuiltFrom (plan : Plan) (code : String) (frozen : PlanBatch) (sender : Files)
    (results : BatchResults) (sent : List File) (b : Bundle) : Prop where
  built : buildBatchManifest sender plan code = .ok (batchManifest plan frozen results)
  verified : verifyBatchManifest sender plan (batchManifest plan frozen results) = .ok ()
  header : canonicalText (.object (bundleHeader plan code (batchManifest plan frozen results))) =
    .ok b.header
  artifacts : b.artifacts = sent.map File.text
  sent : List.Forall₂ (SentArtifact plan code results.artifactSha sender) frozen.candidates sent
  size : byteLength b.text ≤ maxBundleBytes
  sha : b.manifestSha256 = manifestSha (batchManifest plan frozen results)

section
variable {plan : FrozenPlan} {code : String} {frozen : PlanBatch}
    (hbatch : batch plan.toPlan code = .ok frozen)
include hbatch

variable {sha : PlanCandidate → String} {row : PlanCandidate} {sender : Files}

theorem artifactPath_artifactEntry
    (hrow : row ∈ frozen.candidates) (hsha : Sha256.isHexDigest (sha row) = true) :
    artifactPath code (artifactEntry sha row) = .ok (resultFile code row (sha row)) := by
  rw [artifactPath, rowSha_artifactEntry, rowField_artifactEntry]
  exact resultPath_eq hbatch hrow hsha

theorem sentArtifact_of_stored
    (hrow : row ∈ frozen.candidates) {own : File} {document : JsonMembers}
    (hown : Stored plan.toPlan code sender row own document) (hsha : artifactSha document = sha row)
    {raw : List Char}
    (h : storedArtifact sender plan.toPlan code (artifactEntry sha row) = .ok raw) :
    SentArtifact plan.toPlan code sha sender row ⟨resultFile code row (sha row), raw⟩ := by
  have hhex : Sha256.isHexDigest (sha row) = true := by
    rw [← hsha]
    exact isHexDigest_of_digestText hown.valid.artifact.1
  obtain ⟨path, read, hpath, hfind, hartifact⟩ := storedArtifact_eq_ok.mp h
  rw [artifactPath_artifactEntry hbatch hrow hhex] at hpath
  cases hpath
  have hmem : ⟨resultFile code row (sha row), raw⟩ ∈ globResults sender (resultDir code row) :=
    mem_globResults.mpr ⟨Table.mem_of_find? hfind, rfl, isResultName_resultFile _ _ _⟩
  rw [hown.only, List.mem_singleton] at hmem
  exact ⟨rfl, document, hmem ▸ hown, hsha⟩

theorem builtFrom_of_build {b : Bundle} (h : buildBatchBundle sender plan.toPlan code = .ok b) :
    ∃ results sent, BuiltFrom plan.toPlan code frozen sender results sent b := by
  unfold buildBatchBundle at h
  obtain ⟨manifest, hmanifest, h⟩ := bind_eq_ok.mp h
  rw [unit_bind_eq_ok] at h
  obtain ⟨hverified, h⟩ := h
  obtain ⟨header, hheader, h⟩ := bind_eq_ok.mp h
  obtain ⟨raws, hraws, h⟩ := bind_eq_ok.mp h
  obtain ⟨path, -, h⟩ := bind_eq_ok.mp h
  cases h
  obtain ⟨documents, gitSha, runnerInputSha256, hall, -, rfl⟩ :=
    (buildBatchManifest_eq_ok hbatch).mp hmanifest
  rw [manifestRows_batchManifest] at hraws
  obtain ⟨hstored, hsize⟩ := bundleArtifacts_eq_ok.mp hraws
  rw [List.map_eq_nil_iff, or_iff_right (candidates_ne_nil hbatch)] at hsize
  rw [List.forall₂_map_left_iff] at hstored
  -- the artifacts are read where the results are stored
  have hsent : ∀ {rows : List PlanCandidate} {raws : List (List Char)},
      (∀ row ∈ rows, row ∈ frozen.candidates) →
      List.Forall₂ (fun row raw => storedArtifact sender plan.toPlan code
        (artifactEntry (artifactShaIn documents) row) = .ok raw) rows raws →
      ∃ sent : List File, raws = sent.map File.text ∧
        List.Forall₂ (SentArtifact plan.toPlan code (artifactShaIn documents) sender) rows sent := by
    intro rows raws hrows h
    induction h with
    | nil => exact ⟨[], rfl, .nil⟩
    | @cons row raw rows raws hraw _ ih =>
      have hrow := hrows row List.mem_cons_self
      obtain ⟨sent, htexts, hsent⟩ := ih fun r hr => hrows r (List.mem_cons_of_mem _ hr)
      obtain ⟨document, -, file, hfile⟩ := hall.mem_left hrow
      have hsha := artifactShaIn_eq hbatch hall hrow hfile
      refine ⟨⟨resultFile code row (artifactShaIn documents row), raw⟩ :: sent, ?_,
        .cons (sentArtifact_of_stored hbatch hrow hfile hsha.symm hraw) hsent⟩
      rw [List.map_cons, htexts]
  obtain ⟨sent, htexts, hsent⟩ := hsent (fun _ hr => hr) hstored
  refine ⟨_, sent, hmanifest, hverified, hheader, htexts, hsent, ?_, rfl⟩
  rw [Bundle.text, byteLength_append]
  exact hsize

end

end TradingLab.Factory
