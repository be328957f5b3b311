import TradingLab.Factory.BundleIngest

/-!
# A root with every result of a batch

Documents that are valid for the candidates of a batch make a complete root. It
has a manifest when they agree on the code and the input, and a bundle when that
is not too large.
-/

namespace TradingLab.Factory

open List Json

def artifactText (document : JsonMembers) : List Char := (Json.object document).normal.canonical

/-- The file of a candidate's document. -/
def artifactFile (code : String) (document : PlanCandidate → JsonMembers) (row : PlanCandidate) :
    File := ⟨resultFile code row (artifactSha (document row)), artifactText (document row)⟩

/-- Valid documents of all candidates, from the same code, input and node. -/
structure Produced (plan : Plan) (code : String) (rows : List PlanCandidate)
    (document : PlanCandidate → JsonMembers) (git runner node : String) : Prop where
  held : ∀ row ∈ rows, (document row).Held
  valid : ∀ row ∈ rows,
    ValidDocument plan code row.expected (artifactText (document row)) (document row)
  gitSha : ∀ row ∈ rows, textField (document row) "git_sha" = git
  runnerInputSha256 : ∀ row ∈ rows, textField (document row) "runner_input_sha256" = runner
  nodeId : ∀ row ∈ rows, textField (document row) "producer_node_id" = node
  forms : isGitSha git = true ∧ Sha256.isHexDigest runner = true ∧ isNode node = true

theorem nodup_resultFiles {plan : Plan} {code : String} {frozen : PlanBatch}
    (hbatch : batch plan code = .ok frozen) (sha : PlanCandidate → String) :
    (frozen.candidates.map fun row => resultFile code row (sha row)).Nodup := by
  apply Nodup.of_map fun path : List String => path.getD 2 ""
  rw [map_map]
  exact nodup_candidateIds hbatch

/-- The root that holds exactly these documents. -/
def rootOf {plan : Plan} {code : String} {frozen : PlanBatch} (hbatch : batch plan code = .ok frozen)
    (document : PlanCandidate → JsonMembers) : Files where
  rows := frozen.candidates.map (artifactFile code document)
  nodup := by
    rw [List.map_map]
    exact nodup_resultFiles hbatch _

/-- What the manifest says of the documents. -/
def producedResults (rows : List PlanCandidate) (document : PlanCandidate → JsonMembers)
    (git runner : String) : BatchResults where
  gitSha := git
  runnerInputSha256 := runner
  nodes := sortedSet ((rows.map document).map (textField · "producer_node_id"))
  artifactSha := artifactShaIn (rows.map document)

section
variable {plan : FrozenPlan} {code : String} {frozen : PlanBatch}
    (hbatch : batch plan.toPlan code = .ok frozen) {document : PlanCandidate → JsonMembers}
    {git runner node : String}
    (h : Produced plan.toPlan code frozen.candidates document git runner node)
include hbatch h

theorem stored_rootOf {row : PlanCandidate} (hrow : row ∈ frozen.candidates) :
    Stored plan.toPlan code (rootOf hbatch document) row (artifactFile code document row)
      (document row) where
  only := by
    apply globResults_eq_singleton
    intro f
    rw [mem_globResults]
    constructor
    · intro hf
      obtain ⟨hmem, hdir, -⟩ := hf
      obtain ⟨own, hown, rfl⟩ := mem_map.mp hmem
      have hdir : resultDir code own = resultDir code row := hdir
      unfold resultDir at hdir
      injection hdir with _ hdir
      injection hdir with _ hdir
      injection hdir with hid
      rw [inj_on_of_nodup_map (nodup_candidateIds hbatch) hown hrow hid]
    · rintro rfl
      exact ⟨mem_map_of_mem hrow, rfl, isResultName_resultFile code row _⟩
  read := readMapping_canonical (h.held row hrow) (h.valid row hrow).text
  valid := h.valid row hrow

theorem storedAll_rootOf : StoredAll plan.toPlan code (rootOf hbatch document) frozen.candidates
    (frozen.candidates.map document) := by
  rw [StoredAll, forall₂_map_right_iff, forall₂_same]
  exact fun row hrow => ⟨_, stored_rootOf hbatch h hrow⟩

theorem buildBatchManifest_rootOf : buildBatchManifest (rootOf hbatch document) plan.toPlan code =
    .ok (batchManifest plan.toPlan frozen
      (producedResults frozen.candidates document git runner)) := by
  apply (buildBatchManifest_eq_ok hbatch).mpr
  refine ⟨_, git, runner, storedAll_rootOf hbatch h, ?_, rfl⟩
  intro row hrow file read hstored
  have hsame := hstored.unique (stored_rootOf hbatch h hrow)
  subst hsame
  exact ⟨h.gitSha row hrow, h.runnerInputSha256 row hrow⟩

theorem artifactSha_produced {row : PlanCandidate} (hrow : row ∈ frozen.candidates) :
    (producedResults frozen.candidates document git runner).artifactSha row =
      artifactSha (document row) :=
  artifactShaIn_eq hbatch (storedAll_rootOf hbatch h) hrow (stored_rootOf hbatch h hrow)

theorem nodes_produced :
    sortedSet ((frozen.candidates.map document).map (textField · "producer_node_id")) = [node] := by
  rw [sortedSet_eq_singleton]
  constructor
  · rw [ne_eq, map_eq_nil_iff, map_eq_nil_iff]
    exact candidates_ne_nil hbatch
  · intro n hn
    obtain ⟨read, hread, rfl⟩ := mem_map.mp hn
    obtain ⟨row, hrow, rfl⟩ := mem_map.mp hread
    exact h.nodeId row hrow

/-- The manifest of produced documents is well formed. -/
theorem validManifest_produced : ValidManifest plan.toPlan (batchManifest plan.toPlan frozen
    (producedResults frozen.candidates document git runner)) := by
  -- outside the batch no digest is listed, and any other digest does as well
  let results : BatchResults := {
    producedResults frozen.candidates document git runner with
    artifactSha := fun row =>
      if row ∈ frozen.candidates then artifactSha (document row) else Sha256.hexDigest [] }
  have hsame : batchManifest plan.toPlan frozen
      (producedResults frozen.candidates document git runner) =
        batchManifest plan.toPlan frozen results := by
    have hrows : frozen.candidates.map
        (artifactEntry (producedResults frozen.candidates document git runner).artifactSha) =
          frozen.candidates.map (artifactEntry results.artifactSha) := by
      apply map_congr_left
      intro row hrow
      have hsha : results.artifactSha row = artifactSha (document row) := if_pos hrow
      rw [artifactEntry, artifactEntry, hsha, artifactSha_produced hbatch h hrow]
    unfold batchManifest manifestBase
    rw [hrows]
  have hnodes := nodes_produced hbatch h
  obtain ⟨hgit, hrunner, hnode⟩ := h.forms
  have hvalid : results.Valid := by
    refine ⟨hgit, hrunner, ?_, ?_, strictlySorted_sortedSet _, fun row => ?_⟩
    · change sortedSet _ ≠ []
      rw [hnodes]
      exact cons_ne_nil _ _
    · change (sortedSet _).all isNode = true
      rw [hnodes, all_cons, hnode]
      rfl
    · change Sha256.isHexDigest (if row ∈ frozen.candidates then _ else _) = true
      split
      · rename_i hrow
        exact isHexDigest_of_digestText (h.valid row hrow).artifact.1
      · exact Sha256.isHexDigest_hexDigest _
  rw [hsame]
  have hcode := (batch_eq hbatch).2
  exact validate_batchManifest (by rw [hcode]; exact hbatch) (batch_counted hbatch).1 hvalid

theorem verifyBatchManifest_rootOf : verifyBatchManifest (rootOf hbatch document) plan.toPlan
    (batchManifest plan.toPlan frozen
      (producedResults frozen.candidates document git runner)) = .ok () := by
  have hcode : textField (batchManifest plan.toPlan frozen
      (producedResults frozen.candidates document git runner)) "batch_code" = code := by
    rw [textField, batchCode_batchManifest, (batch_eq hbatch).2]
    rfl
  have hvalid := validManifest_produced hbatch h
  unfold ValidManifest at hvalid
  unfold verifyBatchManifest
  rw [hvalid, ok_bind, hcode, buildBatchManifest_rootOf hbatch h, ok_bind]
  apply raiseIf_neg
  rw [Bool.not_eq_false]
  apply same_self
  exact membersHaveNonFinite_insert rfl _ (hasNonFinite_manifestBase _ _ _)

theorem storedArtifact_rootOf {row : PlanCandidate} (hrow : row ∈ frozen.candidates) :
    storedArtifact (rootOf hbatch document) plan.toPlan code
      (artifactEntry (producedResults frozen.candidates document git runner).artifactSha row) =
        .ok (artifactText (document row)) := by
  have hsha := artifactSha_produced hbatch h hrow
  have hstored := stored_rootOf hbatch h hrow
  apply storedArtifact_eq_ok.mpr
  refine ⟨resultFile code row (artifactSha (document row)), document row, ?_, ?_, ?_, ?_, ?_⟩
  · rw [artifactPath_artifactEntry hbatch hrow, hsha]
    rw [hsha]
    exact isHexDigest_of_digestText hstored.valid.artifact.1
  · have hmem : artifactFile code document row ∈ (rootOf hbatch document).rows :=
      mem_map_of_mem hrow
    exact Table.find?_of_mem hmem
  · exact hstored.read
  · rw [rowExpected_artifactEntry]
    exact hstored.valid
  · rw [rowSha_artifactEntry, hsha]

/-- The header of the bundle. -/
def producedHeader (plan : Plan) (code : String) (frozen : PlanBatch)
    (document : PlanCandidate → JsonMembers) (git runner : String) : JsonMembers :=
  bundleHeader plan code
    (batchManifest plan frozen (producedResults frozen.candidates document git runner))

omit h in
theorem canonicalText_producedHeader (document : PlanCandidate → JsonMembers) (git runner : String) :
    canonicalText (.object (producedHeader plan.toPlan code frozen document git runner)) =
      .ok (Json.object (producedHeader plan.toPlan code frozen document git runner)).normal.canonical := by
  have hcount : (int frozen.candidates.length).hasLongInteger = false := by
    apply hasLongInteger_int
    have hlength := length_candidates_le hbatch
    have hlt : expectedExecutableCount < 10 ^ 4 := by decide
    have hle : 10 ^ 4 ≤ 10 ^ Json.maxIntDigits := Nat.pow_le_pow_right (by decide) (by decide)
    omega
  have hnodes : ∀ names : List String, (list (names.map .str)).hasLongInteger = false := by
    intro names
    apply hasLongInteger_list
    intro v hv
    obtain ⟨name, -, rfl⟩ := mem_map.mp hv
    rfl
  have hartifacts : ∀ sha : PlanCandidate → String,
      (list (frozen.candidates.map (artifactEntry sha))).hasLongInteger = false := by
    intro sha
    apply hasLongInteger_list
    intro v hv
    obtain ⟨row, -, rfl⟩ := mem_map.mp hv
    change membersHaveLongInteger _ = false
    iterate 3 apply membersHaveLongInteger_insert rfl
    rfl
  apply canonicalText_eq_ok.mpr
  refine ⟨?_, ?_, rfl⟩
  · have hmanifest : (object (batchManifest plan.toPlan frozen
        (producedResults frozen.candidates document git runner))).hasNonFinite = false :=
      membersHaveNonFinite_insert rfl _ (hasNonFinite_manifestBase _ _ _)
    change membersHaveNonFinite (bundleHeader _ _ _) = false
    unfold bundleHeader
    rw [candidateCount_batchManifest]
    apply membersHaveNonFinite_insert hmanifest
    iterate 5 apply membersHaveNonFinite_insert rfl
    rfl
  · have hmanifest : (object (batchManifest plan.toPlan frozen
        (producedResults frozen.candidates document git runner))).hasLongInteger = false := by
      change membersHaveLongInteger (batchManifest _ _ _) = false
      unfold batchManifest manifestBase
      apply membersHaveLongInteger_insert rfl
      apply membersHaveLongInteger_insert (hartifacts _)
      apply membersHaveLongInteger_insert (hnodes _)
      iterate 2 apply membersHaveLongInteger_insert rfl
      apply membersHaveLongInteger_insert hcount
      iterate 5 apply membersHaveLongInteger_insert rfl
      rfl
    change membersHaveLongInteger (bundleHeader _ _ _) = false
    unfold bundleHeader
    rw [candidateCount_batchManifest]
    apply membersHaveLongInteger_insert hmanifest
    apply membersHaveLongInteger_insert rfl
    apply membersHaveLongInteger_insert hcount
    iterate 3 apply membersHaveLongInteger_insert rfl
    rfl

/-- A complete root has a bundle when that is not too large. -/
theorem buildBatchBundle_rootOf
    (hsize : byteLength (Json.object
        (producedHeader plan.toPlan code frozen document git runner)).normal.canonical +
      (frozen.candidates.map fun row => byteLength (artifactText (document row))).sum ≤
        maxBundleBytes) :
    ∃ b, buildBatchBundle (rootOf hbatch document) plan.toPlan code = .ok b ∧
      b.header = (Json.object
        (producedHeader plan.toPlan code frozen document git runner)).normal.canonical ∧
      b.artifacts = frozen.candidates.map fun row => artifactText (document row) := by
  have hvalid := validManifest_produced hbatch h
  have hheader := canonicalText_producedHeader hbatch document git runner
  unfold producedHeader at hheader
  have hartifacts : bundleArtifacts (rootOf hbatch document) plan.toPlan code
      (byteLength (object
        (producedHeader plan.toPlan code frozen document git runner)).normal.canonical)
      (manifestRows (batchManifest plan.toPlan frozen
        (producedResults frozen.candidates document git runner))) =
        .ok (frozen.candidates.map fun row => artifactText (document row)) := by
    rw [manifestRows_batchManifest]
    apply bundleArtifacts_eq_ok.mpr
    constructor
    · rw [forall₂_map_left_iff, forall₂_map_right_iff, forall₂_same]
      exact fun row hrow => storedArtifact_rootOf hbatch h hrow
    · right
      rw [byteLength_flatten, map_map]
      exact hsize
  unfold producedHeader at hartifacts
  unfold buildBatchBundle
  rw [buildBatchManifest_rootOf hbatch h, ok_bind, verifyBatchManifest_rootOf hbatch h, ok_bind,
    hheader, ok_bind, hartifacts, ok_bind]
  dsimp only
  rw [bundlePath_eq hbatch hvalid.sha (Sha256.isHexDigest_hexDigest _), ok_bind]
  exact ⟨_, rfl, rfl, rfl⟩

end

/-- The identity under which a node stores a compact result. -/
def producedIdentity (plan : Plan) (code git runner : String) (result : PlanCandidate → JsonMembers)
    (row : PlanCandidate) : JsonMembers := resultIdentity plan code row git runner (result row)

/-- The documents that a node writes for its compact results. -/
def producedDocument (plan : Plan) (code git runner node : String)
    (result : PlanCandidate → JsonMembers) (row : PlanCandidate) : JsonMembers :=
  resultDocument (producedIdentity plan code git runner result row) node
    (Json.object (producedIdentity plan code git runner result row)).normal.digest

theorem lookup_producedDocument (plan : Plan) (code git runner node : String)
    (result : PlanCandidate → JsonMembers) (row : PlanCandidate) (key : String) :
    (producedDocument plan code git runner node result row).lookup key =
      if key = "result_artifact_sha256" then
        some (.str (Json.object (producedIdentity plan code git runner result row)).normal.digest)
      else if key = "producer_node_id" then some (.str node)
      else (producedIdentity plan code git runner result row).lookup key := by
  rw [producedDocument, resultDocument, JsonMembers.lookup_insert, JsonMembers.lookup_insert]

/-- The documents of compact results are produced. -/
theorem produced_of_projected {plan : FrozenPlan} {code : String} {frozen : PlanBatch}
    (hbatch : batch plan.toPlan code = .ok frozen) {git runner node : String}
    (hgit : isGitSha git = true) (hrunner : Sha256.isHexDigest runner = true)
    (hnode : isNode node = true) {body : PlanCandidate → JsonMembers}
    (hbody : ∀ row ∈ frozen.candidates, (body row).Held ∧ ProjectedBody (body row) ∧
      (body row).lookup "candidate_id" = some (.str row.candidateId) ∧
      (body row).lookup "candidate_spec_sha256" = some (.str row.candidateSpecSha256)) :
    Produced plan.toPlan code frozen.candidates
      (producedDocument plan.toPlan code git runner node fun row => sealResult (body row))
      git runner node where
  held := by
    intro row hrow
    have hheld : (sealResult (body row)).Held := (hbody row hrow).1.insert_str _
    exact ((held_resultIdentity _ _ _ _ _ hheld).insert_str _).insert_str _
  valid := by
    intro row hrow
    obtain ⟨-, hprojected, hid, hspec⟩ := hbody row hrow
    have hchecked := checkedIdentity_of_storage hbatch hrow hnode hgit hrunner
      hprojected.storageResult (by rw [lookup_sealResult, if_neg (by decide), hid])
      (by rw [lookup_sealResult, if_neg (by decide), hspec])
    have hdigest : digestText (.object (producedIdentity plan.toPlan code git runner
        (fun row => sealResult (body row)) row)) = .ok (object (producedIdentity plan.toPlan code
          git runner (fun row => sealResult (body row)) row)).normal.digest := by
      apply digestText_eq_ok.mpr
      refine ⟨?_, ?_, rfl⟩
      · exact finite_resultIdentity _ _ _ _ _
          (membersHaveNonFinite_insert rfl _ hprojected.finite)
      · exact short_resultIdentity _ _ _ _ _
          (membersHaveLongInteger_insert rfl _ hprojected.short)
    obtain ⟨text, hvalid⟩ := validDocument_resultDocument hchecked hdigest
    have htext := (canonicalText_eq_ok.mp hvalid.text).2.2
    rw [htext] at hvalid
    exact hvalid
  gitSha := by
    intro row _
    rw [textField, lookup_producedDocument, if_neg (by decide), if_neg (by decide),
      producedIdentity, lookup_resultIdentity]
    rfl
  runnerInputSha256 := by
    intro row _
    rw [textField, lookup_producedDocument, if_neg (by decide), if_neg (by decide),
      producedIdentity, lookup_resultIdentity]
    rfl
  nodeId := by
    intro row _
    rw [textField, lookup_producedDocument]
    rfl
  forms := ⟨hgit, hrunner, hnode⟩

end TradingLab.Factory
