import TradingLab.Factory.BundleRoundTrip

/-!
# Taking in a bundle

The files of a batch decide its manifest, so a receiver that has written what the
sender had stored reconciles to the same manifest.
-/

namespace TradingLab.Factory

open List Json

theorem globResults_eq_singleton {files : Files} {directory : List String} {file : File}
    (h : ∀ f, f ∈ globResults files directory ↔ f = file) : globResults files directory = [file] := by
  have hrows : files.rows.Nodup := Nodup.of_map _ files.nodup
  have hnodup : (globResults files directory).Nodup :=
    (perm_insertionSort _ _).nodup_iff.mpr (hrows.filter _)
  apply perm_singleton.mp
  rw [perm_ext_iff_of_nodup hnodup (nodup_singleton _)]
  intro f
  rw [h, mem_singleton]

section
variable {plan : FrozenPlan} {code : String} {frozen : PlanBatch}
    (hbatch : batch plan.toPlan code = .ok frozen) {files other : Files}
include hbatch

theorem completeResults_congr {rows : List PlanCandidate} (hrows : ∀ row ∈ rows, row ∈ frozen.candidates)
    (h : ∀ row ∈ rows, globResults files (resultDir code row) = globResults other (resultDir code row)) :
    completeResults files plan.toPlan code rows = completeResults other plan.toPlan code rows := by
  induction rows with
  | nil => rfl
  | cons row rows ih =>
    have hread : readCandidateResult files plan.toPlan code row =
        readCandidateResult other plan.toPlan code row := by
      have hglob := h row mem_cons_self
      unfold resultDir at hglob
      unfold readCandidateResult
      rw [candidateResultDir_eq hbatch (hrows row mem_cons_self), ok_bind, ok_bind, hglob]
    rw [completeResults, completeResults, hread,
      ih (fun r hr => hrows r (mem_cons_of_mem _ hr)) fun r hr => h r (mem_cons_of_mem _ hr)]

theorem buildBatchManifest_congr (h : ∀ row ∈ frozen.candidates,
    globResults files (resultDir code row) = globResults other (resultDir code row)) :
    buildBatchManifest files plan.toPlan code = buildBatchManifest other plan.toPlan code := by
  unfold buildBatchManifest
  rw [hbatch, ok_bind, ok_bind, completeResults_congr hbatch (fun _ hr => hr) h]

theorem verifyBatchManifest_congr {manifest : JsonMembers}
    (hcode : textField manifest "batch_code" = code) (h : ∀ row ∈ frozen.candidates,
      globResults files (resultDir code row) = globResults other (resultDir code row)) :
    verifyBatchManifest files plan.toPlan manifest = verifyBatchManifest other plan.toPlan manifest := by
  unfold verifyBatchManifest
  rw [hcode, buildBatchManifest_congr hbatch h]

end

/-- Files that are new are written as they are. -/
theorem performAll_new (plan : Plan) {files : List File} {s : Site}
    (hnew : ∀ f ∈ files, s.results.find? f.path = none) (hnodup : (files.map File.path).Nodup) :
    ∃ results, (performAll plan (writeSteps files)).call s = (.ok (), { s with results := results }) ∧
      ∀ file, file ∈ results.rows ↔ file ∈ s.results.rows ∨ file ∈ files := by
  induction files generalizing s with
  | nil => exact ⟨s.results, rfl, fun file => by simp⟩
  | cons f fs ih =>
    rw [map_cons, nodup_cons] at hnodup
    have hfirst : ((IngestStep.write f.path f.text).perform plan).call s =
        (.ok (), { s with results := s.results.put f }) :=
      call_write_of_none f.text (hnew f mem_cons_self)
    have hrest : ∀ g ∈ fs, (s.results.put f).find? g.path = none := by
      intro g hg
      have hne : f.path ≠ g.path := fun heq => hnodup.1 (heq ▸ mem_map_of_mem hg)
      exact (Table.find?_put_ne hne).trans (hnew g (mem_cons_of_mem _ hg))
    obtain ⟨results, hcall, hmem⟩ := ih (s := { s with results := s.results.put f }) hrest hnodup.2
    refine ⟨results, ?_, fun file => ?_⟩
    · exact performAll_cons_eq_ok.mpr ⟨_, hfirst, hcall⟩
    · rw [hmem, Table.rows_put_of_find?_none (hnew f mem_cons_self), mem_append,
        mem_singleton, mem_cons, or_assoc]

variable {manifestSha bundleSha : String}

theorem bundlePath_eq {plan : Plan} {code : String} {frozen : PlanBatch}
    (hbatch : batch plan code = .ok frozen)
    (hm : Sha256.isHexDigest manifestSha = true) (hb : Sha256.isHexDigest bundleSha = true) :
    safePath ("bundles/" ++ code ++ "/bundle-" ++ manifestSha ++ "-" ++ bundleSha ++ ".jsonl") =
      .ok ["bundles", code, "bundle-" ++ manifestSha ++ "-" ++ bundleSha ++ ".jsonl"] := by
  obtain ⟨index, hindex⟩ := plainPart_code hbatch
  have hplain : ∀ p ∈ ["bundles".toList, code.toList,
      "bundle-".toList ++ (manifestSha.toList ++ '-' :: bundleSha.toList) ++ ".jsonl".toList],
      PlainPart p := by
    intro p hp
    fin_cases hp
    · exact ⟨by decide, by decide, by decide, by decide⟩
    · rw [hindex]
      exact plainPart_batchCode index
    · exact plainPart_bundleName hm hb
  exact safePath_names hplain (by simp [joinSlash]) (by simp)

theorem receiptPath_eq {plan : Plan} {code : String} {frozen : PlanBatch}
    (hbatch : batch plan code = .ok frozen)
    (hm : Sha256.isHexDigest manifestSha = true) (hb : Sha256.isHexDigest bundleSha = true) :
    receiptPath code manifestSha bundleSha =
      .ok ["receipts", code, "receipt-" ++ manifestSha ++ "-" ++ bundleSha ++ ".json"] := by
  obtain ⟨index, hindex⟩ := plainPart_code hbatch
  have hplain : ∀ p ∈ ["receipts".toList, code.toList,
      "receipt-".toList ++ (manifestSha.toList ++ '-' :: bundleSha.toList) ++ ".json".toList],
      PlainPart p := by
    intro p hp
    fin_cases hp
    · exact plainPart_receipts
    · rw [hindex]
      exact plainPart_batchCode index
    · exact plainPart_receiptName hm hb
  exact safePath_names hplain (by simp [joinSlash]) (by simp)

/-- A receipt of a short count and a bounded size is written. -/
theorem receiptStep_eq {plan : Plan} {frozen : PlanBatch} {receipt : Receipt}
    (hbatch : batch plan receipt.batchCode = .ok frozen)
    (hm : Sha256.isHexDigest receipt.manifestSha256 = true)
    (hb : Sha256.isHexDigest receipt.bundleSha256 = true)
    (hfinite : receipt.candidateCount.hasNonFinite = false)
    (hshort : receipt.candidateCount.hasLongInteger = false)
    (hsize : receipt.bundleBytes ≤ maxBundleBytes) :
    ∃ text, canonicalText receipt.toDict = .ok text ∧ receiptStep receipt =
      .write ["receipts", receipt.batchCode, "receipt-" ++ receipt.manifestSha256 ++ "-" ++
        receipt.bundleSha256 ++ ".json"] text := by
  have hbytes : (int receipt.bundleBytes).hasLongInteger = false := by
    apply hasLongInteger_int
    have hlt : maxBundleBytes < 10 ^ 10 := by decide
    have hle : 10 ^ 10 ≤ 10 ^ Json.maxIntDigits := Nat.pow_le_pow_right (by decide) (by decide)
    omega
  have htext : canonicalText receipt.toDict = .ok receipt.toDict.normal.canonical := by
    apply canonicalText_eq_ok.mpr
    refine ⟨?_, ?_, rfl⟩
    · change membersHaveNonFinite _ = false
      iterate 3 apply membersHaveNonFinite_insert rfl
      apply membersHaveNonFinite_insert hfinite
      iterate 5 apply membersHaveNonFinite_insert rfl
      rfl
    · change membersHaveLongInteger _ = false
      apply membersHaveLongInteger_insert rfl
      apply membersHaveLongInteger_insert hbytes
      apply membersHaveLongInteger_insert rfl
      apply membersHaveLongInteger_insert hshort
      iterate 5 apply membersHaveLongInteger_insert rfl
      rfl
  refine ⟨_, htext, ?_⟩
  rw [receiptStep, receiptPath_eq hbatch hm hb, htext]

theorem bound_initialized (plan : Plan) (start : ℤ) : Bound plan (initialized plan start) :=
  (corresponds_seeded plan Table.empty 0 start).bound

theorem ingestRefusal_initialized {plan : Plan} {code : String} (hcode : code ∈ plan.codes)
    (start : ℤ) (sha : String) :
    ingestRefusal sha ((initialized plan start).batch? code) = none := by
  have hsome := (bound_initialized plan start).isSome_batch?.mpr hcode
  obtain ⟨row, hrow⟩ := Option.isSome_iff_exists.mp hsome
  have hmem : row ∈ (initialized plan start).batches.rows := Table.mem_of_find? hrow
  rw [rows_initialized] at hmem
  obtain ⟨item, -, rfl⟩ := mem_map.mp hmem
  rw [hrow]
  simp [ingestRefusal, initRow]

section
variable {plan : FrozenPlan} {code : String} {frozen : PlanBatch}
    (hbatch : batch plan.toPlan code = .ok frozen) {sha : PlanCandidate → String} {sender : Files}
include hbatch

variable {row : PlanCandidate} {file : File}

theorem receivedFile_of_sent (hrow : row ∈ frozen.candidates)
    (h : SentArtifact plan.toPlan code sha sender row file)
    (hsize : byteLength file.text ≤ maxArtifactLineBytes) :
    ReceivedFile plan.toPlan code (artifactEntry sha row) file := by
  obtain ⟨document, hstored, hsha⟩ := h.stored
  have hhex : Sha256.isHexDigest (sha row) = true := by
    rw [← hsha]
    exact isHexDigest_of_digestText hstored.valid.artifact.1
  refine ⟨receivedArtifact_eq_ok.mpr ⟨hsize, ?_, document, hstored.read, ?_, ?_⟩,
    isLine_of_canonicalText hstored.valid.text⟩
  · rw [h.path]
    exact artifactPath_artifactEntry hbatch hrow hhex
  · rw [rowExpected_artifactEntry]
    exact hstored.valid
  · rw [rowSha_artifactEntry]
    exact hsha

variable {rows : List PlanCandidate} {sent : List File}

theorem receivedFiles_of_sent (hrows : ∀ row ∈ rows, row ∈ frozen.candidates)
    (h : List.Forall₂ (SentArtifact plan.toPlan code sha sender) rows sent)
    (hsize : ∀ file ∈ sent, byteLength file.text ≤ maxArtifactLineBytes) :
    List.Forall₂ (ReceivedFile plan.toPlan code) (rows.map (artifactEntry sha)) sent := by
  induction h with
  | nil => exact .nil
  | cons hfile _ ih =>
    exact .cons
      (receivedFile_of_sent hbatch (hrows _ mem_cons_self) hfile (hsize _ mem_cons_self))
      (ih (fun r hr => hrows r (mem_cons_of_mem _ hr))
        fun f hf => hsize f (mem_cons_of_mem _ hf))

omit hbatch in
/-- A line that is too long is refused when its turn comes. -/
theorem refuse_of_long (h : List.Forall₂ (SentArtifact plan.toPlan code sha sender) rows sent)
    {long : File} (hlong : long ∈ sent) (hsize : maxArtifactLineBytes < byteLength long.text)
    (finish : List Char → List IngestStep) (rest : List Char) :
    ∃ e, .refuse e ∈ artifactSteps plan.toPlan code finish (rows.map (artifactEntry sha))
      ((sent.map File.text).flatten ++ rest) := by
  induction h with
  | nil => cases hlong
  | @cons row file rows sent hfile _ ih =>
    obtain ⟨document, hstored, -⟩ := hfile.stored
    rw [map_cons, map_cons, flatten_cons, append_assoc, artifactSteps,
      readLine_append (isLine_of_canonicalText hstored.valid.text)]
    dsimp only
    rcases mem_cons.mp hlong with rfl | hlong
    · rw [receivedArtifact_of_long hsize]
      exact ⟨_, mem_cons_self⟩
    · cases receivedArtifact plan.toPlan code (artifactEntry sha row) file.text with
      | error e => exact ⟨e, mem_cons_self⟩
      | ok path =>
        obtain ⟨e, hmem⟩ := ih hlong
        exact ⟨e, mem_cons_of_mem _ hmem⟩

omit hbatch in
theorem sent_of_row
    (h : List.Forall₂ (SentArtifact plan.toPlan code sha sender) rows sent)
    (hrow : row ∈ rows) : ∃ file ∈ sent, SentArtifact plan.toPlan code sha sender row file := by
  induction h with
  | nil => cases hrow
  | cons hfile _ ih =>
    rcases mem_cons.mp hrow with rfl | hrow
    · exact ⟨_, mem_cons_self, hfile⟩
    · obtain ⟨file, hmem, hfile⟩ := ih hrow
      exact ⟨file, mem_cons_of_mem _ hmem, hfile⟩

/-- Two files of one directory are the artifacts of one candidate. -/
theorem sent_unique (hrows : ∀ row ∈ rows, row ∈ frozen.candidates)
    (h : List.Forall₂ (SentArtifact plan.toPlan code sha sender) rows sent)
    (hfile : file ∈ sent) : ∃ row ∈ rows,
      SentArtifact plan.toPlan code sha sender row file ∧ ∀ other ∈ frozen.candidates,
        file.path.dropLast = resultDir code other → other = row := by
  induction h with
  | nil => cases hfile
  | @cons row own rows sent hown _ ih =>
    rcases mem_cons.mp hfile with rfl | hfile
    · refine ⟨row, mem_cons_self, hown, fun other hother hdir => ?_⟩
      rw [hown.path, resultFile_dropLast] at hdir
      unfold resultDir at hdir
      injection hdir with _ hdir
      injection hdir with _ hdir
      injection hdir with hid
      exact inj_on_of_nodup_map (nodup_candidateIds hbatch) hother
        (hrows row mem_cons_self) hid.symm
    · obtain ⟨own, hmem, hsent, hunique⟩ := ih (fun r hr => hrows r (mem_cons_of_mem _ hr)) hfile
      exact ⟨own, mem_cons_of_mem _ hmem, hsent, hunique⟩

end

section
variable {plan : FrozenPlan} {code : String} {frozen : PlanBatch}
    (hbatch : batch plan.toPlan code = .ok frozen) {sha : PlanCandidate → String} {sender : Files}
    {sent : List File}
    (hsent : List.Forall₂ (SentArtifact plan.toPlan code sha sender) frozen.candidates sent)
include hbatch hsent

theorem mem_sent_iff {file : File} : file ∈ sent ↔
    ∃ row ∈ frozen.candidates, file ∈ globResults sender (resultDir code row) := by
  constructor
  · intro h
    obtain ⟨row, hrow, hfile, -⟩ := sent_unique hbatch (fun _ hr => hr) hsent h
    obtain ⟨document, hstored, -⟩ := hfile.stored
    refine ⟨row, hrow, ?_⟩
    rw [hstored.only]
    exact mem_cons_self
  · intro h
    obtain ⟨row, hrow, hmem⟩ := h
    obtain ⟨own, hown, hfile⟩ := sent_of_row hsent hrow
    obtain ⟨document, hstored, -⟩ := hfile.stored
    rw [hstored.only, mem_singleton] at hmem
    rw [hmem]
    exact hown

theorem nodup_sent : (sent.map File.path).Nodup := by
  have hpaths : ∀ {rows : List PlanCandidate} {sent : List File},
      Forall₂ (SentArtifact plan.toPlan code sha sender) rows sent →
      (sent.map File.path).map (fun path => path.getD 2 "") = rows.map PlanCandidate.candidateId := by
    intro rows sent h
    induction h with
    | nil => rfl
    | cons hfile _ ih =>
      rw [map_cons, map_cons, map_cons, ih, hfile.path]
      rfl
  apply Nodup.of_map fun path : List String => path.getD 2 ""
  rw [hpaths hsent]
  exact nodup_candidateIds hbatch

theorem globResults_of_sent {results : Files} (hmem : ∀ file, file ∈ results.rows ↔ file ∈ sent)
    {row : PlanCandidate} (hrow : row ∈ frozen.candidates) :
    globResults results (resultDir code row) = globResults sender (resultDir code row) := by
  obtain ⟨file, hfile, hartifact⟩ := sent_of_row hsent hrow
  obtain ⟨document, hstored, -⟩ := hartifact.stored
  rw [hstored.only]
  apply globResults_eq_singleton
  intro f
  rw [mem_globResults, hmem]
  constructor
  · intro h
    obtain ⟨hf, hdir, -⟩ := h
    obtain ⟨own, -, hown, hunique⟩ := sent_unique hbatch (fun _ hr => hr) hsent hf
    have heq := hunique row hrow hdir
    subst heq
    obtain ⟨other, hother, -⟩ := hown.stored
    have honly := hother.only
    rw [hstored.only] at honly
    exact (singleton_inj.mp honly).symm
  · rintro rfl
    refine ⟨hfile, ?_, ?_⟩
    · rw [hartifact.path]
      rfl
    · rw [hartifact.path]
      exact isResultName_resultFile _ _ _

end

section
variable {plan : FrozenPlan} {code : String} {frozen : PlanBatch}
    (hbatch : batch plan.toPlan code = .ok frozen) {sender : Files} {results : BatchResults}
    {sent : List File} {b : Bundle}
    (hbuilt : BuiltFrom plan.toPlan code frozen sender results sent b)
    {nodeId : String} (hnode : isNode nodeId = true) {declared : Option Declared}
    (hdeclared : ∀ d ∈ declared, d = ⟨code, b.manifestSha256⟩)
include hbatch hbuilt hnode hdeclared

omit hbatch hnode hdeclared in
theorem BuiltFrom.valid : ValidManifest plan.toPlan (batchManifest plan.toPlan frozen results) := by
  have h := hbuilt.verified
  unfold verifyBatchManifest at h
  exact (unit_bind_eq_ok.mp h).1

theorem openBundle_of_built : openBundle plan.toPlan nodeId declared b.text =
    if maxHeaderBytes < byteLength b.header then
      .error (.mcf "SSH batch bundle header exceeds bound")
    else .ok ⟨code, batchManifest plan.toPlan frozen results, b.artifacts.flatten⟩ := by
  have hcode := batchCode_batchManifest plan.toPlan frozen results
  rw [(batch_eq hbatch).2] at hcode
  rw [hbuilt.sha] at hdeclared
  exact openBundle_bundleHeader (held_batchManifest _ _ _) hbuilt.valid hcode
    (manifestSha_batchManifest _ _ _) (candidateCount_batchManifest _ _ _) hdeclared hnode
    hbuilt.header _ hbuilt.size

omit hnode hdeclared in
theorem ingestSteps_of_built
    (hlines : ∀ raw ∈ b.artifacts, byteLength raw ≤ maxArtifactLineBytes) (text : List Char) :
    ingestSteps plan.toPlan nodeId text
        ⟨code, batchManifest plan.toPlan frozen results, b.artifacts.flatten⟩ =
      writeSteps sent ++ [.verify (batchManifest plan.toPlan frozen results),
        .mark (batchManifest plan.toPlan frozen results),
        receiptStep (bundleReceipt plan.toPlan nodeId text
          ⟨code, batchManifest plan.toPlan frozen results, b.artifacts.flatten⟩)] := by
  have hreceived := receivedFiles_of_sent hbatch (fun _ hr => hr) hbuilt.sent fun file hfile =>
    hlines _ (by rw [hbuilt.artifacts]; exact mem_map_of_mem hfile)
  have h := artifactSteps_received hreceived (finishSteps (batchManifest plan.toPlan frozen results)
    (bundleReceipt plan.toPlan nodeId text
      ⟨code, batchManifest plan.toPlan frozen results, b.artifacts.flatten⟩)) []
  rw [append_nil] at h
  unfold ingestSteps
  rw [manifestRows_batchManifest, hbuilt.artifacts]
  rw [hbuilt.artifacts] at h
  rw [h]
  rfl

omit hnode hdeclared in
/-- The receipt of a bundle is one file among the receipts. -/
theorem receiptStep_of_built :
    ∃ file : File, file.path.head? = some "receipts" ∧
      receiptStep (bundleReceipt plan.toPlan nodeId b.text
        ⟨code, batchManifest plan.toPlan frozen results, b.artifacts.flatten⟩) =
          .write file.path file.text := by
  have hcount := candidateCount_batchManifest plan.toPlan frozen results
  have hshort : (int frozen.candidates.length).hasLongInteger = false := by
    have hlong := (canonicalText_eq_ok.mp hbuilt.header).2.1
    have hfield : (bundleHeader plan.toPlan code (batchManifest plan.toPlan frozen results)).lookup
        "candidate_count" = some (.int frozen.candidates.length) := by
      rw [lookup_bundleHeader, hcount]
      rfl
    exact hasLongInteger_of_lookup hlong hfield
  generalize hreceipt : bundleReceipt plan.toPlan nodeId b.text
    ⟨code, batchManifest plan.toPlan frozen results, b.artifacts.flatten⟩ = receipt
  have hreceiptCount : receipt.candidateCount = .int frozen.candidates.length := by
    rw [← hreceipt, bundleReceipt]
    dsimp only
    rw [hcount]
    rfl
  have hcode : receipt.batchCode = code := by
    rw [← hreceipt]
    rfl
  have hsha : Sha256.isHexDigest receipt.manifestSha256 = true := by
    rw [← hreceipt]
    exact hbuilt.valid.sha
  have hbundle : Sha256.isHexDigest receipt.bundleSha256 = true := by
    rw [← hreceipt]
    exact Sha256.isHexDigest_hexDigest _
  have hsize : receipt.bundleBytes ≤ maxBundleBytes := by
    rw [← hreceipt]
    exact hbuilt.size
  obtain ⟨text, -, hstep⟩ := receiptStep_eq (hcode ▸ hbatch) hsha hbundle
    (by rw [hreceiptCount]; rfl) (by rw [hreceiptCount, hshort]) hsize
  exact ⟨⟨_, text⟩, rfl, hstep⟩

/-- The bundle is taken in when no line is too long. -/
theorem ingest_of_short (start now : ℤ) (hheader : byteLength b.header ≤ maxHeaderBytes)
    (hlines : ∀ raw ∈ b.artifacts, byteLength raw ≤ maxArtifactLineBytes) :
    ∃ receipt receiver path text,
      (ingestBatchBundle plan.toPlan nodeId declared b.text).call
          ⟨initialized plan.toPlan start, Table.empty, now⟩ = (.ok receipt, receiver) ∧
        receiptStep receipt = .write path text ∧
        ∀ file, file ∈ receiver.results.rows ↔ file ∈ sent ∨ file = ⟨path, text⟩ := by
  have hopen := openBundle_of_built hbatch hbuilt hnode hdeclared
  rw [if_neg (by omega)] at hopen
  have hsteps := @ingestSteps_of_built _ _ _ hbatch _ _ _ _ hbuilt nodeId hlines b.text
  obtain ⟨receiptFile, hhead, hreceipt⟩ := @receiptStep_of_built _ _ _ hbatch _ _ _ _ hbuilt nodeId
  have hvalid := hbuilt.valid
  have hcode : manifestCode (batchManifest plan.toPlan frozen results) = code := by
    rw [manifestCode, batchCode_batchManifest, ← (batch_eq hbatch).2]
    rfl
  obtain ⟨files, hwrites, hmem⟩ := performAll_new plan.toPlan
    (s := ⟨initialized plan.toPlan start, Table.empty, now⟩) (fun _ _ => rfl)
    (nodup_sent hbatch hbuilt.sent)
  have hfiles : ∀ file, file ∈ files.rows ↔ file ∈ sent := by
    intro file
    rw [hmem]
    exact or_iff_right not_mem_nil
  -- the manifest reconciles to what was written
  have hverify : verifyBatchManifest files plan.toPlan (batchManifest plan.toPlan frozen results) =
      .ok () := by
    rw [verifyBatchManifest_congr hbatch hcode fun row hrow =>
      globResults_of_sent hbatch hbuilt.sent hfiles hrow]
    exact hbuilt.verified
  have hnew : files.find? receiptFile.path = none := by
    rw [Table.find?, find?_eq_none]
    intro file hfile
    obtain ⟨row, -, hartifact, -⟩ :=
      sent_unique hbatch (fun _ hr => hr) hbuilt.sent ((hfiles file).mp hfile)
    rw [hartifact.path, decide_eq_true_eq]
    intro heq
    rw [← heq, resultFile, head?_cons, Option.some_inj] at hhead
    exact absurd hhead (by decide)
  have hfinish := performAll_finish (s := ⟨initialized plan.toPlan start, files, now⟩) hverify
    (bound_initialized plan.toPlan start) hvalid
    (ingestRefusal_initialized hvalid.code start _) hreceipt hnew
  refine ⟨_, Site.ingested ⟨initialized plan.toPlan start, files, now⟩
    (batchManifest plan.toPlan frozen results) receiptFile, receiptFile.path, receiptFile.text, ?_,
    hreceipt, fun file => ?_⟩
  · unfold ingestBatchBundle
    rw [Method.call_check_bind_eq_ok]
    refine ⟨_, hopen, ?_⟩
    rw [Method.call_bind_eq_ok]
    refine ⟨(), _, ?_, rfl⟩
    rw [hsteps, performAll_append hwrites]
    exact hfinish
  · change file ∈ (files.put receiptFile).rows ↔ _
    rw [Table.rows_put_of_find?_none hnew, mem_append, mem_singleton, hfiles]

/-- A line that is too long is refused. -/
theorem short_of_ingest {start : Site} {receipt : Receipt} {receiver : Site}
    (h : (ingestBatchBundle plan.toPlan nodeId declared b.text).call start = (.ok receipt, receiver)) :
    byteLength b.header ≤ maxHeaderBytes ∧
      ∀ raw ∈ b.artifacts, byteLength raw ≤ maxArtifactLineBytes := by
  unfold ingestBatchBundle at h
  rw [Method.call_check_bind_eq_ok] at h
  obtain ⟨opened, hopen, h⟩ := h
  rw [Method.call_bind_eq_ok] at h
  obtain ⟨⟨⟩, t, hsteps, -⟩ := h
  rw [openBundle_of_built hbatch hbuilt hnode hdeclared] at hopen
  split at hopen
  · cases hopen
  · rename_i hheader
    cases hopen
    refine ⟨not_lt.mp hheader, fun raw hraw => ?_⟩
    by_contra hlong
    rw [hbuilt.artifacts] at hraw
    obtain ⟨file, hfile, rfl⟩ := mem_map.mp hraw
    obtain ⟨e, hmem⟩ := refuse_of_long hbuilt.sent hfile (not_le.mp hlong)
      (finishSteps (batchManifest plan.toPlan frozen results) (bundleReceipt plan.toPlan nodeId b.text
        ⟨code, batchManifest plan.toPlan frozen results, b.artifacts.flatten⟩)) []
    rw [append_nil, ← hbuilt.artifacts] at hmem
    apply not_mem_of_performAll hsteps e
    unfold ingestSteps
    rw [manifestRows_batchManifest]
    exact hmem

end

end TradingLab.Factory
