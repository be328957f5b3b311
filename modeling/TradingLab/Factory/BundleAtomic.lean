import TradingLab.Factory.BundleLaw

/-!
# Bundles that are refused

The lines of a bundle are stored one by one, each when it is accepted. A bundle that
is refused for what it holds, at a later line, for what follows the lines or for its
manifest, has left the lines before it in the root. It leaves nothing there exactly
when the root held these artifacts already.
-/

namespace TradingLab.Factory

/-- The artifacts of the lines before the first one that is not accepted. -/
def acceptedFiles (plan : Plan) (code : String) : List Json → List Char → List File
  | [], _ => []
  | row :: rows, text =>
      match receivedArtifact plan code row (readLine text).1 with
      | .error _ => []
      | .ok path => ⟨path, (readLine text).1⟩ :: acceptedFiles plan code rows (readLine text).2

/-- The text after the lines, when all of them are accepted. -/
def afterLines (plan : Plan) (code : String) : List Json → List Char → Except Failure (List Char)
  | [], text => .ok text
  | row :: rows, text =>
      match receivedArtifact plan code row (readLine text).1 with
      | .error e => .error e
      | .ok _ => afterLines plan code rows (readLine text).2

namespace OpenBundle

def accepted (plan : Plan) (bundle : OpenBundle) : List File :=
  acceptedFiles plan bundle.batchCode (manifestRows bundle.manifest) bundle.rest

/-- The lines are those of the manifest, and nothing follows them. -/
def checkLines (plan : Plan) (bundle : OpenBundle) : Except Failure Unit := do
  let rest ← afterLines plan bundle.batchCode (manifestRows bundle.manifest) bundle.rest
  raiseIf (rest ≠ []) (.mcf "SSH batch bundle has unexpected trailing content")

end OpenBundle

theorem artifactSteps_eq (plan : Plan) (code : String) (finish : List Char → List IngestStep)
    (rows : List Json) (text : List Char) : artifactSteps plan code finish rows text =
      writeSteps (acceptedFiles plan code rows text) ++
        match afterLines plan code rows text with
        | .error e => [.refuse e]
        | .ok rest => finish rest := by
  induction rows generalizing text with
  | nil => rfl
  | cons row rows ih =>
    rw [artifactSteps, acceptedFiles, afterLines]
    cases receivedArtifact plan code row (readLine text).1 with
    | error e => rfl
    | ok path =>
      dsimp only
      rw [ih]
      rfl

theorem ingestSteps_eq (plan : Plan) (nodeId : String) (text : List Char) (bundle : OpenBundle) :
    ingestSteps plan nodeId text bundle = writeSteps (bundle.accepted plan) ++
      match bundle.checkLines plan with
      | .error e => [.refuse e]
      | .ok _ => [.verify bundle.manifest, .mark bundle.manifest,
          receiptStep (bundleReceipt plan nodeId text bundle)] := by
  unfold ingestSteps OpenBundle.accepted OpenBundle.checkLines
  rw [artifactSteps_eq]
  cases afterLines plan bundle.batchCode (manifestRows bundle.manifest) bundle.rest with
  | error e => rfl
  | ok rest =>
    rw [ok_bind]
    dsimp only
    unfold finishSteps
    split_ifs with hrest
    · rw [raiseIf_pos hrest]
    · rw [raiseIf_neg hrest]

/-- No file of the root or of the list has the path of another file of the list. -/
def Storable (root : Files) : List File → Prop
  | [] => True
  | f :: files =>
      (∀ g, root.find? f.path = some g → g = f) ∧ Storable (root.put f) files

def storeAll (root : Files) (files : List File) : Files := files.foldl Table.put root

theorem putRows_of_find? {ρ κ : Type} [DecidableEq κ] {key : ρ → κ} {rows : List ρ} {r : ρ}
    (h : rows.find? (fun s => key s = key r) = some r) : Table.putRows key rows r = rows := by
  induction rows with
  | nil => cases h
  | cons s rows ih =>
    rw [List.find?_cons] at h
    rw [Table.putRows]
    by_cases hs : key s = key r
    · simp only [hs, decide_true, Option.some.injEq] at h
      rw [if_pos hs, h]
    · simp only [hs, decide_false] at h
      rw [if_neg hs, ih h]

theorem put_of_find? {ρ κ : Type} [DecidableEq κ] {key : ρ → κ} {t : Table key} {r : ρ}
    (h : t.find? (key r) = some r) : t.put r = t := by
  obtain ⟨rows, hnodup⟩ := t
  unfold Table.put
  congr 1
  exact putRows_of_find? h

theorem call_writeSteps {plan : Plan} {files : List File} {s t : Site} :
    (performAll plan (writeSteps files)).call s = (.ok (), t) ↔
      Storable s.results files ∧ t = { s with results := storeAll s.results files } := by
  induction files generalizing s with
  | nil =>
    change ((.ok (), s) : Except Failure Unit × Site) = _ ↔ _
    simp [Storable, storeAll, eq_comm]
  | cons f files ih =>
    change (performAll plan (.write f.path f.text :: writeSteps files)).call s = _ ↔ _
    rw [performAll_cons_eq_ok]
    have hstep : ∀ u, ((IngestStep.write f.path f.text).perform plan).call s = (.ok (), u) ↔
        (∀ g, s.results.find? f.path = some g → g = f) ∧
          u = { s with results := s.results.put f } := by
      intro u
      rw [call_write]
      cases hfind : s.results.find? f.path with
      | none => simp [eq_comm]
      | some g =>
        have hpath : g.path = f.path := Table.key_of_find? hfind
        dsimp only
        rw [Prod.mk.injEq, raiseIf_eq_ok, not_not]
        constructor
        · rintro ⟨htext, rfl⟩
          have hgf : g = f := by
            cases g
            cases f
            simp_all
          subst hgf
          refine ⟨fun g' hg' => (Option.some_inj.mp hg').symm, ?_⟩
          rw [put_of_find? hfind]
        · rintro ⟨hsame, rfl⟩
          have hgf := hsame g rfl
          subst hgf
          refine ⟨rfl, ?_⟩
          rw [put_of_find? hfind]
    constructor
    · rintro ⟨u, hu, hrest⟩
      obtain ⟨hsame, rfl⟩ := (hstep u).mp hu
      obtain ⟨hstorable, rfl⟩ := ih.mp hrest
      exact ⟨⟨hsame, hstorable⟩, rfl⟩
    · rintro ⟨⟨hsame, hstorable⟩, rfl⟩
      exact ⟨_, (hstep _).mpr ⟨hsame, rfl⟩, ih.mpr ⟨hstorable, rfl⟩⟩

theorem find?_storeAll {plan : Plan} {files : List File} {s : Site}
    (h : Storable s.results files) : ∀ f ∈ files, (storeAll s.results files).find? f.path = some f := by
  induction files generalizing s with
  | nil => exact nofun
  | cons f files ih =>
    have hrest := @ih { s with results := s.results.put f } h.2
    refine List.forall_mem_cons.mpr ⟨?_, hrest⟩
    have hput : (s.results.put f).find? f.path = some f := Table.find?_put_self _ _
    have hthere := @find?_performAll plan { s with results := s.results.put f } _ _
      (writeSteps files) hput
    have hcall : (performAll plan (writeSteps files)).call { s with results := s.results.put f } =
        (.ok (), { s with results := storeAll (s.results.put f) files }) :=
      call_writeSteps.mpr ⟨h.2, rfl⟩
    unfold Method.after at hthere
    rw [hcall] at hthere
    exact hthere

theorem storeAll_of_stored {root : Files} {files : List File}
    (h : ∀ f ∈ files, root.find? f.path = some f) : storeAll root files = root := by
  induction files with
  | nil => rfl
  | cons f files ih =>
    obtain ⟨hfirst, hrest⟩ := List.forall_mem_cons.mp h
    change storeAll (root.put f) files = root
    rw [put_of_find? hfirst, ih hrest]

/-- An ingest raises for what the bundle holds: its header, a line, what follows the lines, or
a manifest to which the files do not reconcile. -/
inductive ContentRefusal (plan : Plan) (nodeId : String) (declared : Option Declared)
    (text : List Char) (s : Site) : Failure → Site → Prop where
  | header {e : Failure} (hopen : openBundle plan nodeId declared text = .error e) :
      ContentRefusal plan nodeId declared text s e s
  | lines {bundle : OpenBundle} {e : Failure} {t : Site}
      (hopen : openBundle plan nodeId declared text = .ok bundle)
      (hstored : (performAll plan (writeSteps (bundle.accepted plan))).call s = (.ok (), t))
      (hlines : bundle.checkLines plan = .error e) :
      ContentRefusal plan nodeId declared text s e t
  | manifest {bundle : OpenBundle} {e : Failure} {t : Site}
      (hopen : openBundle plan nodeId declared text = .ok bundle)
      (hstored : (performAll plan (writeSteps (bundle.accepted plan))).call s = (.ok (), t))
      (hlines : bundle.checkLines plan = .ok ())
      (hverify : verifyBatchManifest t.results plan bundle.manifest = .error e) :
      ContentRefusal plan nodeId declared text s e t

/-- A refusal is how the ingest ends. -/
theorem ContentRefusal.call {plan : Plan} {nodeId : String} {declared : Option Declared}
    {text : List Char} {s t : Site} {e : Failure}
    (h : ContentRefusal plan nodeId declared text s e t) :
    (ingestBatchBundle plan nodeId declared text).call s = (.error e, t) := by
  have hrun : ∀ {bundle : OpenBundle}, openBundle plan nodeId declared text = .ok bundle →
      (performAll plan (ingestSteps plan nodeId text bundle)).call s = (.error e, t) →
      (ingestBatchBundle plan nodeId declared text).call s = (.error e, t) := by
    intro bundle hopen hcall
    unfold ingestBatchBundle
    rw [hopen]
    change (performAll plan (ingestSteps plan nodeId text bundle) >>= fun _ => _ :
      SiteCall Receipt).call s = _
    rw [Method.call_bind, hcall]
  cases h with
  | header hopen =>
    unfold ingestBatchBundle
    rw [hopen]
    rfl
  | lines hopen hstored hlines =>
    refine hrun hopen ?_
    rw [ingestSteps_eq, hlines, performAll_append hstored]
    rfl
  | manifest hopen hstored hlines hverify =>
    refine hrun hopen ?_
    rw [ingestSteps_eq, hlines, performAll_append hstored, performAll_cons]
    have hstep : ∀ m, verifyBatchManifest t.results plan m = .error e →
        ((IngestStep.verify m).perform plan).call t = (.error e, t) := by
      intro m hm
      change (verifyBatchManifest t.results plan m, t) = _
      rw [hm]
    rw [hstep _ hverify]

/-- The lines of the bundle, what follows them or its manifest would be refused. -/
def OpenBundle.Defective (plan : Plan) (bundle : OpenBundle) (root : Files) : Prop :=
  bundle.checkLines plan ≠ .ok () ∨
    verifyBatchManifest (storeAll root (bundle.accepted plan)) plan bundle.manifest ≠ .ok ()

/-- A bundle that is refused for what it holds leaves the files and the coordinator as they were,
exactly when every line before a defect is an artifact that the root holds already. -/
theorem ingest_all_or_nothing (plan : Plan) (nodeId : String) (declared : Option Declared)
    (text : List Char) (s : Site) :
    (∀ e t, ContentRefusal plan nodeId declared text s e t →
        t.results = s.results ∧ t.registry = s.registry) ↔
      ∀ bundle, openBundle plan nodeId declared text = .ok bundle →
        bundle.Defective plan s.results → Storable s.results (bundle.accepted plan) →
        ∀ f ∈ bundle.accepted plan, s.results.find? f.path = some f := by
  constructor
  · intro h bundle hopen hdefect hstorable
    have hstored := @call_writeSteps plan _ s _ |>.mpr ⟨hstorable, rfl⟩
    have hsame : storeAll s.results (bundle.accepted plan) = s.results := by
      cases hlines : bundle.checkLines plan with
      | error e => exact (h e _ (.lines hopen hstored hlines)).1
      | ok u =>
        have hmanifest : ∃ e, verifyBatchManifest (storeAll s.results (bundle.accepted plan)) plan
            bundle.manifest = .error e := by
          rcases hdefect with hbad | hbad
          · exact (hbad hlines).elim
          · cases hverify : verifyBatchManifest (storeAll s.results (bundle.accepted plan)) plan
              bundle.manifest with
            | error e => exact ⟨e, rfl⟩
            | ok u => exact (hbad hverify).elim
        obtain ⟨e, hverify⟩ := hmanifest
        exact (h e _ (.manifest hopen hstored hlines hverify)).1
    have hthere := @find?_storeAll plan _ s hstorable
    rwa [hsame] at hthere
  · intro h e t hrefusal
    have hkept : ∀ {bundle : OpenBundle}, openBundle plan nodeId declared text = .ok bundle →
        (performAll plan (writeSteps (bundle.accepted plan))).call s = (.ok (), t) →
        bundle.Defective plan s.results →
        t.results = s.results ∧ t.registry = s.registry := by
      intro bundle hopen hstored hdefect
      obtain ⟨hstorable, rfl⟩ := call_writeSteps.mp hstored
      have hall := h bundle hopen hdefect hstorable
      exact ⟨storeAll_of_stored hall, rfl⟩
    cases hrefusal with
    | header hopen => exact ⟨rfl, rfl⟩
    | lines hopen hstored hlines =>
      refine hkept hopen hstored (.inl ?_)
      rw [hlines]
      exact nofun
    | manifest hopen hstored hlines hverify =>
      refine hkept hopen hstored (.inr ?_)
      obtain ⟨hstorable, rfl⟩ := call_writeSteps.mp hstored
      rw [hverify]
      exact nofun

theorem lines_received {plan : Plan} {code : String} {rows : List Json} {files : List File}
    (h : List.Forall₂ (ReceivedFile plan code) rows files) (rest : List Char) :
    acceptedFiles plan code rows ((files.map File.text).flatten ++ rest) = files ∧
      afterLines plan code rows ((files.map File.text).flatten ++ rest) = .ok rest := by
  induction h with
  | nil => exact ⟨rfl, rfl⟩
  | @cons row file rows files hfile _ ih =>
    rw [List.map_cons, List.flatten_cons, List.append_assoc, acceptedFiles, afterLines,
      readLine_append hfile.2]
    dsimp only
    rw [hfile.1]
    exact ⟨congrArg (file :: ·) ih.1, ih.2⟩

theorem storable_of_new {root : Files} {files : List File}
    (hnew : ∀ f ∈ files, root.find? f.path = none) (hnodup : (files.map File.path).Nodup) :
    Storable root files := by
  induction files generalizing root with
  | nil => trivial
  | cons f files ih =>
    rw [List.map_cons, List.nodup_cons] at hnodup
    refine ⟨?_, ih ?_ hnodup.2⟩
    · intro g hg
      rw [hnew f List.mem_cons_self] at hg
      cases hg
    · intro g hg
      have hne : f.path ≠ g.path := fun heq => hnodup.1 (heq ▸ List.mem_map_of_mem hg)
      exact (Table.find?_put_ne hne).trans (hnew g (List.mem_cons_of_mem _ hg))

/-- The sample bundle with one more character at its end: all its artifacts are stored. -/
theorem ingest_trailing : ∃ text e t,
    ContentRefusal sampleFrozenPlan.toPlan "NODE-A1" none text
        ⟨initialized sampleFrozenPlan.toPlan 0, Table.empty, 0⟩ e t ∧
      (ingestBatchBundle sampleFrozenPlan.toPlan "NODE-A1" none text).call
        ⟨initialized sampleFrozenPlan.toPlan 0, Table.empty, 0⟩ = (.error e, t) ∧
      t.results.rows ≠ [] := by
  have hnode : isNode "NODE-A1" = true := by decide
  have hlength : "NODE-A1".toList.length ≤ 64 := by decide
  have hfamily : ∀ row, (shortFamily row).toList.length ≤ 5 := by
    intro row
    exact (show "TREND".toList.length ≤ 5 by decide)
  obtain ⟨b, hbuild, hheader, hartifacts⟩ := @buildBatchBundle_sample _ hnode hlength shortFamily (by
    intro row
    have h := hfamily row
    split
    · exact h.trans (by decide)
    · exact h)
  obtain ⟨results, sent, hbuilt⟩ := builtFrom_of_build batch_sample hbuild
  have hshort : ∀ raw ∈ b.artifacts, byteLength raw ≤ 50000 := by
    intro raw hraw
    rw [hartifacts] at hraw
    obtain ⟨row, hrow, rfl⟩ := List.mem_map.mp hraw
    have hdocument := byteLength_sampleDocument hrow hlength shortFamily
    have hchars := byteLength_plainStrChars (shortFamily row)
    have hname := hfamily row
    omega
  have hbytes : byteLength b.artifacts.flatten ≤ 500 * 50000 := by
    have hsum := List.sum_le_card_nsmul (b.artifacts.map byteLength) 50000 (by
      intro n hn
      obtain ⟨raw, hraw, rfl⟩ := List.mem_map.mp hn
      exact hshort raw hraw)
    rwa [List.length_map, hartifacts, List.length_map, length_sampleBatch, ← hartifacts,
      ← byteLength_flatten] at hsum
  have hsize : byteLength (b.header ++ (b.artifacts.flatten ++ ['x'])) ≤ maxBundleBytes := by
    rw [byteLength_append, byteLength_append]
    have hend : byteLength ['x'] = 1 := by decide
    unfold maxBundleBytes
    omega
  have hcode := batchCode_batchManifest sampleFrozenPlan.toPlan sampleBatch results
  rw [(batch_eq batch_sample).2] at hcode
  have hdeclared : ∀ d ∈ (none : Option Declared), d = ⟨"B001", manifestSha
      (batchManifest sampleFrozenPlan.toPlan sampleBatch results)⟩ := nofun
  have hopen := openBundle_bundleHeader (held_batchManifest _ _ _) hbuilt.valid hcode
    (manifestSha_batchManifest _ _ _) (candidateCount_batchManifest _ _ _) hdeclared hnode
    hbuilt.header (b.artifacts.flatten ++ ['x']) hsize
  rw [if_neg (not_lt.mpr (hheader.trans (by decide)))] at hopen
  have hreceived := receivedFiles_of_sent batch_sample (fun _ hr => hr) hbuilt.sent
    fun file hfile => (hshort _ (by
      rw [hbuilt.artifacts]
      exact List.mem_map_of_mem hfile)).trans (by decide)
  obtain ⟨haccepted, hafter⟩ := lines_received hreceived ['x']
  have hrows := manifestRows_batchManifest sampleFrozenPlan.toPlan sampleBatch results
  rw [← hbuilt.artifacts, ← hrows] at haccepted hafter
  have hstorable : Storable Table.empty sent :=
    storable_of_new (fun _ _ => rfl) (nodup_sent batch_sample hbuilt.sent)
  have hstored := @call_writeSteps sampleFrozenPlan.toPlan sent
    ⟨initialized sampleFrozenPlan.toPlan 0, Table.empty, 0⟩ _ |>.mpr ⟨hstorable, rfl⟩
  have hrefusal : ContentRefusal sampleFrozenPlan.toPlan "NODE-A1" none
      (b.header ++ (b.artifacts.flatten ++ ['x']))
      ⟨initialized sampleFrozenPlan.toPlan 0, Table.empty, 0⟩
      (.mcf "SSH batch bundle has unexpected trailing content")
      ⟨initialized sampleFrozenPlan.toPlan 0, storeAll Table.empty sent, 0⟩ := by
    refine .lines hopen ?_ ?_
    · unfold OpenBundle.accepted
      rw [haccepted]
      exact hstored
    · unfold OpenBundle.checkLines
      rw [hafter, ok_bind, raiseIf_pos (by decide)]
  refine ⟨_, _, _, hrefusal, hrefusal.call, ?_⟩
  have hthere := @find?_storeAll sampleFrozenPlan.toPlan sent
    ⟨initialized sampleFrozenPlan.toPlan 0, Table.empty, 0⟩ hstorable
  intro hnil
  have hcount := hbuilt.sent.length_eq
  rw [length_sampleBatch] at hcount
  cases sent with
  | nil => cases hcount
  | cons f files =>
    have hmem := Table.mem_of_find? (hthere f List.mem_cons_self)
    change (storeAll Table.empty (f :: files)).rows = [] at hnil
    rw [hnil] at hmem
    cases hmem

end TradingLab.Factory
