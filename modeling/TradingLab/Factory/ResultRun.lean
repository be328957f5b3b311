import TradingLab.Factory.ResultStore

/-!
# Runs over the result store

From a root without results, whatever calls are made in whatever order, every
candidate has at most one result. A worker that takes the next candidate and
writes its result meets every pending candidate once, and a batch is complete
when all of its results are stored. A complete batch has a manifest when its
results agree on the code and the input they were computed with.
-/

namespace TradingLab.Factory

open List

/-- The candidates without a result file, in the order of the plan. -/
def pendingCandidates (code : String) (rows : List PlanCandidate) (files : Files) :
    List PlanCandidate :=
  rows.filter fun row => (globResults files (resultDir code row)).isEmpty

/-- A root on which the batch has no results and is not paused. -/
structure Fresh (code : String) (rows : List PlanCandidate) (files : Files) : Prop where
  empty : ∀ row ∈ rows, globResults files (resultDir code row) = []
  running : files.find? ["control", code ++ ".pause"] = none

/-- What calls keep from a fresh root on. -/
structure Running (plan : Plan) (code : String) (rows : List PlanCandidate) (files : Files) :
    Prop where
  sound : Sound plan code rows files
  running : files.find? ["control", code ++ ".pause"] = none

variable {rows : List PlanCandidate}

theorem Fresh.running' {plan : Plan} {code : String} {files : Files}
    (h : Fresh code rows files) : Running plan code rows files :=
  ⟨fun row hrow => .inl (h.empty row hrow), h.running⟩

section
variable {plan : FrozenPlan} {code : String} {frozen : PlanBatch}
    (hbatch : batch plan.toPlan code = .ok frozen)
include hbatch

variable {files : Files} {row : PlanCandidate}

theorem Running.outcome {files' : Files} {c : ResultCall}
    (h : Running plan.toPlan code frozen.candidates files)
    (ho : Outcome plan.toPlan code frozen.candidates files c files') :
    Running plan.toPlan code frozen.candidates files' :=
  ⟨h.sound.outcome hbatch ho, (find?_pause_outcome ho).trans h.running⟩

theorem read_eq (h : Sound plan.toPlan code frozen.candidates files)
    (hrow : row ∈ frozen.candidates) :
    ∃ document, readCandidateResult files plan.toPlan code row = .ok document ∧
      document.isNone = (globResults files (resultDir code row)).isEmpty := by
  rcases h row hrow with hempty | ⟨file, document, hstored⟩
  · refine ⟨none, read_of_empty hbatch hrow hempty, ?_⟩
    rw [hempty]
    rfl
  · refine ⟨some document, read_of_stored hbatch hrow hstored, ?_⟩
    rw [hstored.only]
    rfl

theorem completedCandidates_eq (h : Sound plan.toPlan code frozen.candidates files)
    {rows : List PlanCandidate} (hrows : ∀ row ∈ rows, row ∈ frozen.candidates) :
    completedCandidates files plan.toPlan code rows = .ok ((rows.filter fun row =>
      !(globResults files (resultDir code row)).isEmpty).map PlanCandidate.candidateId) := by
  induction rows with
  | nil => rfl
  | cons row rows ih =>
    obtain ⟨document, hread, hnone⟩ := read_eq hbatch h (hrows row mem_cons_self)
    rw [completedCandidates, hread, ok_bind, ih fun r hr => hrows r (mem_cons_of_mem _ hr),
      ok_bind, filter_cons, ← hnone]
    cases document with
    | none => rfl
    | some document => rfl

theorem pauseRequested_eq (h : files.find? ["control", code ++ ".pause"] = none) :
    pauseRequested files plan.toPlan code = .ok false := by
  unfold pauseRequested
  rw [hbatch, ok_bind, pausePath_eq hbatch, ok_bind, h]
  rfl

theorem not_mem_completed (hrow : row ∈ frozen.candidates) :
    decide (row.candidateId ∉ (frozen.candidates.filter fun r =>
        !(globResults files (resultDir code r)).isEmpty).map PlanCandidate.candidateId) =
      (globResults files (resultDir code row)).isEmpty := by
  cases hempty : (globResults files (resultDir code row)).isEmpty with
  | true =>
    apply decide_eq_true
    intro hmem
    obtain ⟨other, hother, hid⟩ := mem_map.mp hmem
    rw [mem_filter, Bool.not_eq_true'] at hother
    rw [inj_on_of_nodup_map (nodup_candidateIds hbatch) hother.1 hrow hid, hempty] at hother
    cases hother.2
  | false =>
    apply decide_eq_false
    rw [not_not]
    exact mem_map.mpr ⟨row, mem_filter.mpr ⟨hrow, by rw [hempty]; rfl⟩, rfl⟩

theorem nextCandidate_eq (h : Running plan.toPlan code frozen.candidates files) :
    nextCandidate files plan.toPlan code =
      .ok (pendingCandidates code frozen.candidates files).head? := by
  have hrows : batchCandidates plan.toPlan code = .ok frozen.candidates := by
    rw [batchCandidates, hbatch]
    rfl
  unfold nextCandidate
  rw [pauseRequested_eq hbatch h.running, ok_bind, if_neg Bool.false_ne_true, hrows, ok_bind,
    completedCandidates_eq hbatch h.sound fun _ hr => hr, ok_bind, pendingCandidates,
    ← head?_filter]
  change Except.ok _ = _
  congr 2
  apply filter_congr
  intro row hrow
  exact not_mem_completed hbatch hrow

/-- A new result takes its candidate off the pending ones. -/
theorem pending_created {rest : List PlanCandidate} {sha : String} {text : List Char}
    (hpending : pendingCandidates code frozen.candidates files = row :: rest) :
    pendingCandidates code frozen.candidates (files.put ⟨resultFile code row sha, text⟩) = rest := by
  have hmem : row ∈ pendingCandidates code frozen.candidates files := by
    rw [hpending]
    exact mem_cons_self
  have hrow := (mem_filter.mp hmem).1
  have hempty : globResults files (resultDir code row) = [] :=
    isEmpty_iff.mp (mem_filter.mp hmem).2
  have hnodup : (row :: rest).Nodup := by
    rw [← hpending]
    exact (Nodup.of_map _ (nodup_candidateIds hbatch)).filter _
  have hfilter : pendingCandidates code frozen.candidates
      (files.put ⟨resultFile code row sha, text⟩) =
        (pendingCandidates code frozen.candidates files).filter (· ≠ row) := by
    unfold pendingCandidates
    rw [filter_filter]
    apply filter_congr
    intro other hother
    by_cases hne : other = row
    · subst hne
      rw [globResults_created_self hempty]
      simp
    · rw [globResults_created hbatch hrow hother hne hempty]
      simp [hne]
  rw [nodup_cons] at hnodup
  rw [hfilter, hpending, filter_cons_of_neg (by simp), filter_eq_self]
  intro other hother
  rw [decide_eq_true_eq]
  rintro rfl
  exact hnodup.1 hother

end

/-- A worker takes the next candidate and writes its result, until there is none. -/
inductive Visits (plan : Plan) (code : String) : Files → List String → Files → Prop where
  | done {files : Files} : nextCandidate files plan code = .ok none → Visits plan code files [] files
  | next {files final : Files} {row : PlanCandidate} {c : ResultCall} {visited : List String} :
      nextCandidate files plan code = .ok (some row) → c.candidateId = row.candidateId →
      (c.write plan code).Returns files →
      Visits plan code ((c.write plan code).after files) visited final →
      Visits plan code files (row.candidateId :: visited) final

section
variable {plan : FrozenPlan} {code : String} {frozen : PlanBatch}
    (hbatch : batch plan.toPlan code = .ok frozen)
include hbatch

variable {files : Files}

/-- A call for a pending candidate that returns creates its result. -/
theorem created_of_returns (h : Sound plan.toPlan code frozen.candidates files)
    {row : PlanCandidate} (hrow : row ∈ frozen.candidates)
    (hempty : globResults files (resultDir code row) = []) {c : ResultCall}
    (hid : c.candidateId = row.candidateId) (hreturns : (c.write plan.toPlan code).Returns files) :
    ∃ sha text, (c.write plan.toPlan code).after files =
      files.put ⟨resultFile code row sha, text⟩ := by
  have hsame : ∀ other ∈ frozen.candidates, other.candidateId = c.candidateId → other = row :=
    fun other hother ho => inj_on_of_nodup_map (nodup_candidateIds hbatch) hother hrow
      (ho.trans hid)
  obtain ⟨written, hwritten⟩ := hreturns
  have ho := outcome hbatch h c
  generalize (c.write plan.toPlan code).after files = files' at ho ⊢
  cases ho with
  | refused _ hcall =>
    rw [hcall] at hwritten
    cases hwritten
  | repeated hother ho hstored =>
    rw [hsame _ hother ho] at hstored
    have honly := hstored.only
    rw [hempty] at honly
    cases honly
  | conflicting hother ho hstored =>
    rw [hsame _ hother ho] at hstored
    have honly := hstored.only
    rw [hempty] at honly
    cases honly
  | created hother ho =>
    rw [hsame _ hother ho]
    exact ⟨_, _, rfl⟩

/-- The worker meets every pending candidate once, in order. -/
theorem visits_pending {final : Files} {visited : List String}
    (hv : Visits plan.toPlan code files visited final)
    (h : Running plan.toPlan code frozen.candidates files) :
    visited = (pendingCandidates code frozen.candidates files).map PlanCandidate.candidateId ∧
      Running plan.toPlan code frozen.candidates final ∧
      nextCandidate final plan.toPlan code = .ok none := by
  induction hv with
  | done hnone =>
    refine ⟨?_, h, hnone⟩
    rw [nextCandidate_eq hbatch h] at hnone
    rw [head?_eq_none_iff.mp (Except.ok.inj hnone)]
    rfl
  | @next files final row c visited hnext hid hreturns _ ih =>
    rw [nextCandidate_eq hbatch h] at hnext
    obtain ⟨rest, hrest⟩ := head?_eq_some_iff.mp (Except.ok.inj hnext)
    have hmem : row ∈ pendingCandidates code frozen.candidates files := by
      rw [hrest]
      exact mem_cons_self
    obtain ⟨hrow, hempty⟩ := mem_filter.mp hmem
    obtain ⟨sha, text, hafter⟩ := created_of_returns hbatch h.sound hrow
      (isEmpty_iff.mp hempty) hid hreturns
    have hrun := h.outcome hbatch (outcome hbatch h.sound c)
    obtain ⟨hvisited, hfinal⟩ := ih hrun
    rw [hafter, pending_created hbatch hrest] at hvisited
    rw [hvisited, hrest, map_cons]
    exact ⟨rfl, hfinal⟩

/-- The stored results are counted one by one. -/
theorem collectResults_eq (h : Sound plan.toPlan code frozen.candidates files)
    {rows : List PlanCandidate} (hrows : ∀ row ∈ rows, row ∈ frozen.candidates)
    (hnodup : (rows.map PlanCandidate.candidateId).Nodup) {progress : Progress}
    (hnew : ∀ row ∈ rows, row.candidateId ∉ progress.complete) :
    ∃ final, collectResults files plan.toPlan code rows progress = .ok final ∧
      final.complete = progress.complete ++ (rows.filter fun row =>
        !(globResults files (resultDir code row)).isEmpty).map PlanCandidate.candidateId := by
  induction rows generalizing progress with
  | nil => exact ⟨progress, rfl, (append_nil _).symm⟩
  | cons row rows ih =>
    have hrow := hrows row mem_cons_self
    rw [map_cons, nodup_cons] at hnodup
    have hrest : ∀ r ∈ rows, r ∈ frozen.candidates := fun r hr => hrows r (mem_cons_of_mem _ hr)
    rw [collectResults]
    rcases h row hrow with hempty | ⟨file, document, hstored⟩
    · obtain ⟨final, hfinal, hcomplete⟩ := ih hrest hnodup.2 fun r hr =>
        hnew r (mem_cons_of_mem _ hr)
      refine ⟨final, ?_, ?_⟩
      · rw [read_of_empty hbatch hrow hempty]
        exact hfinal
      · rw [hcomplete, filter_cons_of_neg (by simp [hempty])]
    · have hid : textField document "candidate_id" = row.candidateId :=
        hstored.valid.textField_candidateId
      have hfresh : ∀ r ∈ rows, r.candidateId ∉ progress.complete ++ [textField document "candidate_id"] := by
        intro r hr hmem
        rw [hid, mem_append, mem_singleton] at hmem
        rcases hmem with hmem | hmem
        · exact hnew r (mem_cons_of_mem _ hr) hmem
        · exact hnodup.1 (hmem ▸ mem_map_of_mem hr)
      let next : Progress := {
        complete := progress.complete ++ [textField document "candidate_id"]
        nodes := progress.nodes ++ [textField document "producer_node_id"]
        gitShas := progress.gitShas ++ [textField document "git_sha"]
        runnerInputSha256s :=
          progress.runnerInputSha256s ++ [textField document "runner_input_sha256"] }
      have hnext : ∀ r ∈ rows, r.candidateId ∉ next.complete := hfresh
      obtain ⟨final, hfinal, hcomplete⟩ := ih hrest hnodup.2 hnext
      refine ⟨final, ?_, ?_⟩
      · rw [read_of_stored hbatch hrow hstored, ok_bind]
        dsimp only
        rw [raiseIf_neg, ok_bind]
        · exact hfinal
        · rw [hid]
          exact hnew row mem_cons_self
      · rw [hcomplete, filter_cons_of_pos (by simp [hstored.only])]
        change (progress.complete ++ [textField document "candidate_id"]) ++ _ = _
        rw [hid, append_assoc]
        rfl

/-- A batch is complete when no candidate is pending. -/
theorem status_eq (h : Running plan.toPlan code frozen.candidates files) :
    ∃ s, status files plan.toPlan code = .ok s ∧
      (s.status = "COMPLETE" ↔ pendingCandidates code frozen.candidates files = []) := by
  have hrows : batchCandidates plan.toPlan code = .ok frozen.candidates := by
    rw [batchCandidates, hbatch]
    rfl
  have hnew : ∀ r ∈ frozen.candidates,
      r.candidateId ∉ (⟨[], [], [], []⟩ : Progress).complete := fun _ _ => not_mem_nil
  obtain ⟨final, hfinal, hcomplete⟩ := collectResults_eq hbatch h.sound (fun _ hr => hr)
    (nodup_candidateIds hbatch) hnew
  have hpending : (frozen.candidates.map PlanCandidate.candidateId).filter (· ∉ final.complete) =
      (pendingCandidates code frozen.candidates files).map PlanCandidate.candidateId := by
    rw [hcomplete, nil_append, filter_map, pendingCandidates]
    congr 1
    apply filter_congr
    intro row hrow
    exact not_mem_completed hbatch hrow
  unfold status
  rw [hrows, ok_bind, hfinal, ok_bind]
  dsimp only
  rw [hpending, pauseRequested_eq hbatch h.running, ok_bind]
  refine ⟨_, rfl, ?_⟩
  dsimp only
  split
  · rename_i hnone
    exact ⟨fun _ => map_eq_nil_iff.mp hnone, fun _ => rfl⟩
  · rename_i hsome
    rw [if_neg Bool.false_ne_true]
    constructor
    · intro hstatus
      exact absurd hstatus (by decide)
    · intro hnone
      exact (hsome (map_eq_nil_iff.mpr hnone)).elim

end

theorem sortedSet_eq_singleton {names : List String} {name : String} :
    sortedSet names = [name] ↔ names ≠ [] ∧ ∀ n ∈ names, n = name := by
  have hmem : ∀ n, n ∈ sortedSet names ↔ n ∈ names := by
    intro n
    rw [sortedSet, mem_insertionSort, mem_dedup]
  have hnodup : (sortedSet names).Nodup :=
    (perm_insertionSort _ _).nodup_iff.mpr (nodup_dedup names)
  constructor
  · intro h
    refine ⟨?_, fun n hn => ?_⟩
    · rintro rfl
      have hname := (hmem name).mp (by rw [h]; exact mem_cons_self)
      cases hname
    · rw [← hmem, h, mem_singleton] at hn
      exact hn
  · rintro ⟨hne, hall⟩
    obtain ⟨first, rest, hnames⟩ := exists_cons_of_ne_nil hne
    have hfirst : first ∈ sortedSet names := (hmem first).mpr (by rw [hnames]; exact mem_cons_self)
    have hsame : ∀ n ∈ sortedSet names, n = name := fun n hn => hall n ((hmem n).mp hn)
    cases hset : sortedSet names with
    | nil =>
      rw [hset] at hfirst
      cases hfirst
    | cons a as =>
      rw [hset] at hnodup hsame
      have ha := hsame a mem_cons_self
      cases as with
      | nil => rw [ha]
      | cons b bs =>
        have hb := hsame b (by simp)
        rw [nodup_cons] at hnodup
        exact (hnodup.1 (by rw [ha, ← hb]; exact mem_cons_self)).elim

theorem strictlySorted_sortedSet (names : List String) : strictlySorted (sortedSet names) := by
  let le : String → String → Prop := fun a b => (!keyLt b.toList a.toList) = true
  have htotal : Std.Total le := by
    constructor
    intro a b
    simpa [le] using Json.keyLt_total a.toList b.toList
  have htrans : IsTrans String le := by
    constructor
    intro a b c hab hbc
    simp only [le, Bool.not_eq_true'] at hab hbc ⊢
    exact Json.not_keyLt_trans hab hbc
  have hpair : (sortedSet names).Pairwise le := pairwise_insertionSort le _
  have hnodup : (sortedSet names).Nodup :=
    (perm_insertionSort _ _).nodup_iff.mpr (nodup_dedup names)
  apply Pairwise.isChain
  refine (hpair.and hnodup).imp fun {a b} h => ?_
  apply Json.keyLt_of_not
  · simpa [le] using h.1
  · exact fun heq => h.2 (String.toList_inj.mp heq).symm

variable {document : JsonMembers} {documents : List JsonMembers}

theorem Stored.unique {plan : Plan} {code : String} {files : Files} {row : PlanCandidate}
    {file file' : File} {document' : JsonMembers}
    (h : Stored plan code files row file document)
    (h' : Stored plan code files row file' document') : document = document' := by
  have honly := h.only
  rw [h'.only] at honly
  cases honly
  have hread := h.read
  rw [h'.read] at hread
  cases hread
  rfl

/-- The documents are the stored ones of the candidates, in order. -/
def StoredAll (plan : Plan) (code : String) (files : Files) (rows : List PlanCandidate)
    (documents : List JsonMembers) : Prop :=
  List.Forall₂ (fun row document => ∃ file, Stored plan code files row file document) rows documents

theorem StoredAll.mem_left {plan : Plan} {code : String} {files : Files}
    (h : StoredAll plan code files rows documents)
    {row : PlanCandidate} (hrow : row ∈ rows) :
    ∃ document ∈ documents, ∃ file, Stored plan code files row file document := by
  induction h with
  | nil => cases hrow
  | cons hd _ ih =>
    rcases mem_cons.mp hrow with rfl | hrow
    · exact ⟨_, mem_cons_self, hd⟩
    · obtain ⟨document, hmem, hstored⟩ := ih hrow
      exact ⟨document, mem_cons_of_mem _ hmem, hstored⟩

theorem StoredAll.mem_right {plan : Plan} {code : String} {files : Files}
    (h : StoredAll plan code files rows documents) (hdocument : document ∈ documents) :
    ∃ row ∈ rows, ∃ file, Stored plan code files row file document := by
  induction h with
  | nil => cases hdocument
  | cons hd _ ih =>
    rcases mem_cons.mp hdocument with rfl | hdocument
    · exact ⟨_, mem_cons_self, hd⟩
    · obtain ⟨row, hmem, hstored⟩ := ih hdocument
      exact ⟨row, mem_cons_of_mem _ hmem, hstored⟩

theorem batch_counted {plan : Plan} {code : String} {frozen : PlanBatch}
    (hbatch : batch plan code = .ok frozen) :
    frozen.candidateCount = frozen.candidates.length ∧
      frozen.candidates.head?.map PlanCandidate.candidateId = some frozen.firstCandidateId := by
  have hvalid := plan.valid
  unfold Plan.Fields.validate at hvalid
  rw [raiseIf_bind_eq_ok, unit_bind_eq_ok] at hvalid
  obtain ⟨index, hindex⟩ := checkEach_of_mem hvalid.2.1 (batch_eq hbatch).1
  unfold validateBatch at hindex
  rw [raiseIf_bind_eq_ok, raiseIf_bind_eq_ok, unit_bind_eq_ok, raiseIf_bind_eq_ok] at hindex
  have hends := raiseIf_eq_ok.mp hindex.2.2.2.2
  rw [not_or, not_not] at hends
  exact ⟨not_not.mp hindex.2.2.2.1, hends.1⟩

theorem candidates_ne_nil {plan : Plan} {code : String} {frozen : PlanBatch}
    (hbatch : batch plan code = .ok frozen) : frozen.candidates ≠ [] := by
  intro hnil
  have hfirst := (batch_counted hbatch).2
  rw [hnil] at hfirst
  cases hfirst

section
variable {plan : FrozenPlan} {code : String} {frozen : PlanBatch}
    (hbatch : batch plan.toPlan code = .ok frozen) {files : Files}
include hbatch

variable {documents : List JsonMembers}

theorem completeResults_eq_ok {rows : List PlanCandidate}
    (hrows : ∀ row ∈ rows, row ∈ frozen.candidates) :
    completeResults files plan.toPlan code rows = .ok documents ↔
      StoredAll plan.toPlan code files rows documents := by
  induction rows generalizing documents with
  | nil =>
    constructor
    · intro h
      cases h
      exact .nil
    · intro h
      cases h
      rfl
  | cons row rows ih =>
    have hrow := hrows row mem_cons_self
    have hrest : ∀ r ∈ rows, r ∈ frozen.candidates := fun r hr => hrows r (mem_cons_of_mem _ hr)
    rw [completeResults, bind_eq_ok]
    constructor
    · rintro ⟨read, hread, h⟩
      cases read with
      | none => cases h
      | some document =>
        dsimp only at h
        rw [bind_eq_ok] at h
        obtain ⟨rest, hcomplete, h⟩ := h
        cases h
        exact .cons (stored_of_read hbatch hrow hread) ((ih hrest).mp hcomplete)
    · intro h
      cases h with
      | @cons _ document _ rest hd htail =>
        obtain ⟨file, hstored⟩ := hd
        refine ⟨some document, read_of_stored hbatch hrow hstored, ?_⟩
        dsimp only
        rw [(ih hrest).mpr htail]
        rfl

/-- The digest that is listed for a candidate is that of its result. -/
theorem artifactShaIn_eq
    (h : StoredAll plan.toPlan code files frozen.candidates documents) {row : PlanCandidate}
    (hrow : row ∈ frozen.candidates) {file : File} {document : JsonMembers}
    (hstored : Stored plan.toPlan code files row file document) :
    artifactShaIn documents row = artifactSha document := by
  obtain ⟨own, hown, ownFile, hownStored⟩ := h.mem_left hrow
  have hsome : (documents.find? fun d => textField d "candidate_id" = row.candidateId).isSome := by
    rw [find?_isSome]
    exact ⟨own, hown, decide_eq_true hownStored.valid.textField_candidateId⟩
  obtain ⟨found, hfound⟩ := Option.isSome_iff_exists.mp hsome
  obtain ⟨other, hother, otherFile, hotherStored⟩ :=
    h.mem_right (mem_of_find?_eq_some hfound)
  have hid : other.candidateId = row.candidateId := by
    have hfoundId : textField found "candidate_id" = row.candidateId := by
      simpa using find?_some hfound
    rw [hotherStored.valid.textField_candidateId] at hfoundId
    exact hfoundId
  have hsame := inj_on_of_nodup_map (nodup_candidateIds hbatch) hother hrow hid
  subst hsame
  rw [artifactShaIn, hfound, hotherStored.unique hstored]
  rfl

/-- The results were all computed with one code and one input. -/
def SameIdentities (plan : Plan) (code : String) (rows : List PlanCandidate) (files : Files)
    (gitSha runnerInputSha256 : String) : Prop :=
  ∀ row ∈ rows, ∀ file document, Stored plan code files row file document →
    textField document "git_sha" = gitSha ∧
      textField document "runner_input_sha256" = runnerInputSha256

/-- A manifest is built from a complete batch whose results agree on the code and the input. -/
theorem buildBatchManifest_eq_ok {manifest : JsonMembers} :
    buildBatchManifest files plan.toPlan code = .ok manifest ↔
      ∃ documents gitSha runnerInputSha256,
        StoredAll plan.toPlan code files frozen.candidates documents ∧
        SameIdentities plan.toPlan code frozen.candidates files gitSha runnerInputSha256 ∧
        manifest = batchManifest plan.toPlan frozen {
          gitSha := gitSha
          runnerInputSha256 := runnerInputSha256
          nodes := sortedSet (documents.map (textField · "producer_node_id"))
          artifactSha := artifactShaIn documents } := by
  have hsingle : ∀ {documents : List JsonMembers} {key value : String},
      StoredAll plan.toPlan code files frozen.candidates documents →
      (sortedSet (documents.map (textField · key)) = [value] ↔
        ∀ row ∈ frozen.candidates, ∀ file document,
          Stored plan.toPlan code files row file document → textField document key = value) := by
    intro documents key value hall
    rw [sortedSet_eq_singleton]
    constructor
    · intro h row hrow file document hstored
      obtain ⟨own, hown, ownFile, hownStored⟩ := hall.mem_left hrow
      rw [hstored.unique hownStored]
      exact h.2 _ (mem_map_of_mem hown)
    · intro h
      constructor
      · obtain ⟨row, rows, hrows⟩ := exists_cons_of_ne_nil (candidates_ne_nil hbatch)
        have hrow : row ∈ frozen.candidates := by
          rw [hrows]
          exact mem_cons_self
        obtain ⟨own, hown, -⟩ := hall.mem_left hrow
        exact ne_nil_of_mem (mem_map_of_mem hown)
      · intro n hn
        obtain ⟨document, hdocument, rfl⟩ := mem_map.mp hn
        obtain ⟨row, hrow, file, hstored⟩ := hall.mem_right hdocument
        exact h row hrow file document hstored
  unfold buildBatchManifest
  rw [hbatch, ok_bind, bind_eq_ok]
  constructor
  · rintro ⟨documents, hdocuments, h⟩
    have hall := (completeResults_eq_ok hbatch fun _ hr => hr).mp hdocuments
    split at h
    · rename_i gitSha runnerInputSha256 hgit hrunner
      cases h
      refine ⟨documents, gitSha, runnerInputSha256, hall, ?_, rfl⟩
      intro row hrow file document hstored
      exact ⟨(hsingle hall).mp hgit row hrow file document hstored,
        (hsingle hall).mp hrunner row hrow file document hstored⟩
    · cases h
  · rintro ⟨documents, gitSha, runnerInputSha256, hall, hsame, rfl⟩
    refine ⟨documents, (completeResults_eq_ok hbatch fun _ hr => hr).mpr hall, ?_⟩
    have hgit : sortedSet (documents.map (textField · "git_sha")) = [gitSha] :=
      (hsingle hall).mpr fun row hrow file document hstored =>
        (hsame row hrow file document hstored).1
    have hrunner : sortedSet (documents.map (textField · "runner_input_sha256")) =
        [runnerInputSha256] := (hsingle hall).mpr fun row hrow file document hstored =>
      (hsame row hrow file document hstored).2
    rw [hgit, hrunner]
    rfl

end

end TradingLab.Factory
