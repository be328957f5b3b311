import TradingLab.Production.Ledger
import TradingLab.Factory.ResultDocuments

/-!
# What the ledger checks

Reconciliation compares a record with its candidate field by field. What it
compares and what it leaves out together make a record that could have been
written for the candidate, so that a ledger is complete exactly for such records
when the fields that are left out are as they would have been written.
-/

namespace TradingLab.Production

open JsonMembers

/-- The state is one that the freeze lets the candidate have. -/
def Admits (freeze : ExecutableFreeze) (candidate : RawCandidate) (state : String) : Prop :=
  match freeze.classOf candidate with
  | .structural => state = structurallyInvalid
  | .blocked => state = blockedImplementation
  | .executable _ => state ∈ performanceStates
  | .missing => False

/-- A record that can be written for the candidate. -/
def Made (freeze : ExecutableFreeze) (candidate : RawCandidate) (row : Record) : Prop :=
  ∃ state result blockerReason, Admits freeze candidate state ∧
    (∀ members ∈ result, members.Held) ∧
    makeRecord candidate state result blockerReason = .ok row.members

/-- The fields of a record that reconciliation compares. -/
structure Checked (containerText : Json → String) (freeze : ExecutableFreeze)
    (candidate : RawCandidate) (row : Record) : Prop where
  named : row.candidateId containerText = candidate.candidateId
  schema : row.members.lookup "schema" = some (.str ledgerVersion)
  digest : ∃ sha, digestOf (.object (row.members.erase "record_sha256")) = .ok sha ∧
    row.members.lookup "record_sha256" = some (.str sha)
  spec : row.members.lookup "candidate_spec_sha256" = some (.str candidate.candidateSpecSha256)
  ordinal : agrees row.members "ordinal" (.int candidate.ordinal) = true
  partition : row.members.lookup "evidence_partition" = some (.str "DEVELOPMENT")
  safety : agrees row.members "safety" ledgerSafety = true
  state : ∃ state, Admits freeze candidate state ∧ row.members.lookup "state" = some (.str state)

def recordKeys : List String :=
  ["schema", "ordinal", "candidate_id", "candidate_spec_sha256", "family", "family_id", "state",
    "failure_reasons", "implementation_blocker", "result_sha256", "daily_return_sha256",
    "per_symbol_daily_return_sha256", "evidence_partition", "safety"]

/-- The reasons, the blocker and the digests come from a result in the state of the record. -/
structure Evident (candidate : RawCandidate) (members : JsonMembers) (state : String)
    (result : Option JsonMembers) (blockerReason : Option String) (evidence : Evidence)
    (failures reasons : List Json) : Prop where
  sameState : members.lookup "state" = some (.str state)
  fromResult : evidenceOf candidate state result = .ok evidence
  fromFailures : failuresOf candidate state blockerReason evidence.failures = .ok failures
  ordered : Json.sortedSet failures = some reasons
  failureReasons : members.lookup "failure_reasons" = some (Json.list reasons)
  blocker : members.lookup "implementation_blocker" = some (Json.optionStr blockerReason)
  resultSha256 : members.lookup "result_sha256" = some evidence.resultSha256
  dailyReturnSha256 : members.lookup "daily_return_sha256" = some evidence.dailyReturnSha256
  perSymbol : members.lookup "per_symbol_daily_return_sha256" =
    some evidence.perSymbolDailyReturnSha256

/-- The fields of a record that reconciliation does not compare, or compares up to equality, are as
they are written. -/
structure Written (candidate : RawCandidate) (row : Record) : Prop where
  keys : ∀ key, key ∉ recordKeys → key ≠ "record_sha256" → row.members.lookup key = none
  candidateId : row.members.lookup "candidate_id" = some (.str candidate.candidateId)
  ordinal : row.members.lookup "ordinal" = some (.int candidate.ordinal)
  safety : row.members.lookup "safety" = some ledgerSafety
  family : row.members.lookup "family" = some (.str candidate.family)
  familyId : row.members.lookup "family_id" = some (.str candidate.familyId)
  evident : ∃ state result blockerReason evidence failures reasons,
    (∀ members ∈ result, members.Held) ∧
    Evident candidate row.members state result blockerReason evidence failures reasons

/-- The entries of a record, without its digest. -/
def recordEntries (candidate : RawCandidate) (state : String) (blockerReason : Option String)
    (evidence : Evidence) (reasons : List Json) : List (String × Json) :=
  [("schema", .str ledgerVersion), ("ordinal", .int candidate.ordinal),
    ("candidate_id", .str candidate.candidateId),
    ("candidate_spec_sha256", .str candidate.candidateSpecSha256),
    ("family", .str candidate.family), ("family_id", .str candidate.familyId), ("state", .str state),
    ("failure_reasons", Json.list reasons), ("implementation_blocker", Json.optionStr blockerReason),
    ("result_sha256", evidence.resultSha256), ("daily_return_sha256", evidence.dailyReturnSha256),
    ("per_symbol_daily_return_sha256", evidence.perSymbolDailyReturnSha256),
    ("evidence_partition", .str "DEVELOPMENT"), ("safety", ledgerSafety)]

theorem recordBody_eq (candidate : RawCandidate) (state : String) (blockerReason : Option String)
    (evidence : Evidence) (reasons : List Json) :
    recordBody candidate state blockerReason evidence reasons =
      (recordEntries candidate state blockerReason evidence reasons).foldl
        (fun members entry => members.insert entry.1 entry.2) .nil := by
  unfold recordBody recordEntries
  rfl

theorem keys_recordEntries (candidate : RawCandidate) (state : String) (blockerReason : Option String)
    (evidence : Evidence) (reasons : List Json) :
    (recordEntries candidate state blockerReason evidence reasons).map Prod.fst = recordKeys := by
  unfold recordEntries recordKeys
  rfl

theorem lookup_recordBody (candidate : RawCandidate) (state : String) (blockerReason : Option String)
    (evidence : Evidence) (reasons : List Json) (key : String) :
    (recordBody candidate state blockerReason evidence reasons).lookup key =
      (recordEntries candidate state blockerReason evidence reasons).lookup key := by
  have hnodup : ((recordEntries candidate state blockerReason evidence reasons).map
      Prod.fst).Nodup := by
    rw [keys_recordEntries]
    decide
  rw [recordBody_eq, lookup_foldl_insert hnodup, lookup, Option.or_none]

variable {candidate : RawCandidate} {state key : String} {blockerReason : Option String}
  {evidence : Evidence} {reasons : List Json} {body members : JsonMembers}
  {result : Option JsonMembers} {freeze : ExecutableFreeze} {containerText : Json → String}
  {row : Record} {raw : List RawCandidate}

theorem sorted_recordBody
    (h : recordBody candidate state blockerReason evidence reasons = body) : body.Sorted := by
  rw [recordBody_eq] at h
  rw [← h]
  generalize recordEntries candidate state blockerReason evidence reasons = entries
  exact Sorted.foldl_insert entries trivial

theorem lookup_recordEntries_eq_none (h : key ∉ recordKeys) :
    (recordEntries candidate state blockerReason evidence reasons).lookup key = none := by
  rw [List.lookup_eq_none_iff]
  intro entry hentry
  rw [bne_iff_ne]
  rintro rfl
  rw [← keys_recordEntries candidate state blockerReason evidence reasons] at h
  exact h (List.mem_map_of_mem hentry)

theorem sealed_eq_ok :
    (do
      let sha ← digestOf (.object body)
      return body.insert "record_sha256" (.str sha)) = Except.ok members ↔
      ∃ sha, digestOf (.object body) = .ok sha ∧ members = body.insert "record_sha256" (.str sha) := by
  rw [bind_eq_ok]
  constructor
  · intro h
    obtain ⟨sha, hsha, h⟩ := h
    exact ⟨sha, hsha, (Except.ok.inj h).symm⟩
  · intro h
    obtain ⟨sha, hsha, rfl⟩ := h
    exact ⟨sha, hsha, rfl⟩

theorem makeRecord_eq_ok :
    makeRecord candidate state result blockerReason = .ok members ↔
      state ∈ finalStates ∧ ∃ evidence failures reasons sha,
        evidenceOf candidate state result = .ok evidence ∧
        failuresOf candidate state blockerReason evidence.failures = .ok failures ∧
        Json.sortedSet failures = some reasons ∧
        digestOf (.object (recordBody candidate state blockerReason evidence reasons)) = .ok sha ∧
        members = (recordBody candidate state blockerReason evidence reasons).insert
          "record_sha256" (.str sha) := by
  unfold makeRecord
  rw [raiseIf_bind_eq_ok, not_not]
  apply and_congr_right
  intro _
  constructor
  · intro h
    obtain ⟨evidence, hevidence, h⟩ := bind_eq_ok.mp h
    obtain ⟨failures, hfailures, h⟩ := bind_eq_ok.mp h
    cases hreasons : Json.sortedSet failures with
    | none =>
      rw [hreasons] at h
      cases h
    | some reasons =>
      rw [hreasons] at h
      obtain ⟨sha, hsha, hmembers⟩ := sealed_eq_ok.mp h
      exact ⟨evidence, failures, reasons, sha, hevidence, hfailures, hreasons, hsha, hmembers⟩
  · intro h
    obtain ⟨evidence, failures, reasons, sha, hevidence, hfailures, hreasons, hsha, hmembers⟩ := h
    rw [hevidence, ok_bind, hfailures, ok_bind, hreasons]
    exact sealed_eq_ok.mpr ⟨sha, hsha, hmembers⟩

theorem admits_finalStates (h : Admits freeze candidate state) : state ∈ finalStates := by
  unfold Admits at h
  split at h
  · simp [h, finalStates]
  · simp [h, finalStates]
  · simp only [performanceStates, List.mem_cons, List.not_mem_nil, or_false] at h
    simp only [finalStates, List.mem_cons, List.not_mem_nil, or_false]
    exact .inr (.inr h)
  · exact h.elim

theorem agrees_of_lookup {v : Json}
    (h : members.lookup key = some v) (hfinite : v.hasNonFinite = false) :
    agrees members key v = true := by
  unfold agrees
  rw [h]
  exact Json.same_self hfinite

theorem lookup_sealed {sha : Json} (key : String)
    (h : members = (recordBody candidate state blockerReason evidence reasons).insert
      "record_sha256" sha) (hkey : key ≠ "record_sha256") :
    members.lookup key = (recordEntries candidate state blockerReason evidence reasons).lookup key := by
  rw [h, lookup_insert, if_neg hkey, lookup_recordBody]

theorem hasNonFinite_ledgerSafety : ledgerSafety.hasNonFinite = false := by decide +kernel

/-- What is compared of a record holds of a record that can be written. -/
theorem Made.checked (h : Made freeze candidate row) :
    Checked containerText freeze candidate row := by
  obtain ⟨state, result, blockerReason, hadmits, -, hmake⟩ := h
  obtain ⟨-, evidence, failures, reasons, sha, -, -, -, hsha, hrow⟩ := makeRecord_eq_ok.mp hmake
  have hlookup := fun key => lookup_sealed key hrow
  have herase : row.members.erase "record_sha256" =
      recordBody candidate state blockerReason evidence reasons := by
    rw [hrow, erase_insert]
    rw [lookup_recordBody]
    exact lookup_recordEntries_eq_none (by decide)
  constructor
  case named =>
    unfold Record.candidateId
    rw [@hlookup "candidate_id" (by decide)]
    rfl
  case schema => exact @hlookup "schema" (by decide)
  case digest =>
    refine ⟨sha, herase ▸ hsha, ?_⟩
    rw [hrow, lookup_insert, if_pos rfl]
  case spec => exact @hlookup "candidate_spec_sha256" (by decide)
  case ordinal => exact agrees_of_lookup (@hlookup "ordinal" (by decide)) rfl
  case partition => exact @hlookup "evidence_partition" (by decide)
  case safety =>
    exact agrees_of_lookup (@hlookup "safety" (by decide)) hasNonFinite_ledgerSafety
  case state => exact ⟨state, hadmits, @hlookup "state" (by decide)⟩

/-- What is not compared of a record is as written in a record that can be written. -/
theorem Made.written (h : Made freeze candidate row) : Written candidate row := by
  obtain ⟨state, result, blockerReason, -, hheld, hmake⟩ := h
  obtain ⟨-, evidence, failures, reasons, sha, hevidence, hfailures, hreasons, -, hrow⟩ :=
    makeRecord_eq_ok.mp hmake
  have hlookup := fun {key} => lookup_sealed key hrow
  constructor
  case keys =>
    intro key hkey hsealed
    rw [hlookup hsealed]
    exact lookup_recordEntries_eq_none hkey
  case candidateId => exact @hlookup "candidate_id" (by decide)
  case ordinal => exact @hlookup "ordinal" (by decide)
  case safety => exact @hlookup "safety" (by decide)
  case family => exact @hlookup "family" (by decide)
  case familyId => exact @hlookup "family_id" (by decide)
  case evident =>
    refine ⟨state, result, blockerReason, evidence, failures, reasons, hheld, ?_⟩
    constructor
    case sameState => exact @hlookup "state" (by decide)
    case fromResult => exact hevidence
    case fromFailures => exact hfailures
    case ordered => exact hreasons
    case failureReasons => exact @hlookup "failure_reasons" (by decide)
    case blocker => exact @hlookup "implementation_blocker" (by decide)
    case resultSha256 => exact @hlookup "result_sha256" (by decide)
    case dailyReturnSha256 => exact @hlookup "daily_return_sha256" (by decide)
    case perSymbol => exact @hlookup "per_symbol_daily_return_sha256" (by decide)

/-- The body of a record has the entries it is written with. -/
theorem erase_eq_recordBody {failures : List Json}
    (hchecked : Checked containerText freeze candidate row) (hwritten : Written candidate row)
    (hevident : Evident candidate row.members state result blockerReason evidence failures reasons) :
    row.members.erase "record_sha256" =
      recordBody candidate state blockerReason evidence reasons := by
  generalize hbody : recordBody candidate state blockerReason evidence reasons = body
  refine eq_of_lookup row.held.sorted.erase (sorted_recordBody hbody) fun key => ?_
  rw [← hbody, lookup_recordBody]
  by_cases hsealed : key = "record_sha256"
  · subst hsealed
    rw [lookup_erase_self row.held.sorted]
    exact (lookup_recordEntries_eq_none (by decide)).symm
  rw [lookup_erase_ne hsealed]
  by_cases hkey : key ∈ recordKeys
  · simp only [recordKeys, List.mem_cons, List.not_mem_nil, or_false] at hkey
    rcases hkey with rfl | rfl | rfl | rfl | rfl | rfl | rfl | rfl | rfl | rfl | rfl | rfl | rfl | rfl
    · exact hchecked.schema
    · exact hwritten.ordinal
    · exact hwritten.candidateId
    · exact hchecked.spec
    · exact hwritten.family
    · exact hwritten.familyId
    · exact hevident.sameState
    · exact hevident.failureReasons
    · exact hevident.blocker
    · exact hevident.resultSha256
    · exact hevident.dailyReturnSha256
    · exact hevident.perSymbol
    · exact hchecked.partition
    · exact hwritten.safety
  · rw [hwritten.keys key hkey hsealed]
    exact (lookup_recordEntries_eq_none hkey).symm

/-- A record can be written for a candidate when everything that is compared agrees and everything
that is not compared is as written. -/
theorem made_iff :
    Made freeze candidate row ↔
      Checked containerText freeze candidate row ∧ Written candidate row := by
  constructor
  · intro h
    exact ⟨h.checked, h.written⟩
  · intro h
    obtain ⟨hchecked, hwritten⟩ := h
    obtain ⟨state, result, blockerReason, evidence, failures, reasons, hheld, hevident⟩ :=
      hwritten.evident
    obtain ⟨state', hadmits, hstate⟩ := hchecked.state
    have hsame : state' = state := by
      have heq := hstate.symm.trans hevident.sameState
      simpa using heq
    subst hsame
    obtain ⟨sha, hsha, hsealed⟩ := hchecked.digest
    have herase := erase_eq_recordBody hchecked hwritten hevident
    have hbody := hsha
    rw [herase] at hbody
    refine ⟨state', result, blockerReason, hadmits, hheld, makeRecord_eq_ok.mpr ?_⟩
    refine ⟨admits_finalStates hadmits, evidence, failures, reasons, sha, hevident.fromResult,
      hevident.fromFailures, hevident.ordered, hbody, ?_⟩
    rw [← herase, insert_erase row.held.sorted hsealed]

/-- The specification that is frozen for an executable candidate is its own. -/
def SpecFrozen (freeze : ExecutableFreeze) (candidate : RawCandidate) : Prop :=
  ∀ spec, freeze.classOf candidate = .executable spec → spec = candidate.candidateSpecSha256

theorem checkState_iff (hspec : row.members.lookup "candidate_spec_sha256" =
      some (.str candidate.candidateSpecSha256)) :
    checkState freeze candidate row = .ok () ↔
      (∃ state, Admits freeze candidate state ∧ row.members.lookup "state" = some (.str state)) ∧
      SpecFrozen freeze candidate := by
  unfold checkState Admits SpecFrozen
  cases freeze.classOf candidate with
  | structural => simp
  | blocked => simp
  | missing => simp
  | executable spec =>
    dsimp only
    rw [raiseIf_bind_eq_ok, raiseIf_bind_eq_ok, raiseIf_eq_ok, hspec]
    constructor
    · intro h
      obtain ⟨-, hstate, hfrozen⟩ := h
      simp only [not_forall, not_not] at hstate
      obtain ⟨state, hmem, hstate⟩ := hstate
      refine ⟨⟨state, hmem, hstate⟩, fun spec' hspec' => ?_⟩
      cases hspec'
      simpa [eq_comm] using hfrozen
    · intro h
      obtain ⟨⟨state, hmem, hstate⟩, hfrozen⟩ := h
      rw [hstate, hfrozen spec rfl]
      refine ⟨?_, ?_, ?_⟩
      · simp [Json.isHashable]
      · simp only [not_forall, not_not]
        exact ⟨state, hmem, rfl⟩
      · simp

/-- What a record that is named after its candidate passes. -/
theorem checkRow_iff (hnamed : row.candidateId containerText = candidate.candidateId) :
    checkRow freeze candidate row = .ok () ↔
      Checked containerText freeze candidate row ∧ SpecFrozen freeze candidate := by
  unfold checkRow
  rw [raiseIf_bind_eq_ok, not_not]
  constructor
  · intro h
    obtain ⟨hschema, h⟩ := h
    obtain ⟨sha, hsha, h⟩ := bind_eq_ok.mp h
    simp only [raiseIf_bind_eq_ok, not_not, not_or, Bool.not_eq_false] at h
    obtain ⟨hsealed, hspec, hordinal, ⟨hpartition, hsafety⟩, hstate⟩ := h
    rw [checkState_iff hspec] at hstate
    exact ⟨⟨hnamed, hschema, ⟨sha, hsha, hsealed⟩, hspec, hordinal, hpartition, hsafety, hstate.1⟩,
      hstate.2⟩
  · intro h
    obtain ⟨hchecked, hfrozen⟩ := h
    obtain ⟨sha, hsha, hsealed⟩ := hchecked.digest
    refine ⟨hchecked.schema, bind_eq_ok.mpr ⟨sha, hsha, ?_⟩⟩
    simp only [raiseIf_bind_eq_ok, not_not, not_or, Bool.not_eq_false]
    exact ⟨hsealed, hchecked.spec, hchecked.ordinal, ⟨hchecked.partition, hchecked.safety⟩,
      (checkState_iff hchecked.spec).mpr ⟨hchecked.state, hfrozen⟩⟩

theorem find?_candidate (hnodup : (raw.map RawCandidate.candidateId).Nodup) {cid : String} :
    raw.find? (fun candidate => decide (candidate.candidateId = cid)) = some candidate ↔
      candidate ∈ raw ∧ candidate.candidateId = cid := by
  constructor
  · intro h
    exact ⟨List.mem_of_find?_eq_some h, by simpa using List.find?_some h⟩
  · intro h
    obtain ⟨hmem, hid⟩ := h
    cases hfind : raw.find? (fun candidate => decide (candidate.candidateId = cid)) with
    | none =>
      have hnone := List.find?_eq_none.mp hfind candidate hmem
      simp [hid] at hnone
    | some other =>
      have hother : other.candidateId = cid := by simpa using List.find?_some hfind
      congr 1
      exact List.inj_on_of_nodup_map hnodup (List.mem_of_find?_eq_some hfind) hmem
        (hother.trans hid.symm)

theorem addRow_eq_ok (hnodup : (raw.map RawCandidate.candidateId).Nodup)
    {found next : List (RawCandidate × Record)} :
    addRow containerText raw freeze found row = .ok next ↔
      ∃ candidate ∈ raw, candidate.candidateId ∉ found.map (fun entry => entry.1.candidateId) ∧
        Checked containerText freeze candidate row ∧ SpecFrozen freeze candidate ∧
        next = found ++ [(candidate, row)] := by
  unfold addRow
  constructor
  · intro h
    split at h
    · cases h
    · next candidate hfind =>
      obtain ⟨hmem, hid⟩ := (find?_candidate hnodup).mp hfind
      rw [raiseIf_bind_eq_ok, unit_bind_eq_ok] at h
      obtain ⟨hnew, hrow, hnext⟩ := h
      obtain ⟨hchecked, hfrozen⟩ := (checkRow_iff hid.symm).mp hrow
      exact ⟨candidate, hmem, hnew, hchecked, hfrozen, (Except.ok.inj hnext).symm⟩
  · intro h
    obtain ⟨candidate, hmem, hnew, hchecked, hfrozen, rfl⟩ := h
    rw [(find?_candidate hnodup).mpr ⟨hmem, hchecked.named.symm⟩]
    dsimp only
    rw [raiseIf_bind_eq_ok, unit_bind_eq_ok]
    exact ⟨hnew, (checkRow_iff hchecked.named).mpr ⟨hchecked, hfrozen⟩, rfl⟩

end TradingLab.Production
