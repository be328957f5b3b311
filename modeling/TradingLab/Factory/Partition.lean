import TradingLab.Factory.Plan
import TradingLab.Json.RoundTrip

/-!
# Building a plan

The frozen candidates are sorted by their names and cut into batches of five
hundred, and each batch into micro-shards of one. What is built passes its
validation.
-/

namespace TradingLab.Factory

open List

/-- The summary of the frozen executable generation. -/
structure FreezeSummary where
  generationId : String
  state : String
  executableCandidateCount : ℤ
  freezeSha256 : String
  candidateLedgerSha256 : String
  neighborGraphSha256 : String
deriving Repr, DecidableEq

def microshardOf (batchCode : String) (index : ℕ) (row : PlanCandidate) : Microshard :=
  let shard : Microshard := ⟨microshardCode batchCode index, 1, [row], ""⟩
  { shard with microshardSha256 := (Json.dict shard.base).digest }

def microshardsOf (batchCode : String) : ℕ → List PlanCandidate → List Microshard
  | _, [] => []
  | index, row :: rows => microshardOf batchCode index row :: microshardsOf batchCode (index + 1) rows

def batchOf (index : ℕ) (rows : List PlanCandidate) : PlanBatch :=
  let batch : PlanBatch := {
    batchCode := batchCode index
    candidateCount := rows.length
    firstCandidateId := (rows.head?.map PlanCandidate.candidateId).getD ""
    lastCandidateId := (rows.getLast?.map PlanCandidate.candidateId).getD ""
    microshards := microshardsOf (batchCode index) 1 rows
    batchSha256 := "" }
  { batch with batchSha256 := (Json.dict batch.base).digest }

/-- A number of batches, the last of which may be smaller. -/
def batchesOf : ℕ → ℕ → List PlanCandidate → List PlanBatch
  | 0, _, _ => []
  | n + 1, index, rows =>
      batchOf index (rows.take logicalBatchSize) ::
        batchesOf n (index + 1) (rows.drop logicalBatchSize)

def planOf (summary : FreezeSummary) (rows : List PlanCandidate) : Plan.Fields :=
  let count := (rows.length + (logicalBatchSize - 1)) / logicalBatchSize
  let plan : Plan.Fields := {
    schema := planSchema
    generationId := generationId
    state := frozenState
    executableFreezeSha256 := summary.freezeSha256
    candidateLedgerSha256 := summary.candidateLedgerSha256
    neighborGraphSha256 := summary.neighborGraphSha256
    candidateCount := rows.length
    logicalBatchSize := logicalBatchSize
    microshardSize := microshardSize
    batchCount := count
    batches := batchesOf count 1 rows
    safety := safety
    planSha256 := "" }
  { plan with planSha256 := (Json.dict plan.base).digest }

theorem batches_planOf (summary : FreezeSummary) (rows : List PlanCandidate) :
    (planOf summary rows).batches =
      batchesOf ((rows.length + (logicalBatchSize - 1)) / logicalBatchSize) 1 rows := rfl

theorem validateMicroshard_microshardOf (batchCode : String) (index : ℕ) (row : PlanCandidate) :
    validateMicroshard batchCode index (microshardOf batchCode index row) = .ok () := by
  unfold validateMicroshard
  rw [raiseIf_neg (fun h => h rfl), raiseIf_neg (fun h => h rfl), raiseIf_neg (fun h => h rfl),
    raiseIf_neg (fun h => h rfl)]
  rfl

theorem checkEach_microshardsOf (batchCode : String) (index : ℕ) (rows : List PlanCandidate) :
    checkEach (validateMicroshard batchCode) index (microshardsOf batchCode index rows) = .ok () := by
  induction rows generalizing index with
  | nil => rfl
  | cons row rows ih =>
    rw [microshardsOf, checkEach, validateMicroshard_microshardOf]
    exact ih (index + 1)

theorem candidates_microshardsOf (batchCode : String) (index : ℕ) (rows : List PlanCandidate) :
    (microshardsOf batchCode index rows).flatMap Microshard.candidates = rows := by
  induction rows generalizing index with
  | nil => rfl
  | cons row rows ih =>
    rw [microshardsOf, flatMap_cons, ih]
    rfl

@[simp] theorem candidates_batchOf (index : ℕ) (rows : List PlanCandidate) :
    (batchOf index rows).candidates = rows := candidates_microshardsOf _ _ _

theorem validateBatch_batchOf {index : ℕ} (hindex : index ≤ 999) {rows : List PlanCandidate}
    (hrows : rows ≠ []) : validateBatch index (batchOf index rows) = .ok () := by
  unfold validateBatch
  have hcode : ¬ ((batchOf index rows).batchCode ≠ batchCode index ∨ 999 < index) := by
    rintro (h | h)
    · exact h rfl
    · omega
  have hcount : ¬ (batchOf index rows).candidateCount ≠ (batchOf index rows).candidates.length := by
    rw [candidates_batchOf]
    exact fun h => h rfl
  have hends : ¬ ((batchOf index rows).candidates.head?.map PlanCandidate.candidateId ≠
        some (batchOf index rows).firstCandidateId ∨
      (batchOf index rows).candidates.getLast?.map PlanCandidate.candidateId ≠
        some (batchOf index rows).lastCandidateId) := by
    rw [candidates_batchOf]
    cases rows with
    | nil => exact (hrows rfl).elim
    | cons row rows =>
      rintro (h | h)
      · exact h rfl
      · apply h
        change _ = some ((((row :: rows).getLast?).map PlanCandidate.candidateId).getD "")
        rw [getLast?_cons]
        rfl
  rw [raiseIf_neg hcode, raiseIf_neg (fun h => h rfl), raiseIf_neg hcount, raiseIf_neg hends]
  have hshards : checkEach (validateMicroshard (batchCode index)) 1
      (batchOf index rows).microshards = .ok () := checkEach_microshardsOf _ _ _
  rw [hshards]
  rfl

theorem checkEach_batchesOf (n index : ℕ) (rows : List PlanCandidate) (hindex : index + n ≤ 1000)
    (hrows : logicalBatchSize * n < rows.length + logicalBatchSize) :
    checkEach validateBatch index (batchesOf n index rows) = .ok () := by
  unfold logicalBatchSize at hrows
  induction n generalizing index rows with
  | zero => rfl
  | succ n ih =>
    have hne : rows.take logicalBatchSize ≠ [] := by
      rw [← length_pos_iff, length_take, logicalBatchSize]
      omega
    rw [batchesOf, checkEach, validateBatch_batchOf (by omega) hne]
    apply ih
    · omega
    · rw [length_drop, logicalBatchSize]
      omega

theorem candidates_batchesOf (n index : ℕ) (rows : List PlanCandidate)
    (hrows : rows.length ≤ logicalBatchSize * n) :
    (batchesOf n index rows).flatMap PlanBatch.candidates = rows := by
  induction n generalizing index rows with
  | zero =>
    have hlen : rows.length = 0 := by omega
    rw [length_eq_zero_iff] at hlen
    subst hlen
    rfl
  | succ n ih =>
    rw [batchesOf, flatMap_cons, candidates_batchOf, ih, take_append_drop]
    rw [length_drop]
    rw [Nat.mul_succ] at hrows
    omega

/-- The plan of a full, sorted list of candidates is valid. -/
theorem validate_planOf (summary : FreezeSummary) {rows : List PlanCandidate}
    (hlen : rows.length = expectedExecutableCount)
    (hsorted : strictlySorted (rows.map PlanCandidate.candidateId)) :
    (planOf summary rows).validate = .ok () := by
  have hcount : (rows.length + (logicalBatchSize - 1)) / logicalBatchSize = 14 := by
    rw [hlen]
    rfl
  have hbatches : (planOf summary rows).batches = batchesOf 14 1 rows := by
    change batchesOf _ 1 rows = _
    rw [hcount]
  have hflat : (planOf summary rows).batches.flatMap PlanBatch.candidates = rows := by
    rw [hbatches]
    apply candidates_batchesOf
    rw [hlen]
    decide
  have hcheck : checkEach validateBatch 1 (planOf summary rows).batches = .ok () := by
    rw [hbatches]
    apply checkEach_batchesOf
    · decide
    · rw [hlen]
      decide
  have hboundary : ¬ ((planOf summary rows).schema ≠ planSchema ∨
      (planOf summary rows).generationId ≠ generationId ∨
      (planOf summary rows).state ≠ frozenState ∨
      (planOf summary rows).candidateCount ≠ expectedExecutableCount ∨
      (planOf summary rows).batchCount ≠ 14 ∨
      (planOf summary rows).logicalBatchSize ≠ logicalBatchSize ∨
      (planOf summary rows).microshardSize ≠ microshardSize ∨
      (planOf summary rows).safety ≠ safety ∨
      (Json.dict (planOf summary rows).base).digest ≠ (planOf summary rows).planSha256) := by
    have hcandidates : (planOf summary rows).candidateCount = expectedExecutableCount := by
      rw [← hlen]
      rfl
    have hbatchCount : (planOf summary rows).batchCount = 14 := by
      change (((rows.length + (logicalBatchSize - 1)) / logicalBatchSize : ℕ) : ℤ) = 14
      rw [hcount]
      rfl
    rintro (h | h | h | h | h | h | h | h | h)
    · exact h rfl
    · exact h rfl
    · exact h rfl
    · exact h hcandidates
    · exact h hbatchCount
    · exact h rfl
    · exact h rfl
    · exact h rfl
    · exact h rfl
  unfold Plan.Fields.validate
  rw [raiseIf_neg hboundary, hcheck, hflat]
  change raiseIf _ _ = _
  apply raiseIf_neg
  rw [not_or, not_not, not_not, length_map]
  exact ⟨hlen, hsorted⟩

def comesBefore (a b : PlanCandidate) : Bool := !keyLt b.candidateId.toList a.candidateId.toList

/-- Freeze the candidates into batches and one-candidate micro-shards. The final check of the
number of batches cannot fail. -/
def buildExecutionPlan (summary : FreezeSummary) (executable : List PlanCandidate) :
    Except Failure Plan.Fields := do
  raiseIf (summary.generationId ≠ generationId ∨
      summary.state ≠ "PRE_OUTCOME_EXECUTABLE_SET_FROZEN" ∨
      summary.executableCandidateCount ≠ expectedExecutableCount ∨
      executable.length ≠ expectedExecutableCount)
    (.mcf "distributed plan requires exact frozen executable generation")
  let rows := executable.insertionSort fun a b => comesBefore a b
  raiseIf (¬ (rows.map PlanCandidate.candidateId).Nodup ∨
      rows.any (fun row => !"MCF-PROD-001-".toList.isPrefixOf row.candidateId.toList ||
        !Sha256.isHexDigest row.candidateSpecSha256) = true)
    (.mcf "invalid/duplicate frozen candidate identity")
  pure (planOf summary rows)

theorem validate_of_build {summary : FreezeSummary} {executable : List PlanCandidate}
    {plan : Plan.Fields} (h : buildExecutionPlan summary executable = .ok plan) :
    plan.validate = .ok () := by
  unfold buildExecutionPlan at h
  rw [raiseIf_bind_eq_ok, raiseIf_bind_eq_ok] at h
  obtain ⟨hfreeze, hids, hplan⟩ := h
  cases hplan
  rw [not_or, not_not] at hids
  apply validate_planOf
  · rw [length_insertionSort]
    by_contra hlen
    exact hfreeze (.inr (.inr (.inr hlen)))
  · have htotal : Std.Total fun a b => comesBefore a b = true := by
      constructor
      intro a b
      simpa [comesBefore] using Json.keyLt_total a.candidateId.toList b.candidateId.toList
    have htrans : IsTrans PlanCandidate fun a b => comesBefore a b = true := by
      constructor
      intro a b c hab hbc
      simp only [comesBefore, Bool.not_eq_true'] at hab hbc ⊢
      exact Json.not_keyLt_trans hab hbc
    have hsorted := pairwise_insertionSort (fun a b => comesBefore a b = true) executable
    apply Pairwise.isChain
    rw [pairwise_map]
    have hnodup := pairwise_map.mp hids.1
    refine (hsorted.and hnodup).imp fun h => ?_
    unfold comesBefore at h
    rw [Bool.not_eq_true'] at h
    exact Json.keyLt_of_not h.1 fun heq => h.2 (String.toList_inj.mp heq.symm)

/-- Digits of a fixed width. -/
def fixedDigits : ℕ → ℕ → List Char
  | 0, _ => []
  | width + 1, n => fixedDigits width (n / 10) ++ [Nat.digitChar (n % 10)]

@[simp] theorem length_fixedDigits (width n : ℕ) : (fixedDigits width n).length = width := by
  induction width generalizing n with
  | zero => rfl
  | succ width ih => rw [fixedDigits, length_append, ih, length_singleton]

theorem keyLt_append_left (cs ds es : List Char) : keyLt (cs ++ ds) (cs ++ es) = keyLt ds es := by
  induction cs with
  | nil => rfl
  | cons c cs ih => simp [keyLt, ih]

theorem keyLt_append_of_lt {cs ds : List Char} (es fs : List Char)
    (hlen : cs.length = ds.length) (h : keyLt cs ds = true) :
    keyLt (cs ++ es) (ds ++ fs) = true := by
  induction cs generalizing ds with
  | nil =>
    rw [length_nil] at hlen
    rw [length_eq_zero_iff.mp hlen.symm] at h
    cases h
  | cons c cs ih =>
    cases ds with
    | nil => cases hlen
    | cons d ds =>
      rw [keyLt, Bool.or_eq_true, Bool.and_eq_true] at h
      rw [cons_append, cons_append, keyLt, Bool.or_eq_true, Bool.and_eq_true]
      rcases h with h | ⟨hcd, h⟩
      · exact .inl h
      · exact .inr ⟨hcd, ih (Nat.succ_injective hlen) h⟩

theorem keyLt_digitChar : ∀ n < 9, keyLt [Nat.digitChar n] [Nat.digitChar (n + 1)] = true := by
  decide

theorem keyLt_fixedDigits (width n : ℕ) (h : n + 1 < 10 ^ width) :
    keyLt (fixedDigits width n) (fixedDigits width (n + 1)) = true := by
  induction width generalizing n with
  | zero => simp at h
  | succ width ih =>
    rw [fixedDigits, fixedDigits]
    by_cases hlast : n % 10 < 9
    · have hq : (n + 1) / 10 = n / 10 := by omega
      have hr : (n + 1) % 10 = n % 10 + 1 := by omega
      rw [hq, hr, keyLt_append_left]
      exact keyLt_digitChar _ hlast
    · have hq : (n + 1) / 10 = n / 10 + 1 := by omega
      rw [hq]
      apply keyLt_append_of_lt
      · rw [length_fixedDigits, length_fixedDigits]
      · apply ih
        rw [Nat.pow_succ] at h
        omega

def sampleCandidate (n : ℕ) : PlanCandidate where
  candidateId := String.ofList ("MCF-PROD-001-".toList ++ fixedDigits 6 (n + 1))
  candidateSpecSha256 := String.ofList (List.replicate 64 'a')
  family := "TREND"
  timeframe := "4h"

def sampleSummary : FreezeSummary where
  generationId := generationId
  state := "PRE_OUTCOME_EXECUTABLE_SET_FROZEN"
  executableCandidateCount := expectedExecutableCount
  freezeSha256 := String.ofList (List.replicate 64 'b')
  candidateLedgerSha256 := String.ofList (List.replicate 64 'c')
  neighborGraphSha256 := String.ofList (List.replicate 64 'd')

def sampleRows : List PlanCandidate := (List.range expectedExecutableCount).map sampleCandidate

theorem strictlySorted_sampleRows :
    strictlySorted (sampleRows.map PlanCandidate.candidateId) := by
  unfold strictlySorted sampleRows
  rw [map_map, isChain_map, isChain_range]
  intro n hn
  change keyLt (String.ofList _).toList (String.ofList _).toList = true
  simp only [String.toList_ofList]
  rw [keyLt_append_left]
  apply keyLt_fixedDigits
  unfold expectedExecutableCount at hn
  omega

/-- A plan of candidates with consecutive names. -/
def samplePlan : Plan where
  toFields := planOf sampleSummary sampleRows
  valid := validate_planOf sampleSummary (by rw [sampleRows, List.length_map, List.length_range])
    strictlySorted_sampleRows

end TradingLab.Factory
