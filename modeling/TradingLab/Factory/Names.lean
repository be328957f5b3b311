import TradingLab.Factory.Results
import TradingLab.Factory.Partition
import TradingLab.Factory.Transitions

/-!
# Names below a results root

The generator numbers its candidates. The paths that are made from their names,
from the codes of batches and from digests are taken as they are.
-/

namespace TradingLab.Factory

open List

/-- `MCF-PROD-001-000001`, … -/
def candidateName (ordinal : ℕ) : String :=
  String.ofList ("MCF-PROD-001-".toList ++ paddedDigits 6 ordinal)

/-- A plan of candidates that the generator has named. -/
structure FrozenPlan extends Plan where
  generated : ∀ b ∈ toPlan.batches, ∀ row ∈ b.candidates,
    ∃ ordinal, row.candidateId = candidateName ordinal

/-- A sealed name is recognised by one of its letters, or by a digit after a letter. -/
theorem isSealed_eq_false {part : List Char} (hh : 'h' ∉ part.map Char.toLower)
    (hv : 'v' ∉ part.map Char.toLower)
    (hil : 'i' ∉ part.map Char.toLower ∨ 'l' ∉ part.map Char.toLower)
    (hp : (part.map Char.toLower).IsChain fun a b => ¬ (a = 'p' ∧ b = '1')) :
    isSealed part = false := by
  rw [isSealed, any_eq_false]
  intro name hname hany
  rw [any_eq_true] at hany
  obtain ⟨tail, htail, hstart⟩ := hany
  have hinfix : name.toList <:+: part.map Char.toLower :=
    (List.isPrefixOf_iff_prefix.mp hstart).isInfix.trans ((mem_tails _ _).mp htail).isInfix
  have hmem : ∀ c ∈ name.toList, c ∈ part.map Char.toLower := fun c hc => hinfix.subset hc
  rcases mem_cons.mp hname with rfl | hname
  · have hchain : ("p10".toList).IsChain fun a b => ¬ (a = 'p' ∧ b = '1') := hp.infix hinfix
    revert hchain
    decide
  · have hletters : 'h' ∈ name.toList ∨ 'v' ∈ name.toList ∨
        'i' ∈ name.toList ∧ 'l' ∈ name.toList := by
      fin_cases hname <;> decide
    rcases hletters with h | h | ⟨hi, hl⟩
    · exact hh (hmem _ h)
    · exact hv (hmem _ h)
    · exact hil.elim (fun hno => hno (hmem _ hi)) fun hno => hno (hmem _ hl)

variable {cs : List Char} {manifestSha bundleSha : String}

theorem isChain_of_not_mem (h : 'p' ∉ cs) :
    cs.IsChain fun a b => ¬ (a = 'p' ∧ b = '1') := by
  induction cs with
  | nil => exact IsChain.nil
  | cons c cs ih =>
    rw [mem_cons, not_or] at h
    rw [isChain_cons]
    exact ⟨fun b _ hb => h.1 hb.1.symm, ih h.2⟩

theorem isChain_append {xs ys : List Char}
    (hxs : xs.IsChain fun a b => ¬ (a = 'p' ∧ b = '1'))
    (hys : ys.IsChain fun a b => ¬ (a = 'p' ∧ b = '1')) (hlast : xs.getLast? ≠ some 'p') :
    (xs ++ ys).IsChain fun a b => ¬ (a = 'p' ∧ b = '1') := by
  rw [List.isChain_append]
  refine ⟨hxs, hys, fun a ha b _ hab => hlast ?_⟩
  rw [← hab.1]
  exact ha

theorem isHexDigit_of_isDigit {c : Char} (h : c.isDigit) : Sha256.isHexDigit c = true := by
  unfold Sha256.isHexDigit
  unfold Char.isDigit at h
  rw [Bool.or_eq_true]
  exact .inl h

theorem toLower_of_isHexDigit {c : Char} (h : Sha256.isHexDigit c = true) :
    c.toLower = c ∧ c ∉ ['h', 'v', 'i', 'l', 'p', '/', '\\'] := by
  constructor
  · unfold Sha256.isHexDigit at h
    simp only [Bool.or_eq_true, Bool.and_eq_true, decide_eq_true_eq, Char.le_def,
      UInt32.le_iff_toNat_le] at h
    apply dif_neg
    rw [ge_iff_le, UInt32.le_iff_toNat_le, UInt32.le_iff_toNat_le]
    have hA : ('A' : Char).val.toNat = 65 := rfl
    have hZ : ('Z' : Char).val.toNat = 90 := rfl
    have h9 : ('9' : Char).val.toNat = 57 := rfl
    have ha : ('a' : Char).val.toNat = 97 := rfl
    omega
  · intro hmem
    revert h
    fin_cases hmem <;> decide

/-- Hexadecimal digits, with dashes between them. -/
def IsDigits (cs : List Char) : Prop := ∀ c ∈ cs, Sha256.isHexDigit c = true ∨ c = '-'

theorem IsDigits.not_mem (h : IsDigits cs) {d : Char}
    (hd : d ∈ ['h', 'v', 'i', 'l', 'p', '/', '\\']) : d ∉ cs := by
  intro hmem
  rcases h d hmem with hdigit | rfl
  · exact (toLower_of_isHexDigit hdigit).2 hd
  · revert hd
    decide

theorem IsDigits.map_toLower (h : IsDigits cs) : cs.map Char.toLower = cs := by
  conv_rhs => rw [← map_id cs]
  apply map_congr_left
  intro c hc
  rcases h c hc with hdigit | rfl
  · exact (toLower_of_isHexDigit hdigit).1
  · rfl

theorem isDigits_paddedDigits (width n : ℕ) : IsDigits (paddedDigits width n) := by
  intro c hc
  rcases mem_append.mp hc with hc | hc
  · rw [eq_of_mem_replicate hc]
    exact .inl rfl
  · exact .inl (isHexDigit_of_isDigit (isDigit_of_mem hc))

theorem isDigits_of_isHexDigest {s : String} (h : Sha256.isHexDigest s = true) :
    IsDigits s.toList := by
  unfold Sha256.isHexDigest at h
  rw [Bool.and_eq_true, all_eq_true] at h
  exact fun c hc => .inl (h.2 c hc)

/-- A name with digits in the middle is taken as it is, when what stands around them is. -/
theorem plainPart_of_digits {lead digits tail : List Char} (hdigits : IsDigits digits)
    (hne : lead ≠ []) (hdot : lead.head? ≠ some '.')
    (hslash : '/' ∉ lead ++ tail ∧ '\\' ∉ lead ++ tail)
    (hhv : 'h' ∉ (lead ++ tail).map Char.toLower ∧ 'v' ∉ (lead ++ tail).map Char.toLower)
    (hil : 'i' ∉ (lead ++ tail).map Char.toLower ∨ 'l' ∉ (lead ++ tail).map Char.toLower)
    (hlead : (lead.map Char.toLower).IsChain fun a b => ¬ (a = 'p' ∧ b = '1'))
    (hlast : (lead.map Char.toLower).getLast? ≠ some 'p')
    (htail : (tail.map Char.toLower).IsChain fun a b => ¬ (a = 'p' ∧ b = '1')) :
    PlainPart (lead ++ digits ++ tail) := by
  have hmem : ∀ d ∈ ['h', 'v', 'i', 'l', 'p', '/', '\\'], d ∉ lead ++ tail →
      d ∉ lead ++ digits ++ tail := by
    intro d hd hno
    simp only [mem_append, not_or] at hno ⊢
    exact ⟨⟨hno.1, hdigits.not_mem hd⟩, hno.2⟩
  have hlower : ∀ d ∈ ['h', 'v', 'i', 'l', 'p', '/', '\\'], d ∉ (lead ++ tail).map Char.toLower →
      d ∉ (lead ++ digits ++ tail).map Char.toLower := by
    intro d hd hno
    simp only [map_append, mem_append, not_or, hdigits.map_toLower] at hno ⊢
    exact ⟨⟨hno.1, hdigits.not_mem hd⟩, hno.2⟩
  have hhead : (lead ++ digits ++ tail).head? = lead.head? := by
    rw [append_assoc, head?_append_of_ne_nil _ hne]
  constructor
  · exact append_ne_nil_of_left_ne_nil (append_ne_nil_of_left_ne_nil hne _) _
  · constructor
    · intro h
      rw [h] at hhead
      exact hdot hhead.symm
    · intro h
      rw [h] at hhead
      exact hdot hhead.symm
  · exact ⟨hmem _ (by decide) hslash.1, hmem _ (by decide) hslash.2⟩
  · apply isSealed_eq_false (hlower _ (by decide) hhv.1) (hlower _ (by decide) hhv.2)
    · exact hil.imp (hlower _ (by decide)) (hlower _ (by decide))
    · rw [append_assoc, map_append, map_append, hdigits.map_toLower]
      apply isChain_append hlead _ hlast
      apply isChain_append (isChain_of_not_mem (hdigits.not_mem (by decide))) htail
      intro h
      exact hdigits.not_mem (d := 'p') (by decide) (mem_of_getLast? h)

theorem plainPart_results : PlainPart "results".toList :=
  ⟨by decide, by decide, by decide, by decide⟩

theorem plainPart_receipts : PlainPart "receipts".toList :=
  ⟨by decide, by decide, by decide, by decide⟩

theorem plainPart_control : PlainPart "control".toList :=
  ⟨by decide, by decide, by decide, by decide⟩

theorem plainPart_batchCode (index : ℕ) : PlainPart (batchCode index).toList := by
  have h : PlainPart (['B'] ++ paddedDigits 3 index ++ []) :=
    plainPart_of_digits (isDigits_paddedDigits 3 index) (by decide) (by decide) (by decide)
      (by decide) (by decide) (by decide) (by decide) (by decide)
  rw [append_nil] at h
  unfold batchCode
  rwa [String.toList_ofList]

theorem plainPart_candidateName (ordinal : ℕ) : PlainPart (candidateName ordinal).toList := by
  have h : PlainPart ("MCF-PROD-001-".toList ++ paddedDigits 6 ordinal ++ []) :=
    plainPart_of_digits (isDigits_paddedDigits 6 ordinal) (by decide) (by decide) (by decide)
      (by decide) (by decide) (by decide) (by decide) (by decide)
  rw [append_nil] at h
  unfold candidateName
  rwa [String.toList_ofList]

theorem plainPart_resultName {sha : String} (h : Sha256.isHexDigest sha = true) :
    PlainPart ("result-".toList ++ sha.toList ++ ".json".toList) :=
  plainPart_of_digits (isDigits_of_isHexDigest h)
    (by decide) (by decide) (by decide) (by decide) (by decide) (by decide) (by decide) (by decide)

theorem plainPart_pauseName (index : ℕ) :
    PlainPart ((batchCode index).toList ++ ".pause".toList) := by
  unfold batchCode
  rw [String.toList_ofList]
  have h : PlainPart (['B'] ++ paddedDigits 3 index ++ ".pause".toList) :=
    plainPart_of_digits (isDigits_paddedDigits 3 index) (by decide) (by decide) (by decide)
      (by decide) (by decide) (by decide) (by decide) (by decide)
  exact h

theorem isDigits_digests
    (hm : Sha256.isHexDigest manifestSha = true) (hb : Sha256.isHexDigest bundleSha = true) :
    IsDigits (manifestSha.toList ++ '-' :: bundleSha.toList) := by
  intro c hc
  rw [mem_append, mem_cons] at hc
  rcases hc with hc | hc | hc
  · exact isDigits_of_isHexDigest hm c hc
  · exact .inr hc
  · exact isDigits_of_isHexDigest hb c hc

theorem plainPart_receiptName
    (hm : Sha256.isHexDigest manifestSha = true) (hb : Sha256.isHexDigest bundleSha = true) :
    PlainPart ("receipt-".toList ++ (manifestSha.toList ++ '-' :: bundleSha.toList) ++
      ".json".toList) :=
  plainPart_of_digits (isDigits_digests hm hb)
    (by decide) (by decide) (by decide) (by decide) (by decide) (by decide) (by decide) (by decide)

theorem plainPart_bundleName
    (hm : Sha256.isHexDigest manifestSha = true) (hb : Sha256.isHexDigest bundleSha = true) :
    PlainPart ("bundle-".toList ++ (manifestSha.toList ++ '-' :: bundleSha.toList) ++
      ".jsonl".toList) :=
  plainPart_of_digits (isDigits_digests hm hb)
    (by decide) (by decide) (by decide) (by decide) (by decide) (by decide) (by decide) (by decide)

theorem batch_eq {plan : Plan} {code : String} {frozen : PlanBatch}
    (h : batch plan code = .ok frozen) : frozen ∈ plan.batches ∧ frozen.batchCode = code := by
  unfold batch at h
  rw [raiseIf_bind_eq_ok] at h
  replace h := h.2
  split at h
  · cases h
  · rename_i found hfind
    cases h
    exact ⟨mem_of_find?_eq_some hfind, by simpa using find?_some hfind⟩

theorem plainPart_code {plan : Plan} {code : String} {frozen : PlanBatch}
    (h : batch plan code = .ok frozen) : ∃ index, code = batchCode index := by
  obtain ⟨hmem, hcode⟩ := batch_eq h
  obtain ⟨index, -, hindex⟩ := plan.code_number (mem_map.mpr ⟨frozen, hmem, hcode⟩)
  exact ⟨index, hindex⟩

section
variable {plan : FrozenPlan} {code : String} {frozen : PlanBatch}
    (hbatch : batch plan.toPlan code = .ok frozen)
include hbatch

theorem pausePath_eq : pausePath code = .ok ["control", code ++ ".pause"] := by
  obtain ⟨index, hindex⟩ := plainPart_code hbatch
  have hplain : ∀ p ∈ ["control".toList, (batchCode index).toList ++ ".pause".toList],
      PlainPart p := by
    intro p hp
    fin_cases hp
    · exact plainPart_control
    · exact plainPart_pauseName index
  have h := safePath_joinSlash hplain
  have htext : String.ofList (joinSlash
      ["control".toList, (batchCode index).toList ++ ".pause".toList]) =
        "control/" ++ code ++ ".pause" := by
    rw [← String.toList_inj, hindex]
    simp [joinSlash]
  rw [htext] at h
  rw [pausePath, h, hindex]
  simp

theorem candidateResultDir_eq {row : PlanCandidate} (hrow : row ∈ frozen.candidates) :
    candidateResultDir code row.candidateId = .ok ["results", code, row.candidateId] := by
  obtain ⟨index, hindex⟩ := plainPart_code hbatch
  obtain ⟨ordinal, hname⟩ := plan.generated frozen (batch_eq hbatch).1 row hrow
  have hplain : ∀ p ∈ ["results".toList, code.toList, row.candidateId.toList], PlainPart p := by
    intro p hp
    fin_cases hp
    · exact plainPart_results
    · rw [hindex]
      exact plainPart_batchCode index
    · rw [hname]
      exact plainPart_candidateName ordinal
  have h := safePath_joinSlash hplain
  have htext : String.ofList (joinSlash ["results".toList, code.toList, row.candidateId.toList]) =
      "results/" ++ code ++ "/" ++ row.candidateId := by
    rw [← String.toList_inj]
    simp [joinSlash]
  rw [htext] at h
  rw [candidateResultDir, h]
  simp

def resultFileName (sha : String) : String := "result-" ++ sha ++ ".json"

omit hbatch in
theorem isResultName_resultFileName (sha : String) : isResultName (resultFileName sha) = true := by
  unfold isResultName resultFileName
  simp only [String.toList_append, Bool.and_eq_true, decide_eq_true_eq, length_append]
  refine ⟨⟨?_, ?_⟩, ?_⟩
  · rw [List.isPrefixOf_iff_prefix, append_assoc]
    exact prefix_append _ _
  · rw [isSuffixOf_iff_suffix]
    exact suffix_append _ _
  · have h1 : "result-".toList.length = 7 := rfl
    have h2 : ".json".toList.length = 5 := rfl
    omega

theorem resultPath_eq {row : PlanCandidate} (hrow : row ∈ frozen.candidates) {sha : String}
    (hsha : Sha256.isHexDigest sha = true) : resultPath code row.candidateId sha =
      .ok ["results", code, row.candidateId, resultFileName sha] := by
  obtain ⟨index, hindex⟩ := plainPart_code hbatch
  obtain ⟨ordinal, hname⟩ := plan.generated frozen (batch_eq hbatch).1 row hrow
  have hplain : ∀ p ∈ ["results".toList, code.toList, row.candidateId.toList,
      "result-".toList ++ sha.toList ++ ".json".toList], PlainPart p := by
    intro p hp
    fin_cases hp
    · exact plainPart_results
    · rw [hindex]
      exact plainPart_batchCode index
    · rw [hname]
      exact plainPart_candidateName ordinal
    · exact plainPart_resultName hsha
  have h := safePath_joinSlash hplain
  have htext : String.ofList (joinSlash ["results".toList, code.toList, row.candidateId.toList,
      "result-".toList ++ sha.toList ++ ".json".toList]) =
        "results/" ++ code ++ "/" ++ row.candidateId ++ "/result-" ++ sha ++ ".json" := by
    rw [← String.toList_inj]
    simp [joinSlash]
  have hfile : String.ofList ("result-".toList ++ sha.toList ++ ".json".toList) =
      resultFileName sha := by
    rw [← String.toList_inj, resultFileName]
    simp
  rw [htext] at h
  rw [resultPath, h]
  simp only [map_cons, map_nil, String.ofList_toList, hfile]

end

theorem candidates_sublist {plan : Plan} {code : String} {frozen : PlanBatch}
    (h : batch plan code = .ok frozen) :
    frozen.candidates.Sublist (plan.batches.flatMap PlanBatch.candidates) := by
  rw [flatMap_def]
  exact sublist_flatten_of_mem (mem_map_of_mem (batch_eq h).1)

theorem length_candidates_le {plan : Plan} {code : String} {frozen : PlanBatch}
    (h : batch plan code = .ok frozen) : frozen.candidates.length ≤ expectedExecutableCount := by
  have hvalid := plan.valid
  unfold Plan.Fields.validate at hvalid
  rw [raiseIf_bind_eq_ok, unit_bind_eq_ok] at hvalid
  have hlength := raiseIf_eq_ok.mp hvalid.2.2
  rw [not_or, not_not, length_map] at hlength
  rw [← hlength.1]
  exact (candidates_sublist h).length_le

theorem nodup_candidateIds {plan : Plan} {code : String} {frozen : PlanBatch}
    (h : batch plan code = .ok frozen) : (frozen.candidates.map PlanCandidate.candidateId).Nodup := by
  have hvalid := plan.valid
  unfold Plan.Fields.validate at hvalid
  rw [raiseIf_bind_eq_ok, unit_bind_eq_ok] at hvalid
  have hsorted := raiseIf_eq_ok.mp hvalid.2.2
  rw [not_or, not_not, not_not] at hsorted
  have htrans : IsTrans String fun a b => keyLt a.toList b.toList = true :=
    ⟨fun _ _ _ => Json.keyLt_trans⟩
  have hpair := isChain_iff_pairwise.mp hsorted.2
  have hnodup : ((plan.batches.flatMap PlanBatch.candidates).map PlanCandidate.candidateId).Nodup := by
    apply hpair.imp
    intro a b hab heq
    rw [heq, Json.keyLt_irrefl] at hab
    cases hab
  exact Nodup.sublist ((candidates_sublist h).map PlanCandidate.candidateId) hnodup

/-- Digits of a fixed width are the digits with zeros before them. -/
theorem fixedDigits_eq (width n : ℕ) (hn : n < 10 ^ (width + 1)) :
    fixedDigits (width + 1) n = paddedDigits (width + 1) n := by
  induction width generalizing n with
  | zero =>
    rw [Nat.zero_add, pow_one] at hn
    rw [fixedDigits, fixedDigits, paddedDigits, Nat.toDigits_of_lt_base hn, Nat.mod_eq_of_lt hn]
    rfl
  | succ width ih =>
    rw [fixedDigits]
    by_cases hlt : n < 10
    · have hzero : fixedDigits (width + 1) 0 = replicate (width + 1) '0' := by
        rw [ih 0 (Nat.pos_of_ne_zero (by simp)), paddedDigits, Nat.toDigits_of_lt_base (by decide)]
        change replicate width '0' ++ ['0'] = _
        rw [replicate_succ']
      rw [Nat.div_eq_of_lt hlt, Nat.mod_eq_of_lt hlt, hzero, paddedDigits,
        Nat.toDigits_of_lt_base hlt]
      rfl
    · have hdigits : Nat.toDigits 10 n = Nat.toDigits 10 (n / 10) ++ [Nat.digitChar (n % 10)] :=
        Nat.toDigits_of_base_le (by decide) (by omega)
      rw [ih (n / 10) (by rw [pow_succ] at hn; omega), paddedDigits, paddedDigits, hdigits,
        length_append, length_singleton, append_assoc]
      congr 2
      omega

theorem sampleCandidate_name {n : ℕ} (hn : n < expectedExecutableCount) :
    (sampleCandidate n).candidateId = candidateName (n + 1) := by
  unfold expectedExecutableCount at hn
  unfold sampleCandidate candidateName
  dsimp only
  rw [fixedDigits_eq 5 (n + 1) (by omega)]

theorem candidates_samplePlan : samplePlan.batches.flatMap PlanBatch.candidates = sampleRows := by
  rw [samplePlan, batches_planOf]
  apply candidates_batchesOf
  rw [sampleRows, length_map, length_range]
  decide

theorem generated_samplePlan {b : PlanBatch} (hb : b ∈ samplePlan.batches) {row : PlanCandidate}
    (hrow : row ∈ b.candidates) : ∃ ordinal, row.candidateId = candidateName ordinal := by
  have hmem : row ∈ sampleRows := by
    rw [← candidates_samplePlan, mem_flatMap]
    exact ⟨b, hb, hrow⟩
  unfold sampleRows at hmem
  obtain ⟨n, hn, rfl⟩ := mem_map.mp hmem
  exact ⟨n + 1, sampleCandidate_name (mem_range.mp hn)⟩

def sampleFrozenPlan : FrozenPlan :=
  ⟨samplePlan, fun _ hb _ hrow => generated_samplePlan hb hrow⟩

def sampleBatch : PlanBatch := batchOf 1 (sampleRows.take logicalBatchSize)

theorem batch_sample : batch sampleFrozenPlan.toPlan "B001" = .ok sampleBatch := by
  have hcount : (sampleRows.length + (logicalBatchSize - 1)) / logicalBatchSize = 13 + 1 := by
    rw [sampleRows, length_map, length_range]
    rfl
  have hbatches : samplePlan.batches =
      sampleBatch :: batchesOf 13 2 (sampleRows.drop logicalBatchSize) := by
    rw [samplePlan, batches_planOf, hcount, batchesOf, sampleBatch]
  have hcode : sampleBatch.batchCode = "B001" := by
    change batchCode 1 = _
    decide
  have htext : isBatchText "B001" = true := by decide
  have hplan : sampleFrozenPlan.toPlan = samplePlan := rfl
  rw [hplan, batch, htext, hbatches, find?_cons_of_pos (by simp [hcode])]
  rfl

end TradingLab.Factory
