import TradingLab.Search.SurvivorRank

/-!
# When the survivor ranking is exact

The ranking compares rounded metrics. It is the selection that the recorded
metrics ask for, on every list drawn from a pool of candidates, exactly when the
rounding changes neither which of two eligible candidates dominates nor, where
none does, which comes first.
-/

namespace TradingLab

open Decimal Selection List

namespace Search.Survivor

namespace Candidate

/-- The comparison of two candidates is that of their recorded metrics. -/
structure Agree (ranking : Ranking) (a b : Candidate) : Prop where
  dominance : a._dominates b = true ↔ a.Dominates b
  order : ¬ a.Dominates b → ¬ b.Dominates a →
    (a._tieKey ranking ≤ b._tieKey ranking ↔ a.exactKey ranking ≤ b.exactKey ranking)

theorem not_dominates_self (c : Candidate) : ¬ c.Dominates c := lt_irrefl _

variable {a b : Candidate} {ranking : Ranking}

theorem Dominates.trans {c : Candidate} (hab : a.Dominates b) (hbc : b.Dominates c) :
    a.Dominates c := lt_trans hbc hab

theorem not_codeDominates_self (c : Candidate) : ¬ c._dominates c = true := by
  rw [dominates_iff]
  exact lt_irrefl _

theorem agree_self (ranking : Ranking) (c : Candidate) : Agree ranking c c where
  dominance := iff_of_false c.not_codeDominates_self c.not_dominates_self
  order := fun _ _ => iff_of_true le_rfl le_rfl

theorem trialId_of_exactKey
    (h : a.exactKey ranking = b.exactKey ranking) : a.trialId = b.trialId := by
  unfold exactKey at h
  simp only [toLex_inj, Prod.mk.injEq] at h
  unfold trialId
  rw [h.2.2.2.2.2.2.1, h.2.2.2.2.2.2.2.1, h.2.2.2.2.2.2.2.2]

theorem trialId_of_tieKey (h : a._tieKey ranking = b._tieKey ranking) : a.trialId = b.trialId := by
  unfold _tieKey at h
  simp only [toLex_inj, Prod.mk.injEq] at h
  unfold trialId
  rw [h.2.2.2.2.2.2.1, h.2.2.2.2.2.2.2.1, h.2.2.2.2.2.2.2.2]

end Candidate

section
variable {candidates : List Candidate}

theorem mem_frontier {c : Candidate} : c ∈ _frontier candidates ↔ c ∈ candidates ∧ c.Eligible ∧
    ∀ o ∈ candidates, o.Eligible → o.trialId ≠ c.trialId → ¬ o._dominates c = true := by
  unfold _frontier
  rw [mem_filter, mem_filter, decide_eq_true_eq, Bool.not_eq_true', and_assoc]
  simp

end

theorem select_greedy (ranking : Ranking) (ordered : List Candidate) {counts : Family → ℕ}
    {chosen : List Candidate} (hcounts : ∀ k, counts k = groupCount Candidate.family chosen k)
    (hroom : chosen.length < ranking.overallSurvivorCap) :
    Greedy Candidate.family ranking.familySurvivorCap ranking.overallSurvivorCap chosen ordered
      (_select ranking ordered counts chosen.length) := by
  induction ordered generalizing counts chosen with
  | nil => exact .nil chosen
  | cons item ordered ih =>
    rw [_select]
    split
    · rename_i hfull
      rw [hcounts] at hfull
      exact .skip (fun h => absurd h.1 (by omega)) (ih hcounts hroom)
    · rename_i hfree
      rw [hcounts, not_le] at hfree
      split
      · rename_i hlast
        exact .take ⟨hfree, hroom⟩ (greedy_full (by simpa using hlast) ordered)
      · rename_i hmore
        have hlength : (chosen ++ [item]).length = chosen.length + 1 := by simp
        refine .take ⟨hfree, hroom⟩ ?_
        rw [← hlength]
        apply ih
        · intro k
          unfold groupCount
          rw [countP_append, countP_singleton]
          by_cases hk : item.family = k
          · subst hk
            simp [hcounts, groupCount]
          · simp [Function.update_of_ne (Ne.symm hk), hk, hcounts, groupCount]
        · rw [hlength]
          omega

theorem rel_or_rel {α : Type} {R : α → α → Prop} {xs : List α} (h : xs.Pairwise R) {a b : α}
    (ha : a ∈ xs) (hb : b ∈ xs) (hne : a ≠ b) : R a b ∨ R b a := by
  induction h with
  | nil => cases ha
  | cons hx _ ih =>
    rcases mem_cons.mp ha with rfl | hamem
    · rcases mem_cons.mp hb with rfl | hbmem
      · exact (hne rfl).elim
      · exact .inl (hx b hbmem)
    · rcases mem_cons.mp hb with rfl | hbmem
      · exact .inr (hx a hamem)
      · exact ih hamem hbmem

theorem mergeSort_key {κ : Type} [LinearOrder κ] (key : Candidate → κ) (xs : List Candidate) :
    (xs.mergeSort fun a b => decide (key a ≤ key b)).Pairwise fun a b => key a ≤ key b := by
  have h := @pairwise_mergeSort Candidate (fun a b => decide (key a ≤ key b))
    (by simpa using fun _ _ _ => le_trans) (by simpa using fun a b => le_total (key a) (key b)) xs
  simpa using h

def eligible (candidates : List Candidate) : List Candidate :=
  candidates.filter fun c => decide c.Eligible

/-- The ranking of a list is the Pareto selection on the recorded metrics. -/
structure RanksCorrectly (ranking : Ranking) (candidates : List Candidate) : Prop where
  ids : ∀ id ∈ (_rank candidates ranking).2, ∃ c ∈ candidates, c.trialId = id
  frontier : ∀ c ∈ candidates, c.trialId ∈ (_rank candidates ranking).2 ↔
    c.Eligible ∧ Undominated Candidate.Dominates (eligible candidates) c
  dominated : ∀ c ∈ candidates, c.Eligible → c.trialId ∉ (_rank candidates ranking).2 →
    ∃ f ∈ candidates, f.trialId ∈ (_rank candidates ranking).2 ∧ f.Dominates c
  proposal : ∃ ordered : List Candidate,
    ordered.Perm (candidates.filter fun c => decide (c.trialId ∈ (_rank candidates ranking).2)) ∧
    (ordered.Pairwise fun a b => a.exactKey ranking < b.exactKey ranking) ∧
    Greedy Candidate.family 3 12 [] ordered (_rank candidates ranking).1
  capped : (_rank candidates ranking).1.length ≤ 12 ∧
    ∀ family, groupCount Candidate.family (_rank candidates ranking).1 family ≤ 3
  permuted : ∀ candidates' : List Candidate, candidates'.Perm candidates →
    (_rank candidates' ranking).1 = (_rank candidates ranking).1

/-- Any two eligible candidates of the list agree. -/
def AllAgree (ranking : Ranking) (candidates : List Candidate) : Prop :=
  ∀ a ∈ candidates, ∀ b ∈ candidates, a.Eligible → b.Eligible → a.Agree ranking b

section
variable {ranking : Ranking} {candidates : List Candidate}

theorem eq_of_trialId (hids : (candidates.map Candidate.trialId).Nodup) {a b : Candidate}
    (ha : a ∈ candidates) (hb : b ∈ candidates) (h : a.trialId = b.trialId) : a = b :=
  List.inj_on_of_nodup_map hids ha hb h

variable {c : Candidate} {candidates' : List Candidate}

theorem mem_eligible : c ∈ eligible candidates ↔ c ∈ candidates ∧ c.Eligible := by
  unfold eligible
  rw [mem_filter, decide_eq_true_eq]

theorem mem_frontier_iff (hids : (candidates.map Candidate.trialId).Nodup)
    (hagree : AllAgree ranking candidates) : c ∈ _frontier candidates ↔
      c ∈ candidates ∧ c.Eligible ∧ Undominated Candidate.Dominates (eligible candidates) c := by
  rw [mem_frontier]
  constructor
  · rintro ⟨hc, heligible, hfree⟩
    refine ⟨hc, heligible, fun o ho hdominates => ?_⟩
    obtain ⟨ho, hoeligible⟩ := mem_eligible.mp ho
    by_cases hid : o.trialId = c.trialId
    · rw [eq_of_trialId hids ho hc hid] at hdominates
      exact c.not_dominates_self hdominates
    · exact hfree o ho hoeligible hid ((hagree o ho c hc hoeligible heligible).dominance.mpr hdominates)
  · rintro ⟨hc, heligible, hfree⟩
    refine ⟨hc, heligible, fun o ho hoeligible _ hdominates => ?_⟩
    exact hfree o (mem_eligible.mpr ⟨ho, hoeligible⟩)
      ((hagree o ho c hc hoeligible heligible).dominance.mp hdominates)

theorem mem_rank_ids (hids : (candidates.map Candidate.trialId).Nodup)
    (hc : c ∈ candidates) : c.trialId ∈ (_rank candidates ranking).2 ↔ c ∈ _frontier candidates := by
  change c.trialId ∈ (_frontier candidates).map Candidate.trialId ↔ _
  rw [mem_map]
  constructor
  · rintro ⟨f, hf, hid⟩
    rwa [← eq_of_trialId hids (mem_frontier.mp hf).1 hc hid]
  · intro h
    exact ⟨c, h, rfl⟩

theorem nodup_frontier (hids : (candidates.map Candidate.trialId).Nodup) :
    (_frontier candidates).Nodup := by
  unfold _frontier
  exact ((Nodup.of_map _ hids).filter _).filter _

/-- The order of the frontier by the code's keys is that by the recorded ones. -/
theorem ordered_pairwise (hids : (candidates.map Candidate.trialId).Nodup)
    (hagree : AllAgree ranking candidates) :
    ((_frontier candidates).mergeSort fun a b =>
      decide (a._tieKey ranking ≤ b._tieKey ranking)).Pairwise
        fun a b => a.exactKey ranking < b.exactKey ranking := by
  have hperm := (_frontier candidates).mergeSort_perm fun a b =>
    decide (a._tieKey ranking ≤ b._tieKey ranking)
  have hnodup : ((_frontier candidates).mergeSort fun a b =>
      decide (a._tieKey ranking ≤ b._tieKey ranking)).Nodup :=
    hperm.nodup_iff.mpr (nodup_frontier hids)
  apply ((mergeSort_key (Candidate._tieKey ranking) (_frontier candidates)).and hnodup).imp_of_mem
  intro a b ha hb h
  obtain ⟨hamem, haeligible, hafree⟩ := (mem_frontier_iff hids hagree).mp (hperm.mem_iff.mp ha)
  obtain ⟨hbmem, hbeligible, hbfree⟩ := (mem_frontier_iff hids hagree).mp (hperm.mem_iff.mp hb)
  have hle := ((hagree a hamem b hbmem haeligible hbeligible).order
    (hbfree a (mem_eligible.mpr ⟨hamem, haeligible⟩))
    (hafree b (mem_eligible.mpr ⟨hbmem, hbeligible⟩))).mp h.1
  refine lt_of_le_of_ne hle fun heq => h.2 ?_
  exact eq_of_trialId hids hamem hbmem (Candidate.trialId_of_exactKey heq)

theorem rank_greedy : Greedy Candidate.family 3 12 []
    ((_frontier candidates).mergeSort fun a b =>
      decide (a._tieKey ranking ≤ b._tieKey ranking)) (_rank candidates ranking).1 := by
  have h := @select_greedy ranking ((_frontier candidates).mergeSort fun a b =>
    decide (a._tieKey ranking ≤ b._tieKey ranking)) (fun _ => 0) []
    (fun _ => rfl) (by rw [ranking.registered.2]; decide)
  rw [ranking.registered.1, ranking.registered.2] at h
  exact h

theorem AllAgree.perm (h : AllAgree ranking candidates)
    (hperm : candidates'.Perm candidates) : AllAgree ranking candidates' :=
  fun a ha b hb => h a (hperm.mem_iff.mp ha) b (hperm.mem_iff.mp hb)

theorem frontier_perm (hperm : candidates'.Perm candidates)
    (hids : (candidates.map Candidate.trialId).Nodup) :
    (_frontier candidates').Perm (_frontier candidates) := by
  have hids' : (candidates'.map Candidate.trialId).Nodup := (hperm.map _).nodup_iff.mpr hids
  rw [perm_ext_iff_of_nodup (nodup_frontier hids') (nodup_frontier hids)]
  intro c
  rw [mem_frontier, mem_frontier, hperm.mem_iff]
  simp only [hperm.mem_iff]

theorem exists_dominator (h : ¬ Undominated Candidate.Dominates (eligible candidates) c) :
    ∃ f ∈ eligible candidates,
      Undominated Candidate.Dominates (eligible candidates) f ∧ f.Dominates c :=
  @exists_undominated Candidate Candidate.Dominates Candidate.Dominates.trans
    Candidate.not_dominates_self _ _ h

theorem ranksCorrectly_of_allAgree (hids : (candidates.map Candidate.trialId).Nodup)
    (hagree : AllAgree ranking candidates) : RanksCorrectly ranking candidates where
  ids := by
    intro id hid
    obtain ⟨c, hc, rfl⟩ := mem_map.mp hid
    exact ⟨c, (mem_frontier.mp hc).1, rfl⟩
  frontier := by
    intro c hc
    rw [mem_rank_ids hids hc, mem_frontier_iff hids hagree]
    exact and_iff_right hc
  dominated := by
    intro c hc heligible hoff
    rw [mem_rank_ids hids hc, mem_frontier_iff hids hagree] at hoff
    obtain ⟨f, hf, hundominated, hdominates⟩ :=
      exists_dominator fun h => hoff ⟨hc, heligible, h⟩
    obtain ⟨hf, hfeligible⟩ := mem_eligible.mp hf
    refine ⟨f, hf, ?_, hdominates⟩
    rw [mem_rank_ids hids hf, mem_frontier_iff hids hagree]
    exact ⟨hf, hfeligible, hundominated⟩
  proposal := by
    refine ⟨_, ?_, ordered_pairwise hids hagree, rank_greedy⟩
    refine (mergeSort_perm _ _).trans ?_
    rw [perm_ext_iff_of_nodup (nodup_frontier hids) ((Nodup.of_map _ hids).filter _)]
    intro c
    rw [mem_filter, decide_eq_true_eq]
    constructor
    · intro hc
      have hmem := (mem_frontier.mp hc).1
      exact ⟨hmem, (mem_rank_ids hids hmem).mpr hc⟩
    · rintro ⟨hmem, hc⟩
      exact (mem_rank_ids hids hmem).mp hc
  capped := by
    have h := @rank_greedy ranking candidates
    refine ⟨?_, fun family => ?_⟩
    · simpa using h.length_le (Nat.zero_le _)
    · simpa using h.groupCount_le family (Nat.zero_le _)
  permuted := by
    intro candidates' hperm
    have hids' : (candidates'.map Candidate.trialId).Nodup := (hperm.map _).nodup_iff.mpr hids
    have hsame : ((_frontier candidates').mergeSort fun a b =>
        decide (a._tieKey ranking ≤ b._tieKey ranking)) =
        (_frontier candidates).mergeSort fun a b =>
          decide (a._tieKey ranking ≤ b._tieKey ranking) := by
      refine @Perm.eq_of_pairwise _ (fun a b => a.exactKey ranking < b.exactKey ranking) _ _
        ?_ (ordered_pairwise hids' (hagree.perm hperm)) (ordered_pairwise hids hagree) ?_
      · intro a b _ _ hab hba
        exact absurd hab (lt_asymm hba)
      · exact ((mergeSort_perm _ _).trans (frontier_perm hperm hids)).trans
          (mergeSort_perm _ _).symm
    have h := @rank_greedy ranking candidates'
    rw [hsame] at h
    exact h.unique rank_greedy

end

section
variable {ranking : Ranking} {pair : List Candidate} {a b : Candidate}

theorem dominance_of_ranksCorrectly (hids : (pair.map Candidate.trialId).Nodup)
    (hpair : ∀ c, c ∈ pair ↔ c = a ∨ c = b) (hne : a.trialId ≠ b.trialId)
    (ha : a.Eligible) (hb : b.Eligible) (h : RanksCorrectly ranking pair) :
    a._dominates b = true ↔ a.Dominates b := by
  have hbmem : b ∈ pair := (hpair b).mpr (.inr rfl)
  have hamem : a ∈ pair := (hpair a).mpr (.inl rfl)
  have hfrontier := h.frontier b hbmem
  rw [mem_rank_ids hids hbmem, mem_frontier] at hfrontier
  constructor
  · intro hdominates
    by_contra hnot
    have hundominated : Undominated Candidate.Dominates (eligible pair) b := by
      intro o ho
      rcases (hpair o).mp (mem_eligible.mp ho).1 with rfl | rfl
      · exact hnot
      · exact o.not_dominates_self
    exact (hfrontier.mpr ⟨hb, hundominated⟩).2.2 a hamem ha hne hdominates
  · intro hdominates
    by_contra hnot
    refine (hfrontier.mp ⟨hbmem, hb, ?_⟩).2 a (mem_eligible.mpr ⟨hamem, ha⟩) hdominates
    intro o ho _ hid
    rcases (hpair o).mp ho with rfl | rfl
    · exact hnot
    · exact (hid rfl).elim

theorem agree_of_ranksCorrectly (hids : (pair.map Candidate.trialId).Nodup)
    (hpair : ∀ c, c ∈ pair ↔ c = a ∨ c = b) (hne : a.trialId ≠ b.trialId)
    (ha : a.Eligible) (hb : b.Eligible) (h : RanksCorrectly ranking pair) :
    a.Agree ranking b where
  dominance := dominance_of_ranksCorrectly hids hpair hne ha hb h
  order := by
    intro hab hba
    have hab' : ¬ a._dominates b = true :=
      fun hd => hab ((dominance_of_ranksCorrectly hids hpair hne ha hb h).mp hd)
    have hba' : ¬ b._dominates a = true := fun hd => hba
      ((dominance_of_ranksCorrectly hids (fun c => (hpair c).trans or_comm) hne.symm hb ha h).mp hd)
    have hfrontier : ∀ c, c ∈ _frontier pair ↔ c ∈ pair := by
      intro c
      rw [mem_frontier, and_iff_left_iff_imp]
      intro hc
      rcases (hpair c).mp hc with rfl | rfl
      · refine ⟨ha, fun o ho _ hid => ?_⟩
        rcases (hpair o).mp ho with rfl | rfl
        · exact (hid rfl).elim
        · exact hba'
      · refine ⟨hb, fun o ho _ hid => ?_⟩
        rcases (hpair o).mp ho with rfl | rfl
        · exact hab'
        · exact (hid rfl).elim
    have hlength : pair.length = 2 := by
      have hperm : pair.Perm [a, b] := by
        rw [perm_ext_iff_of_nodup (Nodup.of_map _ hids)
          (by simpa using fun h => hne (congrArg _ h))]
        intro c
        rw [hpair]
        simp
      exact hperm.length_eq
    obtain ⟨ordered, hordered, hsorted, hgreedy⟩ := h.proposal
    have hshort : ordered.length ≤ 2 := by
      rw [hordered.length_eq, ← hlength]
      exact length_filter_le _ _
    have hall := hgreedy.eq_of_short (by simpa using hshort.trans (by decide))
      (by simpa using hshort.trans (by decide))
    have hperm := (_frontier pair).mergeSort_perm fun a b =>
      decide (a._tieKey ranking ≤ b._tieKey ranking)
    have hcode := (@rank_greedy ranking pair)
    have hcodeLength : ((_frontier pair).mergeSort fun a b =>
        decide (a._tieKey ranking ≤ b._tieKey ranking)).length ≤ 2 := by
      rw [hperm.length_eq, ← hlength]
      exact (length_filter_le _ _).trans (length_filter_le _ _)
    have hcodeAll := hcode.eq_of_short (by simpa using hcodeLength.trans (by decide))
      (by simpa using hcodeLength.trans (by decide))
    rw [← hall, hcodeAll] at hsorted
    have hkeys := (mergeSort_key (Candidate._tieKey ranking) (_frontier pair)).and hsorted
    have hmem : ∀ c ∈ pair, c ∈ (_frontier pair).mergeSort fun a b =>
        decide (a._tieKey ranking ≤ b._tieKey ranking) :=
      fun c hc => hperm.mem_iff.mpr ((hfrontier c).mpr hc)
    have hboth := rel_or_rel hkeys (hmem a ((hpair a).mpr (.inl rfl)))
      (hmem b ((hpair b).mpr (.inr rfl))) fun heq => hne (congrArg _ heq)
    rcases hboth with ⟨htie, hexact⟩ | ⟨htie, hexact⟩
    · exact iff_of_true htie hexact.le
    · refine iff_of_false (fun htie' => ?_) (not_le.mpr hexact)
      exact hne (Candidate.trialId_of_tieKey (le_antisymm htie' htie))

end

namespace Candidate
variable {ranking : Ranking} {a b : Candidate}

theorem pfRank_of_finite {c : Candidate} (h : c.profitFactorInfinite = false) :
    c.profit = (c._pfRank.toRat : WithTop ℚ) := by
  unfold _pfRank profit
  rw [h]
  rfl

end Candidate

/-- A candidate that passes both gates. -/
def sampleCandidate (n1 : ℕ) (drawdown : Decimal) : Candidate where
  family := .sma
  n1 := n1
  n2 := 101
  exactGate := true
  neighborRobust := true
  medianReturn := ⟨false, 5, -2⟩
  lowerQuartile := ⟨false, 1, -2⟩
  profitFactor := some ⟨false, 12, -1⟩
  profitFactorInfinite := false
  maximumDrawdown := drawdown
  stressNet := ⟨false, 3, 0⟩
  neighborPassFraction := ⟨false, 75, -2⟩
  largestTradeShare := ⟨false, 1, -1⟩
  profitable := fun _ => .inr rfl

def sampleRanking : Ranking where
  familyComplexity := fun
    | .sma => 1
    | .ema => 2
    | .dema => 3
  familySurvivorCap := 3
  overallSurvivorCap := 12
  registered := ⟨rfl, rfl⟩

end Search.Survivor

end TradingLab
