import TradingLab.Production.LedgerLaw

/-!
# Complete ledgers

The records are paired with the candidates one by one, in whatever order they
come. The counts of a complete ledger do not depend on that order.
-/

namespace TradingLab.Production

open List Json

def foundIds (found : List (RawCandidate × Record)) : List String :=
  found.map fun entry => entry.1.candidateId

variable {containerText : Json → String} {raw : List RawCandidate} {freeze : ExecutableFreeze}
  {records : List Record} {es : List (RawCandidate × Record)} {counted : List (Json × List Json)}
  {s : Reconciliation}

theorem foldlM_addRow (hnodup : (raw.map RawCandidate.candidateId).Nodup)
    {start found : List (RawCandidate × Record)}
    (hstart : (foundIds start).Nodup) :
    records.foldlM (addRow containerText raw freeze) start = .ok found ↔
      ∃ es, found = start ++ es ∧ es.map Prod.snd = records ∧ (foundIds found).Nodup ∧
        ∀ e ∈ es, e.1 ∈ raw ∧ Checked containerText freeze e.1 e.2 ∧ SpecFrozen freeze e.1 := by
  induction records generalizing start with
  | nil =>
    constructor
    · intro h
      cases h
      exact ⟨[], by simp, rfl, hstart, by simp⟩
    · intro h
      obtain ⟨es, rfl, hes, -, -⟩ := h
      rw [map_eq_nil_iff] at hes
      rw [hes, append_nil]
      rfl
  | cons row records ih =>
    rw [foldlM_cons, bind_eq_ok]
    constructor
    · intro h
      obtain ⟨next, hrow, hrest⟩ := h
      obtain ⟨candidate, hmem, hnew, hchecked, hfrozen, rfl⟩ := (addRow_eq_ok hnodup).mp hrow
      have hnext : (foundIds (start ++ [(candidate, row)])).Nodup := by
        rw [foundIds, map_append, map_singleton]
        exact nodup_append.mpr ⟨hstart, by simp, fun a ha b hb hab => hnew <| by
          rw [mem_singleton] at hb
          exact hb ▸ hab ▸ ha⟩
      obtain ⟨es, rfl, hes, hfound, hall⟩ := (ih hnext).mp hrest
      refine ⟨(candidate, row) :: es, by simp, by simp [hes], hfound, ?_⟩
      intro e he
      rcases mem_cons.mp he with rfl | he
      · exact ⟨hmem, hchecked, hfrozen⟩
      · exact hall e he
    · intro h
      obtain ⟨es, rfl, hes, hfound, hall⟩ := h
      cases es with
      | nil => cases hes
      | cons e es =>
        rw [map_cons, List.cons.injEq] at hes
        obtain ⟨rfl, hes⟩ := hes
        obtain ⟨hmem, hchecked, hfrozen⟩ := hall e mem_cons_self
        have happend : start ++ e :: es = (start ++ [e]) ++ es := by simp
        rw [happend] at hfound
        have hnext : (foundIds (start ++ [e])).Nodup := by
          unfold foundIds at hfound ⊢
          rw [map_append] at hfound
          exact hfound.of_append_left
        have hnew : e.1.candidateId ∉ start.map fun entry => entry.1.candidateId := by
          unfold foundIds at hnext
          rw [map_append, nodup_append] at hnext
          intro hin
          exact hnext.2.2 _ hin _ (by simp) rfl
        refine ⟨start ++ [e], (addRow_eq_ok hnodup).mpr
          ⟨e.1, hmem, hnew, hchecked, hfrozen, rfl⟩, ?_⟩
        apply (ih hnext).mpr
        rw [happend]
        exact ⟨es, rfl, hes, hfound, fun e' he' => hall e' (mem_cons_of_mem e he')⟩

/-- One record for every candidate, in the order of the records. -/
structure Pairs (raw : List RawCandidate) (records : List Record)
    (es : List (RawCandidate × Record)) : Prop where
  records : es.map Prod.snd = records
  candidates : (es.map Prod.fst).Perm raw

/-- The records are found for all candidates when there is one for every candidate. -/
theorem found_iff (hnodup : (raw.map RawCandidate.candidateId).Nodup) :
    (records.foldlM (addRow containerText raw freeze) [] = .ok es ∧
      ∀ candidate ∈ raw, candidate.candidateId ∈ foundIds es) ↔
      Pairs raw records es ∧
        ∀ e ∈ es, Checked containerText freeze e.1 e.2 ∧ SpecFrozen freeze e.1 := by
  have hstart : (foundIds []).Nodup := nodup_nil
  rw [foldlM_addRow hnodup hstart]
  have hids : foundIds es = (es.map Prod.fst).map RawCandidate.candidateId := by
    rw [foundIds, map_map]
    rfl
  constructor
  · intro h
    obtain ⟨⟨es', hes', hrecords, hfound, hall⟩, hcovered⟩ := h
    rw [nil_append] at hes'
    subst hes'
    refine ⟨⟨hrecords, ?_⟩, fun e he => (hall e he).2⟩
    rw [hids] at hfound
    rw [perm_ext_iff_of_nodup hfound.of_map hnodup.of_map]
    intro candidate
    constructor
    · intro hmem
      obtain ⟨e, he, rfl⟩ := mem_map.mp hmem
      exact (hall e he).1
    · intro hmem
      have hin := hcovered candidate hmem
      obtain ⟨e, he, hid⟩ := mem_map.mp hin
      have heq := inj_on_of_nodup_map hnodup (hall e he).1 hmem hid
      exact heq ▸ mem_map_of_mem he
  · intro h
    obtain ⟨hpairs, hall⟩ := h
    have hperm := hpairs.candidates.map RawCandidate.candidateId
    refine ⟨⟨es, rfl, hpairs.records, ?_, fun e he => ⟨?_, hall e he⟩⟩, fun candidate hmem => ?_⟩
    · rw [hids]
      exact hperm.nodup_iff.mpr hnodup
    · exact hpairs.candidates.mem_iff.mp (mem_map_of_mem he)
    · rw [hids]
      exact hperm.mem_iff.mpr (mem_map_of_mem hmem)

/-- The reasons of the records of a family. -/
def countedReasons (counted : List (Json × List Json)) (family : Json) : List Json :=
  (counted.filter fun entry => decide (family.scalar? = entry.1.scalar?)).flatMap Prod.snd

/-- The families can be put in order, and so can the reasons of each of them. -/
def Orderable (counted : List (Json × List Json)) : Prop :=
  Json.Alike (counted.map Prod.fst) ∧
    ∀ entry ∈ counted, Json.Alike (countedReasons counted entry.1)

theorem countedReasons_congr {family other : Json} (h : family.scalar? = other.scalar?) :
    countedReasons counted family = countedReasons counted other := by
  unfold countedReasons
  rw [h]

variable {counted' : List (Json × List Json)} {summary : List (Json × List (Json × ℕ))}
  {sha : String} {candidate : RawCandidate} {row : Record} {ordered : List Record}

theorem countedReasons_perm (h : counted.Perm counted') (family : Json) :
    (countedReasons counted family).Perm (countedReasons counted' family) :=
  (h.filter _).flatMap_right _

theorem Orderable.perm (h : Orderable counted)
    (hperm : counted'.Perm counted) : Orderable counted' := by
  constructor
  · exact h.1.subset (hperm.map Prod.fst).subset
  · intro entry hentry
    exact (h.2 entry (hperm.mem_iff.mp hentry)).subset (countedReasons_perm hperm entry.1).subset

theorem familyCounter_eq_some {family : Json}
    {entry : Json × List (Json × ℕ)} : familyCounter counted family = some entry ↔
      family = entry.1 ∧ Json.tally (countedReasons counted entry.1) = some entry.2 := by
  unfold familyCounter countedReasons
  rw [Option.map_eq_some_iff]
  constructor
  · intro h
    obtain ⟨counter, htally, rfl⟩ := h
    exact ⟨rfl, htally⟩
  · intro h
    obtain ⟨rfl, htally⟩ := h
    exact ⟨entry.2, htally, rfl⟩

theorem mapM_familyCounter {families : List Json} :
    families.mapM (familyCounter counted) = some summary ↔ families = summary.map Prod.fst ∧
      ∀ entry ∈ summary, Json.tally (countedReasons counted entry.1) = some entry.2 := by
  rw [mapM_eq_some]
  simp only [familyCounter_eq_some]
  induction summary generalizing families with
  | nil => simp
  | cons entry summary ih =>
    rw [forall₂_cons_right_iff, map_cons, forall_mem_cons]
    constructor
    · intro h
      obtain ⟨family, rest, ⟨rfl, htally⟩, hrest, rfl⟩ := h
      obtain ⟨rfl, hall⟩ := ih.mp hrest
      exact ⟨rfl, htally, hall⟩
    · intro h
      obtain ⟨rfl, htally, hall⟩ := h
      exact ⟨entry.1, summary.map Prod.fst, ⟨rfl, htally⟩, ih.mpr ⟨rfl, hall⟩, rfl⟩

theorem familyFailures_eq_ok : familyFailures counted = .ok summary ↔
      Json.sortedSet (counted.map Prod.fst) = some (summary.map Prod.fst) ∧
        ∀ entry ∈ summary, Json.tally (countedReasons counted entry.1) = some entry.2 := by
  unfold familyFailures
  cases hset : sortedSet (counted.map Prod.fst) with
  | none => simp
  | some families =>
    rw [Option.bind_some, Option.some.injEq, ← mapM_familyCounter]
    split
    · next h => simp [h]
    · next h => simp [h]

/-- Families and reasons that can be put in order are counted. -/
theorem familyFailures_iff :
    (∃ summary, familyFailures counted = .ok summary) ↔ Orderable counted := by
  constructor
  · intro h
    obtain ⟨summary, hsummary⟩ := h
    obtain ⟨hset, htally⟩ := familyFailures_eq_ok.mp hsummary
    refine ⟨sortedSet_eq_some_iff.mp ⟨_, hset⟩, fun entry hentry => ?_⟩
    obtain ⟨family, hfamily, hscalar⟩ :=
      exists_mem_sortedSet hset (mem_map_of_mem hentry)
    obtain ⟨e, he, rfl⟩ := mem_map.mp hfamily
    rw [← countedReasons_congr hscalar]
    exact tally_eq_some_iff.mp ⟨_, htally e he⟩
  · intro h
    obtain ⟨hfamilies, hreasons⟩ := h
    obtain ⟨families, hset⟩ := sortedSet_eq_some_iff.mpr hfamilies
    have hcounters : ∀ family ∈ families, ∃ counter,
        tally (countedReasons counted family) = some counter := by
      intro family hfamily
      obtain ⟨entry, hentry, rfl⟩ := mem_map.mp (sortedSet_subset hset hfamily)
      exact tally_eq_some_iff.mpr (hreasons entry hentry)
    choose! counter hcounter using hcounters
    refine ⟨families.map fun family => (family, counter family), familyFailures_eq_ok.mpr ⟨?_, ?_⟩⟩
    · rw [hset, map_map]
      exact congrArg some (map_id families).symm
    · intro entry hentry
      obtain ⟨family, hfamily, rfl⟩ := mem_map.mp hentry
      exact hcounter family hfamily

def CanTally (records : List Record) : Prop :=
  ∃ counted, records.mapM countedOf = .ok counted ∧ Orderable counted

theorem CanTally.perm {records' : List Record} (h : CanTally records)
    (hperm : records'.Perm records) : CanTally records' := by
  obtain ⟨counted, hcounted, horderable⟩ := h
  obtain ⟨counted', hcounted', hperm'⟩ := mapM_perm hperm hcounted
  exact ⟨counted', hcounted', horderable.perm hperm'⟩

theorem digestOf_eq_ok {v : Json} : digestOf v = .ok sha ↔
    v.hasNonFinite = false ∧ v.hasLongInteger = false ∧ sha = v.normal.digest := by
  unfold digestOf
  rw [mapError_eq_ok, Factory.digestText_eq_ok]

theorem Checked.hasText (h : Checked containerText freeze candidate row) :
    (Json.object row.members).hasNonFinite = false ∧
      (Json.object row.members).hasLongInteger = false := by
  obtain ⟨sha, hsha, hsealed⟩ := h.digest
  obtain ⟨hfinite, hlong, -⟩ := digestOf_eq_ok.mp hsha
  rw [← JsonMembers.insert_erase row.held.sorted hsealed]
  exact ⟨membersHaveNonFinite_insert rfl _ hfinite,
    membersHaveLongInteger_insert rfl _ hlong⟩

/-- The records in the order of their candidates. -/
def inOrder (es : List (RawCandidate × Record)) : List (RawCandidate × Record) :=
  es.mergeSort fun a b => decide (a.1.ordinal ≤ b.1.ordinal)

theorem inOrder_perm (es : List (RawCandidate × Record)) : (inOrder es).Perm es :=
  List.mergeSort_perm _ _

def summaryOf (raw : List RawCandidate) (ordered : List Record)
    (families : List (Json × List (Json × ℕ))) (sha : String) : Reconciliation where
  rawCandidateCount := raw.length
  stateCounts := (Json.sortedTexts (ordered.map stateOf)).map fun state =>
    (state, (ordered.map stateOf).count state)
  f0f3PasserCount := (ordered.map stateOf).count f0f3Pass
  familyFailureSummary := families
  ledgerSha256 := sha

theorem summarize_eq_ok :
    summarize raw ordered = .ok s ↔ ∃ counted families sha,
      ordered.mapM countedOf = .ok counted ∧ familyFailures counted = .ok families ∧
      digestOf (.list (ordered.map fun row => .object row.members)) = .ok sha ∧
      s = summaryOf raw ordered families sha := by
  unfold summarize
  constructor
  · intro h
    obtain ⟨counted, hcounted, h⟩ := bind_eq_ok.mp h
    obtain ⟨families, hfamilies, h⟩ := bind_eq_ok.mp h
    obtain ⟨sha, hsha, h⟩ := bind_eq_ok.mp h
    exact ⟨counted, families, sha, hcounted, hfamilies, hsha, (Except.ok.inj h).symm⟩
  · intro h
    obtain ⟨counted, families, sha, hcounted, hfamilies, hsha, rfl⟩ := h
    dsimp only
    rw [hcounted, ok_bind, hfamilies, ok_bind, hsha]
    rfl

/-- The ids are distinct and the freeze is consistent. -/
structure Coherent (raw : List RawCandidate) (freeze : ExecutableFreeze) : Prop where
  ids : (raw.map RawCandidate.candidateId).Nodup
  disjoint : ∀ cid ∈ freeze.registeredCandidates.map Prod.fst, cid ∉ freeze.blockedIds
  specs : ∀ candidate ∈ raw, SpecFrozen freeze candidate

/-- When the ledger is complete, and what it is summarised to. -/
theorem reconcile_eq_ok :
    reconcile containerText raw freeze records = .ok s ↔
      Coherent raw freeze ∧ ∃ es, Pairs raw records es ∧
        (∀ e ∈ es, Checked containerText freeze e.1 e.2) ∧
        summarize raw ((inOrder es).map Prod.snd) = .ok s := by
  unfold reconcile
  rw [raiseIf_bind_eq_ok, raiseIf_bind_eq_ok, not_not, bind_eq_ok]
  constructor
  · intro h
    obtain ⟨hids, hdisjoint, es, hes, h⟩ := h
    rw [raiseIf_bind_eq_ok] at h
    obtain ⟨hcovered, hsummary⟩ := h
    have hcovered' : ∀ candidate ∈ raw, candidate.candidateId ∈ foundIds es := by
      intro candidate hmem
      by_contra hnot
      exact hcovered ⟨candidate, hmem, hnot⟩
    obtain ⟨hpairs, hall⟩ := (found_iff hids).mp ⟨hes, hcovered'⟩
    refine ⟨⟨hids, fun cid hcid hblocked => hdisjoint ⟨cid, hcid, hblocked⟩, ?_⟩, es, hpairs,
      fun e he => (hall e he).1, hsummary⟩
    intro candidate hmem
    obtain ⟨e, he, rfl⟩ := mem_map.mp (hpairs.candidates.mem_iff.mpr hmem)
    exact (hall e he).2
  · intro h
    obtain ⟨hcoherent, es, hpairs, hall, hsummary⟩ := h
    have hmem : ∀ e ∈ es, e.1 ∈ raw := fun e he =>
      hpairs.candidates.mem_iff.mp (mem_map_of_mem he)
    obtain ⟨hes, hcovered⟩ := (found_iff hcoherent.ids).mpr
      ⟨hpairs, fun e he => ⟨hall e he, hcoherent.specs e.1 (hmem e he)⟩⟩
    refine ⟨hcoherent.ids, fun h => ?_, es, hes, ?_⟩
    · obtain ⟨cid, hcid, hblocked⟩ := h
      exact hcoherent.disjoint cid hcid hblocked
    · rw [raiseIf_bind_eq_ok]
      refine ⟨fun h => ?_, hsummary⟩
      obtain ⟨candidate, hcandidate, hnot⟩ := h
      exact hnot (hcovered candidate hcandidate)

/-- The ledger is complete when the candidates and the freeze are coherent, the records can be
counted and there is one record that passes the checks for every candidate. -/
theorem complete_iff :
    (∃ s, reconcile containerText raw freeze records = .ok s) ↔
      Coherent raw freeze ∧ CanTally records ∧
        ∃ es, Pairs raw records es ∧ ∀ e ∈ es, Checked containerText freeze e.1 e.2 := by
  have hperm : ∀ {es}, Pairs raw records es → ((inOrder es).map Prod.snd).Perm records := by
    intro es hpairs
    rw [← hpairs.records]
    exact (inOrder_perm es).map Prod.snd
  constructor
  · intro h
    obtain ⟨s, hs⟩ := h
    obtain ⟨hcoherent, es, hpairs, hall, hsummary⟩ := reconcile_eq_ok.mp hs
    obtain ⟨counted, families, -, hcounted, hfamilies, -, -⟩ := summarize_eq_ok.mp hsummary
    have hcountable : CanTally ((inOrder es).map Prod.snd) :=
      ⟨counted, hcounted, familyFailures_iff.mp ⟨families, hfamilies⟩⟩
    exact ⟨hcoherent, hcountable.perm (hperm hpairs).symm, es, hpairs, hall⟩
  · intro h
    obtain ⟨hcoherent, hcountable, es, hpairs, hall⟩ := h
    obtain ⟨counted, hcounted, horderable⟩ := hcountable.perm (hperm hpairs)
    obtain ⟨families, hfamilies⟩ := familyFailures_iff.mpr horderable
    have htext : ∀ v ∈ ((inOrder es).map Prod.snd).map (fun row : Record => object row.members),
        v.hasNonFinite = false ∧ v.hasLongInteger = false := by
      intro v hv
      obtain ⟨row, hrow, rfl⟩ := mem_map.mp hv
      obtain ⟨e, he, rfl⟩ := mem_map.mp hrow
      exact (hall e ((inOrder_perm es).mem_iff.mp he)).hasText
    have hsha := digestOf_eq_ok.mpr ⟨hasNonFinite_list fun v hv => (htext v hv).1,
      hasLongInteger_list fun v hv => (htext v hv).2, rfl⟩
    exact ⟨_, reconcile_eq_ok.mpr ⟨hcoherent, es, hpairs, hall,
      summarize_eq_ok.mpr ⟨counted, families, _, hcounted, hfamilies, hsha, rfl⟩⟩⟩

/-- The failure reasons of a record. -/
def reasonsOf (row : Record) : List Json :=
  match row.members.lookup "failure_reasons" with
  | some (.array items) => items.toList
  | _ => []

/-- The failure reasons of the candidates of a family. -/
def familyReasons (es : List (RawCandidate × Record)) (family : String) : List Json :=
  (es.filter fun e => decide (e.1.family = family)).flatMap fun e => reasonsOf e.2

/-- The counts are those of the records, and the families are those of the candidates. -/
structure Tells (raw : List RawCandidate) (es : List (RawCandidate × Record))
    (s : Reconciliation) : Prop where
  candidates : s.rawCandidateCount = raw.length
  statesOnce : (s.stateCounts.map Prod.fst).Nodup
  states : ∀ state n, (state, n) ∈ s.stateCounts ↔
    0 < n ∧ n = es.countP fun e => decide (stateOf e.2 = state)
  passers : s.f0f3PasserCount = es.countP fun e => decide (stateOf e.2 = f0f3Pass)
  familiesOnce : (s.familyFailureSummary.map Prod.fst).Nodup
  families : ∀ v, v ∈ s.familyFailureSummary.map Prod.fst ↔ ∃ candidate ∈ raw, v = .str candidate.family
  failures : ∀ entry ∈ s.familyFailureSummary, ∀ family, entry.1 = .str family →
    Json.Counts entry.2 (familyReasons es family)

/-- The records are those that can be written for the candidates, one for each. -/
def OneForEach (raw : List RawCandidate) (freeze : ExecutableFreeze) (records : List Record) : Prop :=
  ∃ es, Pairs raw records es ∧ ∀ e ∈ es, Made freeze e.1 e.2

/-- Reconciliation is complete exactly for one record that can be written for every candidate, and
then counts these. -/
def ReconcilesExactly (containerText : Json → String) (raw : List RawCandidate)
    (freeze : ExecutableFreeze) (records : List Record) : Prop :=
  ((∃ s, reconcile containerText raw freeze records = .ok s) ↔ OneForEach raw freeze records) ∧
  ∀ s, reconcile containerText raw freeze records = .ok s →
    ∃ es, Pairs raw records es ∧ (∀ e ∈ es, Made freeze e.1 e.2) ∧ Tells raw es s

theorem stateCounts_summaryOf {families : List (Json × List (Json × ℕ))} {state : String} {n : ℕ} :
    (state, n) ∈ (summaryOf raw ordered families sha).stateCounts ↔
      0 < n ∧ n = ordered.countP fun row => decide (stateOf row = state) := by
  have hcount : (ordered.map stateOf).count state =
      ordered.countP fun row => decide (stateOf row = state) := by
    rw [count, countP_map]
    congr 1
  unfold summaryOf
  dsimp only
  rw [← hcount, mem_map]
  constructor
  · intro h
    obtain ⟨state', hmem, heq⟩ := h
    obtain ⟨rfl, rfl⟩ := Prod.mk.injEq _ _ _ _ ▸ heq
    exact ⟨count_pos_iff.mpr (mem_sortedTexts.mp hmem), rfl⟩
  · intro h
    obtain ⟨hpos, rfl⟩ := h
    exact ⟨state, mem_sortedTexts.mpr (count_pos_iff.mp hpos), rfl⟩

theorem countedOf_of_written {counted : Json × List Json}
    (h : Written candidate row) (hcounted : countedOf row = .ok counted) :
    counted = (.str candidate.family, reasonsOf row) := by
  obtain ⟨state, result, blockerReason, evidence, failures, reasons, -, hevident⟩ := h.evident
  unfold countedOf fieldOf at hcounted
  rw [h.family, hevident.failureReasons] at hcounted
  unfold reasonsOf
  rw [hevident.failureReasons]
  obtain ⟨family, hfamily, hcounted⟩ := bind_eq_ok.mp hcounted
  cases hfamily
  rw [raiseIf_bind_eq_ok] at hcounted
  obtain ⟨-, hcounted⟩ := hcounted
  obtain ⟨items, hitems, hcounted⟩ := bind_eq_ok.mp hcounted
  cases hitems
  obtain ⟨reasons', hreasons, hcounted⟩ := bind_eq_ok.mp hcounted
  cases hreasons
  rw [raiseIf_bind_eq_ok] at hcounted
  exact (Except.ok.inj hcounted.2).symm

theorem counted_of_written
    (h : ∀ e ∈ es, Written e.1 e.2) (hcounted : (es.map Prod.snd).mapM countedOf = .ok counted) :
    counted = es.map fun e => (.str e.1.family, reasonsOf e.2) := by
  rw [mapM_eq_ok, forall₂_map_left_iff] at hcounted
  induction hcounted with
  | nil => rfl
  | @cons e counted es rest hhead _ ih =>
    rw [map_cons, ← countedOf_of_written (h e mem_cons_self) hhead,
      ← ih fun e' he' => h e' (mem_cons_of_mem e he')]

theorem countedReasons_map (es : List (RawCandidate × Record)) (family : String) :
    countedReasons (es.map fun e => (.str e.1.family, reasonsOf e.2)) (.str family) =
      familyReasons es family := by
  unfold countedReasons familyReasons
  rw [filter_map, flatMap_map]
  congr 2
  funext e
  simp [Function.comp_apply, eq_comm]

/-- A summary of records that are written for their candidates tells the counts of these. -/
theorem tells_of_written (hpairs : Pairs raw records es)
    (h : ∀ e ∈ es, Written e.1 e.2) (hs : summarize raw ((inOrder es).map Prod.snd) = .ok s) :
    Tells raw es s := by
  obtain ⟨counted, families, sha, hcounted, hfamilies, -, rfl⟩ := summarize_eq_ok.mp hs
  have hperm := inOrder_perm es
  have hcounted' := counted_of_written (fun e he => h e (hperm.mem_iff.mp he)) hcounted
  obtain ⟨hset, htally⟩ := familyFailures_eq_ok.mp hfamilies
  have hstate : ∀ state, ((inOrder es).map Prod.snd).countP (fun row => decide (stateOf row = state)) =
      es.countP fun e => decide (stateOf e.2 = state) := by
    intro state
    rw [countP_map]
    exact hperm.countP_eq _
  have hkeys : families.map Prod.fst =
      (sortedTexts ((inOrder es).map fun e => e.1.family)).map .str := by
    rw [hcounted', map_map] at hset
    have htexts : (inOrder es).map (Prod.fst ∘ fun e => (str e.1.family, reasonsOf e.2)) =
        ((inOrder es).map fun e => e.1.family).map .str := by
      rw [map_map]
      rfl
    rw [htexts, sortedSet_map_str] at hset
    exact (Option.some.inj hset).symm
  have hfamily : ∀ family, family ∈ (inOrder es).map (fun e => e.1.family) ↔
      ∃ candidate ∈ raw, family = candidate.family := by
    intro family
    rw [(hperm.map _).mem_iff, mem_map]
    constructor
    · intro hmem
      obtain ⟨e, he, rfl⟩ := hmem
      exact ⟨e.1, hpairs.candidates.mem_iff.mp (mem_map_of_mem he), rfl⟩
    · intro hmem
      obtain ⟨candidate, hcandidate, rfl⟩ := hmem
      obtain ⟨e, he, rfl⟩ := mem_map.mp (hpairs.candidates.mem_iff.mpr hcandidate)
      exact ⟨e, he, rfl⟩
  constructor
  case candidates => rfl
  case statesOnce =>
    unfold summaryOf
    rw [map_map]
    exact (map_id _).symm ▸ nodup_sortedTexts _
  case states =>
    intro state n
    rw [stateCounts_summaryOf, hstate]
  case passers =>
    rw [← hstate]
    unfold summaryOf
    rw [count, countP_map]
    congr 1
  case familiesOnce =>
    change (families.map Prod.fst).Nodup
    rw [hkeys]
    exact (nodup_sortedTexts _).map fun a b hab => by simpa using hab
  case families =>
    intro v
    change v ∈ families.map Prod.fst ↔ _
    rw [hkeys, mem_map]
    simp only [mem_sortedTexts, hfamily]
    constructor
    · intro hv
      obtain ⟨family, ⟨candidate, hcandidate, rfl⟩, rfl⟩ := hv
      exact ⟨candidate, hcandidate, rfl⟩
    · intro hv
      obtain ⟨candidate, hcandidate, rfl⟩ := hv
      exact ⟨candidate.family, ⟨candidate, hcandidate, rfl⟩, rfl⟩
  case failures =>
    intro entry hentry family hentryFamily
    have hcounts := counts_of_tally (htally entry hentry)
    rw [hcounted', hentryFamily, countedReasons_map] at hcounts
    exact hcounts.perm ((hperm.filter _).flatMap_right _)

/-- The pairs of a list of records are determined by the ids in the records. -/
theorem Pairs.unique {es' : List (RawCandidate × Record)}
    (hids : (raw.map RawCandidate.candidateId).Nodup) (h : Pairs raw records es)
    (h' : Pairs raw records es') (hall : ∀ e ∈ es, Checked containerText freeze e.1 e.2)
    (hall' : ∀ e ∈ es', Checked containerText freeze e.1 e.2) : es = es' := by
  have hraw : ∀ e ∈ es, e.1 ∈ raw := fun e he => h.candidates.mem_iff.mp (mem_map_of_mem he)
  have hraw' : ∀ e ∈ es', e.1 ∈ raw := fun e he => h'.candidates.mem_iff.mp (mem_map_of_mem he)
  have hrows : es.map Prod.snd = es'.map Prod.snd := h.records.trans h'.records.symm
  clear h h'
  induction es generalizing es' with
  | nil => exact (map_eq_nil_iff.mp hrows.symm).symm
  | cons e es ih =>
    cases es' with
    | nil => cases hrows
    | cons e' es' =>
      rw [map_cons, map_cons, List.cons.injEq] at hrows
      obtain ⟨hrow, hrows⟩ := hrows
      have hname := (hall e mem_cons_self).named
      have hname' := (hall' e' mem_cons_self).named
      rw [hrow] at hname
      have hcandidate : e.1 = e'.1 := inj_on_of_nodup_map hids (hraw e mem_cons_self)
        (hraw' e' mem_cons_self) (hname.symm.trans hname')
      rw [Prod.ext hcandidate hrow, ih (fun f hf => hall f (mem_cons_of_mem e hf))
        (fun f hf => hall' f (mem_cons_of_mem e' hf))
        (fun f hf => hraw f (mem_cons_of_mem e hf))
        (fun f hf => hraw' f (mem_cons_of_mem e' hf)) hrows]

/-- Reconciliation is exact when the fields it does not compare are as they are written in every
record it would take, and when what it asks beyond the records themselves holds. -/
theorem reconcilesExactly_iff (containerText : Json → String) (raw : List RawCandidate)
    (freeze : ExecutableFreeze) (records : List Record) :
    ReconcilesExactly containerText raw freeze records ↔
      (Coherent raw freeze → CanTally records → ∀ es, Pairs raw records es →
        (∀ e ∈ es, Checked containerText freeze e.1 e.2) → ∀ e ∈ es, Written e.1 e.2) ∧
      (OneForEach raw freeze records → Coherent raw freeze ∧ CanTally records) := by
  unfold ReconcilesExactly
  constructor
  · intro h
    obtain ⟨hexact, -⟩ := h
    constructor
    · intro hcoherent hcountable es hpairs hall
      obtain ⟨es', hpairs', hmade⟩ :=
        hexact.mp (complete_iff.mpr ⟨hcoherent, hcountable, es, hpairs, hall⟩)
      have heq := hpairs.unique hcoherent.ids hpairs' hall fun e he => (hmade e he).checked
      intro e he
      exact (hmade e (heq ▸ he)).written
    · intro hmade
      obtain ⟨hcoherent, hcountable, -⟩ := complete_iff.mp (hexact.mpr hmade)
      exact ⟨hcoherent, hcountable⟩
  · intro h
    obtain ⟨hwritten, hasked⟩ := h
    have htells : ∀ s, reconcile containerText raw freeze records = .ok s →
        ∃ es, Pairs raw records es ∧ (∀ e ∈ es, Made freeze e.1 e.2) ∧ Tells raw es s := by
      intro s hs
      obtain ⟨hcoherent, es, hpairs, hall, hsummary⟩ := reconcile_eq_ok.mp hs
      have hcountable := (complete_iff.mp ⟨s, hs⟩).2.1
      have hall' := hwritten hcoherent hcountable es hpairs hall
      exact ⟨es, hpairs, fun e he => made_iff.mpr ⟨hall e he, hall' e he⟩,
        tells_of_written hpairs hall' hsummary⟩
    refine ⟨⟨fun hcomplete => ?_, fun hmade => ?_⟩, htells⟩
    · obtain ⟨s, hs⟩ := hcomplete
      obtain ⟨es, hpairs, hmade, -⟩ := htells s hs
      exact ⟨es, hpairs, hmade⟩
    · obtain ⟨hcoherent, hcountable⟩ := hasked hmade
      obtain ⟨es, hpairs, hmade⟩ := hmade
      exact complete_iff.mpr ⟨hcoherent, hcountable, es, hpairs, fun e he => (hmade e he).checked⟩

def trendCandidate : RawCandidate where
  ordinal := 0
  candidateId := "MCF-0001"
  candidateSpecSha256 := "5ec"
  family := "TREND"
  familyId := "F01"
  state := "REGISTERED"
  failureReasons := none

def trendFreeze : ExecutableFreeze := ⟨[("MCF-0001", "5ec")], []⟩

theorem classOf_trendCandidate : trendFreeze.classOf trendCandidate = .executable "5ec" := by
  decide +kernel

def misfiledBody : JsonMembers :=
  recordBody { trendCandidate with family := "BREAKOUT" } developmentFail none noEvidence []

theorem lookup_misfiledBody (key : String) : misfiledBody.lookup key =
    (recordEntries { trendCandidate with family := "BREAKOUT" } developmentFail none noEvidence
      []).lookup key :=
  lookup_recordBody _ _ _ _ _ key

theorem held_misfiledBody : misfiledBody.Held := by
  have hsafety : ledgerSafety.Held := held_dict (by simp [Json.Held])
  unfold misfiledBody
  rw [recordBody_eq]
  exact JsonMembers.Held.foldl_insert (by simp [recordEntries, noEvidence, hsafety, Json.list,
    optionStr, ofOption, Json.Held, JsonItems.ofList, JsonItems.Held]) trivial

def misfiledRecord : Record where
  members := misfiledBody.insert "record_sha256" (.str (Json.object misfiledBody).normal.digest)
  held := held_misfiledBody.insert_str _

theorem lookup_misfiledRecord {key : String} (hkey : key ≠ "record_sha256") :
    misfiledRecord.members.lookup key = misfiledBody.lookup key := by
  unfold misfiledRecord
  dsimp only
  rw [JsonMembers.lookup_insert, if_neg hkey]

theorem checked_misfiledRecord (containerText : Json → String) :
    Checked containerText trendFreeze trendCandidate misfiledRecord := by
  have hlookup := @lookup_misfiledRecord
  simp only [lookup_misfiledBody] at hlookup
  constructor
  case named =>
    unfold Record.candidateId
    rw [@hlookup "candidate_id" (by decide)]
    rfl
  case schema => exact @hlookup "schema" (by decide)
  case digest =>
    have herase : misfiledRecord.members.erase "record_sha256" = misfiledBody := by
      unfold misfiledRecord
      apply JsonMembers.erase_insert
      rw [lookup_misfiledBody]
      exact lookup_recordEntries_eq_none (by decide)
    refine ⟨(object misfiledBody).normal.digest, ?_, ?_⟩
    · rw [herase, digestOf_eq_ok]
      exact ⟨by decide +kernel, by decide +kernel, rfl⟩
    · unfold misfiledRecord
      dsimp only
      rw [JsonMembers.lookup_insert, if_pos rfl]
  case spec => exact @hlookup "candidate_spec_sha256" (by decide)
  case ordinal => exact agrees_of_lookup (@hlookup "ordinal" (by decide)) rfl
  case partition => exact @hlookup "evidence_partition" (by decide)
  case safety => exact agrees_of_lookup (@hlookup "safety" (by decide)) hasNonFinite_ledgerSafety
  case state =>
    refine ⟨developmentFail, ?_, @hlookup "state" (by decide)⟩
    unfold Admits
    rw [classOf_trendCandidate]
    decide

theorem countedOf_misfiledRecord : countedOf misfiledRecord = .ok (.str "BREAKOUT", []) := by
  have hlookup := @lookup_misfiledRecord
  simp only [lookup_misfiledBody] at hlookup
  unfold countedOf fieldOf
  rw [@hlookup "family" (by decide), @hlookup "failure_reasons" (by decide)]
  rfl

/-- A record under a family that is not its candidate's, and without the digest of a result, makes a
ledger complete. -/
theorem misfiled_record_completes : ¬ ReconcilesExactly (fun _ => "") [trendCandidate] trendFreeze
    [misfiledRecord] := by
  rw [reconcilesExactly_iff]
  intro h
  have hcoherent : Coherent [trendCandidate] trendFreeze := by
    constructor
    case ids => decide
    case disjoint => decide
    case specs =>
      intro candidate hcandidate spec hspec
      rw [List.mem_singleton.mp hcandidate] at hspec ⊢
      rw [classOf_trendCandidate] at hspec
      cases hspec
      rfl
  have hcountable : CanTally [misfiledRecord] := by
    refine ⟨[(.str "BREAKOUT", [])], ?_, Json.alike_map_str ["BREAKOUT"], ?_⟩
    · rw [List.mapM_cons, countedOf_misfiledRecord]
      rfl
    · intro entry hentry
      rw [List.mem_singleton.mp hentry]
      exact Json.alike_map_str []
  have hpairs : Pairs [trendCandidate] [misfiledRecord] [(trendCandidate, misfiledRecord)] :=
    ⟨rfl, List.Perm.refl _⟩
  have hwritten := h.1 hcoherent hcountable _ hpairs
    (by simpa using checked_misfiledRecord fun _ => "") _ List.mem_cons_self
  have hfamily := hwritten.family
  rw [lookup_misfiledRecord (by decide), lookup_misfiledBody] at hfamily
  have hother : (recordEntries { trendCandidate with family := "BREAKOUT" } developmentFail none
      noEvidence []).lookup "family" = some (.str "BREAKOUT") := rfl
  rw [hother] at hfamily
  revert hfamily
  decide

end TradingLab.Production
