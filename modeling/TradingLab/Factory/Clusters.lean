import TradingLab.Factory.Plan
import TradingLab.Json.Arithmetic
import TradingLab.Selection.UnionFind
import Mathlib.Data.String.Basic

/-!
# Clusters of common factors

Two candidates belong together when their daily returns correlate. The pairs are
examined in the order of the series, and a pair that correlates joins the classes of
its candidates. What the interpreter's floating-point arithmetic makes of the common
days of a pair is a parameter.
-/

namespace TradingLab.Factory.Adjudication

open List

open Json (Binary64)

structure DailySeries where
  candidateId : String
  familyId : String
  mechanismId : String
  calendarDays : List ℤ
  returns : List (Option Binary64)
  validMask : List Bool
deriving DecidableEq

inductive ClusterError where
  | refused (e : Failure)
  /-- An operation on floating-point numbers raises. -/
  | arithmetic
  /-- A search for a root has not ended. -/
  | searching
deriving DecidableEq

def isFinite : Binary64 → Bool
  | .finite .. => true
  | _ => false

def validateDay (value : Option Binary64) (valid : Bool) : Except Failure Unit :=
  if valid then
    raiseIf (¬ value.any isFinite) (.mcf "valid daily return is missing/nonfinite")
  else
    raiseIf (value ≠ none) (.mcf "invalid source day cannot carry a synthetic return")

def validateDays : List (Option Binary64) → List Bool → Except Failure Unit
  | value :: values, valid :: mask => do
      validateDay value valid
      validateDays values mask
  | _, _ => return

def DailySeries.validate (s : DailySeries) : Except Failure Unit := do
  let n := s.calendarDays.length
  raiseIf (s.candidateId = "" ∨ s.familyId = "" ∨ s.mechanismId = "" ∨ n < 2)
    (.mcf "invalid daily-series identity")
  raiseIf (s.returns.length ≠ n ∨ s.validMask.length ≠ n) (.mcf "daily-series length mismatch")
  raiseIf (¬ s.calendarDays.IsChain (· < ·)) (.mcf "nonmonotonic daily calendar")
  validateDays s.returns s.validMask

def validateAll : List DailySeries → Except Failure Unit
  | [] => return
  | s :: series => do
      s.validate
      validateAll series

/-- The returns of the days that are valid for both. -/
def validPairs (a b : DailySeries) : List (Binary64 × Binary64) :=
  ((a.returns.zip a.validMask).zip (b.returns.zip b.validMask)).filterMap fun
    | ((some x, true), (some y, true)) => some (x, y)
    | _ => none

/-- `cov / sqrt(vx * vy)` of some pairs, or nothing when a variance is not positive. -/
def Correlation : Type := List (Binary64 × Binary64) → Except ClusterError (Option Binary64)

/-- `max(-1.0, min(1.0, rho))`, or `0.0`. -/
def clamp : Option Binary64 → Binary64
  | none => .finite false 0
  | some rho =>
      let low := if Binary64.lt rho (.finite false 1) then rho else .finite false 1
      if Binary64.lt (.finite true 1) low then low else .finite true 1

/-- Only two common days or more are compared. -/
def rhoOf (correlation : Correlation) (pairs : List (Binary64 × Binary64)) :
    Except ClusterError Binary64 :=
  if pairs.length < 2 then .ok (clamp none) else do
    let rho ← correlation pairs
    return clamp rho

def _pearsonPairs (correlation : Correlation) (a b : DailySeries) :
    Except ClusterError (Binary64 × ℕ) := do
  a.validate.mapError .refused
  b.validate.mapError .refused
  raiseIf (a.calendarDays ≠ b.calendarDays) (.refused (.mcf "daily calendars differ"))
  let pairs := validPairs a b
  let rho ← rhoOf correlation pairs
  return (rho, pairs.length)

/-- The binary64 number of the literal `0.80`. -/
def correlationEdge : Binary64 := Binary64.ofLiteral "0.80"

def isEdge (rho : Binary64) : Bool := Binary64.le correlationEdge rho.abs

structure ClusterEdge where
  a : String
  b : String
  rho : Binary64
  common : ℕ
deriving DecidableEq

/-- The order of tuples: what differs first decides. -/
def ClusterEdge.le (e f : ClusterEdge) : Bool :=
  if e.a ≠ f.a then e.a < f.a
  else if e.b ≠ f.b then e.b < f.b
  else if e.rho ≠ f.rho then Binary64.lt e.rho f.rho
  else e.common ≤ f.common

structure ClusterState where
  parent : String → String
  edges : List ClusterEdge

/-- What a search finds within its rounds. -/
def searched {α : Type} : Option α → Except ClusterError α
  | some a => .ok a
  | none => .error .searching

/-- The pairs of the two nested loops, in their order. -/
def orderedPairs {α : Type} : List α → List (α × α)
  | [] => []
  | a :: as => as.map (fun b => (a, b)) ++ orderedPairs as

/-- The body of the loops: a pair that correlates is an edge and a union. -/
def examine (correlation : Correlation) (rounds : ℕ) (state : ClusterState)
    (pair : DailySeries × DailySeries) : Except ClusterError ClusterState := do
  let (rho, common) ← _pearsonPairs correlation pair.1 pair.2
  if isEdge rho then
    let a := min pair.1.candidateId pair.2.candidateId
    let b := max pair.1.candidateId pair.2.candidateId
    let parent ← searched (UnionFind.union rounds state.parent a b)
    return ⟨parent, state.edges ++ [⟨a, b, rho, common⟩]⟩
  else return state

structure CommonFactorClusters where
  clusters : List (List String)
  edges : List ClusterEdge
  clusterSha256 : Option String := none

def clusterVersion : String := "MCF_COMMON_FACTOR_CLUSTER/1.0.0"

/-- The digest of a result; every correlation is finite. -/
def clusterDigest (clusters : List (List String)) (edges : List ClusterEdge) : String :=
  (Json.dict [
    ("schema", .str clusterVersion),
    ("clusters", .list (clusters.map fun c => .list (c.map .str))),
    ("edges", .list (edges.map fun e =>
      .list [.str e.a, .str e.b, .float e.rho.repr, .int e.common]))]).digest

def candidateIds (series : List DailySeries) : List String := series.map fun s => s.candidateId

/-- A search takes at most one round for every candidate. -/
def commonFactorClusters (correlation : Correlation) (series : List DailySeries) :
    Except ClusterError CommonFactorClusters :=
  if series = [] then return { clusters := [], edges := [] } else do
    (validateAll series).mapError .refused
    let ids := candidateIds series
    let state ← (orderedPairs series).foldlM (examine correlation ids.length) ⟨id, []⟩
    let rooted ← searched
      (UnionFind.roots ids.length state.parent (ids.dedup.insertionSort (· ≤ ·)))
    let clusters := UnionFind.groups rooted
    let edges := state.edges.insertionSort fun e f => e.le f
    return { clusters, edges, clusterSha256 := some (clusterDigest clusters edges) }

theorem validateAll_eq_ok {series : List DailySeries} :
    validateAll series = .ok () ↔ ∀ s ∈ series, s.validate = .ok () := by
  induction series with
  | nil => simp [validateAll, pure, Except.pure]
  | cons s series ih => rw [validateAll, unit_bind_eq_ok, ih, forall_mem_cons]

/-- Two series that can be compared. -/
def Comparable (correlation : Correlation) (a b : DailySeries) : Prop :=
  a.calendarDays = b.calendarDays ∧ ∃ rho, rhoOf correlation (validPairs a b) = .ok rho

/-- Series that are valid and can be compared with each other. -/
structure Accepted (correlation : Correlation) (series : List DailySeries) : Prop where
  valid : ∀ s ∈ series, s.validate = .ok ()
  comparable : series.Pairwise (Comparable correlation)

/-- Two series that correlate. -/
def Correlated (correlation : Correlation) (a b : DailySeries) : Prop :=
  ∃ rho, rhoOf correlation (validPairs a b) = .ok rho ∧ isEdge rho

/-- Candidates with series that correlate. -/
def Linked (correlation : Correlation) (series : List DailySeries) (x y : String) : Prop :=
  ∃ s ∈ series, ∃ t ∈ series, s.candidateId = x ∧ t.candidateId = y ∧ Correlated correlation s t

/-- The test of a pair does not depend on the order of the two. -/
def SymmetricTest (correlation : Correlation) : Prop :=
  ∀ pairs, (rhoOf correlation (pairs.map Prod.swap)).map isEdge =
    (rhoOf correlation pairs).map isEdge

variable {correlation : Correlation} {series : List DailySeries} {a b : DailySeries}

theorem _pearsonPairs_eq_ok {result : Binary64 × ℕ} :
    _pearsonPairs correlation a b = .ok result ↔
      (a.validate = .ok () ∧ b.validate = .ok ()) ∧ a.calendarDays = b.calendarDays ∧
        rhoOf correlation (validPairs a b) = .ok result.1 ∧
        result.2 = (validPairs a b).length := by
  obtain ⟨rho, common⟩ := result
  unfold _pearsonPairs
  rw [unit_bind_eq_ok, mapError_eq_ok, unit_bind_eq_ok, mapError_eq_ok, raiseIf_bind_eq_ok, not_not,
    bind_eq_ok]
  simp only [pure, Except.pure, Except.ok.injEq, Prod.mk.injEq]
  constructor
  · rintro ⟨ha, hb, hdays, rho', hrho, rfl, rfl⟩
    exact ⟨⟨ha, hb⟩, hdays, hrho, rfl⟩
  · rintro ⟨⟨ha, hb⟩, hdays, hrho, rfl⟩
    exact ⟨ha, hb, hdays, rho, hrho, rfl, rfl⟩

theorem validPairs_swap (a b : DailySeries) : validPairs b a = (validPairs a b).map Prod.swap := by
  unfold validPairs
  generalize a.returns.zip a.validMask = xs
  generalize b.returns.zip b.validMask = ys
  induction xs generalizing ys with
  | nil => simp
  | cons x xs ih =>
    cases ys with
    | nil => simp
    | cons y ys =>
      rw [zip_cons_cons, zip_cons_cons, filterMap_cons, filterMap_cons, ih]
      obtain ⟨_ | x, _ | _⟩ := x <;> obtain ⟨_ | y, _ | _⟩ := y <;> rfl

theorem map_eq_ok {ε α β : Type} {f : α → β} {x : Except ε α} {b : β} :
    x.map f = .ok b ↔ ∃ a, x = .ok a ∧ f a = b := by
  cases x <;> simp [Except.map]

theorem Correlated.symm (hsymm : SymmetricTest correlation) (h : Correlated correlation a b) :
    Correlated correlation b a := by
  obtain ⟨rho, hrho, hedge⟩ := h
  have htest := hsymm (validPairs a b)
  rw [← validPairs_swap, hrho] at htest
  obtain ⟨rho', hrho', hedge'⟩ := map_eq_ok.mp htest
  exact ⟨rho', hrho', hedge'.trans hedge⟩

theorem Comparable.symm (hsymm : SymmetricTest correlation) (h : Comparable correlation a b) :
    Comparable correlation b a := by
  obtain ⟨hdays, rho, hrho⟩ := h
  have htest := hsymm (validPairs a b)
  rw [← validPairs_swap, hrho] at htest
  obtain ⟨rho', hrho', -⟩ := map_eq_ok.mp htest
  exact ⟨hdays.symm, rho', hrho'⟩

theorem Accepted.perm (hsymm : SymmetricTest correlation) {series' : List DailySeries}
    (h : Accepted correlation series) (hperm : series'.Perm series) : Accepted correlation series' :=
  ⟨fun s hs => h.valid s (hperm.mem_iff.mp hs),
    (hperm.pairwise_iff fun hab => hab.symm hsymm).mpr h.comparable⟩

section Pairs
variable {α : Type} {as : List α}

theorem mem_of_mem_orderedPairs {p : α × α} (h : p ∈ orderedPairs as) : p.1 ∈ as ∧ p.2 ∈ as := by
  induction as with
  | nil => cases h
  | cons a as ih =>
    rw [orderedPairs, mem_append, mem_map] at h
    rcases h with ⟨b, hb, rfl⟩ | h
    · exact ⟨mem_cons_self, mem_cons_of_mem _ hb⟩
    · exact ⟨mem_cons_of_mem _ (ih h).1, mem_cons_of_mem _ (ih h).2⟩

theorem mem_orderedPairs {x y : α} (hx : x ∈ as) (hy : y ∈ as) :
    x = y ∨ (x, y) ∈ orderedPairs as ∨ (y, x) ∈ orderedPairs as := by
  induction as with
  | nil => cases hx
  | cons a as ih =>
    rw [orderedPairs]
    simp only [mem_append, mem_map, Prod.mk.injEq]
    rcases mem_cons.mp hx with rfl | hx' <;> rcases mem_cons.mp hy with rfl | hy'
    · exact .inl rfl
    · exact .inr (.inl (.inl ⟨y, hy', rfl, rfl⟩))
    · exact .inr (.inr (.inl ⟨x, hx', rfl, rfl⟩))
    · rcases ih hx' hy' with h | h | h
      · exact .inl h
      · exact .inr (.inl (.inr h))
      · exact .inr (.inr (.inr h))

theorem pairwise_iff_orderedPairs {R : α → α → Prop} :
    as.Pairwise R ↔ ∀ p ∈ orderedPairs as, R p.1 p.2 := by
  induction as with
  | nil => simp [orderedPairs]
  | cons a as ih =>
    rw [pairwise_cons, ih, orderedPairs, forall_mem_append, forall_mem_map]

end Pairs

/-- The edges of some pairs. -/
def EdgeOf (correlation : Correlation) (pairs : List (DailySeries × DailySeries)) (x y : String) :
    Prop :=
  ∃ p ∈ pairs, Correlated correlation p.1 p.2 ∧
    x = min p.1.candidateId p.2.candidateId ∧ y = max p.1.candidateId p.2.candidateId

/-- What the parents say after some pairs. -/
structure Joined (correlation : Correlation) (ids : List String)
    (pairs : List (DailySeries × DailySeries)) (state : ClusterState) : Prop where
  reachable : UnionFind.Reachable ids state.parent
  chooses : ∃ ρ, UnionFind.Represents state.parent ρ ∧
    UnionFind.Chooses ids (EdgeOf correlation pairs) ρ

variable {ids : List String} {pairs : List (DailySeries × DailySeries)} {state : ClusterState}
  {pair : DailySeries × DailySeries}

theorem joined_start (correlation : Correlation) (ids : List String) :
    Joined correlation ids [] ⟨id, []⟩ :=
  ⟨.start, id, UnionFind.represents_id, (UnionFind.chooses_id ids).congr fun _ _ =>
    ⟨fun h => h.mono nofun, fun h => h.mono fun _ _ ⟨_, hp, _⟩ => absurd hp List.not_mem_nil⟩⟩

theorem edgeOf_concat {x y : String} : EdgeOf correlation (pairs ++ [pair]) x y ↔
    EdgeOf correlation pairs x y ∨ Correlated correlation pair.1 pair.2 ∧
      x = min pair.1.candidateId pair.2.candidateId ∧
        y = max pair.1.candidateId pair.2.candidateId := by
  unfold EdgeOf
  simp only [mem_append, mem_singleton, or_and_right, exists_or, exists_eq_left]

/-- A pair is examined in full as soon as its two series can be compared. -/
theorem Joined.examine (h : Joined correlation ids pairs state)
    (ha : pair.1.candidateId ∈ ids) (hb : pair.2.candidateId ∈ ids)
    (hva : pair.1.validate = .ok ()) (hvb : pair.2.validate = .ok ()) {rho : Binary64}
    (hrho : rhoOf correlation (validPairs pair.1 pair.2) = .ok rho)
    (hdays : pair.1.calendarDays = pair.2.calendarDays) :
    ∃ state', Adjudication.examine correlation ids.length state pair = .ok state' ∧
      Joined correlation ids (pairs ++ [pair]) state' := by
  have hpearson : _pearsonPairs correlation pair.1 pair.2 =
      .ok (rho, (validPairs pair.1 pair.2).length) :=
    _pearsonPairs_eq_ok.mpr ⟨⟨hva, hvb⟩, hdays, hrho, rfl⟩
  obtain ⟨hreach, ρ, hρ, hchooses⟩ := h
  have hmin : min pair.1.candidateId pair.2.candidateId ∈ ids := by
    rcases min_choice pair.1.candidateId pair.2.candidateId with h | h <;> rw [h] <;> assumption
  have hmax : max pair.1.candidateId pair.2.candidateId ∈ ids := by
    rcases max_choice pair.1.candidateId pair.2.candidateId with h | h <;> rw [h] <;> assumption
  unfold Adjudication.examine
  rw [hpearson, ok_bind]
  dsimp only
  by_cases hedge : isEdge rho
  · obtain ⟨q, hunion, hq, hρq⟩ := UnionFind.exists_union hreach hρ hmin hmax
    rw [if_pos hedge, hunion, searched, ok_bind]
    refine ⟨_, rfl, hq, _, hρq, (hchooses.merge hmin hmax).congr fun x y => ?_⟩
    have hiff : ∀ x y, EdgeOf correlation pairs x y ∨
          x = min pair.1.candidateId pair.2.candidateId ∧
            y = max pair.1.candidateId pair.2.candidateId ↔
        EdgeOf correlation (pairs ++ [pair]) x y := fun x y => by
      rw [edgeOf_concat]
      exact or_congr_right ⟨fun h => ⟨⟨rho, hrho, hedge⟩, h⟩, fun h => h.2⟩
    exact ⟨fun h => h.mono fun x y => (hiff x y).mp, fun h => h.mono fun x y => (hiff x y).mpr⟩
  · rw [if_neg hedge]
    refine ⟨state, rfl, hreach, ρ, hρ, hchooses.congr fun x y => ?_⟩
    have hiff : ∀ x y, EdgeOf correlation pairs x y ↔ EdgeOf correlation (pairs ++ [pair]) x y :=
      fun x y => by
        rw [edgeOf_concat]
        refine (or_iff_left fun ⟨⟨rho', hrho', hedge'⟩, _⟩ => hedge ?_).symm
        rw [hrho] at hrho'
        cases hrho'
        exact hedge'
    exact ⟨fun h => h.mono fun x y => (hiff x y).mp, fun h => h.mono fun x y => (hiff x y).mpr⟩

theorem foldlM_concat_eq_ok {ε σ α : Type} {f : σ → α → Except ε σ} {xs : List α} {x : α} {s t : σ} :
    (xs ++ [x]).foldlM f s = .ok t ↔ ∃ u, xs.foldlM f s = .ok u ∧ f u x = .ok t := by
  rw [foldlM_append, bind_eq_ok]
  simp only [foldlM_cons, foldlM_nil]
  refine exists_congr fun u => and_congr_right fun _ => ?_
  cases f u x <;> simp [bind, Except.bind, pure, Except.pure]

/-- What a run over some pairs returns, and what it takes. -/
theorem joined_of_foldlM (hids : ∀ p ∈ pairs, p.1.candidateId ∈ ids ∧ p.2.candidateId ∈ ids)
    (h : pairs.foldlM (Adjudication.examine correlation ids.length) ⟨id, []⟩ = .ok state) :
    Joined correlation ids pairs state ∧ ∀ p ∈ pairs, Comparable correlation p.1 p.2 := by
  induction pairs using reverseRecOn generalizing state with
  | nil =>
    cases h
    exact ⟨joined_start correlation ids, nofun⟩
  | append_singleton pairs pair ih =>
    obtain ⟨mid, hmid, hlast⟩ := foldlM_concat_eq_ok.mp h
    obtain ⟨hjoined, hcomparable⟩ := ih (fun p hp => hids p (mem_append_left _ hp)) hmid
    obtain ⟨ha, hb⟩ := hids pair (by simp)
    obtain ⟨⟨rho, common⟩, hpearson, -⟩ := bind_eq_ok.mp hlast
    obtain ⟨⟨hva, hvb⟩, hdays, hrho, -⟩ := _pearsonPairs_eq_ok.mp hpearson
    obtain ⟨state', hstate', hjoined'⟩ := hjoined.examine ha hb hva hvb hrho hdays
    rw [hstate'] at hlast
    cases hlast
    refine ⟨hjoined', fun p hp => ?_⟩
    rcases mem_append.mp hp with hp | hp
    · exact hcomparable p hp
    · rw [mem_singleton.mp hp]
      exact ⟨hdays, rho, hrho⟩

theorem exists_foldlM (hids : ∀ p ∈ pairs, p.1.candidateId ∈ ids ∧ p.2.candidateId ∈ ids)
    (hvalid : ∀ p ∈ pairs, p.1.validate = .ok () ∧ p.2.validate = .ok ())
    (hcomparable : ∀ p ∈ pairs, Comparable correlation p.1 p.2) :
    ∃ state, pairs.foldlM (Adjudication.examine correlation ids.length) ⟨id, []⟩ = .ok state := by
  induction pairs using reverseRecOn with
  | nil => exact ⟨_, rfl⟩
  | append_singleton pairs pair ih =>
    obtain ⟨mid, hmid⟩ := ih (fun p hp => hids p (mem_append_left _ hp))
      (fun p hp => hvalid p (mem_append_left _ hp))
      (fun p hp => hcomparable p (mem_append_left _ hp))
    have hjoined := (joined_of_foldlM (fun p hp => hids p (mem_append_left _ hp)) hmid).1
    have hlast : pair ∈ pairs ++ [pair] := by simp
    obtain ⟨hdays, rho, hrho⟩ := hcomparable pair hlast
    obtain ⟨state, hstate, -⟩ := hjoined.examine (hids pair hlast).1 (hids pair hlast).2
      (hvalid pair hlast).1 (hvalid pair hlast).2 hrho hdays
    exact ⟨state, foldlM_concat_eq_ok.mpr ⟨mid, hmid, hstate⟩⟩

theorem candidateIds_of_mem {p : DailySeries × DailySeries} (h : p ∈ orderedPairs series) :
    p.1.candidateId ∈ candidateIds series ∧ p.2.candidateId ∈ candidateIds series := by
  obtain ⟨h1, h2⟩ := mem_of_mem_orderedPairs h
  exact ⟨mem_map_of_mem h1, mem_map_of_mem h2⟩

/-- The classes of all edges are those of the series that correlate. -/
theorem eqvGen_edgeOf (hsymm : SymmetricTest correlation) (x y : String) :
    Relation.EqvGen (EdgeOf correlation (orderedPairs series)) x y ↔
      Relation.EqvGen (Linked correlation series) x y := by
  have hpair : ∀ s t, (s, t) ∈ orderedPairs series → Correlated correlation s t →
      Relation.EqvGen (EdgeOf correlation (orderedPairs series)) s.candidateId t.candidateId := by
    intro s t hst hcorrelated
    have hrel : Relation.EqvGen (EdgeOf correlation (orderedPairs series))
        (min s.candidateId t.candidateId) (max s.candidateId t.candidateId) :=
      .rel _ _ ⟨(s, t), hst, hcorrelated, rfl, rfl⟩
    rcases le_total s.candidateId t.candidateId with hle | hle
    · rwa [min_eq_left hle, max_eq_right hle] at hrel
    · rw [min_eq_right hle, max_eq_left hle] at hrel
      exact hrel.symm
  have hlink : ∀ x y, EdgeOf correlation (orderedPairs series) x y →
      Relation.EqvGen (Linked correlation series) x y := by
    rintro x y ⟨⟨s, t⟩, hst, hcorrelated, rfl, rfl⟩
    obtain ⟨hs, ht⟩ := mem_of_mem_orderedPairs hst
    have hrel : Relation.EqvGen (Linked correlation series) s.candidateId t.candidateId :=
      .rel _ _ ⟨s, hs, t, ht, rfl, rfl, hcorrelated⟩
    rcases le_total s.candidateId t.candidateId with hle | hle
    · rwa [min_eq_left hle, max_eq_right hle]
    · rw [min_eq_right hle, max_eq_left hle]
      exact hrel.symm
  refine ⟨UnionFind.eqvGen_le hlink, UnionFind.eqvGen_le ?_⟩
  rintro x y ⟨s, hs, t, ht, rfl, rfl, hcorrelated⟩
  rcases mem_orderedPairs hs ht with rfl | hst | hts
  · exact .refl _
  · exact hpair s t hst hcorrelated
  · exact (hpair t s hts (hcorrelated.symm hsymm)).symm

theorem sortedIds (hids : (candidateIds series).Nodup) :
    (∀ x, x ∈ (candidateIds series).dedup.insertionSort (· ≤ ·) ↔ x ∈ candidateIds series) ∧
      ((candidateIds series).dedup.insertionSort (· ≤ ·)).Pairwise (· < ·) := by
  rw [hids.dedup]
  have hle := pairwise_insertionSort (· ≤ ·) (candidateIds series)
  have hne : ((candidateIds series).insertionSort (· ≤ ·)).Nodup :=
    (perm_insertionSort _ _).nodup_iff.mpr hids
  exact ⟨fun x => mem_insertionSort _, (hle.and hne).imp fun h => lt_of_le_of_ne h.1 h.2⟩

/-- The clusters of a run that returns are the components, and it returns whatever is accepted. -/
theorem commonFactorClusters_eq_ok (hsymm : SymmetricTest correlation)
    (hids : (candidateIds series).Nodup) :
    (Accepted correlation series → ∃ r, commonFactorClusters correlation series = .ok r) ∧
      ∀ r, commonFactorClusters correlation series = .ok r → Accepted correlation series ∧
        UnionFind.IsComponents (candidateIds series) (Linked correlation series) r.clusters := by
  have hpairs : ∀ p ∈ orderedPairs series, p.1.candidateId ∈ candidateIds series ∧
      p.2.candidateId ∈ candidateIds series := fun p hp => candidateIds_of_mem hp
  have hrooted : ∀ {state}, (orderedPairs series).foldlM
      (Adjudication.examine correlation (candidateIds series).length) ⟨id, []⟩ = .ok state →
      ∃ rooted, UnionFind.roots (candidateIds series).length state.parent
          ((candidateIds series).dedup.insertionSort (· ≤ ·)) = some rooted ∧
        UnionFind.IsComponents (candidateIds series) (Linked correlation series)
          (UnionFind.groups rooted) := by
    intro state hstate
    obtain ⟨hreach, ρ, hρ, hchooses⟩ := (joined_of_foldlM hpairs hstate).1
    obtain ⟨hmem, hsorted⟩ := sortedIds hids
    exact ⟨_, UnionFind.roots_eq hreach hρ fun x hx => (hmem x).mp hx,
      (hchooses.congr (eqvGen_edgeOf hsymm)).isComponents hmem hsorted⟩
  unfold commonFactorClusters
  split_ifs with hempty
  · subst hempty
    refine ⟨fun _ => ⟨_, rfl⟩, fun r h => ?_⟩
    cases h
    exact ⟨⟨nofun, .nil⟩, nofun, nofun, .nil, nofun, nofun⟩
  · constructor
    · intro h
      obtain ⟨state, hstate⟩ := exists_foldlM hpairs
        (fun p hp => ⟨h.valid _ (mem_of_mem_orderedPairs hp).1, h.valid _ (mem_of_mem_orderedPairs hp).2⟩)
        (pairwise_iff_orderedPairs.mp h.comparable)
      obtain ⟨rooted, hroots, -⟩ := hrooted hstate
      have hvalid : (validateAll series).mapError ClusterError.refused = .ok () :=
        mapError_eq_ok.mpr (validateAll_eq_ok.mpr h.valid)
      rw [hvalid, ok_bind]
      dsimp only
      rw [hstate, ok_bind, hroots, searched, ok_bind]
      exact ⟨_, rfl⟩
    · intro r h
      rw [unit_bind_eq_ok, mapError_eq_ok, validateAll_eq_ok] at h
      obtain ⟨hvalid, h⟩ := h
      obtain ⟨state, hstate, h⟩ := bind_eq_ok.mp h
      obtain ⟨rooted, hroots, hcomponents⟩ := hrooted hstate
      dsimp only at h
      rw [hroots, searched, ok_bind] at h
      cases h
      exact ⟨⟨hvalid, pairwise_iff_orderedPairs.mpr (joined_of_foldlM hpairs hstate).2⟩, hcomponents⟩

/-- **Clusters are connected components.** A result is given for the valid series over one calendar
whose floating-point arithmetic raises nowhere; its clusters are the components of the correlation
test, whatever the order of the series. On every map of parents that a run can reach, every search
for a root ends. -/
theorem clusters_are_components (hsymm : SymmetricTest correlation)
    (hids : (candidateIds series).Nodup) :
    ((∃ r, commonFactorClusters correlation series = .ok r) ↔ Accepted correlation series) ∧
    (∀ r, commonFactorClusters correlation series = .ok r →
      UnionFind.IsComponents (candidateIds series) (Linked correlation series) r.clusters ∧
      ∀ series' : List DailySeries, series'.Perm series →
        ∃ r', commonFactorClusters correlation series' = .ok r' ∧ r'.clusters = r.clusters) ∧
    (∀ before after state, orderedPairs series = before ++ after →
      before.foldlM (examine correlation (candidateIds series).length) ⟨id, []⟩ = .ok state →
      UnionFind.Reachable (candidateIds series) state.parent) ∧
    ∀ parent, UnionFind.Reachable (candidateIds series) parent → ∀ x ∈ candidateIds series,
      ∃ parent' root,
        UnionFind.find (candidateIds series).length parent x = some (parent', root) ∧
        UnionFind.Reachable (candidateIds series) parent' := by
  obtain ⟨hreturns, hcomponents⟩ := commonFactorClusters_eq_ok hsymm hids
  refine ⟨⟨fun ⟨r, hr⟩ => (hcomponents r hr).1, hreturns⟩, ?_, ?_, ?_⟩
  · intro r hr
    obtain ⟨haccepted, hclusters⟩ := hcomponents r hr
    refine ⟨hclusters, fun series' hperm => ?_⟩
    have hpermIds : (candidateIds series').Perm (candidateIds series) := hperm.map _
    obtain ⟨hreturns', hcomponents'⟩ :=
      commonFactorClusters_eq_ok hsymm (hpermIds.nodup_iff.mpr hids)
    obtain ⟨r', hr'⟩ := hreturns' (haccepted.perm hsymm hperm)
    refine ⟨r', hr', (hcomponents' r' hr').2.unique hclusters (fun _ => hpermIds.mem_iff) ?_⟩
    have hlinked : Linked correlation series' = Linked correlation series := by
      funext x y
      simp only [Linked, hperm.mem_iff]
    intro x y
    rw [hlinked]
  · intro before after state hsplit hstate
    refine (joined_of_foldlM (fun p hp => candidateIds_of_mem ?_) hstate).1.reachable
    rw [hsplit]
    exact List.mem_append_left _ hp
  · intro parent hparent x hx
    obtain ⟨parent', root, hfind⟩ := UnionFind.exists_find_length hparent.forest hx
    exact ⟨parent', root, hfind, hparent.find hx hfind⟩

def sampleSeries (id : String) (returns : List (Option Binary64)) : DailySeries where
  candidateId := id
  familyId := "TREND"
  mechanismId := "MOMENTUM"
  calendarDays := [0, 1]
  returns := returns
  validMask := [true, true]

def sampleList : List DailySeries := [
  sampleSeries "C" [some (.finite false 0), some (.finite false 1)],
  sampleSeries "B" [some (.finite false 1), some (.finite false 1)],
  sampleSeries "A" [some (.finite false 0), some (.finite false 1)]]

/-- Equal returns correlate; here no others vary. -/
def sampleCorrelation : Correlation := fun pairs =>
  .ok (if ∀ p ∈ pairs, p.1 = p.2 then some (.finite false 1) else none)

theorem symmetricTest_sample : SymmetricTest sampleCorrelation := by
  intro pairs
  have hsame : sampleCorrelation (pairs.map Prod.swap) = sampleCorrelation pairs := by
    unfold sampleCorrelation
    simp only [forall_mem_map, Prod.fst_swap, Prod.snd_swap, eq_comm]
  unfold rhoOf
  rw [length_map, hsame]

theorem clusters_are_components_sample : ∃ r,
    commonFactorClusters sampleCorrelation sampleList = .ok r ∧
      UnionFind.IsComponents ["C", "B", "A"] (Linked sampleCorrelation sampleList) r.clusters := by
  have haccepted : Accepted sampleCorrelation sampleList := by
    constructor
    · decide +kernel
    · have hdays : sampleList.Pairwise fun a b => a.calendarDays = b.calendarDays := by decide
      refine hdays.imp fun hab => ⟨hab, ?_⟩
      unfold rhoOf
      split
      · exact ⟨_, rfl⟩
      · exact ⟨_, rfl⟩
  obtain ⟨hreturns, hclusters, -⟩ := clusters_are_components symmetricTest_sample
    (by decide : (candidateIds sampleList).Nodup)
  obtain ⟨r, hr⟩ := hreturns.mpr haccepted
  exact ⟨r, hr, (hclusters r hr).1⟩

end TradingLab.Factory.Adjudication
