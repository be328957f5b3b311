import TradingLab.Factory.Plan
import TradingLab.Json.Members
import Mathlib.Data.String.Basic

/-!
# The neighbour graph of the parameters

The candidates of one group are the points of a grid. A point is found by the texts of
its parameters, while its place along a parameter is found by comparing values. The
production generator and the adjudication group their candidates in different ways, and
share the rest.
-/

namespace TradingLab.Factory

open List

inductive NeighborError where
  | refused (e : Failure)
  /-- A dictionary does not have the key. -/
  | keyError (key : String)
deriving DecidableEq

/-- The texts of the errors of one of the two graphs. -/
structure NeighborMessages where
  duplicate : String
  outside : String

structure Domain where
  name : String
  values : List Json
deriving DecidableEq

/-- The domains of a family. No name occurs twice. -/
structure Domains where
  toList : List Domain
  nodup : (toList.map Domain.name).Nodup

namespace Domains

def names (domains : Domains) : List String := domains.toList.map Domain.name

end Domains

/-- A candidate as a point of the grid of its group. -/
structure GridRow (γ : Type) where
  group : γ
  candidateId : String
  parameterVector : JsonMembers
deriving DecidableEq

structure NeighborGraph where
  schema : String
  graph : List (String × List String)
  neighborGraphSha256 : String
deriving DecidableEq

def subscript (vector : JsonMembers) (name : String) : Except NeighborError Json :=
  match vector.lookup name with
  | some v => .ok v
  | none => .error (.keyError name)

/-- `json.dumps` of a value. -/
def keyText (v : Json) : String := v.normal.dumps

def _vectorKey (vector : JsonMembers) (names : List String) : Except NeighborError (List String) :=
  names.mapM fun name => do return keyText (← subscript vector name)

/-- The values one step before and after a position. -/
def stepsFrom (values : List Json) (position : ℕ) : List Json :=
  [(-1 : ℤ), 1].filterMap fun step =>
    let q : ℤ := position + step
    if 0 ≤ q then values[q.toNat]? else none

/-- Run a loop that adds some things for every item. -/
def collect {ε α β : Type} (f : α → Except ε (List β)) (xs : List α) : Except ε (List β) := do
  return (← xs.mapM f).flatten

/-- The neighbours of a vector along one domain. -/
def neighborsAlong (messages : NeighborMessages) (index : List (List String × String))
    (names : List String) (vector : JsonMembers) (domain : Domain) :
    Except NeighborError (List String) := do
  let value ← subscript vector domain.name
  match domain.values.findIdx? fun v => v.same value with
  | none => .error (.refused (.mcf messages.outside))
  | some position =>
      collect (fun v => do
        let key ← _vectorKey (vector.insert domain.name v) names
        return (index.lookup key).toList) (stepsFrom domain.values position)

/-- The edges of one group, from each candidate to its neighbours. -/
def groupEdges {γ : Type} (messages : NeighborMessages) (domains : Domains)
    (rows : List (GridRow γ)) : Except NeighborError (List (String × String)) := do
  let keys ← rows.mapM fun row => _vectorKey row.parameterVector domains.names
  raiseIf (¬ keys.Nodup) (.refused (.mcf messages.duplicate))
  let index := keys.zip (rows.map GridRow.candidateId)
  collect (fun row => do
    let neighbors ← collect (neighborsAlong messages index domains.names row.parameterVector)
      domains.toList
    return neighbors.map fun neighbor => (row.candidateId, neighbor)) rows

/-- The edges of all groups, in the order in which the groups occur first. -/
def graphEdges {γ : Type} [DecidableEq γ] (messages : NeighborMessages)
    (domainsOf : γ → Except NeighborError Domains) (rows : List (GridRow γ)) :
    Except NeighborError (List (String × String)) :=
  collect (fun group => do
    let domains ← domainsOf group
    groupEdges messages domains (rows.filter fun row => row.group = group))
    (rows.map GridRow.group).eraseDups

def sortedNames (names : List String) : List String := names.dedup.insertionSort (· ≤ ·)

def canonicalGraph (ids : List String) (edges : List (String × String)) :
    List (String × List String) :=
  (sortedNames ids).map fun cid =>
    (cid, sortedNames ((edges.filter fun e => e.1 = cid).map Prod.snd))

def neighborGraph (schema : String) (ids : List String) (edges : List (String × String)) :
    NeighborGraph :=
  let graph := canonicalGraph ids edges
  { schema
    graph
    neighborGraphSha256 := (Json.dict [("schema", .str schema),
      ("graph", .dict (graph.map fun row => (row.1, .list (row.2.map .str))))]).digest }

namespace ProductionGenerator

structure FamilyPlan where
  family : String
  domains : Domains

structure NeighborCandidate where
  candidateId : String
  family : String
  timeframe : String
  parameterVector : JsonMembers
deriving DecidableEq

def NeighborCandidate.row (c : NeighborCandidate) : GridRow (String × String) :=
  ⟨(c.family, c.timeframe), c.candidateId, c.parameterVector⟩

/-- The domains of a family; of two plans of one name the later counts. -/
def familyDomains (plan : List FamilyPlan) (family : String) : Option Domains :=
  (plan.reverse.find? fun f => f.family = family).map FamilyPlan.domains

def domainsOf (plan : List FamilyPlan) (group : String × String) : Except NeighborError Domains :=
  match familyDomains plan group.1 with
  | some domains => .ok domains
  | none => .error (.refused (.mcf "candidate has unknown production family"))

def neighborSchema : String := "MCF_PRODUCTION_NEIGHBOR_GRAPH/1.0.0"

def neighborMessages : NeighborMessages where
  duplicate := "duplicate production parameter vector"
  outside := "candidate outside frozen production domain"

/-- One-step parameter neighbors within the same family and timeframe. -/
def buildNeighborGraph (plan : List FamilyPlan) (validCandidates : List NeighborCandidate) :
    Except NeighborError NeighborGraph := do
  raiseIf (validCandidates = []) (.refused (.mcf "empty production candidate set"))
  let rows := validCandidates.map NeighborCandidate.row
  let edges ← graphEdges neighborMessages (domainsOf plan) rows
  return neighborGraph neighborSchema (rows.map GridRow.candidateId) edges

end ProductionGenerator

namespace Adjudication

/-- What the graph reads of a family manifest: what `validate_manifest` returns or raises, and
the `domain_values` of its domains. -/
structure FamilyManifest where
  validated : Except Failure String
  domains : Domains

/-- A candidate, with the fields that it has. -/
structure NeighborCandidate where
  candidateId : Option String
  candidateSpecSha256 : Option String
  familyManifestSha256 : Option String
  parameterVector : Option JsonMembers
deriving DecidableEq

/-- A candidate with the required fields. -/
def NeighborCandidate.row? (c : NeighborCandidate) : Option (GridRow String) := do
  let candidateId ← c.candidateId
  let _ ← c.candidateSpecSha256
  let sha ← c.familyManifestSha256
  let vector ← c.parameterVector
  return ⟨sha, candidateId, vector⟩

/-- The fields of a candidate are there, and so is its manifest. -/
def admitCandidate (manifestsBySha : String → Option FamilyManifest) (c : NeighborCandidate) :
    Except NeighborError (GridRow String) :=
  match c.row? with
  | none => .error (.refused (.mcf "incomplete candidate for neighbor graph"))
  | some row => do
      raiseIf (manifestsBySha row.group = none)
        (.refused (.mcf "candidate family manifest missing"))
      return row

def domainsOf (manifestsBySha : String → Option FamilyManifest) (sha : String) :
    Except NeighborError Domains :=
  match manifestsBySha sha with
  | none => .error (.keyError sha)
  | some manifest => do
      let validated ← manifest.validated.mapError .refused
      raiseIf (validated ≠ sha) (.refused (.mcf "family manifest SHA mismatch"))
      return manifest.domains

def neighborVersion : String := "MCF_NEIGHBOR_GRAPH/1.0.0"

def neighborMessages : NeighborMessages where
  duplicate := "duplicate parameter vector in family"
  outside := "parameter outside frozen domain"

/-- Build the one-step graph from frozen family topology before performance. -/
def buildNeighborGraph (candidates : List NeighborCandidate)
    (manifestsBySha : String → Option FamilyManifest) : Except NeighborError NeighborGraph := do
  let rows ← candidates.mapM (admitCandidate manifestsBySha)
  let edges ← graphEdges neighborMessages (domainsOf manifestsBySha) rows
  return neighborGraph neighborVersion (rows.map GridRow.candidateId) edges

end Adjudication

/-- The result is there and has exactly the members asked for. -/
def Collects {ε β : Type} (x : Except ε (List β)) (P : β → Prop) : Prop :=
  ∃ ys, x = .ok ys ∧ ∀ y, y ∈ ys ↔ P y

section Collects
variable {ε α β : Type} {f : α → Except ε (List β)} {xs : List α} {P : β → Prop}

theorem Collects.congr {Q : β → Prop} {x : Except ε (List β)} (h : Collects x P)
    (hiff : ∀ y, P y ↔ Q y) : Collects x Q := by
  obtain ⟨ys, hx, hys⟩ := h
  exact ⟨ys, hx, fun y => (hys y).trans (hiff y)⟩

theorem collects_collect {Q : α → β → Prop} (h : ∀ x ∈ xs, Collects (f x) (Q x)) :
    Collects (collect f xs) fun y => ∃ x ∈ xs, Q x y := by
  unfold collect
  induction xs with
  | nil => exact ⟨[], rfl, by simp⟩
  | cons x xs ih =>
    obtain ⟨ys, hx, hys⟩ := h x mem_cons_self
    obtain ⟨rest, hrest, hmem⟩ := ih fun z hz => h z (mem_cons_of_mem _ hz)
    obtain ⟨yss, hyss, hflatten⟩ := bind_eq_ok.mp hrest
    refine ⟨ys ++ rest, ?_, fun y => ?_⟩
    · rw [mapM_cons, hx, ok_bind, hyss, ok_bind]
      cases hflatten
      rfl
    · rw [mem_append, hys, hmem]
      exact (exists_mem_cons_iff (fun x => Q x y) x xs).symm

theorem Collects.map {γ : Type} {x : Except ε (List β)} (h : Collects x P) (g : β → γ) :
    Collects (do return (← x).map g) fun z => ∃ y, P y ∧ g y = z := by
  obtain ⟨ys, hx, hys⟩ := h
  refine ⟨ys.map g, by rw [hx]; rfl, fun z => ?_⟩
  rw [mem_map]
  simp only [hys]

end Collects

/-- The values of a domain differ under comparison and as texts. -/
structure Domain.Separated (domain : Domain) : Prop where
  self : ∀ v ∈ domain.values, v.same v = true
  distinct : domain.values.Pairwise fun v w => v.same w = false
  texts : (domain.values.map keyText).Nodup

/-- The vector has the value at a position of the domain. -/
def Domain.At (domain : Domain) (vector : JsonMembers) (position : ℕ) : Prop :=
  ∃ h : position < domain.values.length,
    vector.lookup domain.name = some domain.values[position]

/-- Every parameter of the vector is a value of its domain. -/
def Domains.Draws (domains : Domains) (vector : JsonMembers) : Prop :=
  ∀ domain ∈ domains.toList, ∃ position, domain.At vector position

section Positions
variable {domain other : Domain} {domains : Domains} {v w : JsonMembers} {i j : ℕ}

theorem Domain.Separated.nodup (h : domain.Separated) : domain.values.Nodup := .of_map _ h.texts

theorem Domain.Separated.findIdx?_eq (h : domain.Separated) (hi : i < domain.values.length) :
    (domain.values.findIdx? fun v => v.same domain.values[i]) = some i := by
  rw [findIdx?_eq_some_iff_getElem]
  refine ⟨hi, h.self _ (getElem_mem _), fun j hji => ?_⟩
  have hne := pairwise_iff_getElem.mp h.distinct j i (hji.trans hi) hi hji
  rw [hne]
  exact Bool.false_ne_true

theorem Domain.At.position_eq (h : domain.Separated) (hi : domain.At v i) (hj : domain.At v j) :
    i = j := by
  obtain ⟨hi, hvi⟩ := hi
  obtain ⟨hj, hvj⟩ := hj
  have heq : domain.values[i] = domain.values[j] := Option.some.inj (hvi.symm.trans hvj)
  exact (h.nodup.getElem_inj_iff).mp heq

theorem mem_stepsFrom {values : List Json} {x : Json} : x ∈ stepsFrom values i ↔
    ∃ j, ∃ hj : j < values.length, (j + 1 = i ∨ j = i + 1) ∧ values[j] = x := by
  unfold stepsFrom
  simp only [mem_filterMap, mem_cons, not_mem_nil, or_false]
  constructor
  · rintro ⟨step, hstep, hx⟩
    split at hx
    · next hq =>
      obtain ⟨hj, hx⟩ := List.getElem?_eq_some_iff.mp hx
      exact ⟨_, hj, by omega, hx⟩
    · cases hx
  · rintro ⟨j, hj, hstep, hx⟩
    refine ⟨(j : ℤ) - i, by omega, ?_⟩
    have hq : (i : ℤ) + (j - i) = j := by omega
    rw [hq, if_pos (Int.natCast_nonneg j), Int.toNat_natCast, List.getElem?_eq_some_iff]
    exact ⟨hj, hx⟩

def textAt (vector : JsonMembers) (name : String) : String :=
  keyText ((vector.lookup name).getD .null)

theorem Domain.At.lookup (h : domain.At v i) : ∃ x, v.lookup domain.name = some x := by
  obtain ⟨hi, hv⟩ := h
  exact ⟨_, hv⟩

theorem _vectorKey_eq_ok (h : domains.Draws v) :
    _vectorKey v domains.names = .ok (domains.names.map (textAt v)) := by
  apply mapM_eq_map
  intro name hname
  obtain ⟨domain, hdomain, rfl⟩ := mem_map.mp hname
  obtain ⟨position, hat⟩ := h domain hdomain
  obtain ⟨x, hx⟩ := hat.lookup
  rw [subscript, textAt, hx]
  rfl

theorem textAt_eq_iff (h : domain.Separated) (hv : domain.At v i) (hw : domain.At w j) :
    textAt v domain.name = textAt w domain.name ↔ v.lookup domain.name = w.lookup domain.name := by
  obtain ⟨hi, hv⟩ := hv
  obtain ⟨hj, hw⟩ := hw
  unfold textAt
  rw [hv, hw, Option.getD_some, Option.getD_some, Option.some.injEq]
  constructor
  · intro htext
    exact inj_on_of_nodup_map h.texts (getElem_mem hi) (getElem_mem hj) htext
  · intro heq
    rw [heq]

theorem keys_eq_iff (h : ∀ domain ∈ domains.toList, domain.Separated) (hv : domains.Draws v)
    (hw : domains.Draws w) : domains.names.map (textAt v) = domains.names.map (textAt w) ↔
      ∀ domain ∈ domains.toList, v.lookup domain.name = w.lookup domain.name := by
  rw [Domains.names, map_map, map_map, map_inj_left]
  refine forall₂_congr fun domain hdomain => ?_
  obtain ⟨i, hi⟩ := hv domain hdomain
  obtain ⟨j, hj⟩ := hw domain hdomain
  exact textAt_eq_iff (h domain hdomain) hi hj

theorem Domains.name_inj (hdomain : domain ∈ domains.toList) (hother : other ∈ domains.toList)
    (h : domain.name = other.name) : domain = other :=
  List.inj_on_of_nodup_map domains.nodup hdomain hother h

theorem Domains.Draws.insert (hv : domains.Draws v) (hdomain : domain ∈ domains.toList)
    (hj : j < domain.values.length) : domains.Draws (v.insert domain.name domain.values[j]) := by
  intro other hother
  by_cases hname : other.name = domain.name
  · cases Domains.name_inj hother hdomain hname
    exact ⟨j, hj, by rw [JsonMembers.lookup_insert, if_pos rfl]⟩
  · obtain ⟨i, hi, hlookup⟩ := hv other hother
    exact ⟨i, hi, by rw [JsonMembers.lookup_insert, if_neg hname, hlookup]⟩

end Positions

/-- Two vectors differ in one parameter, by one position of its domain. -/
def Domains.OneStep (domains : Domains) (v w : JsonMembers) : Prop :=
  ∃ domain ∈ domains.toList,
    (∃ i j, domain.At v i ∧ domain.At w j ∧ (j = i + 1 ∨ i = j + 1)) ∧
      ∀ other ∈ domains.toList, other ≠ domain → v.lookup other.name = w.lookup other.name

section OneStep
variable {domain : Domain} {domains : Domains} {v w : JsonMembers} {i j : ℕ}

theorem Domains.OneStep.symm (h : domains.OneStep v w) : domains.OneStep w v := by
  obtain ⟨domain, hdomain, ⟨i, j, hi, hj, hstep⟩, hrest⟩ := h
  exact ⟨domain, hdomain, ⟨j, i, hj, hi, hstep.symm⟩, fun other hother hne =>
    (hrest other hother hne).symm⟩

theorem Domains.OneStep.irrefl (hsep : ∀ domain ∈ domains.toList, domain.Separated) :
    ¬ domains.OneStep v v := by
  rintro ⟨domain, hdomain, ⟨i, j, hi, hj, hstep⟩, -⟩
  have hij := hi.position_eq (hsep domain hdomain) hj
  omega

/-- The vector with one parameter moved has the texts of another vector when that one has the
new value and agrees elsewhere. -/
theorem keys_insert_eq_iff (hsep : ∀ domain ∈ domains.toList, domain.Separated)
    (hv : domains.Draws v) (hw : domains.Draws w) (hdomain : domain ∈ domains.toList)
    (hj : j < domain.values.length) :
    domains.names.map (textAt w) =
        domains.names.map (textAt (v.insert domain.name domain.values[j])) ↔
      domain.At w j ∧ ∀ other ∈ domains.toList, other ≠ domain →
        v.lookup other.name = w.lookup other.name := by
  rw [keys_eq_iff hsep hw (hv.insert hdomain hj)]
  constructor
  · intro h
    refine ⟨⟨hj, ?_⟩, fun other hother hne => ?_⟩
    · rw [h domain hdomain, JsonMembers.lookup_insert, if_pos rfl]
    · have hname : other.name ≠ domain.name := fun hname =>
        hne (Domains.name_inj hother hdomain hname)
      rw [h other hother, JsonMembers.lookup_insert, if_neg hname]
  · rintro ⟨hat, hrest⟩ other hother
    obtain ⟨_, hvalue⟩ := hat
    rw [JsonMembers.lookup_insert]
    by_cases hname : other.name = domain.name
    · rw [if_pos hname, hname, hvalue]
    · rw [if_neg hname]
      exact (hrest other hother fun heq => hname (congrArg Domain.name heq)).symm

end OneStep

/-- The rows of one group: distinct vectors that are drawn from separated domains. -/
structure GridGroup {γ : Type} (domains : Domains) (rows : List (GridRow γ)) : Prop where
  separated : ∀ domain ∈ domains.toList, domain.Separated
  draws : ∀ row ∈ rows, domains.Draws row.parameterVector
  distinct : rows.Pairwise fun r s => ∃ domain ∈ domains.toList,
    r.parameterVector.lookup domain.name ≠ s.parameterVector.lookup domain.name

/-- The index of a group: the texts of every vector with its candidate. -/
def gridIndex {γ : Type} (domains : Domains) (rows : List (GridRow γ)) :
    List (List String × String) :=
  rows.map fun row => (domains.names.map (textAt row.parameterVector), row.candidateId)

section Group
variable {γ : Type} {domains : Domains} {domain : Domain} {rows : List (GridRow γ)}
  {row : GridRow γ} {messages : NeighborMessages} {key : List String} {cid : String} {i : ℕ}

theorem GridGroup.nodup_keys (h : GridGroup domains rows) :
    ((gridIndex domains rows).map Prod.fst).Nodup := by
  rw [gridIndex, map_map, Nodup, pairwise_map]
  refine h.distinct.imp_of_mem fun hr hs hne heq => ?_
  obtain ⟨domain, hdomain, hne⟩ := hne
  exact hne ((keys_eq_iff h.separated (h.draws _ hr) (h.draws _ hs)).mp heq domain hdomain)

theorem GridGroup.lookup_iff (h : GridGroup domains rows) :
    cid ∈ ((gridIndex domains rows).lookup key).toList ↔
      ∃ s ∈ rows, domains.names.map (textAt s.parameterVector) = key ∧ s.candidateId = cid := by
  rw [mem_lookup_of_nodup h.nodup_keys, gridIndex, mem_map]
  simp only [Prod.mk.injEq]

/-- Along one domain, the neighbours of a row are the rows one step away from it. -/
theorem GridGroup.neighborsAlong (h : GridGroup domains rows) (hrow : row ∈ rows)
    (hdomain : domain ∈ domains.toList) :
    Collects (neighborsAlong messages (gridIndex domains rows) domains.names row.parameterVector
      domain) fun cid => ∃ s ∈ rows, s.candidateId = cid ∧
        (∃ i j, domain.At row.parameterVector i ∧ domain.At s.parameterVector j ∧
          (j = i + 1 ∨ i = j + 1)) ∧ ∀ other ∈ domains.toList, other ≠ domain →
            row.parameterVector.lookup other.name = s.parameterVector.lookup other.name := by
  have hdraws := h.draws row hrow
  have hsep := h.separated domain hdomain
  obtain ⟨i, hi⟩ := hdraws domain hdomain
  obtain ⟨hlt, hlookup⟩ := hi
  rw [Factory.neighborsAlong, subscript, hlookup, ok_bind, hsep.findIdx?_eq hlt]
  dsimp only
  refine (collects_collect (Q := fun v cid => ∃ s ∈ rows,
    domains.names.map (textAt s.parameterVector) =
      domains.names.map (textAt (row.parameterVector.insert domain.name v)) ∧
        s.candidateId = cid) fun v hv => ?_).congr fun cid => ?_
  · obtain ⟨j, hj, -, rfl⟩ := mem_stepsFrom.mp hv
    rw [_vectorKey_eq_ok (hdraws.insert hdomain hj), ok_bind]
    exact ⟨_, rfl, fun cid => h.lookup_iff⟩
  · constructor
    · rintro ⟨v, hv, s, hs, hkeys, hcid⟩
      obtain ⟨j, hj, hstep, rfl⟩ := mem_stepsFrom.mp hv
      obtain ⟨hat, hrest⟩ := (keys_insert_eq_iff h.separated hdraws (h.draws s hs) hdomain hj).mp
        hkeys
      exact ⟨s, hs, hcid, ⟨i, j, ⟨hlt, hlookup⟩, hat, by omega⟩, hrest⟩
    · rintro ⟨s, hs, hcid, ⟨i', j, hi', hat, hstep⟩, hrest⟩
      have hii : i' = i := hi'.position_eq hsep ⟨hlt, hlookup⟩
      obtain ⟨hj, hvalue⟩ := hat
      refine ⟨domain.values[j], mem_stepsFrom.mpr ⟨j, hj, by omega, rfl⟩, s, hs, ?_, hcid⟩
      exact (keys_insert_eq_iff h.separated hdraws (h.draws s hs) hdomain hj).mpr
        ⟨⟨hj, hvalue⟩, hrest⟩

theorem GridGroup.edges (h : GridGroup domains rows) :
    Collects (groupEdges messages domains rows) fun e => ∃ r ∈ rows, ∃ s ∈ rows,
      domains.OneStep r.parameterVector s.parameterVector ∧
        (r.candidateId, s.candidateId) = e := by
  have hkeys : rows.mapM (fun row => _vectorKey row.parameterVector domains.names) =
      .ok ((gridIndex domains rows).map Prod.fst) := by
    rw [gridIndex, map_map]
    exact mapM_eq_map fun row hrow => _vectorKey_eq_ok (h.draws row hrow)
  have hindex : ((gridIndex domains rows).map Prod.fst).zip (rows.map GridRow.candidateId) =
      gridIndex domains rows := by
    rw [gridIndex, map_map, zip_map']
    rfl
  rw [groupEdges, hkeys, ok_bind, raiseIf_neg (not_not_intro h.nodup_keys), ok_bind]
  dsimp only
  rw [hindex]
  refine (collects_collect (Q := fun (r : GridRow γ) e => ∃ s ∈ rows,
    domains.OneStep r.parameterVector s.parameterVector ∧ (r.candidateId, s.candidateId) = e)
      fun r hr => ?_)
  refine ((collects_collect fun domain hdomain =>
    h.neighborsAlong hr hdomain).map _).congr fun e => ?_
  constructor
  · rintro ⟨cid, ⟨domain, hdomain, s, hs, rfl, hstep, hrest⟩, he⟩
    exact ⟨s, hs, ⟨domain, hdomain, hstep, hrest⟩, he⟩
  · rintro ⟨s, hs, ⟨domain, hdomain, hstep, hrest⟩, he⟩
    exact ⟨_, ⟨domain, hdomain, s, hs, rfl, hstep, hrest⟩, he⟩

end Group

/-- The candidates of all groups: distinct vectors drawn from separated domains. -/
structure GridRows {γ : Type} (domainsOf : γ → Except NeighborError Domains)
    (rows : List (GridRow γ)) : Prop where
  ids : (rows.map GridRow.candidateId).Nodup
  drawn : ∀ row ∈ rows, ∃ domains, domainsOf row.group = .ok domains ∧
    (∀ domain ∈ domains.toList, domain.Separated) ∧ domains.Draws row.parameterVector
  distinct : rows.Pairwise fun r s => r.group = s.group → ∀ domains,
    domainsOf r.group = .ok domains → ∃ domain ∈ domains.toList,
      r.parameterVector.lookup domain.name ≠ s.parameterVector.lookup domain.name

/-- Two candidates share their group and are one step apart on its grid. -/
def GridNeighbors {γ : Type} (domainsOf : γ → Except NeighborError Domains) (r s : GridRow γ) :
    Prop :=
  r.group = s.group ∧ ∃ domains, domainsOf r.group = .ok domains ∧
    domains.OneStep r.parameterVector s.parameterVector

def NeighborGraph.Adjacent (g : NeighborGraph) (a b : String) : Prop :=
  ∃ neighbors, (a, neighbors) ∈ g.graph ∧ b ∈ neighbors

/-- The graph of the one-step neighbours of some candidates. -/
structure IsGridGraph {γ : Type} (domainsOf : γ → Except NeighborError Domains)
    (rows : List (GridRow γ)) (g : NeighborGraph) : Prop where
  vertices : (g.graph.map Prod.fst).Pairwise (· < ·) ∧
    ∀ a, a ∈ g.graph.map Prod.fst ↔ a ∈ rows.map GridRow.candidateId
  irreflexive : ∀ a, ¬ g.Adjacent a a
  symmetric : ∀ a b, g.Adjacent a b → g.Adjacent b a
  adjacent : ∀ r ∈ rows, ∀ s ∈ rows,
    g.Adjacent r.candidateId s.candidateId ↔ GridNeighbors domainsOf r s

theorem mem_sortedNames {a : String} {names : List String} : a ∈ sortedNames names ↔ a ∈ names := by
  rw [sortedNames, mem_insertionSort, mem_dedup]

theorem sortedNames_pairwise (names : List String) : (sortedNames names).Pairwise (· < ·) := by
  have hle := pairwise_insertionSort (· ≤ ·) names.dedup
  have hne : (sortedNames names).Nodup :=
    (perm_insertionSort _ _).nodup_iff.mpr names.nodup_dedup
  exact (hle.and hne).imp fun h => lt_of_le_of_ne h.1 h.2

theorem sortedNames_congr {names names' : List String} (h : ∀ a, a ∈ names ↔ a ∈ names') :
    sortedNames names = sortedNames names' := by
  have hlt := sortedNames_pairwise names
  have hlt' := sortedNames_pairwise names'
  refine Perm.eq_of_pairwise' (hlt.imp le_of_lt) (hlt'.imp le_of_lt) ?_
  rw [perm_ext_iff_of_nodup (hlt.imp ne_of_lt) (hlt'.imp ne_of_lt)]
  intro a
  rw [mem_sortedNames, mem_sortedNames, h]

section Graph
variable {γ : Type} {domainsOf : γ → Except NeighborError Domains}
  {rows rows' : List (GridRow γ)} {messages : NeighborMessages} {ids ids' : List String}
  {edges edges' : List (String × String)} {schema a b : String}

theorem gridRows_of_domains {domains : Domains}
    (hdomains : ∀ row ∈ rows, domainsOf row.group = .ok domains)
    (hsep : ∀ domain ∈ domains.toList, domain.Separated)
    (hids : (rows.map GridRow.candidateId).Nodup)
    (hdraws : ∀ row ∈ rows, ∀ domain ∈ domains.toList, ∃ v ∈ domain.values,
      row.parameterVector.lookup domain.name = some v)
    (hdistinct : rows.Pairwise fun r s => r.group = s.group → ∃ domain ∈ domains.toList,
      r.parameterVector.lookup domain.name ≠ s.parameterVector.lookup domain.name) :
    GridRows domainsOf rows := by
  refine ⟨hids, fun row hrow => ⟨domains, hdomains row hrow, hsep, fun domain hdomain => ?_⟩,
    hdistinct.imp_of_mem fun hr _ hne hgroup domains' hdomains' => ?_⟩
  · obtain ⟨v, hv, hlookup⟩ := hdraws row hrow domain hdomain
    obtain ⟨position, hlt, rfl⟩ := mem_iff_getElem.mp hv
    exact ⟨position, hlt, hlookup⟩
  · rw [hdomains _ hr] at hdomains'
    cases hdomains'
    exact hne hgroup

theorem GridRows.perm (h : GridRows domainsOf rows) (hperm : rows'.Perm rows) :
    GridRows domainsOf rows' := by
  refine ⟨(hperm.map _).nodup_iff.mpr h.ids, fun row hrow => h.drawn row (hperm.mem_iff.mp hrow),
    (hperm.pairwise_iff ?_).mpr h.distinct⟩
  intro r s hdistinct hgroup domains hdomains
  obtain ⟨domain, hdomain, hne⟩ := hdistinct hgroup.symm domains (hgroup ▸ hdomains)
  exact ⟨domain, hdomain, hne.symm⟩

theorem adjacent_neighborGraph : (neighborGraph schema ids edges).Adjacent a b ↔
    a ∈ ids ∧ (a, b) ∈ edges := by
  unfold NeighborGraph.Adjacent neighborGraph canonicalGraph
  simp only [mem_map, mem_sortedNames, Prod.mk.injEq]
  constructor
  · rintro ⟨neighbors, ⟨cid, hcid, rfl, rfl⟩, hb⟩
    simp only [mem_sortedNames, mem_map, mem_filter, decide_eq_true_eq] at hb
    obtain ⟨⟨c, d⟩, ⟨he, hc⟩, hd⟩ := hb
    cases hc
    cases hd
    exact ⟨hcid, he⟩
  · rintro ⟨ha, he⟩
    refine ⟨_, ⟨a, ha, rfl, rfl⟩, ?_⟩
    simp only [mem_sortedNames, mem_map, mem_filter, decide_eq_true_eq]
    exact ⟨(a, b), ⟨he, rfl⟩, rfl⟩

theorem neighborGraph_congr (hids : ∀ a, a ∈ ids ↔ a ∈ ids') (hedges : ∀ e, e ∈ edges ↔ e ∈ edges') :
    neighborGraph schema ids edges = neighborGraph schema ids' edges' := by
  have hgraph : canonicalGraph ids edges = canonicalGraph ids' edges' := by
    unfold canonicalGraph
    rw [sortedNames_congr hids]
    refine map_congr_left fun cid _ => ?_
    rw [sortedNames_congr fun a => ?_]
    simp only [mem_map, mem_filter, hedges]
  rw [neighborGraph, neighborGraph, hgraph]

/-- The graph of admissible candidates, in whatever order they come. -/
theorem GridRows.isGridGraph (h : GridRows domainsOf rows) (schema : String)
    (hedges : ∀ e, e ∈ edges ↔ ∃ r ∈ rows, ∃ s ∈ rows,
      GridNeighbors domainsOf r s ∧ (r.candidateId, s.candidateId) = e) :
    IsGridGraph domainsOf rows (neighborGraph schema (rows.map GridRow.candidateId) edges) := by
  have hinj : ∀ {r s}, r ∈ rows → s ∈ rows → r.candidateId = s.candidateId → r = s :=
    fun hr hs heq => inj_on_of_nodup_map h.ids hr hs heq
  have hadj : ∀ {a b}, (neighborGraph schema (rows.map GridRow.candidateId) edges).Adjacent a b ↔
      ∃ r ∈ rows, ∃ s ∈ rows, GridNeighbors domainsOf r s ∧
        (r.candidateId, s.candidateId) = (a, b) := by
    intro a b
    rw [adjacent_neighborGraph, hedges]
    refine and_iff_right_of_imp fun he => ?_
    obtain ⟨r, hr, s, -, -, he⟩ := he
    cases he
    exact mem_map_of_mem hr
  constructor
  · rw [neighborGraph, canonicalGraph, map_map]
    have hfst : (sortedNames (rows.map GridRow.candidateId)).map (Prod.fst ∘ fun cid =>
        (cid, sortedNames ((edges.filter fun e => e.1 = cid).map Prod.snd))) =
          sortedNames (rows.map GridRow.candidateId) := map_id _
    rw [hfst]
    exact ⟨sortedNames_pairwise _, fun a => mem_sortedNames⟩
  · intro a ha
    obtain ⟨r, hr, s, hs, ⟨-, domains, hdomains, hstep⟩, he⟩ := hadj.mp ha
    obtain ⟨hra, hsa⟩ := Prod.mk.inj he
    cases hinj hr hs (hra.trans hsa.symm)
    obtain ⟨domains', hdomains', hsep, -⟩ := h.drawn r hr
    rw [hdomains] at hdomains'
    cases hdomains'
    exact Domains.OneStep.irrefl hsep hstep
  · intro a b hab
    obtain ⟨r, hr, s, hs, ⟨hgroup, domains, hdomains, hstep⟩, he⟩ := hadj.mp hab
    cases he
    exact hadj.mpr ⟨s, hs, r, hr, ⟨hgroup.symm, domains, hgroup ▸ hdomains, hstep.symm⟩, rfl⟩
  · intro r hr s hs
    rw [hadj]
    constructor
    · rintro ⟨r', hr', s', hs', hnear, he⟩
      obtain ⟨hra, hsa⟩ := Prod.mk.inj he
      cases hinj hr' hr hra
      cases hinj hs' hs hsa
      exact hnear
    · intro hnear
      exact ⟨r, hr, s, hs, hnear, rfl⟩

variable [DecidableEq γ]

theorem GridRows.group {group : γ} {domains : Domains} (h : GridRows domainsOf rows)
    (hgroup : group ∈ rows.map GridRow.group) (hdomains : domainsOf group = .ok domains) :
    GridGroup domains (rows.filter fun row => row.group = group) := by
  have hdrawn : ∀ row ∈ rows, row.group = group →
      (∀ domain ∈ domains.toList, domain.Separated) ∧ domains.Draws row.parameterVector := by
    intro row hrow heq
    obtain ⟨domains', hdomains', hrest⟩ := h.drawn row hrow
    rw [heq, hdomains] at hdomains'
    cases hdomains'
    exact hrest
  have hmem : ∀ {row}, row ∈ (rows.filter fun row => row.group = group) →
      row ∈ rows ∧ row.group = group := by
    intro row hrow
    rw [mem_filter, decide_eq_true_eq] at hrow
    exact hrow
  obtain ⟨row, hrow, heq⟩ := mem_map.mp hgroup
  refine ⟨(hdrawn row hrow heq).1, fun r hr => (hdrawn r (hmem hr).1 (hmem hr).2).2, ?_⟩
  refine (h.distinct.filter _).imp_of_mem fun {r s} hr hs hdistinct => ?_
  have hr := (hmem hr).2
  have hs := (hmem hs).2
  exact hdistinct (hr.trans hs.symm) domains (hr ▸ hdomains)

/-- The edges are the pairs of neighbours. -/
theorem GridRows.collects (h : GridRows domainsOf rows) (messages : NeighborMessages) :
    Collects (graphEdges messages domainsOf rows) fun e => ∃ r ∈ rows, ∃ s ∈ rows,
      GridNeighbors domainsOf r s ∧ (r.candidateId, s.candidateId) = e := by
  refine (collects_collect (Q := fun group e => ∃ r ∈ rows, ∃ s ∈ rows, r.group = group ∧
    GridNeighbors domainsOf r s ∧ (r.candidateId, s.candidateId) = e)
      fun group hgroup => ?_).congr fun e => ?_
  · rw [mem_eraseDups] at hgroup
    obtain ⟨row, hrow, rfl⟩ := mem_map.mp hgroup
    obtain ⟨domains, hdomains, -⟩ := h.drawn row hrow
    rw [hdomains, ok_bind]
    refine (h.group hgroup hdomains).edges.congr fun e => ?_
    simp only [mem_filter, decide_eq_true_eq]
    constructor
    · rintro ⟨r, ⟨hr, hrg⟩, s, ⟨hs, hsg⟩, hstep, he⟩
      exact ⟨r, hr, s, hs, hrg, ⟨hrg.trans hsg.symm, domains, hrg ▸ hdomains, hstep⟩, he⟩
    · rintro ⟨r, hr, s, hs, hrg, ⟨hrs, domains', hdomains', hstep⟩, he⟩
      rw [hrg, hdomains] at hdomains'
      cases hdomains'
      exact ⟨r, ⟨hr, hrg⟩, s, ⟨hs, hrs.symm.trans hrg⟩, hstep, he⟩
  · constructor
    · rintro ⟨group, -, r, hr, s, hs, -, hrest⟩
      exact ⟨r, hr, s, hs, hrest⟩
    · rintro ⟨r, hr, s, hs, hrest⟩
      exact ⟨r.group, mem_eraseDups.mpr (mem_map_of_mem hr), r, hr, s, hs, rfl, hrest⟩

theorem GridRows.graph (h : GridRows domainsOf rows) (messages : NeighborMessages)
    (schema : String) : ∃ g, IsGridGraph domainsOf rows g ∧ ∀ rows', rows'.Perm rows →
      (do
        let edges ← graphEdges messages domainsOf rows'
        return neighborGraph schema (rows'.map GridRow.candidateId) edges) = .ok g := by
  obtain ⟨edges, -, hmem⟩ := h.collects messages
  refine ⟨_, h.isGridGraph schema hmem, fun rows' hperm => ?_⟩
  obtain ⟨edges', hedges', hmem'⟩ := (h.perm hperm).collects messages
  rw [hedges', ok_bind]
  refine congrArg Except.ok (neighborGraph_congr (fun a => (hperm.map _).mem_iff) fun e => ?_)
  rw [hmem, hmem']
  simp only [hperm.mem_iff]

end Graph

section Versions
open Adjudication in
theorem mapM_admitCandidate {manifestsBySha : String → Option FamilyManifest}
    {candidates : List NeighborCandidate} {rows : List (GridRow String)}
    (hrows : List.Forall₂ (fun c row => c.row? = some row) candidates rows)
    (h : GridRows (domainsOf manifestsBySha) rows) :
    candidates.mapM (admitCandidate manifestsBySha) = .ok rows := by
  have hfound : ∀ row ∈ rows, manifestsBySha row.group ≠ none := by
    intro row hrow hnone
    obtain ⟨domains, hdomains, -⟩ := h.drawn row hrow
    rw [domainsOf, hnone] at hdomains
    cases hdomains
  rw [mapM_eq_ok]
  clear h
  induction hrows with
  | nil => exact .nil
  | cons hrow _ ih =>
    rw [forall_mem_cons] at hfound
    refine .cons ?_ (ih hfound.2)
    rw [admitCandidate, hrow]
    dsimp only
    rw [raiseIf_neg hfound.1]
    rfl

/-- Both graphs are the one-step adjacency of the grid, in whatever order the candidates come:
within a family and timeframe for the production, and within a family manifest for the
adjudication. -/
theorem neighbor_graph_is_one_step_adjacency :
    (∀ (plan : List ProductionGenerator.FamilyPlan)
      (candidates : List ProductionGenerator.NeighborCandidate), candidates ≠ [] →
      GridRows (ProductionGenerator.domainsOf plan)
        (candidates.map ProductionGenerator.NeighborCandidate.row) →
      ∃ g, IsGridGraph (ProductionGenerator.domainsOf plan)
          (candidates.map ProductionGenerator.NeighborCandidate.row) g ∧
        ∀ candidates', candidates'.Perm candidates →
          ProductionGenerator.buildNeighborGraph plan candidates' = .ok g) ∧
    (∀ (manifestsBySha : String → Option Adjudication.FamilyManifest)
      (candidates : List Adjudication.NeighborCandidate) (rows : List (GridRow String)),
      List.Forall₂ (fun c row => c.row? = some row) candidates rows →
      GridRows (Adjudication.domainsOf manifestsBySha) rows →
      ∃ g, IsGridGraph (Adjudication.domainsOf manifestsBySha) rows g ∧
        ∀ candidates', candidates'.Perm candidates →
          Adjudication.buildNeighborGraph candidates' manifestsBySha = .ok g) := by
  constructor
  · intro plan candidates hne h
    obtain ⟨g, hg, hbuild⟩ := h.graph ProductionGenerator.neighborMessages
      ProductionGenerator.neighborSchema
    refine ⟨g, hg, fun candidates' hperm => ?_⟩
    have hne' : candidates' ≠ [] := fun hnil => hne (List.nil_perm.mp (hnil ▸ hperm))
    rw [ProductionGenerator.buildNeighborGraph, raiseIf_neg hne', ok_bind]
    exact hbuild _ (hperm.map _)
  · intro manifestsBySha candidates rows hrows h
    obtain ⟨g, hg, hbuild⟩ := h.graph Adjudication.neighborMessages Adjudication.neighborVersion
    refine ⟨g, hg, fun candidates' hperm => ?_⟩
    obtain ⟨rows', hrows', hperm'⟩ := mapM_perm hperm (mapM_admitCandidate hrows h)
    rw [Adjudication.buildNeighborGraph, hrows', ok_bind]
    exact hbuild rows' hperm'

def sampleDomains : Domains where
  toList := [⟨"fast", [.int 2, .int 4, .int 8]⟩, ⟨"scale", [.bool true, .str "0.5"]⟩]
  nodup := by decide

def sampleVector (fast : ℤ) (scale : Json) : JsonMembers :=
  .cons "fast" (.int fast) (.cons "scale" scale .nil)

def trendPlan : List ProductionGenerator.FamilyPlan := [⟨"TREND", sampleDomains⟩]

def sampleProduction : List ProductionGenerator.NeighborCandidate := [
  ⟨"C-1", "TREND", "1h", sampleVector 2 (.bool true)⟩,
  ⟨"C-2", "TREND", "1h", sampleVector 4 (.bool true)⟩,
  ⟨"C-3", "TREND", "4h", sampleVector 4 (.bool true)⟩]

def sampleManifests (sha : String) : Option Adjudication.FamilyManifest :=
  if sha = "a" then some ⟨.ok "a", sampleDomains⟩ else none

def trendRows : List (GridRow String) := [
  ⟨"a", "C-1", sampleVector 8 (.str "0.5")⟩, ⟨"a", "C-2", sampleVector 8 (.bool true)⟩]

def sampleAdjudication : List Adjudication.NeighborCandidate := [
  ⟨some "C-1", some "s", some "a", some (sampleVector 8 (.str "0.5"))⟩,
  ⟨some "C-2", some "t", some "a", some (sampleVector 8 (.bool true))⟩]

theorem separated_sampleDomains : ∀ domain ∈ sampleDomains.toList, domain.Separated := by
  intro domain hdomain
  rcases mem_cons.mp hdomain with rfl | hdomain
  · exact ⟨by decide, by decide, by decide +kernel⟩
  · cases mem_singleton.mp hdomain
    exact ⟨by decide, by decide, by decide +kernel⟩

theorem neighbor_graph_is_one_step_adjacency_sample :
    (∃ g, ProductionGenerator.buildNeighborGraph trendPlan sampleProduction = .ok g ∧
      IsGridGraph (ProductionGenerator.domainsOf trendPlan)
        (sampleProduction.map ProductionGenerator.NeighborCandidate.row) g) ∧
    ∃ g, Adjudication.buildNeighborGraph sampleAdjudication sampleManifests = .ok g ∧
      IsGridGraph (Adjudication.domainsOf sampleManifests) trendRows g := by
  have hfamily : ∀ row ∈ sampleProduction.map ProductionGenerator.NeighborCandidate.row,
      ProductionGenerator.domainsOf trendPlan row.group = .ok sampleDomains := by
    have hgroup : ∀ row ∈ sampleProduction.map ProductionGenerator.NeighborCandidate.row,
        row.group.1 = "TREND" := by decide
    intro row hrow
    rw [ProductionGenerator.domainsOf, hgroup row hrow]
    rfl
  have hmanifest : ∀ row ∈ trendRows,
      Adjudication.domainsOf sampleManifests row.group = .ok sampleDomains := by
    have hgroup : ∀ row ∈ trendRows, row.group = "a" := by decide
    intro row hrow
    rw [hgroup row hrow]
    rfl
  constructor
  · obtain ⟨g, hg, hbuild⟩ := neighbor_graph_is_one_step_adjacency.1 trendPlan sampleProduction
      (by decide) (gridRows_of_domains hfamily separated_sampleDomains (by decide) (by decide)
        (by decide))
    exact ⟨g, hbuild _ (.refl _), hg⟩
  · obtain ⟨g, hg, hbuild⟩ := neighbor_graph_is_one_step_adjacency.2 sampleManifests
      sampleAdjudication trendRows (.cons rfl (.cons rfl .nil))
      (gridRows_of_domains hmanifest separated_sampleDomains (by decide) (by decide) (by decide))
    exact ⟨g, hbuild _ (.refl _), hg⟩

/-- A family whose values are told apart by their texts but not by comparison, and one whose
values are whole numbers. -/
def mixedPlan : List ProductionGenerator.FamilyPlan := [
  ⟨"MIXED", ⟨[⟨"scale", [.int 1, .bool true]⟩], by decide⟩⟩,
  ⟨"WHOLE", ⟨[⟨"scale", [.int 1, .int 2]⟩], by decide⟩⟩]

def mixedCandidate (family candidateId : String) (scale : Json) :
    ProductionGenerator.NeighborCandidate :=
  ⟨candidateId, family, "1h", .cons "scale" scale .nil⟩

/-- No graph is given for no candidates. Where comparison and texts disagree, a candidate is its
own neighbour, or a neighbour of one that is not its neighbour. -/
theorem neighbor_graph_of_mixed_values :
    ProductionGenerator.buildNeighborGraph mixedPlan [] =
      .error (.refused (.mcf "empty production candidate set")) ∧
    (ProductionGenerator.buildNeighborGraph mixedPlan [mixedCandidate "MIXED" "C-1" (.int 1),
      mixedCandidate "MIXED" "C-2" (.bool true)]).map NeighborGraph.graph =
        .ok [("C-1", ["C-2"]), ("C-2", ["C-2"])] ∧
    (ProductionGenerator.buildNeighborGraph mixedPlan [mixedCandidate "WHOLE" "C-1" (.float "1.0"),
      mixedCandidate "WHOLE" "C-2" (.int 2)]).map NeighborGraph.graph =
        .ok [("C-1", ["C-2"]), ("C-2", [])] := by
  decide +kernel

end Versions

end TradingLab.Factory
