import TradingLab.Calendar.Months
import TradingLab.Hash.Sha256
import TradingLab.Series.Causal
import Mathlib.Data.String.Basic

/-!
# The dynamic universe of a production run

A binding lists which symbols are members from which month on. The membership at
a time is that of the last snapshot that is effective then.
-/

namespace TradingLab.Production

open List

def dayMs : ℤ := 86400000

def developmentStartMs : ℤ := 1583020800000
def developmentEndMs : ℤ := 1672531200000

def universeEvidenceId : String := "MCF-PROD-001-UNIVERSE-EVIDENCE"

/-- Contract violations, by the message of the error. -/
inductive Failure where
  | mcf (message : String)
deriving Repr, DecidableEq

structure MembershipSnapshot where
  effectiveMs : ℤ
  symbols : List String
  eligibilitySha256 : String
deriving Repr, DecidableEq

/-- A timestamp is the beginning of a month, in UTC. -/
def isMonthBoundary (ms : ℤ) : Bool :=
  ms % dayMs = 0 && Calendar.dayOfMonth (ms / dayMs).toNat = 1

def isAdmittedSymbol (symbol : String) : Bool := symbol ≠ "" && symbol.endsWith "USDT"

def MembershipSnapshot.validate (snapshot : MembershipSnapshot) : Except Failure Unit := do
  raiseIf (snapshot.effectiveMs < 0 ∨ Sha256.isHexDigest snapshot.eligibilitySha256 = false)
    (.mcf "invalid membership snapshot")
  raiseIf (¬ snapshot.symbols.Pairwise (· < ·)) (.mcf "membership symbols must be sorted and unique")
  raiseIf (isMonthBoundary snapshot.effectiveMs = false)
    (.mcf "membership snapshot must be a UTC month boundary")
  raiseIf (snapshot.symbols.all isAdmittedSymbol = false) (.mcf "unadmitted production symbol")

structure UniverseFields where
  universeEvidenceId : String
  populationManifestSha256 : String
  qualityIndexSha256 : String
  universePolicySha256 : String
  membershipSnapshots : List MembershipSnapshot
  evidencePartition : String
deriving Repr, DecidableEq

/-- Every snapshot is valid and later than the one before it. -/
def validateSnapshots : ℤ → List MembershipSnapshot → Except Failure Unit
  | _, [] => .ok ()
  | last, snapshot :: snapshots => do
      snapshot.validate
      raiseIf (snapshot.effectiveMs ≤ last) (.mcf "nonmonotonic membership snapshots")
      validateSnapshots snapshot.effectiveMs snapshots

def UniverseFields.validate (fields : UniverseFields) : Except Failure Unit := do
  raiseIf (fields.universeEvidenceId ≠ Production.universeEvidenceId ∨
    fields.evidencePartition ≠ "DEVELOPMENT") (.mcf "unbound production universe/evidence partition")
  raiseIf (([fields.populationManifestSha256, fields.qualityIndexSha256,
    fields.universePolicySha256].all Sha256.isHexDigest) = false)
    (.mcf "invalid universe binding digest")
  raiseIf (fields.membershipSnapshots = []) (.mcf "missing membership snapshots")
  validateSnapshots (-1) fields.membershipSnapshots
  raiseIf (∃ first ∈ fields.membershipSnapshots.head?, developmentStartMs < first.effectiveMs)
    (.mcf "membership history does not cover Development start")

structure ProductionUniverseBinding extends UniverseFields where
  valid : toUniverseFields.validate = .ok ()

/-- How many of the ascending timestamps are not after the given one. -/
def bisectRight (times : List ℤ) (timestamp : ℤ) : ℕ := times.countP fun t => decide (t ≤ timestamp)

section
variable (binding : ProductionUniverseBinding)

def ProductionUniverseBinding.times : List ℤ :=
  binding.membershipSnapshots.map MembershipSnapshot.effectiveMs

/-- The symbols of the last snapshot that is effective. -/
def ProductionUniverseBinding.symbolsAt (timestampMs : ℤ) : List String :=
  match bisectRight binding.times timestampMs with
  | 0 => []
  | n + 1 => (binding.membershipSnapshots[n]?.map MembershipSnapshot.symbols).getD []

def ProductionUniverseBinding.isMember (symbol : String) (timestampMs : ℤ) : Bool :=
  decide (symbol ∈ binding.symbolsAt timestampMs)

def leavesAlong : List Bool → Bool
  | state :: next :: rest => (state && !next) || leavesAlong (next :: rest)
  | _ => false

/-- Detect any boundary from member to nonmember between observed bars. -/
def ProductionUniverseBinding.leftMembershipBetween (symbol : String) (startMs endMs : ℤ) : Bool :=
  let first := bisectRight binding.times startMs
  let last := bisectRight binding.times endMs
  if first = 0 ∨ last ≤ first then false
  else leavesAlong (((binding.membershipSnapshots.map fun snapshot =>
    decide (symbol ∈ snapshot.symbols)).drop (first - 1)).take (last - first + 1))

end

theorem pairwise_of_validateSnapshots {last : ℤ} {snapshots : List MembershipSnapshot}
    (h : validateSnapshots last snapshots = .ok ()) :
    (last :: snapshots.map MembershipSnapshot.effectiveMs).Pairwise (· < ·) := by
  induction snapshots generalizing last with
  | nil => exact pairwise_singleton _ _
  | cons snapshot snapshots ih =>
    rw [validateSnapshots, unit_bind_eq_ok, raiseIf_bind_eq_ok] at h
    have hrest := ih h.2.2
    have hlast := not_le.mp h.2.1
    rw [map_cons, pairwise_cons]
    refine ⟨?_, hrest⟩
    intro t ht
    rcases mem_cons.mp ht with rfl | ht
    · exact hlast
    · exact hlast.trans ((pairwise_cons.mp hrest).1 t ht)

theorem bisectRight_mono (times : List ℤ) {s t : ℤ} (h : s ≤ t) :
    bisectRight times s ≤ bisectRight times t := by
  apply countP_mono_left
  intro u _ hu
  rw [decide_eq_true_eq] at hu ⊢
  exact hu.trans h

theorem bisectRight_le_length (times : List ℤ) (t : ℤ) : bisectRight times t ≤ times.length :=
  List.countP_le_length

/-- Members that never leave stay members. -/
theorem pairwise_of_leavesAlong {states : List Bool} (h : leavesAlong states = false) :
    states.Pairwise fun a b => a = true → b = true := by
  induction states with
  | nil => exact Pairwise.nil
  | cons state states ih =>
    cases states with
    | nil => exact pairwise_singleton _ _
    | cons next rest =>
      rw [leavesAlong, Bool.or_eq_false_iff] at h
      have hrest := ih h.2
      have hnext : state = true → next = true := by
        intro hstate
        have hstep := h.1
        rw [hstate, Bool.true_and, Bool.not_eq_false'] at hstep
        exact hstep
      rw [pairwise_cons]
      refine ⟨?_, hrest⟩
      intro b hb hstate
      rcases mem_cons.mp hb with rfl | hb
      · exact hnext hstate
      · exact (pairwise_cons.mp hrest).1 b hb (hnext hstate)

namespace ProductionUniverseBinding
variable (binding : ProductionUniverseBinding)

/-- The membership of a symbol in each snapshot. -/
def memberships (symbol : String) : List Bool :=
  binding.membershipSnapshots.map fun snapshot => decide (symbol ∈ snapshot.symbols)

theorem isMember_eq {symbol : String} {t : ℤ} {n : ℕ} (h : bisectRight binding.times t = n + 1) :
    (binding.memberships symbol)[n]? = some (binding.isMember symbol t) := by
  have hlength := bisectRight_le_length binding.times t
  rw [h, times, length_map] at hlength
  have hlt : n < binding.membershipSnapshots.length := hlength
  unfold isMember symbolsAt memberships
  simp only [h, getElem?_map, getElem?_eq_getElem hlt, Option.map_some,
    Option.getD_some]

theorem bisectRight_pos {t : ℤ} (h : developmentStartMs ≤ t) : 0 < bisectRight binding.times t := by
  have hvalid := binding.valid
  unfold UniverseFields.validate at hvalid
  simp only [unit_bind_eq_ok, raiseIf_eq_ok] at hvalid
  obtain ⟨-, -, hne, -, hfirst⟩ := hvalid
  obtain ⟨first, rest, hsnapshots⟩ := exists_cons_of_ne_nil hne
  rw [hsnapshots] at hfirst
  have hle : first.effectiveMs ≤ developmentStartMs := by
    by_contra hlt
    exact hfirst ⟨first, rfl, not_le.mp hlt⟩
  unfold bisectRight times
  rw [hsnapshots, map_cons, countP_pos_iff]
  exact ⟨_, mem_cons_self, decide_eq_true (hle.trans h)⟩

/-- A symbol that does not leave between two times stays a member. -/
theorem isMember_of_not_left {symbol : String} {start last : ℤ} (hstart : developmentStartMs ≤ start)
    (h : binding.leftMembershipBetween symbol start last = false) {s t : ℤ} (hs : start ≤ s)
    (hst : s ≤ t) (ht : t ≤ last) (hmember : binding.isMember symbol s = true) :
    binding.isMember symbol t = true := by
  have hfirst := binding.bisectRight_pos hstart
  have h₁ := bisectRight_mono binding.times hs
  have h₂ := bisectRight_mono binding.times hst
  have h₃ := bisectRight_mono binding.times ht
  obtain ⟨m, hm⟩ := Nat.exists_eq_succ_of_ne_zero (hfirst.trans_le h₁).ne'
  obtain ⟨n, hn⟩ := Nat.exists_eq_succ_of_ne_zero (hfirst.trans_le (h₁.trans h₂)).ne'
  have hms : (binding.memberships symbol)[m]? = some _ := binding.isMember_eq hm
  have hns : (binding.memberships symbol)[n]? = some _ := binding.isMember_eq hn
  by_cases heq : m = n
  · rw [heq, hns, Option.some_inj] at hms
    rwa [hms]
  · unfold leftMembershipBetween at h
    dsimp only at h
    rw [if_neg (by omega)] at h
    have hpairwise := pairwise_of_leavesAlong h
    rw [pairwise_iff_getElem] at hpairwise
    set first := bisectRight binding.times start
    set final := bisectRight binding.times last
    have hget : ∀ k, k < final - first + 1 →
        (((binding.memberships symbol).drop (first - 1)).take (final - first + 1))[k]? =
          (binding.memberships symbol)[first - 1 + k]? := by
      intro k hk
      rw [getElem?_take_of_lt hk, getElem?_drop]
    have hmk := hget (m - (first - 1)) (by omega)
    have hnk := hget (n - (first - 1)) (by omega)
    rw [show first - 1 + (m - (first - 1)) = m by omega, hms] at hmk
    rw [show first - 1 + (n - (first - 1)) = n by omega, hns] at hnk
    obtain ⟨hi, hmi⟩ := List.getElem?_eq_some_iff.mp hmk
    obtain ⟨hj, hnj⟩ := List.getElem?_eq_some_iff.mp hnk
    have hstep := hpairwise _ _ hi hj (by omega) (hmi.trans hmember)
    exact hnj.symm.trans hstep

def effectiveBy (t : ℤ) : List MembershipSnapshot :=
  Series.upTo MembershipSnapshot.effectiveMs t binding.membershipSnapshots

theorem ascending : binding.times.Pairwise (· < ·) := by
  have hvalid := binding.valid
  unfold UniverseFields.validate at hvalid
  simp only [unit_bind_eq_ok] at hvalid
  exact (pairwise_cons.mp (pairwise_of_validateSnapshots hvalid.2.2.2.1)).2

theorem bisectRight_eq (t : ℤ) :
    bisectRight binding.times t =
      Series.countUpTo MembershipSnapshot.effectiveMs t binding.membershipSnapshots := by
  unfold bisectRight times Series.countUpTo
  rw [countP_map]
  rfl

theorem effectiveBy_eq_take (t : ℤ) :
    binding.effectiveBy t = binding.membershipSnapshots.take (bisectRight binding.times t) := by
  rw [bisectRight_eq]
  exact Series.upTo_eq_take _ binding.ascending

theorem effectiveBy_mono {s t : ℤ} (h : s ≤ t) {other : ProductionUniverseBinding}
    (heq : binding.effectiveBy t = other.effectiveBy t) :
    binding.effectiveBy s = other.effectiveBy s := by
  unfold effectiveBy at *
  rw [← Series.upTo_upTo _ h, heq, Series.upTo_upTo _ h]

section
variable {binding} {other : ProductionUniverseBinding} {s t : ℤ}

theorem bisectRight_congr (hs : s ≤ t) (h : binding.effectiveBy t = other.effectiveBy t) :
    bisectRight binding.times s = bisectRight other.times s := by
  have heq := binding.effectiveBy_mono hs h
  rw [bisectRight_eq, bisectRight_eq, Series.countUpTo_eq_length, Series.countUpTo_eq_length]
  exact congrArg length heq

theorem symbolsAt_congr (hs : s ≤ t) (h : binding.effectiveBy t = other.effectiveBy t) :
    binding.symbolsAt s = other.symbolsAt s := by
  have hcount := bisectRight_congr hs h
  have heq := binding.effectiveBy_mono hs h
  rw [effectiveBy_eq_take, effectiveBy_eq_take, ← hcount] at heq
  unfold symbolsAt
  rw [← hcount]
  cases hn : bisectRight binding.times s with
  | zero => rfl
  | succ n =>
    rw [hn] at heq
    dsimp only
    rw [← getElem?_take_of_lt (Nat.lt_succ_self n), heq,
      getElem?_take_of_lt (Nat.lt_succ_self n)]

theorem isMember_congr {symbol : String} (hs : s ≤ t) (h : binding.effectiveBy t = other.effectiveBy t) :
    binding.isMember symbol s = other.isMember symbol s := by
  unfold isMember
  rw [symbolsAt_congr hs h]

theorem leftMembershipBetween_congr {symbol : String} {start : ℤ} (hstart : start ≤ s) (hs : s ≤ t)
    (h : binding.effectiveBy t = other.effectiveBy t) :
    binding.leftMembershipBetween symbol start s = other.leftMembershipBetween symbol start s := by
  have hfirst := bisectRight_congr (hstart.trans hs) h
  have hlast := bisectRight_congr hs h
  have heq := binding.effectiveBy_mono hs h
  have hle := bisectRight_mono binding.times hstart
  rw [effectiveBy_eq_take, effectiveBy_eq_take, ← hlast] at heq
  unfold leftMembershipBetween
  dsimp only
  rw [← hfirst, ← hlast]
  set first := bisectRight binding.times start
  set last := bisectRight binding.times s
  split
  · rfl
  · have hcut : ∀ states : List Bool, (states.drop (first - 1)).take (last - first + 1) =
        (states.take last).drop (first - 1) := by
      intro states
      rw [drop_take]
      congr 1
      omega
    rw [hcut, hcut, ← map_take, ← map_take, heq]

end

end ProductionUniverseBinding

end TradingLab.Production
