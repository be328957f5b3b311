import TradingLab.Json.Members
import Mathlib.Data.List.Sort

/-!
# Sets and counters of values

Values are counted and put in order as far as they can be: lists and dictionaries
are no members of sets, and only texts are compared with texts and numbers with
numbers. For texts this is counting and sorting as usual.
-/

namespace Json

open List

/-- What a member of a set is, up to equality: `1`, `1.0` and `True` are one. -/
inductive Scalar where
  | text (s : String)
  | number (n : Number)
  | nothing
deriving DecidableEq

def scalar? : Json → Option Scalar
  | .str s => some (.text s)
  | .null => some .nothing
  | v => v.number?.map .number

def isHashable (v : Json) : Bool := v.scalar?.isSome

def Number.before : Number → Number → Bool
  | .rational a, .rational b => decide (a < b)
  | .infinite a, .infinite b => a && !b
  | .infinite a, .rational _ => a
  | .rational _, .infinite b => !b
  | _, _ => false

/-- One value comes before another of its kind. -/
def before (a b : Json) : Bool :=
  match a.scalar?, b.scalar? with
  | some (.text s), some (.text t) => keyLt s.toList t.toList
  | some (.number m), some (.number n) => m.before n
  | _, _ => false

/-- Members that can be put in order: texts, or numbers, or nothing but `None`. -/
inductive Alike (xs : List Json) : Prop where
  | texts (h : ∀ x ∈ xs, ∃ s, x.scalar? = some (.text s))
  | numbers (h : ∀ x ∈ xs, ∃ n, x.scalar? = some (.number n))
  | nothings (h : ∀ x ∈ xs, x.scalar? = some .nothing)

def isText (v : Json) : Bool :=
  match v.scalar? with
  | some (.text _) => true
  | _ => false

def isNumber (v : Json) : Bool :=
  match v.scalar? with
  | some (.number _) => true
  | _ => false

def isAlike (xs : List Json) : Bool :=
  xs.all isText || xs.all isNumber || xs.all fun x => decide (x.scalar? = some .nothing)

/-- The first of every group of equal members. -/
def distinct : List Json → List Json
  | [] => []
  | x :: xs => x :: (distinct xs).filter fun y => decide (x.scalar? ≠ y.scalar?)

/-- The members of a set in order. Members of different kinds have none. -/
def sortedSet (xs : List Json) : Option (List Json) :=
  if isAlike xs then some ((distinct xs).mergeSort fun a b => !before b a) else none

/-- How often each member occurs, in order. -/
def tally (xs : List Json) : Option (List (Json × ℕ)) :=
  (sortedSet xs).map fun keys =>
    keys.map fun key => (key, xs.countP fun x => decide (key.scalar? = x.scalar?))

variable {v : Json} {ys : List Json} {counter : List (Json × ℕ)} {x : String}

theorem isText_iff : v.isText = true ↔ ∃ s, v.scalar? = some (.text s) := by
  unfold isText
  cases v.scalar? with
  | none => simp
  | some k => cases k <;> simp

theorem isNumber_iff : v.isNumber = true ↔ ∃ n, v.scalar? = some (.number n) := by
  unfold isNumber
  cases v.scalar? with
  | none => simp
  | some k => cases k <;> simp

variable {xs keys : List Json}

theorem isAlike_iff : isAlike xs = true ↔ Alike xs := by
  unfold isAlike
  rw [Bool.or_eq_true, Bool.or_eq_true, all_eq_true, all_eq_true, all_eq_true]
  simp only [isText_iff, isNumber_iff, decide_eq_true_eq]
  constructor
  · intro h
    rcases h with (h | h) | h
    · exact .texts h
    · exact .numbers h
    · exact .nothings h
  · intro h
    cases h with
    | texts h => exact .inl (.inl h)
    | numbers h => exact .inl (.inr h)
    | nothings h => exact .inr h

theorem Alike.subset (h : Alike xs) (hsub : ys ⊆ xs) : Alike ys := by
  cases h with
  | texts h => exact .texts fun y hy => h y (hsub hy)
  | numbers h => exact .numbers fun y hy => h y (hsub hy)
  | nothings h => exact .nothings fun y hy => h y (hsub hy)

theorem sortedSet_eq_some_iff : (∃ keys, sortedSet xs = some keys) ↔ Alike xs := by
  unfold sortedSet
  rw [← isAlike_iff]
  split
  · next h => simp [h]
  · next h => simp [h]

theorem tally_eq_some_iff : (∃ counter, tally xs = some counter) ↔ Alike xs := by
  rw [← sortedSet_eq_some_iff]
  unfold tally
  cases sortedSet xs with
  | none => simp
  | some keys => simp

theorem distinct_subset (xs : List Json) : distinct xs ⊆ xs := by
  induction xs with
  | nil => exact Subset.refl _
  | cons x xs ih =>
    rw [distinct]
    intro y hy
    rcases mem_cons.mp hy with rfl | hy
    · exact mem_cons_self
    · exact mem_cons_of_mem x (ih (mem_filter.mp hy).1)

theorem sortedSet_subset (h : sortedSet xs = some keys) : keys ⊆ xs := by
  unfold sortedSet at h
  split at h
  · cases h
    intro x hx
    exact distinct_subset xs (mem_mergeSort.mp hx)
  · cases h

theorem exists_mem_distinct {x : Json} : ∀ {xs : List Json}, x ∈ xs →
    ∃ y ∈ distinct xs, y.scalar? = x.scalar?
  | z :: zs, hx => by
    rw [distinct]
    by_cases hz : z.scalar? = x.scalar?
    · exact ⟨z, List.mem_cons_self, hz⟩
    · rcases List.mem_cons.mp hx with rfl | hx
      · exact absurd rfl hz
      · obtain ⟨y, hy, hyx⟩ := exists_mem_distinct hx
        refine ⟨y, List.mem_cons_of_mem z (List.mem_filter.mpr ⟨hy, ?_⟩), hyx⟩
        rw [decide_eq_true_eq, hyx]
        exact hz

theorem exists_mem_sortedSet {x : Json} (h : sortedSet xs = some keys)
    (hx : x ∈ xs) : ∃ y ∈ keys, y.scalar? = x.scalar? := by
  unfold sortedSet at h
  split at h
  · cases h
    obtain ⟨y, hy, hyx⟩ := exists_mem_distinct hx
    exact ⟨y, mem_mergeSort.mpr hy, hyx⟩
  · cases h

theorem nodup_distinct (xs : List Json) : ((distinct xs).map scalar?).Nodup := by
  induction xs with
  | nil => exact nodup_nil
  | cons x xs ih =>
    rw [distinct, map_cons, nodup_cons]
    constructor
    · intro hx
      obtain ⟨y, hy, hyx⟩ := mem_map.mp hx
      have hne := (mem_filter.mp hy).2
      rw [decide_eq_true_eq] at hne
      exact hne hyx.symm
    · exact ih.sublist (filter_sublist.map scalar?)

theorem nodup_sortedSet (h : sortedSet xs = some keys) :
    (keys.map scalar?).Nodup := by
  unfold sortedSet at h
  split at h
  · cases h
    exact ((mergeSort_perm _ _).map scalar?).nodup_iff.mpr (nodup_distinct xs)
  · cases h

/-- A counter of the members of a list, each up to equality. -/
structure Counts (counter : List (Json × ℕ)) (xs : List Json) : Prop where
  once : (counter.map fun entry => entry.1.scalar?).Nodup
  occurs : ∀ entry ∈ counter, entry.1 ∈ xs
  count : ∀ entry ∈ counter, entry.2 = xs.countP fun x => decide (entry.1.scalar? = x.scalar?)
  covered : ∀ x ∈ xs, ∃ entry ∈ counter, entry.1.scalar? = x.scalar?

theorem counts_of_tally (h : tally xs = some counter) :
    Counts counter xs := by
  unfold tally at h
  obtain ⟨keys, hkeys, rfl⟩ := Option.map_eq_some_iff.mp h
  constructor
  case once =>
    rw [map_map]
    exact nodup_sortedSet hkeys
  case occurs =>
    intro entry hentry
    obtain ⟨key, hkey, rfl⟩ := mem_map.mp hentry
    exact sortedSet_subset hkeys hkey
  case count =>
    intro entry hentry
    obtain ⟨key, hkey, rfl⟩ := mem_map.mp hentry
    rfl
  case covered =>
    intro x hx
    obtain ⟨key, hkey, hscalar⟩ := exists_mem_sortedSet hkeys hx
    exact ⟨_, mem_map_of_mem hkey, hscalar⟩

theorem Counts.perm (h : Counts counter xs) (hperm : xs.Perm ys) : Counts counter ys := by
  constructor
  case once => exact h.once
  case occurs =>
    intro entry hentry
    exact hperm.mem_iff.mp (h.occurs entry hentry)
  case count =>
    intro entry hentry
    rw [h.count entry hentry]
    exact hperm.countP_eq _
  case covered =>
    intro x hx
    exact h.covered x (hperm.mem_iff.mpr hx)

@[simp] theorem scalar?_str (s : String) : (Json.str s).scalar? = some (.text s) := rfl

theorem alike_map_str (xs : List String) : Alike (xs.map .str) := by
  apply Alike.texts
  intro x hx
  obtain ⟨s, -, rfl⟩ := mem_map.mp hx
  exact ⟨s, rfl⟩

/-- The first of every group of equal texts. -/
def distinctTexts : List String → List String
  | [] => []
  | x :: xs => x :: (distinctTexts xs).filter fun y => x != y

theorem distinct_map_str (xs : List String) : distinct (xs.map .str) = (distinctTexts xs).map .str := by
  induction xs with
  | nil => rfl
  | cons x xs ih =>
    rw [map_cons, distinct, ih, distinctTexts, map_cons, filter_map]
    congr 3
    funext y
    rw [Bool.eq_iff_iff]
    simp

theorem mem_distinctTexts {xs : List String} : x ∈ distinctTexts xs ↔ x ∈ xs := by
  induction xs with
  | nil => rfl
  | cons y ys ih =>
    rw [distinctTexts, mem_cons, mem_cons, mem_filter, ih]
    by_cases hxy : x = y
    · simp [hxy]
    · simp [hxy, Ne.symm hxy]

theorem nodup_distinctTexts (xs : List String) : (distinctTexts xs).Nodup := by
  induction xs with
  | nil => exact nodup_nil
  | cons x xs ih =>
    rw [distinctTexts, nodup_cons]
    constructor
    · simp
    · exact ih.filter _

def sortedTexts (xs : List String) : List String :=
  (distinctTexts xs).mergeSort fun a b => !keyLt b.toList a.toList

theorem mem_sortedTexts {xs : List String} : x ∈ sortedTexts xs ↔ x ∈ xs := by
  rw [sortedTexts, mem_mergeSort, mem_distinctTexts]

theorem nodup_sortedTexts (xs : List String) : (sortedTexts xs).Nodup :=
  (List.mergeSort_perm _ _).nodup_iff.mpr (nodup_distinctTexts xs)

theorem sortedSet_map_str (xs : List String) :
    sortedSet (xs.map .str) = some ((sortedTexts xs).map .str) := by
  have halike := isAlike_iff.mpr (alike_map_str xs)
  unfold sortedSet
  rw [if_pos halike, distinct_map_str, sortedTexts, map_mergeSort]
  intro a _ b _
  rfl

end Json
