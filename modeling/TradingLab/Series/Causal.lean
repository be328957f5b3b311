import TradingLab.Method
import Mathlib.Data.List.TakeDrop
import Mathlib.Order.Basic
import Mathlib.Data.Int.Order.Basic

/-!
# Causal functions of a series

A function of a series is causal when its value at an index depends on the series
up to that index only: cutting the series cuts the result. A value for each index,
a scan and whatever is put together from causal parts are causal.
-/

namespace Series

open List
variable {α β γ ε : Type}

/-- One computation gives the first entries of what another gives. -/
def CutTo (k : ℕ) (whole part : Except ε (List β)) : Prop :=
  ∀ ys, whole = .ok ys → part = .ok (ys.take k)

def Causal (f : List α → Except ε (List β)) : Prop := ∀ xs k, CutTo k (f xs) (f (xs.take k))

def indexed (n : ℕ) (f : ℕ → β) : List β := (List.range n).map f

def indexedM (n : ℕ) (f : ℕ → Except ε β) : Except ε (List β) := (List.range n).mapM f

@[simp] theorem length_indexed (n : ℕ) (f : ℕ → β) : (indexed n f).length = n := by
  simp [indexed]

theorem range_take (n k : ℕ) : (List.range n).take k = List.range (min k n) := by
  rw [take_range]

variable {n : ℕ} {f : α → Except ε β} {xs : List α} {ys : List β}

theorem indexed_take {k : ℕ} {f g : ℕ → β} (h : ∀ i < min k n, g i = f i) :
    indexed (min k n) g = (indexed n f).take k := by
  unfold indexed
  rw [← map_take, range_take]
  apply map_congr_left
  intro i hi
  exact h i (mem_range.mp hi)

theorem mapM_take (h : xs.mapM f = .ok ys) (k : ℕ) : (xs.take k).mapM f = .ok (ys.take k) := by
  induction xs generalizing ys k with
  | nil =>
    cases h
    simp [pure, Except.pure]
  | cons x xs ih =>
    rw [mapM_cons, bind_eq_ok] at h
    obtain ⟨y, hy, h⟩ := h
    rw [bind_eq_ok] at h
    obtain ⟨rest, hrest, h⟩ := h
    cases h
    cases k with
    | zero => rfl
    | succ k => simp [hy, ih hrest k, pure, Except.pure]

theorem mapM_congr {g : α → Except ε β} (h : ∀ x ∈ xs, f x = g x) :
    xs.mapM f = xs.mapM g := by
  induction xs with
  | nil => rfl
  | cons x xs ih =>
    rw [mapM_cons, mapM_cons, h x mem_cons_self,
      ih fun y hy => h y (mem_cons_of_mem x hy)]

theorem indexedM_take {k : ℕ} {f g : ℕ → Except ε β} (hfg : ∀ i < min k n, g i = f i) :
    CutTo k (indexedM n f) (indexedM (min k n) g) := by
  intro ys h
  unfold indexedM at h ⊢
  have hcut := mapM_take h k
  rw [range_take] at hcut
  rw [← hcut]
  apply mapM_congr
  intro i hi
  exact hfg i (mem_range.mp hi)

theorem mapM_map {δ : Type} {g : γ → Except ε δ} {u : α → γ} {v : β → δ}
    (h : ∀ x ∈ xs, ∀ y, f x = .ok y → g (u x) = .ok (v y))
    (hys : xs.mapM f = .ok ys) : (xs.map u).mapM g = .ok (ys.map v) := by
  induction xs generalizing ys with
  | nil =>
    cases hys
    rfl
  | cons x xs ih =>
    rw [mapM_cons, bind_eq_ok] at hys
    obtain ⟨y, hy, hys⟩ := hys
    rw [bind_eq_ok] at hys
    obtain ⟨rest, hrest, hys⟩ := hys
    cases hys
    have hhead := h x mem_cons_self y hy
    have htail := ih (fun z hz => h z (mem_cons_of_mem x hz)) hrest
    rw [map_cons, mapM_cons, hhead, ok_bind, htail, ok_bind]
    rfl

theorem map_of_mapM {δ : Type} {u : α → δ} {v : β → δ}
    (h : ∀ x ∈ xs, ∀ y, f x = .ok y → v y = u x) (hys : xs.mapM f = .ok ys) : ys.map v = xs.map u := by
  induction xs generalizing ys with
  | nil =>
    cases hys
    rfl
  | cons x xs ih =>
    rw [mapM_cons, bind_eq_ok] at hys
    obtain ⟨y, hy, hys⟩ := hys
    rw [bind_eq_ok] at hys
    obtain ⟨rest, hrest, hys⟩ := hys
    cases hys
    rw [map_cons, map_cons, h x mem_cons_self y hy,
      ih (fun z hz => h z (mem_cons_of_mem x hz)) hrest]

theorem length_of_mapM (h : xs.mapM f = .ok ys) :
    ys.length = xs.length := by
  have hunits := map_of_mapM (u := fun _ => ()) (v := fun _ => ()) (fun _ _ _ _ => rfl) h
  simpa using congrArg List.length hunits

theorem length_of_indexedM {f : ℕ → Except ε β} (h : indexedM n f = .ok ys) :
    ys.length = n := by
  rw [length_of_mapM h, length_range]

theorem lookup_map_of_mem {κ : Type} [DecidableEq κ] {entries : List (κ × α)} {f : κ × α → β}
    (h : (entries.map Prod.fst).Nodup) {key : κ} {a : α} (hmem : (key, a) ∈ entries) :
    (entries.map fun entry => (entry.1, f entry)).lookup key = some (f (key, a)) := by
  induction entries with
  | nil => simp at hmem
  | cons entry entries ih =>
    rw [map_cons, nodup_cons] at h
    rw [map_cons, lookup_cons]
    rcases mem_cons.mp hmem with rfl | hmem
    · simp
    · have hne : key ≠ entry.1 := by
        intro heq
        exact h.1 (heq ▸ mem_map_of_mem hmem)
      rw [beq_eq_false_iff_ne.mpr hne]
      exact ih h.2 hmem

section
variable {k : ℕ}

theorem CutTo.bind {x y : Except ε (List γ)} {f g : List γ → Except ε (List β)} (hxy : CutTo k x y)
    (hfg : ∀ cs, CutTo k (f cs) (g (cs.take k))) : CutTo k (x >>= f) (y >>= g) := by
  intro ys h
  rw [bind_eq_ok] at h
  obtain ⟨cs, hcs, h⟩ := h
  rw [hxy cs hcs, ok_bind]
  exact hfg cs ys h

theorem CutTo.afterOk {x : Except ε γ} {f g : γ → Except ε (List β)}
    (h : ∀ c, x = .ok c → CutTo k (f c) (g c)) : CutTo k (x >>= f) (x >>= g) := by
  intro ys hys
  rw [bind_eq_ok] at hys ⊢
  obtain ⟨c, hc, hys⟩ := hys
  exact ⟨c, hc, h c hc ys hys⟩

theorem CutTo.after {x : Except ε γ} {f g : γ → Except ε (List β)} (h : ∀ c, CutTo k (f c) (g c)) :
    CutTo k (x >>= f) (x >>= g) := CutTo.afterOk fun c _ => h c

theorem CutTo.indexed {xs : List α} {f g : ℕ → β} (h : ∀ i < k, g i = f i) :
    CutTo k (.ok (Series.indexed xs.length f) : Except ε (List β))
      (.ok (Series.indexed (xs.take k).length g)) := by
  intro ys hys
  cases hys
  rw [length_take, indexed_take fun i hi => h i (by omega)]

theorem CutTo.indexedM {xs : List α} {f g : ℕ → Except ε β} (h : ∀ i < k, g i = f i) :
    CutTo k (Series.indexedM xs.length f) (Series.indexedM (xs.take k).length g) := by
  rw [length_take]
  exact indexedM_take fun i hi => h i (by omega)

end

section
variable (time : α → ℤ)

def upTo (t : ℤ) (xs : List α) : List α := xs.filter fun x => decide (time x ≤ t)

def countUpTo (t : ℤ) (xs : List α) : ℕ := xs.countP fun x => decide (time x ≤ t)

variable {t : ℤ} {x : α} {xs : List α}

theorem countUpTo_cons_of_le (h : time x ≤ t) :
    countUpTo time t (x :: xs) = countUpTo time t xs + 1 :=
  List.countP_cons_of_pos (by simpa using h)

/-- Up to a time a part of an ascending series is cut where the series is. -/
theorem upTo_eq_take_of_prefix {label : β → ℤ} {ys : List β}
    (h : (xs.map time).Pairwise (· < ·)) (hinitial : ys.map label <+: xs.map time) :
    upTo label t ys = ys.take (countUpTo time t xs) := by
  induction xs generalizing ys with
  | nil =>
    have hnil : ys = [] := by simpa using hinitial
    rw [hnil]
    rfl
  | cons x xs ih =>
    cases ys with
    | nil => simp [upTo]
    | cons y ys =>
      rw [map_cons, pairwise_cons] at h
      rw [map_cons, map_cons, cons_prefix_cons] at hinitial
      by_cases hx : time x ≤ t
      · have hy : label y ≤ t := by omega
        rw [countUpTo_cons_of_le time hx, take_succ_cons, ← ih h.2 hinitial.2]
        exact filter_cons_of_pos (by simpa using hy)
      · have hlater : ∀ z ∈ xs.map time, ¬ z ≤ t := by
          intro z hz hle
          have hlt := h.1 z hz
          omega
        have hnone : upTo label t (y :: ys) = [] := by
          unfold upTo
          rw [filter_eq_nil_iff]
          intro z hz hle
          have hle : label z ≤ t := by simpa using hle
          rcases mem_cons.mp hz with rfl | hz
          · omega
          · exact hlater _ (hinitial.2.subset (mem_map_of_mem hz)) hle
        have hcount : countUpTo time t (x :: xs) = 0 := by
          unfold countUpTo
          rw [countP_eq_zero]
          intro z hz hle
          have hle : time z ≤ t := by simpa using hle
          rcases mem_cons.mp hz with rfl | hz
          · exact hx hle
          · exact hlater _ (mem_map_of_mem hz) hle
        rw [hnone, hcount, take_zero]

theorem upTo_eq_take (h : (xs.map time).Pairwise (· < ·)) :
    upTo time t xs = xs.take (countUpTo time t xs) :=
  upTo_eq_take_of_prefix time h List.prefix_rfl

/-- An entry is among those up to a time as soon as its time is not later. -/
theorem lt_countUpTo_iff {n : ℕ} (h : (xs.map time).Pairwise (· < ·))
    (hx : xs[n]? = some x) : n < countUpTo time t xs ↔ time x ≤ t := by
  induction xs generalizing n with
  | nil => simp at hx
  | cons y ys ih =>
    rw [map_cons, pairwise_cons] at h
    cases n with
    | zero =>
      have hyx : y = x := by simpa using hx
      rw [← hyx]
      unfold countUpTo
      rw [countP_pos_iff]
      constructor
      · intro hsome
        obtain ⟨z, hz, hle⟩ := hsome
        have hle : time z ≤ t := by simpa using hle
        rcases mem_cons.mp hz with rfl | hz
        · exact hle
        · have hlt := h.1 _ (mem_map_of_mem hz)
          omega
      · intro hle
        exact ⟨y, mem_cons_self, by simpa using hle⟩
    | succ n =>
      rw [getElem?_cons_succ] at hx
      have hrest := ih h.2 hx
      have hyx := h.1 _ (mem_map_of_mem (mem_of_getElem? hx))
      by_cases hy : time y ≤ t
      · rw [countUpTo_cons_of_le time hy, Nat.succ_lt_succ_iff, hrest]
      · have hnone : countUpTo time t (y :: ys) = countUpTo time t ys :=
          countP_cons_of_neg (by simpa using hy)
        rw [hnone]
        constructor
        · intro hlt
          exact hrest.mp (by omega)
        · intro hle
          omega

theorem eq_countUpTo {n : ℕ} (h : (xs.map time).Pairwise (· < ·))
    (hx : xs[n]? = some x) : n = countUpTo time (time x - 1) xs := by
  have hself := lt_countUpTo_iff time h hx (t := time x - 1)
  apply Nat.le_antisymm
  · cases n with
    | zero => exact Nat.zero_le _
    | succ n =>
      obtain ⟨hn, -⟩ := List.getElem?_eq_some_iff.mp hx
      have hlt : n < xs.length := by omega
      have hbefore : xs[n]? = some xs[n] := getElem?_eq_getElem hlt
      rw [Nat.succ_le_iff, lt_countUpTo_iff time h hbefore]
      have hstep := pairwise_iff_getElem.mp (pairwise_map.mp h) n (n + 1) (by omega) hn
        (Nat.lt_succ_self n)
      have hlast : xs[n + 1] = x := (List.getElem?_eq_some_iff.mp hx).2
      rw [hlast] at hstep
      omega
  · rw [← Nat.not_lt, hself]
    omega

theorem mem_upTo : x ∈ upTo time t xs ↔ x ∈ xs ∧ time x ≤ t := by
  simp [upTo]

theorem countUpTo_eq_length (t : ℤ) (xs : List α) : countUpTo time t xs = (upTo time t xs).length :=
  List.countP_eq_length_filter

theorem find?_upTo {s : ℤ} (h : s ≤ t) (xs : List α) :
    (upTo time t xs).find? (fun x => decide (time x = s)) = xs.find? fun x => decide (time x = s) := by
  unfold upTo
  rw [find?_filter]
  congr 1
  funext x
  by_cases hx : time x = s
  · simp [hx, h]
  · simp [hx]

theorem upTo_upTo {s : ℤ} (h : s ≤ t) (xs : List α) : upTo time s
    (upTo time t xs) = upTo time s xs := by
  unfold upTo
  rw [filter_filter]
  apply filter_congr
  intro x _
  by_cases hx : time x ≤ s
  · simp [hx, hx.trans h]
  · simp [hx]

end

end Series
