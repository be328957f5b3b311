import Mathlib.Data.List.Nodup
import Mathlib.Tactic.Cases

/-!
# Tables with a primary key

A table is a list of rows without two rows of one key, in the order in which
their keys first appeared. Looking a key up after a write needs two laws only:
the written key holds the written row, and every other key is as before.
-/

/-- Rows of type `ρ`, at most one for each key. -/
structure Table {ρ κ : Type} (key : ρ → κ) where
  rows : List ρ
  nodup : (rows.map key).Nodup

namespace Table

open List
variable {ρ κ : Type} [DecidableEq κ] {key : ρ → κ}

def empty : Table key := ⟨[], List.nodup_nil⟩

def find? (t : Table key) (k : κ) : Option ρ := t.rows.find? fun r => key r = k

@[simp] theorem find?_empty (k : κ) : (empty : Table key).find? k = none := rfl

/-- Replace the row of the same key, or append the row. -/
def putRows (key : ρ → κ) (rows : List ρ) (r : ρ) : List ρ :=
  match rows with
  | [] => [r]
  | s :: rows => if key s = key r then r :: rows else s :: putRows key rows r

theorem map_putRows (rows : List ρ) (r : ρ) :
    (putRows key rows r).map key =
      if key r ∈ rows.map key then rows.map key else rows.map key ++ [key r] := by
  induction rows with
  | nil => simp [putRows]
  | cons s rows ih =>
    rw [putRows]
    by_cases h : key s = key r
    · simp [h]
    · simp only [if_neg h, map_cons, ih, mem_cons, Ne.symm h, false_or]
      split <;> rfl

def put (t : Table key) (r : ρ) : Table key where
  rows := putRows key t.rows r
  nodup := by
    rw [map_putRows]
    split
    · exact t.nodup
    · rename_i h
      rw [List.nodup_append]
      refine ⟨t.nodup, List.nodup_singleton _, ?_⟩
      intro a ha b hb
      rw [List.mem_singleton] at hb
      subst hb
      rintro rfl
      exact h ha

variable {t : Table key} {r : ρ} {k : κ} {p : ρ → Bool}

theorem rows_put_of_find?_none (h : t.find? (key r) = none) :
    (t.put r).rows = t.rows ++ [r] := by
  obtain ⟨rows, hn⟩ := t
  change rows.find? (fun s => key s = key r) = none at h
  change putRows key rows r = rows ++ [r]
  clear hn
  induction rows with
  | nil => rfl
  | cons s rows ih =>
    rw [find?_cons] at h
    by_cases hs : key s = key r
    · simp [hs] at h
    · simp only [hs, decide_false] at h
      rw [putRows, if_neg hs, ih h]
      rfl

theorem find?_putRows (rows : List ρ) (r : ρ) (k : κ) :
    (putRows key rows r).find? (fun s => key s = k) =
      if key r = k then some r else rows.find? fun s => key s = k := by
  induction rows with
  | nil => by_cases h : key r = k <;> simp [putRows, h]
  | cons s rows ih =>
    rw [putRows]
    by_cases hs : key s = key r
    · by_cases h : key r = k
      · simp [hs, h]
      · simp [hs, h]
    · rw [if_neg hs]
      by_cases h : key s = k
      · have hr : key r ≠ k := fun hr => hs (h.trans hr.symm)
        simp [h, hr]
      · simp only [find?_cons, h, decide_false, ih]

@[simp] theorem find?_put_self (t : Table key) (r : ρ) : (t.put r).find? (key r) = some r := by
  rw [find?, put, find?_putRows, if_pos rfl]

theorem find?_put_ne (h : key r ≠ k) :
    (t.put r).find? k = t.find? k := by
  rw [find?, put, find?_putRows, if_neg h]
  rfl

theorem key_of_find? (h : t.find? k = some r) : key r = k := by
  have := find?_some h
  simpa using this

theorem mem_of_find? (h : t.find? k = some r) : r ∈ t.rows :=
  List.mem_of_find?_eq_some h

theorem find?_of_mem (h : r ∈ t.rows) : t.find? (key r) = some r := by
  obtain ⟨rows, hn⟩ := t
  change rows.find? (fun s => key s = key r) = some r
  induction rows with
  | nil => cases h
  | cons s rows ih =>
    rw [map_cons, nodup_cons] at hn
    rcases mem_cons.mp h with rfl | h
    · simp
    · have hne : key s ≠ key r := fun he => hn.1 (by rw [he]; exact mem_map_of_mem h)
      simp only [find?_cons, hne, decide_false]
      exact ih hn.2 h

theorem mem_iff_find? : r ∈ t.rows ↔ t.find? (key r) = some r :=
  ⟨find?_of_mem, mem_of_find?⟩

theorem eq_of_find? {u : Table key} (hkeys : t.rows.map key = u.rows.map key)
    (h : ∀ k, t.find? k = u.find? k) : t = u := by
  have hrows : ∀ v : Table key, v.rows = (v.rows.map key).filterMap v.find? := by
    intro v
    rw [filterMap_map]
    symm
    calc v.rows.filterMap (v.find? ∘ key) = v.rows.filterMap some :=
          filterMap_congr fun r hr => find?_of_mem hr
      _ = v.rows := filterMap_some
  have hfind : t.find? = u.find? := funext h
  obtain ⟨rows, hn⟩ := t
  obtain ⟨rows', hn'⟩ := u
  have heq : rows = rows' := by
    have h1 := hrows ⟨rows, hn⟩
    have h2 := hrows ⟨rows', hn'⟩
    rw [hfind, hkeys] at h1
    exact h1.trans h2.symm
  subst heq
  rfl

theorem keys_put (h : (t.find? (key r)).isSome = true) :
    (t.put r).rows.map key = t.rows.map key := by
  obtain ⟨old, hold⟩ := Option.isSome_iff_exists.mp h
  change (putRows key t.rows r).map key = _
  rw [map_putRows, if_pos]
  rw [← key_of_find? hold]
  exact mem_map_of_mem (mem_of_find? hold)

theorem put_eq_self (h : t.find? (key r) = some r) : t.put r = t := by
  refine eq_of_find? (keys_put (by rw [h]; rfl)) fun k => ?_
  by_cases hk : key r = k
  · subst hk
    rw [find?_put_self, h]
  · exact find?_put_ne hk

/-- `UPDATE … SET f WHERE p`, for a change that keeps the key. -/
def update (t : Table key) (p : ρ → Bool) (f : ρ → ρ) (hf : ∀ r, key (f r) = key r) :
    Table key where
  rows := t.rows.map fun r => if p r then f r else r
  nodup := by
    have hkeys : (t.rows.map fun r => if p r then f r else r).map key = t.rows.map key := by
      rw [List.map_map]
      apply List.map_congr_left
      intro r _
      change key (if p r then f r else r) = key r
      split
      · exact hf r
      · rfl
    rw [hkeys]
    exact t.nodup

def changes (t : Table key) (p : ρ → Bool) : ℕ := t.rows.countP p

theorem find?_update (t : Table key) (p : ρ → Bool) (f : ρ → ρ) (hf : ∀ r, key (f r) = key r)
    (k : κ) :
    (t.update p f hf).find? k = (t.find? k).map fun r => if p r then f r else r := by
  unfold find? update
  dsimp only
  induction t.rows with
  | nil => rfl
  | cons r rows ih =>
    have hk : key (if p r then f r else r) = key r := by
      split
      · exact hf r
      · rfl
    rw [map_cons, find?_cons, find?_cons, hk]
    cases decide (key r = k) with
    | true => rfl
    | false => exact ih

theorem update_eq_self {f : ρ → ρ} (hf : ∀ r, key (f r) = key r)
    (hp : ∀ r ∈ t.rows, p r = false) : t.update p f hf = t := by
  obtain ⟨rows, hn⟩ := t
  unfold update
  congr 1
  dsimp only at hp ⊢
  induction rows with
  | nil => rfl
  | cons r rows ih =>
    rw [map_cons, hp r mem_cons_self, ih (nodup_cons.mp hn).2 fun s hs => hp s (mem_cons_of_mem _ hs)]
    rfl

theorem update_congr {q : ρ → Bool} {f : ρ → ρ} {hf : ∀ r, key (f r) = key r}
    (h : ∀ r ∈ t.rows, p r = q r) : t.update p f hf = t.update q f hf := by
  unfold update
  congr 1
  apply map_congr_left
  intro r hr
  rw [h r hr]

theorem update_of_find? (t : Table key) (k : κ) (q : ρ → Bool) (f : ρ → ρ)
    (hf : ∀ r, key (f r) = key r) :
    (if (t.find? k).any q then t.update (fun r => key r = k) f hf else t) =
      t.update (fun r => key r = k && q r) f hf := by
  have hrow : ∀ r ∈ t.rows, key r = k → (t.find? k).any q = q r := by
    intro r hr hk
    rw [← hk, find?_of_mem hr]
    rfl
  split
  · rename_i hq
    apply update_congr
    intro r hr
    by_cases hk : key r = k
    · rw [← hrow r hr hk, hq, Bool.and_true]
    · simp [hk]
  · rename_i hq
    symm
    apply update_eq_self
    intro r hr
    by_cases hk : key r = k
    · rw [← hrow r hr hk, Bool.eq_false_iff.mpr hq, Bool.and_false]
    · simp [hk]

theorem changes_of_key (hp : ∀ r, p r = true → key r = k) :
    t.changes p = if (t.find? k).any p then 1 else 0 := by
  obtain ⟨rows, hn⟩ := t
  unfold changes find?
  dsimp only
  induction rows with
  | nil => rfl
  | cons r rows ih =>
    rw [map_cons, nodup_cons] at hn
    rw [countP_cons, find?_cons]
    by_cases hk : key r = k
    · have hrest : rows.countP p = 0 := by
        rw [countP_eq_zero]
        intro s hs hps
        exact hn.1 (hk.trans (hp s hps).symm ▸ mem_map_of_mem hs)
      simp [hk, hrest]
    · have hr : p r = false := by
        cases h : p r with
        | false => rfl
        | true => exact (hk (hp r h)).elim
      simp only [hk, decide_false, hr, Bool.false_eq_true, ↓reduceIte, Nat.add_zero]
      exact ih hn.2

end Table
