import Mathlib.Tactic.Abel
import Mathlib.Algebra.BigOperators.Group.Multiset.Basic

/-!
# Books of a long-only position

A book keeps the cash, what is held and what it cost, the realized result and
the two running costs. An entry either opens the position or closes it in full.
Over any additive group the book stays balanced as long as a position is only
opened when none is open.
-/

namespace Accounting

variable {K : Type}

structure Entry (K : Type) where
  opens : Bool
  cash : K
  asset : K
  fee : K
  slippage : K

structure Book (K : Type) where
  cash : K
  held : K
  basis : K
  realized : K
  fees : K
  slippage : K
  closed : ℕ

namespace Book
variable [AddCommGroup K]

/-- A book that holds cash only. -/
def opening (c : K) : Book K := ⟨c, 0, 0, 0, 0, 0, 0⟩

def post (b : Book K) (e : Entry K) : Book K :=
  if e.opens then
    { cash := b.cash + e.cash, held := e.asset, basis := -e.cash, realized := b.realized
      fees := b.fees + e.fee, slippage := b.slippage + e.slippage, closed := b.closed }
  else
    { cash := b.cash + e.cash, held := 0, basis := 0
      realized := b.realized + (e.cash - b.basis)
      fees := b.fees + e.fee, slippage := b.slippage + e.slippage, closed := b.closed + 1 }

/-- The book agrees with its entries: nothing is lost and nothing is counted twice. -/
structure Balanced (c : K) (es : List (Entry K)) (b : Book K) : Prop where
  cash : b.cash = c + (es.map Entry.cash).sum
  realized : b.cash = c + b.realized - b.basis
  fees : b.fees = (es.map Entry.fee).sum
  slippage : b.slippage = (es.map Entry.slippage).sum
  closed : b.closed = es.countP (fun e => !e.opens)

theorem balanced_opening (c : K) : Balanced c [] (opening c) := by
  constructor <;> simp [opening]

theorem Balanced.post {c : K} {es : List (Entry K)} {b : Book K} (h : Balanced c es b)
    (e : Entry K) (hflat : e.opens → b.basis = 0) : Balanced c (es ++ [e]) (b.post e) := by
  obtain ⟨hcash, hreal, hfee, hslip, hclosed⟩ := h
  unfold Book.post
  split_ifs with ho
  · have hb := hflat ho
    constructor
    · simp only [hcash, List.map_append, List.sum_append, List.map_cons, List.map_nil,
        List.sum_singleton, add_assoc]
    · dsimp only
      rw [hreal, hb]
      abel
    · simp [hfee]
    · simp [hslip]
    · simp [hclosed, ho]
  · constructor
    · simp only [hcash, List.map_append, List.sum_append, List.map_cons, List.map_nil,
        List.sum_singleton, add_assoc]
    · dsimp only
      rw [hreal]
      abel
    · simp [hfee]
    · simp [hslip]
    · simp [hclosed, ho]

end Book

end Accounting

/-!
## Sessions of a sequence of observations

What changes between two observations belongs to the session of the earlier one.
So every change has exactly one session, and over a commutative monoid the sums
of the sessions add up to the sum of all changes.
-/

namespace Accounting

variable {β κ : Type}

/-- Each observation after the first one, with its predecessor. -/
def steps : List β → List (β × β)
  | [] => []
  | [_] => []
  | a :: b :: os => (a, b) :: steps (b :: os)

@[simp] theorem steps_singleton (a : β) : steps [a] = [] := rfl

theorem steps_concat (os : List β) (a b : β) :
    steps (os ++ [a, b]) = steps (os ++ [a]) ++ [(a, b)] := by
  induction os with
  | nil => rfl
  | cons x os ih =>
    cases os with
    | nil => rfl
    | cons y os =>
      change (x, y) :: steps (y :: os ++ [a, b]) = (x, y) :: steps (y :: os ++ [a]) ++ [(a, b)]
      rw [ih]
      rfl

theorem mem_of_mem_steps {os : List β} {p : β × β} (h : p ∈ steps os) : p.1 ∈ os ∧ p.2 ∈ os := by
  induction os with
  | nil => cases h
  | cons a os ih =>
    cases os with
    | nil => cases h
    | cons b os =>
      rcases List.mem_cons.mp h with rfl | h
      · exact ⟨List.mem_cons_self, List.mem_cons_of_mem _ List.mem_cons_self⟩
      · exact ⟨List.mem_cons_of_mem _ (ih h).1, List.mem_cons_of_mem _ (ih h).2⟩

theorem exists_split_concat {P : List β → β → Prop} {os : List β} {o : β} :
    (∃ pre x post, os ++ [o] = pre ++ x :: post ∧ P pre x) ↔
      (∃ pre x post, os = pre ++ x :: post ∧ P pre x) ∨ P os o := by
  constructor
  · rintro ⟨pre, x, post, heq, hx⟩
    rcases List.eq_nil_or_concat post with rfl | ⟨post, y, rfl⟩
    · obtain ⟨rfl, h⟩ := List.append_inj' heq rfl
      cases h
      exact .inr hx
    · rw [List.concat_eq_append, ← List.cons_append, ← List.append_assoc] at heq
      obtain ⟨rfl, -⟩ := List.append_inj' heq rfl
      exact .inl ⟨pre, x, post, rfl, hx⟩
  · rintro (⟨pre, x, post, rfl, hx⟩ | hx)
    · exact ⟨pre, x, post ++ [o], by simp, hx⟩
    · exact ⟨os, o, [], rfl, hx⟩

section Sessions
variable [DecidableEq κ] (key : β → κ)

def session (k : κ) (os : List β) : List (β × β) := (steps os).filter fun p => key p.1 = k

def sessions (os : List β) : List κ := (os.map key).dedup

theorem session_concat (k : κ) (os : List β) (a b : β) : session key k (os ++ [a, b]) =
    session key k (os ++ [a]) ++ if key a = k then [(a, b)] else [] := by
  unfold session
  rw [steps_concat, List.filter_append]
  congr 1
  split_ifs with h <;> simp [h]

theorem session_eq_nil {k : κ} {os : List β} (h : ∀ o ∈ os, key o ≠ k) :
    session key k os = [] := by
  unfold session
  rw [List.filter_eq_nil_iff]
  intro p hp
  rw [decide_eq_true_eq]
  exact h p.1 (mem_of_mem_steps hp).1

end Sessions

section Sums
variable {M : Type} [AddCommMonoid M] [DecidableEq κ]

variable {keys : List κ} {γ : Type} {xs : List γ}

theorem sum_ite_key (hn : keys.Nodup) {k : κ} (hk : k ∈ keys) (m : M) :
    (keys.map fun j => if k = j then m else 0).sum = m := by
  induction keys with
  | nil => cases hk
  | cons j keys ih =>
    obtain ⟨hj, hn⟩ := List.nodup_cons.mp hn
    rw [List.map_cons, List.sum_cons]
    by_cases h : k = j
    · have hrest : (keys.map fun j => if k = j then m else 0).sum = 0 := by
        apply List.sum_eq_zero
        intro x hx
        obtain ⟨i, hi, rfl⟩ := List.mem_map.mp hx
        rw [if_neg]
        rintro rfl
        exact hj (h ▸ hi)
      rw [if_pos h, hrest, add_zero]
    · rw [if_neg h, zero_add]
      exact ih hn ((List.mem_cons.mp hk).resolve_left h)

theorem sum_split (hn : keys.Nodup) (key : γ → κ) (c : γ → M) (hk : ∀ x ∈ xs, key x ∈ keys) :
    (keys.map fun k => ((xs.filter fun x => key x = k).map c).sum).sum = (xs.map c).sum := by
  induction xs with
  | nil =>
    apply List.sum_eq_zero
    intro x hx
    obtain ⟨k, -, rfl⟩ := List.mem_map.mp hx
    rfl
  | cons x xs ih =>
    have hsplit : ∀ k, (((x :: xs).filter fun y => key y = k).map c).sum =
        (if key x = k then c x else 0) + ((xs.filter fun y => key y = k).map c).sum := by
      intro k
      by_cases h : key x = k
      · simp [h]
      · simp [h]
    simp only [hsplit]
    rw [List.sum_map_add, sum_ite_key hn (hk x List.mem_cons_self),
      ih fun y hy => hk y (List.mem_cons_of_mem x hy), List.map_cons, List.sum_cons]

theorem flatMap_filter_perm (hn : keys.Nodup) (key : γ → κ) (hk : ∀ x ∈ xs, key x ∈ keys) :
    (keys.flatMap fun k => xs.filter fun x => key x = k).Perm xs := by
  classical
  rw [List.perm_iff_count]
  intro x
  have hcount : ∀ k, (xs.filter fun y => key y = k).count x = if key x = k then xs.count x else 0 := by
    intro k
    split_ifs with h
    · exact List.count_filter (by simpa using h)
    · exact List.count_eq_zero_of_not_mem fun hx => h (by simpa using (List.mem_filter.mp hx).2)
  simp only [List.count_flatMap, Function.comp_def, hcount]
  by_cases hx : x ∈ xs
  · exact sum_ite_key hn (hk x hx) _
  · simp [List.count_eq_zero_of_not_mem hx]

theorem sum_sessions (key : β → κ) (c : β × β → M) (os : List β) :
    ((sessions key os).map fun k => ((session key k os).map c).sum).sum =
      ((steps os).map c).sum := by
  have hkeys : ∀ p ∈ steps os, key p.1 ∈ sessions key os := fun p hp =>
    List.mem_dedup.mpr (List.mem_map_of_mem (mem_of_mem_steps hp).1)
  exact sum_split (List.nodup_dedup _) (fun p => key p.1) c hkeys

end Sums

/-- Every step is in exactly one session, as often as it occurs. -/
theorem perm_sessions [DecidableEq κ] (key : β → κ) (os : List β) :
    ((sessions key os).flatMap fun k => session key k os).Perm (steps os) := by
  have hsingle : ∀ ps : List (β × β),
      (ps.map fun p => ({p} : Multiset (β × β))).sum = (ps : Multiset (β × β)) := by
    intro ps
    rw [← Multiset.sum_coe, ← Multiset.map_coe, Multiset.sum_map_singleton]
  have hjoin : ∀ ks : List κ, (ks.map fun k => (session key k os : Multiset (β × β))).sum =
      (ks.flatMap fun k => session key k os : Multiset (β × β)) := by
    intro ks
    induction ks with
    | nil => rfl
    | cons k ks ih => rw [List.map_cons, List.sum_cons, ih, List.flatMap_cons, Multiset.coe_add]
  have hsum := sum_sessions key (fun p => ({p} : Multiset (β × β))) os
  simp only [hsingle] at hsum
  rw [hjoin] at hsum
  exact Multiset.coe_eq_coe.mp hsum

theorem sum_steps {G : Type} [AddCommGroup G] (value : β → G) (first : β) (os : List β) :
    ((steps (first :: os)).map fun p => value p.2 - value p.1).sum =
      value (os.getLastD first) - value first := by
  induction os generalizing first with
  | nil => simp
  | cons b os ih =>
    have hsteps : steps (first :: b :: os) = (first, b) :: steps (b :: os) := rfl
    rw [hsteps, List.map_cons, List.sum_cons, ih, List.getLastD_cons]
    abel

end Accounting
