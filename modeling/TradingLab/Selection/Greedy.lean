import Mathlib.Data.Set.Finite.Basic
import Mathlib.Data.List.Sublists
import Mathlib.Order.WellFounded

/-!
# Undominated elements and capped greedy selection

A relation that says which elements dominate which has undominated elements in
every list, and one of them above each dominated element. A capped greedy
selection takes each element in turn for as long as its group and the whole
selection have room.
-/

namespace Selection

section Dominance
variable {α : Type} (dom : α → α → Prop)

/-- No element of the list dominates it. -/
def Undominated (xs : List α) (x : α) : Prop := ∀ y ∈ xs, ¬ dom y x

variable {dom}

theorem exists_undominated (htrans : ∀ {x y z}, dom x y → dom y z → dom x z)
    (hirrefl : ∀ x, ¬ dom x x) {xs : List α} {x : α} (hx : ¬ Undominated dom xs x) :
    ∃ y ∈ xs, Undominated dom xs y ∧ dom y x := by
  unfold Undominated at hx
  push Not at hx
  obtain ⟨z, hz, hzx⟩ := hx
  let above : {y // y ∈ xs} → {y // y ∈ xs} → Prop := fun a b => dom a b
  have : Finite {y // y ∈ xs} := xs.finite_toSet.to_subtype
  have : IsTrans _ above := ⟨fun _ _ _ => htrans⟩
  have : Std.Irrefl above := ⟨fun a => hirrefl a⟩
  have hwf : WellFounded above := Finite.wellFounded_of_trans_of_irrefl above
  obtain ⟨y, hyx, hmin⟩ := hwf.has_min {a | dom a x} ⟨⟨z, hz⟩, hzx⟩
  refine ⟨y, y.2, ?_, hyx⟩
  intro w hw hwy
  exact hmin ⟨w, hw⟩ (htrans hwy hyx) hwy

end Dominance

section Greedy
variable {α κ : Type} [DecidableEq κ] (group : α → κ) (cap total : ℕ)

def groupCount (xs : List α) (k : κ) : ℕ := xs.countP fun y => decide (group y = k)

def Room (chosen : List α) (x : α) : Prop :=
  groupCount group chosen (group x) < cap ∧ chosen.length < total

/-- The greedy selection from a list, after some elements have been chosen. -/
inductive Greedy : List α → List α → List α → Prop where
  | nil (chosen : List α) : Greedy chosen [] []
  | take {chosen : List α} {x : α} {xs ys : List α} (hroom : Room group cap total chosen x)
      (h : Greedy (chosen ++ [x]) xs ys) : Greedy chosen (x :: xs) (x :: ys)
  | skip {chosen : List α} {x : α} {xs ys : List α} (hfull : ¬ Room group cap total chosen x)
      (h : Greedy chosen xs ys) : Greedy chosen (x :: xs) ys

variable {group cap total} {chosen xs ys zs : List α}

theorem Greedy.unique (h : Greedy group cap total chosen xs ys)
    (h' : Greedy group cap total chosen xs zs) : ys = zs := by
  induction h generalizing zs with
  | nil => cases h' with | nil => rfl
  | take hroom _ ih =>
    cases h' with
    | take _ h' => exact congrArg _ (ih h')
    | skip hfull _ => exact (hfull hroom).elim
  | skip hfull _ ih =>
    cases h' with
    | take hroom _ => exact (hfull hroom).elim
    | skip _ h' => exact ih h'

theorem Greedy.length_le (h : Greedy group cap total chosen xs ys)
    (hchosen : chosen.length ≤ total) : chosen.length + ys.length ≤ total := by
  induction h with
  | nil => simpa using hchosen
  | take hroom _ ih =>
    have hnext := ih (by simpa using Nat.succ_le_of_lt hroom.2)
    simp only [List.length_append, List.length_cons, List.length_nil] at hnext ⊢
    omega
  | skip _ _ ih => exact ih hchosen

theorem Greedy.groupCount_le (h : Greedy group cap total chosen xs ys) (k : κ)
    (hchosen : groupCount group chosen k ≤ cap) :
    groupCount group (chosen ++ ys) k ≤ cap := by
  induction h with
  | nil => simpa using hchosen
  | @take chosen x xs ys hroom _ ih =>
    rw [List.append_cons]
    apply ih
    unfold groupCount at hchosen ⊢
    rw [List.countP_append, List.countP_singleton]
    have hgroup := hroom.1
    unfold groupCount at hgroup
    by_cases hk : group x = k
    · subst hk
      simpa using Nat.succ_le_of_lt hgroup
    · simpa [hk] using hchosen
  | skip _ _ ih => exact ih hchosen

theorem Greedy.eq_of_short (h : Greedy group cap total chosen xs ys)
    (hcap : chosen.length + xs.length ≤ cap) (htotal : chosen.length + xs.length ≤ total) :
    ys = xs := by
  induction h with
  | nil => rfl
  | take _ _ ih =>
    simp only [List.length_cons, List.length_append, List.length_nil] at hcap htotal ih
    rw [ih (by omega) (by omega)]
  | @skip chosen x xs ys hfull _ _ =>
    refine (hfull ⟨?_, ?_⟩).elim
    · have hcount : groupCount group chosen (group x) ≤ chosen.length := List.countP_le_length
      rw [List.length_cons] at hcap
      omega
    · rw [List.length_cons] at htotal
      omega

theorem greedy_full (hfull : total ≤ chosen.length) (xs : List α) :
    Greedy group cap total chosen xs [] := by
  induction xs with
  | nil => exact .nil chosen
  | cons x xs ih => exact .skip (fun hroom => absurd hroom.2 (by omega)) ih

end Greedy

end Selection
