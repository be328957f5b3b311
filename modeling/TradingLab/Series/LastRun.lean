import Mathlib.Data.List.Chain
import Mathlib.Data.List.Infix

/-!
# The last run of a list

The longest suffix of a list in which every element follows the one before it. A
list that is one run is its own last run.
-/

namespace Series

variable {α : Type} (follows : α → α → Prop) [DecidableRel follows]

/-- The elements from the newest one back, as far as each follows the one before it. -/
def runBack : List α → List α
  | [] => []
  | [a] => [a]
  | a :: b :: rest => if follows b a then a :: runBack (b :: rest) else [a]

def lastRun (xs : List α) : List α := (runBack follows xs.reverse).reverse

variable {follows} {xs ys : List α}

theorem runBack_isPrefix : ∀ xs : List α, runBack follows xs <+: xs
  | [] => List.prefix_rfl
  | [a] => List.prefix_rfl
  | a :: b :: rest => by
    rw [runBack]
    split
    · exact (List.prefix_cons_inj a).mpr (runBack_isPrefix (b :: rest))
    · exact ⟨b :: rest, rfl⟩

theorem runBack_cons_eq (a : α) (xs : List α) : ∃ ys, runBack follows (a :: xs) = a :: ys := by
  cases xs with
  | nil => exact ⟨[], rfl⟩
  | cons b rest =>
    rw [runBack]
    split
    · exact ⟨_, rfl⟩
    · exact ⟨_, rfl⟩

theorem isChain_runBack : ∀ xs : List α, (runBack follows xs).IsChain fun a b => follows b a
  | [] => .nil
  | [a] => .singleton a
  | a :: b :: rest => by
    rw [runBack]
    split
    · next hab =>
      obtain ⟨ys, hys⟩ := @runBack_cons_eq _ follows _ b rest
      have ih := isChain_runBack (b :: rest)
      rw [hys] at ih ⊢
      exact .cons_cons hab ih
    · exact .singleton a

theorem prefix_runBack : ∀ {xs ys : List α}, ys <+: xs → (ys.IsChain fun a b => follows b a) →
    ys <+: runBack follows xs
  | [], ys, h, _ => h
  | [a], ys, h, _ => h
  | a :: b :: rest, ys, h, hchain => by
    rw [runBack]
    cases ys with
    | nil => exact List.nil_prefix
    | cons c ys =>
      obtain ⟨rfl, htail⟩ := List.cons_prefix_cons.mp h
      cases ys with
      | nil =>
        split
        · exact (List.prefix_cons_inj c).mpr List.nil_prefix
        · exact List.prefix_rfl
      | cons d ys =>
        obtain ⟨rfl, -⟩ := List.cons_prefix_cons.mp htail
        rw [if_pos (List.isChain_cons_cons.mp hchain).1]
        exact (List.prefix_cons_inj c).mpr (prefix_runBack htail (List.isChain_cons_cons.mp hchain).2)

theorem lastRun_suffix (xs : List α) : lastRun follows xs <:+ xs := by
  have h := @runBack_isPrefix _ follows _ xs.reverse
  rw [lastRun, ← List.reverse_prefix, List.reverse_reverse]
  exact h

theorem isChain_lastRun (xs : List α) : (lastRun follows xs).IsChain follows := by
  rw [lastRun, List.isChain_reverse]
  exact isChain_runBack xs.reverse

theorem suffix_lastRun (h : ys <:+ xs) (hchain : ys.IsChain follows) : ys <:+ lastRun follows xs := by
  rw [lastRun, ← List.reverse_prefix, List.reverse_reverse]
  apply prefix_runBack (List.reverse_prefix.mpr h)
  rw [List.isChain_reverse]
  exact hchain

theorem lastRun_of_isChain (h : xs.IsChain follows) : lastRun follows xs = xs :=
  (lastRun_suffix xs).eq_of_length_le (suffix_lastRun List.suffix_rfl h).length_le

theorem lastRun_eq_nil_iff : lastRun follows xs = [] ↔ xs = [] := by
  constructor
  · intro h
    cases hxs : xs.reverse with
    | nil => exact List.reverse_eq_nil_iff.mp hxs
    | cons a rest =>
      obtain ⟨ys, hys⟩ := @runBack_cons_eq _ follows _ a rest
      rw [lastRun, hxs, hys] at h
      simp at h
  · intro h
    rw [h]
    rfl

theorem getLast?_lastRun (xs : List α) : (lastRun follows xs).getLast? = xs.getLast? := by
  rw [lastRun, List.getLast?_reverse, List.getLast?_eq_head?_reverse]
  cases xs.reverse with
  | nil => rfl
  | cons a rest =>
    obtain ⟨ys, hys⟩ := @runBack_cons_eq _ follows _ a rest
    rw [hys]
    rfl

end Series
