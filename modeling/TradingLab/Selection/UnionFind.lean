import Mathlib.Data.List.Dedup
import Mathlib.Data.List.Sort
import Mathlib.Order.MinMax

/-!
# Union-find over ordered keys

Every key has a parent, which is the key itself or a smaller one. A search halves
the path to the root on its way, and a union makes the smaller of two roots the
parent of the other one. A map of this kind represents a choice of the least key of
each class, and the classes are the connected components of the unions that were
made. Grouping the keys by their roots gives the components in order.
-/

namespace UnionFind

open List

variable {κ : Type} [LinearOrder κ]

def halve (p : κ → κ) (x : κ) : κ → κ := Function.update p x (p (p x))

/-- The root of a key, in at most `n` rounds of the loop. -/
def find : ℕ → (κ → κ) → κ → Option ((κ → κ) × κ)
  | 0, _, _ => none
  | n + 1, p, x => if p x = x then some (p, x) else find n (halve p x) (halve p x x)

def link (p : κ → κ) (r s : κ) : κ → κ :=
  if r ≠ s then Function.update p (max r s) (min r s) else p

def union (n : ℕ) (p : κ → κ) (a b : κ) : Option (κ → κ) := do
  let (p, r) ← find n p a
  let (p, s) ← find n p b
  return link p r s

structure Forest (ids : List κ) (p : κ → κ) : Prop where
  le : ∀ x, p x ≤ x
  mem : ∀ x ∈ ids, p x ∈ ids

/-- The maps that any order of halvings and links can lead to. -/
inductive Reachable (ids : List κ) : (κ → κ) → Prop where
  | start : Reachable ids id
  | halve {p : κ → κ} (x : κ) (h : Reachable ids p) (hx : x ∈ ids) : Reachable ids (halve p x)
  | link {p : κ → κ} {r s : κ} (h : Reachable ids p) (hr : r ∈ ids) (hs : s ∈ ids)
      (hroot : p r = r) (hroot' : p s = s) : Reachable ids (link p r s)

variable {ids : List κ} {p q ρ : κ → κ} {x a b r s : κ} {n : ℕ}

theorem halve_self (p : κ → κ) (x : κ) : halve p x x = p (p x) := Function.update_self ..

theorem Forest.halve (h : Forest ids p) (x : κ) : Forest ids (halve p x) := by
  constructor
  · intro y
    by_cases hy : y = x
    · rw [hy, halve_self]
      exact (h.le _).trans (h.le x)
    · rw [UnionFind.halve, Function.update_of_ne hy]
      exact h.le y
  · intro y hmem
    by_cases hy : y = x
    · rw [hy, halve_self]
      exact h.mem _ (h.mem x (hy ▸ hmem))
    · rw [UnionFind.halve, Function.update_of_ne hy]
      exact h.mem y hmem

theorem Forest.link (h : Forest ids p) (hr : r ∈ ids) (hs : s ∈ ids) : Forest ids (link p r s) := by
  unfold UnionFind.link
  split_ifs
  · constructor
    · intro y
      by_cases hy : y = max r s
      · rw [hy, Function.update_self]
        exact min_le_max
      · rw [Function.update_of_ne hy]
        exact h.le y
    · intro y hmem
      by_cases hy : y = max r s
      · rw [hy, Function.update_self]
        rcases min_choice r s with h | h <;> rw [h] <;> assumption
      · rw [Function.update_of_ne hy]
        exact h.mem y hmem
  · exact h

theorem Reachable.forest (h : Reachable ids p) : Forest ids p := by
  induction h with
  | start => exact ⟨fun _ => le_rfl, fun _ hx => hx⟩
  | halve x _ _ ih => exact ih.halve x
  | link _ hr hs _ _ ih => exact ih.link hr hs

theorem countP_lt_countP (hy : a ∈ ids) (h : a < b) :
    ids.countP (· < a) < ids.countP (· < b) := by
  have hsplit : ids.countP (· < a) + ids.countP (· = a) ≤ ids.countP (· < b) := by
    clear hy
    induction ids with
    | nil => simp
    | cons y ys ih =>
      simp only [countP_cons, decide_eq_true_eq]
      rcases lt_trichotomy y a with hlt | rfl | hgt
      · rw [if_pos hlt, if_neg hlt.ne, if_pos (hlt.trans h)]
        omega
      · rw [if_neg (lt_irrefl y), if_pos rfl, if_pos h]
        omega
      · rw [if_neg hgt.le.not_gt, if_neg hgt.ne']
        omega
  have hpos : 0 < ids.countP (· = a) := countP_pos_iff.mpr ⟨a, hy, by simp⟩
  omega

theorem exists_find (h : Forest ids p) (hx : x ∈ ids) (hn : ids.countP (· < x) < n) :
    ∃ q r, find n p x = some (q, r) := by
  induction n generalizing p x with
  | zero => omega
  | succ n ih =>
    rw [find]
    split_ifs with hroot
    · exact ⟨p, x, rfl⟩
    · have hlt : p (p x) < x := (h.le _).trans_lt (lt_of_le_of_ne (h.le x) hroot)
      have hmem : p (p x) ∈ ids := h.mem _ (h.mem x hx)
      have hfewer := countP_lt_countP hmem hlt
      rw [halve_self]
      exact ih (h.halve x) hmem (by omega)

theorem exists_find_length (h : Forest ids p) (hx : x ∈ ids) :
    ∃ q r, find ids.length p x = some (q, r) := by
  apply exists_find h hx
  refine lt_of_le_of_ne countP_le_length fun hall => ?_
  have := countP_eq_length.mp hall x hx
  simp at this

/-- `ρ` is the root of every key. -/
structure Represents (p ρ : κ → κ) : Prop where
  step : ∀ x, ρ (p x) = ρ x
  root : ∀ x, p x = x → ρ x = x

omit [LinearOrder κ] in
theorem represents_id : Represents (id : κ → κ) id := ⟨fun _ => rfl, fun _ _ => rfl⟩

theorem Represents.halve (h : Represents p ρ) (hf : Forest ids p) (x : κ) :
    Represents (halve p x) ρ := by
  constructor
  · intro y
    by_cases hy : y = x
    · rw [hy, halve_self, h.step, h.step]
    · rw [UnionFind.halve, Function.update_of_ne hy, h.step]
  · intro y hroot
    by_cases hy : y = x
    · rw [hy, halve_self] at hroot
      have hle := hf.le (p x)
      rw [hroot] at hle
      have hpx : p x = x := le_antisymm (hf.le x) hle
      rw [hy]
      exact h.root x hpx
    · rw [UnionFind.halve, Function.update_of_ne hy] at hroot
      exact h.root y hroot

theorem halve_root (h : p r = r) (x : κ) : halve p x r = r := by
  by_cases hx : r = x
  · rw [← hx, halve_self, h, h]
  · rw [halve, Function.update_of_ne hx, h]

theorem Reachable.find (h : Reachable ids p) (hx : x ∈ ids) (hfind : find n p x = some (q, r)) :
    Reachable ids q := by
  induction n generalizing p x with
  | zero => cases hfind
  | succ n ih =>
    rw [UnionFind.find] at hfind
    split_ifs at hfind with hroot
    · cases hfind
      exact h
    · rw [halve_self] at hfind
      exact ih (h.halve x hx) (h.forest.mem _ (h.forest.mem x hx)) hfind

theorem find_eq_some (h : Forest ids p) (hρ : Represents p ρ) (hx : x ∈ ids)
    (hfind : find n p x = some (q, r)) :
    Represents q ρ ∧ r = ρ x ∧ r ∈ ids ∧ ∀ t, t = r ∨ p t = t → q t = t := by
  induction n generalizing p x with
  | zero => cases hfind
  | succ n ih =>
    rw [find] at hfind
    split_ifs at hfind with hroot
    · cases hfind
      refine ⟨hρ, (hρ.root _ hroot).symm, hx, ?_⟩
      rintro t (rfl | ht) <;> assumption
    · have hmem : p (p x) ∈ ids := h.mem _ (h.mem x hx)
      rw [halve_self] at hfind
      obtain ⟨hρq, hr, hmemr, hroots⟩ := ih (h.halve x) (hρ.halve h x) hmem hfind
      rw [hρ.step, hρ.step] at hr
      exact ⟨hρq, hr, hmemr, fun t ht => hroots t (ht.imp_right fun ht => halve_root ht x)⟩

/-- The representatives after a union. -/
def merge (ρ : κ → κ) (r s x : κ) : κ := if ρ x = max r s then min r s else ρ x

theorem Represents.link (h : Represents p ρ) (hr : p r = r) (hs : p s = s) :
    Represents (link p r s) (merge ρ r s) := by
  have hρr := h.root r hr
  have hρs := h.root s hs
  unfold UnionFind.link
  split_ifs with hne
  · have hmin : ρ (min r s) = min r s := by rcases min_choice r s with h | h <;> rw [h] <;> assumption
    have hmax : ρ (max r s) = max r s := by rcases max_choice r s with h | h <;> rw [h] <;> assumption
    have hlt : min r s ≠ max r s := (min_lt_max.mpr hne).ne
    constructor
    · intro y
      by_cases hy : y = max r s
      · rw [hy, Function.update_self, merge, merge, hmin, if_neg hlt, hmax, if_pos rfl]
      · rw [Function.update_of_ne hy, merge, merge, h.step]
    · intro y hroot
      by_cases hy : y = max r s
      · rw [hy, Function.update_self] at hroot
        exact absurd hroot hlt
      · rw [Function.update_of_ne hy] at hroot
        have hρy := h.root y hroot
        rw [merge, hρy, if_neg hy]
  · obtain rfl := not_not.mp hne
    have hsame : merge ρ r r = ρ := by
      funext y
      rw [merge, max_self, min_self]
      split_ifs with hy
      · exact hy.symm
      · rfl
    rw [hsame]
    exact h

theorem exists_union (h : Reachable ids p) (hρ : Represents p ρ) (ha : a ∈ ids) (hb : b ∈ ids) :
    ∃ q, union ids.length p a b = some q ∧ Reachable ids q ∧
      Represents q (merge ρ (ρ a) (ρ b)) := by
  obtain ⟨q, r, hfind⟩ := exists_find_length h.forest ha
  obtain ⟨hρq, hr, hmem, hroots⟩ := find_eq_some h.forest hρ ha hfind
  have hq := h.find ha hfind
  obtain ⟨q', s, hfind'⟩ := exists_find_length hq.forest hb
  obtain ⟨hρq', hs, hmem', hroots'⟩ := find_eq_some hq.forest hρq hb hfind'
  have hrootr : q' r = r := hroots' r (.inr (hroots r (.inl rfl)))
  have hroots : q' s = s := hroots' s (.inl rfl)
  refine ⟨link q' r s, ?_, (hq.find hb hfind').link hmem hmem' hrootr hroots, ?_⟩
  · rw [union, hfind]
    dsimp only [Option.bind_eq_bind, Option.bind_some]
    rw [hfind']
    rfl
  · rw [← hr, ← hs]
    exact hρq'.link hrootr hroots

/-- `ρ` chooses the least key of each class of `E`. -/
structure Chooses (ids : List κ) (E : κ → κ → Prop) (ρ : κ → κ) : Prop where
  classes : ∀ x y, ρ x = ρ y ↔ Relation.EqvGen E x y
  le : ∀ x, ρ x ≤ x
  idem : ∀ x, ρ (ρ x) = ρ x
  mem : ∀ x ∈ ids, ρ x ∈ ids

variable {E E' : κ → κ → Prop}

theorem chooses_id (ids : List κ) : Chooses ids (fun _ _ => False) id where
  classes x y := by
    constructor
    · rintro rfl
      exact .refl x
    · intro h
      induction h with
      | rel _ _ h => exact h.elim
      | refl => rfl
      | symm _ _ _ ih => exact ih.symm
      | trans _ _ _ _ _ ih ih' => exact ih.trans ih'
  le _ := le_rfl
  idem _ := rfl
  mem _ hx := hx

/-- A union joins the classes of its two keys. -/
theorem Chooses.merge (h : Chooses ids E ρ) (ha : a ∈ ids) (hb : b ∈ ids) :
    Chooses ids (fun x y => E x y ∨ x = a ∧ y = b) (merge ρ (ρ a) (ρ b)) := by
  set r := ρ a with hr
  set s := ρ b with hs
  have hmin : ρ (min r s) = min r s := by
    rcases min_choice r s with h' | h' <;> rw [h'] <;> exact h.idem _
  have hends : UnionFind.merge ρ r s a = min r s ∧ UnionFind.merge ρ r s b = min r s := by
    unfold UnionFind.merge
    rw [← hr, ← hs]
    constructor
    · split_ifs with h'
      · rfl
      · exact (min_eq_left (le_of_not_ge fun hle => h' (max_eq_left hle).symm)).symm
    · split_ifs with h'
      · rfl
      · exact (min_eq_right (le_of_not_ge fun hle => h' (max_eq_right hle).symm)).symm
  have hmono : ∀ {x y}, Relation.EqvGen E x y →
      Relation.EqvGen (fun x y => E x y ∨ x = a ∧ y = b) x y :=
    fun hxy => hxy.mono fun _ _ => Or.inl
  have hjoin : Relation.EqvGen (fun x y => E x y ∨ x = a ∧ y = b) (max r s) (min r s) := by
    have har := hmono ((h.classes a r).mp (h.idem a).symm)
    have hbs := hmono ((h.classes b s).mp (h.idem b).symm)
    have hrs := (har.symm.trans _ _ _ (.rel a b (.inr ⟨rfl, rfl⟩))).trans _ _ _ hbs
    rcases le_total r s with hle | hle
    · rw [max_eq_right hle, min_eq_left hle]
      exact hrs.symm
    · rw [max_eq_left hle, min_eq_right hle]
      exact hrs
  have hreach : ∀ x, Relation.EqvGen (fun x y => E x y ∨ x = a ∧ y = b) x
      (UnionFind.merge ρ r s x) := by
    intro x
    have hx := hmono ((h.classes x (ρ x)).mp (h.idem x).symm)
    unfold UnionFind.merge
    split_ifs with hmax
    · rw [hmax] at hx
      exact hx.trans _ _ _ hjoin
    · exact hx
  constructor
  · intro x y
    constructor
    · intro heq
      have hx := hreach x
      rw [heq] at hx
      exact hx.trans _ _ _ (hreach y).symm
    · intro hxy
      induction hxy with
      | rel x y hxy =>
        rcases hxy with hxy | ⟨rfl, rfl⟩
        · unfold UnionFind.merge
          rw [(h.classes x y).mpr (.rel x y hxy)]
        · rw [hends.1, hends.2]
      | refl => rfl
      | symm _ _ _ ih => exact ih.symm
      | trans _ _ _ _ _ ih ih' => exact ih.trans ih'
  · intro x
    unfold UnionFind.merge
    split_ifs with hmax
    · exact (min_le_max.trans hmax.ge).trans (h.le x)
    · exact h.le x
  · intro x
    by_cases hmax : ρ x = max r s
    · have hx : UnionFind.merge ρ r s x = min r s := if_pos hmax
      rw [hx, UnionFind.merge, hmin]
      split_ifs <;> rfl
    · have hx : UnionFind.merge ρ r s x = ρ x := if_neg hmax
      rw [hx, UnionFind.merge, h.idem, if_neg hmax]
  · intro x hx
    unfold UnionFind.merge
    split_ifs
    · rcases min_choice r s with h' | h' <;> rw [h']
      · exact h.mem a ha
      · exact h.mem b hb
    · exact h.mem x hx

omit [LinearOrder κ] in
theorem eqvGen_le {x y : κ} (hE : ∀ x y, E x y → Relation.EqvGen E' x y)
    (h : Relation.EqvGen E x y) : Relation.EqvGen E' x y := by
  induction h with
  | rel x y h => exact hE x y h
  | refl x => exact .refl x
  | symm _ _ _ ih => exact ih.symm
  | trans _ _ _ _ _ ih ih' => exact ih.trans _ _ _ ih'

theorem Chooses.congr (h : Chooses ids E ρ)
    (hE : ∀ x y, Relation.EqvGen E x y ↔ Relation.EqvGen E' x y) : Chooses ids E' ρ :=
  ⟨fun x y => (h.classes x y).trans (hE x y), h.le, h.idem, h.mem⟩

/-- The classes of some keys: each in increasing order, the one with the least key first. -/
structure IsComponents (ids : List κ) (E : κ → κ → Prop) (cs : List (List κ)) : Prop where
  sorted : ∀ c ∈ cs, c.Pairwise (· < ·)
  nonempty : ∀ c ∈ cs, c ≠ []
  ordered : cs.Pairwise fun c d => ∀ y ∈ d, ∃ x ∈ c, x < y
  covers : ∀ x ∈ ids, ∃ c ∈ cs, x ∈ c
  classes : ∀ c ∈ cs, ∀ x ∈ c, ∀ y, y ∈ c ↔ y ∈ ids ∧ Relation.EqvGen E x y

variable {c ids' xs : List κ} {cs ds : List (List κ)}

theorem not_after_self (hc : c.Pairwise (· < ·)) (hne : c ≠ []) :
    ¬ ∀ y ∈ c, ∃ x ∈ c, x < y := by
  cases c with
  | nil => exact absurd rfl hne
  | cons a c =>
    intro h
    obtain ⟨x, hx, hlt⟩ := h a mem_cons_self
    rcases mem_cons.mp hx with rfl | hx
    · exact lt_irrefl _ hlt
    · exact lt_asymm hlt ((pairwise_cons.mp hc).1 x hx)

theorem eq_of_mem_iff {d : List κ} (hc : c.Pairwise (· < ·)) (hd : d.Pairwise (· < ·))
    (h : ∀ x, x ∈ c ↔ x ∈ d) : c = d := by
  have hperm : c.Perm d :=
    (perm_ext_iff_of_nodup (hc.imp fun h => h.ne) (hd.imp fun h => h.ne)).mpr h
  exact hperm.eq_of_pairwise (fun _ _ _ _ h h' => absurd h' (lt_asymm h)) hc hd

theorem IsComponents.mem_iff (h : IsComponents ids E cs)
    (h' : IsComponents ids' E' ds) (hids : ∀ x, x ∈ ids ↔ x ∈ ids')
    (hE : ∀ x y, Relation.EqvGen E x y ↔ Relation.EqvGen E' x y) (hc : c ∈ cs) :
    c ∈ ds := by
  obtain ⟨x, hx⟩ := exists_mem_of_ne_nil c (h.nonempty c hc)
  have hxids := ((h.classes c hc x hx x).mp hx).1
  obtain ⟨d, hd, hxd⟩ := h'.covers x ((hids x).mp hxids)
  have hcd : c = d := eq_of_mem_iff (h.sorted c hc) (h'.sorted d hd) fun y => by
    rw [h.classes c hc x hx, h'.classes d hd x hxd, hids, hE]
  rw [hcd]
  exact hd

theorem IsComponents.unique (h : IsComponents ids E cs)
    (h' : IsComponents ids' E' ds) (hids : ∀ x, x ∈ ids ↔ x ∈ ids')
    (hE : ∀ x y, Relation.EqvGen E x y ↔ Relation.EqvGen E' x y) : cs = ds := by
  have hnodup : ∀ {ids : List κ} {E : κ → κ → Prop} {cs}, IsComponents ids E cs → cs.Nodup := by
    intro ids E cs h
    refine h.ordered.imp_of_mem fun {c d} hc _ hcd heq => ?_
    rw [← heq] at hcd
    exact not_after_self (h.sorted c hc) (h.nonempty c hc) hcd
  have hperm : cs.Perm ds := (perm_ext_iff_of_nodup (hnodup h) (hnodup h')).mpr fun c =>
    ⟨h.mem_iff h' hids hE, h'.mem_iff h (fun x => (hids x).symm) fun x y => (hE x y).symm⟩
  refine hperm.eq_of_pairwise (fun c d hc hd hcd hdc => ?_) h.ordered h'.ordered
  refine absurd (fun y hy => ?_) (not_after_self (h.sorted c hc) (h.nonempty c hc))
  obtain ⟨x, hx, hxy⟩ := hdc y hy
  obtain ⟨z, hz, hzx⟩ := hcd x hx
  exact ⟨z, hz, hzx.trans hxy⟩

/-- The roots of some keys, one search after the other. -/
def roots (n : ℕ) : (κ → κ) → List κ → Option (List (κ × κ))
  | _, [] => some []
  | p, x :: xs => do
      let (p, r) ← find n p x
      let rest ← roots n p xs
      return (r, x) :: rest

/-- The keys under each root, by increasing roots. -/
def groups (rooted : List (κ × κ)) : List (List κ) :=
  ((rooted.map Prod.fst).dedup.insertionSort (· ≤ ·)).map fun r =>
    (rooted.filter fun g => g.1 = r).map Prod.snd

theorem roots_eq (h : Reachable ids p) (hρ : Represents p ρ)
    (hxs : ∀ x ∈ xs, x ∈ ids) : roots ids.length p xs = some (xs.map fun x => (ρ x, x)) := by
  induction xs generalizing p with
  | nil => rfl
  | cons x xs ih =>
    have hx := hxs x mem_cons_self
    obtain ⟨q, r, hfind⟩ := exists_find_length h.forest hx
    have hq := h.find hx hfind
    obtain ⟨hρq, rfl, -⟩ := find_eq_some h.forest hρ hx hfind
    rw [roots, hfind]
    dsimp only [Option.bind_eq_bind, Option.bind_some]
    rw [ih hq hρq fun y hy => hxs y (mem_cons_of_mem _ hy)]
    rfl

/-- The groups are the components. -/
theorem Chooses.isComponents (h : Chooses ids E ρ) (hxs : ∀ x, x ∈ xs ↔ x ∈ ids)
    (hsorted : xs.Pairwise (· < ·)) :
    IsComponents ids E (groups (xs.map fun x => (ρ x, x))) := by
  have hgroup : ∀ r, ((xs.map fun x => (ρ x, x)).filter fun g => g.1 = r).map Prod.snd =
      xs.filter fun x => ρ x = r := fun r => by
    rw [filter_map, map_map]
    exact map_id _
  have hroots : (xs.map fun x => (ρ x, x)).map Prod.fst = xs.map ρ := by
    rw [map_map]
    rfl
  have hmem : ∀ r, r ∈ (xs.map ρ).dedup.insertionSort (· ≤ ·) ↔ ∃ x ∈ ids, ρ x = r := fun r => by
    rw [mem_insertionSort, mem_dedup, mem_map]
    simp only [hxs]
  have hstrict : ((xs.map ρ).dedup.insertionSort (· ≤ ·)).Pairwise (· < ·) := by
    have hle := pairwise_insertionSort (· ≤ ·) (xs.map ρ).dedup
    have hne : ((xs.map ρ).dedup.insertionSort (· ≤ ·)).Nodup :=
      (perm_insertionSort _ _).nodup_iff.mpr (nodup_dedup _)
    exact (hle.and hne).imp fun hab => lt_of_le_of_ne hab.1 hab.2
  unfold groups
  rw [hroots]
  simp only [hgroup]
  have hin : ∀ c ∈ ((xs.map ρ).dedup.insertionSort (· ≤ ·)).map (fun r => xs.filter fun x => ρ x = r),
      ∃ x ∈ ids, c = xs.filter fun y => ρ y = ρ x := by
    intro c hc
    obtain ⟨r, hr, rfl⟩ := mem_map.mp hc
    obtain ⟨x, hx, rfl⟩ := (hmem r).mp hr
    exact ⟨x, hx, rfl⟩
  constructor
  · intro c hc
    obtain ⟨x, -, rfl⟩ := hin c hc
    exact hsorted.filter _
  · intro c hc
    obtain ⟨x, hx, rfl⟩ := hin c hc
    exact ne_nil_of_mem (mem_filter.mpr ⟨(hxs x).mpr hx, by simp⟩)
  · rw [pairwise_map]
    refine hstrict.imp_of_mem fun {r t} hr _ hlt y hy => ?_
    obtain ⟨x, hx, rfl⟩ := (hmem r).mp hr
    have hy := of_decide_eq_true (mem_filter.mp hy).2
    refine ⟨ρ x, mem_filter.mpr ⟨(hxs _).mpr (h.mem x hx), by simp [h.idem]⟩, ?_⟩
    rw [← hy] at hlt
    exact hlt.trans_le (h.le y)
  · intro x hx
    refine ⟨_, mem_map_of_mem ((hmem (ρ x)).mpr ⟨x, hx, rfl⟩), ?_⟩
    exact mem_filter.mpr ⟨(hxs x).mpr hx, by simp⟩
  · intro c hc x hx y
    obtain ⟨z, -, rfl⟩ := hin c hc
    have hx := of_decide_eq_true (mem_filter.mp hx).2
    rw [mem_filter, hxs, decide_eq_true_eq, ← hx, eq_comm (a := ρ y), h.classes]

end UnionFind
