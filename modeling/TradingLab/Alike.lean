import TradingLab.Method

/-!
# Alike computations

Two computations are alike when both raise, whatever they raise, or both return
and their results are related. Parts that are alike make wholes that are alike,
and so do the steps of two loops.
-/

inductive Alike {ε δ α β : Type} (R : α → β → Prop) : Except ε α → Except δ β → Prop
  | ok {a : α} {b : β} (h : R a b) : Alike R (.ok a) (.ok b)
  | error (e : ε) (e' : δ) : Alike R (.error e) (.error e')

namespace Alike
variable {ε δ α β γ κ : Type} {R : α → β → Prop} {S : γ → κ → Prop} {x : Except ε α} {y : Except δ β}

protected theorem refl (x : Except ε α) : Alike (fun a b => a = b) x x := by
  cases x with
  | ok a => exact .ok rfl
  | error e => exact .error e e

theorem imp {Q : α → β → Prop} (h : Alike R x y)
    (himp : ∀ a b, x = .ok a → y = .ok b → R a b → Q a b) : Alike Q x y := by
  cases h with
  | ok h => exact .ok (himp _ _ rfl rfl h)
  | error e e' => exact .error e e'

theorem ok_iff (h : Alike R x y) : (∃ a, x = .ok a) ↔ ∃ b, y = .ok b := by
  cases h with
  | ok h => exact ⟨fun _ => ⟨_, rfl⟩, fun _ => ⟨_, rfl⟩⟩
  | error e e' => exact ⟨nofun, nofun⟩

theorem rel {a : α} {b : β} (h : Alike R x y) (hx : x = .ok a) (hy : y = .ok b) : R a b := by
  cases h with
  | ok h =>
    cases hx
    cases hy
    exact h
  | error e e' => cases hx

theorem bind {f : α → Except ε γ} {g : β → Except δ κ} (h : Alike R x y)
    (hrest : ∀ a b, R a b → Alike S (f a) (g b)) : Alike S (x >>= f) (y >>= g) := by
  cases h with
  | ok h => exact hrest _ _ h
  | error e e' => exact .error e e'

theorem mapError {f : ε → γ} {g : δ → κ} (h : Alike R x y) :
    Alike R (x.mapError f) (y.mapError g) := by
  cases h with
  | ok h => exact .ok h
  | error e e' => exact .error (f e) (g e')

theorem raiseIf {p q : Prop} [Decidable p] [Decidable q] (e : ε) (e' : δ) (h : p ↔ q) :
    Alike (fun _ _ => True) (raiseIf p e) (raiseIf q e') := by
  by_cases hq : q
  · rw [raiseIf_pos (h.mpr hq), raiseIf_pos hq]
    exact .error e e'
  · rw [raiseIf_neg (h.not.mpr hq), raiseIf_neg hq]
    exact .ok trivial

theorem construct {cx : Except ε Unit} {cy : Except δ Unit} {mk : cx = .ok () → α}
    {mk' : cy = .ok () → β} (h : cx = .ok () ↔ cy = .ok ()) (hmk : ∀ hx hy, R (mk hx) (mk' hy)) :
    Alike R (construct cx mk) (construct cy mk') := by
  cases cx with
  | ok u =>
    have hy := h.mp rfl
    rw [construct_of_ok hy]
    exact .ok (hmk rfl hy)
  | error e =>
    cases cy with
    | ok u => cases h.mpr rfl
    | error e' => exact .error e e'

variable {σ τ : Type}

/-- Over related lists, the loops of alike steps are alike; the invariant may count the steps. -/
theorem foldlM {E : α → β → Prop} {I : ℕ → σ → τ → Prop} {f : σ → α → Except ε σ}
    {g : τ → β → Except δ τ} {most : ℕ}
    (step : ∀ n < most, ∀ s t a b, I n s t → E a b → Alike (I (n + 1)) (f s a) (g t b))
    {as : List α} {bs : List β} (h : List.Forall₂ E as bs) {n : ℕ} (hn : n + as.length ≤ most)
    {s : σ} {t : τ} (hI : I n s t) :
    Alike (I (n + as.length)) (as.foldlM f s) (bs.foldlM g t) := by
  induction h generalizing n s t with
  | nil => exact .ok hI
  | @cons a b as bs hhead _ ih =>
    rw [List.length_cons] at hn ⊢
    rw [List.foldlM_cons, List.foldlM_cons]
    apply bind (step n (by omega) s t a b hI hhead)
    intro s' t' hI'
    rw [show n + (as.length + 1) = n + 1 + as.length by omega]
    exact ih (by omega) hI'

theorem foldlM_self {R : σ → τ → Prop} {f : σ → α → Except ε σ} {g : τ → α → Except δ τ}
    (step : ∀ s t a, R s t → Alike R (f s a) (g t a)) (as : List α) {s : σ} {t : τ} (h : R s t) :
    Alike R (as.foldlM f s) (as.foldlM g t) := by
  induction as generalizing s t with
  | nil => exact .ok h
  | cons a as ih =>
    rw [List.foldlM_cons, List.foldlM_cons]
    exact bind (step s t a h) fun s' t' h' => ih h'

end Alike

section Along
variable {ε δ α σ τ : Type} {f : σ → α → Except ε σ} {g : τ → α → Except δ τ} {P Q : σ → α → Prop}
  {R : σ → τ → Prop}

/-- What holds of each step of a loop and the state before it. -/
def Along (P : σ → α → Prop) (f : σ → α → Except ε σ) : σ → List α → Prop
  | _, [] => True
  | s, a :: as => P s a ∧
      match f s a with
      | .ok s' => Along P f s' as
      | .error _ => True

instance Along.decidable [∀ s a, Decidable (P s a)] : ∀ s as, Decidable (Along P f s as)
  | _, [] => inferInstanceAs (Decidable True)
  | s, a :: as =>
      @instDecidableAnd _ _ _ <|
        match f s a with
        | .ok s' => Along.decidable s' as
        | .error _ => inferInstanceAs (Decidable True)

variable {s : σ} {as : List α}

theorem Along.tail {s' : σ} {a : α} (h : Along P f s (a :: as))
    (hstep : f s a = .ok s') : Along P f s' as := by
  have htail := h.2
  rwa [hstep] at htail

theorem Along.and (hP : Along P f s as) (hQ : Along Q f s as) :
    Along (fun s a => P s a ∧ Q s a) f s as := by
  induction as generalizing s with
  | nil => trivial
  | cons a as ih =>
    refine ⟨⟨hP.1, hQ.1⟩, ?_⟩
    cases hs : f s a with
    | ok s' => exact ih (hP.tail hs) (hQ.tail hs)
    | error e => trivial

theorem Along.of_append {bs : List α} (h : Along P f s (as ++ bs)) : Along P f s as := by
  induction as generalizing s with
  | nil => trivial
  | cons a as ih =>
    refine ⟨h.1, ?_⟩
    cases hs : f s a with
    | ok s' => exact ih (h.tail hs)
    | error e => trivial

/-- Steps that are alike as long as something holds make loops alike along which it does. -/
theorem Alike.foldlM_along (step : ∀ s t a, R s t → P s a → Alike R (f s a) (g t a)) {t : τ}
    (h : R s t) (hP : Along P f s as) :
    Alike R (as.foldlM f s) (as.foldlM g t) := by
  induction as generalizing s t with
  | nil => exact .ok h
  | cons a as ih =>
    have hstep := step s t a h hP.1
    rw [List.foldlM_cons, List.foldlM_cons]
    generalize hs : f s a = x at hstep
    generalize g t a = y at hstep
    cases hstep with
    | ok h' => exact ih h' (hP.tail hs)
    | error e e' => exact .error e e'

theorem foldlM_error_of_not_along (step : ∀ s t a, R s t → Q s a → P s a → Alike R (f s a) (g t a))
    (bad : ∀ s t a, R s t → ¬ P s a → ∃ e, g t a = .error e) {t : τ}
    (h : R s t) (hQ : Along Q f s as) (hP : ¬ Along P f s as) :
    ∃ e, as.foldlM g t = .error e := by
  induction as generalizing s t with
  | nil => exact (hP trivial).elim
  | cons a as ih =>
    rw [List.foldlM_cons]
    by_cases hPa : P s a
    · have hstep := step s t a h hQ.1 hPa
      cases hs : f s a with
      | ok s' =>
        rw [hs] at hstep
        generalize g t a = y at hstep
        cases hstep with
        | ok h' =>
          apply ih h' (hQ.tail hs)
          intro htail
          apply hP
          refine ⟨hPa, ?_⟩
          rw [hs]
          exact htail
      | error e =>
        apply (hP ⟨hPa, ?_⟩).elim
        rw [hs]
        trivial
    · obtain ⟨e, he⟩ := bad s t a h hPa
      rw [he]
      exact ⟨e, rfl⟩

end Along

/-- What the steps keep as long as both return, two loops that return keep. -/
theorem foldlM_of_ok {ε δ α σ τ : Type} {R : σ → τ → Prop} {f : σ → α → Except ε σ}
    {g : τ → α → Except δ τ}
    (step : ∀ s t a s' t', R s t → f s a = .ok s' → g t a = .ok t' → R s' t') {as : List α}
    {s s' : σ} {t t' : τ} (h : R s t) (hs : as.foldlM f s = .ok s') (ht : as.foldlM g t = .ok t') :
    R s' t' := by
  induction as generalizing s t with
  | nil =>
    cases hs
    cases ht
    exact h
  | cons a as ih =>
    rw [List.foldlM_cons, bind_eq_ok] at hs ht
    obtain ⟨u, hu, hs⟩ := hs
    obtain ⟨v, hv, ht⟩ := ht
    exact ih (step s t a u v h hu hv) hs ht
