import Mathlib.Data.List.Basic
import Mathlib.Tactic.Cases

/-!
# Interleaved requests on a shared store

A request is a program that issues operations one at a time and continues with
their answers. Each operation is atomic; between two of them any other request
may run, the environment may change the store, and a request may be abandoned.

A run records the operations that were executed, each with the store it found.
What a request knows about the store when it issues an operation is stated by a
guard and proved with `Wp`, the weakest precondition under interference.
-/

namespace Interleaving

open List

/-- A program that issues operations `Op` and returns an `α`. -/
inductive Prog (Op : Type) (Ans : Op → Type) (α : Type) where
  | ret (a : α)
  | op (o : Op) (next : Ans o → Prog Op Ans α)

namespace Prog
variable {Op : Type} {Ans : Op → Type} {α β : Type}

def bind (p : Prog Op Ans α) (f : α → Prog Op Ans β) : Prog Op Ans β :=
  match p with
  | ret a => f a
  | op o next => op o fun a => (next a).bind f

instance : Monad (Prog Op Ans) where
  pure := ret
  bind := bind

def perform (o : Op) : Prog Op Ans (Ans o) := op o ret

@[simp] theorem pure_eq (a : α) : (pure a : Prog Op Ans α) = ret a := rfl

@[simp] theorem ret_bind (a : α) (f : α → Prog Op Ans β) : (ret a >>= f) = f a := rfl

@[simp] theorem op_bind (o : Op) (next : Ans o → Prog Op Ans α) (f : α → Prog Op Ans β) :
    (op o next >>= f) = op o fun a => next a >>= f := rfl

@[simp] theorem perform_bind (o : Op) (f : Ans o → Prog Op Ans β) :
    (perform o >>= f) = op o f := rfl

/-- Every operation the program can issue, whatever the answers, satisfies `P`. -/
def Issues (P : Op → Prop) : Prog Op Ans α → Prop
  | ret _ => True
  | op o next => P o ∧ ∀ a, (next a).Issues P

variable {P : Op → Prop}

@[simp] theorem issues_ret {a : α} : (ret a : Prog Op Ans α).Issues P := trivial

@[simp] theorem issues_op {o : Op} {next : Ans o → Prog Op Ans α} :
    (op o next).Issues P ↔ P o ∧ ∀ a, (next a).Issues P := Iff.rfl

theorem Issues.ite {c : Prop} [Decidable c] {p q : Prog Op Ans α}
    (hp : p.Issues P) (hq : q.Issues P) : (if c then p else q).Issues P := by
  split
  · exact hp
  · exact hq

theorem Issues.bind {p : Prog Op Ans α} {f : α → Prog Op Ans β}
    (hp : p.Issues P) (hf : ∀ a, (f a).Issues P) : (p >>= f).Issues P := by
  induction p with
  | ret a => exact hf a
  | op o next ih => exact ⟨hp.1, fun a => ih a (hp.2 a)⟩

end Prog

/-- How a store answers operations, and how it changes by itself. -/
structure Machine (σ Op : Type) (Ans : Op → Type) where
  exec : (o : Op) → σ → Ans o × σ
  env : σ → σ → Prop

namespace Machine
variable {σ Op : Type} {Ans : Op → Type} {α β : Type}

/-- The store after an operation. -/
def after (M : Machine σ Op Ans) (s : σ) (o : Op) : σ := (M.exec o s).2

/-- What interference may do: a preorder that no operation and no change leaves. -/
structure Rely (M : Machine σ Op Ans) (R : σ → σ → Prop) : Prop where
  refl : ∀ s, R s s
  trans : ∀ {s t u}, R s t → R t u → R s u
  exec : ∀ s o, R s (M.after s o)
  env : ∀ {s t}, M.env s t → R s t

/-- Under interference `R`, every operation issued from `s` on satisfies the guard where it
is executed, and the program ends in `Q`. -/
def Wp (M : Machine σ Op Ans) (R : σ → σ → Prop) (G : σ → Op → Prop) (Q : α → σ → Prop) :
    Prog Op Ans α → σ → Prop
  | .ret a, s => Q a s
  | .op o next, s => ∀ t, R s t → G t o ∧ Wp M R G Q (next (M.exec o t).1) (M.after t o)

variable {M : Machine σ Op Ans} {R : σ → σ → Prop} {G : σ → Op → Prop}

variable {Q : α → σ → Prop} {s : σ} {p : Prog Op Ans α}

@[simp] theorem wp_ret {a : α} : M.Wp R G Q (.ret a) s ↔ Q a s :=
  Iff.rfl

theorem wp_op {o : Op} {next : Ans o → Prog Op Ans α} :
    M.Wp R G Q (.op o next) s ↔
      ∀ t, R s t → G t o ∧ M.Wp R G Q (next (M.exec o t).1) (M.after t o) :=
  Iff.rfl

theorem wp_bind {Q : β → σ → Prop} {f : α → Prog Op Ans β} :
    M.Wp R G Q (p >>= f) s ↔ M.Wp R G (fun a t => M.Wp R G Q (f a) t) p s := by
  induction p generalizing s with
  | ret a => exact Iff.rfl
  | op o next ih =>
    rw [Prog.op_bind, wp_op, wp_op]
    constructor
    · intro h t ht
      exact ⟨(h t ht).1, (ih _).mp (h t ht).2⟩
    · intro h t ht
      exact ⟨(h t ht).1, (ih _).mpr (h t ht).2⟩

theorem wp_of_issues (hR : M.Rely R) {K : σ → Prop} {P : Op → Prop}
    (hK : ∀ s t, R s t → K s → K t) (hG : ∀ s o, K s → P o → G s o)
    (hp : p.Issues P) (s : σ) (hs : K s) : M.Wp R G (fun _ => K) p s := by
  induction p generalizing s with
  | ret a => exact hs
  | op o next ih =>
    intro t ht
    have hKt : K t := hK s t ht hs
    exact ⟨hG t o hKt hp.1, ih _ (hp.2 _) _ (hK _ _ (hR.exec t o) hKt)⟩

theorem Wp.weaken {Q' : α → σ → Prop} (hQ : ∀ a s, Q a s → Q' a s)
    (h : M.Wp R G Q p s) : M.Wp R G Q' p s := by
  induction p generalizing s with
  | ret a => exact hQ a s h
  | op o next ih => exact fun t ht => ⟨(h t ht).1, ih _ (h t ht).2⟩

theorem Wp.mono (hR : M.Rely R) (hQ : ∀ a s t, R s t → Q a s → Q a t) {t : σ} (h : M.Wp R G Q p s)
    (hst : R s t) : M.Wp R G Q p t := by
  cases p with
  | ret a => exact hQ a s t hst h
  | op o next => exact fun u hu => h u (hR.trans hst hu)

end Machine

/-- The store and the requests in flight. -/
structure World (σ Op : Type) (Ans : Op → Type) (α : Type) where
  store : σ
  running : List (Prog Op Ans α)

/-- An operation that was executed, with the store it found. -/
structure Moment (σ Op : Type) where
  before : σ
  op : Op

namespace Machine
variable {σ Op : Type} {Ans : Op → Type} {α : Type}

def left (M : Machine σ Op Ans) (m : Moment σ Op) : σ := M.after m.before m.op

/-- One step that executes no operation. -/
inductive Silent (M : Machine σ Op Ans) (Admits : Prog Op Ans α → Prop) :
    World σ Op Ans α → World σ Op Ans α → Prop where
  | env {s t : σ} {ps : List (Prog Op Ans α)} : M.env s t → Silent M Admits ⟨s, ps⟩ ⟨t, ps⟩
  | arrive {s : σ} {ps : List (Prog Op Ans α)} {p : Prog Op Ans α} :
      Admits p → Silent M Admits ⟨s, ps⟩ ⟨s, p :: ps⟩
  /-- A request has returned, or is abandoned. -/
  | leave {s : σ} {ps qs : List (Prog Op Ans α)} {p : Prog Op Ans α} :
      Silent M Admits ⟨s, ps ++ p :: qs⟩ ⟨s, ps ++ qs⟩

/-- A run, with the operations it executed in order. -/
inductive Run (M : Machine σ Op Ans) (Admits : Prog Op Ans α → Prop) (w : World σ Op Ans α) :
    List (Moment σ Op) → World σ Op Ans α → Prop where
  | refl : Run M Admits w [] w
  | silent {τ : List (Moment σ Op)} {u v : World σ Op Ans α} :
      Run M Admits w τ u → M.Silent Admits u v → Run M Admits w τ v
  | exec {τ : List (Moment σ Op)} {s : σ} {ps qs : List (Prog Op Ans α)} {o : Op}
      {next : Ans o → Prog Op Ans α} :
      Run M Admits w τ ⟨s, ps ++ .op o next :: qs⟩ →
      Run M Admits w (τ ++ [⟨s, o⟩]) ⟨M.after s o, ps ++ next (M.exec o s).1 :: qs⟩

variable {M : Machine σ Op Ans} {Admits : Prog Op Ans α → Prop}

variable {u v : World σ Op Ans α} {τ : List (Moment σ Op)} {s : σ}

theorem Run.trans {w : World σ Op Ans α} {υ : List (Moment σ Op)}
    (h : M.Run Admits u τ v) (h' : M.Run Admits v υ w) : M.Run Admits u (τ ++ υ) w := by
  induction h' with
  | refl => rwa [append_nil]
  | silent _ hs ih => exact ih.silent hs
  | exec _ ih =>
    rw [← append_assoc]
    exact ih.exec

/-- What a request returns, and the store it leaves. -/
def result (M : Machine σ Op Ans) : Prog Op Ans α → σ → α × σ
  | .ret a, s => (a, s)
  | .op o next, s => result M (next (M.exec o s).1) (M.after s o)

/-- The operations that a request executes. -/
def moments (M : Machine σ Op Ans) : Prog Op Ans α → σ → List (Moment σ Op)
  | .ret _, _ => []
  | .op o next, s => ⟨s, o⟩ :: moments M (next (M.exec o s).1) (M.after s o)

@[simp] theorem result_ret (a : α) (s : σ) : M.result (.ret a) s = (a, s) := rfl

@[simp] theorem result_op (o : Op) (next : Ans o → Prog Op Ans α) (s : σ) :
    M.result (.op o next) s = M.result (next (M.exec o s).1) (M.after s o) := rfl

theorem result_bind {β : Type} (p : Prog Op Ans β) (f : β → Prog Op Ans α) (s : σ) :
    M.result (p >>= f) s = M.result (f (M.result p s).1) (M.result p s).2 := by
  induction p generalizing s with
  | ret b => rfl
  | op o next ih => exact ih _ _

theorem result_keeps {K : σ → σ → Prop} (hrefl : ∀ s, K s s)
    (htrans : ∀ {s t u}, K s t → K t u → K s u) (hexec : ∀ s o, K s (M.after s o))
    (p : Prog Op Ans α) (s : σ) : K s (M.result p s).2 := by
  induction p generalizing s with
  | ret a => exact hrefl s
  | op o next ih => exact htrans (hexec s o) (ih _ _)

theorem Run.serve {w : World σ Op Ans α}
    (h : M.Run Admits w τ ⟨s, []⟩) {p : Prog Op Ans α} (hp : Admits p) :
    M.Run Admits w (τ ++ M.moments p s) ⟨(M.result p s).2, []⟩ := by
  have key : ∀ (q : Prog Op Ans α) (s : σ) (τ : List (Moment σ Op)),
      M.Run Admits w τ ⟨s, [q]⟩ → M.Run Admits w (τ ++ M.moments q s) ⟨(M.result q s).2, []⟩ := by
    intro q
    induction q with
    | ret a =>
      intro s τ h
      have hleave : M.Silent Admits ⟨s, [] ++ .ret a :: []⟩ ⟨s, [] ++ []⟩ := .leave
      rw [moments, append_nil]
      exact h.silent hleave
    | op o next ih =>
      intro s τ h
      have hop : M.Run Admits w τ ⟨s, [] ++ .op o next :: []⟩ := h
      have hnext := ih _ _ _ hop.exec
      rwa [append_assoc, singleton_append] at hnext
  exact key p s τ (h.silent (.arrive hp))

variable {R : σ → σ → Prop} {G : σ → Op → Prop}

/-- Every request in flight meets the guards from here on. -/
def Guarded (M : Machine σ Op Ans) (R : σ → σ → Prop) (G : σ → Op → Prop)
    (w : World σ Op Ans α) : Prop :=
  ∀ p ∈ w.running, M.Wp R G (fun _ _ => True) p w.store

theorem Guarded.change (hR : M.Rely R) {t : σ} {ps : List (Prog Op Ans α)}
    (h : M.Guarded R G ⟨s, ps⟩) (hst : R s t) : M.Guarded R G ⟨t, ps⟩ :=
  fun p hp => (h p hp).mono hR (fun _ _ _ _ => id) hst

theorem Guarded.silent (hR : M.Rely R)
    (hA : ∀ p s, Admits p → M.Wp R G (fun _ _ => True) p s) (h : M.Guarded R G u)
    (hs : M.Silent Admits u v) :
    M.Guarded R G v := by
  cases hs with
  | env henv => exact h.change hR (hR.env henv)
  | arrive hp =>
    intro q hq
    rcases mem_cons.mp hq with rfl | hq
    · exact hA _ _ hp
    · exact h q hq
  | leave =>
    intro q hq
    apply h q
    rw [mem_append] at hq
    rw [mem_append, mem_cons]
    tauto

theorem Guarded.exec (hR : M.Rely R) {ps qs : List (Prog Op Ans α)} {o : Op}
    {next : Ans o → Prog Op Ans α} (h : M.Guarded R G ⟨s, ps ++ .op o next :: qs⟩) :
    G s o ∧ M.Guarded R G ⟨M.after s o, ps ++ next (M.exec o s).1 :: qs⟩ := by
  have hop : G s o ∧ M.Wp R G (fun _ _ => True) (next (M.exec o s).1) (M.after s o) :=
    h _ (mem_append_right _ mem_cons_self) s (hR.refl s)
  refine ⟨hop.1, fun q hq => ?_⟩
  have hrest : q ∈ ps ++ .op o next :: qs → M.Wp R G (fun _ _ => True) q (M.after s o) :=
    fun hm => (h q hm).mono hR (fun _ _ _ _ => id) (hR.exec s o)
  rcases mem_append.mp hq with hq | hq
  · exact hrest (mem_append_left _ hq)
  · rcases mem_cons.mp hq with rfl | hq
    · exact hop.2
    · exact hrest (mem_append_right _ (mem_cons_of_mem _ hq))

/-- Whatever the environment and every guarded operation preserve, of the store and of the
operations executed so far, holds after a run. -/
theorem Run.induct (hR : M.Rely R) (hA : ∀ p s, Admits p → M.Wp R G (fun _ _ => True) p s)
    {H : List (Moment σ Op) → σ → Prop}
    (henv : ∀ τ s t, M.env s t → H τ s → H τ t)
    (hexec : ∀ τ s o, G s o → H τ s → H (τ ++ [⟨s, o⟩]) (M.after s o)) (hrun : M.Run Admits u τ v)
    (hu : M.Guarded R G u) (h : H [] u.store) : M.Guarded R G v ∧ H τ v.store := by
  induction hrun with
  | refl => exact ⟨hu, h⟩
  | silent _ hs ih =>
    refine ⟨ih.1.silent hR hA hs, ?_⟩
    cases hs with
    | env he => exact henv _ _ _ he ih.2
    | arrive _ => exact ih.2
    | leave => exact ih.2
  | exec _ ih =>
    have hg := ih.1.exec hR
    exact ⟨hg.2, hexec _ _ _ hg.1 ih.2⟩

end Machine

end Interleaving
