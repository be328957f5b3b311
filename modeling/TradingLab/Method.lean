import Mathlib.Data.List.Perm.Basic

/-!
# Methods of a mutable object

A method reads and changes the object's fields and may raise. Fields changed
before the raise stay changed, so a method that must be atomic has to restore
them itself; `onError` is the handler that restores and raises again. Checks
that do not touch an object live in `Except`.

A run is a list of calls. Whatever one call preserves, a run preserves.
-/

/-- Check a condition under which the source raises. -/
def raiseIf {ε : Type} (bad : Prop) [Decidable bad] (e : ε) : Except ε Unit :=
  if bad then .error e else .ok ()

variable {bad : Prop}

@[simp] theorem raiseIf_eq_ok {ε : Type} [Decidable bad] {e : ε} {u : Unit} :
    raiseIf bad e = .ok u ↔ ¬ bad := by
  unfold raiseIf
  split <;> simp_all

@[simp] theorem raiseIf_eq_error {ε : Type} [Decidable bad] {e e' : ε} :
    raiseIf bad e = .error e' ↔ bad ∧ e = e' := by
  unfold raiseIf
  split <;> simp_all

@[simp] theorem raiseIf_neg {ε : Type} [Decidable bad] {e : ε} (h : ¬ bad) :
    raiseIf bad e = .ok () := if_neg h

theorem raiseIf_pos {ε : Type} [Decidable bad] {e : ε} (h : bad) :
    raiseIf bad e = .error e := if_pos h

@[simp] theorem ok_bind {ε α β : Type} (a : α) (f : α → Except ε β) :
    ((Except.ok a : Except ε α) >>= f) = f a := rfl

theorem bind_eq_ok {ε α β : Type} {x : Except ε α} {f : α → Except ε β} {b : β} :
    (x >>= f) = .ok b ↔ ∃ a, x = .ok a ∧ f a = .ok b := by
  cases x with
  | ok a => simp [bind, Except.bind]
  | error e => simp [bind, Except.bind]

theorem bind_eq_error {ε α β : Type} {x : Except ε α} {f : α → Except ε β} {e : ε} :
    (x >>= f) = .error e ↔ x = .error e ∨ ∃ a, x = .ok a ∧ f a = .error e := by
  cases x with
  | ok a => simp [bind, Except.bind]
  | error e => simp [bind, Except.bind]

theorem unit_bind_eq_ok {ε β : Type} {x : Except ε Unit} {f : Unit → Except ε β} {b : β} :
    (x >>= f) = .ok b ↔ x = .ok () ∧ f () = .ok b := by
  rw [bind_eq_ok]
  constructor
  · rintro ⟨u, hx, hf⟩
    exact ⟨hx, hf⟩
  · rintro ⟨hx, hf⟩
    exact ⟨(), hx, hf⟩

@[simp] theorem raiseIf_bind_eq_ok {ε β : Type} [Decidable bad] {e : ε}
    {f : Unit → Except ε β} {b : β} :
    (raiseIf bad e >>= f) = .ok b ↔ ¬ bad ∧ f () = .ok b := by
  rw [bind_eq_ok]
  constructor
  · rintro ⟨u, hu, hf⟩
    exact ⟨raiseIf_eq_ok.mp hu, hf⟩
  · rintro ⟨hb, hf⟩
    exact ⟨(), raiseIf_eq_ok.mpr hb, hf⟩

/-- Build a value from its constructor's own check. -/
def construct {ε α : Type} (x : Except ε Unit) (mk : x = .ok () → α) : Except ε α :=
  match x, mk with
  | .ok (), mk => .ok (mk rfl)
  | .error e, _ => .error e

theorem construct_eq_ok {ε α : Type} {x : Except ε Unit} {mk : x = .ok () → α} {a : α} :
    construct x mk = .ok a ↔ ∃ h, mk h = a := by
  cases x with
  | ok u => simp [construct]
  | error e => simp [construct]

theorem construct_eq_error {ε α : Type} {x : Except ε Unit} {mk : x = .ok () → α} {e : ε} :
    construct x mk = .error e ↔ x = .error e := by
  cases x with
  | ok u => simp [construct]
  | error e => simp [construct]

theorem construct_of_ok {ε α : Type} {x : Except ε Unit} {mk : x = .ok () → α} (h : x = .ok ()) :
    construct x mk = .ok (mk h) := construct_eq_ok.mpr ⟨h, rfl⟩

theorem exists_of_isOk {ε α : Type} {x : Except ε α} (h : x.isOk = true) : ∃ a, x = .ok a := by
  cases x with
  | ok a => exact ⟨a, rfl⟩
  | error e => cases h

theorem mapError_eq_ok {ε δ α : Type} {x : Except ε α} {f : ε → δ} {a : α} :
    x.mapError f = .ok a ↔ x = .ok a := by
  cases x with
  | ok b => simp [Except.mapError]
  | error e => simp [Except.mapError]

theorem mapM_eq_ok {ε α β : Type} {f : α → Except ε β} {xs : List α} {ys : List β} :
    xs.mapM f = .ok ys ↔ List.Forall₂ (fun x y => f x = .ok y) xs ys := by
  induction xs generalizing ys with
  | nil =>
    rw [List.mapM_nil, List.forall₂_nil_left_iff]
    constructor
    · intro h
      cases h
      rfl
    · intro h
      rw [h]
      rfl
  | cons x xs ih =>
    rw [List.mapM_cons, List.forall₂_cons_left_iff, bind_eq_ok]
    apply exists_congr
    intro y
    rw [bind_eq_ok]
    constructor
    · intro h
      obtain ⟨hy, rest, hrest, hys⟩ := h
      cases hys
      exact ⟨rest, hy, ih.mp hrest, rfl⟩
    · intro h
      obtain ⟨rest, hy, hrest, rfl⟩ := h
      exact ⟨hy, rest, ih.mpr hrest, rfl⟩

theorem mem_of_mapM {ε α β : Type} {f : α → Except ε β} {xs : List α} {ys : List β} {y : β}
    (h : xs.mapM f = .ok ys) (hy : y ∈ ys) : ∃ x ∈ xs, f x = .ok y := by
  have hforall := mapM_eq_ok.mp h
  clear h
  induction hforall with
  | nil => cases hy
  | cons hxy _ ih =>
    rcases List.mem_cons.mp hy with rfl | hy
    · exact ⟨_, List.mem_cons_self, hxy⟩
    · obtain ⟨x, hx, hfx⟩ := ih hy
      exact ⟨x, List.mem_cons_of_mem _ hx, hfx⟩

theorem mapM_eq_map {ε α β : Type} {f : α → Except ε β} {g : α → β} {xs : List α}
    (h : ∀ x ∈ xs, f x = .ok (g x)) : xs.mapM f = .ok (xs.map g) := by
  rw [mapM_eq_ok, List.forall₂_map_right_iff]
  exact List.forall₂_same.mpr h

theorem mapM_eq_ok_iff_map {ε α β : Type} {f : α → Except ε β} {g : α → β} {xs : List α}
    {ys : List β} (hg : ∀ x y, f x = .ok y → y = g x) :
    xs.mapM f = .ok ys ↔ (∀ x ∈ xs, f x = .ok (g x)) ∧ ys = xs.map g := by
  constructor
  · intro h
    have hforall := mapM_eq_ok.mp h
    clear h
    induction hforall with
    | nil => simp
    | cons hxy _ ih =>
      rw [List.forall_mem_cons, List.map_cons, ← ih.2, ← hg _ _ hxy]
      exact ⟨⟨hxy, ih.1⟩, rfl⟩
  · rintro ⟨h, rfl⟩
    exact mapM_eq_map h

/-- The first item that raises ends the list. -/
theorem mapM_eq_error {ε α β : Type} {f : α → Except ε β} {xs : List α} {e : ε} :
    xs.mapM f = .error e ↔ ∃ initial x rest, xs = initial ++ x :: rest ∧
      (∃ ys, initial.mapM f = .ok ys) ∧ f x = .error e := by
  induction xs with
  | nil => simp [pure, Except.pure]
  | cons x xs ih =>
    rw [List.mapM_cons, bind_eq_error]
    constructor
    · rintro (hx | ⟨y, hy, h⟩)
      · exact ⟨[], x, xs, rfl, ⟨[], rfl⟩, hx⟩
      · rw [bind_eq_error] at h
        rcases h with h | ⟨ys, -, h⟩
        · obtain ⟨initial, z, rest, rfl, ⟨ys, hys⟩, hz⟩ := ih.mp h
          refine ⟨x :: initial, z, rest, rfl, ⟨y :: ys, ?_⟩, hz⟩
          rw [List.mapM_cons, hy, ok_bind, hys]
          rfl
        · cases h
    · rintro ⟨initial, z, rest, hxs, ⟨ys, hys⟩, hz⟩
      cases initial with
      | nil =>
        cases hxs
        exact .inl hz
      | cons w initial =>
        cases hxs
        rw [List.mapM_cons] at hys
        obtain ⟨y, hy, hys⟩ := bind_eq_ok.mp hys
        obtain ⟨ys', hys', -⟩ := bind_eq_ok.mp hys
        refine .inr ⟨y, hy, ?_⟩
        rw [ih.mpr ⟨initial, z, rest, rfl, ⟨ys', hys'⟩, hz⟩]
        rfl

theorem mapM_perm {ε α β : Type} {f : α → Except ε β} {xs xs' : List α} {ys : List β}
    (hperm : xs'.Perm xs) (h : xs.mapM f = .ok ys) : ∃ ys', xs'.mapM f = .ok ys' ∧ ys'.Perm ys := by
  obtain ⟨ys', hys', hperm'⟩ := List.perm_comp_forall₂ hperm (mapM_eq_ok.mp h)
  exact ⟨ys', mapM_eq_ok.mpr hys', hperm'⟩

theorem mapM_eq_some {α β : Type} {f : α → Option β} {xs : List α} {ys : List β} :
    xs.mapM f = some ys ↔ List.Forall₂ (fun x y => f x = some y) xs ys := by
  induction xs generalizing ys with
  | nil =>
    rw [List.mapM_nil, List.forall₂_nil_left_iff]
    constructor
    · intro h
      cases h
      rfl
    · intro h
      rw [h]
      rfl
  | cons x xs ih =>
    rw [List.mapM_cons, List.forall₂_cons_left_iff, Option.bind_eq_bind, Option.bind_eq_some_iff]
    apply exists_congr
    intro y
    rw [Option.bind_eq_bind, Option.bind_eq_some_iff]
    constructor
    · intro h
      obtain ⟨hy, rest, hrest, hys⟩ := h
      cases hys
      exact ⟨rest, hy, ih.mp hrest, rfl⟩
    · intro h
      obtain ⟨rest, hy, hrest, rfl⟩ := h
      exact ⟨hy, rest, ih.mpr hrest, rfl⟩

theorem mapM_eq_some_map {α β : Type} {f : α → Option β} {g : α → β} {xs : List α}
    (h : ∀ x ∈ xs, f x = some (g x)) : xs.mapM f = some (xs.map g) := by
  rw [mapM_eq_some, List.forall₂_map_right_iff]
  exact List.forall₂_same.mpr h

/-- A method of an object with fields `σ`, raising `ε` and returning `α`. -/
def Method (σ ε α : Type) : Type := σ → Except ε α × σ

namespace Method
variable {σ ε α β : Type}

def call (m : Method σ ε α) (s : σ) : Except ε α × σ := m s

instance : Monad (Method σ ε) where
  pure a := fun s => (.ok a, s)
  bind m f := fun s =>
    match m s with
    | (.ok a, s') => f a s'
    | (.error e, s') => (.error e, s')

def read (f : σ → α) : Method σ ε α := fun s => (.ok (f s), s)

def modify (f : σ → σ) : Method σ ε Unit := fun s => (.ok (), f s)

def check (x : Except ε α) : Method σ ε α := fun s => (x, s)

/-- Run the handler when the body raises, and raise again. -/
def onError (m : Method σ ε α) (handler : Method σ ε Unit) : Method σ ε α := fun s =>
  match m s with
  | (.ok a, s') => (.ok a, s')
  | (.error e, s') => (.error e, (handler s').2)

/-- Run the handler when the body raises an error the handler catches, and raise again. -/
def onErrorOf (caught : ε → Prop) [DecidablePred caught] (m : Method σ ε α)
    (handler : Method σ ε Unit) : Method σ ε α := fun s =>
  match m s with
  | (.ok a, s') => (.ok a, s')
  | (.error e, s') => (.error e, if caught e then (handler s').2 else s')

/-- Run a body as one transaction: when it raises, nothing it changed stays. -/
def atomic (m : Method σ ε α) : Method σ ε α := fun s =>
  match m s with
  | (.ok a, s') => (.ok a, s')
  | (.error e, _) => (.error e, s)

/-- Call a method of a part of the object. -/
def zoom {τ δ : Type} (get : σ → τ) (set : τ → σ → σ) (err : δ → ε) (m : Method τ δ α) :
    Method σ ε α := fun s =>
  match m (get s) with
  | (.ok a, t) => (.ok a, set t s)
  | (.error e, t) => (.error (err e), set t s)

/-- The caller replaces the object by the one a transition returns. -/
def replaceBy (next : σ → Except ε σ) : Method σ ε Unit := fun s =>
  match next s with
  | .ok s' => (.ok (), s')
  | .error e => (.error e, s)

/-- The object after a call. -/
def after (m : Method σ ε α) (s : σ) : σ := (m.call s).2

def Returns (m : Method σ ε α) (s : σ) : Prop := ∃ a, (m.call s).1 = .ok a

instance (m : Method σ ε α) (s : σ) : Decidable (m.Returns s) :=
  match h : (m.call s).1 with
  | .ok a => .isTrue ⟨a, h⟩
  | .error _ => .isFalse (by rintro ⟨a, ha⟩; rw [h] at ha; cases ha)

@[simp] theorem call_pure (a : α) (s : σ) :
    (pure a : Method σ ε α).call s = (.ok a, s) := rfl

@[simp] theorem call_read (f : σ → α) (s : σ) :
    (read f : Method σ ε α).call s = (.ok (f s), s) := rfl

@[simp] theorem call_modify (f : σ → σ) (s : σ) :
    (modify f : Method σ ε Unit).call s = (.ok (), f s) := rfl

@[simp] theorem call_check (x : Except ε α) (s : σ) : (check x).call s = (x, s) := rfl

theorem call_bind (m : Method σ ε α) (f : α → Method σ ε β) (s : σ) :
    (m >>= f).call s = match m.call s with
      | (.ok a, s') => (f a).call s'
      | (.error e, s') => (.error e, s') := rfl

@[simp] theorem call_read_bind (g : σ → α) (f : α → Method σ ε β) (s : σ) :
    (read g >>= f).call s = (f (g s)).call s := rfl

@[simp] theorem call_modify_bind (g : σ → σ) (f : Unit → Method σ ε β) (s : σ) :
    (modify g >>= f).call s = (f ()).call (g s) := rfl

theorem call_bind_eq_ok {m : Method σ ε α} {f : α → Method σ ε β} {s s' : σ} {b : β} :
    (m >>= f).call s = (.ok b, s') ↔
      ∃ a t, m.call s = (.ok a, t) ∧ (f a).call t = (.ok b, s') := by
  rw [call_bind]
  rcases h : m.call s with ⟨r, t⟩
  cases r with
  | ok a => simp
  | error e => simp

theorem call_bind_eq_error {m : Method σ ε α} {f : α → Method σ ε β} {s s' : σ} {e : ε} :
    (m >>= f).call s = (.error e, s') ↔ m.call s = (.error e, s') ∨
      ∃ a t, m.call s = (.ok a, t) ∧ (f a).call t = (.error e, s') := by
  rw [call_bind]
  rcases h : m.call s with ⟨r, t⟩
  cases r with
  | ok a => simp
  | error e => simp

@[simp] theorem call_check_bind_eq_ok {x : Except ε α} {f : α → Method σ ε β} {s s' : σ} {b : β} :
    (check x >>= f).call s = (.ok b, s') ↔ ∃ a, x = .ok a ∧ (f a).call s = (.ok b, s') := by
  rw [call_bind_eq_ok]
  constructor
  · rintro ⟨a, t, ht, hf⟩
    cases ht
    exact ⟨a, rfl, hf⟩
  · rintro ⟨a, rfl, hf⟩
    exact ⟨a, s, rfl, hf⟩

theorem call_check_bind_eq_error {x : Except ε α} {f : α → Method σ ε β} {s s' : σ} {e : ε} :
    (check x >>= f).call s = (.error e, s') ↔
      (x = .error e ∧ s' = s) ∨ ∃ a, x = .ok a ∧ (f a).call s = (.error e, s') := by
  rw [call_bind]
  cases x with
  | ok a => simp
  | error e => simp [eq_comm]

@[simp] theorem call_modify_eq_ok {f : σ → σ} {s s' : σ} {u : Unit} :
    (modify f : Method σ ε Unit).call s = (.ok u, s') ↔ s' = f s := by
  rw [call_modify, Prod.mk.injEq]
  exact ⟨fun h => h.2.symm, fun h => ⟨rfl, h.symm⟩⟩

theorem call_onError (m : Method σ ε α) (handler : Method σ ε Unit) (s : σ) :
    (m.onError handler).call s = match m.call s with
      | (.ok a, s') => (.ok a, s')
      | (.error e, s') => (.error e, handler.after s') := rfl

theorem call_onError_eq_ok {m : Method σ ε α} {handler : Method σ ε Unit} {s s' : σ} {a : α} :
    (m.onError handler).call s = (.ok a, s') ↔ m.call s = (.ok a, s') := by
  rw [call_onError]
  rcases m.call s with ⟨r, t⟩
  cases r with
  | ok a => simp
  | error e => simp

section OnErrorOf
variable {caught : ε → Prop} [DecidablePred caught] {m : Method σ ε α} {handler : Method σ ε Unit}
  {s s' : σ} {a : α} {e : ε}

theorem call_onErrorOf_of_ok (h : m.call s = (.ok a, s')) :
    (m.onErrorOf caught handler).call s = (.ok a, s') := by
  unfold call at h
  unfold call onErrorOf
  rw [h]

theorem call_onErrorOf_of_error (h : m.call s = (.error e, s')) :
    (m.onErrorOf caught handler).call s =
      (.error e, if caught e then handler.after s' else s') := by
  unfold call at h
  unfold after call onErrorOf
  rw [h]

end OnErrorOf

theorem call_atomic (m : Method σ ε α) (s : σ) : m.atomic.call s = match m.call s with
    | (.ok a, s') => (.ok a, s')
    | (.error e, _) => (.error e, s) := rfl

@[simp] theorem call_atomic_eq_ok {m : Method σ ε α} {s s' : σ} {a : α} :
    m.atomic.call s = (.ok a, s') ↔ m.call s = (.ok a, s') := by
  rw [call_atomic]
  rcases m.call s with ⟨r, t⟩
  cases r with
  | ok a => simp
  | error e => simp

theorem call_atomic_eq_error {m : Method σ ε α} {s s' : σ} {e : ε}
    (h : m.atomic.call s = (.error e, s')) : s' = s := by
  rw [call_atomic] at h
  rcases hm : m.call s with ⟨r, t⟩
  rw [hm] at h
  cases r with
  | ok a => cases h
  | error e =>
    cases h
    rfl

theorem after_onError_of_error {m : Method σ ε α} {r : Method σ ε Unit} {s : σ}
    (hr : ∀ e t, m.call s = (.error e, t) → r.after t = s)
    (h : ¬ (m.onError r).Returns s) : (m.onError r).after s = s := by
  unfold Returns at h
  unfold after
  rw [call_onError] at h ⊢
  rcases hm : m.call s with ⟨x, t⟩
  rw [hm] at h
  cases x with
  | ok a => exact (h ⟨a, rfl⟩).elim
  | error e => exact hr e t hm

theorem call_zoom {τ δ : Type} (get : σ → τ) (set : τ → σ → σ) (err : δ → ε) (m : Method τ δ α)
    (s : σ) : (zoom get set err m).call s = match m.call (get s) with
      | (.ok a, t) => (.ok a, set t s)
      | (.error e, t) => (.error (err e), set t s) := rfl

variable {next : σ → Except ε σ}

theorem call_replaceBy {s s' : σ} (h : next s = .ok s') :
    (replaceBy next).call s = (.ok (), s') := by
  unfold call replaceBy
  rw [h]

theorem after_replaceBy (next : σ → Except ε σ) (s : σ) :
    ((replaceBy next).Returns s ∧ next s = .ok ((replaceBy next).after s)) ∨
      (¬ (replaceBy next).Returns s ∧ (replaceBy next).after s = s) := by
  unfold Returns after call replaceBy
  cases next s with
  | ok s' => exact .inl ⟨⟨(), rfl⟩, rfl⟩
  | error e =>
    refine .inr ⟨?_, rfl⟩
    rintro ⟨u, hu⟩
    cases hu

theorem after_replaceBy_of_rejected {s : σ}
    (h : ¬ (replaceBy next).Returns s) : (replaceBy next).after s = s := by
  rcases after_replaceBy next s with ⟨hr, -⟩ | ⟨-, ha⟩
  · exact (h hr).elim
  · exact ha

theorem after_replaceBy_of_returns {s : σ}
    (h : (replaceBy next).Returns s) : next s = .ok ((replaceBy next).after s) := by
  rcases after_replaceBy next s with ⟨-, hn⟩ | ⟨hr, -⟩
  · exact hn
  · exact (hr h).elim

section Frame
variable {τ : Type} {f : σ → τ}

def Keeps (f : σ → τ) (m : Method σ ε α) : Prop := ∀ s, f (m.after s) = f s

theorem keeps_pure (a : α) : Keeps f (pure a : Method σ ε α) := fun _ => rfl

theorem keeps_read (g : σ → α) : Keeps f (read g : Method σ ε α) := fun _ => rfl

theorem keeps_check (x : Except ε α) : Keeps f (check x : Method σ ε α) := fun _ => rfl

theorem keeps_modify {g : σ → σ} (h : ∀ s, f (g s) = f s := by intro; rfl) :
    Keeps f (modify g : Method σ ε Unit) := h

theorem Keeps.bind {m : Method σ ε α} {k : α → Method σ ε β} (hm : Keeps f m)
    (hk : ∀ a, Keeps f (k a)) : Keeps f (m >>= k) := by
  intro s
  have hs := hm s
  unfold after at hs ⊢
  rw [call_bind]
  rcases h : m.call s with ⟨r, t⟩
  rw [h] at hs
  cases r with
  | ok a => exact (hk a t).trans hs
  | error e => exact hs

theorem Keeps.ite {c : Prop} [Decidable c] {m n : Method σ ε α} (hm : Keeps f m) (hn : Keeps f n) :
    Keeps f (if c then m else n) := by
  split
  · exact hm
  · exact hn

theorem Keeps.call_eq {m : Method σ ε α} (h : Keeps f m) {s t : σ} {r : Except ε α}
    (hc : m.call s = (r, t)) : f t = f s := by
  have := h s
  unfold after at this
  rwa [hc] at this

end Frame

section Run
variable {κ : Type} (method : κ → Method σ ε Unit)

/-- The object after a list of calls; a call that raises is followed by the next one. -/
def run (calls : List κ) (s : σ) : σ := calls.foldl (fun s c => (method c).after s) s

/-- The calls of a run that returned, in order. -/
def accepted : List κ → σ → List κ
  | [], _ => []
  | c :: calls, s =>
      let rest := accepted calls ((method c).after s)
      if (method c).Returns s then c :: rest else rest

variable {method}

@[simp] theorem run_nil (s : σ) : run method [] s = s := rfl

@[simp] theorem run_cons (c : κ) (calls : List κ) (s : σ) :
    run method (c :: calls) s = run method calls ((method c).after s) := rfl

theorem run_append (xs ys : List κ) (s : σ) :
    run method (xs ++ ys) s = run method ys (run method xs s) := List.foldl_append

theorem accepted_append (xs ys : List κ) (s : σ) :
    accepted method (xs ++ ys) s = accepted method xs s ++ accepted method ys (run method xs s) := by
  induction xs generalizing s with
  | nil => rfl
  | cons c xs ih =>
    simp only [List.cons_append, accepted, ih, run_cons]
    split <;> rfl

theorem run_invariant {I : σ → Prop} {s : σ} (h0 : I s)
    (hstep : ∀ c t, I t → I ((method c).after t)) (calls : List κ) :
    I (run method calls s) := by
  induction calls generalizing s with
  | nil => exact h0
  | cons c calls ih => exact ih (hstep c s h0)

/-- The rule for an invariant that speaks of the accepted calls: a rejected call must
leave it as it is, and an accepted one may extend it. -/
theorem run_accepted {I : List κ → σ → Prop} {s : σ} (h0 : I [] s)
    (hrej : ∀ cs c t, I cs t → ¬ (method c).Returns t → I cs ((method c).after t))
    (hacc : ∀ cs c t, I cs t → (method c).Returns t → I (cs ++ [c]) ((method c).after t))
    (calls : List κ) : I (accepted method calls s) (run method calls s) := by
  suffices h : ∀ cs t, I cs t → I (cs ++ accepted method calls t) (run method calls t) from
    h [] s h0
  induction calls with
  | nil => intro cs t ht; simpa [accepted] using ht
  | cons c calls ih =>
    intro cs t ht
    rw [run_cons, accepted]
    split
    · rename_i hc
      have := ih (cs ++ [c]) _ (hacc cs c t ht hc)
      simpa using this
    · rename_i hc
      exact ih cs _ (hrej cs c t ht hc)

end Run

end Method
