import Mathlib

/-!
# Programs of atomic sections

A thread that shares its state with other threads is a tree of atomic sections:
between two sections any other thread may run.  The rules below are those of
rely and guarantee: `Safe C Q E p s` says that `p`, started in `s`, only makes
guaranteed moves, whatever the environment does within the rely, and that it
returns in a state satisfying `Q` or throws in one satisfying `E`.
-/

namespace AsComponents

/-- The code of a thread.  `act l f k` runs the section `f`, named `l`, on the
shared state with the reply of the environment; `none` means that the section
is blocked in this state. -/
inductive Program (Λ ι σ ε : Type) (α : Type) : Type 1
  | ret (a : α)
  | throw (e : ε)
  | act {β : Type} (l : Λ) (f : ι → σ → Option (β × σ)) (k : β → Program Λ ι σ ε α)

namespace Program

variable {Λ ι σ ε α β γ : Type}

def bind : Program Λ ι σ ε α → (α → Program Λ ι σ ε β) → Program Λ ι σ ε β
  | ret a, g => g a
  | throw e, _ => throw e
  | act l f k, g => act l f fun b => bind (k b) g

instance : Monad (Program Λ ι σ ε) where
  pure := ret
  bind := bind

def tryCatch : Program Λ ι σ ε α → (ε → Program Λ ι σ ε α) → Program Λ ι σ ε α
  | ret a, _ => ret a
  | throw e, h => h e
  | act l f k, h => act l f fun b => tryCatch (k b) h

def ofExcept : Except ε α → Program Λ ι σ ε α
  | .ok a => ret a
  | .error e => throw e

/-- One section whose body may throw. -/
def atomic (l : Λ) (f : ι → σ → Option (Except ε α × σ)) : Program Λ ι σ ε α :=
  act l f ofExcept

/-- A thread that waits for ever. -/
def blocked (l : Λ) : Program Λ ι σ ε α :=
  atomic l fun _ _ => none

/-- The name of the section that is to run next. -/
def next : Program Λ ι σ ε α → Option Λ
  | act l _ _ => some l
  | _ => none

def step : Program Λ ι σ ε α → ι → σ → Option (Program Λ ι σ ε α × σ)
  | act _ f k, i, s => (f i s).map fun r => (k r.1, r.2)
  | _, _, _ => none

@[simp] theorem pure_eq (a : α) : (pure a : Program Λ ι σ ε α) = ret a := rfl

@[simp] theorem bind_eq (p : Program Λ ι σ ε α) (g : α → Program Λ ι σ ε β) :
    p >>= g = bind p g := rfl

/-! ## Rely and guarantee -/

/-- What the environment may do between two sections, what a run promises when
a section is entered, and what the program promises then and of the section. -/
structure Contract (Λ σ : Type) where
  rely : σ → σ → Prop
  given : Λ → σ → Prop
  promised : Λ → σ → Prop
  guarantee : σ → σ → Prop
  rely_trans : ∀ {s t u}, rely s t → rely t u → rely s u

def Safe (C : Contract Λ σ) (Q : α → σ → Prop) (E : ε → σ → Prop) :
    Program Λ ι σ ε α → σ → Prop
  | ret a, s => Q a s
  | throw e, s => E e s
  | act l f k, s => ∀ t, C.rely s t → C.given l t → C.promised l t ∧
      ∀ i b u, f i t = some (b, u) → C.guarantee t u ∧ Safe C Q E (k b) u

section Rules

variable {C : Contract Λ σ} {Q : α → σ → Prop} {E : ε → σ → Prop}

theorem safe_mono {Q' : α → σ → Prop} {E' : ε → σ → Prop}
    (hQ : ∀ a s, Q a s → Q' a s) (hE : ∀ e s, E e s → E' e s)
    {p : Program Λ ι σ ε α} {s : σ} (h : Safe C Q E p s) : Safe C Q' E' p s := by
  induction p generalizing s with
  | ret a => exact hQ a s h
  | throw e => exact hE e s h
  | act l f k ih =>
    intro t hr hg
    obtain ⟨hp, hf⟩ := h t hr hg
    refine ⟨hp, fun i b u hb => ?_⟩
    obtain ⟨hG, hk⟩ := hf i b u hb
    exact ⟨hG, ih b hk⟩

theorem safe_bind {Q' : β → σ → Prop} {p : Program Λ ι σ ε α} {g : α → Program Λ ι σ ε β} {s : σ}
    (hp : Safe C Q E p s) (hg : ∀ a t, Q a t → Safe C Q' E (g a) t) :
    Safe C Q' E (bind p g) s := by
  induction p generalizing s with
  | ret a => exact hg a s hp
  | throw e => exact hp
  | act l f k ih =>
    intro t hr hgi
    obtain ⟨hpt, hf⟩ := hp t hr hgi
    refine ⟨hpt, fun i b u hb => ?_⟩
    obtain ⟨hG, hk⟩ := hf i b u hb
    exact ⟨hG, ih b hk⟩

theorem safe_tryCatch {E' : ε → σ → Prop} {p : Program Λ ι σ ε α} {h : ε → Program Λ ι σ ε α} {s : σ}
    (hp : Safe C Q E p s) (hh : ∀ e t, E e t → Safe C Q E' (h e) t) :
    Safe C Q E' (tryCatch p h) s := by
  induction p generalizing s with
  | ret a => exact hp
  | throw e => exact hh e s hp
  | act l f k ih =>
    intro t hr hgi
    obtain ⟨hpt, hf⟩ := hp t hr hgi
    refine ⟨hpt, fun i b u hb => ?_⟩
    obtain ⟨hG, hk⟩ := hf i b u hb
    exact ⟨hG, ih b hk⟩

theorem safe_atomic {l : Λ} {f : ι → σ → Option (Except ε α × σ)} {s : σ}
    (h : ∀ t, C.rely s t → C.given l t → C.promised l t ∧ ∀ i r u, f i t = some (r, u) →
      C.guarantee t u ∧ (∀ a, r = .ok a → Q a u) ∧ (∀ e, r = .error e → E e u)) :
    Safe C Q E (atomic l f) s := by
  intro t hr hg
  obtain ⟨hp, hf⟩ := h t hr hg
  refine ⟨hp, fun i r u hr => ?_⟩
  obtain ⟨hG, hok, herr⟩ := hf i r u hr
  refine ⟨hG, ?_⟩
  cases r with
  | ok a => exact hok a rfl
  | error e => exact herr e rfl

theorem safe_blocked {l : Λ} {s : σ} (h : ∀ t, C.promised l t) :
    Safe C Q E (blocked l : Program Λ ι σ ε α) s :=
  safe_atomic fun t _ _ => ⟨h t, fun _ _ _ hf => by cases hf⟩

/-- The environment may move before the first section as well, when it keeps
the conditions on the results. -/
theorem safe_rely (hQ : ∀ a s t, C.rely s t → Q a s → Q a t)
    (hE : ∀ e s t, C.rely s t → E e s → E e t)
    {p : Program Λ ι σ ε α} {s t : σ} (hr : C.rely s t) (h : Safe C Q E p s) :
    Safe C Q E p t := by
  cases p with
  | ret a => exact hQ a s t hr h
  | throw e => exact hE e s t hr h
  | act l f k => exact fun u hu => h u (C.rely_trans hr hu)

theorem safe_promised {p : Program Λ ι σ ε α} {s : σ} {l : Λ} (hrefl : C.rely s s)
    (h : Safe C Q E p s) (hl : p.next = some l) (hg : C.given l s) : C.promised l s := by
  cases p with
  | ret a => cases hl
  | throw e => cases hl
  | act l' f k =>
    cases hl
    exact (h s hrefl hg).1

/-- One step of the thread. -/
theorem safe_step {p p' : Program Λ ι σ ε α} {s t : σ} {i : ι}
    (hrefl : C.rely s s) (h : Safe C Q E p s) (hg : ∀ l, p.next = some l → C.given l s)
    (hs : p.step i s = some (p', t)) :
    C.guarantee s t ∧ Safe C Q E p' t := by
  cases p with
  | ret a => cases hs
  | throw e => cases hs
  | act l f k =>
    simp only [step, Option.map_eq_some_iff, Prod.mk.injEq] at hs
    obtain ⟨⟨b, u⟩, hf, rfl, rfl⟩ := hs
    exact (h s hrefl (hg l rfl)).2 i b u hf

end Rules

end Program

end AsComponents
