import AsComponents.Program

/-!
# Critical sections

The body of a critical section runs on the shared state alone.  It waits, by
returning `none`, for a lock that another thread holds; it may throw, and what
it did before it threw stays done.
-/

namespace AsComponents

def Critical (σ ε α : Type) : Type := σ → Option (Except ε α × σ)

namespace Critical

variable {σ ε α β : Type}

def bind (x : Critical σ ε α) (f : α → Critical σ ε β) : Critical σ ε β := fun s =>
  match x s with
  | none => none
  | some (.ok a, t) => f a t
  | some (.error e, t) => some (.error e, t)

instance : Monad (Critical σ ε) where
  pure a := fun s => some (.ok a, s)
  bind := bind

instance : MonadStateOf σ (Critical σ ε) where
  get := fun s => some (.ok s, s)
  set t := fun _ => some (.ok ⟨⟩, t)
  modifyGet f := fun s => some (.ok (f s).1, (f s).2)

instance : MonadExceptOf ε (Critical σ ε) where
  throw e := fun s => some (.error e, s)
  tryCatch x h := fun s =>
    match x s with
    | none => none
    | some (.ok a, t) => some (.ok a, t)
    | some (.error e, t) => h e t

theorem bind_eq_ok {x : Critical σ ε α} {f : α → Critical σ ε β} {s u : σ} {b : β}
    (h : (x >>= f) s = some (.ok b, u)) :
    ∃ a t, x s = some (.ok a, t) ∧ f a t = some (.ok b, u) := by
  replace h : bind x f s = some (.ok b, u) := h
  unfold bind at h
  split at h
  · cases h
  · exact ⟨_, _, ‹_›, h⟩
  · cases h

/-- Wait for ever in this state. -/
def wait : Critical σ ε α := fun _ => none

/-- Wait unless `p` holds. -/
def await (p : σ → Prop) [DecidablePred p] : Critical σ ε Unit := fun s =>
  if p s then some (.ok ⟨⟩, s) else none

/-! ## What holds after a section -/

/-- Every outcome of `x` in `s` satisfies `Q` when it is normal and `E` when it
is an exception. -/
def After (x : Critical σ ε α) (s : σ) (Q : α → σ → Prop) (E : ε → σ → Prop) : Prop :=
  match x s with
  | none => True
  | some (.ok a, t) => Q a t
  | some (.error e, t) => E e t

variable {s : σ} {Q : α → σ → Prop} {E : ε → σ → Prop}

theorem after_true (x : Critical σ ε α) (s : σ) : After x s (fun _ _ => True) fun _ _ => True := by
  unfold After
  split
  · trivial
  · trivial
  · trivial

theorem After.of_ok {x : Critical σ ε α} {a : α} {t : σ} (h : After x s Q E)
    (hx : x s = some (.ok a, t)) : Q a t := by
  simpa only [After, hx] using h

theorem After.of_error {x : Critical σ ε α} {e : ε} {t : σ} (h : After x s Q E)
    (hx : x s = some (.error e, t)) : E e t := by
  simpa only [After, hx] using h

theorem After.mono {x : Critical σ ε α} {Q' : α → σ → Prop} {E' : ε → σ → Prop}
    (h : After x s Q E) (hQ : ∀ a t, Q a t → Q' a t) (hE : ∀ e t, E e t → E' e t) :
    After x s Q' E' := by
  unfold After at h ⊢
  split at h
  · trivial
  · exact hQ _ _ h
  · exact hE _ _ h

theorem After.and {x : Critical σ ε α} {Q' : α → σ → Prop} {E' : ε → σ → Prop}
    (h : After x s Q E) (h' : After x s Q' E') :
    After x s (fun a t => Q a t ∧ Q' a t) (fun e t => E e t ∧ E' e t) := by
  unfold After at h h' ⊢
  split
  · trivial
  · rename_i hx
    rw [hx] at h h'
    exact ⟨h, h'⟩
  · rename_i hx
    rw [hx] at h h'
    exact ⟨h, h'⟩

@[simp] theorem after_pure (a : α) : After (pure a : Critical σ ε α) s Q E ↔ Q a s := Iff.rfl

@[simp] theorem after_throw (e : ε) : After (throw e : Critical σ ε α) s Q E ↔ E e s := Iff.rfl

@[simp] theorem after_get {Q : σ → σ → Prop} :
    After (get : Critical σ ε σ) s Q E ↔ Q s s := Iff.rfl

@[simp] theorem after_modify {f : σ → σ} {Q : PUnit → σ → Prop} :
    After (modify f : Critical σ ε PUnit) s Q E ↔ Q ⟨⟩ (f s) := Iff.rfl

@[simp] theorem after_set {t : σ} {Q : PUnit → σ → Prop} :
    After (set t : Critical σ ε PUnit) s Q E ↔ Q ⟨⟩ t := Iff.rfl

@[simp] theorem after_wait : After (wait : Critical σ ε α) s Q E ↔ True := Iff.rfl

@[simp] theorem after_await {p : σ → Prop} [DecidablePred p] {Q : Unit → σ → Prop} :
    After (await p : Critical σ ε Unit) s Q E ↔ (p s → Q ⟨⟩ s) := by
  unfold After await
  by_cases hp : p s <;> simp [hp]

@[simp] theorem after_bind {x : Critical σ ε α} {f : α → Critical σ ε β} {Q : β → σ → Prop} :
    After (x >>= f) s Q E ↔ After x s (fun a t => After (f a) t Q E) E := by
  show After (bind x f) s Q E ↔ _
  cases hx : x s with
  | none => simp only [After, bind, hx]
  | some r =>
    obtain ⟨r, t⟩ := r
    cases r <;> simp only [After, bind, hx]

@[simp] theorem after_map {x : Critical σ ε α} {f : α → β} {Q : β → σ → Prop} :
    After (f <$> x) s Q E ↔ After x s (fun a t => Q (f a) t) E := by
  show After (x >>= fun a => pure (f a)) s Q E ↔ _
  rw [after_bind]
  rfl

@[simp] theorem after_discard {x : Critical σ ε α} {Q : PUnit → σ → Prop} :
    After (discard x) s Q E ↔ After x s (fun _ t => Q ⟨⟩ t) E :=
  after_map (f := fun _ => PUnit.unit)

@[simp] theorem after_tryCatch {x : Critical σ ε α} {h : ε → Critical σ ε α} :
    After (tryCatch x h) s Q E ↔ After x s Q (fun e t => After (h e) t Q E) := by
  cases hx : x s with
  | none => simp only [After, tryCatch, tryCatchThe, MonadExceptOf.tryCatch, hx]
  | some r =>
    obtain ⟨r, t⟩ := r
    cases r <;> simp only [After, tryCatch, tryCatchThe, MonadExceptOf.tryCatch, hx]

@[simp] theorem after_ite {p : Prop} [Decidable p] {x y : Critical σ ε α} :
    After (if p then x else y) s Q E ↔ (p → After x s Q E) ∧ (¬ p → After y s Q E) := by
  by_cases hp : p <;> simp [hp]

/-- A branch that is left out or followed by the same code. -/
theorem after_ite_bind {p : Prop} [Decidable p] {x : Critical σ ε PUnit} {y : Critical σ ε α} :
    After (if p then x >>= fun _ => y else y) s Q E ↔
      After (if p then x else pure ⟨⟩) s (fun _ t => After y t Q E) E := by
  by_cases hp : p <;> simp [hp]

/-! ## Sections that return -/

/-- `x` returns in `s`, and `Q` holds then. -/
def Returns (x : Critical σ ε α) (s : σ) (Q : α → σ → Prop) : Prop :=
  ∃ a t, x s = some (.ok a, t) ∧ Q a t

theorem Returns.mono {x : Critical σ ε α} {Q' : α → σ → Prop} (h : Returns x s Q)
    (hQ : ∀ a t, Q a t → Q' a t) : Returns x s Q' := by
  obtain ⟨a, t, hx, ha⟩ := h
  exact ⟨a, t, hx, hQ a t ha⟩

/-- What holds after every outcome holds where the section returns. -/
theorem Returns.after {x : Critical σ ε α} {Q' : α → σ → Prop} (h : Returns x s Q)
    (hx : After x s Q' E) : Returns x s (fun a t => Q a t ∧ Q' a t) := by
  obtain ⟨a, t, ha, hQ⟩ := h
  exact ⟨a, t, ha, hQ, hx.of_ok ha⟩

@[simp] theorem returns_pure (a : α) : Returns (pure a : Critical σ ε α) s Q ↔ Q a s := by
  constructor
  · rintro ⟨b, t, h, hQ⟩
    cases h
    exact hQ
  · exact fun h => ⟨a, s, rfl, h⟩

@[simp] theorem returns_get {Q : σ → σ → Prop} :
    Returns (get : Critical σ ε σ) s Q ↔ Q s s := by
  constructor
  · rintro ⟨b, t, h, hQ⟩
    cases h
    exact hQ
  · exact fun h => ⟨s, s, rfl, h⟩

@[simp] theorem returns_modify {f : σ → σ} {Q : PUnit → σ → Prop} :
    Returns (modify f : Critical σ ε PUnit) s Q ↔ Q ⟨⟩ (f s) := by
  constructor
  · rintro ⟨b, t, h, hQ⟩
    cases h
    exact hQ
  · exact fun h => ⟨⟨⟩, f s, rfl, h⟩

@[simp] theorem returns_bind {x : Critical σ ε α} {f : α → Critical σ ε β} {Q : β → σ → Prop} :
    Returns (x >>= f) s Q ↔ Returns x s (fun a t => Returns (f a) t Q) := by
  constructor
  · rintro ⟨b, u, h, hQ⟩
    obtain ⟨a, t, hx, hf⟩ := bind_eq_ok h
    exact ⟨a, t, hx, b, u, hf, hQ⟩
  · rintro ⟨a, t, hx, b, u, hf, hQ⟩
    refine ⟨b, u, ?_, hQ⟩
    show bind x f s = _
    rw [bind, hx]
    exact hf

@[simp] theorem returns_ite {p : Prop} [Decidable p] {x y : Critical σ ε α} :
    Returns (if p then x else y) s Q ↔ (p → Returns x s Q) ∧ (¬ p → Returns y s Q) := by
  by_cases hp : p <;> simp [hp]

/-! ## Sections that end -/

theorem ok_bind {x : Critical σ ε α} {f : α → Critical σ ε β} {a : α} {t : σ}
    (h : x s = some (.ok a, t)) : (x >>= f) s = f a t := by
  show bind x f s = f a t
  rw [bind, h]

theorem error_bind {x : Critical σ ε α} {f : α → Critical σ ε β} {e : ε} {t : σ}
    (h : x s = some (.error e, t)) : (x >>= f) s = some (.error e, t) := by
  show bind x f s = _
  rw [bind, h]

theorem get_bind {f : σ → Critical σ ε β} : ((get : Critical σ ε σ) >>= f) s = f s s := rfl

theorem ok_discard {x : Critical σ ε α} {a : α} {t : σ} (h : x s = some (.ok a, t)) :
    discard x s = some (.ok ⟨⟩, t) :=
  ok_bind (f := fun _ => pure PUnit.unit) h

theorem error_discard {x : Critical σ ε α} {e : ε} {t : σ} (h : x s = some (.error e, t)) :
    discard x s = some (.error e, t) :=
  error_bind (f := fun _ => pure PUnit.unit) h

/-- There is no value to discard. -/
@[simp] theorem discard_unit (x : Critical σ ε PUnit) : discard x = x := by
  funext s
  show bind x _ s = x s
  cases hx : x s with
  | none => simp only [bind, hx]
  | some r =>
    obtain ⟨r, t⟩ := r
    cases r with
    | ok a =>
      simp only [bind, hx]
      rfl
    | error e => simp only [bind, hx]

/-- `x` ends in `s`, with an outcome that satisfies `Q` when it is normal and
`E` when it is an exception. -/
def Ends (x : Critical σ ε α) (s : σ) (Q : α → σ → Prop) (E : ε → σ → Prop) : Prop :=
  (∃ a t, x s = some (.ok a, t) ∧ Q a t) ∨ ∃ e t, x s = some (.error e, t) ∧ E e t

theorem Ends.of_ok {x : Critical σ ε α} {a : α} {t : σ} (h : x s = some (.ok a, t)) (hQ : Q a t) :
    Ends x s Q E := .inl ⟨a, t, h, hQ⟩

theorem Ends.bind {x : Critical σ ε α} {f : α → Critical σ ε β} {R : β → σ → Prop}
    (h : Ends x s Q E) (hf : ∀ a t, Q a t → Ends (f a) t R E) : Ends (x >>= f) s R E := by
  rcases h with ⟨a, t, hx, ha⟩ | ⟨e, t, hx, he⟩
  · rw [Ends, ok_bind hx]
    exact hf a t ha
  · exact .inr ⟨e, t, error_bind hx, he⟩

/-! ## Sections that agree -/

/-- `x` in `s` and `y` in `t` end in one state, with the same exception or with
values that `R` relates, or none of them ends. -/
def Agrees (x : Critical σ ε α) (s : σ) (y : Critical σ ε β) (t : σ) (R : α → β → σ → Prop) : Prop :=
  (x s = none ∧ y t = none) ∨
  (∃ a b u, x s = some (.ok a, u) ∧ y t = some (.ok b, u) ∧ R a b u) ∨
  ∃ e u, x s = some (.error e, u) ∧ y t = some (.error e, u)

section

variable {x : Critical σ ε α} {y : Critical σ ε β} {t : σ} {R : α → β → σ → Prop}

theorem Agrees.of_ok {a : α} {b : β} {u : σ} (hx : x s = some (.ok a, u))
    (hy : y t = some (.ok b, u)) (hR : R a b u) : Agrees x s y t R :=
  .inr (.inl ⟨a, b, u, hx, hy, hR⟩)

theorem Agrees.of_error {e : ε} {u : σ} (hx : x s = some (.error e, u))
    (hy : y t = some (.error e, u)) : Agrees x s y t R := .inr (.inr ⟨e, u, hx, hy⟩)

/-- What holds after `y` also relates the values. -/
theorem Agrees.and_ends {Q : β → σ → Prop} (h : Agrees x s y t R) (hy : Ends y t Q E) :
    Agrees x s y t (fun a b u => R a b u ∧ Q b u) := by
  rcases h with h | ⟨a, b, u, hx, hyu, h⟩ | h
  · exact .inl h
  · rcases hy with ⟨b', u', hy, hQ⟩ | ⟨e, u', hy, -⟩
    · cases hyu.symm.trans hy
      exact .of_ok hx hyu ⟨h, hQ⟩
    · cases hyu.symm.trans hy
  · exact .inr (.inr h)

theorem Agrees.bind {γ δ : Type} {f : α → Critical σ ε γ} {g : β → Critical σ ε δ}
    {R' : γ → δ → σ → Prop} (h : Agrees x s y t R)
    (hfg : ∀ a b u, R a b u → Agrees (f a) u (g b) u R') : Agrees (x >>= f) s (y >>= g) t R' := by
  rcases h with ⟨hx, hy⟩ | ⟨a, b, u, hx, hy, h⟩ | ⟨e, u, hx, hy⟩
  · refine .inl ⟨?_, ?_⟩
    · show Critical.bind x f s = none
      rw [Critical.bind, hx]
    · show Critical.bind y g t = none
      rw [Critical.bind, hy]
  · rw [Agrees, ok_bind hx, ok_bind hy]
    exact hfg a b u h
  · exact .of_error (error_bind hx) (error_bind hy)

/-- The values apart, the outcomes are the same. -/
theorem Agrees.discard_eq (h : Agrees x s y t R) : discard x s = discard y t := by
  rcases h with ⟨hx, hy⟩ | ⟨a, b, u, hx, hy, -⟩ | ⟨e, u, hx, hy⟩
  · show Critical.bind x _ s = Critical.bind y _ t
    rw [Critical.bind, Critical.bind, hx, hy]
  · rw [ok_discard hx, ok_discard hy]
  · rw [error_discard hx, error_discard hy]

end

/-- The same outcome has the same continuation. -/
theorem bind_eq {x y : Critical σ ε α} {f : α → Critical σ ε β} {t : σ} (h : x s = y t) :
    (x >>= f) s = (y >>= f) t := by
  show bind x f s = bind y f t
  rw [bind, bind, h]

/-- Two continuations that agree wherever `x` ends. -/
theorem bind_congr {x : Critical σ ε α} {f g : α → Critical σ ε β}
    (h : ∀ a t, x s = some (.ok a, t) → f a t = g a t) : (x >>= f) s = (x >>= g) s := by
  show bind x f s = bind x g s
  unfold bind
  split
  · rfl
  · exact h _ _ ‹_›
  · rfl

theorem bind_assoc {γ : Type} {x : Critical σ ε α} {f : α → Critical σ ε β}
    {g : β → Critical σ ε γ} : ((x >>= f) >>= g) s = (x >>= fun a => f a >>= g) s := by
  show bind (bind x f) g s = bind x (fun a => bind (f a) g) s
  cases hx : x s with
  | none => simp only [bind, hx]
  | some r =>
    obtain ⟨r, t⟩ := r
    cases r <;> simp only [bind, hx]

end Critical

end AsComponents
