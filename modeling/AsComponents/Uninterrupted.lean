import AsComponents.Program

/-!
# Programs that run alone

A judgment of total correctness for a thread that no other thread interrupts.
`Completes ok Q p s` says that `p`, started in `s`, returns in a state that
satisfies `Q`, whatever the replies of the environment are, as long as each of
them satisfies `ok`.
-/

namespace AsComponents.Program

variable {Λ ι σ ε α β : Type}

/-- No exception is thrown, and every section can run with some reply. -/
def Completes (ok : ι → Prop) (Q : α → σ → Prop) : Program Λ ι σ ε α → σ → Prop
  | ret a, s => Q a s
  | throw _, _ => False
  | act _ f k, s => (∃ i, ok i ∧ (f i s).isSome = true) ∧
      ∀ i b u, ok i → f i s = some (b, u) → Completes ok Q (k b) u

/-- The sections of a thread one after the other. -/
inductive Steps (ok : ι → Prop) :
    Program Λ ι σ ε α → σ → Program Λ ι σ ε α → σ → Prop
  | refl {p : Program Λ ι σ ε α} {s : σ} : Steps ok p s p s
  | tail {p q r : Program Λ ι σ ε α} {s t u : σ} {i : ι} (h : Steps ok p s q t) (hi : ok i)
      (hs : q.step i t = some (r, u)) : Steps ok p s r u

section Rules

variable {ok : ι → Prop} {Q : α → σ → Prop} {s t : σ}

theorem completes_step {p p' : Program Λ ι σ ε α} {i : ι} (h : Completes ok Q p s) (hi : ok i)
    (hs : p.step i s = some (p', t)) : Completes ok Q p' t := by
  cases p with
  | ret a => cases hs
  | throw e => cases hs
  | act l f k =>
    simp only [step, Option.map_eq_some_iff, Prod.mk.injEq] at hs
    obtain ⟨⟨b, u⟩, hf, rfl, rfl⟩ := hs
    exact h.2 i b u hi hf

theorem completes_steps {p p' : Program Λ ι σ ε α} (h : Completes ok Q p s)
    (hs : Steps ok p s p' t) : Completes ok Q p' t := by
  induction hs with
  | refl => exact h
  | tail _ hi hs ih => exact completes_step (ih h) hi hs

/-- What a program that completes returns. -/
theorem completes_ret {p : Program Λ ι σ ε α} {a : α} (h : Completes ok Q p s)
    (hs : Steps ok p s (.ret a) t) : Q a t :=
  completes_steps h hs

/-- It does return. -/
theorem exists_steps_ret {p : Program Λ ι σ ε α} (h : Completes ok Q p s) :
    ∃ a t, Steps ok p s (.ret a) t := by
  suffices hsuffices : ∀ p₀ s₀, Steps ok p₀ s₀ p s → ∃ a t, Steps ok p₀ s₀ (.ret a) t from
    hsuffices p s .refl
  intro p₀ s₀ hfrom
  induction p generalizing s with
  | ret a => exact ⟨a, s, hfrom⟩
  | throw e => exact h.elim
  | act l f k ih =>
    obtain ⟨⟨i, hi, hsome⟩, hnext⟩ := h
    obtain ⟨⟨b, u⟩, hf⟩ := Option.isSome_iff_exists.mp hsome
    refine ih b (hnext i b u hi hf) (hfrom.tail hi ?_)
    simp only [step, hf, Option.map_some]

theorem completes_mono {Q' : α → σ → Prop} (hQ : ∀ a s, Q a s → Q' a s) {p : Program Λ ι σ ε α}
    (h : Completes ok Q p s) : Completes ok Q' p s := by
  induction p generalizing s with
  | ret a => exact hQ a s h
  | throw e => exact h
  | act l f k ih => exact ⟨h.1, fun i b u hi hf => ih b (h.2 i b u hi hf)⟩

theorem completes_bind {Q' : β → σ → Prop} {p : Program Λ ι σ ε α} {g : α → Program Λ ι σ ε β}
    (hp : Completes ok Q p s) (hg : ∀ a t, Q a t → Completes ok Q' (g a) t) :
    Completes ok Q' (p >>= g) s := by
  show Completes ok Q' (bind p g) s
  induction p generalizing s with
  | ret a => exact hg a s hp
  | throw e => exact hp.elim
  | act l f k ih => exact ⟨hp.1, fun i b u hi hf => ih b (hp.2 i b u hi hf)⟩

/-- The handler is not entered. -/
theorem completes_tryCatch {p : Program Λ ι σ ε α} {h : ε → Program Λ ι σ ε α}
    (hp : Completes ok Q p s) : Completes ok Q (tryCatch p h) s := by
  induction p generalizing s with
  | ret a => exact hp
  | throw e => exact hp.elim
  | act l f k ih => exact ⟨hp.1, fun i b u hi hf => ih b (hp.2 i b u hi hf)⟩

theorem completes_atomic {l : Λ} {f : ι → σ → Option (Except ε α × σ)}
    (runs : ∃ i, ok i ∧ (f i s).isSome = true)
    (h : ∀ i r u, ok i → f i s = some (r, u) → ∃ a, r = .ok a ∧ Q a u) :
    Completes ok Q (atomic l f) s := by
  refine ⟨runs, fun i r u hi hf => ?_⟩
  obtain ⟨a, rfl, ha⟩ := h i r u hi hf
  exact ha

end Rules

end AsComponents.Program
