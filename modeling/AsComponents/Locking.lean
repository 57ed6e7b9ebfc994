import Mathlib

/-!
# Mutexes and lock hierarchies

A thread is seen as the sequence of its operations on mutexes; whatever else
decides its course is a choice.  In a hierarchy every mutex has a rank, and a
thread waits only for a mutex that ranks above all those it holds.  Threads that
keep to a hierarchy do not wait for each other in a cycle.
-/

namespace AsComponents

/-- The operations of a thread on mutexes.  `choose` is a decision that depends
on anything else; `stop` is the end of the process. -/
inductive Locking (μ α : Type) : Type
  | ret (a : α)
  | stop
  | acquire (m : μ) (k : Locking μ α)
  | tryAcquire (m : μ) (k : Bool → Locking μ α)
  | release (m : μ) (k : Locking μ α)
  | choose (k : Nat → Locking μ α)

namespace Locking

variable {μ η α β : Type}

def bind : Locking μ α → (α → Locking μ β) → Locking μ β
  | ret a, g => g a
  | stop, _ => stop
  | acquire m k, g => acquire m (bind k g)
  | tryAcquire m k, g => tryAcquire m fun b => bind (k b) g
  | release m k, g => release m (bind k g)
  | choose k, g => choose fun n => bind (k n) g

instance : Monad (Locking μ) where
  pure := ret
  bind := bind

/-- The mutex a thread is about to lock. -/
def awaits : Locking μ α → Option μ
  | acquire m _ => some m
  | _ => none

/-! ## Hierarchies -/

/-- How a thread keeps account of the mutexes it holds: `acquire` and `release`
give `none` for an operation that the hierarchy does not allow. -/
structure Hierarchy (μ η : Type) where
  rank : μ → Nat
  holds : η → μ → Prop
  nothing : η
  acquire : μ → η → Option η
  release : μ → η → Option η
  holds_nothing : ∀ m, ¬ holds nothing m
  below : ∀ {m h h'}, acquire m h = some h' → ∀ m', holds h m' → rank m' < rank m
  holds_acquire : ∀ {m h h'}, acquire m h = some h' → ∀ m', holds h' m' ↔ m' = m ∨ holds h m'
  holds_release : ∀ {m h h'}, release m h = some h' →
    holds h m ∧ ∀ m', holds h' m' ↔ m' ≠ m ∧ holds h m'

/-- Started with the mutexes `h`, the thread keeps to the hierarchy and ends
with a result and mutexes that satisfy `Q`. -/
def Obeys (D : Hierarchy μ η) (Q : α → η → Prop) : Locking μ α → η → Prop
  | ret a, h => Q a h
  | stop, _ => True
  | acquire m k, h => ∃ h', D.acquire m h = some h' ∧ Obeys D Q k h'
  | tryAcquire m k, h =>
      (∃ h', D.acquire m h = some h' ∧ Obeys D Q (k true) h') ∧ Obeys D Q (k false) h
  | release m k, h => ∃ h', D.release m h = some h' ∧ Obeys D Q k h'
  | choose k, h => ∀ n, Obeys D Q (k n) h

theorem obeys_bind {D : Hierarchy μ η} {Q : β → η → Prop} {p : Locking μ α}
    {g : α → Locking μ β} {h : η} :
    Obeys D Q (bind p g) h ↔ Obeys D (fun a h' => Obeys D Q (g a) h') p h := by
  induction p generalizing h with
  | ret a => exact Iff.rfl
  | stop => exact Iff.rfl
  | acquire m k ih => exact exists_congr fun h' => and_congr_right fun _ => ih
  | tryAcquire m k ih =>
    exact and_congr (exists_congr fun h' => and_congr_right fun _ => ih true) (ih false)
  | release m k ih => exact exists_congr fun h' => and_congr_right fun _ => ih
  | choose k ih => exact forall_congr' fun n => ih n

theorem Obeys.mono {D : Hierarchy μ η} {Q Q' : α → η → Prop} {p : Locking μ α} {h : η}
    (hp : Obeys D Q p h) (hQ : ∀ a h', Q a h' → Q' a h') : Obeys D Q' p h := by
  induction p generalizing h with
  | ret a => exact hQ a h hp
  | stop => trivial
  | acquire m k ih =>
    obtain ⟨h', hh, hk⟩ := hp
    exact ⟨h', hh, ih hk⟩
  | tryAcquire m k ih =>
    obtain ⟨⟨h', hh, hk⟩, hfalse⟩ := hp
    exact ⟨⟨h', hh, ih true hk⟩, ih false hfalse⟩
  | release m k ih =>
    obtain ⟨h', hh, hk⟩ := hp
    exact ⟨h', hh, ih hk⟩
  | choose k ih => exact fun n => ih n (hp n)

/-! ## Threads -/

/-- Which thread owns a mutex, and what is left of the call each thread is in. -/
structure Threads (μ : Type) where
  owner : μ → Option Nat := fun _ => none
  code : Nat → Locking μ Unit := fun _ => .ret ()

namespace Threads

/-- Thread `i` is about to lock a mutex that thread `j` owns. -/
def WaitsFor (s : Threads μ) (i j : Nat) : Prop :=
  ∃ m, (s.code i).awaits = some m ∧ s.owner m = some j

/-- Every thread knows the mutexes it owns and keeps to the hierarchy; it ends
its call with none of them. -/
def Ordered (D : Hierarchy μ η) (s : Threads μ) : Prop :=
  ∀ i, ∃ h, (∀ m, D.holds h m ↔ s.owner m = some i) ∧
    Obeys D (fun _ h' => h' = D.nothing) (s.code i) h

variable {D : Hierarchy μ η} {s t : Threads μ}

theorem ordered_initial : Ordered D ({} : Threads μ) :=
  fun _ => ⟨D.nothing, fun m => ⟨fun hm => (D.holds_nothing m hm).elim, by simp⟩, rfl⟩

/-- A step of thread `i` that leaves the mutexes of the others alone. -/
theorem Ordered.update (hs : Ordered D s) {i : Nat} {owner : μ → Option Nat} {p : Locking μ Unit}
    (hother : ∀ j, j ≠ i → ∀ m, owner m = some j ↔ s.owner m = some j)
    (hi : ∃ h, (∀ m, D.holds h m ↔ owner m = some i) ∧
      Obeys D (fun _ h' => h' = D.nothing) p h) :
    Ordered D ⟨owner, Function.update s.code i p⟩ := by
  intro j
  by_cases hj : j = i
  · subst hj
    obtain ⟨h, hh, hp⟩ := hi
    refine ⟨h, hh, ?_⟩
    simpa using hp
  · obtain ⟨h, hh, hp⟩ := hs j
    refine ⟨h, fun m => (hh m).trans (hother j hj m).symm, ?_⟩
    simpa [hj] using hp

/-- A thread waits for a mutex above all those it owns. -/
theorem Ordered.below (hs : Ordered D s) {i : Nat} {m m' : μ} (hw : (s.code i).awaits = some m)
    (ho : s.owner m' = some i) : D.rank m' < D.rank m := by
  obtain ⟨h, hh, hp⟩ := hs i
  cases hc : s.code i with
  | acquire n k =>
    rw [hc] at hw hp
    cases hw
    obtain ⟨h', ha, -⟩ := hp
    exact D.below ha m' ((hh m').mpr ho)
  | _ =>
    rw [hc] at hw
    cases hw

/-- Along a chain of waiting threads the ranks increase. -/
theorem Ordered.chain (hs : Ordered D s) {i j : Nat} (h : Relation.TransGen s.WaitsFor i j) {m : μ}
    (hj : (s.code j).awaits = some m) :
    ∃ m', (s.code i).awaits = some m' ∧ D.rank m' < D.rank m := by
  induction h generalizing m with
  | single hw =>
    obtain ⟨m', hm', ho⟩ := hw
    exact ⟨m', hm', hs.below hj ho⟩
  | tail _ hw ih =>
    obtain ⟨m₁, hm₁, ho⟩ := hw
    obtain ⟨m', hm', hlt⟩ := ih hm₁
    exact ⟨m', hm', Nat.lt_trans hlt (hs.below hj ho)⟩

/-- No thread waits for itself, directly or through others. -/
theorem Ordered.acyclic (hs : Ordered D s) (i : Nat) : ¬ Relation.TransGen s.WaitsFor i i := by
  intro h
  obtain ⟨j, ⟨m, hm, -⟩, -⟩ := Relation.TransGen.head'_iff.mp h
  obtain ⟨m', hm', hlt⟩ := hs.chain h hm
  rw [hm, Option.some.injEq] at hm'
  subst hm'
  exact Nat.lt_irrefl _ hlt

/-! ## Runs -/

inductive Move (μ : Type)
  /-- An idle thread starts a call. -/
  | call (thread : Nat) (p : Locking μ Unit)
  /-- A thread makes its next operation; `reply` is its choice. -/
  | run (thread reply : Nat)

variable [DecidableEq μ]

def step (s : Threads μ) : Move μ → Option (Threads μ)
  | .call i p =>
      match s.code i with
      | .ret () => some { s with code := Function.update s.code i p }
      | _ => none
  | .run i reply =>
      match s.code i with
      | .acquire m k =>
          if s.owner m = none then
            some ⟨Function.update s.owner m (some i), Function.update s.code i k⟩
          else
            none
      | .tryAcquire m k =>
          -- a mutex that is free may be refused as well
          if s.owner m = none ∧ reply = 0 then
            some ⟨Function.update s.owner m (some i), Function.update s.code i (k true)⟩
          else
            some { s with code := Function.update s.code i (k false) }
      | .release m k => some ⟨Function.update s.owner m none, Function.update s.code i k⟩
      | .choose k => some { s with code := Function.update s.code i (k reply) }
      | _ => none

/-- What a run reaches in which thread `i` makes the calls `calls i`. -/
inductive Reachable (calls : Nat → Locking μ Unit → Prop) : Threads μ → Prop
  | initial : Reachable calls {}
  | call {s t : Threads μ} {i : Nat} {p : Locking μ Unit} (h : Reachable calls s)
      (hp : calls i p) (hs : s.step (.call i p) = some t) : Reachable calls t
  | run {s t : Threads μ} {i reply : Nat} (h : Reachable calls s)
      (hs : s.step (.run i reply) = some t) : Reachable calls t

/-- Several steps of threads with their choices, for the evaluation of a run. -/
def runAll (s : Threads μ) : List (Nat × Nat) → Option (Threads μ)
  | [] => some s
  | (i, reply) :: rest => (s.step (.run i reply)).bind fun t => runAll t rest

theorem reachable_runAll {calls : Nat → Locking μ Unit → Prop} {steps : List (Nat × Nat)}
    (hs : Reachable calls s) (ht : s.runAll steps = some t) : Reachable calls t := by
  induction steps generalizing s with
  | nil =>
    cases ht
    exact hs
  | cons step steps ih =>
    obtain ⟨u, hu, hrest⟩ := Option.bind_eq_some_iff.mp ht
    exact ih (.run hs hu) hrest

theorem holds_acquired {i : Nat} {m : μ} {h h' : η} (hh : ∀ m, D.holds h m ↔ s.owner m = some i)
    (ha : D.acquire m h = some h') (m' : μ) :
    D.holds h' m' ↔ Function.update s.owner m (some i) m' = some i := by
  rw [D.holds_acquire ha, hh]
  by_cases hm : m' = m
  · simp [hm]
  · simp [hm]

theorem other_acquired {i j : Nat} (hj : j ≠ i) {m : μ} (hm : s.owner m = none) (m' : μ) :
    Function.update s.owner m (some i) m' = some j ↔ s.owner m' = some j := by
  by_cases he : m' = m
  · subst he
    simp [hm, hj.symm]
  · simp [he]

/-- One step. -/
theorem Ordered.step (hs : Ordered D s) {i reply : Nat} (ht : s.step (.run i reply) = some t) :
    Ordered D t := by
  obtain ⟨h, hh, hp⟩ := hs i
  unfold Threads.step at ht
  dsimp only at ht
  cases hc : s.code i with
  | ret a =>
    rw [hc] at ht
    cases ht
  | stop =>
    rw [hc] at ht
    cases ht
  | acquire m k =>
    rw [hc] at ht hp
    obtain ⟨h', ha, hk⟩ := hp
    dsimp only at ht
    split at ht
    · rename_i hm
      cases ht
      exact hs.update (fun j hj => other_acquired hj hm) ⟨h', holds_acquired hh ha, hk⟩
    · cases ht
  | tryAcquire m k =>
    rw [hc] at ht hp
    obtain ⟨⟨h', ha, hk⟩, hfalse⟩ := hp
    dsimp only at ht
    split at ht
    · rename_i hm
      cases ht
      exact hs.update (fun j hj => other_acquired hj hm.1) ⟨h', holds_acquired hh ha, hk⟩
    · cases ht
      exact hs.update (fun _ _ _ => Iff.rfl) ⟨h, hh, hfalse⟩
  | release m k =>
    rw [hc] at ht hp
    obtain ⟨h', hr, hk⟩ := hp
    cases ht
    obtain ⟨hm, hr⟩ := D.holds_release hr
    refine hs.update (fun j hj m' => ?_) ⟨h', fun m' => ?_, hk⟩
    · by_cases he : m' = m
      · subst he
        simp [(hh m').mp hm, hj.symm]
      · simp [he]
    · rw [hr, hh]
      by_cases he : m' = m
      · simp [he]
      · simp [he]
  | choose k =>
    rw [hc] at ht hp
    cases ht
    exact hs.update (fun _ _ _ => Iff.rfl) ⟨h, hh, hp reply⟩

theorem Ordered.call (hs : Ordered D s) {i : Nat} {p : Locking μ Unit}
    (hp : Obeys D (fun _ h => h = D.nothing) p D.nothing) (ht : s.step (.call i p) = some t) :
    Ordered D t := by
  obtain ⟨h, hh, hi⟩ := hs i
  unfold Threads.step at ht
  dsimp only at ht
  split at ht
  · rename_i hc
    cases ht
    rw [hc] at hi
    obtain rfl : h = D.nothing := hi
    exact hs.update (fun _ _ _ => Iff.rfl) ⟨D.nothing, hh, hp⟩
  · cases ht

theorem ordered_of_reachable {calls : Nat → Locking μ Unit → Prop}
    (hcalls : ∀ i p, calls i p → Obeys D (fun _ h => h = D.nothing) p D.nothing)
    (h : Reachable calls s) : Ordered D s := by
  induction h with
  | initial => exact ordered_initial
  | call _ hp ht ih => exact ih.call (hcalls _ _ hp) ht
  | run _ ht ih => exact ih.step ht

end Threads

end Locking

end AsComponents
