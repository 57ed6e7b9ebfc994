import AsComponents.LockUse

/-! The threads of the server do not wait for each other for ever: the interface
mutex ranks below the write mutexes, and every function keeps to this order. -/

namespace AsComponents.LockUse

open Code

/-! ## The hierarchy -/

/-- The mutexes a thread holds. -/
structure Held where
  interface : Bool := false
  write : Option Nat := none

def Held.acquire (h : Held) : Mutex → Option Held
  | .interface => if h.interface = false ∧ h.write = none then some ⟨true, none⟩ else none
  | .write w => if h.write = none then some ⟨h.interface, some w⟩ else none

def Held.release (h : Held) : Mutex → Option Held
  | .interface => if h.interface = true then some ⟨false, h.write⟩ else none
  | .write w => if h.write = some w then some ⟨h.interface, none⟩ else none

def Held.Has (h : Held) : Mutex → Prop
  | .interface => h.interface = true
  | .write w => h.write = some w

def hierarchy : Locking.Hierarchy Mutex Held where
  rank
    | .interface => 0
    | .write _ => 1
  holds := Held.Has
  nothing := {}
  acquire m h := h.acquire m
  release m h := h.release m
  holds_nothing m := by cases m <;> simp [Held.Has]
  below {m h h'} ha m' hm' := by
    cases m <;> cases m' <;> simp_all [Held.acquire, Held.Has]
  holds_acquire {m h h'} ha m' := by
    cases m <;> cases m' <;> grind [Held.acquire, Held.Has]
  holds_release {m h h'} hr := by
    refine ⟨?_, fun m' => ?_⟩
    · cases m <;> grind [Held.release, Held.Has]
    · cases m <;> cases m' <;> grind [Held.release, Held.Has]

/-! ## Rules -/

section Rules

variable {α β : Type} {Q : Option α → Locks → Held → Prop} {l : Locks} {h : Held}

/-- Started with the lock objects `l` and the mutexes `h`, the code keeps to the
hierarchy and ends, normally or with an exception, as `Q` says. -/
def Meets (p : Code α) (l : Locks) (h : Held) (Q : Option α → Locks → Held → Prop) : Prop :=
  Locking.Obeys hierarchy (fun r h' => Q r.1 r.2 h') (p l) h

theorem Meets.mono {p : Code α} {Q' : Option α → Locks → Held → Prop} (hp : Meets p l h Q)
    (hQ : ∀ r l' h', Q r l' h' → Q' r l' h') : Meets p l h Q' :=
  Locking.Obeys.mono hp fun r h' => hQ r.1 r.2 h'

/-- What a continuation makes of a result. -/
def Then (Q : Option β → Locks → Held → Prop) (g : α → Code β) :
    Option α → Locks → Held → Prop
  | some a, l, h => Meets (g a) l h Q
  | none, l, h => Q none l h

/-- What a handler makes of a result. -/
def Handled (Q : Option α → Locks → Held → Prop) (handler : Code α) :
    Option α → Locks → Held → Prop
  | some a, l, h => Q (some a) l h
  | none, l, h => Meets handler l h Q

@[simp] theorem then_some {Q : Option β → Locks → Held → Prop} {g : α → Code β} {a : α} :
    Then Q g (some a) l h ↔ Meets (g a) l h Q := Iff.rfl

@[simp] theorem then_none {Q : Option β → Locks → Held → Prop} {g : α → Code β} :
    Then Q g none l h ↔ Q none l h := Iff.rfl

@[simp] theorem handled_some {handler : Code α} {a : α} :
    Handled Q handler (some a) l h ↔ Q (some a) l h := Iff.rfl

@[simp] theorem handled_none {handler : Code α} :
    Handled Q handler none l h ↔ Meets handler l h Q := Iff.rfl

@[simp] theorem meets_pure (a : α) : Meets (pure a) l h Q ↔ Q (some a) l h := Iff.rfl

@[simp] theorem meets_throw : Meets throw l h Q ↔ Q none l h := Iff.rfl

@[simp] theorem meets_terminate : Meets (terminate : Code α) l h Q ↔ True := Iff.rfl

@[simp] theorem meets_bind {Q : Option β → Locks → Held → Prop} {p : Code α} {g : α → Code β} :
    Meets (p >>= g) l h Q ↔ Meets p l h (Then Q g) := by
  refine Locking.obeys_bind.trans (Iff.of_eq ?_)
  refine congrArg (fun P => Locking.Obeys hierarchy P (p l) h) ?_
  funext r h'
  obtain ⟨r, l'⟩ := r
  cases r <;> rfl

@[simp] theorem meets_tryCatch {p handler : Code α} :
    Meets (tryCatch p handler) l h Q ↔ Meets p l h (Handled Q handler) := by
  refine Locking.obeys_bind.trans (Iff.of_eq ?_)
  refine congrArg (fun P => Locking.Obeys hierarchy P (p l) h) ?_
  funext r h'
  obtain ⟨r, l'⟩ := r
  cases r <;> rfl

@[simp] theorem meets_discard {Q : Option PUnit → Locks → Held → Prop} {p : Code α} :
    Meets (discard p) l h Q ↔ Meets p l h (Then Q fun _ => pure ⟨⟩) :=
  meets_bind

@[simp] theorem meets_ite {c : Prop} [Decidable c] {p q : Code α} :
    Meets (if c then p else q) l h Q ↔ (c → Meets p l h Q) ∧ (¬ c → Meets q l h Q) := by
  by_cases hc : c <;> simp [hc]

@[simp] theorem meets_decision {Q : Option Bool → Locks → Held → Prop} :
    Meets decision l h Q ↔ Q (some true) l h ∧ Q (some false) l h := by
  refine ⟨fun hd => ⟨hd 0, hd 1⟩, fun hd n => ?_⟩
  show Q (some (decide (n = 0))) l h
  by_cases hn : n = 0
  · simpa [hn] using hd.1
  · simpa [hn] using hd.2

@[simp] theorem meets_attempt {Q : Option Unit → Locks → Held → Prop} :
    Meets attempt l h Q ↔ Q none l h ∧ Q (some ()) l h := by
  refine ⟨fun ha => ⟨ha 1, ha 0⟩, fun ha n => ?_⟩
  show Q (if n = 0 then some () else none) l h
  by_cases hn : n = 0
  · simpa [hn] using ha.2
  · simpa [hn] using ha.1

@[simp] theorem meets_someMutex {Q : Option Nat → Locks → Held → Prop} :
    Meets someMutex l h Q ↔ ∀ w, Q (some w) l h := Iff.rfl

@[simp] theorem meets_ownsInterface {Q : Option Bool → Locks → Held → Prop} :
    Meets ownsInterface l h Q ↔ Q (some l.interfaceStateLock) l h := Iff.rfl

/-! ### Locks -/

variable {w : Nat} {b : Bool}

@[simp] theorem meets_lockInterface {Q : Option Unit → Locks → Held → Prop} :
    Meets lockInterface l ⟨false, none⟩ Q ↔
      Q none l ⟨false, none⟩ ∧ Q (some ()) { l with interfaceStateLock := true } ⟨true, none⟩ := by
  constructor
  · intro hl
    obtain ⟨h', hh, hq⟩ := hl 0
    cases hh
    exact ⟨hl 1, hq⟩
  · rintro ⟨hn, hs⟩ n
    cases n with
    | zero => exact ⟨_, rfl, hs⟩
    | succ n => exact hn

@[simp] theorem meets_unlockInterface {write : Option Nat} {Q : Option Unit → Locks → Held → Prop} :
    Meets unlockInterface l ⟨true, write⟩ Q ↔
      Q (some ()) { l with interfaceStateLock := false } ⟨false, write⟩ := by
  constructor
  · rintro ⟨h', hh, hq⟩
    cases hh
    exact hq
  · exact fun hq => ⟨_, rfl, hq⟩

@[simp] theorem meets_lockWrite {Q : Option Unit → Locks → Held → Prop} :
    Meets (lockWrite w) l ⟨b, none⟩ Q ↔
      Q none l ⟨b, none⟩ ∧ Q (some ()) { l with writeLock := true } ⟨b, some w⟩ := by
  constructor
  · intro hl
    obtain ⟨h', hh, hq⟩ := hl 0
    cases hh
    exact ⟨hl 1, hq⟩
  · rintro ⟨hn, hs⟩ n
    cases n with
    | zero => exact ⟨_, rfl, hs⟩
    | succ n => exact hn

@[simp] theorem meets_tryLockWrite {Q : Option Bool → Locks → Held → Prop} :
    Meets (tryLockWrite w) l ⟨b, none⟩ Q ↔
      Q (some true) { l with writeLock := true } ⟨b, some w⟩ ∧
        Q (some false) { l with writeLock := false } ⟨b, none⟩ := by
  constructor
  · rintro ⟨⟨h', hh, hq⟩, hf⟩
    cases hh
    exact ⟨hq, hf⟩
  · exact fun hq => ⟨⟨_, rfl, hq.1⟩, hq.2⟩

theorem release_write : hierarchy.release (.write w) ⟨b, some w⟩ = some ⟨b, none⟩ := if_pos rfl

@[simp] theorem meets_unlockWrite {Q : Option Unit → Locks → Held → Prop} :
    Meets (unlockWrite w) l ⟨b, some w⟩ Q ↔ Q (some ()) { l with writeLock := false } ⟨b, none⟩ := by
  constructor
  · rintro ⟨h', hh, hq⟩
    rw [release_write, Option.some.injEq] at hh
    subst hh
    exact hq
  · exact fun hq => ⟨_, release_write, hq⟩

/-! ### Functions -/

/-- The code ends with the lock objects and the mutexes it was started with. -/
def Balanced (p : Code α) (h : Held) : Prop :=
  ∀ l, Meets p l h fun _ l' h' => l' = l ∧ h' = h

theorem Balanced.meets {p : Code α} (hp : Balanced p h) (hQ : ∀ r, Q r l h) : Meets p l h Q := by
  refine (hp l).mono ?_
  rintro r _ _ ⟨rfl, rfl⟩
  exact hQ r

theorem Balanced.bind {p : Code α} {g : α → Code β} (hp : Balanced p h)
    (hg : ∀ a, Balanced (g a) h) : Balanced (p >>= g) h := by
  intro l
  rw [meets_bind]
  refine hp.meets fun r => ?_
  cases r with
  | some a => exact hg a l
  | none => exact ⟨rfl, rfl⟩

theorem Balanced.tryCatch {p handler : Code α} (hp : Balanced p h) (hh : Balanced handler h) :
    Balanced (tryCatch p handler) h := by
  intro l
  rw [meets_tryCatch]
  refine hp.meets fun r => ?_
  cases r with
  | some a => exact ⟨rfl, rfl⟩
  | none => exact hh l

theorem Balanced.ite {c : Prop} [Decidable c] {p q : Code α} (hp : Balanced p h)
    (hq : Balanced q h) : Balanced (if c then p else q) h := by
  split
  · exact hp
  · exact hq

theorem balanced_pure (a : α) : Balanced (pure a) h := fun _ => ⟨rfl, rfl⟩

theorem balanced_throw : Balanced (throw : Code α) h := fun _ => ⟨rfl, rfl⟩

theorem balanced_terminate : Balanced (terminate : Code α) h := fun _ => trivial

theorem balanced_decision : Balanced decision h := by simp [Balanced]

theorem balanced_attempt : Balanced attempt h := by simp [Balanced]

theorem balanced_someMutex : Balanced someMutex h := by simp [Balanced]

theorem Balanced.discard {p : Code α} (hp : Balanced p h) : Balanced (Functor.discard p) h :=
  hp.bind fun _ => balanced_pure _

/-- A loop whose rounds keep a condition on the lock objects and mutexes. -/
theorem meets_loop {body : Code (Option α)} {I : Locks → Held → Prop} (hi : I l h)
    (hbody : ∀ l h, I l h → Meets body l h fun r l' h' =>
      match r with
      | some (some a) => Q (some a) l' h'
      | some none => I l' h'
      | none => Q none l' h') : Meets (loop body) l h Q := by
  intro n
  show Meets (rounds body n) l h Q
  induction n generalizing l h with
  | zero => trivial
  | succ n ih =>
    rw [rounds, meets_bind]
    refine (hbody l h hi).mono fun r l' h' hr => ?_
    cases r with
    | none => exact hr
    | some r =>
      cases r with
      | some a => exact hr
      | none => exact ih hr

theorem Balanced.loop {body : Code (Option α)} (hb : Balanced body h) : Balanced (loop body) h := by
  intro l
  refine meets_loop (I := fun l' h' => l' = l ∧ h' = h) ⟨rfl, rfl⟩ ?_
  rintro _ _ ⟨rfl, rfl⟩
  refine hb.meets fun r => ?_
  cases r with
  | none => exact ⟨rfl, rfl⟩
  | some r => cases r <;> exact ⟨rfl, rfl⟩

theorem meets_repeatedly {body : Code Unit} {I : Locks → Held → Prop}
    {Q : Option Unit → Locks → Held → Prop} (hi : I l h)
    (hbody : ∀ l h, I l h → Meets body l h fun r l' h' =>
      match r with
      | some _ => I l' h'
      | none => Q none l' h')
    (hend : ∀ l h, I l h → Q (some ()) l h) : Meets (repeatedly body) l h Q := by
  refine meets_loop hi fun l h hl => ?_
  rw [meets_bind, meets_decision, then_some, then_some, if_pos rfl, if_neg Bool.false_ne_true,
    meets_bind]
  refine ⟨hend l h hl, (hbody l h hl).mono fun r l' h' hr => ?_⟩
  cases r with
  | none => exact hr
  | some a => exact hr

theorem Balanced.repeatedly {body : Code Unit} (hb : Balanced body h) :
    Balanced (repeatedly body) h := by
  refine Balanced.loop (balanced_decision.bind fun b => .ite (balanced_pure _) ?_)
  exact hb.bind fun _ => balanced_pure _

/-- In a scope whose caller holds the interface mutex, when `b`, the mutexes of
the thread are that one and those of the lock objects. -/
def Scope (w : Nat) (b : Bool) (l : Locks) (h : Held) : Prop :=
  h = ⟨b || l.interfaceStateLock, if l.writeLock then some w else none⟩ ∧
    (b = true → l.interfaceStateLock = false)

theorem balanced_block {p : Code α} (hp : Meets p {} ⟨b, none⟩ fun _ => Scope w b) :
    Balanced (block w p) ⟨b, none⟩ := by
  intro l
  refine Locking.obeys_bind.mpr (Locking.Obeys.mono hp ?_)
  rintro ⟨r, i, k⟩ h' ⟨rfl, hb⟩
  cases i with
  | false =>
    cases k with
    | false => exact ⟨rfl, by simp⟩
    | true => exact ⟨_, release_write, rfl, by simp⟩
  | true =>
    obtain rfl : b = false := by simpa using hb
    cases k with
    | false => exact ⟨_, rfl, rfl, rfl⟩
    | true => exact ⟨_, release_write, _, rfl, rfl, rfl⟩

end Rules

/-! ## FcgiRequest -/

section Requests

variable {w : Nat} {b : Bool} {h : Held}

theorem meets_lockOrTerminate {Q : Option Unit → Locks → Held → Prop} {l : Locks} :
    Meets lockOrTerminate l ⟨false, none⟩ Q ↔
      Q (some ()) { l with interfaceStateLock := true } ⟨true, none⟩ := by
  simp [lockOrTerminate]

/-- A section under the interface mutex, for a caller that holds no mutex. -/
theorem Balanced.underLock {α : Type} {p : Code α} (hp : Balanced p ⟨true, none⟩) :
    Balanced (block w do lockInterface; p) {} := by
  refine balanced_block ?_
  rw [meets_bind, meets_lockInterface]
  refine ⟨⟨rfl, by simp⟩, then_some.mpr ?_⟩
  exact hp.meets fun _ => ⟨rfl, by simp⟩

theorem Balanced.underLockOrTerminate {α : Type} {p : Code α} (hp : Balanced p ⟨true, none⟩) :
    Balanced (block w do lockOrTerminate; p) {} := by
  refine balanced_block ?_
  rw [meets_bind, meets_lockOrTerminate, then_some]
  exact hp.meets fun _ => ⟨rfl, by simp⟩

theorem Balanced.rethrowAfter {α : Type} {p : Code Unit} (hp : Balanced p h) :
    Balanced (rethrowAfter p : Code α) h :=
  hp.bind fun _ => balanced_throw

theorem balanced_pipeWriteOrTerminate : Balanced pipeWriteOrTerminate h :=
  balanced_attempt.tryCatch balanced_terminate

theorem balanced_removeRequestOrWake : Balanced removeRequestOrWake h :=
  balanced_attempt.tryCatch balanced_pipeWriteOrTerminate.rethrowAfter

theorem balanced_requestClosure : Balanced requestClosure h :=
  balanced_attempt.bind fun _ => balanced_attempt

theorem balanced_synchroniseOnWriteMutex : Balanced (synchroniseOnWriteMutex w) ⟨b, none⟩ :=
  balanced_block (by simp [Scope])

theorem balanced_interfaceStateCheck : Balanced interfaceStateCheck h :=
  balanced_decision.bind fun _ => .ite (balanced_pure _) <| balanced_decision.bind fun _ =>
    .ite (balanced_removeRequestOrWake.bind fun _ => balanced_pure _) (balanced_pure _)

theorem balanced_destroyRequest (live : Bool) : Balanced (destroyRequest live w) {} := by
  refine .ite (.underLockOrTerminate ?_) (balanced_pure _)
  refine balanced_decision.bind fun _ => .ite (.tryCatch ?_ balanced_pipeWriteOrTerminate)
    (balanced_pure _)
  refine balanced_decision.bind fun _ => .ite ?_ balanced_attempt
  exact balanced_synchroniseOnWriteMutex.bind fun _ => balanced_requestClosure.bind fun _ =>
    balanced_attempt

theorem balanced_abortStatus : Balanced (abortStatus w) {} := by
  refine balanced_decision.bind fun _ => ?_
  refine .ite balanced_decision (.underLock (balanced_decision.bind fun _ => ?_))
  refine .ite balanced_throw (balanced_decision.bind fun _ => ?_)
  exact .ite (balanced_removeRequestOrWake.bind fun _ => balanced_pure _) balanced_decision

/-! ### The write loop

`b` says whether the caller holds the interface mutex. -/

/-- Normally the lock objects own no mutex afterwards. -/
def Freed {α : Type} (w : Nat) (b : Bool) (r : Option α) (l : Locks) (h : Held) : Prop :=
  Scope w b l h ∧ (r ≠ none → l = {})

/-- The exception is thrown again. -/
theorem meets_wake {α : Type} {Q : Option α → Locks → Held → Prop} {l : Locks} :
    Meets (rethrowAfter pipeWriteOrTerminate) l h Q ↔ Q none l h := by
  simp [rethrowAfter, pipeWriteOrTerminate]

theorem meets_giveUpOrWake (force : Bool) :
    Meets (giveUpOrWake w force) ⟨!b, false⟩ ⟨true, none⟩ (Freed w b) := by
  cases b <;> simp [giveUpOrWake, requestClosure, meets_wake, Freed, Scope]

/-- The lambda is called without the write mutex, and without the interface
mutex when the caller does not hold it either. -/
theorem meets_tryToAddToClosureSet (force : Bool) :
    Meets (tryToAddToClosureSet w b force) {} ⟨b, none⟩ (Freed w b) := by
  cases b with
  | true =>
    simp only [tryToAddToClosureSet, if_true]
    exact meets_giveUpOrWake (b := true) force
  | false =>
    simp only [tryToAddToClosureSet, Bool.false_eq_true, if_false, meets_bind, meets_lockOrTerminate,
      then_some]
    refine balanced_interfaceStateCheck.meets fun r => ?_
    cases r with
    | none => exact ⟨⟨rfl, by simp⟩, by simp⟩
    | some valid =>
      cases valid with
      | true => exact meets_giveUpOrWake (b := false) force
      | false => simp [Freed, Scope]

theorem tried {Q : Option Bool → Locks → Held → Prop} (force : Bool)
    (hn : ∀ l h, Scope w b l h → Q none l h) (hs : ∀ a, Q (some a) {} ⟨b, none⟩) :
    Meets (tryToAddToClosureSet w b force) {} ⟨b, none⟩ Q := by
  refine (meets_tryToAddToClosureSet force).mono fun r l h hr => ?_
  obtain ⟨hscope, hfreed⟩ := hr
  cases r with
  | none => exact hn l h hscope
  | some a =>
    obtain rfl := hfreed (by simp)
    obtain ⟨rfl, -⟩ := hscope
    simpa using hs a

/-- The write mutex is released in every round that ends the loop. -/
theorem meets_writeRound :
    Meets (writeRound w b) ⟨false, true⟩ ⟨b, some w⟩ fun r l h =>
      Scope w b l h ∧ (r = some none → l = ⟨false, true⟩) := by
  have hfree : Scope w b {} ⟨b, none⟩ := ⟨by simp, fun _ => rfl⟩
  have hheld : Scope w b ⟨false, true⟩ ⟨b, some w⟩ := ⟨by simp, fun _ => rfl⟩
  simp only [writeRound, meets_bind, meets_decision, then_some, if_true, meets_unlockWrite,
    meets_pure, Bool.false_eq_true, if_false, meets_discard]
  refine ⟨⟨hfree, by simp⟩, ⟨⟨hheld, fun _ => trivial⟩, tried true ?_ ?_⟩, tried false ?_ ?_,
    tried true ?_ ?_⟩
  · exact fun l h hl => ⟨hl, by simp⟩
  · intro _
    rw [then_some, meets_pure, then_some, meets_bind, meets_decision]
    exact ⟨⟨hfree, by simp⟩, hfree, by simp⟩
  · exact fun l h hl => ⟨hl, by simp⟩
  · exact fun _ => ⟨hfree, by simp⟩
  · exact fun l h hl => ⟨hl, by simp⟩
  · exact fun _ => ⟨hfree, by simp⟩

/-- From the acquisition of the write mutex on. -/
theorem meets_writeUnderMutex :
    Meets (writeUnderMutex w b) ⟨!b, false⟩ ⟨true, none⟩ fun _ => Scope w b := by
  have hloop : Meets (loop (writeRound w b)) ⟨false, true⟩ ⟨b, some w⟩ fun _ => Scope w b := by
    refine meets_loop (I := fun l h => l = ⟨false, true⟩ ∧ h = ⟨b, some w⟩) ⟨rfl, rfl⟩ ?_
    rintro _ _ ⟨rfl, rfl⟩
    refine meets_writeRound.mono fun r l h hr => ?_
    cases r with
    | none => exact hr.1
    | some r =>
      cases r with
      | some a => exact hr.1
      | none =>
        obtain rfl := hr.2 rfl
        exact ⟨rfl, by simpa using hr.1.1⟩
  -- a corrupt connection: the mutexes are released at the end of the scope
  have hcorrupt : Scope w b ⟨!b, true⟩ ⟨true, some w⟩ := by cases b <;> exact ⟨rfl, by simp⟩
  have hfailed : Scope w b ⟨!b, false⟩ ⟨true, none⟩ := by cases b <;> exact ⟨rfl, by simp⟩
  simp only [writeUnderMutex, meets_bind, meets_lockWrite, then_some, then_none, meets_decision,
    if_true, Bool.false_eq_true, if_false, meets_attempt, meets_pure, meets_ownsInterface]
  refine ⟨hfailed, ⟨hcorrupt, hcorrupt⟩, ?_⟩
  cases b with
  | true => exact hloop
  | false =>
    simp only [Bool.not_false, if_true, meets_bind, meets_unlockInterface, then_some]
    exact hloop

theorem balanced_scatterGatherWriteHelper :
    Balanced (scatterGatherWriteHelper w b) ⟨b, none⟩ := by
  refine balanced_block ?_
  cases b with
  | true => exact meets_writeUnderMutex (b := true)
  | false =>
    simp only [Bool.false_eq_true, if_false, meets_bind, meets_lockInterface, then_some, then_none]
    refine ⟨⟨rfl, by simp⟩, balanced_interfaceStateCheck.meets fun r => ?_⟩
    cases r with
    | none => exact ⟨rfl, by simp⟩
    | some valid =>
      cases valid with
      | true => exact meets_writeUnderMutex (b := false)
      | false => exact ⟨rfl, by simp⟩

theorem balanced_writeHelper : Balanced (writeHelper w) {} := by
  refine balanced_decision.bind fun _ => .ite (balanced_pure _) (.loop ?_)
  refine balanced_decision.bind fun _ => .ite (balanced_pure _) (balanced_attempt.bind fun _ => ?_)
  exact balanced_scatterGatherWriteHelper.bind fun _ => .ite (balanced_pure _) (balanced_pure _)

theorem balanced_endRequestHelper : Balanced (endRequestHelper w) {} := by
  refine balanced_decision.bind fun _ => .ite (balanced_pure _) (.underLock ?_)
  refine balanced_interfaceStateCheck.bind fun _ => .ite ?_ (balanced_pure _)
  refine balanced_scatterGatherWriteHelper.bind fun _ => .ite ?_ (balanced_pure _)
  refine balanced_removeRequestOrWake.bind fun _ => balanced_decision.bind fun _ => ?_
  refine .ite (.bind (.tryCatch ?_ balanced_pipeWriteOrTerminate.rethrowAfter) fun _ =>
    balanced_pure _) (balanced_pure _)
  exact balanced_synchroniseOnWriteMutex.bind fun _ => balanced_requestClosure

end Requests

/-! ## Sending and receiving -/

section Connections

variable {w : Nat} {h : Held}

theorem balanced_sendRecord : Balanced (sendRecord w) {} := by
  refine balanced_attempt.bind fun _ => balanced_block ?_
  have hnone : Scope w false {} {} := ⟨rfl, by simp⟩
  have hwrite : Scope w false ⟨false, true⟩ ⟨false, some w⟩ := ⟨rfl, by simp⟩
  have hinterface : Scope w false ⟨true, false⟩ ⟨true, none⟩ := ⟨rfl, by simp⟩
  have hboth : Scope w false ⟨true, true⟩ ⟨true, some w⟩ := ⟨rfl, by simp⟩
  simp only [meets_bind, meets_decision, then_some, then_none, if_true, Bool.false_eq_true, if_false,
    meets_lockOrTerminate, meets_lockWrite, meets_unlockWrite, meets_attempt, meets_pure, meets_throw]
  exact ⟨hinterface, hnone, hwrite, hwrite, hinterface, hboth, hinterface, hinterface⟩

theorem balanced_sendInterfaceRecord : Balanced (sendInterfaceRecord w) {} :=
  balanced_attempt.bind fun _ => balanced_sendRecord

theorem balanced_scheduleClosure : Balanced (scheduleClosure w) {} :=
  .underLockOrTerminate (balanced_attempt.bind fun _ => balanced_attempt)

theorem Balanced.schedulingClosureOnThrow {α : Type} {p : Code α} (hp : Balanced p {}) :
    Balanced (schedulingClosureOnThrow w p) {} :=
  hp.tryCatch balanced_scheduleClosure.rethrowAfter

theorem balanced_underInterfaceMutex {p : Code Unit} (hp : Balanced p ⟨true, none⟩) :
    Balanced (underInterfaceMutex w p) {} :=
  hp.underLock

/-- The interface mutex is released between the two parts. -/
theorem balanced_completeStream : Balanced (completeStream w) {} := by
  refine balanced_block ?_
  have hfree : Scope w false {} {} := ⟨rfl, by simp⟩
  have hheld : Scope w false ⟨true, false⟩ ⟨true, none⟩ := ⟨rfl, by simp⟩
  simp only [meets_bind, meets_decision, then_some, then_none, if_true, Bool.false_eq_true, if_false,
    meets_lockInterface, meets_unlockInterface, meets_attempt, meets_pure]
  exact ⟨hfree, hheld, hfree, ⟨hfree, hheld, hheld⟩, hfree⟩

theorem balanced_processCompleteRecord : Balanced (processCompleteRecord w) {} := by
  have hsend : Balanced (discard (sendInterfaceRecord w)) {} := balanced_sendInterfaceRecord.discard
  have hsection : Balanced (underInterfaceMutex w attempt) {} :=
    balanced_underInterfaceMutex balanced_attempt
  refine .schedulingClosureOnThrow (balanced_decision.bind fun _ => ?_)
  refine .ite hsend (balanced_decision.bind fun _ => .ite (balanced_pure _) ?_)
  refine balanced_decision.bind fun _ => .ite ?_ ?_
  · exact hsection.bind fun _ => balanced_decision.bind fun _ => .ite hsend hsection
  refine balanced_decision.bind fun _ => .ite ?_ ?_
  · exact hsection.bind fun _ => balanced_decision.bind fun _ => .ite hsend (balanced_pure _)
  refine balanced_decision.bind fun _ => .ite ?_ balanced_attempt
  exact balanced_completeStream.bind fun _ => .ite hsend (balanced_pure _)

theorem balanced_updateAfterHeaderCompletion : Balanced (updateAfterHeaderCompletion w) {} :=
  balanced_decision.bind fun _ => .ite (balanced_pure _)
    (balanced_underInterfaceMutex balanced_attempt)

theorem balanced_processReceivedBytes : Balanced (processReceivedBytes w) {} := by
  have hcomplete : Balanced (do
      if ← decision then
        schedulingClosureOnThrow w do
          processCompleteRecord w
          attempt : Code Unit) {} := by
    refine balanced_decision.bind fun _ => .ite (.schedulingClosureOnThrow ?_) (balanced_pure _)
    exact balanced_processCompleteRecord.bind fun _ => balanced_attempt
  refine balanced_decision.bind fun _ => .ite (balanced_decision.bind fun _ => .ite ?_ hcomplete) ?_
  · exact .bind (.schedulingClosureOnThrow balanced_updateAfterHeaderCompletion) fun _ => hcomplete
  refine balanced_decision.bind fun _ => .ite ?_ (balanced_decision.bind fun _ => .ite ?_ hcomplete)
  · exact .bind (.schedulingClosureOnThrow balanced_attempt) fun _ => hcomplete
  · refine .bind (.underLockOrTerminate ?_) fun _ => hcomplete
    exact balanced_attempt.bind fun _ => balanced_attempt.tryCatch balanced_attempt.rethrowAfter

theorem balanced_readRecords : Balanced (readRecords w) {} := by
  refine .loop (balanced_decision.bind fun _ => .ite ?_ ?_)
  · refine balanced_scheduleClosure.bind fun _ => balanced_decision.bind fun _ => ?_
    exact .ite (balanced_pure _) balanced_throw
  · refine .bind (.repeatedly balanced_processReceivedBytes) fun _ => balanced_decision.bind fun _ => ?_
    exact .ite (balanced_pure _) (balanced_pure _)

end Connections

/-! ## FcgiServerInterface -/

theorem balanced_constructInterface : Balanced constructInterface {} :=
  balanced_attempt.bind fun _ => balanced_underInterfaceMutex balanced_attempt

theorem balanced_destroyRequests : Balanced destroyRequests {} :=
  .repeatedly (balanced_decision.bind fun live => balanced_someMutex.bind fun _ =>
    balanced_destroyRequest live)

theorem balanced_destroyInterface : Balanced destroyInterface {} := by
  refine .bind (.tryCatch (.underLock (.repeatedly ?_)) balanced_terminate) fun _ =>
    balanced_destroyRequests
  refine balanced_someMutex.bind fun w => balanced_block ?_
  simp [Scope]

theorem balanced_interfaceStatus : Balanced interfaceStatus {} := .underLock balanced_decision

theorem balanced_removeConnection (w : Nat) : Balanced (removeConnection w) ⟨true, none⟩ := by
  refine balanced_attempt.bind fun _ => .bind (balanced_block ?_) fun _ => .ite ?_ (balanced_pure _)
  · simp [Scope]
  · refine balanced_attempt.bind fun _ => balanced_decision.bind fun _ => ?_
    exact .ite balanced_terminate (balanced_pure _)

theorem balanced_cleanup : Balanced cleanup {} := by
  refine .underLock (balanced_attempt.bind fun _ => .repeatedly ?_)
  refine balanced_someMutex.bind fun w => (balanced_removeConnection w).bind fun _ => ?_
  exact .ite (balanced_pure _) balanced_throw

theorem balanced_acceptConnection : Balanced acceptConnection {} := by
  refine balanced_attempt.bind fun _ => balanced_decision.bind fun _ => .ite balanced_decision ?_
  refine .bind (balanced_underInterfaceMutex (.tryCatch balanced_attempt ?_)) fun _ => balanced_pure _
  exact (balanced_attempt.tryCatch balanced_terminate).rethrowAfter

/-- The object that could not be put into the vector is destroyed without the
interface mutex. -/
theorem balanced_acceptFromConnection (w : Nat) : Balanced (acceptFromConnection w) {} := by
  refine balanced_readRecords.bind fun _ => balanced_decision.bind fun _ => .ite (balanced_block ?_)
    (balanced_pure _)
  have hfree : Scope w false {} {} := ⟨rfl, by simp⟩
  have hheld : Scope w false ⟨true, false⟩ ⟨true, none⟩ := ⟨rfl, by simp⟩
  simp only [meets_bind, meets_lockInterface, then_some, then_none, meets_attempt]
  refine ⟨hfree, hheld, ?_⟩
  refine meets_repeatedly (I := fun l h => l = ⟨true, false⟩ ∧ h = ⟨true, none⟩) ⟨rfl, rfl⟩ ?_ ?_
  · rintro _ _ ⟨rfl, rfl⟩
    simp only [meets_bind, meets_attempt, then_some, then_none, meets_tryCatch, handled_some,
      handled_none, meets_unlockInterface]
    refine ⟨hheld, ?_, ?_⟩
    · refine (balanced_destroyRequest true).meets fun r => ?_
      cases r <;> exact hfree
    · -- the object left behind is null
      exact ⟨rfl, rfl⟩
  · rintro _ _ ⟨rfl, rfl⟩
    exact hheld

theorem balanced_saveRequests : Balanced saveRequests {} := by
  refine .underLockOrTerminate (balanced_decision.bind fun _ => .ite ?_ balanced_throw)
  refine balanced_attempt.bind fun _ => balanced_decision.bind fun _ => .ite ?_ balanced_throw
  exact (balanced_attempt.tryCatch balanced_terminate).bind fun _ => balanced_throw

theorem balanced_acceptSelected : Balanced acceptSelected {} := by
  refine .tryCatch (.bind (.repeatedly ?_) fun _ => .loop ?_) ?_
  · exact balanced_someMutex.bind fun w => balanced_acceptFromConnection w
  · exact balanced_acceptConnection.bind fun _ => .ite (balanced_pure _) (balanced_pure _)
  · exact balanced_decision.bind fun _ => .ite balanced_throw balanced_saveRequests

theorem balanced_acceptRequests : Balanced acceptRequests {} := by
  refine balanced_decision.bind fun _ => .ite (balanced_pure _) (balanced_cleanup.bind fun _ => ?_)
  refine balanced_decision.bind fun _ => .ite (balanced_pure _) (balanced_decision.bind fun _ => ?_)
  refine .ite (balanced_decision.bind fun _ => .ite ?_ balanced_throw) ?_
  · refine .bind (.tryCatch ?_ balanced_terminate) fun _ => balanced_throw
    exact balanced_underInterfaceMutex (balanced_pure _)
  · refine (balanced_underInterfaceMutex balanced_attempt).bind fun _ => ?_
    exact balanced_acceptSelected.tryCatch balanced_destroyRequests.rethrowAfter

/-! ## Threads -/

theorem Balanced.toplevel {α : Type} {p : Code α} (hp : Balanced p {}) :
    Locking.Obeys hierarchy (fun _ h => h = hierarchy.nothing) (toplevel p) hierarchy.nothing :=
  Locking.obeys_bind.mpr (Locking.Obeys.mono (hp {}) fun _ _ hr => hr.2)

/-- Every call keeps to the hierarchy and ends without a mutex. -/
theorem obeys_of_calls {i : Nat} {p : Locking Mutex Unit} (hp : Calls i p) :
    Locking.Obeys hierarchy (fun _ h => h = hierarchy.nothing) p hierarchy.nothing := by
  rcases hp with hp | ⟨-, hp⟩
  · cases hp with
    | write w => exact balanced_writeHelper.toplevel
    | endRequest w => exact balanced_endRequestHelper.toplevel
    | abortStatus w => exact balanced_abortStatus.toplevel
    | destroy live w => exact (balanced_destroyRequest live).toplevel
  · cases hp with
    | construct => exact balanced_constructInterface.toplevel
    | accept => exact balanced_acceptRequests.toplevel
    | status => exact balanced_interfaceStatus.toplevel
    | destroy => exact balanced_destroyInterface.toplevel

open Locking.Threads

/-- Whatever the threads do, no thread that is about to lock the interface mutex
owns it or a write mutex, none that is about to lock a write mutex owns it, and
there is no cycle of threads each waiting for a mutex of the next. -/
theorem deadlock_free {s : Locking.Threads Mutex} (h : Reachable Calls s) :
    (∀ i, (s.code i).awaits = some .interface → ∀ m, s.owner m ≠ some i) ∧
    (∀ i w, (s.code i).awaits = some (.write w) → s.owner (.write w) ≠ some i) ∧
    ∀ i, ¬ Relation.TransGen s.WaitsFor i i := by
  have hordered := ordered_of_reachable (fun _ _ => obeys_of_calls) h
  refine ⟨fun i hi m hm => ?_, fun i w hi hm => ?_, fun i => hordered.acyclic i⟩
  · exact Nat.not_lt_zero _ (hordered.below hi hm)
  · exact Nat.lt_irrefl _ (hordered.below hi hm)

/-- Thread 1 is in a write on connection 5, thread 2 destroys a request of the
same connection, and `AcceptRequests` has been called. -/
def contended : Locking.Threads Mutex where
  code := Function.update (Function.update (Function.update (fun _ => .ret ())
    0 (toplevel acceptRequests)) 1 (toplevel (writeHelper 5))) 2 (toplevel (destroyRequest true 5))

theorem reachable_contended : Reachable Calls contended :=
  .call (.call (.call .initial (.inr ⟨rfl, .accept⟩) (i := 0) rfl) (.inl (.write 5)) (i := 1) rfl)
    (.inl (.destroy true 5)) (i := 2) rfl

/-- Thread 1 takes the write mutex, thread 2 the interface mutex. -/
def contention : List (Nat × Nat) :=
  [(1, 1), (1, 1), (1, 1), (1, 0), (1, 0), (1, 0), (1, 1), (1, 1), (1, 0), (1, 0), (1, 1), (1, 0),
    (2, 0), (2, 0), (2, 0), (2, 0), (2, 0), (0, 1), (0, 0)]

theorem deadlock_free_contention : ∃ s, Reachable Calls s ∧
    (s.code 0).awaits = some .interface ∧ s.owner .interface = some 2 ∧
    (s.code 2).awaits = some (.write 5) ∧ s.owner (.write 5) = some 1 ∧
    ∀ i, ¬ Relation.TransGen s.WaitsFor i i := by
  have hrun : ((contended.runAll contention).map fun s =>
      ((s.code 0).awaits, s.owner .interface, (s.code 2).awaits, s.owner (.write 5))) =
      some (some .interface, some 2, some (.write 5), some 1) := by decide +kernel
  obtain ⟨s, hs, he⟩ := Option.map_eq_some_iff.mp hrun
  simp only [Prod.mk.injEq] at he
  have hreachable := reachable_runAll reachable_contended hs
  exact ⟨s, hreachable, he.1, he.2.1, he.2.2.1, he.2.2.2, (deadlock_free hreachable).2.2⟩

end AsComponents.LockUse
