import AsComponents.Signals

/-! Rules for the programs of the interface thread. -/

namespace AsComponents.Server

open Protocol NameValue SocketFunctions AsComponents.Partition Std Critical

/-- What a statement about runs assumes of them. -/
structure Assumptions where
  /-- The write mutex is free whenever the interface thread schedules a
  connection for closure without waiting for it. -/
  sync : Prop
  /-- No request thread removes the request of the cached iterator. -/
  fresh : Prop

/-- The cached iterator is `end()` or points to an element of the map. -/
def System.CachePresent (s : System) : Prop :=
  ∀ it, s.localRequestIter = some it → ∃ d, s.lookup it = some d

/-- The header of an application record is complete and was accepted. -/
def RecordStatus.Accepts (rs : RecordStatus) : Prop :=
  rs.IsHeaderComplete ∧ rs.invalidatedByHeader = false ∧ rs.requestId.fcgiId ≠ fcgiNullRequestId

/-- A record in progress agrees with the requests of its connection. -/
structure Received (s : System) (c : Nat) (rs : RecordStatus) : Prop where
  descriptor : rs.IsHeaderComplete → rs.requestId.descriptor = c
  begins : rs.Accepts → rs.type = kFcgiBeginRequest → s.requestMap[rs.requestId]? = none
  stream : rs.Accepts → ∀ st, Stream.ofType rs.type = some st →
    ∃ d, s.requestMap[rs.requestId]? = some d ∧ d.requestStatus = .requestPending ∧
      d.completion st = false

/-- Only the record status of a connection that is to be closed may be out of
date. -/
def System.Current (s : System) : Prop :=
  s.badInterfaceStateDetected = false → ∀ (c : Nat) (rs : RecordStatus),
    s.recordStatusMap[c]? = some rs → Received s c rs ∨ c ∈ s.applicationClosureRequestSet

/-- Nothing is promised when the section is entered. -/
def Label.Plain : Label → Prop
  | .cleanup | .select => False
  | .scheduleClosure _ | .section => True

/-- What a section of the interface thread leaves to the other threads. -/
structure Sound (A : Assumptions) (s t : System) : Prop where
  moves : ∃ loose, InterfaceMoves loose s t
  halt : A.fresh → t.halt ≠ some .danglingIterator

/-- The steps of the request threads between two sections. -/
structure Rely (A : Assumptions) (s t : System) : Prop where
  interference : Interference s t
  present : A.fresh → s.CachePresent → t.CachePresent
  awake : s.Awake → t.halt = none → t.Awake

def contract (A : Assumptions) : Program.Contract Label System where
  rely := Rely A
  given l t := Invariant t ∧ t.halt = none ∧
    (A.sync → ∀ c, l = .scheduleClosure c → t.badInterfaceStateDetected = false → t.owner c = none)
  promised l t := (l = .cleanup → (A.sync → Quiet none t) ∧ t.Current) ∧ (l = .select → t.Awake)
  guarantee := Sound A
  rely_trans h h' :=
    { interference := h.interference.trans h'.interference
      present := fun hf hs => h'.present hf (h.present hf hs)
      awake := fun hs hu => h'.awake (h.awake hs (h'.interference.not_halted hu)) hu }

theorem Label.Plain.promised {A : Assumptions} {l : Label} (h : l.Plain) (s : System) :
    (contract A).promised l s := by
  cases l with
  | cleanup | select => exact h.elim
  | _ => exact ⟨by simp, by simp⟩

theorem Rely.refl {A : Assumptions} (s : System) : Rely A s s :=
  ⟨.refl s, fun _ hs => hs, fun hs _ => hs⟩

/-- A condition that no step of another thread makes false. -/
def Stable (A : Assumptions) (P : System → Prop) : Prop :=
  ∀ s t, P s → Rely A s t → t.halt = none → P t

/-- A program of the interface thread started in a state satisfying `P` keeps
the contract; unless the process stops it returns in a state satisfying `Q` or
throws in one satisfying `E`. -/
def Keeps {α : Type} (A : Assumptions) (P : System → Prop) (p : Thread α) (Q : α → System → Prop)
    (E : Failure → System → Prop) : Prop :=
  ∀ s, (s.halt = none → P s) →
    Program.Safe (contract A) (fun a t => t.halt = none → Q a t) (fun e t => t.halt = none → E e t) p s

section Rules

variable {α β : Type} {A : Assumptions} {P : System → Prop} {Q : α → System → Prop}
  {E : Failure → System → Prop}

theorem Stable.and {P' : System → Prop} (h : Stable A P) (h' : Stable A P') :
    Stable A fun s => P s ∧ P' s :=
  fun s t hp hr hh => ⟨h s t hp.1 hr hh, h' s t hp.2 hr hh⟩

theorem Keeps.mono {P' : System → Prop} {Q' : α → System → Prop} {E' : Failure → System → Prop}
    {p : Thread α} (h : Keeps A P p Q E) (hP : ∀ s, P' s → P s) (hQ : ∀ a s, Q a s → Q' a s)
    (hE : ∀ e s, E e s → E' e s) : Keeps A P' p Q' E' := by
  intro s hs
  refine Program.safe_mono ?_ ?_ (h s fun hh => hP s (hs hh))
  · exact fun a t ht hh => hQ a t (ht hh)
  · exact fun e t ht hh => hE e t (ht hh)

theorem keeps_ret (a : α) (h : ∀ s, P s → Q a s) : Keeps A P (.ret a) Q E :=
  fun s hs hh => h s (hs hh)

theorem keeps_pure (a : α) (h : ∀ s, P s → Q a s) : Keeps A P (pure a) Q E :=
  keeps_ret a h

theorem keeps_throw (e : Failure) (h : ∀ s, P s → E e s) :
    Keeps A P (.throw e : Thread α) Q E :=
  fun s hs hh => h s (hs hh)

theorem Keeps.bind {Q' : β → System → Prop} {p : Thread α} {g : α → Thread β}
    (hp : Keeps A P p Q E) (hg : ∀ a, Keeps A (Q a) (g a) Q' E) : Keeps A P (p >>= g) Q' E := by
  intro s hs
  exact Program.safe_bind (hp s hs) fun a t ht => hg a t ht

theorem Keeps.tryCatch {E' : Failure → System → Prop} {p : Thread α} {g : Failure → Thread α}
    (hp : Keeps A P p Q E) (hg : ∀ e, Keeps A (E e) (g e) Q E') :
    Keeps A P (Program.tryCatch p g) Q E' := by
  intro s hs
  exact Program.safe_tryCatch (hp s hs) fun e t ht => hg e t ht

theorem Keeps.ite {c : Prop} [Decidable c] {p q : Thread α} (hp : c → Keeps A P p Q E)
    (hq : ¬ c → Keeps A P q Q E) : Keeps A P (if c then p else q) Q E := by
  by_cases hc : c
  · rw [if_pos hc]
    exact hp hc
  · rw [if_neg hc]
    exact hq hc

theorem keeps_blocked : Keeps A P (Program.blocked .section : Thread α) Q E := by
  intro s _
  exact Program.safe_blocked fun t => ⟨by simp, by simp⟩

/-- A program whose process has stopped does nothing. -/
theorem keeps_absurd {p : Thread α} (h : ∀ s, ¬ P s) : Keeps A P p Q E := by
  intro s hs
  have hstop : s.halt ≠ none := fun hn => h s (hs hn)
  cases p with
  | ret a => exact fun hn => absurd hn hstop
  | throw e => exact fun hn => absurd hn hstop
  | act l f k => exact fun t hr hg => absurd (hr.interference.not_halted hg.2.1) hstop

/-- A fact that does not depend on the state. -/
theorem keeps_of {p : Thread α} {φ : Prop} (hφ : ∀ s, P s → φ) (h : φ → Keeps A P p Q E) :
    Keeps A P p Q E := by
  by_cases hp : φ
  · exact h hp
  · exact keeps_absurd fun s hs => hp (hφ s hs)

/-- One section. -/
theorem keeps_atomicallyAs {l : Label} {f : SystemReply → Section α} (stable : Stable A P)
    (promised : ∀ s, P s → (contract A).promised l s)
    (h : ∀ (s : System) (reply : SystemReply), Invariant s → s.halt = none → P s →
      (A.sync → ∀ c, l = .scheduleClosure c → s.badInterfaceStateDetected = false →
        s.owner c = none) →
      After (f reply) s (fun a t => Sound A s t ∧ (t.halt = none → Q a t))
        (fun e t => Sound A s t ∧ (t.halt = none → E e t))) :
    Keeps A P (atomicallyAs l f) Q E := by
  intro s hs
  refine Program.safe_atomic fun t hr hg => ⟨?_, ?_⟩
  all_goals have hp : P t := stable s t (hs (hr.interference.not_halted hg.2.1)) hr hg.2.1
  · exact promised t hp
  · intro reply r u hf
    have hafter := h t reply hg.1 hg.2.1 hp hg.2.2
    cases r with
    | ok a =>
      obtain ⟨hsound, hq⟩ := hafter.of_ok hf
      refine ⟨hsound, ?_, by simp⟩
      intro b hb
      cases hb
      exact hq
    | error e =>
      obtain ⟨hsound, he⟩ := hafter.of_error hf
      refine ⟨hsound, by simp, ?_⟩
      intro b hb
      cases hb
      exact he

/-- A section that no statement about runs mentions. -/
theorem keeps_atomically {f : SystemReply → Section α} (stable : Stable A P)
    (h : ∀ (s : System) (reply : SystemReply), Invariant s → s.halt = none → P s →
      After (f reply) s (fun a t => Sound A s t ∧ (t.halt = none → Q a t))
        (fun e t => Sound A s t ∧ (t.halt = none → E e t))) :
    Keeps A P (atomically f) Q E :=
  keeps_atomicallyAs stable (fun s _ => Label.Plain.promised (l := .section) trivial s)
    fun s reply hi hh hp _ => h s reply hi hh hp

end Rules

/-- Sections after which the process goes on. -/
theorem Sound.of_moves {A : Assumptions} {s t : System} {loose : Option Nat} (hs : s.halt = none)
    (hm : InterfaceMoves loose s t) (ht : t.halt = s.halt) : Sound A s t :=
  ⟨⟨loose, hm⟩, fun _ he => by rw [ht, hs] at he; cases he⟩

theorem Sound.of_move {A : Assumptions} {s t : System} (hs : s.halt = none)
    (hm : InterfaceMove none s t) (ht : t.halt = s.halt) : Sound A s t :=
  .of_moves hs (.single hm) ht

theorem Sound.refl {A : Assumptions} {s : System} (hs : s.halt = none) : Sound A s s :=
  .of_moves hs (.refl : InterfaceMoves none s s) rfl

end AsComponents.Server
