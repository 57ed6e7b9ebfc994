import AsComponents.Rests

/-! The invariant of the server, and what the steps of request threads leave
unchanged for the interface thread. -/

namespace AsComponents.Server

open Protocol NameValue SocketFunctions AsComponents.Partition Std

structure Invariant (s : System) : Prop where
  limits : s.limits.Posix
  tables : Tables s
  closes : Closes s
  counts : Counts s
  objects : Objects s
  wires : Wires s
  begins : Begins s
  traces : Traces s
  rests : Rests s

namespace Invariant

variable {s t : System}

theorem limits_retired (s : System) (i : Nat) (o : FcgiRequest) (n : Nat) :
    (s.retired i o n).limits = s.limits := rfl

theorem limits_offered (s : System) (c : Nat) (m : WriteMutex) (origin : Option Nat) (bytes : Bytes)
    (socket : Socket) (accepted : Nat) (corrupt : Bool) :
    (s.offered c m origin bytes socket accepted corrupt).limits = s.limits := rfl

theorem limits_requestMove {i : Nat} (hm : RequestMove i s t) : t.limits = s.limits := by
  cases hm with
  | conclude => rw [limits_retired, limits_offered]
  | _ => rfl

theorem limits_interfaceMove {loose : Option Nat} (hm : InterfaceMove loose s t) :
    t.limits = s.limits := by
  cases hm with
  | request i hm => exact limits_requestMove hm
  | _ => rfl

theorem requestMove (h : Invariant s) {i : Nat} (hm : RequestMove i s t) : Invariant t where
  limits := limits_requestMove hm ▸ h.limits
  tables := h.tables.requestMove hm
  closes := h.closes.requestMove hm
  counts := h.counts.requestMove hm
  objects := h.objects.requestMove hm
  wires := h.wires.requestMove h.tables h.objects hm
  begins := h.begins.requestMove hm
  traces := h.traces.requestMove h.begins h.objects h.wires hm
  rests := h.rests.requestMove h.tables h.objects h.wires hm

theorem interfaceMove (h : Invariant s) {loose : Option Nat} (hm : InterfaceMove loose s t) :
    Invariant t where
  limits := limits_interfaceMove hm ▸ h.limits
  tables := h.tables.interfaceMove hm
  closes := h.closes.interfaceMove h.tables hm
  counts := h.counts.interfaceMove h.tables hm
  objects := h.objects.interfaceMove h.tables hm
  wires := h.wires.interfaceMove h.tables h.objects hm
  begins := h.begins.interfaceMove h.tables h.objects hm
  traces := h.traces.interfaceMove h.begins h.objects h.wires hm
  rests := h.rests.interfaceMove h.tables h.objects h.wires h.traces hm

/-- A newly constructed interface. -/
theorem initial (h : Initial s) : Invariant s := by
  have hdead : ∀ i, ¬ s.Live i := fun i hl => h.stale i hl.1
  have hnowriting : ∀ i, ¬ (s.requests i).call.Writing := by
    intro i hi
    obtain ⟨rest, type, iovec, working, total, hc⟩ := Wires.writing_iff.mp hi
    exact h.notWriting i rest type iovec working total hc
  constructor
  · exact h.limits
  · constructor <;>
      simp [h.recordStatusMap, h.dummyDescriptorSet, h.writeMutexMap, h.closureRequestSet,
        h.requestCountMap, h.requestMap, h.descriptors]
  · constructor <;> simp [h.log, h.descriptors]
  · constructor <;> simp [h.requestCountMap]
  · constructor
    · exact h.nextRequest
    · simp [h.requestMap]
    · simp [h.requestMap]
    · intro _ i hi
      exact absurd hi (hdead i)
    · simp [h.requestMap]
    · intro _ i j hi
      exact absurd hi (hdead i)
    · intro i hi
      rw [h.notHeld i] at hi
      cases hi
    · exact h.idle
    · intro i
      cases hc : (s.requests i).call with
      | looping rest type => exact h.looping i rest type hc
      | writing rest type iovec working total =>
        exact absurd hc (h.notWriting i rest type iovec working total)
      | _ => trivial
    · simp [h.requestMap]
    · simp [h.log]
  · constructor
    · intro k _
      exact ⟨h.sockets k, h.transmissions k⟩
    · intro k
      rw [h.sockets k, h.transmissions k]
      rfl
    · simp [h.transmissions]
    · simp [h.transmissions]
    · intro k
      rw [h.transmissions k]
      exact List.Pairwise.nil
    · simp [h.transmissions]
    · simp [h.writeMutexMap]
    · intro i rest type iovec working total hc
      exact absurd hc (h.notWriting i rest type iovec working total)
  · constructor <;> simp [h.log, h.requestMap, System.EndedByInterface]
  · constructor
    · simp [h.transmissions, origins]
    · simp [h.transmissions, origins]
    · simp [h.requestMap]
    · simp [h.log]
    · intro n k f _ hb
      obtain ⟨a, ha⟩ := hb
      simp [h.log] at ha
    · simp [h.log]
  · constructor
    · intro _ i hi
      exact absurd hi (hdead i)
    · intro _ i hi
      exact absurd hi (hnowriting i)

end Invariant

/-! ## Sequences of moves -/

/-- The moves of the thread that uses object `i`. -/
abbrev RequestMoves (i : Nat) : System → System → Prop := Relation.ReflTransGen (RequestMove i)

/-- The moves of the interface thread. -/
abbrev InterfaceMoves (loose : Option Nat) : System → System → Prop :=
  Relation.ReflTransGen (InterfaceMove loose)

theorem Invariant.requestMoves {s t : System} (h : Invariant s) {i : Nat}
    (hm : RequestMoves i s t) : Invariant t := by
  induction hm with
  | refl => exact h
  | tail _ hm ih => exact ih.requestMove hm

theorem Invariant.interfaceMoves {s t : System} (h : Invariant s) {loose : Option Nat}
    (hm : InterfaceMoves loose s t) : Invariant t := by
  induction hm with
  | refl => exact h
  | tail _ hm ih => exact ih.interfaceMove hm

theorem RequestMoves.interface {s t : System} {i : Nat} (hm : RequestMoves i s t)
    (loose : Option Nat) : InterfaceMoves loose s t :=
  Relation.ReflTransGen.mono (fun _ _ => InterfaceMove.request i) _ _ hm

/-! ## Connections that are scheduled for closure -/

/-- No request thread holds the write mutex of a connection that is scheduled
for closure, the connection `loose` apart. -/
def Quiet (loose : Option Nat) (s : System) : Prop :=
  s.badInterfaceStateDetected = false →
    ∀ c, c ∈ s.applicationClosureRequestSet → loose ≠ some c → s.owner c = none

namespace Quiet

variable {s t : System} {loose : Option Nat}

theorem congr (h : Quiet loose s)
    (hb : t.badInterfaceStateDetected = false → s.badInterfaceStateDetected = false)
    (hc : ∀ c, c ∈ t.applicationClosureRequestSet →
      c ∈ s.applicationClosureRequestSet ∨ t.owner c = none ∨ loose = some c)
    (ho : ∀ c, c ∈ s.applicationClosureRequestSet → s.owner c = none → t.owner c = none) :
    Quiet loose t := by
  intro hbt c hct hl
  rcases hc c hct with hcs | hn | he
  · exact ho c hcs (h (hb hbt) c hcs hl)
  · exact hn
  · exact absurd he hl

theorem weaken (h : Quiet none s) (loose : Option Nat) : Quiet loose s :=
  fun hb c hc _ => h hb c hc (by simp)

/-- The write mutex of the connection in question was seen to be free. -/
theorem tighten {c : Nat} (h : Quiet (some c) s) (ho : s.owner c = none) : Quiet none s := by
  intro hb c' hc' _
  by_cases he : c = c'
  · subst he
    exact ho
  · exact h hb c' hc' (by simpa using he)

theorem of_bad (h : s.badInterfaceStateDetected = true) : Quiet loose s := by
  intro hb
  rw [h] at hb
  cases hb

theorem owner_eq {c : Nat} {m : WriteMutex} (hm : s.writeMutexMap[c]? = some m) :
    s.owner c = m.owner := by
  simp [System.owner, hm]

/-- The owner of a connection whose mutex was replaced. -/
theorem owner_insert {c c' : Nat} {m : WriteMutex}
    (h : t.writeMutexMap = s.writeMutexMap.insert c m) :
    t.owner c' = if c = c' then m.owner else s.owner c' := by
  simp only [System.owner, h]
  grind

theorem offered (h : Quiet loose s) {m : WriteMutex} (hm : m.owner = none) (c : Nat)
    (origin : Option Nat) (bytes : Bytes) (socket : Socket) (accepted : Nat) (corrupt : Bool) :
    Quiet loose (s.offered c m origin bytes socket accepted corrupt) := by
  refine h.congr id (fun c hc => .inl hc) ?_
  intro c' _ ho
  rw [owner_insert (s := s) rfl]
  split
  · exact hm
  · exact ho

theorem retired (h : Quiet loose s) (i : Nat) (o : FcgiRequest) (n : Nat) :
    Quiet loose (s.retired i o n) :=
  h.congr id (fun _ hc => .inl hc) fun _ _ ho => ho

theorem requestMove (h : Quiet loose s) {i : Nat} (hm : RequestMove i s t) : Quiet loose t := by
  cases hm with
  | conclude _ _ _ _ _ hoffer => exact (h.offered hoffer.free _ _ _ _ _ _).retired i _ _
  | @schedule c m hm hfree =>
    refine h.congr id ?_ fun c _ ho => ho
    intro c' hc'
    simp only [ExtTreeSet.mem_insert] at hc'
    rcases hc' with he | hc'
    · obtain rfl : c = c' := by simpa using he
      exact .inr (.inl ((owner_eq hm).trans hfree))
    · exact .inl hc'
  | bad => exact of_bad rfl
  | @acquire d m rest bytes type iovec owns _ _ hm _ _ _ hscheduled =>
    refine h.congr id (fun c hc => .inl hc) ?_
    intro c hc ho
    rw [owner_insert (s := s) rfl, if_neg]
    · exact ho
    · rintro rfl
      exact hscheduled hc
  | leave =>
    refine h.congr id (fun c hc => .inl hc) ?_
    intro c _ ho
    rw [owner_insert (s := s) rfl]
    split
    · rfl
    · exact ho
  | _ => exact h.congr id (fun c hc => .inl hc) fun c _ ho => ho

theorem interfaceMove (h : Quiet loose s) (hm : InterfaceMove loose s t) : Quiet loose t := by
  cases hm with
  | request i hm => exact h.requestMove hm
  | @schedule c _ hfree =>
    refine h.congr id ?_ fun c _ ho => ho
    intro c' hc'
    simp only [ExtTreeSet.mem_insert] at hc'
    rcases hc' with he | hc'
    · obtain rfl : c = c' := by simpa using he
      exact .inr hfree
    · exact .inl hc'
  | send hoffer => exact h.offered hoffer.free _ _ _ _ _ _
  | @closeConnection c m hm =>
    refine h.congr id ?_ ?_
    · intro c' hc'
      left
      have hc'' : c' ∈ s.applicationClosureRequestSet.erase c := hc'
      grind
    · intro c' _ ho
      simp only [System.owner] at ho ⊢
      grind
  | @makeDummy c m requests hm =>
    refine h.congr id ?_ ?_
    · intro c' hc'
      left
      have hc'' : c' ∈ s.applicationClosureRequestSet.erase c := hc'
      grind
    · intro c' _ ho
      simp only [System.owner] at ho ⊢
      grind
  | closureSet hb => exact of_bad hb
  | @register c _ hclosed =>
    refine h.congr id (fun c hc => .inl hc) ?_
    intro c' _ ho
    rw [owner_insert (s := s) rfl]
    split
    · rfl
    · exact ho
  | destroy =>
    intro _ c hc
    simp at hc
  | _ => exact h.congr id (fun c hc => .inl hc) fun c _ ho => ho

theorem interfaceMoves (h : Quiet loose s) (hm : InterfaceMoves loose s t) : Quiet loose t := by
  induction hm with
  | refl => exact h
  | tail _ hm ih => exact ih.interfaceMove hm

end Quiet

end AsComponents.Server
