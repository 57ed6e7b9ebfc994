import AsComponents.Accepting

/-! The invariants hold in every configuration that a run reaches. -/

namespace AsComponents.Server

open Protocol NameValue SocketFunctions AsComponents.Partition Std Critical

/-! ## The destructor of the interface -/

section Destruction

variable {s : System}

/-- What closing a list of descriptors leaves. -/
def System.closedAll (s : System) (cs : List Nat) : System :=
  { s with
    descriptors := cs.foldl (fun m c => m.erase c) s.descriptors
    log := (cs.reverse.map fun c =>
      .closed c ((s.descriptors[c]?).map (·.socket)) (s.assigned c) true) ++ s.log }

/-- The first descriptor is closed, then the others. -/
theorem closedAll_cons {t : System} {c : Nat} {cs : List Nat} (h : c ∉ cs)
    (ht : t = { s with
      descriptors := s.descriptors.erase c
      log := .closed c ((s.descriptors[c]?).map (·.socket)) (s.assigned c) true :: s.log }) :
    t.closedAll cs = s.closedAll (c :: cs) := by
  subst ht
  have hlog : (cs.reverse.map fun c' =>
      Event.closed c' (((s.descriptors.erase c)[c']?).map (·.socket)) (s.assigned c') true) =
      cs.reverse.map fun c' =>
        .closed c' ((s.descriptors[c']?).map (·.socket)) (s.assigned c') true := by
    refine List.map_congr_left fun c' hc' => ?_
    have hne : c ≠ c' := by
      rintro rfl
      exact h (List.mem_reverse.mp hc')
    have hsame : (s.descriptors.erase c)[c']? = s.descriptors[c']? := by grind
    rw [hsame]
  have hlist : (cs.reverse.map fun c' =>
      Event.closed c' (((s.descriptors.erase c)[c']?).map (·.socket)) (s.assigned c') true) ++
        .closed c ((s.descriptors[c]?).map (·.socket)) (s.assigned c) true :: s.log =
      ((c :: cs).reverse.map fun c' =>
        .closed c' ((s.descriptors[c']?).map (·.socket)) (s.assigned c') true) ++ s.log := by
    rw [hlog, List.reverse_cons, List.map_append, List.append_assoc]
    rfl
  exact congrArg (fun l => ({ s with
    descriptors := cs.foldl (fun m c => m.erase c) (s.descriptors.erase c), log := l } : System)) hlist

theorem after_closeAll {cs : List Nat} (h : cs.Nodup) {Q : PUnit → System → Prop}
    {E : Failure → System → Prop} :
    After (cs.forM fun c => closeDescriptor c true) s Q E ↔ Q ⟨⟩ (s.closedAll cs) := by
  induction cs generalizing s with
  | nil => exact Iff.rfl
  | cons c cs ih =>
    obtain ⟨hc, h⟩ := List.nodup_cons.mp h
    show After (closeDescriptor c true >>= fun _ => cs.forM fun c => closeDescriptor c true) s Q E ↔ _
    rw [after_bind, closeDescriptor, after_modify, ih h, closedAll_cons hc rfl]

theorem mem_foldl_erase {m : ExtTreeMap Nat Descriptor} {cs : List Nat} {c : Nat} :
    c ∈ cs.foldl (fun m c => m.erase c) m ↔ c ∈ m ∧ c ∉ cs := by
  induction cs generalizing m with
  | nil => simp
  | cons c' cs ih =>
    rw [List.foldl_cons, ih, ExtTreeMap.mem_erase]
    grind

theorem closedAll_append {cs cs' : List Nat} (h : (cs ++ cs').Nodup) :
    (s.closedAll cs).closedAll cs' = s.closedAll (cs ++ cs') := by
  induction cs generalizing s with
  | nil => rfl
  | cons c cs ih =>
    obtain ⟨hc, h⟩ := List.nodup_cons.mp h
    have hc' : c ∉ cs := fun hmem => hc (List.mem_append_left _ hmem)
    rw [← closedAll_cons hc' rfl, ih h]
    exact closedAll_cons hc rfl

theorem nodup_keys (m : ExtTreeMap Nat WriteMutex) : m.keys.Nodup := by
  refine m.distinct_keys.imp fun hne he => ?_
  subst he
  exact hne compare_self

/-- The destructor closes every descriptor. -/
theorem after_destroyInterface (h : Invariant s) :
    After destroyInterface s
      (fun _ t => InterfaceMove none s t ∧ t.halt = s.halt ∧ t.descriptors = ∅)
      (fun _ _ => False) := by
  rw [destroyInterface, after_bind, after_await]
  intro hfree
  rw [after_bind, after_get, after_bind, after_closeAll (nodup_toList _), after_bind, after_get,
    after_bind, after_closeAll (nodup_keys _), after_modify]
  have hnodup : (s.dummyDescriptorSet.toList ++ s.writeMutexMap.keys).Nodup := by
    refine List.nodup_append.mpr ⟨nodup_toList _, nodup_keys _, ?_⟩
    rintro c hc c' hc' rfl
    rw [ExtTreeSet.mem_toList] at hc
    rw [ExtTreeMap.mem_keys] at hc'
    exact h.tables.dummy_disjoint c hc hc'
  have hall : ∀ c, c ∈ s.dummyDescriptorSet.toList ++ s.writeMutexMap.keys ↔ c ∈ s.descriptors := by
    intro c
    rw [List.mem_append, ExtTreeSet.mem_toList, ExtTreeMap.mem_keys, h.tables.descriptors_iff]
    exact or_comm
  have hfree' : ∀ (c : Nat) (m : WriteMutex), s.writeMutexMap[c]? = some m → m.owner = none := by
    intro c m hm
    rw [← Quiet.owner_eq hm]
    exact hfree c (ExtTreeMap.mem_keys.mpr (by grind))
  have hempty : (s.dummyDescriptorSet.toList ++ s.writeMutexMap.keys).foldl
      (fun m c => m.erase c) s.descriptors = ∅ := by
    apply ExtTreeMap.ext_getElem?
    intro c
    have hc : c ∉ (s.dummyDescriptorSet.toList ++ s.writeMutexMap.keys).foldl
        (fun m c => m.erase c) s.descriptors := by
      rw [mem_foldl_erase, hall]
      exact fun hmem => hmem.2 hmem.1
    grind
  rw [show (s.closedAll s.dummyDescriptorSet.toList).writeMutexMap = s.writeMutexMap from rfl,
    closedAll_append hnodup]
  refine ⟨?_, rfl, hempty⟩
  have hmove := @InterfaceMove.destroy none s _ s.assigned
    (fun i => if i ∈ s.requestBufferOnThrow then {} else s.requests i) hfree'
    (List.nodup_reverse.mpr hnodup) (fun c => List.mem_reverse.trans (hall c)) fun i => ?_
  · rw [← hempty] at hmove
    exact hmove
  · by_cases hi : i ∈ s.requestBufferOnThrow
    · exact .inr (if_pos hi)
    · exact .inl (if_neg hi)

end Destruction

/-! ## Runs -/

/-- A step that satisfies the assumptions: the write mutex of a connection is
free when the interface thread schedules it for closure, and a request thread
does not remove the request of the cached iterator. -/
structure Permitted (A : Assumptions) (c : Config) (a : Action) (d : Config) : Prop where
  sync : A.sync → ∀ reply p k, a = .interface reply → c.interface = .accepting p →
    p.next = some (.scheduleClosure k) → c.system.badInterfaceStateDetected = false →
      c.system.owner k = none
  fresh : A.fresh → ∀ reply i call, a = .request reply i call → c.system.CachePresent →
    d.system.CachePresent

/-- What the interface thread is doing and knows. -/
def InterfaceThread.Safe (A : Assumptions) : InterfaceThread → System → Prop
  | .idle, s => s.halt = none → Between A s
  | .accepting p, s => Program.Safe (contract A) (fun _ t => t.halt = none → Between A t)
      (fun _ t => t.halt = none → Between A t) p s
  | .destroyed, s => s.descriptors = ∅

structure Sane (A : Assumptions) (c : Config) : Prop where
  invariant : Invariant c.system
  thread : c.interface.Safe A c.system
  fresh : A.fresh → c.system.halt ≠ some .danglingIterator

theorem sane_initial {A : Assumptions} {s : System} (h : Initial s) : Sane A ⟨s, .idle⟩ where
  invariant := .initial h
  thread _ :=
    { alive := h.interfaceIdentifier
      received := by
        intro _ c rs hrs
        rw [h.recordStatusMap] at hrs
        simp at hrs
      held := by simp
      connections := by simp
      quiet := by
        intro _ _ c hc
        rw [h.closureRequestSet] at hc
        simp at hc }
  fresh _ := by
    rw [h.halt]
    simp

/-- The steps of the other threads. -/
theorem InterfaceThread.Safe.rely {A : Assumptions} {thread : InterfaceThread} {s t : System}
    (h : thread.Safe A s) (hr : Rely A s t) : thread.Safe A t := by
  have hbetween : ∀ s t, Rely A s t → (s.halt = none → Between A s) → t.halt = none → Between A t :=
    fun s t hr hs ht => stable_left s t (hs (hr.interference.not_halted ht)) hr ht
  cases thread with
  | idle => exact hbetween s t hr h
  | accepting p =>
    refine Program.safe_rely ?_ ?_ hr h
    · exact fun _ s t hr hs => hbetween s t hr hs
    · exact fun _ s t hr hs => hbetween s t hr hs
  | destroyed => exact hr.interference.descriptors.trans h

/-- A step of a request thread, as the interface thread sees it. -/
theorem interference_requestStep {s t : System} (h : Invariant s) {reply : SystemReply}
    {i : Nat} {call : Option ApiCall} {r : Except Failure Unit}
    (hs : requestStep reply i call s = some (r, t)) :
    Invariant t ∧ Interference s t := by
  have hafter := after_requestStep h reply i call
  have hmoved : (s.requests i).held = false ∧ Moved i s t := by
    cases r with
    | ok a => exact hafter.of_ok hs
    | error e => exact hafter.of_error hs
  exact ⟨h.requestMoves hmoved.2.moves, interference_requestMoves h hmoved.1 hmoved.2.moves⟩

theorem awake_requestStep {s t : System} (h : Invariant s) {reply : SystemReply}
    {i : Nat} {call : Option ApiCall} {r : Except Failure Unit}
    (hs : requestStep reply i call s = some (r, t)) : Signals s t := by
  have hafter := signals_requestStep h reply i call
  cases r with
  | ok a => exact hafter.of_ok hs
  | error e => exact hafter.of_error hs

/-- The ways in which a step is made. -/
inductive Step : Config → Action → Config → Prop
  | accept {s : System} : Step ⟨s, .idle⟩ .accept ⟨s, .accepting acceptRequests⟩
  | interface {s t : System} {p p' : Thread (List Nat)} {reply : SystemReply}
      (h : p.step reply s = some (p', t)) :
      Step ⟨s, .accepting p⟩ (.interface reply) ⟨t, .accepting p'⟩
  | handOver {s : System} (objects : List Nat) :
      Step ⟨s, .accepting (.ret objects)⟩ .finish ⟨release s objects, .idle⟩
  | throw {s : System} (e : Failure) : Step ⟨s, .accepting (.throw e)⟩ .finish ⟨s, .idle⟩
  | setOverload {s : System} (overload : Bool) :
      Step ⟨s, .idle⟩ (.setOverload overload) ⟨{ s with applicationOverload := overload }, .idle⟩
  | destroyInterface {s t : System} {r : Except Failure Unit}
      (h : destroyInterface s = some (r, t)) : Step ⟨s, .idle⟩ .destroyInterface ⟨t, .destroyed⟩
  | request {s t : System} {thread : InterfaceThread} {reply : SystemReply} {i : Nat}
      {call : Option ApiCall} {r : Except Failure Unit}
      (h : requestStep reply i call s = some (r, t)) :
      Step ⟨s, thread⟩ (.request reply i call) ⟨t, thread⟩

theorem step_cases {c d : Config} {a : Action} (h : step c a = some d) :
    c.system.halt = none ∧ Step c a d := by
  obtain ⟨s, thread⟩ := c
  unfold step at h
  split at h
  · cases h
  rename_i hhalt
  refine ⟨by simpa using hhalt, ?_⟩
  split at h
  · rename_i hthread
    cases h
    cases hthread
    exact .accept
  · rename_i reply p hthread
    cases hthread
    obtain ⟨⟨p', t⟩, hp, rfl⟩ := Option.map_eq_some_iff.mp h
    exact .interface hp
  · rename_i objects hthread
    cases h
    cases hthread
    exact .handOver objects
  · rename_i e hthread
    cases h
    cases hthread
    exact .throw e
  · rename_i overload hthread
    cases h
    cases hthread
    exact .setOverload overload
  · rename_i hthread
    cases hthread
    obtain ⟨⟨r, t⟩, hr, rfl⟩ := Option.map_eq_some_iff.mp h
    exact .destroyInterface hr
  · obtain ⟨⟨r, t⟩, hr, rfl⟩ := Option.map_eq_some_iff.mp h
    exact .request hr
  · cases h

/-- What is known between two calls does not depend on the objects. -/
theorem Between.move {A : Assumptions} {s t : System} (h : Between A s)
    (hm : InterfaceMove none s t) (h₁ : t.interfaceIdentifier = s.interfaceIdentifier)
    (h₂ : t.badInterfaceStateDetected = s.badInterfaceStateDetected)
    (h₃ : t.recordStatusMap = s.recordStatusMap) (h₄ : t.requestMap = s.requestMap)
    (h₅ : t.applicationClosureRequestSet = s.applicationClosureRequestSet) : Between A t where
  alive := by
    rw [h₁]
    exact h.alive
  received hg c rs hrs := by
    rw [h₂] at hg
    rw [h₃] at hrs
    rw [h₅]
    exact (h.received hg c rs hrs).imp_left (.congr h₄)
  held := by simp
  connections := by simp
  quiet hsync := (h.quiet hsync).interfaceMove hm

/-- One step. -/
theorem Sane.step {A : Assumptions} {c d : Config} {a : Action} (h : Sane A c)
    (hs : step c a = some d) (hp : Permitted A c a d) : Sane A d := by
  obtain ⟨hhalt, hstep⟩ := step_cases hs
  obtain ⟨hi, hthread, hfresh⟩ := h
  cases hstep with
  | accept => exact ⟨hi, keeps_acceptRequests _ hthread, hfresh⟩
  | @interface s t p p' reply hstep =>
    have hgiven : ∀ l, p.next = some l → (contract A).given l s := by
      refine fun l hl => ⟨hi, hhalt, fun hsync k hk hgood => ?_⟩
      subst hk
      exact hp.sync hsync reply p k rfl rfl hl hgood
    obtain ⟨hsound, hsafe⟩ := Program.safe_step (Rely.refl s) hthread hgiven hstep
    obtain ⟨loose, hmoves⟩ := hsound.moves
    exact ⟨hi.interfaceMoves hmoves, hsafe, hsound.halt⟩
  | @handOver s objects =>
    have hmove : InterfaceMove none s (release s objects) := .release objects
    exact ⟨hi.interfaceMove hmove,
      fun hh => Between.move (hthread hh) hmove rfl rfl rfl rfl rfl, hfresh⟩
  | throw e => exact ⟨hi, hthread, hfresh⟩
  | @setOverload s overload =>
    have hmove : InterfaceMove none s { s with applicationOverload := overload } :=
      .frame fun _ => Iff.rfl
    exact ⟨hi.interfaceMove hmove, fun hh => Between.move (hthread hh) hmove rfl rfl rfl rfl rfl,
      hfresh⟩
  | @destroyInterface s t r hr =>
    have hafter := after_destroyInterface hi
    have hmove : InterfaceMove none s t ∧ t.halt = s.halt ∧ t.descriptors = ∅ := by
      cases r with
      | ok a => exact hafter.of_ok hr
      | error e => exact (hafter.of_error hr).elim
    refine ⟨hi.interfaceMove hmove.1, hmove.2.2, fun _ => ?_⟩
    show t.halt ≠ some .danglingIterator
    rw [hmove.2.1, hhalt]
    simp
  | @request s t thread reply i call r hr =>
    obtain ⟨hi', hint⟩ := interference_requestStep hi hr
    have hrely : Rely A s t := 
      ⟨hint, fun hf => hp.fresh hf reply i call rfl, (awake_requestStep hi hr).awake⟩
    refine ⟨hi', hthread.rely hrely, fun _ => ?_⟩
    show t.halt ≠ some .danglingIterator
    rcases hint.halt with he | he
    · rw [he, hhalt]
      simp
    · rw [he]
      simp

theorem sane_reachable {A : Assumptions} {ok : Config → Action → Config → Prop}
    (hok : ∀ c a d, ok c a d → Permitted A c a d) {c : Config} (h : ReachableBy ok c) :
    Sane A c := by
  induction h with
  | initial h => exact sane_initial h
  | step _ hs ha ih => exact ih.step hs (hok _ _ _ ha)

/-- Nothing is assumed of a run. -/
theorem sane_of_reachable {c : Config} (h : Reachable c) : Sane ⟨False, False⟩ c :=
  sane_reachable (fun _ _ _ _ => ⟨False.elim, False.elim⟩) h

theorem invariant_of_reachable {c : Config} (h : Reachable c) : Invariant c.system :=
  (sane_of_reachable h).invariant

end AsComponents.Server
