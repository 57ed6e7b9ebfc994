import AsComponents.Invariant

/-! What the interface thread may find changed after other threads have run. -/

namespace AsComponents.Server

open Protocol NameValue SocketFunctions AsComponents.Partition Std

/-- The steps of a thread that uses a request object, as far as the interface
thread can tell. -/
structure Undisturbed (s t : System) : Prop where
  recordStatusMap : t.recordStatusMap = s.recordStatusMap
  dummyDescriptorSet : t.dummyDescriptorSet = s.dummyDescriptorSet
  requestBufferOnThrow : t.requestBufferOnThrow = s.requestBufferOnThrow
  localRequestIter : t.localRequestIter = s.localRequestIter
  interfaceIdentifier : t.interfaceIdentifier = s.interfaceIdentifier
  maximumRequestCount : t.maximumRequestCountPerConnection = s.maximumRequestCountPerConnection
  descriptors : t.descriptors = s.descriptors
  mutex : ∀ c : Nat, (t.writeMutexMap[c]?).map (·.socket) = (s.writeMutexMap[c]?).map (·.socket)
  data : ∀ (id : FcgiRequestIdentifier) (d : RequestData), t.requestMap[id]? = some d →
    s.requestMap[id]? = some d
  pending : ∀ (id : FcgiRequestIdentifier) (d : RequestData), s.requestMap[id]? = some d →
    d.requestStatus = .requestPending → t.requestMap[id]? = some d
  count : ∀ c n : Nat, s.requestCountMap[c]? = some n →
    ∃ n', n' ≤ n ∧ t.requestCountMap[c]? = some n'
  closure : ∀ c, c ∈ s.applicationClosureRequestSet → c ∈ t.applicationClosureRequestSet
  quiet : ∀ loose, Quiet loose s → Quiet loose t
  next : s.nextRequest ≤ t.nextRequest
  bad : s.badInterfaceStateDetected = true → t.badInterfaceStateDetected = true
  halt : t.halt = s.halt ∨ t.halt = some .terminated
  log : ∀ e : Event, ¬ e.Silent → (e ∈ t.log ↔ e ∈ s.log)
  trace : ∀ k n, s.Gone n → t.trace k n = s.trace k n

/-- The steps of the other threads: they have no object in the vectors of the
interface thread. -/
structure Interference (s t : System) : Prop extends Undisturbed s t where
  held : ∀ i, (s.requests i).held = true → t.requests i = s.requests i

namespace Undisturbed

variable {s t u : System}

theorem refl (s : System) : Undisturbed s s where
  recordStatusMap := rfl
  dummyDescriptorSet := rfl
  requestBufferOnThrow := rfl
  localRequestIter := rfl
  interfaceIdentifier := rfl
  maximumRequestCount := rfl
  descriptors := rfl
  mutex _ := rfl
  data _ _ hd := hd
  pending _ _ hd _ := hd
  count _ n hn := ⟨n, Nat.le_refl n, hn⟩
  closure _ hc := hc
  quiet _ hq := hq
  next := Nat.le_refl _
  bad hb := hb
  halt := .inl rfl
  log _ _ := Iff.rfl
  trace _ _ _ := rfl

theorem gone (h : Undisturbed s t) {n : Nat} (hg : s.Gone n) : t.Gone n :=
  fun id d hd => hg id d (h.data id d hd)

theorem trans (h : Undisturbed s t) (h' : Undisturbed t u) : Undisturbed s u where
  recordStatusMap := h'.recordStatusMap.trans h.recordStatusMap
  dummyDescriptorSet := h'.dummyDescriptorSet.trans h.dummyDescriptorSet
  requestBufferOnThrow := h'.requestBufferOnThrow.trans h.requestBufferOnThrow
  localRequestIter := h'.localRequestIter.trans h.localRequestIter
  interfaceIdentifier := h'.interfaceIdentifier.trans h.interfaceIdentifier
  maximumRequestCount := h'.maximumRequestCount.trans h.maximumRequestCount
  descriptors := h'.descriptors.trans h.descriptors
  mutex c := (h'.mutex c).trans (h.mutex c)
  data id d hd := h.data id d (h'.data id d hd)
  pending id d hd hp := h'.pending id d (h.pending id d hd hp) hp
  count c n hn := by
    obtain ⟨n', hle, hn'⟩ := h.count c n hn
    obtain ⟨n'', hle', hn''⟩ := h'.count c n' hn'
    exact ⟨n'', Nat.le_trans hle' hle, hn''⟩
  closure c hc := h'.closure c (h.closure c hc)
  quiet loose hq := h'.quiet loose (h.quiet loose hq)
  next := Nat.le_trans h.next h'.next
  bad hb := h'.bad (h.bad hb)
  halt := by
    rcases h'.halt with he | he
    · rw [he]
      exact h.halt
    · exact .inr he
  log e he := (h'.log e he).trans (h.log e he)
  trace k n hg := (h'.trace k n (h.gone hg)).trans (h.trace k n hg)

/-- A connection keeps its mutex. -/
theorem mutex_some (h : Undisturbed s t) {c : Nat} {m : WriteMutex}
    (hm : s.writeMutexMap[c]? = some m) :
    ∃ m', t.writeMutexMap[c]? = some m' ∧ m'.socket = m.socket := by
  have he := h.mutex c
  rw [hm, Option.map_some, Option.map_eq_some_iff] at he
  exact he

theorem mem_writeMutexMap (h : Undisturbed s t) {c : Nat} (hc : c ∈ s.writeMutexMap) :
    c ∈ t.writeMutexMap := by
  obtain ⟨m', hm', -⟩ := h.mutex_some (c := c) (m := s.writeMutexMap[c]) (by grind)
  grind

theorem not_halted (h : Undisturbed s t) (ht : t.halt = none) : s.halt = none := by
  rcases h.halt with he | he
  · exact he ▸ ht
  · rw [he] at ht
    cases ht

theorem good (h : Undisturbed s t) (ht : t.badInterfaceStateDetected = false) :
    s.badInterfaceStateDetected = false := by
  by_contra hs
  rw [h.bad (by simpa using hs)] at ht
  cases ht

theorem begun (h : Undisturbed s t) {n k : Nat} {f : UInt16} : t.Begun n k f ↔ s.Begun n k f :=
  exists_congr fun _ => h.log _ id

theorem endedByInterface (h : Undisturbed s t) {n : Nat} :
    t.EndedByInterface n ↔ s.EndedByInterface n :=
  or_congr (h.log _ id) (exists_congr fun _ => exists_congr fun _ => h.log _ id)

theorem ending (h : Undisturbed s t) {c n : Nat} {f : UInt16} (he : s.Ending c n f) :
    t.Ending c n f := by
  obtain ⟨m, hm, hb, hlatest, htrace⟩ := he.begun
  obtain ⟨m', hm', hs⟩ := h.mutex_some hm
  refine ⟨⟨m', hm', ?_, ?_, ?_⟩, h.endedByInterface.mpr he.ended, h.gone he.gone⟩
  · rw [hs]
    exact h.begun.mpr hb
  · intro n' hb'
    rw [hs] at hb'
    exact hlatest n' (h.begun.mp hb')
  · rw [hs, h.trace _ _ he.gone]
    exact htrace

end Undisturbed

namespace Interference

variable {s t u : System}

theorem refl (s : System) : Interference s s := ⟨.refl s, fun _ _ => rfl⟩

theorem trans (h : Interference s t) (h' : Interference t u) : Interference s u := by
  refine ⟨h.toUndisturbed.trans h'.toUndisturbed, fun i hi => ?_⟩
  have he := h.held i hi
  rw [← he] at hi
  exact (h'.held i hi).trans he

end Interference

/-! ## One move -/

theorem undisturbed_retired {s : System} {i n : Nat} {d : RequestData} {o : FcgiRequest}
    (owns : Owns s i d)
    (hn : s.requestCountMap[(s.requests i).requestIdentifier.descriptor]? = some (n + 1)) :
    Undisturbed s (s.retired i o n) :=
  { Undisturbed.refl s with
    data := by
      intro id e he
      simp only [System.retired, System.setRequest, System.record, System.eraseRequest] at he
      grind
    pending := by
      intro id e he hp
      have hne : id ≠ (s.requests i).requestIdentifier := by
        rintro rfl
        rw [owns.data, Option.some.injEq] at he
        subst he
        rw [owns.assigned] at hp
        cases hp
      simp only [System.retired, System.setRequest, System.record, System.eraseRequest]
      grind
    count := by
      intro c n' hn'
      simp only [System.retired, System.setRequest, System.record, System.eraseRequest,
        ExtTreeMap.getElem?_insert]
      split
      · rename_i he
        obtain rfl := LawfulEqCmp.eq_of_compare he
        rw [hn, Option.some.injEq] at hn'
        exact ⟨n, by omega, rfl⟩
      · exact ⟨n', Nat.le_refl _, hn'⟩
    quiet := fun _ hq => hq.retired i o n
    log := by
      intro e he
      refine List.mem_cons.trans ⟨fun hm => hm.resolve_left ?_, .inr⟩
      rintro rfl
      exact he trivial }

/-- Batches are offered or accepted for a request that is in the map. -/
theorem interference_transmit {s t : System} {k : Nat} {ts : List Transmission}
    (ht : t.transmissions = Function.update s.transmissions k ts)
    (htrace : ∀ n, s.Gone n →
      ts.filter (fun x => x.origin = some n) = (s.transmissions k).filter fun x => x.origin = some n) :
    ∀ k' n, s.Gone n → t.trace k' n = s.trace k' n := by
  intro k' n hg
  by_cases hk : k' = k
  · subst hk
    simp only [System.trace, ht, Function.update_self]
    exact htrace n hg
  · simp only [System.trace, ht, Function.update_of_ne hk]

theorem mutex_insert {s t : System} {c : Nat} {m : WriteMutex} (m' : WriteMutex)
    (hm : s.writeMutexMap[c]? = some m) (hs : m'.socket = m.socket)
    (ht : t.writeMutexMap = s.writeMutexMap.insert c m') :
    ∀ c' : Nat, (t.writeMutexMap[c']?).map (·.socket) = (s.writeMutexMap[c']?).map (·.socket) := by
  intro c'
  rw [ht, ExtTreeMap.getElem?_insert]
  split
  · rename_i he
    obtain rfl := LawfulEqCmp.eq_of_compare he
    rw [hm, Option.map_some, Option.map_some, hs]
  · rfl

theorem undisturbed_offered {s : System} {c n : Nat} {m : WriteMutex} {bytes : Bytes}
    {socket : Socket} {accepted : Nat} {corrupt : Bool} (hm : s.writeMutexMap[c]? = some m)
    (hfree : m.owner = none) (hn : ¬ s.Gone n) :
    Undisturbed s (s.offered c m (some n) bytes socket accepted corrupt) :=
  { Undisturbed.refl s with
    mutex := mutex_insert { m with corrupt := m.corrupt || corrupt } hm rfl rfl
    quiet := fun _ hq => hq.offered hfree _ _ _ _ _ _
    trace := by
      refine interference_transmit (k := m.socket) rfl ?_
      intro n' hg
      have hne : n ≠ n' := by
        rintro rfl
        exact hn hg
      simp [hne] }

theorem not_gone {s : System} {i : Nat} {d : RequestData} (owns : Owns s i d) :
    ¬ s.Gone (s.requests i).node := fun hg => hg _ d owns.data owns.node

/-- A round of a write loop. -/
theorem trace_round {s t : System} {k n : Nat} {before : List Transmission} {bytes : Bytes}
    {accepted : Nat} (accepted' : Nat) (hn : ¬ s.Gone n)
    (hs : s.transmissions k = before ++ [⟨some n, bytes, accepted⟩])
    (ht : t.transmissions =
      Function.update s.transmissions k (before ++ [⟨some n, bytes, accepted'⟩])) :
    ∀ k' n', s.Gone n' → t.trace k' n' = s.trace k' n' := by
  refine interference_transmit ht ?_
  intro n' hg
  have hne : n ≠ n' := by
    rintro rfl
    exact hn hg
  simp [hs, hne]

theorem undisturbed_requestMove {s t : System} (h : Invariant s) {i : Nat}
    (hm : RequestMove i s t) : Undisturbed s t := by
  have hquiet : ∀ loose, Quiet loose s → Quiet loose t := fun _ hq => hq.requestMove hm
  cases hm with
  | object => exact { Undisturbed.refl s with }
  | drop => exact { Undisturbed.refl s with }
  | retire owns _ _ hn => exact undisturbed_retired owns hn
  | conclude owns _ _ hn _ hoffer =>
    exact Undisturbed.trans (undisturbed_offered hoffer.mutex hoffer.free (not_gone owns))
      (undisturbed_retired (owns.offered ..) hn)
  | note =>
    refine { Undisturbed.refl s with log := ?_ }
    intro e he
    refine List.mem_cons.trans ⟨fun hm => hm.resolve_left ?_, .inr⟩
    rintro rfl
    exact he trivial
  | schedule =>
    refine
      { Undisturbed.refl s with
        quiet := hquiet
        closure := ?_ }
    intro c hc
    simp [hc]
  | pipe => exact { Undisturbed.refl s with }
  | bad =>
    exact
      { Undisturbed.refl s with
        quiet := hquiet
        bad := fun _ => rfl }
  | terminate => exact { Undisturbed.refl s with halt := .inr rfl }
  | @acquire d m rest bytes type iovec owns _ _ hm =>
    refine
      { Undisturbed.refl s with
        mutex := mutex_insert { m with owner := some i } hm rfl rfl
        quiet := hquiet
        trace := interference_transmit (k := m.socket) rfl fun n hg => ?_ }
    have hne : (s.requests i).node ≠ n := by
      rintro rfl
      exact not_gone owns hg
    simp [hne]
  | @progress rest type iovec iovec' working total remaining socket hcall ha hlen =>
    obtain ⟨before, bytes, hts, hup, -⟩ := h.wires.round hcall ha
    rw [hlen] at hup
    obtain ⟨d, hd, hn, -⟩ := (h.wires.writing i _ _ _ _ _ hcall).data
    refine
      { Undisturbed.refl s with
        quiet := hquiet
        trace := trace_round (total - remaining) (fun hg => hg _ d hd hn) hts ?_ }
    rw [← hup]
    rfl
  | @leave rest type iovec working total remaining m socket corrupt unwritten after hcall hm ha hlen =>
    obtain ⟨before, bytes, hts, hup, -⟩ := h.wires.round hcall ha
    rw [hlen] at hup
    obtain ⟨d, hd, hn, -⟩ := (h.wires.writing i _ _ _ _ _ hcall).data
    refine
      { Undisturbed.refl s with
        mutex := mutex_insert { m with owner := none, corrupt := m.corrupt || corrupt } hm rfl
          rfl
        quiet := hquiet
        trace := trace_round (total - remaining) (fun hg => hg _ d hd hn) hts ?_ }
    rw [← hup]
    rfl
  | moveConstruct =>
    exact
      { Undisturbed.refl s with
        next := Nat.le_succ _ }
  | moveAssign => exact { Undisturbed.refl s with }

/-- The objects in the vectors of the interface thread are not touched. -/
theorem held_requestMove {s t : System} (h : Invariant s) {i : Nat}
    (hi : (s.requests i).held = false) (hm : RequestMove i s t) :
    ∀ j, (s.requests j).held = true → t.requests j = s.requests j := by
  intro j hj
  have hji : j ≠ i := by
    rintro rfl
    rw [hi] at hj
    cases hj
  cases hm with
  | moveConstruct =>
    have hjn : j ≠ s.nextRequest := by
      rintro rfl
      rw [h.objects.fresh _ (Nat.le_refl _)] at hj
      cases hj
    simp [System.setRequest, hji, hjn]
  | @moveAssign k _ _ _ _ hk =>
    have hjk : j ≠ k := by
      rintro rfl
      rw [hk] at hj
      cases hj
    simp [System.setRequest, hji, hjk]
  | retire | conclude =>
    simp [System.retired, System.offered, System.setRequest, System.record, System.eraseRequest,
      System.setWriteMutex, System.setTransmissions, System.setSocket, hji]
  | _ => first | rfl | exact Function.update_of_ne hji _ _

theorem interference_requestMove {s t : System} (h : Invariant s) {i : Nat}
    (hi : (s.requests i).held = false) (hm : RequestMove i s t) : Interference s t :=
  ⟨undisturbed_requestMove h hm, held_requestMove h hi hm⟩

theorem undisturbed_requestMoves {s t : System} (h : Invariant s) {i : Nat}
    (hm : RequestMoves i s t) : Undisturbed s t := by
  have hboth : Undisturbed s t ∧ Invariant t := by
    induction hm with
    | refl => exact ⟨.refl s, h⟩
    | tail _ hm ih =>
      obtain ⟨hu, hi⟩ := ih
      exact ⟨hu.trans (undisturbed_requestMove hi hm), hi.requestMove hm⟩
  exact hboth.1

/-- An object that the application holds stays with it. -/
theorem unheld_requestMove {s t : System} {i : Nat} (hi : (s.requests i).held = false)
    (hm : RequestMove i s t) : (t.requests i).held = false := by
  have hspent : ∀ o, Spent (s.requests i) o → o.held = false := by
    rintro o (rfl | ⟨aborted, rfl⟩)
    · rfl
    · exact hi
  cases hm with
  | retire _ _ ho _ =>
    simp only [System.retired, System.setRequest, Function.update_self]
    exact hspent _ ho
  | conclude _ _ ho _ _ _ =>
    simp only [System.retired, System.setRequest, Function.update_self]
    exact hspent _ ho
  | moveAssign hne _ _ _ hj =>
    simp only [System.setRequest, Function.update_of_ne hne, Function.update_self]
    exact hj
  | _ => first | exact hi | (simp [System.setRequest]; done) | simpa [System.setRequest] using hi

theorem interference_requestMoves {s t : System} (h : Invariant s) {i : Nat}
    (hi : (s.requests i).held = false) (hm : RequestMoves i s t) : Interference s t := by
  have hboth : Interference s t ∧ Invariant t ∧ (t.requests i).held = false := by
    induction hm with
    | refl => exact ⟨.refl s, h, hi⟩
    | tail _ hm ih =>
      obtain ⟨hint, hinv, hheld⟩ := ih
      exact ⟨hint.trans (interference_requestMove hinv hheld hm), hinv.requestMove hm,
        unheld_requestMove hheld hm⟩
  exact hboth.1

end AsComponents.Server
