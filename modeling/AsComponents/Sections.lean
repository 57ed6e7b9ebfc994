import AsComponents.Interference

/-! What the small sections do, as rules for `After`. -/

namespace AsComponents.Server

open Protocol NameValue SocketFunctions AsComponents.Partition Std Critical

variable {s : System}

/-! ## Sections that change one thing -/

section Primitives

variable {α : Type} {Q : α → System → Prop} {Q' : Unit → System → Prop} {E : Failure → System → Prop}

@[simp] theorem after_halt (h : Halt) :
    After (halt h : Section α) s Q E ↔ E .halted { s with halt := some h } := by
  simp [halt]

@[simp] theorem after_goBad :
    After goBad s Q' E ↔ Q' () { s with badInterfaceStateDetected := true } := Iff.rfl

@[simp] theorem after_note (e : Event) : After (note e) s Q' E ↔ Q' () (s.record e) := Iff.rfl

@[simp] theorem after_setLocalRequestIter (it : Option Iterator) :
    After (setLocalRequestIter it) s Q' E ↔ Q' () { s with localRequestIter := it } := Iff.rfl

@[simp] theorem after_setCall (i : Nat) (call : Call) :
    After (setCall i call) s Q' E ↔
      Q' () (s.setRequest i { s.requests i with call := call }) := Iff.rfl

@[simp] theorem after_abandon (i : Nat) :
    After (abandon i) s Q' E ↔
      Q' () (s.setRequest i { s.requests i with completed := true, wasAborted := true }) := Iff.rfl

@[simp] theorem after_discard (x : Section α) :
    After (discard x) s Q' E ↔ After x s (fun _ t => Q' () t) E := by
  show After (x >>= fun _ => pure ()) s Q' E ↔ _
  simp

@[simp] theorem after_interfaceCheck (what : String) :
    After (interfaceCheck what) s Q' E ↔
      (s.badInterfaceStateDetected = true → E (.runtimeError what) s) ∧
        (s.badInterfaceStateDetected = false → Q' () s) := by
  simp [interfaceCheck]

@[simp] theorem after_deref (it : Iterator) {Q : RequestData → System → Prop} :
    After (deref it) s Q E ↔
      (∀ d, s.lookup it = some d → Q d s) ∧
        (s.lookup it = none → E .halted { s with halt := some .danglingIterator }) := by
  simp only [deref, after_bind, after_get]
  cases s.lookup it <;> simp

end Primitives

/-! ## Iterators -/

theorem lookup_eq_some {it : Iterator} {d : RequestData} :
    s.lookup it = some d ↔ s.requestMap[it.key]? = some d ∧ d.node = it.node := by
  simp [System.lookup, Option.filter_eq_some_iff]

theorem find_eq_some {id : FcgiRequestIdentifier} {it : Iterator} :
    s.find id = some it ↔ it.key = id ∧ ∃ d, s.requestMap[id]? = some d ∧ d.node = it.node := by
  simp only [System.find, Option.map_eq_some_iff]
  constructor
  · rintro ⟨d, hd, rfl⟩
    exact ⟨rfl, d, hd, rfl⟩
  · rintro ⟨rfl, d, hd, hn⟩
    refine ⟨d, hd, ?_⟩
    rw [hn]

theorem find_eq_none {id : FcgiRequestIdentifier} : s.find id = none ↔ s.requestMap[id]? = none := by
  simp [System.find]

/-- A request in the map is counted. -/
theorem count_pos (h : Invariant s) {id : FcgiRequestIdentifier} {d : RequestData}
    (hd : s.requestMap[id]? = some d) : ∃ n, s.requestCountMap[id.descriptor]? = some (n + 1) := by
  obtain ⟨r, hr⟩ := h.tables.request_socket id d hd
  have hc : id.descriptor ∈ s.requestCountMap := by
    have := (h.tables.descriptors_iff id.descriptor).mp (by grind)
    exact (h.tables.count_iff id.descriptor).mpr this
  have hn : s.requestCountMap[id.descriptor]? = some s.requestCountMap[id.descriptor] := by grind
  have hlen := h.counts.count _ _ hn
  have hmem : id ∈ s.requestsOf id.descriptor := mem_requestsOf.mpr ⟨by grind, rfl⟩
  have hpos := List.length_pos_of_mem hmem
  exact ⟨s.requestCountMap[id.descriptor] - 1, by rw [hn]; congr 1; omega⟩

/-! ## Removal of requests -/

section Removal

variable {Q : Unit → System → Prop} {E : Failure → System → Prop}

theorem after_removeRequestHelper {it : Iterator} {d : RequestData} {n : Nat}
    (hd : s.lookup it = some d) (hn : s.requestCountMap[it.key.descriptor]? = some (n + 1)) :
    After (removeRequestHelper (some it)) s Q E ↔ Q () (s.eraseRequest it.key n) := by
  simp only [removeRequestHelper, after_tryCatch, after_bind, after_discard, after_deref, hd,
    after_get, hn, after_modify]
  simp [System.eraseRequest]

/-- `RemoveRequest` finds the request of the object. -/
theorem after_removeRequest {i n : Nat} {d : RequestData}
    (hd : s.requestMap[(s.requests i).requestIdentifier]? = some d)
    (hnode : d.node = (s.requests i).node)
    (hn : s.requestCountMap[(s.requests i).requestIdentifier.descriptor]? = some (n + 1)) :
    After (removeRequest i) s Q E ↔
      Q () ((s.eraseRequest (s.requests i).requestIdentifier n).record
        (.removed (s.requests i).node (some (s.requests i).node) true)) := by
  have hfind : s.find (s.requests i).requestIdentifier =
      some ⟨(s.requests i).requestIdentifier, (s.requests i).node⟩ :=
    find_eq_some.mpr ⟨rfl, d, hd, hnode⟩
  have hlookup : s.lookup ⟨(s.requests i).requestIdentifier, (s.requests i).node⟩ = some d :=
    lookup_eq_some.mpr ⟨hd, hnode⟩
  simp only [removeRequest, after_bind, after_get, after_tryCatch, hfind, after_note]
  rw [after_removeRequestHelper hlookup hn]
  rfl

theorem after_removeRequestOrWake {i n : Nat} {d : RequestData}
    (hd : s.requestMap[(s.requests i).requestIdentifier]? = some d)
    (hnode : d.node = (s.requests i).node)
    (hn : s.requestCountMap[(s.requests i).requestIdentifier.descriptor]? = some (n + 1)) :
    After (removeRequestOrWake i) s Q E ↔
      Q () ((s.eraseRequest (s.requests i).requestIdentifier n).record
        (.removed (s.requests i).node (some (s.requests i).node) true)) := by
  simp only [removeRequestOrWake, after_tryCatch]
  rw [after_removeRequest hd hnode hn]

theorem after_requestData {i : Nat} {d : RequestData}
    {Q : RequestData → System → Prop} (hd : s.requestMap[(s.requests i).requestIdentifier]? = some d)
    (hnode : d.node = (s.requests i).node) :
    After (requestData i) s Q E ↔ Q d s := by
  have hlookup : s.lookup ⟨(s.requests i).requestIdentifier, (s.requests i).node⟩ = some d :=
    lookup_eq_some.mpr ⟨hd, hnode⟩
  simp only [requestData, after_bind, after_get, hlookup, after_pure]

theorem after_synchroniseOnWriteMutex {i : Nat} {m : WriteMutex}
    (hm : s.writeMutexMap[(s.requests i).requestIdentifier.descriptor]? = some m)
    (hs : m.socket = (s.requests i).socket) :
    After (synchroniseOnWriteMutex i) s Q E ↔ (m.owner = none → Q () s) := by
  simp only [synchroniseOnWriteMutex, after_bind, after_get, hm, hs, if_true, after_await,
    Quiet.owner_eq hm]

end Removal

end AsComponents.Server
