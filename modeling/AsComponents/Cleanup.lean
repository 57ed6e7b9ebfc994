import AsComponents.Reading

/-! The cleanup section of `AcceptRequests`. -/

namespace AsComponents.Server

open Protocol NameValue SocketFunctions AsComponents.Partition Std Critical

variable {A : Assumptions} {s t u : System} {c : Nat}

/-! ## Dummy descriptors -/

/-- What the loop over `dummy_descriptor_set_` does. -/
structure Swept (s t : System) : Prop where
  moves : InterfaceMoves none s t
  halt : t.halt = s.halt
  identifier : t.interfaceIdentifier = s.interfaceIdentifier
  requests : t.requests = s.requests
  map : t.requestMap = s.requestMap
  statuses : t.recordStatusMap = s.recordStatusMap
  closure : t.applicationClosureRequestSet = s.applicationClosureRequestSet

theorem Swept.refl (s : System) : Swept s s := ⟨.refl, rfl, rfl, rfl, rfl, rfl, rfl⟩

theorem Swept.trans (h : Swept s t) (h' : Swept t u) : Swept s u :=
  ⟨h.moves.trans h'.moves, h'.halt.trans h.halt, h'.identifier.trans h.identifier,
    h'.requests.trans h.requests, h'.map.trans h.map, h'.statuses.trans h.statuses,
    h'.closure.trans h.closure⟩

theorem swept_bad : Swept s { s with badInterfaceStateDetected := true } :=
  ⟨.single (.request 0 .bad), rfl, rfl, rfl, rfl, rfl, rfl⟩

theorem not_assigned (h : s.requestsOf c = []) : s.assigned c = false := by
  simp [System.assigned, h]

/-- A descriptor without requests is closed. -/
theorem swept_closeDummy (hd : c ∈ s.dummyDescriptorSet) (hn : s.requestsOf c = []) :
    Swept s { s with
      dummyDescriptorSet := s.dummyDescriptorSet.erase c
      requestCountMap := s.requestCountMap.erase c
      descriptors := s.descriptors.erase c
      log := .closed c ((s.descriptors[c]?).map (·.socket)) false false :: s.log } :=
  ⟨.single (.closeDummy hd hn), rfl, rfl, rfl, rfl, rfl, rfl⟩

theorem after_closeDummyDescriptors (reply : SystemReply) {cs : List Nat} (hi : Invariant s)
    (hcs : ∀ c ∈ cs, c ∈ s.dummyDescriptorSet) (hnodup : cs.Nodup) :
    After (closeDummyDescriptors reply cs) s
      (fun _ t => Swept s t ∧ t.badInterfaceStateDetected = s.badInterfaceStateDetected)
      (fun e t => Swept s t ∧ t.badInterfaceStateDetected = true ∧ e ≠ erroneouslyHeld) := by
  induction cs generalizing s with
  | nil => exact ⟨.refl s, rfl⟩
  | cons c cs ih =>
    obtain ⟨hnew, hnodup⟩ := List.nodup_cons.mp hnodup
    have hrest : ∀ c' ∈ cs, c' ∈ s.dummyDescriptorSet := fun c' hc' => hcs c' (List.mem_cons_of_mem _ hc')
    unfold closeDummyDescriptors
    rw [after_bind, after_get, after_ite_bind, after_ite]
    refine ⟨fun hn => ?_, fun _ => ih hi hrest hnodup⟩
    have hd : c ∈ s.dummyDescriptorSet := hcs c List.mem_cons_self
    have hcount : s.requestCountMap.contains c = true :=
      ExtTreeMap.mem_iff_contains.mp ((hi.tables.count_iff c).mpr (.inr hd))
    have hswept := swept_closeDummy hd hn
    have hassigned : ∀ dummies counts, System.assigned { s with
        dummyDescriptorSet := dummies, requestCountMap := counts } c = false :=
      fun _ _ => not_assigned hn
    rw [after_tryCatch]
    simp only [after_bind, after_modify, after_get, after_ite, hcount, closeDescriptor, hassigned]
    refine ⟨by simp, fun _ => ?_⟩
    have hnext := ih (hi.interfaceMoves hswept.moves) ?_ hnodup
    · cases reply.closeFails c with
      | none =>
        refine hnext.mono ?_ ?_
        · exact fun _ t ht => ⟨hswept.trans ht.1, ht.2⟩
        · exact fun e t ht => ⟨hswept.trans ht.1, ht.2⟩
      | some e =>
        rw [after_ite]
        refine ⟨fun _ => ?_, fun _ => ?_⟩
        · simp only [after_throw, after_goBad]
          exact ⟨hswept.trans swept_bad, trivial, by rintro ⟨⟩⟩
        · refine hnext.mono ?_ ?_
          · exact fun _ t ht => ⟨hswept.trans ht.1, ht.2⟩
          · exact fun e t ht => ⟨hswept.trans ht.1, ht.2⟩
    · intro c' hc'
      have hne : c' ≠ c := by
        rintro rfl
        exact hnew hc'
      have hmem := hrest c' hc'
      show c' ∈ s.dummyDescriptorSet.erase c
      grind

/-! ## Connections that are scheduled for closure -/

/-- The requests and the counts differ. -/
def System.treated (u : System) (requests : ExtTreeMap FcgiRequestIdentifier RequestData)
    (counts : ExtTreeMap Nat Nat) : System :=
  { u with requestMap := requests, requestCountMap := counts }

/-- The loop of `RequestCleanupDuringConnectionClosure` for connection `c`, begun
in `u`: the requests `ids` are still to be treated, `actual` are those of the
map and `unflagged` are the same ones without the flag, which `makeDummy` sets.
When the removal fails in the end the interface is bad, and the flags are moves
of their own. -/
structure Treating (s u : System) (c : Nat) (closure : ExtTreeSet Nat)
    (ids : List FcgiRequestIdentifier) (present : Bool)
    (actual unflagged : ExtTreeMap FcgiRequestIdentifier RequestData)
    (counts : ExtTreeMap Nat Nat) : Prop where
  moves : InterfaceMoves none s ((u.treated unflagged counts).closing closure)
  failed : InterfaceMoves none s
    { u.treated actual counts with badInterfaceStateDetected := true }
  flagged : ∀ id : FcgiRequestIdentifier, actual[id]? =
    if id.descriptor = c ∧ id ∉ ids then
      (unflagged[id]?).map fun d => { d with connectionClosedByInterface := true }
    else unflagged[id]?
  assigned : ∀ (id : FcgiRequestIdentifier) (d : RequestData), unflagged[id]? = some d →
    id.descriptor = c → id ∉ ids → d.requestStatus = .requestAssigned
  present : present = true ↔
    ∃ id : FcgiRequestIdentifier, id.descriptor = c ∧ id ∉ ids ∧ id ∈ unflagged
  others : ∀ id : FcgiRequestIdentifier, id.descriptor ≠ c → unflagged[id]? = u.requestMap[id]?

section Loop

variable {closure : ExtTreeSet Nat} {id : FcgiRequestIdentifier} {ids : List FcgiRequestIdentifier}
  {present : Bool} {actual unflagged : ExtTreeMap FcgiRequestIdentifier RequestData}
  {counts : ExtTreeMap Nat Nat}

theorem Treating.head (h : Treating s u c closure (id :: ids) present actual unflagged counts) :
    actual[id]? = unflagged[id]? := by
  rw [h.flagged, if_neg]
  simp

/-- The request is not in the map any more. -/
theorem Treating.skip (h : Treating s u c closure (id :: ids) present actual unflagged counts)
    (hnone : unflagged[id]? = none) :
    Treating s u c closure ids present actual unflagged counts where
  moves := h.moves
  failed := h.failed
  flagged id' := by
    have hf := h.flagged id'
    by_cases he : id' = id
    · subst he
      simp [h.head, hnone]
    · simpa [he] using hf
  assigned id' d hd hc hid := by
    refine h.assigned id' d hd hc ?_
    rintro hmem
    rcases List.mem_cons.mp hmem with rfl | hmem
    · rw [hnone] at hd
      cases hd
    · exact hid hmem
  present := by
    rw [h.present]
    constructor
    · rintro ⟨id', hc, hid, hmem⟩
      exact ⟨id', hc, fun hm => hid (List.mem_cons_of_mem _ hm), hmem⟩
    · rintro ⟨id', hc, hid, hmem⟩
      refine ⟨id', hc, fun hm => ?_, hmem⟩
      rcases List.mem_cons.mp hm with rfl | hm
      · grind
      · exact hid hm
  others := h.others

/-- An assigned request is flagged. -/
theorem Treating.flag {d : RequestData} (hc : id.descriptor = c) (hid : id ∉ ids)
    (h : Treating s u c closure (id :: ids) present actual unflagged counts)
    (hd : unflagged[id]? = some d) (ha : d.requestStatus = .requestAssigned) :
    Treating s u c closure ids true
      (actual.insert id { d with connectionClosedByInterface := true }) unflagged counts where
  moves := h.moves
  failed := h.failed.tail (.flag rfl (h.head.trans hd) ha)
  flagged id' := by
    have hf := h.flagged id'
    by_cases he : id' = id
    · subst he
      simp [hc, hid, hd]
    · have hne : ¬ id = id' := fun h => he h.symm
      rw [ExtTreeMap.getElem?_insert]
      simpa [he, hne] using hf
  assigned id' d' hd' hc' hid' := by
    by_cases he : id' = id
    · subst he
      rw [hd, Option.some.injEq] at hd'
      exact hd' ▸ ha
    · exact h.assigned id' d' hd' hc' (by simpa [he] using hid')
  present := by
    refine ⟨fun _ => ⟨id, hc, hid, by grind⟩, fun _ => rfl⟩
  others := h.others

/-- A request that is not assigned is removed. -/
theorem Treating.remove {d : RequestData} {n : Nat} (hc : id.descriptor = c)
    (h : Treating s u c closure (id :: ids) present actual unflagged counts)
    (hd : unflagged[id]? = some d) (hp : d.requestStatus = .requestPending)
    (hn : counts[id.descriptor]? = some (n + 1)) :
    Treating s u c closure ids present (actual.erase id) (unflagged.erase id)
      (counts.insert id.descriptor n) where
  moves := h.moves.tail (.remove false hd hp hn)
  failed := h.failed.tail (.remove false (h.head.trans hd) hp hn)
  flagged id' := by
    have hf := h.flagged id'
    by_cases he : id' = id
    · subst he
      simp
    · have hne : ¬ id = id' := fun h => he h.symm
      rw [ExtTreeMap.getElem?_erase, ExtTreeMap.getElem?_erase]
      simpa [he, hne] using hf
  assigned id' d' hd' hc' hid' := by
    have hd'' : unflagged[id']? = some d' ∧ id' ≠ id := by grind
    exact h.assigned id' d' hd''.1 hc' (by simpa [hd''.2] using hid')
  present := by
    rw [h.present]
    constructor
    · rintro ⟨id', hc', hid', hmem⟩
      simp only [List.mem_cons, not_or] at hid'
      exact ⟨id', hc', hid'.2, by grind⟩
    · rintro ⟨id', hc', hid', hmem⟩
      have hmem' : id' ∈ unflagged ∧ id' ≠ id := by grind
      exact ⟨id', hc', by simpa [hmem'.2] using hid', hmem'.1⟩
  others id' hne := by
    have hid' : id ≠ id' := by
      rintro rfl
      exact hne hc
    rw [← h.others id' hne]
    grind

theorem after_requestCleanupLoop (hi : Invariant s) (hnodup : ids.Nodup)
    (hids : ∀ id ∈ ids, id.descriptor = c)
    (h : Treating s u c closure ids present actual unflagged counts) :
    After (requestCleanupLoop ids present) (u.treated actual counts)
      (fun r t => ∃ actual unflagged counts, t = u.treated actual counts ∧
        Treating s u c closure [] r actual unflagged counts)
      (fun _ _ => False) := by
  induction ids generalizing present actual unflagged counts with
  | nil => exact ⟨actual, unflagged, counts, rfl, h⟩
  | cons id ids ih =>
    obtain ⟨hid, hnodup⟩ := List.nodup_cons.mp hnodup
    have hc : id.descriptor = c := hids id List.mem_cons_self
    have hrest : ∀ id ∈ ids, id.descriptor = c := fun id' h' => hids id' (List.mem_cons_of_mem _ h')
    unfold requestCleanupLoop
    rw [after_bind, after_get]
    have hmap : (u.treated actual counts).requestMap[id]? = unflagged[id]? := h.head
    split
    · rename_i hnone
      exact ih hnodup hrest (h.skip (hmap.symm.trans hnone))
    · rename_i d hd
      have hd' : unflagged[id]? = some d := hmap.symm.trans hd
      rw [after_ite, after_bind, after_modify, after_bind]
      refine ⟨fun ha => ih hnodup hrest (h.flag hc hid hd' ha), fun hp => ?_⟩
      have hp' : d.requestStatus = .requestPending := by
        cases hs : d.requestStatus with
        | requestPending => rfl
        | requestAssigned => exact absurd hs hp
      obtain ⟨n, hn⟩ := count_pos (hi.interfaceMoves h.moves) hd'
      have hlookup : (u.treated actual counts).lookup ⟨id, d.node⟩ = some d :=
        lookup_eq_some.mpr ⟨hd, rfl⟩
      rw [after_removeRequestHelper hlookup hn]
      exact ih hnodup hrest (h.remove hc hd' hp' hn)

end Loop

/-- The loop over `application_closure_request_set_`, begun in `s`: the
connections `cs` are still to be removed.  The code empties the set at the
end; the moves take each connection out of it. -/
structure Removing (s : System) (cs : List Nat) (u : System) : Prop where
  good : u.badInterfaceStateDetected = false
  moves : ∃ closure : ExtTreeSet Nat, (∀ c, c ∈ closure ↔ c ∈ cs) ∧
    InterfaceMoves none s (u.closing closure)
  failed : InterfaceMoves none s { u with badInterfaceStateDetected := true }
  halt : u.halt = s.halt
  identifier : u.interfaceIdentifier = s.interfaceIdentifier
  requests : u.requests = s.requests
  received : ∀ (c : Nat) (rs : RecordStatus), u.recordStatusMap[c]? = some rs →
    Received u c rs ∨ c ∈ cs

/-- The state after an exception. -/
structure Abandoned (s t : System) : Prop where
  moves : InterfaceMoves none s t
  bad : t.badInterfaceStateDetected = true
  halt : t.halt = s.halt
  identifier : t.interfaceIdentifier = s.interfaceIdentifier
  requests : t.requests = s.requests

theorem Removing.abandoned {cs : List Nat} (h : Removing s cs u) :
    Abandoned s { u with badInterfaceStateDetected := true } :=
  ⟨h.failed, rfl, h.halt, h.identifier, h.requests⟩

/-- The tables of the state that the moves reach, as far as the removal reads
them. -/
theorem Removing.registered {c : Nat} {cs : List Nat} (hi : Invariant s)
    (h : Removing s (c :: cs) u) :
    ∃ m, u.writeMutexMap[c]? = some m ∧ c ∈ u.recordStatusMap ∧ c ∈ u.requestCountMap ∧
      (Quiet none s → m.owner = none) := by
  obtain ⟨closure, hclosure, hm⟩ := h.moves
  have hi' := hi.interfaceMoves hm
  have hc : c ∈ closure := (hclosure c).mpr List.mem_cons_self
  have hmem : c ∈ u.writeMutexMap := hi'.tables.closure_registered h.good c hc
  have hmutex : u.writeMutexMap[c]? = some u.writeMutexMap[c] := by grind
  refine ⟨u.writeMutexMap[c], hmutex, (hi'.tables.recordStatus_iff c).mpr hmem,
    (hi'.tables.count_iff c).mpr (.inl hmem), fun hq => ?_⟩
  have howner := hq.interfaceMoves hm h.good c hc (by simp)
  exact (Quiet.owner_eq (s := u.closing closure) hmutex).symm.trans howner

theorem Removing.treating {c : Nat} {cs : List Nat} (h : Removing s cs u) {closure : ExtTreeSet Nat}
    (hm : InterfaceMoves none s (u.closing closure)) :
    Treating s u c closure (u.requestsOf c) false u.requestMap u.requestMap u.requestCountMap where
  moves := hm
  failed := h.failed
  flagged id := by
    split
    · rename_i hid
      have hnone : u.requestMap[id]? = none := by
        by_contra hsome
        exact hid.2 (mem_requestsOf.mpr ⟨by grind, hid.1⟩)
      rw [hnone]
      rfl
    · rfl
  assigned id d hd hc hid := absurd (mem_requestsOf.mpr ⟨by grind, hc⟩) hid
  present := by
    refine ⟨by simp, ?_⟩
    rintro ⟨id, hc, hid, hmem⟩
    exact absurd (mem_requestsOf.mpr ⟨hmem, hc⟩) hid
  others _ _ := rfl

/-- What `EraseConnectionOrTerminate` leaves of the tables. -/
def System.unregistered (u : System) (c : Nat) (eraseRequestCount : Bool) : System :=
  { u with
    recordStatusMap := u.recordStatusMap.erase c
    writeMutexMap := u.writeMutexMap.erase c
    requestCountMap :=
      if eraseRequestCount then u.requestCountMap.erase c else u.requestCountMap }

theorem after_eraseConnectionOrTerminate {c : Nat} (h₁ : c ∈ u.recordStatusMap)
    (h₂ : c ∈ u.writeMutexMap) (h₃ : c ∈ u.requestCountMap) (b : Bool)
    {Q : Unit → System → Prop} {E : Failure → System → Prop} :
    After (eraseConnectionOrTerminate c b) u Q E ↔ Q () (u.unregistered c b) := by
  have hall : u.recordStatusMap.contains c ∧ u.writeMutexMap.contains c ∧
      (b → u.requestCountMap.contains c) := ⟨h₁, h₂, fun _ => h₃⟩
  simp only [eraseConnectionOrTerminate, after_bind, after_get]
  rw [if_pos hall, after_set]
  exact Iff.rfl

/-- The requests of the other connections are as they were. -/
theorem Treating.received {closure : ExtTreeSet Nat} {present : Bool}
    {actual unflagged : ExtTreeMap FcgiRequestIdentifier RequestData} {counts : ExtTreeMap Nat Nat}
    (h : Treating s u c closure [] present actual unflagged counts) {cs : List Nat}
    (hu : Removing s (c :: cs) u) (hmap : t.requestMap = actual)
    (hstatuses : t.recordStatusMap = u.recordStatusMap.erase c) (c' : Nat) (rs : RecordStatus)
    (hrs : t.recordStatusMap[c']? = some rs) : Received t c' rs ∨ c' ∈ cs := by
  rw [hstatuses] at hrs
  have hrs' : u.recordStatusMap[c']? = some rs ∧ c' ≠ c := by grind
  rcases hu.received c' rs hrs'.1 with hr | hmem
  · refine .inl (hr.agree fun id hid => ?_)
    have hne : id.descriptor ≠ c := hid ▸ hrs'.2
    rw [hmap, h.flagged, if_neg (by simp [hne]), h.others id hne]
  · exact .inr (by simpa [hrs'.2] using hmem)

theorem mem_erase_closure {closure : ExtTreeSet Nat} {c : Nat} {cs : List Nat} (hnew : c ∉ cs)
    (h : ∀ c', c' ∈ closure ↔ c' ∈ c :: cs) (c' : Nat) : c' ∈ closure.erase c ↔ c' ∈ cs := by
  have hc := h c'
  simp only [List.mem_cons] at hc
  constructor
  · intro hmem
    have hmem' : c' ∈ closure ∧ c' ≠ c := by grind
    rcases hc.mp hmem'.1 with he | hcs
    · exact absurd he hmem'.2
    · exact hcs
  · intro hcs
    have hne : c' ≠ c := by
      rintro rfl
      exact hnew hcs
    have hmem := hc.mpr (.inr hcs)
    grind

def System.redirected (u : System) (c : Nat) : System :=
  { u with descriptors := u.descriptors.modify c ({ · with redirected := true }) }

/-- A connection that has become a dummy. -/
def System.dummied (u : System) (c : Nat) : System :=
  System.unregistered { u.redirected c with dummyDescriptorSet := u.dummyDescriptorSet.insert c }
    c false

/-- A connection that was closed. -/
def System.shut (u : System) (c : Nat) : System :=
  { u.unregistered c true with
    descriptors := u.descriptors.erase c
    log := .closed c ((u.descriptors[c]?).map (·.socket)) false false :: u.log }

section Removed

variable {closure : ExtTreeSet Nat} {present : Bool} {cs : List Nat}
  {actual unflagged : ExtTreeMap FcgiRequestIdentifier RequestData} {counts : ExtTreeMap Nat Nat}
  {m : WriteMutex}

theorem Treating.flagged_all (h : Treating s u c closure [] present actual unflagged counts)
    (id : FcgiRequestIdentifier) : actual[id]? =
      if id.descriptor = c then
        (unflagged[id]?).map fun d => { d with connectionClosedByInterface := true }
      else unflagged[id]? := by
  rw [h.flagged]
  by_cases hc : id.descriptor = c
  · rw [if_pos ⟨hc, List.not_mem_nil⟩, if_pos hc]
  · rw [if_neg (by simp [hc]), if_neg hc]

/-- Setting the flags twice changes nothing. -/
theorem Treating.flagged_twice (h : Treating s u c closure [] present actual unflagged counts)
    (id : FcgiRequestIdentifier) : actual[id]? =
      if id.descriptor = c then
        (actual[id]?).map fun d => { d with connectionClosedByInterface := true }
      else actual[id]? := by
  by_cases hc : id.descriptor = c
  · rw [if_pos hc, h.flagged, if_pos ⟨hc, List.not_mem_nil⟩, Option.map_map]
    rfl
  · rw [if_neg hc]

theorem Treating.actual_assigned (h : Treating s u c closure [] present actual unflagged counts)
    (id : FcgiRequestIdentifier) (d : RequestData) (hd : actual[id]? = some d)
    (hc : id.descriptor = c) : d.requestStatus = .requestAssigned := by
  rw [h.flagged, if_pos ⟨hc, List.not_mem_nil⟩, Option.map_eq_some_iff] at hd
  obtain ⟨d', hd', rfl⟩ := hd
  exact h.assigned id d' hd' hc List.not_mem_nil

/-- Without requests there is nothing to flag. -/
theorem Treating.unchanged (h : Treating s u c closure [] false actual unflagged counts) :
    actual = unflagged ∧ (u.treated unflagged counts).requestsOf c = [] := by
  have hnone : ∀ id : FcgiRequestIdentifier, id.descriptor = c → id ∉ unflagged := by
    intro id hc hmem
    exact Bool.false_ne_true (h.present.mpr ⟨id, hc, List.not_mem_nil, hmem⟩)
  constructor
  · apply ExtTreeMap.ext_getElem?
    intro id
    rw [h.flagged]
    split
    · rename_i hc
      have hmem := hnone id hc.1
      have hn : unflagged[id]? = none := by grind
      rw [hn]
      rfl
    · rfl
  · rw [List.eq_nil_iff_forall_not_mem]
    intro id hmem
    obtain ⟨hin, hc⟩ := mem_requestsOf.mp hmem
    exact hnone id hc hin

theorem Removing.dummied (hu : Removing s (c :: cs) u) (hnew : c ∉ cs)
    (hclosure : ∀ c', c' ∈ closure ↔ c' ∈ c :: cs)
    (h : Treating s u c closure [] present actual unflagged counts)
    (hm : u.writeMutexMap[c]? = some m) (hfree : m.owner = none) :
    Removing s cs ((u.treated actual counts).dummied c) where
  good := hu.good
  moves := by
    refine ⟨closure.erase c, mem_erase_closure hnew hclosure, h.moves.tail ?_⟩
    exact .makeDummy hm hfree h.flagged_all fun id d hd hc =>
      h.assigned id d hd hc List.not_mem_nil
  failed := by
    exact (h.failed.tail (.makeDummy hm hfree h.flagged_twice h.actual_assigned)).tail
      (.closureSet rfl)
  halt := hu.halt
  identifier := hu.identifier
  requests := hu.requests
  received := h.received hu rfl rfl

theorem Removing.shut (hu : Removing s (c :: cs) u) (hnew : c ∉ cs)
    (hclosure : ∀ c', c' ∈ closure ↔ c' ∈ c :: cs)
    (h : Treating s u c closure [] false actual unflagged counts)
    (hm : u.writeMutexMap[c]? = some m) (hfree : m.owner = none) :
    Removing s cs ((u.treated actual counts).shut c) where
  good := hu.good
  moves := by
    obtain ⟨rfl, hnone⟩ := h.unchanged
    exact ⟨closure.erase c, mem_erase_closure hnew hclosure,
      h.moves.tail (.closeConnection hm hfree hnone)⟩
  failed := by
    obtain ⟨rfl, hnone⟩ := h.unchanged
    exact (h.failed.tail (.closeConnection hm hfree hnone)).tail (.closureSet rfl)
  halt := hu.halt
  identifier := hu.identifier
  requests := hu.requests
  received := h.received hu rfl rfl

theorem after_removeConnection (hi : Invariant s) (hu : Removing s (c :: cs) u) (hnew : c ∉ cs)
    (reply : SystemReply) :
    After (removeConnection reply c) u
      (fun removed t => (removed = true → Removing s cs t) ∧
        (removed = false → t = u ∧ ¬ Quiet none s))
      (fun e t => Abandoned s t ∧ e ≠ erroneouslyHeld) := by
  obtain ⟨m, hm, hstatus, hcount, hquiet⟩ := hu.registered hi
  obtain ⟨closure, hclosure, hmoves⟩ := hu.moves
  rw [removeConnection, after_tryCatch, after_bind, after_get]
  simp only [hm]
  rw [after_ite, after_pure]
  refine ⟨fun howner => ⟨by simp, fun _ => ⟨rfl, fun hq => ?_⟩⟩, fun howner => ?_⟩
  · rw [hquiet hq] at howner
    cases howner
  have hfree : m.owner = none := by simpa using howner
  rw [requestCleanupDuringConnectionClosure, after_bind, after_tryCatch, after_bind, after_get]
  refine (after_requestCleanupLoop hi (nodup_requestsOf u c)
    (fun id hid => (mem_requestsOf.mp hid).2) (hu.treating hmoves)).mono ?_ fun _ _ hf => hf.elim
  rintro present t ⟨actual, unflagged, counts, rfl, h⟩
  have hmutex : c ∈ u.writeMutexMap := by grind
  have hcounted : c ∈ counts := ((hi.interfaceMoves h.moves).tables.count_iff c).mpr (.inl hmutex)
  have habandoned : Abandoned s
      { u.treated actual counts with badInterfaceStateDetected := true } :=
    ⟨h.failed, rfl, hu.halt, hu.identifier, hu.requests⟩
  rw [after_ite]
  refine ⟨fun hpresent => ?_, fun habsent => ?_⟩
  · cases hdup : reply.dup2Fails c with
    | some e =>
      simp only [after_throw, after_bind, after_goBad]
      exact ⟨habandoned, by rintro ⟨⟩⟩
    | none =>
      have hredirect : InterfaceMove none
          { u.treated actual counts with badInterfaceStateDetected := true }
          { (u.treated actual counts).redirected c with badInterfaceStateDetected := true } :=
        .redirect rfl hm hfree
      simp only [after_bind, after_modify, after_ite, after_throw, after_goBad]
      refine ⟨fun _ =>
          ⟨⟨h.failed.tail hredirect, rfl, hu.halt, hu.identifier, hu.requests⟩, by rintro ⟨⟩⟩,
        fun _ => ?_⟩
      set v : System := { (u.treated actual counts).redirected c with
        dummyDescriptorSet := (u.treated actual counts).dummyDescriptorSet.insert c } with hv
      rw [show { (u.treated actual counts) with
          descriptors := (u.treated actual counts).descriptors.modify c ({ · with redirected := true })
          dummyDescriptorSet := (u.treated actual counts).dummyDescriptorSet.insert c } = v from rfl,
        after_eraseConnectionOrTerminate (u := v) hstatus hmutex hcounted]
      exact ⟨fun _ => hu.dummied hnew hclosure h hm hfree, by simp⟩
  · have hshut : ∀ present, present = false →
        Treating s u c closure [] present actual unflagged counts →
        Removing s cs ((u.treated actual counts).shut c) := by
      rintro _ rfl h
      exact hu.shut hnew hclosure h hm hfree
    have hpresent : present = false := by simpa using habsent
    have hremoved := hshut present hpresent h
    have hassigned : (u.treated actual counts).assigned c = false := by
      subst hpresent
      obtain ⟨rfl, hnone⟩ := h.unchanged
      exact not_assigned hnone
    rw [after_bind, after_eraseConnectionOrTerminate (u := u.treated actual counts) hstatus hmutex
      hcounted, after_bind, closeDescriptor, after_modify]
    have hstate : ((u.treated actual counts).unregistered c true).assigned c = false := hassigned
    rw [hstate]
    cases reply.closeFails c with
    | none => exact ⟨fun _ => hremoved, by simp⟩
    | some e =>
      rw [after_ite, after_bind, after_throw, after_bind, after_goBad, after_throw, after_pure]
      exact ⟨fun _ => ⟨hremoved.abandoned, by rintro ⟨⟩⟩, fun _ => ⟨fun _ => hremoved, by simp⟩⟩

end Removed

/-- A write mutex that was held is the only reason for `erroneouslyHeld`. -/
theorem after_removeConnections (hi : Invariant s) {cs : List Nat} (hnodup : cs.Nodup)
    (hu : Removing s cs u) (reply : SystemReply) :
    After (removeConnections reply cs) u (fun _ t => Removing s [] t)
      (fun e t => Abandoned s { t with badInterfaceStateDetected := true } ∧
        (Quiet none s → e ≠ erroneouslyHeld)) := by
  induction cs generalizing u with
  | nil => exact hu
  | cons c cs ih =>
    obtain ⟨hnew, hnodup⟩ := List.nodup_cons.mp hnodup
    unfold removeConnections
    rw [after_bind]
    refine (after_removeConnection hi hu hnew reply).mono ?_ ?_
    · intro removed t ht
      rw [after_ite, after_bind, after_throw]
      refine ⟨fun hfalse => ?_, fun htrue => ih hnodup (ht.1 (by simpa using htrue))⟩
      obtain ⟨rfl, hquiet⟩ := ht.2 hfalse
      exact ⟨hu.abandoned, fun hq => absurd hq hquiet⟩
    · intro e t ht
      refine ⟨⟨ht.1.moves.tail (.request 0 .bad), rfl, ht.1.halt, ht.1.identifier, ht.1.requests⟩,
        fun _ => ht.2⟩

/-! ## The section -/

theorem nodup_toList (cs : ExtTreeSet Nat) : cs.toList.Nodup := by
  have h := cs.distinct_toList
  refine h.imp fun hne he => ?_
  subst he
  exact hne compare_self

/-- What the interface thread knows before and after the cleanup; the section
ends in a good state unless it throws. -/
structure CleanedUp (s t : System) : Prop where
  moves : InterfaceMoves none s t
  halt : t.halt = s.halt
  identifier : t.interfaceIdentifier = s.interfaceIdentifier
  requests : t.requests = s.requests

theorem after_cleanup (hi : Invariant s)
    (hreceived : s.Current) (reply : SystemReply) :
    After (cleanup reply) s
      (fun _ t => CleanedUp s t ∧
        (∀ (c : Nat) (rs : RecordStatus), t.recordStatusMap[c]? = some rs → Received t c rs) ∧
        t.applicationClosureRequestSet = ∅ ∧ t.badInterfaceStateDetected = false)
      (fun e t => CleanedUp s t ∧ t.Current ∧ (Quiet none s → e ≠ erroneouslyHeld)) := by
  rw [cleanup, after_bind, acceptRequestsCheck, after_interfaceCheck]
  refine ⟨fun hbad => ?_, fun hgood => ?_⟩
  · exact ⟨⟨.refl, rfl, rfl, rfl⟩, hreceived, by rintro _ ⟨⟩⟩
  rw [after_bind, after_get, after_bind]
  have hdummies : ∀ c ∈ s.dummyDescriptorSet.toList, c ∈ s.dummyDescriptorSet := by
    intro c hc
    simpa using hc
  refine (after_closeDummyDescriptors reply hi hdummies (nodup_toList _)).mono ?_ ?_
  · rintro _ t ⟨ht, hbad⟩
    have hreceived' : t.Current := by
      intro _ c rs hrs
      rw [ht.statuses] at hrs
      rw [ht.closure]
      exact (hreceived hgood c rs hrs).imp_left (.congr ht.map)
    have hpipe : ∀ n, CleanedUp s { t with selfPipe := n } := fun n =>
      ⟨ht.moves.tail (.request 0 (.pipe n)), ht.halt, ht.identifier, ht.requests⟩
    have hswept : CleanedUp s t := ⟨ht.moves, ht.halt, ht.identifier, ht.requests⟩
    rw [after_bind, clearSelfPipe]
    cases reply.pipeRead with
    | endOfFile =>
      rw [after_bind, after_goBad, after_throw]
      exact ⟨⟨ht.moves.tail (.request 0 .bad), ht.halt, ht.identifier, ht.requests⟩,
        by rintro ⟨⟩, by simp [erroneouslyHeld]⟩
    | failed e =>
      rw [after_throw]
      exact ⟨hswept, hreceived', by rintro _ ⟨⟩⟩
    | drained =>
      rw [after_modify, after_tryCatch, after_bind, after_get, after_bind]
      set u : System := { t with selfPipe := 0 } with hu
      have hmoves : InterfaceMoves none s u := (hpipe 0).moves
      have hstart : Removing u u.applicationClosureRequestSet.toList u :=
        { good := hbad.trans hgood
          moves := ⟨u.applicationClosureRequestSet, fun c => ExtTreeSet.mem_toList.symm, .refl⟩
          failed := .single (.request 0 .bad)
          halt := rfl
          identifier := rfl
          requests := rfl
          received := by
            intro c rs hrs
            rw [ExtTreeSet.mem_toList]
            exact (hreceived' (hbad.trans hgood) c rs hrs).imp_left (.congr (by rfl)) }
      refine (after_removeConnections (hi.interfaceMoves hmoves) (nodup_toList _) hstart reply).mono
        ?_ ?_
      · intro _ v hv
        rw [after_modify]
        obtain ⟨closure, hclosure, hm⟩ := hv.moves
        have hempty : closure = ∅ := by
          apply ExtTreeSet.ext_mem
          intro c
          simp [hclosure]
        subst hempty
        refine ⟨⟨hmoves.trans hm, hv.halt.trans ht.halt, hv.identifier.trans ht.identifier,
          hv.requests.trans ht.requests⟩, fun c rs hrs => ?_, rfl, hv.good⟩
        rcases hv.received c rs hrs with hr | hmem
        · exact hr.congr (by rfl)
        · cases hmem
      · intro e v hv
        rw [after_bind, after_goBad, after_throw]
        refine ⟨⟨hmoves.trans hv.1.moves, hv.1.halt.trans ht.halt, hv.1.identifier.trans ht.identifier,
          hv.1.requests.trans ht.requests⟩, by rintro ⟨⟩, fun hq => ?_⟩
        exact hv.2 (hq.interfaceMoves hmoves)
  · rintro e t ⟨ht, hbad, he⟩
    refine ⟨⟨ht.moves, ht.halt, ht.identifier, ht.requests⟩, fun hg => ?_, fun _ => he⟩
    rw [hbad] at hg
    cases hg

end AsComponents.Server
