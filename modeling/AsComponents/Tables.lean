import AsComponents.Moves

/-! Which descriptors the maps and sets of the interface contain. -/

namespace AsComponents.Server

open Protocol NameValue SocketFunctions AsComponents.Partition Std

/-- The relations between the maps and sets that are keyed by descriptors. -/
structure Tables (s : System) : Prop where
  recordStatus_iff : ∀ c, c ∈ s.recordStatusMap ↔ c ∈ s.writeMutexMap
  dummy_disjoint : ∀ c, c ∈ s.dummyDescriptorSet → c ∉ s.writeMutexMap
  count_iff : ∀ c, c ∈ s.requestCountMap ↔ c ∈ s.writeMutexMap ∨ c ∈ s.dummyDescriptorSet
  descriptors_iff : ∀ c, c ∈ s.descriptors ↔ c ∈ s.writeMutexMap ∨ c ∈ s.dummyDescriptorSet
  mutex_socket : ∀ (c : Nat) (m : WriteMutex), s.writeMutexMap[c]? = some m →
    ∃ r, s.descriptors[c]? = some ⟨m.socket, r⟩
  connected : ∀ (c : Nat) (m : WriteMutex), s.writeMutexMap[c]? = some m →
    s.badInterfaceStateDetected = false ∨ m.owner ≠ none →
      s.descriptors[c]? = some ⟨m.socket, false⟩
  closure_registered : s.badInterfaceStateDetected = false →
    ∀ c, c ∈ s.applicationClosureRequestSet → c ∈ s.writeMutexMap
  socket_lt : ∀ (c : Nat) (d : Descriptor), s.descriptors[c]? = some d → d.socket < s.nextSocket
  socket_inj : ∀ (c c' : Nat) (d d' : Descriptor), s.descriptors[c]? = some d →
    s.descriptors[c']? = some d' → d.socket = d'.socket → c = c'
  request_socket : ∀ (id : FcgiRequestIdentifier) (d : RequestData), s.requestMap[id]? = some d →
    ∃ r, s.descriptors[id.descriptor]? = some ⟨d.socket, r⟩
  dummy_closed : ∀ (id : FcgiRequestIdentifier) (d : RequestData), s.requestMap[id]? = some d →
    id.descriptor ∈ s.dummyDescriptorSet → d.connectionClosedByInterface = true
  closed_dummy : s.badInterfaceStateDetected = false →
    ∀ (id : FcgiRequestIdentifier) (d : RequestData), s.requestMap[id]? = some d →
      d.connectionClosedByInterface = true → id.descriptor ∈ s.dummyDescriptorSet
  closed_assigned : ∀ (id : FcgiRequestIdentifier) (d : RequestData),
    s.requestMap[id]? = some d → d.connectionClosedByInterface = true →
      d.requestStatus = .requestAssigned

theorem mem_requestsOf {s : System} {c : Nat} {id : FcgiRequestIdentifier} :
    id ∈ s.requestsOf c ↔ id ∈ s.requestMap ∧ id.descriptor = c := by
  simp [System.requestsOf]

theorem not_requestsOf {s : System} {c : Nat} (h : s.requestsOf c = [])
    {id : FcgiRequestIdentifier} {d : RequestData} (hd : s.requestMap[id]? = some d) :
    id.descriptor ≠ c := by
  intro hc
  have hmem : id ∈ s.requestsOf c := mem_requestsOf.mpr ⟨by grind, hc⟩
  simp [h] at hmem

namespace Tables

variable {s t : System}

theorem setRequest (h : Tables s) (i : Nat) (o : FcgiRequest) : Tables (s.setRequest i o) :=
  { h with }

theorem record (h : Tables s) (e : Event) : Tables (s.record e) := { h with }

/-- A request is removed and its connection counted anew. -/
theorem eraseRequest (h : Tables s) {id : FcgiRequestIdentifier} {n : Nat}
    (hc : id.descriptor ∈ s.requestCountMap) : Tables (s.eraseRequest id n) :=
  { h with
    count_iff := by
      intro c
      have := h.count_iff c
      simp only [System.eraseRequest]
      grind
    request_socket := by
      intro id' d hd
      simp only [System.eraseRequest] at hd
      exact h.request_socket id' d (by grind)
    dummy_closed := by
      intro id' d hd
      simp only [System.eraseRequest] at hd
      exact h.dummy_closed id' d (by grind)
    closed_dummy := by
      intro hg id' d hd
      simp only [System.eraseRequest] at hd
      exact h.closed_dummy hg id' d (by grind)
    closed_assigned := by
      intro id' d hd
      simp only [System.eraseRequest] at hd
      exact h.closed_assigned id' d (by grind) }

/-- The mutex of a connection is replaced by one for the same connection. -/
theorem setWriteMutex (h : Tables s) {c : Nat} {m : WriteMutex} (m' : WriteMutex)
    (hm : s.writeMutexMap[c]? = some m) (hs : m'.socket = m.socket)
    (hc : m'.owner ≠ none → s.descriptors[c]? = some ⟨m.socket, false⟩) :
    Tables (s.setWriteMutex c m') := by
  have hmem : c ∈ s.writeMutexMap := by grind
  have hiff : ∀ c', c' ∈ s.writeMutexMap.insert c m' ↔ c' ∈ s.writeMutexMap := by grind
  refine
    { h with
      recordStatus_iff := ?_
      dummy_disjoint := ?_
      count_iff := ?_
      descriptors_iff := ?_
      mutex_socket := ?_
      connected := ?_
      closure_registered := ?_ }
  · intro c'
    exact (h.recordStatus_iff c').trans (hiff c').symm
  · intro c' hd hw
    exact h.dummy_disjoint c' hd ((hiff c').mp hw)
  · intro c'
    exact (h.count_iff c').trans (or_congr (hiff c').symm Iff.rfl)
  · intro c'
    exact (h.descriptors_iff c').trans (or_congr (hiff c').symm Iff.rfl)
  · intro c' m₁ hm₁
    simp only [System.setWriteMutex, ExtTreeMap.getElem?_insert] at hm₁
    have h₀ := h.mutex_socket c m hm
    have h₁ := h.mutex_socket c' m₁
    grind [System.setWriteMutex]
  · intro c' m₁ hm₁ hg
    simp only [System.setWriteMutex, ExtTreeMap.getElem?_insert] at hm₁
    have h₀ := h.connected c m hm
    have h₁ := h.connected c' m₁
    grind [System.setWriteMutex]
  · intro hg c' hc'
    exact (hiff c').mpr (h.closure_registered hg c' hc')

theorem offered (h : Tables s) {c : Nat} {m : WriteMutex} {origin : Option Nat} {bytes : Bytes}
    {socket : Socket} {accepted : Nat} {corrupt : Bool}
    (ho : Offer s c m bytes socket accepted corrupt) :
    Tables (s.offered c m origin bytes socket accepted corrupt) := by
  have h' : Tables ((s.setSocket m.socket socket).setTransmissions m.socket
      (s.transmissions m.socket ++ [⟨origin, bytes, accepted⟩])) := { h with }
  exact h'.setWriteMutex _ ho.mutex rfl fun _ => ho.connected

theorem retired (h : Tables s) {i n : Nat} {o : FcgiRequest}
    (hc : s.requestCountMap[(s.requests i).requestIdentifier.descriptor]? = some (n + 1)) :
    Tables (s.retired i o n) :=
  ((h.eraseRequest (by grind)).record _).setRequest i o

theorem requestMove (h : Tables s) {i : Nat} (hm : RequestMove i s t) : Tables t := by
  cases hm with
  | object => exact h.setRequest i _
  | drop => exact h.setRequest i _
  | retire _ _ _ hc => exact h.retired hc
  | conclude _ _ _ hc _ ho => exact (h.offered ho).retired hc
  | note => exact h.record _
  | schedule hm _ =>
    refine { h with closure_registered := ?_ }
    intro hg c hc
    have := h.closure_registered hg c
    grind
  | pipe => exact { h with }
  | bad =>
    refine
      { h with
        connected := ?_
        closure_registered := ?_
        closed_dummy := ?_ }
    · intro c m hm hg
      exact h.connected c m hm (hg.imp_left fun hb => by simp at hb)
    · intro hb
      simp at hb
    · intro hb
      simp at hb
  | terminate => exact { h with }
  | @acquire d m _ _ _ _ owns _ _ hm =>
    have h' := h.setWriteMutex { m with owner := some i } hm rfl
      fun _ => h.connected _ _ hm (.inl owns.good)
    exact { h' with }
  | progress => exact { h with }
  | @leave _ _ _ _ _ _ m _ corrupt _ _ _ hm =>
    have h' := h.setWriteMutex { m with owner := none, corrupt := m.corrupt || corrupt } hm
      rfl fun hne => absurd rfl hne
    exact { h' with }
  | moveConstruct => exact { h with }
  | moveAssign => exact { h with }

theorem interfaceMove (h : Tables s) {loose : Option Nat} (hm : InterfaceMove loose s t) : Tables t := by
  cases hm with
  | request i hm => exact h.requestMove hm
  | halt => exact { h with }
  | frame hk =>
    refine { h with recordStatus_iff := ?_ }
    intro c
    exact (hk c).trans (h.recordStatus_iff c)
  | schedule hr _ =>
    refine { h with closure_registered := ?_ }
    intro hg c hc
    have := h.closure_registered hg c
    grind
  | beginRequest hn hm hc =>
    refine
      { h with
        count_iff := ?_
        request_socket := ?_
        dummy_closed := ?_
        closed_dummy := ?_
        closed_assigned := ?_ }
    · intro c
      have := h.count_iff c
      grind
    · intro id d hd
      have h₀ := h.mutex_socket _ _ hm
      have h₁ := h.request_socket id d
      grind
    · intro id d hd hdummy
      have h₀ := h.dummy_disjoint _ hdummy
      have h₁ := h.dummy_closed id d
      grind
    · intro hg id d hd
      have h₁ := h.closed_dummy hg id d
      grind
    · intro id d hd
      have h₁ := h.closed_assigned id d
      grind
  | reject => exact { h with }
  | touch hd hs =>
    refine
      { h with
        request_socket := ?_
        dummy_closed := ?_
        closed_dummy := ?_
        closed_assigned := ?_ }
    · intro id d hd'
      have h₀ := h.request_socket _ _ hd
      have h₁ := h.request_socket id d
      grind [System.setData, hs.socket]
    · intro id d hd'
      have h₀ := h.dummy_closed _ _ hd
      have h₁ := h.dummy_closed id d
      grind [System.setData, hs.closed]
    · intro hg id d hd'
      have h₀ := h.closed_dummy hg _ _ hd
      have h₁ := h.closed_dummy hg id d
      grind [System.setData, hs.closed]
    · intro id d hd'
      have h₀ := h.closed_assigned _ _ hd
      have h₁ := h.closed_assigned id d
      grind [System.setData, hs.closed, hs.requestStatus]
  | @remove id _ n _ _ _ hc =>
    have hmem : id.descriptor ∈ s.requestCountMap := by grind
    have h' := h.eraseRequest (n := n) hmem
    exact { h' with }
  | construct _ _ hd =>
    refine
      { h with
        request_socket := ?_
        dummy_closed := ?_
        closed_dummy := ?_
        closed_assigned := ?_ }
    · intro id d hd'
      have h₀ := h.request_socket _ _ hd
      have h₁ := h.request_socket id d
      grind
    · intro id d hd'
      have h₀ := h.dummy_closed _ _ hd
      have h₁ := h.dummy_closed id d
      grind
    · intro hg id d hd'
      have h₀ := h.closed_dummy hg _ _ hd
      have h₁ := h.closed_dummy hg id d
      grind
    · intro id d hd'
      have h₁ := h.closed_assigned id d
      grind
  | send ho => exact h.offered ho
  | @closeDummy c hdummy hnone =>
    have hne := fun id d => @not_requestsOf s c hnone id d
    refine
      { h with
        dummy_disjoint := ?_
        count_iff := ?_
        descriptors_iff := ?_
        mutex_socket := ?_
        connected := ?_
        socket_lt := ?_
        socket_inj := ?_
        request_socket := ?_
        dummy_closed := ?_
        closed_dummy := ?_ }
    · intro c' hc'
      exact h.dummy_disjoint c' (by grind)
    · intro c'
      have h₀ := h.dummy_disjoint c hdummy
      have h₁ := h.count_iff c'
      grind
    · intro c'
      have h₀ := h.dummy_disjoint c hdummy
      have h₁ := h.descriptors_iff c'
      grind
    · intro c' m hm
      have h₀ := h.dummy_disjoint c hdummy
      have h₁ := h.mutex_socket c' m hm
      grind
    · intro c' m hm hg
      have h₀ := h.dummy_disjoint c hdummy
      have h₁ := h.connected c' m hm hg
      grind
    · intro c' d hd
      exact h.socket_lt c' d (by grind)
    · intro c₁ c₂ d₁ d₂ h₁ h₂
      exact h.socket_inj c₁ c₂ d₁ d₂ (by grind) (by grind)
    · intro id d hd
      have h₀ := hne id d hd
      have h₁ := h.request_socket id d hd
      grind
    · intro id d hd hc'
      exact h.dummy_closed id d hd (by grind)
    · intro hg id d hd hcl
      have h₀ := hne id d hd
      have h₁ := h.closed_dummy hg id d hd hcl
      grind
  | @closeConnection c m hm hf hnone =>
    have hne := fun id d => @not_requestsOf s c hnone id d
    have hdummy : c ∉ s.dummyDescriptorSet := by
      intro hd
      exact h.dummy_disjoint c hd (by grind)
    refine
      { h with
        recordStatus_iff := ?_
        dummy_disjoint := ?_
        count_iff := ?_
        descriptors_iff := ?_
        mutex_socket := ?_
        connected := ?_
        closure_registered := ?_
        socket_lt := ?_
        socket_inj := ?_
        request_socket := ?_ }
    · intro c'
      have := h.recordStatus_iff c'
      grind
    · intro c' hc'
      have := h.dummy_disjoint c' hc'
      grind
    · intro c'
      have := h.count_iff c'
      grind
    · intro c'
      have := h.descriptors_iff c'
      grind
    · intro c' m' hm'
      have := h.mutex_socket c' m'
      grind
    · intro c' m' hm' hg
      have := h.connected c' m'
      grind
    · intro hg c' hc'
      have := h.closure_registered hg c'
      grind
    · intro c' d hd
      exact h.socket_lt c' d (by grind)
    · intro c₁ c₂ d₁ d₂ h₁ h₂
      exact h.socket_inj c₁ c₂ d₁ d₂ (by grind) (by grind)
    · intro id d hd
      have h₀ := hne id d hd
      have h₁ := h.request_socket id d hd
      grind
  | @makeDummy c m requests hm hf hflag has =>
    refine
      { h with
        recordStatus_iff := ?_
        dummy_disjoint := ?_
        count_iff := ?_
        descriptors_iff := ?_
        mutex_socket := ?_
        connected := ?_
        closure_registered := ?_
        socket_lt := ?_
        socket_inj := ?_
        request_socket := ?_
        dummy_closed := ?_
        closed_dummy := ?_
        closed_assigned := ?_ }
    · intro c'
      have := h.recordStatus_iff c'
      grind
    · intro c' hc'
      have := h.dummy_disjoint c'
      grind
    · intro c'
      have := h.count_iff c'
      grind
    · intro c'
      have := h.descriptors_iff c'
      grind
    · intro c' m' hm'
      have := h.mutex_socket c' m'
      grind
    · intro c' m' hm' hg
      have := h.connected c' m'
      grind
    · intro hg c' hc'
      have := h.closure_registered hg c'
      grind
    · intro c' d hd
      have := h.socket_lt c'
      grind
    · intro c₁ c₂ d₁ d₂ h₁ h₂
      have := h.socket_inj c₁ c₂
      grind
    · intro id d hd
      have h₀ := hflag id
      have h₁ := h.request_socket id
      grind
    · intro id d hd hc'
      have h₀ := hflag id
      have h₁ := h.dummy_closed id
      grind
    · intro hg id d hd hcl
      have h₀ := hflag id
      have h₁ := h.closed_dummy hg id
      grind
    · intro id d hd hcl
      have h₀ := hflag id
      have h₁ := h.closed_assigned id
      have h₂ := has id
      grind
  | flag hb hd has =>
    refine
      { h with
        request_socket := ?_
        dummy_closed := ?_
        closed_dummy := ?_
        closed_assigned := ?_ }
    · intro id d hd'
      have h₀ := h.request_socket _ _ hd
      have h₁ := h.request_socket id d
      grind [System.setData]
    · intro id d hd' hdummy
      have h₁ := h.dummy_closed id d
      grind [System.setData]
    · intro hg
      simp [System.setData, hb] at hg
    · intro id d hd' hcl
      have h₁ := h.closed_assigned id d
      grind [System.setData]
  | @redirect c m hb hm hf =>
    refine
      { h with
        descriptors_iff := ?_
        mutex_socket := ?_
        connected := ?_
        socket_lt := ?_
        socket_inj := ?_
        request_socket := ?_ }
    · intro c'
      have := h.descriptors_iff c'
      grind
    · intro c' m' hm'
      have := h.mutex_socket c' m' hm'
      grind
    · intro c' m' hm' hg
      have := h.connected c' m' hm'
      grind
    · intro c' d hd
      have := h.socket_lt c'
      grind
    · intro c₁ c₂ d₁ d₂ h₁ h₂
      have := h.socket_inj c₁ c₂
      grind
    · intro id d hd
      have h₁ := h.request_socket id d hd
      grind
  | closureSet hb =>
    refine { h with closure_registered := ?_ }
    intro hg
    simp [hb] at hg
  | @register c ha hcl =>
    have hnew : c ∉ s.descriptors := by
      intro hc
      rw [ExtTreeMap.contains_iff_mem.mpr hc] at hcl
      cases hcl
    have hwm : c ∉ s.writeMutexMap := fun hc => hnew ((h.descriptors_iff c).mpr (.inl hc))
    have hdummy : c ∉ s.dummyDescriptorSet := fun hc => hnew ((h.descriptors_iff c).mpr (.inr hc))
    refine
      { h with
        recordStatus_iff := ?_
        dummy_disjoint := ?_
        count_iff := ?_
        descriptors_iff := ?_
        mutex_socket := ?_
        connected := ?_
        closure_registered := ?_
        socket_lt := ?_
        socket_inj := ?_
        request_socket := ?_ }
    · intro c'
      have := h.recordStatus_iff c'
      grind
    · intro c' hc'
      have := h.dummy_disjoint c' hc'
      grind
    · intro c'
      have := h.count_iff c'
      grind
    · intro c'
      have := h.descriptors_iff c'
      grind
    · intro c' m' hm'
      have := h.mutex_socket c' m'
      by_cases hc : c = c'
      · exact ⟨false, by grind⟩
      · grind
    · intro c' m' hm' hg
      have := h.connected c' m'
      grind
    · intro hg c' hc'
      have := h.closure_registered hg c' hc'
      grind
    · intro c' d hd
      have := h.socket_lt c' d
      grind
    · intro c₁ c₂ d₁ d₂ h₁ h₂
      have := h.socket_inj c₁ c₂ d₁ d₂
      have := h.socket_lt c₁ d₁
      have := h.socket_lt c₂ d₂
      grind
    · intro id d hd
      have h₁ := h.request_socket id d hd
      grind
  | release => exact { h with }
  | destroy =>
    constructor <;> simp

end Tables

end AsComponents.Server
