import AsComponents.Reachability

/-! The tables of the interface in every reachable state. -/

namespace AsComponents.Server

open Protocol NameValue SocketFunctions AsComponents.Partition Std Critical

/-! ## A run -/

/-- A newly constructed interface with the default values. -/
def start : Config := ⟨{}, .idle⟩

theorem initial_start : Initial start.system where
  maximumRequestCount_pos := by decide
  limits := by constructor <;> decide
  recordStatusMap := rfl
  dummyDescriptorSet := rfl
  requestBufferOnThrow := rfl
  writeMutexMap := rfl
  interfaceIdentifier := by decide
  closureRequestSet := rfl
  requestCountMap := rfl
  requestMap := rfl
  good := rfl
  stale _ := show (0 : Nat) ≠ 1 by decide
  notWriting _ _ _ _ _ _ := by rintro ⟨⟩
  notHeld _ := rfl
  looping _ _ _ := by rintro ⟨⟩
  idle _ _ := rfl
  nextRequest _ _ := rfl
  descriptors := rfl
  sockets _ := rfl
  halt := rfl
  transmissions _ := rfl
  log := rfl

/-- Descriptor 5 is accepted. -/
def connect : List Action :=
  [.accept, .interface {}, .interface {},
    .interface { select := .ready [] 1 [.accepted 5 true] }, .interface {}, .interface {},
    .interface {}, .finish]

/-- A whole request with id 1 is received on descriptor 5 and its object is
constructed. -/
def receive : List Action :=
  [.accept, .interface {}, .interface {},
    .interface { select := .ready [(5, [.drained (populateBeginRequestRecord 1 1 true ++
      populateHeader kFcgiParams 1 0 0 ++ populateHeader kFcgiStdin 1 0 0)])] 0 [] }] ++
    List.replicate 16 (.interface {}) ++ [.finish]

/-- The request of `receive` is in the map and its object is alive. -/
def served : Config := ((run start (connect ++ receive)).getD start)

theorem reachable_served : Reachable served := by
  have hsome : (run start (connect ++ receive)).isSome := by decide +kernel
  obtain ⟨d, hd⟩ := Option.isSome_iff_exists.mp hsome
  rw [served, hd]
  exact reachable_run (.initial initial_start) hd

/-! ## Descriptors -/

/-- How the containers of the interface fit together. -/
structure ConnectionsConsistent (s : System) : Prop where
  recordStatus_iff : ∀ c, c ∈ s.recordStatusMap ↔ c ∈ s.writeMutexMap
  closure_registered : ∀ c ∈ s.applicationClosureRequestSet, c ∈ s.writeMutexMap
  dummy_unregistered : ∀ c ∈ s.dummyDescriptorSet,
    c ∉ s.writeMutexMap ∧ c ∉ s.applicationClosureRequestSet
  count_iff : ∀ c, c ∈ s.requestCountMap ↔ c ∈ s.writeMutexMap ∨ c ∈ s.dummyDescriptorSet
  closed_iff : ∀ (id : FcgiRequestIdentifier) (d : RequestData), s.requestMap[id]? = some d →
    (d.connectionClosedByInterface = true ↔ id.descriptor ∈ s.dummyDescriptorSet)

theorem Tables.consistent {s : System} (h : Tables s) (hgood : s.badInterfaceStateDetected = false) :
    ConnectionsConsistent s where
  recordStatus_iff := h.recordStatus_iff
  closure_registered := h.closure_registered hgood
  dummy_unregistered c hc :=
    ⟨h.dummy_disjoint c hc, fun hr => h.dummy_disjoint c hc (h.closure_registered hgood c hr)⟩
  count_iff := h.count_iff
  closed_iff id d hd := ⟨h.closed_dummy hgood id d hd, h.dummy_closed id d hd⟩

theorem Closes.at_most_once {s : System} (h : Closes s) {c k : Nat}
    (hr : .registered c k ∈ s.log) : s.log.countP (Event.closes k) ≤ 1 := by
  rcases h.settled c k hr with ⟨r, hd⟩ | hone
  · rw [h.open_unclosed c _ hd]
    exact Nat.zero_le 1
  · exact Nat.le_of_eq hone

/-- Every descriptor that was registered is closed at most once, and once when
the interface has been destroyed; nothing else is closed, and before the
destructor no descriptor with an assigned request. -/
theorem descriptors_consistent {c : Config} (h : Reachable c) :
    (c.system.badInterfaceStateDetected = false → ConnectionsConsistent c.system) ∧
    (∀ d k, .registered d k ∈ c.system.log → c.system.log.countP (Event.closes k) ≤ 1 ∧
      (c.interface = .destroyed → c.system.log.countP (Event.closes k) = 1)) ∧
    ∀ d k assigned destroying, .closed d k assigned destroying ∈ c.system.log →
      (∃ j, k = some j ∧ .registered d j ∈ c.system.log) ∧
        (destroying = false → assigned = false) := by
  have hsane := sane_of_reachable h
  have hcloses := hsane.invariant.closes
  refine ⟨hsane.invariant.tables.consistent, fun d k hr => ⟨hcloses.at_most_once hr, fun he => ?_⟩,
    fun d k a b hc => ⟨hcloses.closed_known d k a b hc, ?_⟩⟩
  · have hempty : c.system.descriptors = ∅ := by
      have hthread := hsane.thread
      rw [he] at hthread
      exact hthread
    rcases hcloses.settled d k hr with ⟨r, hd⟩ | hone
    · rw [hempty] at hd
      simp at hd
    · exact hone
  · rintro rfl
    exact hcloses.unassigned d k a hc

theorem descriptors_consistent_served :
    served.system.badInterfaceStateDetected = false ∧
      .registered 5 0 ∈ served.system.log ∧ 5 ∈ served.system.writeMutexMap ∧
      ConnectionsConsistent served.system ∧ served.system.log.countP (Event.closes 0) ≤ 1 := by
  have hgood : served.system.badInterfaceStateDetected = false := by decide +kernel
  have hregistered : .registered 5 0 ∈ served.system.log := by decide +kernel
  obtain ⟨hconsistent, hcloses, -⟩ := descriptors_consistent reachable_served
  exact ⟨hgood, hregistered, by decide +kernel, hconsistent hgood, (hcloses 5 0 hregistered).1⟩

/-! ## Requests -/

/-- How `request_map_` fits its counts and the request objects. -/
structure RequestsConsistent (s : System) : Prop where
  count : ∀ c, (s.requestsOf c).length = (s.requestCountMap[c]?).getD 0
  le_max : ∀ c, (s.requestsOf c).length ≤ s.maximumRequestCountPerConnection
  object : ∀ (id : FcgiRequestIdentifier) (d : RequestData), s.requestMap[id]? = some d →
    d.requestStatus = .requestAssigned → ∃! i, s.Live i ∧ (s.requests i).requestIdentifier = id
  request : ∀ i, s.Live i → ∃ d, s.requestMap[(s.requests i).requestIdentifier]? = some d ∧
    d.requestStatus = .requestAssigned ∧ d.node = (s.requests i).node

theorem Invariant.requestsConsistent {s : System} (h : Invariant s)
    (hgood : s.badInterfaceStateDetected = false) : RequestsConsistent s := by
  have hcount : ∀ c, (s.requestsOf c).length = (s.requestCountMap[c]?).getD 0 := by
    intro c
    cases hn : s.requestCountMap[c]? with
    | some n => exact (h.counts.count c n hn).symm
    | none =>
      rw [Option.getD_none, List.length_eq_zero_iff, List.eq_nil_iff_forall_not_mem]
      intro id hid
      obtain ⟨hmem, hc⟩ := mem_requestsOf.mp hid
      have hd : s.requestMap[id]? = some s.requestMap[id] := by grind
      obtain ⟨n, hpos⟩ := count_pos h hd
      rw [hc, hn] at hpos
      cases hpos
  refine ⟨hcount, fun c => ?_, fun id d hd ha => ?_, fun i hl => ?_⟩
  · rw [hcount c]
    cases hn : s.requestCountMap[c]? with
    | some n => exact h.counts.le_max c n hn
    | none => exact Nat.zero_le _
  · obtain ⟨i, hl, hid⟩ := h.objects.owned hgood id d hd ha
    refine ⟨i, ⟨hl, hid⟩, fun j hj => ?_⟩
    exact h.objects.inj hgood j i hj.1 hl (hj.2.trans hid.symm)
  · obtain ⟨d, howns, -⟩ := h.objects.owns hgood i hl
    exact ⟨d, howns.data, howns.assigned, howns.node⟩

/-- A call of `RemoveRequest` by a request object finds its own request. -/
theorem requests_consistent {c : Config} (h : Reachable c) :
    (c.system.badInterfaceStateDetected = false → RequestsConsistent c.system) ∧
    ∀ node found returned, .removed node found returned ∈ c.system.log →
      found = some node ∧ returned = true := by
  have hi := invariant_of_reachable h
  exact ⟨hi.requestsConsistent, hi.objects.removed⟩

theorem requests_consistent_served :
    served.system.badInterfaceStateDetected = false ∧ served.system.requestsOf 5 = [⟨5, 1⟩] ∧
      RequestsConsistent served.system := by
  have hgood : served.system.badInterfaceStateDetected = false := by decide +kernel
  exact ⟨hgood, by decide +kernel, (requests_consistent reachable_served).1 hgood⟩

end AsComponents.Server
