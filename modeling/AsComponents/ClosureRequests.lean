import AsComponents.Consistency

/-! What a request with `close_connection_` set does to the interface when it
ends: its connection is to be closed, which takes a byte of the self-pipe. -/

namespace AsComponents.Server

open Protocol NameValue SocketFunctions AsComponents.Partition Std Critical

/-- The object is assigned to a request of an open connection which is to be
closed afterwards. -/
structure WantsClosure (s : System) (i : Nat) (d : RequestData) : Prop where
  good : s.badInterfaceStateDetected = false
  live : s.Live i
  close : (s.requests i).closeConnection = true
  data : s.requestMap[(s.requests i).requestIdentifier]? = some d
  unclosed : d.connectionClosedByInterface = false

/-- The calls of `EndRequestHelper`. -/
def ApiCall.Ends : ApiCall → Prop
  | .complete _ | .rejectRole _ => True
  | _ => False

/-- A step of the object asks for the closure of its connection: the object is
destroyed, completed, or fails on a write.  Apart from the destructor the calls
find that the connection is not scheduled for closure. -/
inductive Closing (s : System) (i : Nat) : Option ApiCall → Prop
  | destroyed {d : RequestData} (h : WantsClosure s i d) : Closing s i (some .destroy)
  | ended {d : RequestData} {m : WriteMutex} {call : ApiCall} (h : WantsClosure s i d)
      (hcall : call.Ends)
      (hset : (s.requests i).requestIdentifier.descriptor ∉ s.applicationClosureRequestSet)
      (hm : s.writeMutexMap[(s.requests i).requestIdentifier.descriptor]? = some m)
      (hintact : m.corrupt = false) : Closing s i (some call)
  | failed {d : RequestData} {forceInsert : Bool} {failure : Option Failure}
      (h : WantsClosure s i d) (hcall : (s.requests i).call = .failing forceInsert failure)
      (hset : (s.requests i).requestIdentifier.descriptor ∉ s.applicationClosureRequestSet) :
      Closing s i none

/-- The request is removed and its connection scheduled, and the interface goes
on. -/
structure ClosureTakesEffect (s : System) (i : Nat) (t : System) : Prop where
  running : t.halt = none
  good : t.badInterfaceStateDetected = false
  removed : (s.requests i).requestIdentifier ∉ t.requestMap
  scheduled : (s.requests i).requestIdentifier.descriptor ∈ t.applicationClosureRequestSet

/-- The three ways in which the closure of a connection is asked for. -/
inductive ClosureOutcome (reply : SystemReply) (s : System) (i : Nat) (t : System) : Prop
  | closed (room : s.selfPipe < s.pipeCapacity) (allocated : reply.allocationFails 0 = false)
      (effect : ClosureTakesEffect s i t)
  | unallocated (room : s.selfPipe < s.pipeCapacity) (failed : reply.allocationFails 0 = true)
      (bad : t.badInterfaceStateDetected = true)
  | terminated (full : ¬ s.selfPipe < s.pipeCapacity) (halt : t.halt = some .terminated)

/-- The interface and the object as they stand when the closure is asked for. -/
structure Facing (s : System) (i : Nat) (u : System) : Prop where
  running : u.halt = none
  good : u.badInterfaceStateDetected = false
  pipe : u.selfPipe = s.selfPipe
  capacity : u.pipeCapacity = s.pipeCapacity
  identifier : (u.requests i).requestIdentifier = (s.requests i).requestIdentifier
  close : (u.requests i).closeConnection = true
  mutex : ∃ m, u.writeMutexMap[(u.requests i).requestIdentifier.descriptor]? = some m ∧
    m.socket = (u.requests i).socket

/-- The request of the object is in the map and counted. -/
structure Present (i : Nat) (u : System) : Prop where
  data : ∃ d, u.requestMap[(u.requests i).requestIdentifier]? = some d ∧
    d.node = (u.requests i).node
  count : ∃ n, u.requestCountMap[(u.requests i).requestIdentifier.descriptor]? = some (n + 1)

section

variable {reply : SystemReply} {i : Nat} {s t u : System}

theorem ClosureOutcome.iff (h : ClosureOutcome reply s i t) :
    ClosureTakesEffect s i t ↔
      s.selfPipe < s.pipeCapacity ∧ reply.allocationFails 0 = false := by
  cases h with
  | closed room allocated effect => exact ⟨fun _ => ⟨room, allocated⟩, fun _ => effect⟩
  | unallocated room failed bad =>
    refine ⟨fun effect => ?_, ?_⟩
    · simp [effect.good] at bad
    · rintro ⟨-, allocated⟩
      simp [failed] at allocated
  | terminated full halt =>
    refine ⟨fun effect => ?_, fun h => absurd h.1 full⟩
    simp [effect.running] at halt

/-- What is changed afterwards is of no account. -/
theorem ClosureOutcome.congr (h : ClosureOutcome reply s i t) (hhalt : u.halt = t.halt)
    (hbad : u.badInterfaceStateDetected = t.badInterfaceStateDetected)
    (hmap : u.requestMap = t.requestMap)
    (hset : u.applicationClosureRequestSet = t.applicationClosureRequestSet) :
    ClosureOutcome reply s i u := by
  cases h with
  | closed room allocated effect =>
    exact .closed room allocated
      ⟨hhalt.trans effect.running, hbad.trans effect.good, hmap ▸ effect.removed,
        hset ▸ effect.scheduled⟩
  | unallocated room failed bad => exact .unallocated room failed (hbad.trans bad)
  | terminated full halt => exact .terminated full (hhalt.trans halt)

/-! ## The parts of a closure -/

/-- A connection was scheduled and the interface woken up. -/
def System.scheduled (s : System) (i : Nat) : System :=
  { s with
    applicationClosureRequestSet :=
      s.applicationClosureRequestSet.insert (s.requests i).requestIdentifier.descriptor
    selfPipe := s.selfPipe + 1 }

/-- The set or the pipe did not take the connection. -/
structure Refused (reply : SystemReply) (s t : System) : Prop where
  refused : ¬ s.selfPipe < s.pipeCapacity ∨ reply.allocationFails 0 = true
  pipe : t.selfPipe = s.selfPipe
  capacity : t.pipeCapacity = s.pipeCapacity

theorem after_requestClosure_room (h : Facing s i u) :
    After (requestClosure reply i) u
      (fun _ t => s.selfPipe < s.pipeCapacity ∧ reply.allocationFails 0 = false ∧ t = u.scheduled i)
      (fun _ t => Refused reply s t) := by
  simp only [requestClosure, interfacePipeWrite, after_bind, after_get, after_ite, after_set,
    after_throw, after_modify]
  refine ⟨fun hfails => ⟨.inr hfails, h.pipe, h.capacity⟩, fun hno => ⟨fun hroom => ?_, fun hfull => ?_⟩⟩
  · rw [h.pipe, h.capacity] at hroom
    exact ⟨hroom, by simpa using hno, rfl⟩
  · rw [h.pipe, h.capacity] at hfull
    exact ⟨.inl hfull, h.pipe, h.capacity⟩

/-- The handlers: the state is given up, which takes a byte as well. -/
theorem after_goBad_room (h : Refused reply s t) :
    After (do goBad; pipeWriteOrTerminate : Section Unit) t
      (fun _ u => ClosureOutcome reply s i u) (fun _ u => ClosureOutcome reply s i u) := by
  simp only [pipeWriteOrTerminate, interfacePipeWrite, after_tryCatch, after_bind, after_goBad,
    after_get, after_ite, after_set, after_throw, after_halt, h.pipe, h.capacity]
  refine ⟨fun hroom => ?_, fun hfull => .terminated hfull rfl⟩
  exact .unallocated hroom (h.refused.resolve_left (not_not.mpr hroom)) rfl

theorem after_goBad_throw {α : Type} {Q : α → System → Prop} {e : Failure} (h : Refused reply s t) :
    After (do goBad; pipeWriteOrTerminate; throw e : Section α) t Q
      (fun _ u => ClosureOutcome reply s i u) := by
  have hbad := after_goBad_room (i := i) h
  rw [after_bind, after_goBad] at hbad ⊢
  rw [after_bind]
  exact hbad.mono (fun _ _ hu => hu) fun _ _ hu => hu

/-! ## The request -/

theorem Facing.setRequest {o : FcgiRequest} (h : Facing s i u)
    (hid : o.requestIdentifier = (u.requests i).requestIdentifier)
    (hclose : o.closeConnection = (u.requests i).closeConnection)
    (hsocket : o.socket = (u.requests i).socket) : Facing s i (u.setRequest i o) := by
  obtain ⟨m, hm, hs⟩ := h.mutex
  refine ⟨h.running, h.good, h.pipe, h.capacity, ?_, ?_, m, ?_, ?_⟩ <;>
    simp only [System.setRequest, Function.update_self]
  · exact hid.trans h.identifier
  · exact hclose.trans h.close
  · rw [hid]
    exact hm
  · rw [hsocket]
    exact hs

/-- The request is gone, and the interface stands as it did. -/
structure Vacated (s : System) (i : Nat) (u : System) : Prop where
  facing : Facing s i u
  gone : (s.requests i).requestIdentifier ∉ u.requestMap

theorem after_removeRequest_left {Q : Unit → System → Prop} {E : Failure → System → Prop}
    (h : Facing s i u) (hp : Present i u) (hQ : ∀ v, Vacated s i v → v.applicationClosureRequestSet =
      u.applicationClosureRequestSet → Q ⟨⟩ v) : After (removeRequest i) u Q E := by
  obtain ⟨d, hd, hnode⟩ := hp.data
  obtain ⟨n, hn⟩ := hp.count
  rw [after_removeRequest hd hnode hn]
  refine hQ _ ⟨⟨h.running, h.good, h.pipe, h.capacity, h.identifier, h.close, h.mutex⟩, ?_⟩ rfl
  rw [← h.identifier]
  simp [System.record, System.eraseRequest]

/-- The connection of a request that is gone is scheduled. -/
theorem after_schedule {Q : Unit → System → Prop} {E : Failure → System → Prop} (h : Vacated s i u)
    (hQ : ∀ t, ClosureOutcome reply s i t → Q ⟨⟩ t) (hE : ∀ e t, Refused reply s t → E e t) :
    After (synchroniseOnWriteMutex i) u (fun _ t => After (requestClosure reply i) t Q E) E := by
  obtain ⟨m, hm, hs⟩ := h.facing.mutex
  rw [after_synchroniseOnWriteMutex hm hs]
  intro _
  refine (after_requestClosure_room h.facing).mono (fun _ t ht => hQ t ?_) hE
  obtain ⟨hroom, hallocated, rfl⟩ := ht
  refine .closed hroom hallocated ⟨h.facing.running, h.facing.good, h.gone, ?_⟩
  rw [← h.facing.identifier]
  exact ExtTreeSet.mem_insert_self

/-- The section of `TryToAddToApplicationClosureRequestSet` in which the request
is given up. -/
theorem after_giveUp_closing {force : Bool} (h : Facing s i u) (hp : Present i u) :
    After (tryCatch
        (do
          abandon i
          removeRequest i
          if force = true ∨ ((← get).requests i).closeConnection = true then
            synchroniseOnWriteMutex i
            requestClosure reply i
          return true)
        fun e => do
          goBad
          pipeWriteOrTerminate
          throw e : Section Bool) u
      (fun _ t => ClosureOutcome reply s i t) (fun _ t => ClosureOutcome reply s i t) := by
  rw [after_tryCatch]
  refine After.mono (Q := fun _ t => ClosureOutcome reply s i t) (E := fun _ t => Refused reply s t)
    ?_ (fun _ _ ht => ht) fun _ _ ht => after_goBad_throw ht
  rw [after_bind, after_abandon, after_bind]
  set v := u.setRequest i { u.requests i with completed := true, wasAborted := true } with hv
  have hvi : v.requests i = { u.requests i with completed := true, wasAborted := true } := by
    simp [hv, System.setRequest]
  have hpresent : Present i v := by
    obtain ⟨hd, hn⟩ := hp
    constructor <;> rw [hvi]
    · exact hd
    · exact hn
  refine after_removeRequest_left (h.setRequest rfl rfl rfl) hpresent fun w hw _ => ?_
  rw [after_bind, after_get, if_pos (.inr hw.facing.close)]
  simp only [after_bind, after_pure]
  exact after_schedule hw (fun _ ht => ht) fun _ _ ht => ht

/-! ## The calls -/

theorem Owns.facing {d : RequestData} (hinv : Invariant s) (h : Owns s i d) (hhalt : s.halt = none)
    (hclose : (s.requests i).closeConnection = true) (hopen : d.connectionClosedByInterface = false) :
    Facing s i s :=
  ⟨hhalt, h.good, rfl, rfl, rfl, hclose, owned_mutex hinv h hopen⟩

theorem Owns.present {d : RequestData} (hinv : Invariant s) (h : Owns s i d) : Present i s :=
  ⟨⟨d, h.data, h.node⟩, count_pos hinv h.data⟩

theorem WantsClosure.owns {d : RequestData} (hinv : Invariant s) (h : WantsClosure s i d) :
    Owns s i d := by
  obtain ⟨d', owns, -⟩ := hinv.objects.owns h.good i h.live
  obtain rfl : d = d' := Option.some.inj (h.data.symm.trans owns.data)
  exact owns

theorem after_interfaceStateCheck_of_checked {d : RequestData} (h : Checked s i d)
    {Q : Bool → System → Prop} {E : Failure → System → Prop} (hQ : Q true s) :
    After (interfaceStateCheck i) s Q E := by
  have hlive := h.owns.live.1
  simp only [interfaceStateCheck, after_bind, after_get, after_ite, after_abandon, after_pure]
  refine ⟨fun hne => absurd hlive.symm hne, fun _ => ⟨fun hbad => ?_, fun _ => ?_⟩⟩
  · simp [h.owns.good] at hbad
  · rw [after_requestData h.owns.data h.owns.node]
    refine ⟨fun hclosed => ?_, fun _ => hQ⟩
    simp [h.unclosed, h.unscheduled] at hclosed

/-- A write that failed gives the request up. -/
theorem after_finishFailedWrite_closing (hinv : Invariant s) {d : RequestData} {force : Bool}
    {failure : Option Failure} (hchecked : Checked s i d) (h : Facing s i s) :
    After (finishFailedWrite reply i force failure) s (fun _ t => ClosureOutcome reply s i t)
      (fun _ t => ClosureOutcome reply s i t) := by
  have htry : After (tryToAddToClosureSet reply i false force) s
      (fun _ t => ClosureOutcome reply s i t) (fun _ t => ClosureOutcome reply s i t) := by
    simp only [tryToAddToClosureSet, Bool.false_eq_true, if_false]
    rw [after_bind]
    refine after_interfaceStateCheck_of_checked hchecked ?_
    exact after_giveUp_closing h (hchecked.owns.present hinv)
  have hidle : ∀ t o, ClosureOutcome reply s i t → ClosureOutcome reply s i (t.setRequest i o) :=
    fun t o ht => ht.congr rfl rfl rfl rfl
  simp only [finishFailedWrite, after_bind, after_discard, after_tryCatch, after_setCall,
    after_throw]
  refine htry.mono (fun _ t ht => ?_) fun _ t ht => hidle t _ ht
  cases failure with
  | none => exact hidle t _ ht
  | some e => exact hidle t _ ht

/-- The batch is written, or the request is given up. -/
structure Offered (reply : SystemReply) (s : System) (i : Nat) (written : Bool) (t : System) :
    Prop where
  facing : written = true → Facing s i t ∧ Present i t
  failed : written = false → ClosureOutcome reply s i t

theorem after_writeHoldingInterfaceMutex_closing (hinv : Invariant s) {d : RequestData}
    {m : WriteMutex} {bytes : Bytes} (owns : Owns s i d) (h : Facing s i s)
    (hm : s.writeMutexMap[(s.requests i).requestIdentifier.descriptor]? = some m)
    (hintact : m.corrupt = false) :
    After (writeHoldingInterfaceMutex reply i bytes) s (Offered reply s i)
      (fun _ t => ClosureOutcome reply s i t) := by
  obtain ⟨m', hm', hs⟩ := h.mutex
  obtain rfl := Option.some.inj (hm'.symm.trans hm)
  have hpresent := owns.present hinv
  rw [writeHoldingInterfaceMutex, after_bind, acquireWriteMutex, after_bind,
    after_synchroniseOnWriteMutex hm hs]
  intro _
  simp only [after_bind, after_get, hm, hintact, Bool.false_eq_true, if_false, after_pure]
  rw [after_connectedSocket (hinv.tables.connected _ m' hm (.inl owns.good))]
  split
  · simp only [after_wait]
  · rename_i r hr
    simp only [after_bind, after_modify]
    split
    · rename_i force failure hfailed
      simp only [after_bind, after_modify, after_discard, tryToAddToClosureSet, if_true, after_pure]
      refine (after_giveUp_closing ?_ ?_).mono (fun _ t ht => ?_) fun _ _ ht => ht
      · exact ⟨h.running, h.good, rfl, rfl, rfl, h.close, _, ExtTreeMap.getElem?_insert_self, hs⟩
      · exact ⟨hpresent.data, hpresent.count⟩
      · cases failure with
        | none => exact ⟨by simp, fun _ => ht⟩
        | some e => exact ht
    · refine ⟨fun _ => ⟨?_, ?_⟩, by simp⟩
      · exact ⟨h.running, h.good, rfl, rfl, rfl, h.close, m', hm, hs⟩
      · exact ⟨hpresent.data, hpresent.count⟩

theorem after_removeRequestOrWake_vacated {Q : Unit → System → Prop} {E : Failure → System → Prop}
    (h : Facing s i u) (hp : Present i u) (hQ : ∀ v, Vacated s i v → Q ⟨⟩ v) :
    After (removeRequestOrWake i) u Q E := by
  rw [removeRequestOrWake, after_tryCatch]
  exact after_removeRequest_left h hp fun v hv _ => hQ v hv

theorem after_endRequestHelper_closing (reply : SystemReply) (appStatus : Int32)
    (protocolStatus : UInt8) (hinv : Invariant s) {d : RequestData} {m : WriteMutex} (hchecked : Checked s i d) (h : Facing s i s)
    (hm : s.writeMutexMap[(s.requests i).requestIdentifier.descriptor]? = some m)
    (hintact : m.corrupt = false) :
    After (endRequestHelper reply i appStatus protocolStatus) s
      (fun _ t => ClosureOutcome reply s i t) (fun _ t => ClosureOutcome reply s i t) := by
  have hlive := hchecked.owns.live
  have hin : ¬ ((s.requests i).completed = true ∨ (s.requests i).associatedInterfaceId = 0) := by
    rw [hlive.2.2, hlive.1]
    simp [hlive.2.1]
  rw [endRequestHelper, after_bind, after_get, if_neg hin, after_bind]
  refine after_interfaceStateCheck_of_checked hchecked ?_
  rw [if_pos rfl, after_bind]
  refine (after_writeHoldingInterfaceMutex_closing hinv hchecked.owns h hm hintact).mono
    (fun written t ht => ?_) fun _ _ ht => ht
  cases written with
  | false => exact ht.failed rfl
  | true =>
    obtain ⟨hface, hpresent⟩ := ht.facing rfl
    rw [if_pos rfl, after_bind, after_modify, after_bind]
    refine after_removeRequestOrWake_vacated (hface.setRequest rfl rfl rfl) ?_ fun v hv => ?_
    · obtain ⟨hd, hn⟩ := hpresent
      constructor <;> simp only [System.setRequest, Function.update_self]
      · exact hd
      · exact hn
    · rw [if_pos h.close, after_bind, after_tryCatch, after_bind]
      refine after_schedule hv (fun t ht => ?_) fun _ _ ht => after_goBad_throw ht
      exact ht.congr rfl rfl rfl rfl

/-- The destructor removes the request after its connection was scheduled. -/
theorem after_destroyRequest_closing (hinv : Invariant s) {d : RequestData} (owns : Owns s i d)
    (h : Facing s i s) (hopen : d.connectionClosedByInterface = false) :
    After (destroyRequest reply i) s (fun _ t => ClosureOutcome reply s i t)
      (fun _ t => ClosureOutcome reply s i t) := by
  obtain ⟨m, hm, hs⟩ := h.mutex
  have hpresent := owns.present hinv
  have hlive := owns.live
  have hin : (s.requests i).completed = false ∧ (s.requests i).associatedInterfaceId ≠ 0 :=
    ⟨hlive.2.2, hlive.1 ▸ hlive.2.1⟩
  have hsame : s.interfaceIdentifier = (s.requests i).associatedInterfaceId ∧
    s.badInterfaceStateDetected = false := ⟨hlive.1.symm, owns.good⟩
  rw [destroyRequest, after_bind, after_get, if_pos hin, if_pos hsame, after_bind, after_tryCatch]
  refine After.mono (Q := fun _ t => ClosureOutcome reply s i t) (E := fun _ t => Refused reply s t)
    ?_ (fun _ t ht => ht.congr rfl rfl rfl rfl) fun _ _ ht =>
      (after_goBad_room ht).mono (fun _ t ht => ht.congr rfl rfl rfl rfl) fun _ _ ht => ht
  rw [if_pos h.close, after_bind, after_requestData owns.data owns.node, if_pos hopen, after_bind,
    after_synchroniseOnWriteMutex hm hs]
  intro _
  rw [after_bind]
  refine (after_requestClosure_room h).mono (fun _ t ht => ?_) fun _ _ ht => ht
  obtain ⟨hroom, hallocated, rfl⟩ := ht
  obtain ⟨n, hn⟩ := hpresent.count
  rw [after_removeRequest (s := s.scheduled i) owns.data owns.node hn]
  refine .closed hroom hallocated ⟨h.running, h.good, ?_, ?_⟩
  · simp [System.record, System.eraseRequest, System.scheduled]
  · exact ExtTreeSet.mem_insert_self

theorem after_requestStep_closing (reply : SystemReply) (hinv : Invariant s) (hhalt : s.halt = none) {call : Option ApiCall}
    (hclosing : Closing s i call) :
    After (requestStep reply i call) s (fun _ t => ClosureOutcome reply s i t)
      (fun _ t => ClosureOutcome reply s i t) := by
  unfold requestStep
  rw [after_bind, after_await]
  intro _
  cases hclosing with
  | destroyed h =>
    have owns := h.owns hinv
    rw [after_bind, after_await]
    intro _
    exact after_destroyRequest_closing hinv owns (owns.facing hinv hhalt h.close h.unclosed) h.unclosed
  | @ended d m call h hcall hset hm hintact =>
    have owns := h.owns hinv
    have hfacing := owns.facing hinv hhalt h.close h.unclosed
    have hend (appStatus : Int32) (protocolStatus : UInt8) :=
      after_endRequestHelper_closing reply appStatus protocolStatus hinv ⟨owns, h.unclosed, hset⟩
        hfacing hm hintact
    rw [after_bind, after_await]
    intro _
    cases call with
    | complete appStatus =>
      rw [startCall, after_discard]
      exact hend appStatus _
    | rejectRole appStatus =>
      rw [startCall, after_discard]
      exact hend appStatus _
    | _ => exact hcall.elim
  | failed h hcall hset =>
    have owns := h.owns hinv
    rw [continueCall, after_bind, after_get, hcall, after_discard]
    exact after_finishFailedWrite_closing hinv ⟨owns, h.unclosed, hset⟩
      (owns.facing hinv hhalt h.close h.unclosed)

/-- A request whose connection is to be closed is removed and its connection is
scheduled when the self-pipe takes another byte and the set another element,
and only then.  When it finds the pipe full the program ends. -/
theorem closure_takes_effect_iff {c d : Config} {call : Option ApiCall} (h : Reachable c)
    (hclosing : Closing c.system i call) (hs : step c (.request reply i call) = some d) :
    (ClosureTakesEffect c.system i d.system ↔
      c.system.selfPipe < c.system.pipeCapacity ∧ reply.allocationFails 0 = false) ∧
    (¬ c.system.selfPipe < c.system.pipeCapacity → d.system.halt = some .terminated) := by
  have hinv := (sane_of_reachable h).invariant
  unfold step at hs
  split at hs
  · cases hs
  · rename_i hhalt
    obtain ⟨⟨r, t⟩, hr, rfl⟩ := Option.map_eq_some_iff.mp hs
    have hafter := after_requestStep_closing reply hinv (by simpa using hhalt) hclosing
    have hout : ClosureOutcome reply c.system i t := by
      cases r with
      | ok => exact hafter.of_ok hr
      | error e => exact hafter.of_error hr
    refine ⟨hout.iff, fun hfull => ?_⟩
    cases hout with
    | closed room | unallocated room => exact absurd room hfull
    | terminated _ halt => exact halt

end

/-! ### A full pipe -/

/-- A newly constructed interface whose self-pipe takes one byte. -/
def narrow : Config := ⟨{ pipeCapacity := 1, maximumRequestCountPerConnection := 2 }, .idle⟩

theorem initial_narrow : Initial narrow.system :=
  { initial_start with maximumRequestCount_pos := by decide }

/-- Two whole requests on descriptor 5, which is to be closed afterwards, and
the construction of their objects. -/
def receiveTwo : List Action :=
  [.accept, .interface {}, .interface {},
    .interface { select := .ready [(5, [.drained (populateBeginRequestRecord 1 1 false ++
      populateHeader kFcgiParams 1 0 0 ++ populateHeader kFcgiStdin 1 0 0 ++
      populateBeginRequestRecord 2 1 false ++ populateHeader kFcgiParams 2 0 0 ++
      populateHeader kFcgiStdin 2 0 0)])] 0 [] }] ++
    List.replicate 27 (.interface {}) ++ [.finish]

/-- What can be read off a state about an object. -/
def System.closingFacts (s : System) (i : Nat) : Bool × Bool × Bool × Option Bool :=
  (s.badInterfaceStateDetected,
    decide ((s.requests i).associatedInterfaceId = s.interfaceIdentifier ∧ s.interfaceIdentifier ≠ 0 ∧
      (s.requests i).completed = false),
    (s.requests i).closeConnection,
    s.requestMap[(s.requests i).requestIdentifier]?.map (·.connectionClosedByInterface))

theorem closing_of_facts {s : System} {i : Nat}
    (h : s.closingFacts i = (false, true, true, some false)) : Closing s i (some .destroy) := by
  simp only [System.closingFacts, Prod.mk.injEq, decide_eq_true_eq] at h
  obtain ⟨hgood, hlive, hclose, hd⟩ := h
  obtain ⟨d, hd, hopen⟩ := Option.map_eq_some_iff.mp hd
  exact .destroyed ⟨hgood, hlive, hclose, hd, hopen⟩

theorem closure_takes_effect_of_room : ∃ c d, Reachable c ∧ Closing c.system 0 (some .destroy) ∧
    step c (.request {} 0 (some .destroy)) = some d ∧ ClosureTakesEffect c.system 0 d.system := by
  have hrun : ((run narrow (connect ++ receiveTwo)).bind fun c =>
      (step c (.request {} 0 (some .destroy))).map fun _ =>
        (c.system.closingFacts 0, c.system.selfPipe, c.system.pipeCapacity)) =
      some ((false, true, true, some false), 0, 1) := by decide +kernel
  obtain ⟨c, hc, hrest⟩ := Option.bind_eq_some_iff.mp hrun
  obtain ⟨d, hd, hfacts⟩ := Option.map_eq_some_iff.mp hrest
  simp only [Prod.mk.injEq] at hfacts
  obtain ⟨hclosing, hpipe, hcapacity⟩ := hfacts
  have hreachable := reachable_run (.initial initial_narrow) hc
  have hclosing' := closing_of_facts (i := 0) (by simpa only [Prod.mk.injEq] using hclosing)
  refine ⟨c, d, hreachable, hclosing', hd, ?_⟩
  refine (closure_takes_effect_iff hreachable hclosing' hd).1.mpr ⟨?_, rfl⟩
  rw [hpipe, hcapacity]
  exact Nat.one_pos

/-- The second of the two requests finds the pipe full when it is destroyed. -/
theorem full_pipe_terminates : ∃ c d, Reachable c ∧ Closing c.system 1 (some .destroy) ∧
    c.system.selfPipe = c.system.pipeCapacity ∧ step c (.request {} 1 (some .destroy)) = some d ∧
      d.system.badInterfaceStateDetected = true ∧ d.system.halt = some .terminated ∧
        ¬ ClosureTakesEffect c.system 1 d.system := by
  have hrun : ((run narrow (connect ++ receiveTwo ++ [.request {} 0 (some .destroy)])).bind fun c =>
      (step c (.request {} 1 (some .destroy))).map fun d =>
        (c.system.closingFacts 1, decide (c.system.selfPipe = c.system.pipeCapacity),
          d.system.badInterfaceStateDetected, d.system.halt)) =
      some ((false, true, true, some false), true, true, some .terminated) := by decide +kernel
  obtain ⟨c, hc, hrest⟩ := Option.bind_eq_some_iff.mp hrun
  obtain ⟨d, hd, hfacts⟩ := Option.map_eq_some_iff.mp hrest
  simp only [Prod.mk.injEq, decide_eq_true_eq] at hfacts
  obtain ⟨hclosing, hpipe, hbad, hhalt⟩ := hfacts
  have hclosing' := closing_of_facts (i := 1) (by simpa only [Prod.mk.injEq] using hclosing)
  refine ⟨c, d, reachable_run (.initial initial_narrow) hc, hclosing', hpipe, hd, hbad, hhalt, ?_⟩
  intro heffect
  rw [heffect.good] at hbad
  cases hbad

end AsComponents.Server
