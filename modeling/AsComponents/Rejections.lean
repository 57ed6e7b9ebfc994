import AsComponents.Output
import AsComponents.Responses

/-! The requests that `FcgiServerInterface` ends itself, and what a
`TestFcgiClientInterface` makes of their end records. -/

namespace AsComponents

open Protocol NameValue SocketFunctions AsComponents.Partition Std Critical

namespace Client

variable {s t : TestFcgiClientInterface}

/-- A request as `SendRequest` leaves it. -/
theorem pending_of_sendRequest {reply : SystemReply} {c : Nat} {request : FcgiRequestDataReference}
    {id : FcgiRequestIdentifier} (h : Reachable s)
    (ht : sendRequest reply c request s = some (.ok (some id), t)) :
    t.pendingRequestMap[id]? = some { request := request } := by
  have hinv := invariant_of_reachable h
  rcases after_sendRequest.of_ok ht with ⟨hnone, -⟩ | ⟨newId, u, hacquired, hout⟩
  · cases hnone
  · have hfree := hacquired.unassigned hinv
    have hpending : u.pendingRequestMap = s.pendingRequestMap := by
      obtain ⟨e, _, m, -, -, -, rfl⟩ := hacquired.acquired
      rfl
    cases hout with
    | @sent v hw hbegun =>
      have hnew : (⟨c, newId⟩ : FcgiRequestIdentifier) ∉ v.pendingRequestMap := by
        rw [hbegun.frame]
        exact hpending ▸ hfree.2
      rw [ExtTreeMap.getElem?_insertIfNew, if_pos ⟨ReflCmp.compare_self, hnew⟩]
    | beginClosed hw hshort herrno hu hsent ht hr => split at hr <;> cases hr
    | closed hw hu ht hr => rcases hr with hr | ⟨e, what, hr⟩ <;> cases hr

/-- An end record before the end of `FCGI_STDOUT`. -/
theorem takeRecords_early {c : Nat} {e : ConnectionState} {f : UInt16} {d : RequestData}
    (he : s.connectionMap[c]? = some e) (hclear : e.recordState.Clear)
    (hd : s.pendingRequestMap[(⟨c, f⟩ : FcgiRequestIdentifier)]? = some d)
    (hstdout : d.stdoutCompleted = false)
    (reply : SystemReply) (appStatus : Int32) (protocolStatus : UInt8) :
    takeRecords reply c (Server.endRequestRecord f protocolStatus appStatus).encode s =
      some (.ok ⟨⟩, (s.setConnection c { e with recordState := {} }).pushEvent
        (.invalidRecord 1 kFcgiEndRequest ⟨c, f⟩ (endRequestBody appStatus protocolStatus) 0)) := by
  set r := Server.endRequestRecord f protocolStatus appStatus with hr
  have hfits : r.Fits := fits_endRequestRecord ..
  set a := Arrival.ofRecord he hclear r hfits with ha
  have hid : headerIdentifier a.c a.header = ⟨c, f⟩ := Arrival.headerIdentifier_header c r
  have htype : headerType a.header = kFcgiEndRequest := rfl
  have hrejects : acceptsEnd (headerContentLength a.header) d = false :=
    acceptsEnd_eq_false_iff.mpr (.inl hstdout)
  have hinvalid : a.invalidated = true := by
    rw [Arrival.invalidated, validHeader, validType, if_pos htype, hid, show a.s = s from rfl, hd,
      Option.any_some, hrejects, Bool.and_false]
    rfl
  have hchecked : checkedState a.s a.c a.header = s := by
    rw [checkedState, if_pos ⟨rfl, htype⟩, hid, show a.s = s from rfl, acceptEnd, hd]
    exact if_neg fun h => Bool.false_ne_true (hrejects.symm.trans h.1)
  have hmem : headerIdentifier a.c a.header ∈ a.s.pendingRequestMap := by
    rw [hid]
    exact ExtTreeMap.mem_iff_isSome_getElem?.mpr (by rw [show a.s = s from rfl, hd]; rfl)
  have htake := @Arrival.takeRecord_invalidated a reply [] hinvalid
    fun h : EndWithoutRequest a.s a.c a.header => h.2.2 hmem
  have hbytes : a.bytes ++ [] = r.encode :=
    (List.append_nil _).trans (Arrival.bytes_ofRecord he hclear r hfits)
  have htaken := Arrival.takeRecords_append htake
  rw [hbytes, hchecked, takeRecords_nil] at htaken
  refine htaken.trans ?_
  rw [Arrival.event, hid]
  rfl

/-- A request that the interface ends itself is answered by one end record, and
nothing else is ever offered for it.  However that record is cut into reads, a
client which was sent no end of `FCGI_STDOUT` for the request rejects it: the
request stays pending as `SendRequest` left it. -/
theorem lone_end_rejected {config : Server.Config} (hserver : Server.Reachable config) {n k : Nat}
    {f : UInt16} (hended : config.system.EndedByInterface n) (hbegun : config.system.Begun n k f)
    {x : Server.Transmission} (hx : x ∈ config.system.trace k n) (hs : Receivable s) {c : Nat}
    {e : ConnectionState} (he : s.connectionMap[c]? = some e) (hconnected : e.connected = true)
    (hclear : e.recordState.Clear) {d : RequestData}
    (hd : s.pendingRequestMap[(⟨c, f⟩ : FcgiRequestIdentifier)]? = some d)
    (hstdout : d.stdoutCompleted = false) (reply : SystemReply) :
    config.system.trace k n = [x] ∧
    (∃ (appStatus : Int32) (protocolStatus : UInt8),
      x.bytes = (Server.endRequestRecord f protocolStatus appStatus).encode ∧
      ∀ reads : List Read, reads.flatMap (·.bytes) = x.bytes →
        discard (receiveReads (receive reply c) none reads) s =
          some (.ok ⟨⟩, (s.setConnection c { e with recordState := {} }).pushEvent
            (.invalidRecord 1 kFcgiEndRequest ⟨c, f⟩ (endRequestBody appStatus protocolStatus) 0))) ∧
    ∀ (s₀ t₀ : TestFcgiClientInterface) (reply₀ : SystemReply) (request : FcgiRequestDataReference),
      Reachable s₀ → sendRequest reply₀ c request s₀ = some (.ok (some ⟨c, f⟩), t₀) →
        t₀.pendingRequestMap[(⟨c, f⟩ : FcgiRequestIdentifier)]? = some { request := request } := by
  have hlone := (Server.invariant_of_reachable hserver).traces.ended n k f hended hbegun
  obtain ⟨appStatus, protocolStatus, accepted, htrace⟩ :=
    hlone.resolve_left (List.ne_nil_of_mem hx)
  have hxe : x = ⟨some n, Server.loneEnd f appStatus protocolStatus, accepted⟩ := by
    rw [htrace] at hx
    exact List.mem_singleton.mp hx
  have hbytes : x.bytes = (Server.endRequestRecord f protocolStatus appStatus).encode := by
    rw [hxe]
    rfl
  have hc : s.isConnected c = true := isConnected_eq_true_iff.mpr ⟨e, he, hconnected⟩
  refine ⟨hxe ▸ htrace, ⟨appStatus, protocolStatus, hbytes, fun reads hreads => ?_⟩,
    fun s₀ t₀ reply₀ request hs₀ hsend => pending_of_sendRequest hs₀ hsend⟩
  rw [discard_receiveReads hs hc, hreads, hbytes]
  exact takeRecords_early he hclear hd hstdout reply appStatus protocolStatus

/-! ## An overloaded server -/

/-- The bytes of `bareRequest` on a new connection. -/
def bareRequestBytes : Bytes :=
  populateBeginRequestRecord 1 fcgiAuthorizer true ++ populateHeader kFcgiParams 1 0 0

/-- The application is overloaded when the request comes in. -/
def overload : List Server.Action :=
  Server.connect ++ [.setOverload true, .accept, .interface {}, .interface {},
    .interface { select := .ready [(5, [.drained bareRequestBytes])] 0 [] }] ++
    List.replicate 10 (.interface { tape := [.ready, .wrote 16] }) ++ [.finish]

/-- The end record with `FCGI_OVERLOADED`. -/
def overloadedRecord : Bytes := (Server.endRequestRecord 1 fcgiOverloaded 1).encode

theorem exists_overloaded : ∃ config, Server.Reachable config ∧ config.system.EndedByInterface 0 ∧
    config.system.Begun 0 0 1 ∧ (config.system.sockets 0).sent = overloadedRecord ∧
    config.system.trace 0 0 = [⟨some 0, overloadedRecord, 16⟩] := by
  have hrun : ((Server.run Server.start overload).map fun c =>
      (decide (.begun 0 0 1 false ∈ c.system.log), (c.system.sockets 0).sent,
        c.system.trace 0 0)) =
      some (true, overloadedRecord, [⟨some 0, overloadedRecord, 16⟩]) := by
    decide +kernel
  obtain ⟨config, hconfig, hfacts⟩ := Option.map_eq_some_iff.mp hrun
  simp only [Prod.mk.injEq, decide_eq_true_eq] at hfacts
  obtain ⟨hbegun, hsent, htrace⟩ := hfacts
  exact ⟨config, Server.reachable_run (.initial Server.initial_start) hconfig, .inr ⟨0, 1, hbegun⟩,
    ⟨false, hbegun⟩, hsent, htrace⟩

/-- The client which sent these bytes waits for an answer. -/
theorem exists_waiting : ∃ s e d, Reachable s ∧ s.connectionMap[5]? = some e ∧ e.connected = true ∧
    e.recordState.Clear ∧ s.pendingRequestMap[(⟨5, 1⟩ : FcgiRequestIdentifier)]? = some d ∧
    d.stdoutCompleted = false ∧ (s.sockets 5).sent = bareRequestBytes ∧ s.microEventQueue = [] ∧
    ⟨5, 1⟩ ∉ s.completedRequestSet := by
  have hrun : ((run {} [(connectReply, .connect), (requestReply, .sendRequest 5 bareRequest)]).map
      fun s => (s.connectionMap[5]?.map fun e => (e.connected, e.recordState),
        s.pendingRequestMap[(⟨5, 1⟩ : FcgiRequestIdentifier)]?.map fun d => d.stdoutCompleted,
        (s.sockets 5).sent, s.microEventQueue.length, s.completedRequestSet.contains ⟨5, 1⟩)) =
      some (some (true, ({} : RecordState)), some false, bareRequestBytes, 0, false) := by
    decide +kernel
  obtain ⟨s, hs, hfacts⟩ := Option.map_eq_some_iff.mp hrun
  simp only [Prod.mk.injEq, List.length_eq_zero_iff] at hfacts
  obtain ⟨hentry, hpending, hsent, hevents, hcompleted⟩ := hfacts
  obtain ⟨e, he, hstate⟩ := Option.map_eq_some_iff.mp hentry
  obtain ⟨d, hd, hstdout⟩ := Option.map_eq_some_iff.mp hpending
  obtain ⟨hconnected, hrecord⟩ := Prod.mk.injEq .. ▸ hstate
  refine ⟨s, e, d, reachable_run (.initial {}) hs, he, hconnected, by rw [hrecord, RecordState.Clear],
    hd, hstdout, hsent, hevents, fun hmem => ?_⟩
  exact Bool.false_ne_true (hcompleted.symm.trans (ExtTreeSet.contains_iff_mem.mpr hmem))

theorem lone_end_rejected_overload : ∃ config s t x, Server.Reachable config ∧ Reachable s ∧
    config.system.trace 0 0 = [x] ∧ x.accepted = x.bytes.length ∧
    discard (receiveReads (receive {} 5) none [⟨true, x.bytes.take 3⟩, ⟨false, x.bytes.drop 3⟩]) s =
      some (.ok ⟨⟩, t) ∧
    t.microEventQueue.map ServerEvent.isInvalidRecord = [true] := by
  obtain ⟨config, hserver, hended, hbegun, -, htrace⟩ := exists_overloaded
  obtain ⟨s, e, d, hs, he, hconnected, hclear, hd, hstdout, -, hevents, -⟩ := exists_waiting
  obtain ⟨-, ⟨appStatus, protocolStatus, -, hreads⟩, -⟩ := lone_end_rejected hserver hended hbegun
    (x := ⟨some 0, overloadedRecord, 16⟩) (by rw [htrace]; exact List.mem_singleton_self _)
    (.reachable hs) he hconnected hclear hd hstdout {}
  refine ⟨config, s, _, _, hserver, hs, htrace, rfl, hreads _ ?_, ?_⟩
  · exact List.take_append_drop 3 overloadedRecord
  · rw [TestFcgiClientInterface.pushEvent]
    show (s.microEventQueue ++ _).map ServerEvent.isInvalidRecord = _
    rw [hevents]
    rfl

/-- The server is overloaded and ends the request; the client which sent it
queues no response but an invalid record, and the request is still pending. -/
theorem lone_end_not_accepted : ∃ config s t, Server.Reachable config ∧
    config.system.EndedByInterface 0 ∧ config.system.Begun 0 0 1 ∧ Reachable s ∧
    (s.sockets 5).sent = bareRequestBytes ∧
    discard (receiveReads (receive {} 5) none [⟨true, (config.system.sockets 0).sent⟩]) s =
      some (.ok ⟨⟩, t) ∧
    t.microEventQueue.map ServerEvent.isInvalidRecord = [true] ∧ t.isConnected 5 = true ∧
    (⟨5, 1⟩ : FcgiRequestIdentifier) ∈ t.pendingRequestMap ∧
    (⟨5, 1⟩ : FcgiRequestIdentifier) ∉ t.completedRequestSet := by
  obtain ⟨config, hserver, hended, hbegun, hsent, -⟩ := exists_overloaded
  obtain ⟨s, e, d, hs, he, hconnected, hclear, hd, hstdout, hrequest, hevents, hcompleted⟩ :=
    exists_waiting
  have hc : s.isConnected 5 = true := isConnected_eq_true_iff.mpr ⟨e, he, hconnected⟩
  have hrecords := discard_receiveReads (.reachable hs) hc {}
    [⟨true, (config.system.sockets 0).sent⟩]
  rw [List.flatMap_cons, List.flatMap_nil, List.append_nil, hsent] at hrecords
  have hearly := takeRecords_early he hclear hd hstdout {} 1 fcgiOverloaded
  have hreceived := hrecords.trans hearly
  rw [← hsent] at hreceived
  refine ⟨config, s, _, hserver, hended, hbegun, hs, hrequest, hreceived, ?_, ?_, ?_, hcompleted⟩
  · show (s.microEventQueue ++ _).map ServerEvent.isInvalidRecord = _
    rw [hevents]
    rfl
  · exact isConnected_eq_true_iff.mpr
      ⟨_, (s.getElem?_setConnection 5 5 _).trans (if_pos rfl), hconnected⟩
  · exact ExtTreeMap.mem_iff_isSome_getElem?.mpr (Option.isSome_of_eq_some hd)

end Client

end AsComponents
