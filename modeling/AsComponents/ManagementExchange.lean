import AsComponents.ConnectionModel
import AsComponents.GetValues
import AsComponents.ManagementRequests
import AsComponents.Rejections

/-! Management requests from `SendGetValuesRequest` and
`SendBinaryManagementRequest` to `ReadRecords`, and the responses back to the
client. -/

namespace AsComponents

open Protocol NameValue SocketFunctions AsComponents.Partition Algorithms Std Critical

/-! ## The answers of the interface -/

namespace Server

variable {s : System} {v : Requests} {r : Record} {rs : List Record}

/-- An answer to a record of a request ends that request. -/
theorem end_of_step (hid : r.fcgiId ≠ fcgiNullRequestId) :
    ∀ a ∈ (s.policy.step v r).2, ∃ protocolStatus appStatus,
      a = endRequestRecord r.fcgiId protocolStatus appStatus := by
  intro a ha
  unfold Policy.step at ha
  rw [if_neg hid] at ha
  split at ha
  · exact ⟨_, _, List.mem_singleton.mp ha⟩
  · dsimp only at ha
    split at ha
    · exact ⟨_, _, List.mem_singleton.mp ha⟩
    · cases ha

theorem end_of_run (rs : List Record) : ∀ a ∈ (s.policy.run v rs).2, a.fcgiId ≠ fcgiNullRequestId →
    ∃ r ∈ rs, ∃ protocolStatus appStatus, a = endRequestRecord r.fcgiId protocolStatus appStatus := by
  induction rs generalizing v with
  | nil => exact List.forall_mem_nil _
  | cons r rs ih =>
    intro a ha hid
    rcases List.mem_append.mp ha with ha | ha
    · have hown := fcgiId_step s v r a ha
      exact ⟨r, List.mem_cons_self, end_of_step (hown ▸ hid) a ha⟩
    · obtain ⟨r', hr', hend⟩ := ih a ha hid
      exact ⟨r', List.mem_cons_of_mem r hr', hend⟩

/-- The names of the variables are in order. -/
theorem sorted_interfaceVariables (s : System) :
    (interfaceVariables s).Pairwise fun p q => compare p.1 q.1 = .lt := by
  have hnames : [fcgiMaxConns, fcgiMaxReqs, fcgiMpxsConns].Pairwise fun n m => compare n m = .lt := by
    decide
  exact List.pairwise_map.mp (show ((interfaceVariables s).map Prod.fst).Pairwise _ from hnames)

end Server

namespace Client

variable {c : Nat} {q : ManagementRequestData} {r : Record}

/-- What `GetValuesResult` holds when the pairs of the content are in order. -/
theorem getValuesResponse_encodePairs {pairs : List ByteSeqPair} (hfits : ∀ p ∈ pairs, PairFits p)
    (hsorted : pairs.Pairwise fun p q => compare p.1 q.1 = .lt) :
    getValuesResponse (encodePairs pairs) = (ExtTreeMap.ofList pairs, false) := by
  by_cases hnil : pairs = []
  · subst hnil
    rfl
  have hcontent : encodePairs pairs ≠ [] := by
    obtain ⟨p, rest, rfl⟩ := List.exists_cons_of_ne_nil hnil
    exact fun h => encodePair_ne_nil p (List.append_eq_nil_iff.mp h).1
  have hsort : pairs.insertionSort Server.NameLessEqual = pairs := by
    refine List.Pairwise.insertionSort_eq (hsorted.imp fun {p q} hlt => ?_)
    unfold Server.NameLessEqual
    rw [hlt]
    rfl
  rw [getValuesResponse, if_neg hcontent, extract_encodePairs hfits]
  dsimp only
  rw [hsort, if_neg hnil, if_neg]
  rw [List.any_eq_true]
  rintro ⟨⟨p, q⟩, hpq, hname⟩
  obtain ⟨i, hi, heq⟩ := List.mem_iff_getElem.mp hpq
  rw [List.getElem_zip, List.getElem_tail, Prod.mk.injEq] at heq
  obtain ⟨rfl, rfl⟩ := heq
  rw [List.length_zip, List.length_tail] at hi
  have hlt := List.pairwise_iff_getElem.mp hsorted i (i + 1) (by omega) (by omega) (by omega)
  rw [of_decide_eq_true hname, Std.compare_self] at hlt
  cases hlt

/-- The request asks for the variable. -/
def ManagementRequestData.asks (q : ManagementRequestData) (name : Bytes) : Bool :=
  q.paramsMap.contains name || (extractBinaryNameValuePairs q.data).any fun p => p.1 == name

/-- What the interface answers to a management request. -/
def answerEvent (s : Server.System) (c : Nat) (q : ManagementRequestData) : ServerEvent :=
  if q.type = kFcgiGetValues then
    .getValuesResult false ⟨c, fcgiNullRequestId⟩ q.paramsMap
      (ExtTreeMap.ofList ((Server.interfaceVariables s).filter fun v => q.asks v.1))
  else .unknownType ⟨c, fcgiNullRequestId⟩ q.type q

theorem any_asked (h : q.Asked) (name : Bytes) :
    ((extractBinaryNameValuePairs (managementRecord q).content).any fun p => p.1 == name) = q.asks name := by
  rw [managementRecord, alignedRecord, ManagementRequestData.asks]
  rcases h with hmap | ⟨hdata, hfits⟩
  · have hnames : encodePairs (∅ : ParamsMap).toList = [] := rfl
    rw [hmap, hnames, List.append_nil, ExtTreeMap.contains_empty, Bool.false_or]
  · rw [hdata, List.nil_append, extract_encodePairs hfits]
    have hnone : extractBinaryNameValuePairs [] = [] := rfl
    rw [hnone, List.any_nil, Bool.or_false, Bool.eq_iff_iff, List.any_eq_true, ExtTreeMap.contains_iff_mem]
    constructor
    · rintro ⟨⟨k, w⟩, hp, hk⟩
      obtain rfl := eq_of_beq hk
      rw [ExtTreeMap.mem_toList_iff_getElem?_eq_some] at hp
      exact ExtTreeMap.mem_iff_isSome_getElem?.mpr (Option.isSome_of_eq_some hp)
    · intro hmem
      obtain ⟨w, hw⟩ := Option.isSome_iff_exists.mp (ExtTreeMap.mem_iff_isSome_getElem?.mp hmem)
      exact ⟨(name, w), ExtTreeMap.mem_toList_iff_getElem?_eq_some.mpr hw, beq_self_eq_true name⟩

section

variable {s : Server.System} (hconnections : s.maximumConnectionCount ≤ intMax)
  (hrequests : s.maximumRequestCountPerConnection ≤ intMax)

include hconnections hrequests

/-- The answer is the response to the request. -/
theorem matches_response (h : q.Asked) :
    Matches q (s.managementResponse (managementRecord q).type (managementRecord q).content) ∧
      managementEvent c q (s.managementResponse (managementRecord q).type (managementRecord q).content) =
        answerEvent s c q := by
  have htype : (managementRecord q).type = q.type := rfl
  rw [htype]
  by_cases hvalues : q.type = kFcgiGetValues
  · obtain ⟨hfits, hlength⟩ := Server.length_interfaceVariables hconnections hrequests
    set vars := (Server.interfaceVariables s).filter fun v => q.asks v.1 with hvars
    have hcontent : (Server.getValuesResultRecord s (managementRecord q).content).content =
        encodePairs vars := by
      show encodePairs (Server.getValuesResultPairs s _) = _
      rw [Server.getValuesResultPairs_eq sorts_insertionSort,
        Server.resultPairs_eq sorts_insertionSort]
      simp only [any_asked h, hvars]
    have hshort : (encodePairs vars).length ≤ maxAlignedContentLength :=
      ((List.filter_sublist.flatMap encodePair).length_le.trans hlength).trans (by decide)
    have hresponse : getValuesResponse (encodePairs vars) = (ExtTreeMap.ofList vars, false) :=
      getValuesResponse_encodePairs (fun p hp => hfits p (List.mem_of_mem_filter hp))
        ((Server.sorted_interfaceVariables s).filter _)
    rw [Server.System.managementResponse, if_pos hvalues]
    refine ⟨⟨rfl, ?_, .inl ⟨hvalues, rfl⟩⟩, ?_⟩
    · refine fits_alignedRecord kFcgiGetValuesResult fcgiNullRequestId ?_
      exact (congrArg List.length hcontent).trans_le hshort
    · have hresult : (Server.getValuesResultRecord s (managementRecord q).content).type =
          kFcgiGetValuesResult := rfl
      rw [managementEvent, if_pos hresult, answerEvent, if_pos hvalues, hcontent, hresponse]
  · rw [Server.System.managementResponse, if_neg hvalues]
    refine ⟨⟨rfl, ⟨(by decide : 8 ≤ kMaxRecordContentByteLength), (by decide : 0 < 256)⟩,
      .inr ⟨hvalues, rfl, rfl⟩⟩, ?_⟩
    have hother : ¬ (Server.unknownTypeRecord q.type).type = kFcgiGetValuesResult :=
      (by decide : ¬ kFcgiUnknownType = kFcgiGetValuesResult)
    rw [managementEvent, if_neg hother, answerEvent, if_neg hvalues]
    rfl

end

/-! ## The client that receives the answers -/

section

variable {s t : TestFcgiClientInterface} {e : ConnectionState} {f : UInt16} {d : RequestData}
  {qs : List ManagementRequestData} {rs : List Record}

/-- The event of an end record that is rejected. -/
def rejectedEnd (c : Nat) (f : UInt16) (protocolStatus : UInt8) (appStatus : Int32) : ServerEvent :=
  .invalidRecord 1 kFcgiEndRequest ⟨c, f⟩ (endRequestBody appStatus protocolStatus) 0

/-- An end record before the end of `FCGI_STDOUT`, with what follows it. -/
theorem takeRecords_rejectedEnd (he : s.connectionMap[c]? = some e) (hclear : e.recordState.Clear)
    (hd : s.pendingRequestMap[(⟨c, f⟩ : FcgiRequestIdentifier)]? = some d) (hstdout : d.stdoutCompleted = false)
    (reply : SystemReply) (protocolStatus : UInt8) (appStatus : Int32) (more : Bytes) :
    takeRecords reply c ((Server.endRequestRecord f protocolStatus appStatus).encode ++ more) s =
      takeRecords reply c more ((s.setConnection c { e with recordState := {} }).pushEvent
        (rejectedEnd c f protocolStatus appStatus)) := by
  set r := Server.endRequestRecord f protocolStatus appStatus with hr
  have hfits : r.Fits := fits_endRequestRecord ..
  set a := Arrival.ofRecord he hclear r hfits with ha
  have hid : headerIdentifier a.c a.header = ⟨c, f⟩ := Arrival.headerIdentifier_header c r
  have hd' : a.s.pendingRequestMap[headerIdentifier a.c a.header]? = some d := by
    rw [hid]
    exact hd
  have htype : headerType a.header = kFcgiEndRequest := rfl
  have hrejects : acceptsEnd (headerContentLength a.header) d = false :=
    acceptsEnd_eq_false_iff.mpr (.inl hstdout)
  have hinvalid : a.invalidated = true := by
    rw [Arrival.invalidated, validHeader, validType, if_pos htype, hd', Option.any_some, hrejects,
      Bool.and_false]
    rfl
  have hchecked : checkedState a.s a.c a.header = s := by
    rw [checkedState, if_pos ⟨rfl, htype⟩, acceptEnd, hd']
    exact if_neg fun h => Bool.false_ne_true (hrejects.symm.trans h.1)
  have hmem : headerIdentifier a.c a.header ∈ a.s.pendingRequestMap :=
    ExtTreeMap.mem_iff_isSome_getElem?.mpr (Option.isSome_of_eq_some hd')
  have htaken := Arrival.takeRecords_append (@Arrival.takeRecord_invalidated a reply more hinvalid
    fun h : EndWithoutRequest a.s a.c a.header => h.2.2 hmem)
  rw [ha, Arrival.bytes_ofRecord, ← ha, hchecked, Arrival.event, hid] at htaken
  exact htaken

/-- Connection `c` waits for these records: responses to all requests of its queue,
and end records of requests that have not ended their `FCGI_STDOUT`. -/
structure Owed (c : Nat) (qs : List ManagementRequestData) (rs : List Record)
    (s : TestFcgiClientInterface) : Prop where
  entry : ∃ e, s.connectionMap[c]? = some e ∧ e.recordState.Clear ∧ e.managementQueue = qs
  matched : List.Forall₂ Matches qs (Server.recordsOf fcgiNullRequestId rs)
  ends : ∀ r ∈ rs, r.fcgiId ≠ fcgiNullRequestId → (⟨c, r.fcgiId⟩ : FcgiRequestIdentifier) ∈ s.pendingRequestMap ∧
    ∃ protocolStatus appStatus, r = Server.endRequestRecord r.fcgiId protocolStatus appStatus
  unfinished : Unfinished c s

/-- The responses were related to the requests, and the end records rejected. -/
structure Responded (c : Nat) (qs : List ManagementRequestData) (rs : List Record)
    (s t : TestFcgiClientInterface) : Prop where
  entry : ∃ e, t.connectionMap[c]? = some e ∧ e.managementQueue = []
  events : ∃ events, t.microEventQueue = s.microEventQueue ++ events ∧
    events.filter (·.isManagement) = managementEvents c qs (Server.recordsOf fcgiNullRequestId rs) ∧
    ∀ event ∈ events, event.isManagement = true ∨ ∃ f protocolStatus appStatus,
      (⟨c, f⟩ : FcgiRequestIdentifier) ∈ s.pendingRequestMap ∧ event = rejectedEnd c f protocolStatus appStatus
  pending : t.pendingRequestMap = s.pendingRequestMap

theorem takeRecords_responded (reply : SystemReply) (h : Owed c qs rs s) : ∃ t,
    takeRecords reply c (encodeRecords rs) s = some (.ok ⟨⟩, t) ∧ Responded c qs rs s t := by
  induction rs generalizing s qs with
  | nil =>
    obtain ⟨e, he, -, hqueue⟩ := h.entry
    cases h.matched
    exact ⟨s, takeRecords_nil, ⟨e, he, hqueue⟩,
      ⟨[], (List.append_nil _).symm, rfl, List.forall_mem_nil _⟩, rfl⟩
  | cons r rs ih =>
    obtain ⟨e, he, hclear, hqueue⟩ := h.entry
    have hmatched := h.matched
    have hends := fun r' hr' => h.ends r' (List.mem_cons_of_mem r hr')
    rw [encodeRecords_cons]
    by_cases hid : r.fcgiId = fcgiNullRequestId
    · have hcons : Server.recordsOf fcgiNullRequestId (r :: rs) =
          r :: Server.recordsOf fcgiNullRequestId rs := by
        rw [← hid]
        exact Server.recordsOf_cons_self r rs
      rw [hcons] at hmatched
      cases hmatched with
      | @cons q _ qs _ hr hmatched =>
        have hentry := entry_set (e := { e with managementQueue := qs }) s c rfl
        obtain ⟨t, ht, hresponded⟩ := ih (s := (s.setConnection c _).pushEvent (managementEvent c q r))
          ⟨by obtain ⟨e', he', hclear', hqueue'⟩ := hentry
              exact ⟨e', he', hclear', hqueue'⟩, hmatched, hends, h.unfinished⟩
        obtain ⟨events, hevents, hmanagement, hkinds⟩ := hresponded.events
        refine ⟨t, (takeRecords_management he hclear hqueue hr _).trans ht, hresponded.entry,
          ⟨managementEvent c q r :: events, hevents.trans (List.append_assoc ..), ?_, ?_⟩, hresponded.pending⟩
        · rw [List.filter_cons_of_pos (isManagement_managementEvent c q r), hmanagement, hcons]
          rfl
        · exact List.forall_mem_cons.mpr ⟨.inl (isManagement_managementEvent c q r), hkinds⟩
    · rw [Server.recordsOf_cons_ne hid] at hmatched
      obtain ⟨hmem, protocolStatus, appStatus, hr⟩ := h.ends r List.mem_cons_self hid
      obtain ⟨d, hd⟩ := Option.isSome_iff_exists.mp (ExtTreeMap.mem_iff_isSome_getElem?.mp hmem)
      obtain ⟨t, ht, hresponded⟩ := ih (s := (s.setConnection c { e with recordState := {} }).pushEvent
        (rejectedEnd c r.fcgiId protocolStatus appStatus)) ⟨entry_set s c hqueue, hmatched, hends, h.unfinished⟩
      obtain ⟨events, hevents, hmanagement, hkinds⟩ := hresponded.events
      have hencode : r.encode = (Server.endRequestRecord r.fcgiId protocolStatus appStatus).encode :=
        congrArg Record.encode hr
      rw [hencode]
      refine ⟨t, (takeRecords_rejectedEnd he hclear hd (h.unfinished _ d hd) reply protocolStatus appStatus _).trans ht,
        hresponded.entry, ⟨rejectedEnd c r.fcgiId protocolStatus appStatus :: events,
          hevents.trans (List.append_assoc ..), ?_, ?_⟩, hresponded.pending⟩
      · rw [List.filter_cons_of_neg Bool.false_ne_true, hmanagement, Server.recordsOf_cons_ne hid]
      · exact List.forall_mem_cons.mpr ⟨.inr ⟨r.fcgiId, protocolStatus, appStatus, hmem, rfl⟩, hkinds⟩

end

/-- Responses that match their requests one by one. -/
theorem matched_responses {s : Server.System} (hconnections : s.maximumConnectionCount ≤ intMax)
    (hrequests : s.maximumRequestCountPerConnection ≤ intMax) (c : Nat) {qs : List ManagementRequestData}
    (h : ∀ q ∈ qs, q.Asked) :
    List.Forall₂ Matches qs ((qs.map managementRecord).map fun r => s.managementResponse r.type r.content) ∧
      managementEvents c qs ((qs.map managementRecord).map fun r => s.managementResponse r.type r.content) =
        qs.map (answerEvent s c) := by
  induction qs with
  | nil => exact ⟨.nil, rfl⟩
  | cons q qs ih =>
    obtain ⟨hq, hqs⟩ := List.forall_mem_cons.mp h
    obtain ⟨hmatches, hevent⟩ := matches_response (c := c) hconnections hrequests hq
    obtain ⟨hmatched, hevents⟩ := ih hqs
    exact ⟨.cons hmatches hmatched, List.cons_eq_cons.mpr ⟨hevent, hevents⟩⟩

/-- What a client sends on a new connection is received by the interface, and what
the interface answers by the client, however the bytes are cut: every management
request has its own answer, in the order of the calls, with the values of the
interface for the variables it asked for.  Every other event is the rejected end
record of a pending request, one that the interface did not accept or ended itself. -/
theorem management_exchange {u v : TestFcgiClientInterface} (hu : Reachable u) (hl : u.limits.Posix)
    {c : Nat} {e : ConnectionState} (he : u.connectionMap[c]? = some e) (hconnected : e.connected = true)
    (hclear : e.recordState.Clear) (hqueue : e.managementQueue = []) (hnew : (u.sockets c).sent = [])
    (hunfinished : Unfinished c u) {qs : List ManagementRequestData} (hsends : Sending c u qs v)
    {s : Server.System} (hconnections : s.maximumConnectionCount ≤ intMax)
    (hrequests : s.maximumRequestCountPerConnection ≤ intMax) {d k : Nat} (hs : s.Serves d [])
    (hstatus : (s.recordStatusMap[d]?).getD {} = {}) (hopen : s.SendsOn d k)
    {received : List Server.ReadResult} (hreceived : Server.Gives received (v.sockets c).sent) :
    ∃ answers, Program.Completes Server.Faultless
        (fun _ t => (t.sockets k).sent = (s.sockets k).sent ++ answers) (Server.readRecords d received) s ∧
      ∀ (reply : SystemReply) (reads : List Read), reads.flatMap (·.bytes) = answers →
        ∃ w events, discard (receiveReads (receive reply c) none reads) v = some (.ok ⟨⟩, w) ∧
          w.microEventQueue = v.microEventQueue ++ events ∧
          events.filter (·.isManagement) = qs.map (answerEvent s c) ∧
          (∀ event ∈ events, event.isManagement = true ∨ ∃ f protocolStatus appStatus,
            (⟨c, f⟩ : FcgiRequestIdentifier) ∈ v.pendingRequestMap ∧
              event = rejectedEnd c f protocolStatus appStatus) ∧
          (∃ e', w.connectionMap[c]? = some e' ∧ e'.managementQueue = []) ∧
          w.pendingRequestMap = v.pendingRequestMap := by
  obtain ⟨hv, rs, hwrote⟩ := hsends.wrote hu hl
  have hsent := hwrote.sent
  rw [hnew, List.nil_append] at hsent
  rw [hsent] at hreceived
  set answers := (s.policy.run (s.requestsOn d) rs).2 with hanswers
  refine ⟨encodeRecords answers, ?_, fun reply reads hreads => ?_⟩
  · refine Program.completes_mono ?_ (Server.completes_run hs hstatus hopen hwrote.fits hreceived)
    rintro _ t ⟨-, hanswered, -⟩
    rw [hanswered.sent, if_pos rfl]
  · have hmanagement := Server.recordsOf_answers s (s.requestsOn d) rs
    rw [hwrote.management] at hmanagement
    obtain ⟨hmatched, hevents⟩ := matched_responses hconnections hrequests c hwrote.asked
    obtain ⟨e', he', hconnected', hrecord, hqueue'⟩ := hwrote.entry e he
    rw [hqueue, List.nil_append] at hqueue'
    have howed : Owed c qs answers v := by
      refine ⟨⟨e', he', hrecord ▸ hclear, hqueue'⟩, hmanagement ▸ hmatched, fun r hr hid => ?_,
        hwrote.unfinished hunfinished⟩
      obtain ⟨r', hr', protocolStatus, appStatus, hend⟩ := Server.end_of_run rs r hr hid
      have hsame : r.fcgiId = r'.fcgiId := by rw [hend]; rfl
      rw [hsame] at hid ⊢
      exact ⟨hwrote.known r' hr' hid, protocolStatus, appStatus, hend⟩
    obtain ⟨w, hw, hresponded⟩ := takeRecords_responded reply howed
    obtain ⟨events, hqueued, hmanaged, hkinds⟩ := hresponded.events
    have hc : v.isConnected c = true := isConnected_eq_true_iff.mpr ⟨e', he', hconnected'.trans hconnected⟩
    refine ⟨w, events, ?_, hqueued, ?_, hkinds, hresponded.entry, hresponded.pending⟩
    · rw [discard_receiveReads (.reachable hv) hc, hreads, hw]
    · rw [hmanaged, hmanagement, hevents]

/-! ## Two management requests and a request between them -/

def multiplexingNames : ParamsMap := ExtTreeMap.ofList [(fcgiMpxsConns, [])]

/-- A request for the value of `FCGI_MPXS_CONNS`. -/
def multiplexingRequest : ManagementRequestData :=
  { type := kFcgiGetValues, paramsMap := multiplexingNames.map fun _ _ => [] }

theorem eq_ok_of_toOption {α : Type} {x : Operation α} {s t : TestFcgiClientInterface} {a : α}
    {r : Except Failure α} (h : x s = some (r, t)) (hr : r.toOption = some a) : x s = some (.ok a, t) := by
  cases r with
  | error e => cases hr
  | ok b => rw [h, Option.some.inj hr]

theorem exists_sending : ∃ u e v, Reachable u ∧ u.limits.Posix ∧ u.connectionMap[5]? = some e ∧
    e.connected = true ∧ e.recordState.Clear ∧ e.managementQueue = [] ∧ (u.sockets 5).sent = [] ∧
    Unfinished 5 u ∧ Sending 5 u [multiplexingRequest, { type := 77 }] v := by
  have hrun : ((step {} connectReply .connect).bind fun u =>
      (sendGetValuesRequest (wroteReply 32) 5 multiplexingNames u).bind fun r =>
      (sendRequest requestReply 5 bareRequest r.2).bind fun r' =>
      (sendBinaryManagementRequest (wroteReply 8) 5 77 [] r'.2).map fun r'' =>
        ([decide (u.limits = {}), (u.sockets 5).sent.isEmpty, u.pendingRequestMap.isEmpty,
          (u.connectionMap[5]?).any fun e =>
            e.connected && decide (e.recordState = ({} : RecordState)) && e.managementQueue.isEmpty],
          r.1.toOption, r'.1.toOption, r''.1.toOption)) =
      some ([true, true, true, true], some true, some (some ⟨5, 1⟩), some true) := by
    decide +kernel
  obtain ⟨u, hu, hrest⟩ := Option.bind_eq_some_iff.mp hrun
  obtain ⟨⟨r, t₁⟩, h₁, hrest⟩ := Option.bind_eq_some_iff.mp hrest
  obtain ⟨⟨r', t₂⟩, h₂, hrest⟩ := Option.bind_eq_some_iff.mp hrest
  obtain ⟨⟨r'', v⟩, h₃, hfacts⟩ := Option.map_eq_some_iff.mp hrest
  simp only [Prod.mk.injEq, List.cons.injEq, decide_eq_true_eq, List.isEmpty_iff, Option.any_eq_true,
    Bool.and_eq_true, and_true] at hfacts
  obtain ⟨⟨hlimits, hsent, hempty, e, he, ⟨hconnected, hrecord⟩, hqueue⟩, hr, hr', hr''⟩ := hfacts
  refine ⟨u, e, v, .call (.initial {}) hu trivial, by rw [hlimits]; constructor <;> decide, he, hconnected,
    by rw [hrecord, RecordState.Clear], hqueue, hsent, fun f d hd => ?_, ?_⟩
  · have hmem : (⟨5, f⟩ : FcgiRequestIdentifier) ∈ u.pendingRequestMap :=
      ExtTreeMap.mem_iff_isSome_getElem?.mpr (Option.isSome_of_eq_some hd)
    rw [ExtTreeMap.isEmpty_iff.mp hempty] at hmem
    exact absurd hmem ExtTreeMap.not_mem_empty
  · exact .getValues (eq_ok_of_toOption h₁ hr) (.request (by rintro p ⟨⟩) (eq_ok_of_toOption h₂ hr')
      (.binary (eq_ok_of_toOption h₃ hr'') (.done v)))

theorem management_exchange_new : ∃ (v : TestFcgiClientInterface) (answers : Bytes), Reachable v ∧
    Program.Completes Server.Faultless (fun _ t => (t.sockets 0).sent = answers)
      (Server.readRecords 5 [.drained (v.sockets 5).sent]) Server.accepted.system ∧
    ∃ w events, discard (receiveReads (receive {} 5) none [⟨false, answers⟩]) v = some (.ok ⟨⟩, w) ∧
      w.microEventQueue = v.microEventQueue ++ events ∧
      events.filter (·.isManagement) = [answerEvent Server.accepted.system 5 multiplexingRequest,
        answerEvent Server.accepted.system 5 { type := 77 }] := by
  obtain ⟨u, e, v, hu, hl, he, hconnected, hclear, hqueue, hnew, hunfinished, hsends⟩ := exists_sending
  have hopen : Server.accepted.system.SendsOn 5 0 :=
    ⟨{ socket := 0 }, by decide +kernel, rfl, by decide +kernel⟩
  obtain ⟨answers, hcompletes, hreceives⟩ := management_exchange hu hl he hconnected hclear hqueue hnew
    hunfinished hsends (by decide +kernel) (by decide +kernel) Server.serves_accepted
    Server.status_accepted hopen (.drained (v.sockets 5).sent [])
  obtain ⟨w, events, hw, hevents, hmanagement, -⟩ := hreceives {} [⟨false, answers⟩] (List.append_nil _)
  refine ⟨v, answers, (hsends.wrote hu hl).1, ?_, w, events, hw, hevents, hmanagement⟩
  refine Program.completes_mono ?_ hcompletes
  intro _ t ht
  rw [ht]
  have hnothing : (Server.accepted.system.sockets 0).sent = [] := by decide +kernel
  rw [hnothing, List.nil_append]

end Client

end AsComponents
