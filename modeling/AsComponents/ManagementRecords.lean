import AsComponents.RequestRecords
import AsComponents.Responses

/-! Management records at a client: which request a response belongs to. -/

namespace AsComponents.Client

open Protocol NameValue SocketFunctions AsComponents.Partition Std Critical TestFcgiClientInterface

/-- The record responds to a management request of this type. -/
structure Matches (q : ManagementRequestData) (r : Record) : Prop where
  fcgiId : r.fcgiId = fcgiNullRequestId
  fits : r.Fits
  type : q.type = kFcgiGetValues ∧ r.type = kFcgiGetValuesResult ∨
    q.type ≠ kFcgiGetValues ∧ r.type = kFcgiUnknownType ∧ r.content.length = 8

/-- The event of a response to a management request. -/
def managementEvent (c : Nat) (q : ManagementRequestData) (r : Record) : ServerEvent :=
  if r.type = kFcgiGetValuesResult then
    .getValuesResult (getValuesResponse r.content).2 ⟨c, fcgiNullRequestId⟩ q.paramsMap
      (getValuesResponse r.content).1
  else .unknownType ⟨c, fcgiNullRequestId⟩ (r.content.headD 0) q

section

variable {s : TestFcgiClientInterface} {c : Nat} {e : ConnectionState} {r : Record}
  {reply : SystemReply} {q : ManagementRequestData} {queue : List ManagementRequestData}

namespace Arrival

variable {a : Arrival}

/-- The state after a response to the front of the queue. -/
def responded (a : Arrival) (queue : List ManagementRequestData) (event : ServerEvent) :
    TestFcgiClientInterface :=
  (a.s.setConnection a.c { a.e with recordState := {}, managementQueue := queue }).pushEvent event

/-- A valid record of the null request with content that is kept. -/
theorem takeRecord_responded (more : Bytes) (hvalid : a.invalidated = false)
    (htype : headerType a.header = kFcgiGetValuesResult ∨ headerType a.header = kFcgiUnknownType)
    {event : ServerEvent}
    (hprocess : ∀ t, t.connectionMap[a.c]? = some { a.e with recordState := a.received a.content } →
      processValidRecord a.c (t.find (headerIdentifier a.c a.header)) (a.received a.content) t =
        some (.ok (t.find (headerIdentifier a.c a.header)), (t.setConnection a.c
          { a.e with recordState := a.received a.content, managementQueue := queue }).pushEvent event)) :
    takeRecord reply a.c (a.bytes ++ more) a.s = some (.ok more, a.responded queue event) := by
  have hnoend : headerType a.header ≠ kFcgiEndRequest := by
    rcases htype with htype | htype
    · rw [htype]
      decide
    · rw [htype]
      decide
  have hkept : ¬ (bodyState a.header a.invalidated 0 0 []).isStream = true := by
    rw [isStream_iff]
    rintro ⟨-, hstream⟩
    rw [show (bodyState a.header a.invalidated 0 0 []).type = headerType a.header from rfl] at hstream
    rcases htype with htype | htype
    · rw [htype] at hstream
      exact absurd hstream (by decide)
    · rw [htype] at hstream
      exact absurd hstream (by decide)
  have hchecked : checkedState a.s a.c a.header = a.s := if_neg fun h => hnoend h.2
  refine ok_takeRecord more a.content (fun h => hnoend h.2.1) (ok_takeContent_kept _ hkept) ?_
  rw [hchecked]
  have hinvalid : ¬ (a.received a.content).invalidated = true := by
    rw [show (a.received a.content).invalidated = a.invalidated from rfl, hvalid]
    decide
  have hprocessed : processRecord a.c (a.s.find (headerIdentifier a.c a.header)) (a.received a.content)
      (a.withRecord a.s (a.received a.content)) = _ :=
    (congrFun (if_neg hinvalid) _).trans (hprocess _ (withRecord_entry _ _))
  rw [ok_finishRecord hprocessed ((getElem?_setConnection _ _ _ _).trans (if_pos rfl))]
  have hcleared : ((a.withRecord a.s (a.received a.content)).setConnection a.c
      { a.e with recordState := a.received a.content, managementQueue := queue }).setConnection a.c
        { a.e with recordState := {}, managementQueue := queue } =
      a.s.setConnection a.c { a.e with recordState := {}, managementQueue := queue } := by
    rw [setConnection_setConnection, withRecord, setConnection_setConnection]
  exact congrArg (fun t => some (Except.ok PUnit.unit, TestFcgiClientInterface.pushEvent t event)) hcleared

variable (queue) in
theorem ok_popManagementQueue {t : TestFcgiClientInterface} {f : ConnectionState}
    (hf : t.connectionMap[c]? = some f) (hqueue : f.managementQueue = q :: queue) :
    popManagementQueue c t = some (.ok q, t.setConnection c { f with managementQueue := queue }) := by
  rw [popManagementQueue, ok_bind (ok_connectionState hf), hqueue]
  rfl

end Arrival

theorem validHeader_result {header : Bytes} (hversion : header.headD 0 = 1)
    (hid : headerRequestId header = fcgiNullRequestId) (htype : headerType header = kFcgiGetValuesResult)
    (hq : q.type = kFcgiGetValues) : validHeader s c (q :: queue) header = true := by
  rw [validHeader, decide_eq_true hversion, Bool.true_and, validType, if_neg (by rw [htype]; decide),
    if_neg (by rw [htype]; decide), if_neg (by rw [htype]; decide), if_pos htype, hid]
  simp [hq]

theorem validHeader_unknownType {header : Bytes} (hversion : header.headD 0 = 1)
    (hid : headerRequestId header = fcgiNullRequestId) (htype : headerType header = kFcgiUnknownType)
    (hlength : headerContentLength header = 8) (hq : q.type ≠ kFcgiGetValues) :
    validHeader s c (q :: queue) header = true := by
  rw [validHeader, decide_eq_true hversion, Bool.true_and, validType, if_neg (by rw [htype]; decide),
    if_neg (by rw [htype]; decide), if_neg (by rw [htype]; decide), if_neg (by rw [htype]; decide),
    if_pos htype, hid, hlength]
  simp [hq]

/-- A response takes the request at the front of the queue. -/
theorem takeRecords_management (he : s.connectionMap[c]? = some e) (hclear : e.recordState.Clear)
    (hqueue : e.managementQueue = q :: queue) (h : Matches q r) (more : Bytes) :
    takeRecords reply c (r.encode ++ more) s = takeRecords reply c more
      ((s.setConnection c { e with recordState := {}, managementQueue := queue }).pushEvent
        (managementEvent c q r)) := by
  set a := Arrival.ofRecord he hclear r h.fits with ha
  have hid : headerRequestId a.header = fcgiNullRequestId := by
    rw [← h.fcgiId]
    exact headerRequestId_populateHeader ..
  have htype : headerType a.header = r.type := headerType_populateHeader ..
  have hlength : headerContentLength a.header = r.content.length :=
    headerContentLength_populateHeader _ _ _ h.fits.1
  have hqueue' : a.e.managementQueue = q :: queue := hqueue
  have hversion : a.header.headD 0 = 1 := rfl
  have htaken : takeRecord reply a.c (a.bytes ++ more) a.s =
      some (.ok more, a.responded queue (managementEvent c q r)) := by
    rcases h.type with ⟨hq, hr⟩ | ⟨hq, hr, hcontent⟩
    · have hresult : headerType a.header = kFcgiGetValuesResult := htype.trans hr
      have hvalid : a.invalidated = false := by
        rw [Arrival.invalidated, hqueue', validHeader_result hversion hid hresult hq]
        rfl
      refine Arrival.takeRecord_responded more hvalid (.inl hresult) fun t ht => ?_
      have hreceived : (a.received a.content).type = kFcgiGetValuesResult := hresult
      have hpop := Arrival.ok_popManagementQueue queue ht hqueue'
      rw [managementEvent, if_pos hr, processValidRecord,
        if_neg (show ¬ (a.received a.content).type = kFcgiEndRequest from by rw [hreceived]; decide),
        if_neg (show ¬ (a.received a.content).type = kFcgiStdout from by rw [hreceived]; decide),
        if_neg (show ¬ (a.received a.content).type = kFcgiStderr from by rw [hreceived]; decide), if_pos hreceived]
      exact ok_bind hpop
    · have hunknown : headerType a.header = kFcgiUnknownType := htype.trans hr
      have hvalid : a.invalidated = false := by
        rw [Arrival.invalidated, hqueue',
          validHeader_unknownType hversion hid hunknown (hlength.trans hcontent) hq]
        rfl
      refine Arrival.takeRecord_responded more hvalid (.inr hunknown) fun t ht => ?_
      have hreceived : (a.received a.content).type = kFcgiUnknownType := hunknown
      have hpop := Arrival.ok_popManagementQueue queue ht hqueue'
      obtain ⟨b, rest, hb⟩ := List.exists_cons_of_length_eq_add_one hcontent
      have hbuffer : (a.received a.content).localBuffer = b :: rest := hb
      rw [managementEvent, if_neg (by rw [hr]; decide), hb, processValidRecord,
        if_neg (show ¬ (a.received a.content).type = kFcgiEndRequest from by rw [hreceived]; decide),
        if_neg (show ¬ (a.received a.content).type = kFcgiStdout from by rw [hreceived]; decide),
        if_neg (show ¬ (a.received a.content).type = kFcgiStderr from by rw [hreceived]; decide),
        if_neg (show ¬ (a.received a.content).type = kFcgiGetValuesResult from by rw [hreceived]; decide),
        if_pos hreceived, hbuffer]
      exact ok_bind hpop
  have hrest := Arrival.takeRecords_append htaken
  rw [ha, Arrival.bytes_ofRecord] at hrest
  exact hrest

end

/-! ## Responses to requests of both kinds -/

/-- The event of a response to a management request. -/
def ServerEvent.isManagement : ServerEvent → Bool
  | .getValuesResult .. => true
  | .unknownType .. => true
  | _ => false

theorem isManagement_managementEvent (c : Nat) (q : ManagementRequestData) (r : Record) :
    (managementEvent c q r).isManagement = true := by
  unfold managementEvent
  split <;> rfl

/-- The events of responses to these management requests, in their order. -/
def managementEvents (c : Nat) (queue : List ManagementRequestData) (rs : List Record) :
    List ServerEvent :=
  List.zipWith (managementEvent c) queue rs

/-- Records for requests. -/
def applicationRecords (rs : List Record) : List Record := rs.filter fun r => r.fcgiId ≠ fcgiNullRequestId

/-- Connection `c` waits for these records, which answer the requests of `ids` and
the management requests `qs`. -/
structure Expects (c : Nat) (ids : List UInt16) (response : UInt16 → ServerEvent)
    (qs rest : List ManagementRequestData) (records : List Record) (s : TestFcgiClientInterface) :
    Prop where
  entry : ∃ e, s.connectionMap[c]? = some e ∧ e.recordState.Clear ∧ e.managementQueue = qs ++ rest
  waits : Waits c ids response (applicationRecords records) s
  matched : List.Forall₂ Matches qs (Server.recordsOf fcgiNullRequestId records)

/-- All of them were answered, each once, and the management requests in their
order. -/
structure Exchanged (c : Nat) (ids : List UInt16) (response : UInt16 → ServerEvent)
    (qs rest : List ManagementRequestData) (records : List Record) (s t : TestFcgiClientInterface) :
    Prop where
  entry : ∃ e, t.connectionMap[c]? = some e ∧ e.recordState.Clear ∧ e.managementQueue = rest
  events : ∃ events, t.microEventQueue = s.microEventQueue ++ events ∧
    events.filter (·.isManagement) =
      managementEvents c qs (Server.recordsOf fcgiNullRequestId records) ∧
    Answered c ids response s
      { t with microEventQueue := s.microEventQueue ++ events.filter fun event => !event.isManagement }

section

variable {s t : TestFcgiClientInterface} {c : Nat} {ids : List UInt16} {e : ConnectionState}
  {response : UInt16 → ServerEvent} {r : Record} {records : List Record} {q : ManagementRequestData}
  {qs rest : List ManagementRequestData}

theorem applicationRecords_cons (h : r.fcgiId ≠ fcgiNullRequestId) :
    applicationRecords (r :: records) = r :: applicationRecords records :=
  List.filter_cons_of_pos (decide_eq_true h)

theorem applicationRecords_management (h : r.fcgiId = fcgiNullRequestId) :
    applicationRecords (r :: records) = applicationRecords records :=
  List.filter_cons_of_neg fun hne => of_decide_eq_true hne h

/-- A response leaves the requests as they are. -/
theorem Waits.management (h : Waits c ids response records s) (e : ConnectionState) (event : ServerEvent) :
    Waits c ids response records
      ((s.setConnection c { e with recordState := {} }).pushEvent event) where
  clear := Waits.clear_set e s c
  pending := h.pending
  own := h.own

theorem Answered.management {event : ServerEvent} {events : List ServerEvent}
    (h : Answered c ids response ((s.setConnection c e).pushEvent event)
      { t with microEventQueue := ((s.setConnection c e).pushEvent event).microEventQueue ++ events }) :
    Answered c ids response s { t with microEventQueue := s.microEventQueue ++ events } where
  events := by
    obtain ⟨events', hevents, hperm⟩ := h.events
    rw [← List.append_cancel_left hevents] at hperm
    exact ⟨events, rfl, hperm⟩
  completed := h.completed
  others := h.others

/-- The entry of the connection after a record. -/
theorem entry_set (s : TestFcgiClientInterface) (c : Nat) {queue : List ManagementRequestData}
    (h : e.managementQueue = queue) :
    ∃ e', (s.setConnection c { e with recordState := {} }).connectionMap[c]? = some e' ∧
      e'.recordState.Clear ∧ e'.managementQueue = queue :=
  ⟨_, (s.getElem?_setConnection c c _).trans (if_pos rfl), rfl, h⟩

namespace Exchanged

/-- The first record responds to a management request. -/
theorem management (hid : r.fcgiId = fcgiNullRequestId)
    (h : Exchanged c ids response qs rest records
      ((s.setConnection c e).pushEvent (managementEvent c q r)) t) :
    Exchanged c ids response (q :: qs) rest (r :: records) s t where
  entry := h.entry
  events := by
    obtain ⟨events, hevents, hmanagement, hanswered⟩ := h.events
    have hcons : Server.recordsOf fcgiNullRequestId (r :: records) =
        r :: Server.recordsOf fcgiNullRequestId records := by
      rw [← hid]
      exact Server.recordsOf_cons_self r records
    refine ⟨managementEvent c q r :: events, hevents.trans (List.append_assoc ..), ?_, ?_⟩
    · rw [List.filter_cons_of_pos (isManagement_managementEvent c q r), hmanagement, hcons]
      rfl
    · rw [List.filter_cons_of_neg (by rw [isManagement_managementEvent]; decide)]
      exact hanswered.management

/-- The first record belongs to the stream of a request. -/
theorem stream {d : RequestData} (hid : r.fcgiId ≠ fcgiNullRequestId) (hf : r.fcgiId ∈ ids)
    (h : Exchanged c ids response qs rest records
      ((s.setPending ⟨c, r.fcgiId⟩ d).setConnection c { e with recordState := {} }) t) :
    Exchanged c ids response qs rest (r :: records) s t where
  entry := h.entry
  events := by
    obtain ⟨events, hevents, hmanagement, hanswered⟩ := h.events
    rw [Server.recordsOf_cons_ne hid]
    exact ⟨events, hevents, hmanagement, hanswered.stream hf⟩

/-- The first record ends a request. -/
theorem ended (hid : r.fcgiId ≠ fcgiNullRequestId) (hf : r.fcgiId ∈ ids) (hnodup : ids.Nodup)
    (hkind : (response r.fcgiId).isManagement = false)
    (h : Exchanged c (ids.erase r.fcgiId) response qs rest records
      ((s.complete ⟨c, r.fcgiId⟩ (response r.fcgiId)).setConnection c { e with recordState := {} }) t) :
    Exchanged c ids response qs rest (r :: records) s t where
  entry := h.entry
  events := by
    obtain ⟨events, hevents, hmanagement, hanswered⟩ := h.events
    rw [Server.recordsOf_cons_ne hid]
    refine ⟨response r.fcgiId :: events, hevents.trans (List.append_assoc ..), ?_, ?_⟩
    · rw [List.filter_cons_of_neg (by rw [hkind]; decide), hmanagement]
    · rw [List.filter_cons_of_pos (by rw [hkind]; rfl), ← List.singleton_append, ← List.append_assoc]
      exact hanswered.ended hf hnodup

end Exchanged

/-- However the responses to management requests and the answers to other requests
follow each other, the client relates each of them to its request. -/
theorem takeRecords_exchanged (reply : SystemReply) (hnodup : ids.Nodup)
    (h : Expects c ids response qs rest records s) : ∃ t,
      takeRecords reply c (encodeRecords records) s = some (.ok ⟨⟩, t) ∧
        Exchanged c ids response qs rest records s t := by
  induction records generalizing s ids qs with
  | nil =>
    obtain ⟨t, ht, hanswered⟩ := takeRecords_answers reply hnodup h.waits
    obtain rfl : s = t := by simpa using (Prod.mk.inj (Option.some.inj (takeRecords_nil.symm.trans ht))).2
    obtain ⟨e, he, hclear, hqueue⟩ := h.entry
    cases h.matched
    refine ⟨s, takeRecords_nil, ⟨⟨e, he, hclear, hqueue⟩, [], (List.append_nil _).symm, rfl, ?_⟩⟩
    rw [List.filter_nil, List.append_nil]
    exact hanswered
  | cons r records ih =>
    obtain ⟨e, he, hclear, hqueue⟩ := h.entry
    have hmatched := h.matched
    have hwaits := h.waits
    rw [encodeRecords_cons]
    by_cases hid : r.fcgiId = fcgiNullRequestId
    · rw [← hid, Server.recordsOf_cons_self, hid] at hmatched
      rw [applicationRecords_management hid] at hwaits
      cases hmatched with
      | @cons q _ qs _ hr hmatched =>
        have hentry := entry_set (e := { e with managementQueue := qs ++ rest }) s c rfl
        obtain ⟨t, ht, hexchanged⟩ := ih (s := (s.setConnection c _).pushEvent (managementEvent c q r)) hnodup
          ⟨hentry, hwaits.management _ _, hmatched⟩
        exact ⟨t, (takeRecords_management he hclear hqueue hr _).trans ht, hexchanged.management hid⟩
    · rw [Server.recordsOf_cons_ne hid] at hmatched
      rw [applicationRecords_cons hid] at hwaits
      have hf := hwaits.own r List.mem_cons_self
      obtain ⟨d, hd, hnew, hanswers⟩ := hwaits.pending r.fcgiId hf
      rw [List.filter_cons_of_pos (by simp)] at hanswers
      rcases hanswers.cons_cases with ⟨hfits, hopen, hrest⟩ |
        ⟨hlast, hendable, appStatus, protocolStatus, hstatus, hr, hresponse⟩
      · obtain ⟨t, ht, hexchanged⟩ := ih hnodup ⟨entry_set _ c hqueue, hwaits.stream (e := e) hrest, hmatched⟩
        exact ⟨t, (takeRecords_stream he hclear hfits hd hopen _).trans ht, hexchanged.stream hid hf⟩
      · obtain ⟨t, ht, hexchanged⟩ := ih (hnodup.erase _)
          ⟨entry_set _ c hqueue, hwaits.ended (e := e) hnodup hlast, hmatched⟩
        have htaken := @takeRecords_end s c e d reply _ _ he hclear hd hnew hendable hstatus appStatus
          (encodeRecords records)
        rw [← hresponse] at htaken
        have hencode : r.encode = (Server.endRequestRecord r.fcgiId protocolStatus appStatus).encode :=
          congrArg Record.encode hr
        have hkind : (response r.fcgiId).isManagement = false := by
          rw [hresponse]
          rfl
        rw [hencode]
        exact ⟨t, htaken.trans ht, hexchanged.ended hid hf hnodup hkind⟩

end

/-- No request has the null identifier. -/
theorem ne_null_of_pending {s : TestFcgiClientInterface} (h : Invariant s) {c : Nat} {e : ConnectionState}
    (he : s.connectionMap[c]? = some e) {f : UInt16} {d : RequestData}
    (hd : s.pendingRequestMap[(⟨c, f⟩ : FcgiRequestIdentifier)]? = some d) : f ≠ fcgiNullRequestId := by
  rintro rfl
  have hused := h.used c e he fcgiNullRequestId
    (.inr (ExtTreeMap.mem_iff_isSome_getElem?.mpr (Option.isSome_of_eq_some hd)))
  exact absurd (IdManager.isUsed_bounds hused).1 (by decide)

theorem fcgiId_of_matched {qs : List ManagementRequestData} {rs : List Record}
    (h : List.Forall₂ Matches qs rs) : ∀ r ∈ rs, r.fcgiId = fcgiNullRequestId := by
  induction h with
  | nil => simp
  | cons hr _ ih => exact List.forall_mem_cons.mpr ⟨hr.fcgiId, ih⟩

section

variable {s : TestFcgiClientInterface} {c : Nat} {e : ConnectionState} {ids : List UInt16}
  {request : UInt16 → FcgiRequestDataReference} {qs rest : List ManagementRequestData} {rs : List Record}
  {l : SystemLimits} {appStatus : UInt16 → Int32} {protocolStatus : UInt16 → UInt8}
  {calls : UInt16 → List Server.ApiCall} {batches : UInt16 → List Bytes} {order : List (UInt16 × Bytes)}

/-- The responses to the requests of `ids`. -/
def responseEvent (c : Nat) (request : UInt16 → FcgiRequestDataReference) (appStatus : UInt16 → Int32)
    (protocolStatus : UInt16 → UInt8) (calls : UInt16 → List Server.ApiCall) (f : UInt16) : ServerEvent :=
  .fcgiResponse (appStatus f) (stderrOf (calls f)) (stdoutOf (calls f)) (protocolStatus f) (request f) ⟨c, f⟩

variable (c request) in
/-- The records of the batches, those of the null request and those of others. -/
theorem exists_batchRecords (hids : ∀ r ∈ rs, r.fcgiId = fcgiNullRequestId)
    (hoffers : ∀ f ∈ ids, Offers l f (appStatus f) (protocolStatus f) (calls f) (batches f))
    (horder : ∀ f, (order.filter fun b => b.1 = f).map Prod.snd =
      if f = fcgiNullRequestId then rs.map Record.encode else if f ∈ ids then batches f else []) :
    ∃ records, encodeRecords records = (order.map Prod.snd).flatten ∧
      Server.recordsOf fcgiNullRequestId records = rs ∧
      ∀ f, f ≠ fcgiNullRequestId →
        if f ∈ ids then Answers ⟨c, f⟩ (responseEvent c request appStatus protocolStatus calls f)
          { request := request f } ((applicationRecords records).filter fun r => r.fcgiId = f)
        else (applicationRecords records).filter (fun r => r.fcgiId = f) = [] := by
  have hrecs : ∀ f, ∃ recs : List (List Record),
      (if f = fcgiNullRequestId then rs.map Record.encode else if f ∈ ids then batches f else []) =
        recs.map encodeRecords ∧
      (∀ r ∈ recs.flatten, r.fcgiId = f) ∧
      (f = fcgiNullRequestId → recs.flatten = rs) ∧
      (f ≠ fcgiNullRequestId → if f ∈ ids then Answers ⟨c, f⟩
        (responseEvent c request appStatus protocolStatus calls f) { request := request f } recs.flatten
        else recs.flatten = []) := by
    intro f
    by_cases hzero : f = fcgiNullRequestId
    · subst hzero
      have hflatten : (rs.map fun r => [r]).flatten = rs := List.flatMap_singleton' rs
      refine ⟨rs.map fun r => [r], ?_, ?_, fun _ => hflatten, fun hne => absurd rfl hne⟩
      · rw [if_pos rfl, List.map_map]
        refine List.map_congr_left fun r _ => ?_
        rw [Function.comp_apply, encodeRecords_cons, encodeRecords_nil, List.append_nil]
      · rw [hflatten]
        exact hids
    rw [if_neg hzero]
    by_cases hf : f ∈ ids
    · obtain ⟨recs, hbatches, hown, hanswers⟩ := answers_of_offers (c := c)
        (d := { request := request f }) (hoffers f hf) rfl rfl
      refine ⟨recs, by rw [if_pos hf, hbatches], hown, fun h => absurd h hzero, fun _ => ?_⟩
      rw [if_pos hf]
      exact hanswers
    · refine ⟨[], by rw [if_neg hf]; rfl, List.forall_mem_nil _, fun h => absurd h hzero, fun _ => ?_⟩
      rw [if_neg hf]
      rfl
  choose recs hbatches hown hmanagement hanswers using hrecs
  obtain ⟨records, hrecords, hfilter⟩ := exists_records (fun f => (horder f).trans (hbatches f)) hown
  refine ⟨records, hrecords, (hfilter _).trans (hmanagement _ rfl), fun f hf => ?_⟩
  have hothers : (applicationRecords records).filter (fun r => r.fcgiId = f) = (recs f).flatten := by
    rw [← hfilter f, applicationRecords, List.filter_filter]
    refine List.filter_congr fun r _ => ?_
    by_cases hr : r.fcgiId = f
    · simp [hr, hf]
    · simp [hr]
  rw [hothers]
  exact hanswers f hf

/-- Whatever applications write for the requests that are pending on a connection,
however this and the responses to management requests follow each other, and
however the bytes are cut into reads: every request is answered once, with what was
written for it, and every management request has the response in its place. -/
theorem exchange_of_interleaving (hs : Receivable s) (he : s.connectionMap[c]? = some e)
    (hconnected : e.connected = true) (hclear : e.recordState.Clear) (hnodup : ids.Nodup)
    (hpending : ∀ f ∈ ids,
      s.pendingRequestMap[(⟨c, f⟩ : FcgiRequestIdentifier)]? = some { request := request f })
    (hqueue : e.managementQueue = qs ++ rest) (hmatched : List.Forall₂ Matches qs rs)
    (hoffers : ∀ f ∈ ids, Offers l f (appStatus f) (protocolStatus f) (calls f) (batches f))
    (horder : ∀ f, (order.filter fun b => b.1 = f).map Prod.snd =
      if f = fcgiNullRequestId then rs.map Record.encode else if f ∈ ids then batches f else [])
    (reply : SystemReply) {reads : List Read}
    (hreads : reads.flatMap (·.bytes) = (order.map Prod.snd).flatten) :
    ∃ t events, discard (receiveReads (receive reply c) none reads) s = some (.ok ⟨⟩, t) ∧
      t.microEventQueue = s.microEventQueue ++ events ∧
      events.filter (·.isManagement) = managementEvents c qs rs ∧
      (events.filter fun event => !event.isManagement).Perm
        (ids.map (responseEvent c request appStatus protocolStatus calls)) ∧
      (∃ e', t.connectionMap[c]? = some e' ∧ e'.managementQueue = rest) ∧
      ∀ f ∈ ids, (⟨c, f⟩ : FcgiRequestIdentifier) ∉ t.pendingRequestMap ∧
        (⟨c, f⟩ : FcgiRequestIdentifier) ∈ t.completedRequestSet := by
  have hc : s.isConnected c = true := isConnected_eq_true_iff.mpr ⟨e, he, hconnected⟩
  obtain ⟨hinv, -⟩ := hs.framed
  have hnull : ∀ f ∈ ids, f ≠ fcgiNullRequestId := fun f hf => ne_null_of_pending hinv he (hpending f hf)
  obtain ⟨records, hrecords, hmanagement, hanswers⟩ := exists_batchRecords c request
    (fcgiId_of_matched hmatched) hoffers horder
  have hwaits : Waits c ids (responseEvent c request appStatus protocolStatus calls)
      (applicationRecords records) s := by
    refine ⟨⟨e, he, hclear⟩, fun f hf => ⟨_, hpending f hf, fun hmem => ?_, ?_⟩, fun r hr => ?_⟩
    · exact hinv.disjoint _ hmem
        (ExtTreeMap.mem_iff_isSome_getElem?.mpr (Option.isSome_of_eq_some (hpending f hf)))
    · have hown := hanswers f (hnull f hf)
      rwa [if_pos hf] at hown
    · by_contra hnot
      have hne := of_decide_eq_true (List.mem_filter.mp hr).2
      have hnone := hanswers r.fcgiId hne
      rw [if_neg hnot] at hnone
      exact List.filter_eq_nil_iff.mp hnone r hr (decide_eq_true rfl)
  obtain ⟨t, ht, hexchanged⟩ := takeRecords_exchanged reply hnodup
    ⟨⟨e, he, hclear, hqueue⟩, hwaits, hmanagement.symm ▸ hmatched⟩
  obtain ⟨events, hevents, hmanaged, hanswered⟩ := hexchanged.events
  obtain ⟨responses, hresponses, hperm⟩ := hanswered.events
  obtain ⟨e', he', -, hrest⟩ := hexchanged.entry
  rw [hmanagement] at hmanaged
  rw [← List.append_cancel_left hresponses] at hperm
  refine ⟨t, events, ?_, hevents, hmanaged, hperm, ⟨e', he', hrest⟩, hanswered.completed⟩
  rw [discard_receiveReads hs hc, hreads, ← hrecords, ht]

end

/-! ## Two requests and two management requests -/

/-- `ScatterGatherSocketWrite` writes this many bytes at once. -/
def wroteReply (n : Nat) : SystemReply := { batches := [{ tape := [.wrote n] }] }

/-- The value "1" of `FCGI_MPXS_CONNS`. -/
def valuesRecord : Record :=
  ⟨kFcgiGetValuesResult, fcgiNullRequestId, encodePairs [(fcgiMpxsConns, [49])], []⟩

/-- The responses come between the batches of the two requests. -/
def mixedOrder : List (UInt16 × Bytes) :=
  [(1, writtenRecord), (fcgiNullRequestId, valuesRecord.encode), (2, errorRecord),
    (2, Server.conclusion 2 7 fcgiUnknownRole),
    (fcgiNullRequestId, (Server.unknownTypeRecord 77).encode),
    (1, Server.conclusion 1 (-1) fcgiRequestComplete)]

theorem order_mixed (f : UInt16) : (mixedOrder.filter fun b => b.1 = f).map Prod.snd =
    if f = fcgiNullRequestId then [valuesRecord, Server.unknownTypeRecord 77].map Record.encode
    else if f ∈ [1, 2] then twoBatches f else [] := by
  by_cases hzero : f = fcgiNullRequestId
  · subst hzero
    decide
  by_cases hone : f = 1
  · subst hone
    decide
  by_cases htwo : f = 2
  · subst htwo
    decide
  · have hzero' : fcgiNullRequestId ≠ f := Ne.symm hzero
    have hone' : (1 : UInt16) ≠ f := Ne.symm hone
    have htwo' : (2 : UInt16) ≠ f := Ne.symm htwo
    simp [mixedOrder, hzero, hone, htwo, hzero', hone', htwo']

/-- Two requests are pending, and two management requests are in the queue. -/
theorem exists_pending : ∃ s e q q', ∃ request : UInt16 → FcgiRequestDataReference,
    Reachable s ∧ s.connectionMap[5]? = some e ∧
    e.connected = true ∧ e.recordState.Clear ∧ e.managementQueue = [q, q'] ∧ q.type = kFcgiGetValues ∧
    q'.type = 77 ∧ s.microEventQueue = [] ∧ ∀ f ∈ ([1, 2] : List UInt16),
      s.pendingRequestMap[(⟨5, f⟩ : FcgiRequestIdentifier)]? = some { request := request f } := by
  have hrun : ((run {} [(connectReply, .connect), (requestReply, .sendRequest 5 bareRequest),
      (wroteReply 32, .sendGetValuesRequest 5 (ExtTreeMap.ofList [(fcgiMpxsConns, [])])),
      (requestReply, .sendRequest 5 bareRequest),
      (wroteReply 8, .sendBinaryManagementRequest 5 77 [])]).map fun s =>
      (s.connectionMap[5]?.map fun e => (e.connected && decide (e.recordState = ({} : RecordState)), e.managementQueue.map (·.type)),
        s.microEventQueue.length, [1, 2].map fun f =>
          s.pendingRequestMap[(⟨5, f⟩ : FcgiRequestIdentifier)]?.map fun d =>
            (d.stdoutCompleted || d.stderrCompleted, (d.fcgiStdout ++ d.fcgiStderr).length))) =
      some (some (true, [kFcgiGetValues, 77]), 0, [some (false, 0), some (false, 0)]) := by
    decide +kernel
  obtain ⟨s, hs, hfacts⟩ := Option.map_eq_some_iff.mp hrun
  simp only [Prod.mk.injEq, List.length_eq_zero_iff, List.map_cons, List.map_nil, List.cons.injEq,
    and_true] at hfacts
  obtain ⟨hentry, hevents, hone, htwo⟩ := hfacts
  obtain ⟨e, he, hstate⟩ := Option.map_eq_some_iff.mp hentry
  simp only [Prod.mk.injEq, Bool.and_eq_true, List.map_eq_cons_iff, List.map_eq_nil_iff] at hstate
  obtain ⟨⟨hconnected, hrecord⟩, q, _, hqueue, hq, q', _, rfl, hq', rfl⟩ := hstate
  have hfresh : ∀ f ∈ ([1, 2] : List UInt16), ∃ request : FcgiRequestDataReference,
      s.pendingRequestMap[(⟨5, f⟩ : FcgiRequestIdentifier)]? = some { request := request } := by
    intro f hf
    have hnew : (s.pendingRequestMap[(⟨5, f⟩ : FcgiRequestIdentifier)]?.map fun d =>
        (d.stdoutCompleted || d.stderrCompleted, (d.fcgiStdout ++ d.fcgiStderr).length)) = some (false, 0) := by
      rcases List.mem_cons.mp hf with rfl | hf
      · exact hone
      · obtain rfl := List.mem_singleton.mp hf
        exact htwo
    obtain ⟨⟨request, fcgiStderr, stderrCompleted, fcgiStdout, stdoutCompleted⟩, hd, hfields⟩ :=
      Option.map_eq_some_iff.mp hnew
    simp only [Prod.mk.injEq, Bool.or_eq_false_iff, List.length_eq_zero_iff,
      List.append_eq_nil_iff] at hfields
    obtain ⟨⟨rfl, rfl⟩, rfl, rfl⟩ := hfields
    exact ⟨request, hd⟩
  obtain ⟨request, hrequest⟩ := hfresh 1 (by decide)
  obtain ⟨request', hrequest'⟩ := hfresh 2 (by decide)
  refine ⟨s, e, q, q', fun f => if f = 1 then request else request', reachable_run (.initial {}) hs, he,
    hconnected, by rw [of_decide_eq_true hrecord, RecordState.Clear], hqueue, hq, hq', hevents, fun f hf => ?_⟩
  rcases List.mem_cons.mp hf with rfl | hf
  · exact hrequest
  · obtain rfl := List.mem_singleton.mp hf
    exact hrequest'

theorem exchange_of_interleaving_mixed : ∃ s t q q', ∃ request : UInt16 → FcgiRequestDataReference,
    Reachable s ∧ q.type = kFcgiGetValues ∧
    discard (receiveReads (receive {} 5) none
      [⟨true, (mixedOrder.map Prod.snd).flatten.take 21⟩,
        ⟨false, (mixedOrder.map Prod.snd).flatten.drop 21⟩]) s = some (.ok ⟨⟩, t) ∧
    t.microEventQueue.filter (·.isManagement) =
      [managementEvent 5 q valuesRecord, managementEvent 5 q' (Server.unknownTypeRecord 77)] ∧
    (t.microEventQueue.filter fun event => !event.isManagement).Perm
      [.fcgiResponse (-1) [] [72, 105] fcgiRequestComplete (request 1) ⟨5, 1⟩,
        .fcgiResponse 7 [33] [] fcgiUnknownRole (request 2) ⟨5, 2⟩] := by
  obtain ⟨s, e, q, q', request, hs, he, hconnected, hclear, hqueue, hq, hq', hevents, hpending⟩ :=
    exists_pending
  have hmatched : List.Forall₂ Matches [q, q'] [valuesRecord, Server.unknownTypeRecord 77] := by
    refine .cons ⟨rfl, ⟨by decide, by decide⟩, .inl ⟨hq, rfl⟩⟩
      (.cons ⟨rfl, ⟨by decide, by decide⟩, .inr ⟨?_, rfl, rfl⟩⟩ .nil)
    rw [hq']
    decide
  have hreads : ([⟨true, (mixedOrder.map Prod.snd).flatten.take 21⟩,
      ⟨false, (mixedOrder.map Prod.snd).flatten.drop 21⟩] : List Read).flatMap (·.bytes) =
        (mixedOrder.map Prod.snd).flatten := by decide
  obtain ⟨t, events, ht, hqueued, hmanagement, hperm, -⟩ := exchange_of_interleaving (.reachable hs) he
    hconnected hclear (by decide) hpending (hqueue.trans (List.append_nil _).symm) hmatched offers_two
    order_mixed {} hreads
  rw [hevents, List.nil_append] at hqueued
  refine ⟨s, t, q, q', request, hs, hq, ht, ?_, ?_⟩
  · rw [hqueued]
    exact hmanagement
  · rw [hqueued]
    exact hperm

end AsComponents.Client
