import AsComponents.ClientReads

/-! What a whole record does to a client whose connection waits for it. -/

namespace AsComponents.Client

open Protocol NameValue SocketFunctions AsComponents.Partition Std Critical TestFcgiClientInterface

/-- A record of a stream: its content is appended, and without content it ends the
stream. -/
def RequestData.absorb (d : RequestData) (type : FcgiType) (content : Bytes) : RequestData :=
  if content ≠ [] then d.append type content
  else if type = kFcgiStdout then { d with stdoutCompleted := true }
  else { d with stderrCompleted := true }

/-- A pending request is completed. -/
def TestFcgiClientInterface.complete (s : TestFcgiClientInterface) (id : FcgiRequestIdentifier)
    (response : ServerEvent) : TestFcgiClientInterface :=
  { s.pushEvent response with
    completedRequestSet := s.completedRequestSet.insert id
    pendingRequestMap := s.pendingRequestMap.erase id }

namespace Arrival

/-- A record of a server. -/
def ofRecord {s : TestFcgiClientInterface} {c : Nat} {e : ConnectionState}
    (entry : s.connectionMap[c]? = some e) (clear : e.recordState.Clear) (r : Record) (fits : r.Fits) :
    Arrival where
  s := s
  c := c
  e := e
  header := r.header
  content := r.content
  padding := r.padding
  entry := entry
  clear := clear
  record :=
    { headerLength := rfl
      contentLength := (headerContentLength_populateHeader _ _ _ fits.1).symm
      paddingLength := (headerPaddingLength_populateHeader _ _ _ fits.2).symm }

theorem bytes_ofRecord {s : TestFcgiClientInterface} {c : Nat} {e : ConnectionState}
    (entry : s.connectionMap[c]? = some e) (clear : e.recordState.Clear) (r : Record) (fits : r.Fits) :
    (ofRecord entry clear r fits).bytes = r.encode := (List.append_assoc ..).symm

theorem headerIdentifier_header (c : Nat) (r : Record) :
    headerIdentifier c r.header = ⟨c, r.fcgiId⟩ :=
  congrArg (FcgiRequestIdentifier.mk c) (headerRequestId_populateHeader ..)

variable {a : Arrival} {reply : SystemReply}

/-- The record state when all of the record was received. -/
def received (a : Arrival) (buffer : Bytes) : RecordState :=
  bodyState a.header a.invalidated (headerContentLength a.header) (headerPaddingLength a.header) buffer

theorem withRecord_withRecord (s : TestFcgiClientInterface) (r r' : RecordState) :
    a.withRecord (a.withRecord s r) r' = a.withRecord s r' := setConnection_setConnection _ _ _ _

theorem ok_setRecord (s : TestFcgiClientInterface) (r r' : RecordState) :
    setRecordState a.c r' (a.withRecord s r) = some (.ok ⟨⟩, a.withRecord s r') := by
  rw [ok_setRecordState (withRecord_entry s r)]
  exact congrArg (fun t => some (Except.ok PUnit.unit, t)) (setConnection_setConnection _ _ _ _)

theorem ok_current (s : TestFcgiClientInterface) (r : RecordState) :
    currentRecord a.c (a.withRecord s r) = some (.ok r, a.withRecord s r) :=
  ok_currentRecord (withRecord_entry s r)

theorem checkedState_record (s : TestFcgiClientInterface) (r : RecordState) :
    checkedState (a.withRecord s r) a.c a.header = a.withRecord (checkedState s a.c a.header) r := by
  have hmap : (a.withRecord s r).pendingRequestMap = s.pendingRequestMap := rfl
  unfold checkedState acceptEnd
  rw [hmap]
  split
  · cases s.pendingRequestMap[headerIdentifier a.c a.header]? with
    | none => rfl
    | some d =>
      dsimp only
      split <;> rfl
  · rfl

/-- The header is checked. -/
theorem ok_takeHeader (hend : ¬ EndWithoutRequest a.s a.c a.header) :
    takeHeader reply a.c a.header a.s = some (.ok ⟨⟩,
      a.withRecord (checkedState a.s a.c a.header) (bodyState a.header a.invalidated 0 0 [])) := by
  obtain ⟨type, fcgiId, hclear⟩ : ∃ type fcgiId,
      a.e.recordState = { type := type, fcgiId := fcgiId } := ⟨_, _, a.clear⟩
  set r : RecordState := { type := type, fcgiId := fcgiId, header := a.header } with hr
  have hset : setRecordState a.c { a.e.recordState with header := a.e.recordState.header ++ a.header }
      a.s = some (.ok ⟨⟩, a.withRecord a.s r) := by
    rw [ok_setRecordState a.entry, hclear]
    rfl
  have hentry := withRecord_entry (a := a) a.s r
  have hchecked := checkedState_record (a := a) a.s r
  obtain ⟨⟨it, err⟩, t, hcheck, -, ht, herr⟩ :=
    (returns_checkHeader hentry (validIterator_none _) hend).after
      (after_checkHeader hentry)
  have hinvalid : err = a.invalidated := herr
  have hupdate : updateOnHeaderCompletion reply a.c none (a.withRecord a.s r) = some (.ok it,
      a.withRecord (checkedState a.s a.c a.header) (bodyState a.header a.invalidated 0 0 [])) := by
    rw [updateOnHeaderCompletion, ok_bind (ok_connectionState hentry), ok_bind hcheck, ht, hchecked,
      hinvalid]
    exact ok_bind (ok_setRecord _ _ _)
  have hlength : (a.e.recordState.header ++ a.header).length = fcgiHeaderLen := by
    rw [hclear]
    exact a.record.headerLength
  rw [takeHeader, ok_bind (ok_currentRecord a.entry), ok_bind hset, if_pos hlength]
  exact ok_discard hupdate

/-- The rest of the record after its content was stored. -/
theorem ok_takeBody {s t u : TestFcgiClientInterface} (more buffer : Bytes)
    (hcontent : takeContent a.c a.content
      (a.withRecord s (bodyState a.header a.invalidated 0 0 [])) = some (.ok ⟨⟩,
        a.withRecord t (bodyState a.header a.invalidated (headerContentLength a.header) 0 buffer)))
    (hfinish : finishRecord a.c (a.withRecord t (a.received buffer)) = some (.ok ⟨⟩, u)) :
    takeBody a.c (bodyState a.header a.invalidated 0 0 []) (a.content ++ (a.padding ++ more))
      (a.withRecord s (bodyState a.header a.invalidated 0 0 [])) = some (.ok more, u) := by
  obtain ⟨-, hlength, hpadding⟩ := a.record
  have htake : (a.content ++ (a.padding ++ more)).take (headerContentLength a.header) = a.content :=
    List.take_left' hlength
  have hdrop : (a.content ++ (a.padding ++ more)).drop (headerContentLength a.header) =
      a.padding ++ more := List.drop_left' hlength
  have hpadded : takePadding a.c a.padding (a.withRecord t
      (bodyState a.header a.invalidated (headerContentLength a.header) 0 buffer)) =
        some (.ok ⟨⟩, a.withRecord t (a.received buffer)) := by
    rw [takePadding, ok_bind (ok_current _ _), ok_setRecord, RecordState.addPadding, hpadding]
    exact congrArg (fun n => some (Except.ok PUnit.unit, a.withRecord t (bodyState a.header
      a.invalidated (headerContentLength a.header) n buffer))) (Nat.zero_add _)
  have hcomplete : finishWhenComplete a.c (a.withRecord t (a.received buffer)) = some (.ok ⟨⟩, u) := by
    rw [finishWhenComplete, ok_bind (ok_current _ _), if_pos ⟨rfl, rfl⟩, hfinish]
  set r := bodyState a.header a.invalidated 0 0 [] with hr
  have hcontents : r.contentBytesExpected - r.contentBytesReceived = headerContentLength a.header :=
    Nat.sub_zero _
  have hpaddings : r.paddingBytesExpected - r.paddingBytesReceived = headerPaddingLength a.header :=
    Nat.sub_zero _
  rw [takeBody, hcontents, hpaddings, ← List.drop_drop, htake, hdrop, List.take_left' hpadding,
    List.drop_left' hpadding, ok_bind hcontent, ok_bind hpadded, ok_bind hcomplete]
  rfl

/-- A whole record from its first byte on. -/
theorem ok_takeRecord {t u : TestFcgiClientInterface} (more buffer : Bytes)
    (hend : ¬ EndWithoutRequest a.s a.c a.header)
    (hcontent : takeContent a.c a.content (a.withRecord (checkedState a.s a.c a.header)
      (bodyState a.header a.invalidated 0 0 [])) = some (.ok ⟨⟩,
        a.withRecord t (bodyState a.header a.invalidated (headerContentLength a.header) 0 buffer)))
    (hfinish : finishRecord a.c (a.withRecord t (a.received buffer)) = some (.ok ⟨⟩, u)) :
    takeRecord reply a.c (a.bytes ++ more) a.s = some (.ok more, u) := by
  have hheader : a.e.recordState.header = [] := by rw [a.clear]
  have hlength := a.record.headerLength
  have hbytes : a.bytes ++ more = a.header ++ (a.content ++ (a.padding ++ more)) := by
    simp only [bytes, List.append_assoc]
  have htake : (a.bytes ++ more).take (fcgiHeaderLen - a.e.recordState.header.length) = a.header := by
    rw [hheader, hbytes]
    exact List.take_left' hlength
  have hdrop : (a.bytes ++ more).drop (fcgiHeaderLen - a.e.recordState.header.length) =
      a.content ++ (a.padding ++ more) := by
    rw [hheader, hbytes]
    exact List.drop_left' hlength
  have hfull : ¬ (bodyState a.header a.invalidated 0 0 []).header.length < fcgiHeaderLen := by
    show ¬ a.header.length < 8
    omega
  rw [takeRecord, ok_bind (ok_currentRecord a.entry),
    if_pos (by rw [hheader]; decide : a.e.recordState.header.length < fcgiHeaderLen)]
  rw [htake, hdrop, ok_bind (ok_takeHeader hend), ok_bind (ok_current _ _), if_neg hfull]
  exact ok_takeBody more buffer hcontent hfinish

theorem bytes_ne_nil : a.bytes ≠ [] := by
  intro hnil
  have hheader := (List.append_eq_nil_iff.mp hnil).1
  have hlength := a.record.headerLength
  rw [hheader] at hlength
  cases hlength

/-- The records behind it follow. -/
theorem takeRecords_append {u : TestFcgiClientInterface} {more : Bytes}
    (h : takeRecord reply a.c (a.bytes ++ more) a.s = some (.ok more, u)) :
    takeRecords reply a.c (a.bytes ++ more) a.s = takeRecords reply a.c more u := by
  have hne : a.bytes ++ more ≠ [] := fun hnil => bytes_ne_nil (List.append_eq_nil_iff.mp hnil).1
  have hshorter : more.length < (a.bytes ++ more).length := by
    have hpos := List.length_pos_iff.mpr (bytes_ne_nil (a := a))
    rw [List.length_append]
    omega
  rw [takeRecords, if_neg hne, ok_bind h, dif_pos hshorter]

/-- The content of a record that is kept with the record. -/
theorem ok_takeContent_kept (s : TestFcgiClientInterface)
    (hkept : ¬ (bodyState a.header a.invalidated 0 0 []).isStream = true) :
    takeContent a.c a.content (a.withRecord s (bodyState a.header a.invalidated 0 0 [])) =
      some (.ok ⟨⟩, a.withRecord s
        (bodyState a.header a.invalidated (headerContentLength a.header) 0 a.content)) := by
  have hstored := ok_takeContent_buffer
    (withRecord_entry (a := a) s (bodyState a.header a.invalidated 0 0 [])) hkept a.content
  have hadded : (bodyState a.header a.invalidated 0 0 []).addContent a.content =
      bodyState a.header a.invalidated (headerContentLength a.header) 0 a.content := by
    rw [RecordState.addContent, if_neg hkept, a.record.contentLength]
    exact congrArg (fun n => bodyState a.header a.invalidated n 0 a.content) (Nat.zero_add _)
  rw [hstored]
  dsimp only
  rw [hadded]
  exact congrArg (fun t => some (Except.ok PUnit.unit, t)) (setConnection_setConnection _ _ _ _)

/-- A complete record is processed and the connection waits for the next one. -/
theorem ok_finishRecord {s u : TestFcgiClientInterface} {buffer : Bytes}
    {it : Option FcgiRequestIdentifier} {e : ConnectionState}
    (hprocess : processRecord a.c (s.find (headerIdentifier a.c a.header)) (a.received buffer)
      (a.withRecord s (a.received buffer)) = some (.ok it, u))
    (hu : u.connectionMap[a.c]? = some e) :
    finishRecord a.c (a.withRecord s (a.received buffer)) =
      some (.ok ⟨⟩, u.setConnection a.c { e with recordState := {} }) := by
  have hfind : (a.withRecord s (a.received buffer)).find ⟨a.c, (a.received buffer).fcgiId⟩ =
    s.find (headerIdentifier a.c a.header) := rfl
  rw [finishRecord, ok_bind (ok_current _ _), get_bind, hfind]
  refine ok_discard (a := it) ?_
  rw [processCompleteRecord, ok_bind (ok_connectionState (withRecord_entry _ _)), ok_bind hprocess,
    ok_bind (ok_setRecordState hu)]
  rfl

/-! ## Records that are rejected -/

/-- A record whose header is invalid is told and changes nothing else. -/
theorem takeRecord_invalidated (more : Bytes) (hinvalid : a.invalidated = true)
    (hend : ¬ EndWithoutRequest a.s a.c a.header) :
    takeRecord reply a.c (a.bytes ++ more) a.s =
      some (.ok more, (a.withRecord (checkedState a.s a.c a.header) {}).pushEvent a.event) := by
  have hkept : ¬ (bodyState a.header a.invalidated 0 0 []).isStream = true := by
    rw [isStream_iff]
    exact fun hstream => Bool.false_ne_true (hstream.1.symm.trans hinvalid)
  refine ok_takeRecord more a.content hend (ok_takeContent_kept _ hkept) ?_
  set s := checkedState a.s a.c a.header
  have hevent : generateInvalidRecord a.c (a.withRecord s (a.received a.content)) =
      some (.ok ⟨⟩, (a.withRecord s (a.received a.content)).pushEvent a.event) := by
    rw [generateInvalidRecord, ok_bind (ok_connectionState (withRecord_entry _ _))]
    rfl
  have hprocess : processRecord a.c (s.find (headerIdentifier a.c a.header)) (a.received a.content)
      (a.withRecord s (a.received a.content)) = some (.ok (s.find (headerIdentifier a.c a.header)),
        (a.withRecord s (a.received a.content)).pushEvent a.event) := by
    rw [processRecord, if_pos (show (a.received a.content).invalidated = true from hinvalid),
      ok_bind hevent]
    rfl
  rw [ok_finishRecord hprocess (withRecord_entry s (a.received a.content))]
  exact congrArg (fun t => some (Except.ok PUnit.unit, t.pushEvent a.event))
    (withRecord_withRecord s _ {})

/-! ## Records that are accepted -/

variable {d : RequestData}

theorem setPending_setPending (s : TestFcgiClientInterface) (id : FcgiRequestIdentifier)
    (d d' : RequestData) : (s.setPending id d).setPending id d' = s.setPending id d' := by
  have hmap : (s.pendingRequestMap.insert id d).insert id d' = s.pendingRequestMap.insert id d' := by
    refine ExtTreeMap.ext_getElem? fun k => ?_
    simp only [ExtTreeMap.getElem?_insert]
    split <;> rfl
  rw [setPending, setPending, setPending, hmap]

theorem getElem?_setPending_self (s : TestFcgiClientInterface) (id : FcgiRequestIdentifier)
    (d : RequestData) : (s.setPending id d).pendingRequestMap[id]? = some d := by
  rw [setPending, ExtTreeMap.getElem?_insert_self]

/-- The content of a stream goes to its request. -/
theorem ok_takeContent_appended (hstream : (bodyState a.header a.invalidated 0 0 []).isStream = true)
    (hd : a.s.pendingRequestMap[headerIdentifier a.c a.header]? = some d) :
    takeContent a.c a.content (a.withRecord a.s (bodyState a.header a.invalidated 0 0 [])) =
      some (.ok ⟨⟩, a.withRecord (a.s.setPending (headerIdentifier a.c a.header)
        (d.append (headerType a.header) a.content))
        (bodyState a.header a.invalidated (headerContentLength a.header) 0 [])) := by
  have hstored := ok_takeContent_stream (d := d)
    (withRecord_entry (a := a) a.s (bodyState a.header a.invalidated 0 0 [])) hstream hd a.content
  have hadded : (bodyState a.header a.invalidated 0 0 []).addContent a.content =
      bodyState a.header a.invalidated (headerContentLength a.header) 0 [] := by
    rw [RecordState.addContent, if_pos hstream, a.record.contentLength]
    exact congrArg (fun n => bodyState a.header a.invalidated n 0 []) (Nat.zero_add _)
  rw [hstored, TestFcgiClientInterface.withStream]
  dsimp only
  rw [hadded]
  exact congrArg (fun t => some (Except.ok PUnit.unit, t))
    (withRecord_withRecord (a.s.setPending _ _) (bodyState a.header a.invalidated 0 0 []) _)

/-- The end of a stream. -/
theorem ok_completeStream {s : TestFcgiClientInterface} {id : FcgiRequestIdentifier}
    (hd : s.pendingRequestMap[id]? = some d) (f : RequestData → RequestData) (n : Nat) :
    (do
      if n = 0 then
        let (id, d) ← requestData (some id)
        modify (·.setPending id (f d))
      return some id : Operation (Option FcgiRequestIdentifier)) s =
      some (.ok (some id), if n = 0 then s.setPending id (f d) else s) := by
  by_cases hn : n = 0
  · rw [if_pos hn, if_pos hn, ok_bind (ok_requestData hd)]
    rfl
  · rw [if_neg hn, if_neg hn]
    rfl

theorem append_nil (d : RequestData) (type : FcgiType) : d.append type [] = d := by
  simp [RequestData.append]

theorem absorb_nil (d : RequestData) (type : FcgiType) : d.absorb type [] =
    if type = kFcgiStdout then { d with stdoutCompleted := true }
    else { d with stderrCompleted := true } := if_neg (not_not.mpr rfl)

/-- The end of a complete record of a stream, whose content was appended. -/
theorem ok_processStream (hvalid : a.invalidated = false)
    (htype : headerType a.header = kFcgiStdout ∨ headerType a.header = kFcgiStderr)
    (s : TestFcgiClientInterface) :
    let id := headerIdentifier a.c a.header
    processRecord a.c (some id) (a.received []) (a.withRecord
      (s.setPending id (d.append (headerType a.header) a.content)) (a.received [])) = some (.ok (some id),
        a.withRecord (s.setPending id (d.absorb (headerType a.header) a.content)) (a.received [])) := by
  intro id
  have hinvalid : ¬ (a.received []).invalidated = true := by
    rw [show (a.received []).invalidated = a.invalidated from rfl, hvalid]
    decide
  have hnoend : ¬ (a.received []).type = kFcgiEndRequest := by
    rw [show (a.received []).type = headerType a.header from rfl]
    rcases htype with htype | htype
    · rw [htype]
      decide
    · rw [htype]
      decide
  set t := s.setPending id (d.append (headerType a.header) a.content) with ht
  have hentry : (a.withRecord t (a.received [])).pendingRequestMap[id]? =
    some (d.append (headerType a.header) a.content) := getElem?_setPending_self s id _
  have hlength : a.content.length = (a.received []).contentBytesExpected := a.record.contentLength
  have habsorb (f : RequestData → RequestData)
      (hf : a.content = [] → d.absorb (headerType a.header) [] = f d) :
      (if (a.received []).contentBytesExpected = 0 then
        (a.withRecord t (a.received [])).setPending id (f (d.append (headerType a.header) a.content))
        else a.withRecord t (a.received [])) =
      a.withRecord (s.setPending id (d.absorb (headerType a.header) a.content)) (a.received []) := by
    by_cases hnil : a.content = []
    · rw [if_pos (by rw [← hlength, hnil]; rfl), hnil, append_nil, hf hnil]
      exact congrArg (fun t => a.withRecord t (a.received [])) (setPending_setPending s id _ (f d))
    · have hne : ¬ (a.received []).contentBytesExpected = 0 := fun hzero =>
        hnil (List.length_eq_zero_iff.mp (hlength.trans hzero))
      rw [if_neg hne, RequestData.absorb, if_pos hnil]
  rw [processRecord, if_neg hinvalid, processValidRecord, if_neg hnoend]
  by_cases hstdout : headerType a.header = kFcgiStdout
  · rw [if_pos (show (a.received []).type = kFcgiStdout from hstdout),
      ok_completeStream hentry fun d => { d with stdoutCompleted := true }]
    exact congrArg (fun t => some (Except.ok (some id), t))
      (habsorb (fun d => { d with stdoutCompleted := true }) fun _ => by rw [absorb_nil, if_pos hstdout])
  · have hstderr := htype.resolve_left hstdout
    rw [if_neg (show ¬ (a.received []).type = kFcgiStdout from hstdout),
      if_pos (show (a.received []).type = kFcgiStderr from hstderr),
      ok_completeStream hentry fun d => { d with stderrCompleted := true }]
    exact congrArg (fun t => some (Except.ok (some id), t))
      (habsorb (fun d => { d with stderrCompleted := true }) fun _ => by rw [absorb_nil, if_neg hstdout])

/-- A record of a stream that is not complete. -/
theorem takeRecord_stream (more : Bytes) (hvalid : a.invalidated = false)
    (htype : headerType a.header = kFcgiStdout ∨ headerType a.header = kFcgiStderr)
    (hd : a.s.pendingRequestMap[headerIdentifier a.c a.header]? = some d) :
    takeRecord reply a.c (a.bytes ++ more) a.s = some (.ok more,
      a.withRecord (a.s.setPending (headerIdentifier a.c a.header)
        (d.absorb (headerType a.header) a.content)) {}) := by
  have hnoend : headerType a.header ≠ kFcgiEndRequest := by
    rcases htype with htype | htype
    · rw [htype]
      decide
    · rw [htype]
      decide
  have hchecked : checkedState a.s a.c a.header = a.s := if_neg fun h => hnoend h.2
  have hcontent := ok_takeContent_appended (isStream_iff.mpr ⟨hvalid, htype⟩) hd
  rw [← hchecked] at hcontent
  refine ok_takeRecord more [] (fun h => hnoend h.2.1) hcontent ?_
  rw [hchecked]
  set id := headerIdentifier a.c a.header with hid
  have hfind : (a.s.setPending id (d.append (headerType a.header) a.content)).find id = some id :=
    find_eq_some (ExtTreeMap.mem_iff_isSome_getElem?.mpr (by rw [getElem?_setPending_self]; rfl))
  rw [ok_finishRecord (by rw [hfind]; exact ok_processStream hvalid htype a.s)
    (withRecord_entry (a.s.setPending id (d.absorb (headerType a.header) a.content)) (a.received []))]
  exact congrArg (fun t => some (Except.ok PUnit.unit, t)) (withRecord_withRecord _ _ {})

/-! ### End records -/

/-- The response that an end record completes. -/
def response (a : Arrival) (b₃ b₂ b₁ b₀ protocolStatus : UInt8) (d : RequestData) : ServerEvent :=
  .fcgiResponse (appStatusOf b₃ b₂ b₁ b₀) d.fcgiStderr d.fcgiStdout protocolStatus d.request
    (headerIdentifier a.c a.header)

/-- The check of an end record may complete an empty `FCGI_STDERR`, which is not seen
when the request is completed. -/
theorem exists_acceptEnd (s : TestFcgiClientInterface) (n : Nat) (response : ServerEvent)
    (hd : s.pendingRequestMap[headerIdentifier a.c a.header]? = some d) :
    ∃ d', (acceptEnd s (headerIdentifier a.c a.header) n).pendingRequestMap[headerIdentifier a.c
        a.header]? = some d' ∧ d'.fcgiStdout = d.fcgiStdout ∧ d'.fcgiStderr = d.fcgiStderr ∧
      d'.request = d.request ∧
      (acceptEnd s (headerIdentifier a.c a.header) n).complete (headerIdentifier a.c a.header) response =
        s.complete (headerIdentifier a.c a.header) response := by
  set id := headerIdentifier a.c a.header with hid
  rw [acceptEnd, hd]
  dsimp only
  split
  · refine ⟨_, getElem?_setPending_self s id _, rfl, rfl, rfl, ?_⟩
    have herase : (s.setPending id { d with stderrCompleted := true }).pendingRequestMap.erase id =
        s.pendingRequestMap.erase id := by
      refine ExtTreeMap.ext_getElem? fun k => ?_
      simp only [setPending, ExtTreeMap.getElem?_erase, ExtTreeMap.getElem?_insert]
      split <;> rfl
    rw [TestFcgiClientInterface.complete, herase]
    rfl
  · exact ⟨d, hd, rfl, rfl, rfl, rfl⟩

/-- The end record of a request whose streams are complete. -/
theorem takeRecord_endRequest (more : Bytes) {b₃ b₂ b₁ b₀ protocolStatus : UInt8} {reserved : Bytes}
    (hvalid : a.invalidated = false) (htype : headerType a.header = kFcgiEndRequest)
    (hcontent : a.content = b₃ :: b₂ :: b₁ :: b₀ :: protocolStatus :: reserved)
    (hstatus : ¬ UnknownStatus a.content)
    (hd : a.s.pendingRequestMap[headerIdentifier a.c a.header]? = some d)
    (hnew : headerIdentifier a.c a.header ∉ a.s.completedRequestSet) :
    takeRecord reply a.c (a.bytes ++ more) a.s = some (.ok more,
      a.withRecord (a.s.complete (headerIdentifier a.c a.header)
        (a.response b₃ b₂ b₁ b₀ protocolStatus d)) {}) := by
  have hversion : a.header.headD 0 = 1 := by
    by_contra hversion
    have hinvalid : a.invalidated = true := by
      rw [invalidated, validHeader, decide_eq_false hversion]
      rfl
    exact Bool.false_ne_true (hvalid.symm.trans hinvalid)
  have hchecked : checkedState a.s a.c a.header =
      acceptEnd a.s (headerIdentifier a.c a.header) (headerContentLength a.header) :=
    if_pos ⟨hversion, htype⟩
  have hid : headerIdentifier a.c a.header ∈ a.s.pendingRequestMap :=
    ExtTreeMap.mem_iff_isSome_getElem?.mpr (by rw [hd]; rfl)
  have hkept : ¬ (bodyState a.header a.invalidated 0 0 []).isStream = true := by
    rw [isStream_iff]
    rintro ⟨-, hstream⟩
    rw [show (bodyState a.header a.invalidated 0 0 []).type = headerType a.header from rfl, htype]
      at hstream
    exact absurd hstream (by decide)
  refine ok_takeRecord more a.content (fun h => h.2.2 hid) (ok_takeContent_kept _ hkept) ?_
  rw [hchecked]
  obtain ⟨d', hd', hstdout, hstderr, hrequest, hsame⟩ := exists_acceptEnd a.s
    (headerContentLength a.header) (a.response b₃ b₂ b₁ b₀ protocolStatus d) hd
  set id := headerIdentifier a.c a.header with hiddef
  set s := acceptEnd a.s id (headerContentLength a.header) with hs
  have hset : s.completedRequestSet = a.s.completedRequestSet := by
    have hsets := congrArg TestFcgiClientInterface.completedRequestSet hchecked
    rw [← hsets]
    unfold checkedState acceptEnd
    split
    · split
      · split <;> rfl
      · rfl
    · rfl
  have hfind : s.find id = some id :=
    find_eq_some (ExtTreeMap.mem_iff_isSome_getElem?.mpr (by rw [hd']; rfl))
  have hprocess : processRecord a.c (s.find id) (a.received a.content)
      (a.withRecord s (a.received a.content)) = some (.ok none,
        a.withRecord (s.complete id (a.response b₃ b₂ b₁ b₀ protocolStatus d)) (a.received a.content)) := by
    have hinvalid : ¬ (a.received a.content).invalidated = true := by
      rw [show (a.received a.content).invalidated = a.invalidated from rfl, hvalid]
      decide
    have hentry : (a.withRecord s (a.received a.content)).pendingRequestMap[id]? = some d' := hd'
    have hcontains : ¬ (a.withRecord s (a.received a.content)).completedRequestSet.contains id = true := by
      rw [show (a.withRecord s (a.received a.content)).completedRequestSet = s.completedRequestSet
        from rfl, hset]
      exact fun hmem => hnew (ExtTreeSet.contains_iff_mem.mp hmem)
    have hknown : ¬ (protocolStatus ≠ fcgiRequestComplete ∧ protocolStatus ≠ fcgiCantMpxConn ∧
        protocolStatus ≠ fcgiOverloaded ∧ protocolStatus ≠ fcgiUnknownRole) := by
      rw [UnknownStatus, hcontent] at hstatus
      exact hstatus
    have hbuffer : (a.received a.content).localBuffer =
      b₃ :: b₂ :: b₁ :: b₀ :: protocolStatus :: reserved := hcontent
    rw [hfind, processRecord, if_neg hinvalid, processValidRecord,
      if_pos (show (a.received a.content).type = kFcgiEndRequest from htype), hbuffer,
      processEndRequest.eq_def]
    dsimp only
    rw [if_neg hknown, ok_bind (ok_requestData hentry), get_bind, if_neg hcontains]
    rw [response, ← hstdout, ← hstderr, ← hrequest]
    rfl
  rw [ok_finishRecord hprocess (withRecord_entry _ (a.received a.content)), hsame]
  exact congrArg (fun t => some (Except.ok PUnit.unit, t)) (withRecord_withRecord _ _ {})

end Arrival

end AsComponents.Client
