import AsComponents.ClientConsistency
import AsComponents.ClientTransitions
import AsComponents.Moves
import AsComponents.PartitionCalls

/-! The responses of an application: what calls on `FcgiRequest` objects offer to
a connection, and what a client on the other side makes of it. -/

namespace AsComponents.Client

open Protocol NameValue SocketFunctions AsComponents.Partition Std Critical TestFcgiClientInterface

/-! ## Records for one request -/

/-- Records of the stream may follow. -/
def RequestData.Open (d : RequestData) (type : FcgiType) : Prop :=
  type = kFcgiStdout ∧ d.stdoutCompleted = false ∨ type = kFcgiStderr ∧ d.stderrCompleted = false

/-- The request may be ended. -/
def RequestData.Endable (d : RequestData) : Prop :=
  d.stdoutCompleted = true ∧ (d.stderrCompleted = true ∨ d.fcgiStderr = [])

/-- The records that lead from what a client has of a request to the response to
it. -/
inductive Answers (id : FcgiRequestIdentifier) (response : ServerEvent) :
    RequestData → List Record → Prop
  | stream {d : RequestData} {r : Record} {records : List Record} (fcgiId : r.fcgiId = id.fcgiId)
      (fits : r.Fits) (isOpen : d.Open r.type)
      (h : Answers id response (d.absorb r.type r.content) records) :
      Answers id response d (r :: records)
  | ended {d : RequestData} {appStatus : Int32} {protocolStatus : UInt8} (endable : d.Endable)
      (status : protocolStatus = fcgiRequestComplete ∨ protocolStatus = fcgiUnknownRole)
      (hresponse : response =
        .fcgiResponse appStatus d.fcgiStderr d.fcgiStdout protocolStatus d.request id) :
      Answers id response d [Server.endRequestRecord id.fcgiId protocolStatus appStatus]

section

variable {s : TestFcgiClientInterface} {c : Nat} {e : ConnectionState} {d : RequestData} {r : Record}
  {reply : SystemReply}

/-- The application status is shifted out and in again. -/
theorem appStatusOf_appStatusBytes (appStatus : Int32) : ∃ b₃ b₂ b₁ b₀,
    appStatusBytes appStatus = [b₃, b₂, b₁, b₀] ∧ appStatusOf b₃ b₂ b₁ b₀ = appStatus := by
  refine ⟨_, _, _, _, rfl, ?_⟩
  set bits := appStatus.toUInt32.toNat with hbits
  have hlt : bits < 2 ^ 32 := appStatus.toUInt32.toNat_lt
  have hsum : (((bits / 2 ^ 24) % 256 * 256 + (bits / 2 ^ 16) % 256) * 256 + (bits / 2 ^ 8) % 256) *
      256 + bits % 256 = bits := by omega
  rw [appStatusOf]
  simp only [UInt8.toNat_ofNat']
  rw [show (2 : Nat) ^ 8 = 256 from rfl] at *
  rw [hsum, hbits, UInt32.ofNat_toNat]
  rfl

theorem validHeader_stream {queue : List ManagementRequestData} {header : Bytes}
    (hversion : header.headD 0 = 1)
    (hd : s.pendingRequestMap[headerIdentifier c header]? = some d) (hopen : d.Open (headerType header)) :
    validHeader s c queue header = true := by
  rw [validHeader, decide_eq_true hversion, Bool.true_and, validType, hd]
  rcases hopen with ⟨htype, hstdout⟩ | ⟨htype, hstderr⟩
  · rw [if_neg (by rw [htype]; decide), if_pos htype, Option.any_some, hstdout]
    rfl
  · rw [if_neg (by rw [htype]; decide), if_neg (by rw [htype]; decide), if_pos htype, Option.any_some,
      hstderr]
    rfl

theorem validHeader_end {queue : List ManagementRequestData} {header : Bytes}
    (hversion : header.headD 0 = 1) (htype : headerType header = kFcgiEndRequest)
    (hlength : headerContentLength header = 8)
    (hd : s.pendingRequestMap[headerIdentifier c header]? = some d) (hendable : d.Endable) :
    validHeader s c queue header = true := by
  obtain ⟨hstdout, hstderr⟩ := hendable
  have hcompleted : (d.stderrCompleted || decide (d.fcgiStderr = [])) = true := by
    rw [Bool.or_eq_true, decide_eq_true_eq]
    exact hstderr
  rw [validHeader, decide_eq_true hversion, Bool.true_and, validType, if_pos htype, hd,
    Option.any_some, acceptsEnd, hcompleted, hstdout, hlength]
  rfl

/-- A record of a stream that is open. -/
theorem takeRecords_stream (he : s.connectionMap[c]? = some e) (hclear : e.recordState.Clear)
    (hfits : r.Fits) (hd : s.pendingRequestMap[(⟨c, r.fcgiId⟩ : FcgiRequestIdentifier)]? = some d)
    (hopen : d.Open r.type) (more : Bytes) :
    takeRecords reply c (r.encode ++ more) s = takeRecords reply c more
      ((s.setPending ⟨c, r.fcgiId⟩ (d.absorb r.type r.content)).setConnection c
        { e with recordState := {} }) := by
  set a := Arrival.ofRecord he hclear r hfits with ha
  have hid : headerIdentifier a.c a.header = ⟨c, r.fcgiId⟩ := Arrival.headerIdentifier_header c r
  have htype : headerType a.header = r.type := headerType_populateHeader ..
  have hd' : a.s.pendingRequestMap[headerIdentifier a.c a.header]? = some d := by
    rw [hid]
    exact hd
  have hvalid : a.invalidated = false := by
    rw [Arrival.invalidated, validHeader_stream rfl hd' (htype.symm ▸ hopen)]
    rfl
  have hstream : headerType a.header = kFcgiStdout ∨ headerType a.header = kFcgiStderr := by
    rw [htype]
    exact hopen.imp And.left And.left
  have htaken := Arrival.takeRecords_append
    (@Arrival.takeRecord_stream a reply d more hvalid hstream hd')
  rw [hid, htype, ha, Arrival.bytes_ofRecord] at htaken
  exact htaken

theorem fits_endRequestRecord (f : UInt16) (protocolStatus : UInt8) (appStatus : Int32) :
    (Server.endRequestRecord f protocolStatus appStatus).Fits :=
  ⟨(by decide : 8 ≤ kMaxRecordContentByteLength), (by decide : 0 < 256)⟩

/-- The end record of a request which may be ended. -/
theorem takeRecords_end {f : UInt16} {protocolStatus : UInt8} (he : s.connectionMap[c]? = some e)
    (hclear : e.recordState.Clear)
    (hd : s.pendingRequestMap[(⟨c, f⟩ : FcgiRequestIdentifier)]? = some d)
    (hnew : (⟨c, f⟩ : FcgiRequestIdentifier) ∉ s.completedRequestSet) (hendable : d.Endable)
    (hstatus : protocolStatus = fcgiRequestComplete ∨ protocolStatus = fcgiUnknownRole)
    (appStatus : Int32) (more : Bytes) :
    takeRecords reply c ((Server.endRequestRecord f protocolStatus appStatus).encode ++ more) s =
      takeRecords reply c more ((s.complete ⟨c, f⟩ (.fcgiResponse appStatus d.fcgiStderr d.fcgiStdout
        protocolStatus d.request ⟨c, f⟩)).setConnection c { e with recordState := {} }) := by
  set r := Server.endRequestRecord f protocolStatus appStatus with hr
  have hfits : r.Fits := fits_endRequestRecord ..
  set a := Arrival.ofRecord he hclear r hfits with ha
  have hid : headerIdentifier a.c a.header = ⟨c, f⟩ := Arrival.headerIdentifier_header c r
  have htype : headerType a.header = kFcgiEndRequest := rfl
  have hd' : a.s.pendingRequestMap[headerIdentifier a.c a.header]? = some d := by
    rw [hid]
    exact hd
  have hvalid : a.invalidated = false := by
    have hlength : headerContentLength a.header = 8 := headerContentLength_populateHeader _ _ _ hfits.1
    rw [Arrival.invalidated, validHeader_end rfl htype hlength hd' hendable]
    rfl
  obtain ⟨b₃, b₂, b₁, b₀, hbytes, happ⟩ := appStatusOf_appStatusBytes appStatus
  have hcontent : a.content = b₃ :: b₂ :: b₁ :: b₀ :: protocolStatus :: [0, 0, 0] := by
    show appStatusBytes appStatus ++ [protocolStatus, 0, 0, 0] = _
    rw [hbytes]
    rfl
  have hknown : ¬ UnknownStatus a.content := by
    rw [UnknownStatus, hcontent]
    rintro ⟨hcomplete, -, -, hrole⟩
    exact hstatus.elim hcomplete hrole
  have hnew' : headerIdentifier a.c a.header ∉ a.s.completedRequestSet := by
    rw [hid]
    exact hnew
  have htaken := Arrival.takeRecords_append
    (@Arrival.takeRecord_endRequest a reply d more _ _ _ _ _ _ hvalid htype hcontent hknown hd' hnew')
  rw [Arrival.response, hid, happ, ha, Arrival.bytes_ofRecord] at htaken
  exact htaken

end

/-! ## Records for several requests -/

/-- Connection `c` waits for these records, which answer the requests of `ids`. -/
structure Waits (c : Nat) (ids : List UInt16) (response : UInt16 → ServerEvent) (records : List Record)
    (s : TestFcgiClientInterface) : Prop where
  clear : ∃ e, s.connectionMap[c]? = some e ∧ e.recordState.Clear
  pending : ∀ f ∈ ids, ∃ d, s.pendingRequestMap[(⟨c, f⟩ : FcgiRequestIdentifier)]? = some d ∧
    (⟨c, f⟩ : FcgiRequestIdentifier) ∉ s.completedRequestSet ∧
    Answers ⟨c, f⟩ (response f) d (records.filter fun r => r.fcgiId = f)
  own : ∀ r ∈ records, r.fcgiId ∈ ids

/-- The requests of `ids` on connection `c` were answered, each once. -/
structure Answered (c : Nat) (ids : List UInt16) (response : UInt16 → ServerEvent)
    (s t : TestFcgiClientInterface) : Prop where
  events : ∃ events, t.microEventQueue = s.microEventQueue ++ events ∧ events.Perm (ids.map response)
  completed : ∀ f ∈ ids, (⟨c, f⟩ : FcgiRequestIdentifier) ∉ t.pendingRequestMap ∧
    (⟨c, f⟩ : FcgiRequestIdentifier) ∈ t.completedRequestSet
  others : ∀ id : FcgiRequestIdentifier, (id.descriptor = c → id.fcgiId ∉ ids) →
    t.pendingRequestMap[id]? = s.pendingRequestMap[id]? ∧
      (id ∈ t.completedRequestSet ↔ id ∈ s.completedRequestSet)

section

variable {s t u : TestFcgiClientInterface} {c : Nat} {ids : List UInt16}
  {response : UInt16 → ServerEvent} {r : Record} {records : List Record}

theorem Answers.ne_nil {id : FcgiRequestIdentifier} {event : ServerEvent} {d : RequestData}
    (h : Answers id event d records) : records ≠ [] := by
  cases h <;> exact List.cons_ne_nil _ _

theorem Answers.cons_cases {id : FcgiRequestIdentifier} {event : ServerEvent} {d : RequestData}
    (h : Answers id event d (r :: records)) :
    r.Fits ∧ d.Open r.type ∧ Answers id event (d.absorb r.type r.content) records ∨
    records = [] ∧ d.Endable ∧ ∃ (appStatus : Int32) (protocolStatus : UInt8),
      (protocolStatus = fcgiRequestComplete ∨ protocolStatus = fcgiUnknownRole) ∧
      r = Server.endRequestRecord id.fcgiId protocolStatus appStatus ∧
      event = .fcgiResponse appStatus d.fcgiStderr d.fcgiStdout protocolStatus d.request id := by
  cases h with
  | stream _ fits isOpen h => exact .inl ⟨fits, isOpen, h⟩
  | ended endable status hresponse => exact .inr ⟨rfl, endable, _, _, status, rfl, hresponse⟩

theorem Waits.clear_set (e : ConnectionState) (s : TestFcgiClientInterface) (c : Nat) :
    ∃ e', (s.setConnection c { e with recordState := {} }).connectionMap[c]? = some e' ∧
      e'.recordState.Clear :=
  ⟨_, (s.getElem?_setConnection c c _).trans (if_pos rfl), rfl⟩

theorem identifier_ne {f f' : UInt16} (h : f' ≠ f) :
    compare (⟨c, f⟩ : FcgiRequestIdentifier) ⟨c, f'⟩ ≠ .eq := by
  intro heq
  have hid := LawfulEqOrd.eq_of_compare heq
  exact h (congrArg FcgiRequestIdentifier.fcgiId hid).symm

/-- The stream of one of the requests goes on. -/
theorem Waits.stream {d : RequestData} {e : ConnectionState} (h : Waits c ids response (r :: records) s)
    (hanswers : Answers ⟨c, r.fcgiId⟩ (response r.fcgiId) (d.absorb r.type r.content)
      (records.filter fun r' => r'.fcgiId = r.fcgiId)) :
    Waits c ids response records
      ((s.setPending ⟨c, r.fcgiId⟩ (d.absorb r.type r.content)).setConnection c
        { e with recordState := {} }) := by
  refine ⟨Waits.clear_set _ _ _, fun f hf => ?_, fun r' hr' => h.own r' (List.mem_cons_of_mem _ hr')⟩
  obtain ⟨d', hd', hnew, hrest⟩ := h.pending f hf
  by_cases hself : f = r.fcgiId
  · subst hself
    exact ⟨_, ExtTreeMap.getElem?_insert_self, hnew, hanswers⟩
  · rw [List.filter_cons_of_neg (by simpa using Ne.symm hself)] at hrest
    refine ⟨d', ?_, hnew, hrest⟩
    show (s.pendingRequestMap.insert _ _)[_]? = _
    rw [ExtTreeMap.getElem?_insert, if_neg (identifier_ne hself), hd']

/-- One of the requests is ended. -/
theorem Waits.ended {e : ConnectionState} (h : Waits c ids response (r :: records) s)
    (hnodup : ids.Nodup) (hlast : records.filter (fun r' => r'.fcgiId = r.fcgiId) = []) :
    Waits c (ids.erase r.fcgiId) response records
      ((s.complete ⟨c, r.fcgiId⟩ (response r.fcgiId)).setConnection c { e with recordState := {} }) := by
  refine ⟨Waits.clear_set _ _ _, fun f hf => ?_, fun r' hr' => ?_⟩
  · obtain ⟨hself, hf⟩ := (hnodup.mem_erase_iff).mp hf
    obtain ⟨d, hd, hnew, hrest⟩ := h.pending f hf
    rw [List.filter_cons_of_neg (by simpa using Ne.symm hself)] at hrest
    refine ⟨d, ?_, ?_, hrest⟩
    · show (s.pendingRequestMap.erase _)[_]? = _
      rw [ExtTreeMap.getElem?_erase, if_neg (identifier_ne hself), hd]
    · show _ ∉ s.completedRequestSet.insert _
      rw [ExtTreeSet.mem_insert]
      exact fun hmem => hmem.elim (identifier_ne hself) hnew
  · refine (hnodup.mem_erase_iff).mpr ⟨fun hself => ?_, h.own r' (List.mem_cons_of_mem _ hr')⟩
    have hfiltered : r' ∈ records.filter (fun r' => r'.fcgiId = r.fcgiId) :=
      List.mem_filter.mpr ⟨hr', decide_eq_true hself⟩
    rw [hlast] at hfiltered
    cases hfiltered

theorem Answered.stream {d : RequestData} {e : ConnectionState} {f : UInt16} (hf : f ∈ ids)
    (h : Answered c ids response
      ((s.setPending ⟨c, f⟩ d).setConnection c { e with recordState := {} }) t) :
    Answered c ids response s t where
  events := h.events
  completed := h.completed
  others id hid := by
    obtain ⟨hpending, hcompleted⟩ := h.others id hid
    refine ⟨hpending.trans ?_, hcompleted⟩
    show (s.pendingRequestMap.insert _ _)[_]? = _
    rw [ExtTreeMap.getElem?_insert, if_neg]
    intro heq
    obtain rfl := LawfulEqOrd.eq_of_compare heq
    exact hid rfl hf

theorem Answered.ended {e : ConnectionState} {f : UInt16} (hf : f ∈ ids) (hnodup : ids.Nodup)
    (h : Answered c (ids.erase f) response
      ((s.complete ⟨c, f⟩ (response f)).setConnection c { e with recordState := {} }) t) :
    Answered c ids response s t := by
  have hothers : ∀ id : FcgiRequestIdentifier, id ≠ ⟨c, f⟩ →
      (s.pendingRequestMap.erase ⟨c, f⟩)[id]? = s.pendingRequestMap[id]? ∧
        (id ∈ s.completedRequestSet.insert ⟨c, f⟩ ↔ id ∈ s.completedRequestSet) := by
    intro id hne
    have hcompare : compare (⟨c, f⟩ : FcgiRequestIdentifier) id ≠ .eq := fun heq =>
      hne (LawfulEqOrd.eq_of_compare heq).symm
    rw [ExtTreeMap.getElem?_erase, if_neg hcompare, ExtTreeSet.mem_insert]
    exact ⟨rfl, or_iff_right hcompare⟩
  obtain ⟨events, hevents, hperm⟩ := h.events
  refine ⟨⟨response f :: events, ?_, ?_⟩, fun f' hf' => ?_, fun id hid => ?_⟩
  · rw [hevents]
    show (s.microEventQueue ++ [response f]) ++ events = _
    rw [List.append_assoc]
    rfl
  · exact (hperm.cons (response f)).trans (List.Perm.map response (List.perm_cons_erase hf).symm)
  · by_cases hself : f' = f
    · subst hself
      obtain ⟨hpending, hcompleted⟩ := h.others ⟨c, f'⟩ fun _ => hnodup.not_mem_erase
      refine ⟨?_, hcompleted.mpr (ExtTreeSet.mem_insert_self ..)⟩
      rw [ExtTreeMap.mem_iff_isSome_getElem?, hpending]
      show ¬ ((s.pendingRequestMap.erase _)[_]?).isSome = true
      rw [ExtTreeMap.getElem?_erase_self]
      decide
    · exact h.completed f' (hnodup.mem_erase_iff.mpr ⟨hself, hf'⟩)
  · obtain ⟨hpending, hcompleted⟩ := h.others id fun hc hmem => hid hc (List.mem_of_mem_erase hmem)
    obtain ⟨hpending', hcompleted'⟩ := hothers id (by rintro rfl; exact hid rfl hf)
    exact ⟨hpending.trans hpending', hcompleted.trans hcompleted'⟩

/-- The records are received, and every request is answered once. -/
theorem takeRecords_answers (reply : SystemReply) (hnodup : ids.Nodup)
    (h : Waits c ids response records s) : ∃ t,
      takeRecords reply c (encodeRecords records) s = some (.ok ⟨⟩, t) ∧
        Answered c ids response s t := by
  induction records generalizing s ids with
  | nil =>
    have hids : ids = [] := by
      refine List.eq_nil_iff_forall_not_mem.mpr fun f hf => ?_
      obtain ⟨d, -, -, hanswers⟩ := h.pending f hf
      exact hanswers.ne_nil rfl
    subst hids
    exact ⟨s, takeRecords_nil, ⟨[], (List.append_nil _).symm, .nil⟩, by simp,
      fun _ _ => ⟨rfl, .rfl⟩⟩
  | cons r records ih =>
    obtain ⟨e, he, hclear⟩ := h.clear
    have hf := h.own r List.mem_cons_self
    obtain ⟨d, hd, hnew, hanswers⟩ := h.pending r.fcgiId hf
    rw [List.filter_cons_of_pos (by simp)] at hanswers
    rw [encodeRecords_cons]
    rcases hanswers.cons_cases with ⟨hfits, hopen, hrest⟩ |
      ⟨hlast, hendable, appStatus, protocolStatus, hstatus, hr, hresponse⟩
    · obtain ⟨t, ht, hdone⟩ := ih hnodup (h.stream (e := e) hrest)
      exact ⟨t, (takeRecords_stream he hclear hfits hd hopen _).trans ht, hdone.stream hf⟩
    · obtain ⟨t, ht, hdone⟩ := ih (hnodup.erase _) (h.ended (e := e) hnodup hlast)
      have htaken := @takeRecords_end s c e d reply _ _ he hclear hd hnew hendable hstatus appStatus
        (encodeRecords records)
      rw [← hresponse] at htaken
      have hencode : r.encode = (Server.endRequestRecord r.fcgiId protocolStatus appStatus).encode :=
        congrArg Record.encode hr
      rw [hencode]
      exact ⟨t, htaken.trans ht, hdone.ended hf hnodup⟩

end

/-! ## The batches of an application -/

/-- The batches that calls on a request offer, up to the one that ends it. -/
inductive Offers (l : SystemLimits) (f : UInt16) (appStatus : Int32) :
    UInt8 → List Server.ApiCall → List Bytes → Prop
  | complete : Offers l f appStatus fcgiRequestComplete [.complete appStatus]
      [Server.conclusion f appStatus fcgiRequestComplete]
  | rejectRole : Offers l f appStatus fcgiUnknownRole [.rejectRole appStatus]
      [Server.conclusion f appStatus fcgiUnknownRole]
  | write {protocolStatus : UInt8} {bytes : Bytes} {parts : List PartitionReturn}
      {calls : List Server.ApiCall} {batches : List Bytes} (hparts : Calls l kFcgiStdout f bytes parts)
      (h : Offers l f appStatus protocolStatus calls batches) :
      Offers l f appStatus protocolStatus (.write bytes :: calls)
        (parts.map (·.iovec.flatten) ++ batches)
  | writeError {protocolStatus : UInt8} {bytes : Bytes} {parts : List PartitionReturn}
      {calls : List Server.ApiCall} {batches : List Bytes} (hparts : Calls l kFcgiStderr f bytes parts)
      (h : Offers l f appStatus protocolStatus calls batches) :
      Offers l f appStatus protocolStatus (.writeError bytes :: calls)
        (parts.map (·.iovec.flatten) ++ batches)

/-- What calls on a request write. -/
def stdoutOf (calls : List Server.ApiCall) : Bytes :=
  calls.flatMap fun
    | .write bytes => bytes
    | _ => []

def stderrOf (calls : List Server.ApiCall) : Bytes :=
  calls.flatMap fun
    | .writeError bytes => bytes
    | _ => []

section

variable {l : SystemLimits} {type : FcgiType} {f : UInt16} {d : RequestData} {records : List Record}

theorem records_of_calls {bytes : Bytes} {parts : List PartitionReturn}
    (h : Calls l type f bytes parts) : ∃ recs : List (List Record),
      parts.map (·.iovec.flatten) = recs.map encodeRecords ∧
      (recs.flatten.map Record.content).flatten = bytes ∧
      ∀ r ∈ recs.flatten, r.type = type ∧ r.fcgiId = f ∧ r.content ≠ [] ∧ r.Fits := by
  induction h with
  | done => exact ⟨[], rfl, rfl, by simp⟩
  | @call bytes p parts hne hcall h ih =>
    obtain ⟨recs, hrecs, hcontent, hall⟩ := ih
    obtain ⟨contents, hcontents, hflat, hrest, hiovec, -⟩ := partitionByteSequence_spec hne hcall
    have hmap : (contents.map (alignedRecord type f)).map Record.content = contents := by
      rw [List.map_map]
      exact List.map_id'' (fun _ => rfl) contents
    refine ⟨contents.map (alignedRecord type f) :: recs, ?_, ?_, ?_⟩
    · rw [List.map_cons, List.map_cons, hrecs, hiovec]
    · rw [List.flatten_cons, List.map_append, List.flatten_append, hcontent, hmap, hflat, hrest,
        List.take_append_drop]
    · rw [List.flatten_cons]
      refine List.forall_mem_append.mpr ⟨?_, hall⟩
      rintro r hr
      obtain ⟨content, hmem, rfl⟩ := List.mem_map.mp hr
      obtain ⟨hne, hle⟩ := hcontents content hmem
      refine ⟨rfl, rfl, hne, hle.trans (by decide), ?_⟩
      have hpadding := paddingFor_lt content.length
      rw [alignedRecord, List.length_replicate]
      omega

theorem absorb_of_ne_nil {content : Bytes} (h : content ≠ []) :
    d.absorb type content = d.append type content := if_pos h

theorem RequestData.Open.append (h : d.Open type) (bytes : Bytes) : (d.append type bytes).Open type := by
  rcases h with ⟨rfl, hstdout⟩ | ⟨rfl, hstderr⟩
  · exact .inl ⟨rfl, hstdout⟩
  · exact .inr ⟨rfl, hstderr⟩

/-- Records of one stream, none of them empty. -/
theorem Answers.append_stream {id : FcgiRequestIdentifier} {response : ServerEvent}
    {stream : List Record} (hopen : d.Open type)
    (hstream : ∀ r ∈ stream, r.type = type ∧ r.fcgiId = id.fcgiId ∧ r.content ≠ [] ∧ r.Fits)
    (h : Answers id response (d.append type (stream.map Record.content).flatten) records) :
    Answers id response d (stream ++ records) := by
  induction stream generalizing d with
  | nil =>
    rw [List.map_nil, List.flatten_nil, Arrival.append_nil] at h
    exact h
  | cons r stream ih =>
    obtain ⟨⟨rfl, hid, hne, hfits⟩, hstream⟩ := List.forall_mem_cons.mp hstream
    rw [List.map_cons, List.flatten_cons, ← append_append] at h
    refine .stream hid hfits hopen ?_
    rw [absorb_of_ne_nil hne]
    exact ih (hopen.append r.content) hstream h

/-- The records of the batch that ends a request. -/
theorem answers_conclusion {c : Nat} {protocolStatus : UInt8} (hstdout : d.stdoutCompleted = false)
    (hstderr : d.stderrCompleted = false)
    (hstatus : protocolStatus = fcgiRequestComplete ∨ protocolStatus = fcgiUnknownRole)
    (appStatus : Int32) :
    Answers ⟨c, f⟩ (.fcgiResponse appStatus d.fcgiStderr d.fcgiStdout protocolStatus d.request ⟨c, f⟩) d
      (Server.conclusionRecords f appStatus protocolStatus) := by
  have hfits : ∀ type, Record.Fits ⟨type, f, [], []⟩ := fun _ =>
    ⟨Nat.zero_le _, (by decide : 0 < 256)⟩
  refine .stream rfl (hfits _) (.inl ⟨rfl, hstdout⟩) ?_
  rw [Arrival.absorb_nil, if_pos rfl]
  refine .stream rfl (hfits _) (.inr ⟨rfl, hstderr⟩) ?_
  rw [Arrival.absorb_nil, if_neg (show ¬ kFcgiStderr = kFcgiStdout by decide)]
  exact .ended ⟨rfl, .inl rfl⟩ hstatus rfl

theorem answers_of_offers {c : Nat} {appStatus : Int32} {protocolStatus : UInt8}
    {calls : List Server.ApiCall} {batches : List Bytes}
    (h : Offers l f appStatus protocolStatus calls batches) (hstdout : d.stdoutCompleted = false)
    (hstderr : d.stderrCompleted = false) : ∃ recs : List (List Record),
      batches = recs.map encodeRecords ∧ (∀ r ∈ recs.flatten, r.fcgiId = f) ∧
      Answers ⟨c, f⟩ (.fcgiResponse appStatus (d.fcgiStderr ++ stderrOf calls)
        (d.fcgiStdout ++ stdoutOf calls) protocolStatus d.request ⟨c, f⟩) d recs.flatten := by
  have hown : ∀ protocolStatus, ∀ r ∈ [Server.conclusionRecords f appStatus protocolStatus].flatten,
      r.fcgiId = f := by
    intro protocolStatus r hr
    simp only [Server.conclusionRecords, List.flatten_cons, List.flatten_nil, List.append_nil,
      List.mem_cons, List.not_mem_nil, or_false] at hr
    rcases hr with rfl | rfl | rfl <;> rfl
  induction h generalizing d with
  | complete =>
    refine ⟨[Server.conclusionRecords f appStatus fcgiRequestComplete], rfl, hown _, ?_⟩
    have hanswers := answers_conclusion (c := c) (f := f) hstdout hstderr (.inl rfl) appStatus
    rw [← List.append_nil d.fcgiStderr, ← List.append_nil d.fcgiStdout] at hanswers
    exact hanswers
  | rejectRole =>
    refine ⟨[Server.conclusionRecords f appStatus fcgiUnknownRole], rfl, hown _, ?_⟩
    have hanswers := answers_conclusion (c := c) (f := f) hstdout hstderr (.inr rfl) appStatus
    rw [← List.append_nil d.fcgiStderr, ← List.append_nil d.fcgiStdout] at hanswers
    exact hanswers
  | @write protocolStatus bytes parts calls batches hparts h ih =>
    obtain ⟨stream, hbatches, hcontent, hstream⟩ := records_of_calls hparts
    obtain ⟨recs, hrecs, hrest, hanswers⟩ := ih (d := d.append kFcgiStdout bytes) hstdout hstderr
    refine ⟨stream ++ recs, by rw [hbatches, hrecs, List.map_append], ?_, ?_⟩
    · rw [List.flatten_append]
      exact List.forall_mem_append.mpr ⟨fun r hr => (hstream r hr).2.1, hrest⟩
    · rw [List.flatten_append]
      refine .append_stream (.inl ⟨rfl, hstdout⟩) hstream ?_
      rw [hcontent]
      have hstdoutOf : stdoutOf (.write bytes :: calls) = bytes ++ stdoutOf calls := rfl
      rw [hstdoutOf, ← List.append_assoc]
      exact hanswers
  | @writeError protocolStatus bytes parts calls batches hparts h ih =>
    obtain ⟨stream, hbatches, hcontent, hstream⟩ := records_of_calls hparts
    obtain ⟨recs, hrecs, hrest, hanswers⟩ := ih (d := d.append kFcgiStderr bytes) hstdout hstderr
    refine ⟨stream ++ recs, by rw [hbatches, hrecs, List.map_append], ?_, ?_⟩
    · rw [List.flatten_append]
      exact List.forall_mem_append.mpr ⟨fun r hr => (hstream r hr).2.1, hrest⟩
    · rw [List.flatten_append]
      refine .append_stream (.inr ⟨rfl, hstderr⟩) hstream ?_
      rw [hcontent]
      have hstderrOf : stderrOf (.writeError bytes :: calls) = bytes ++ stderrOf calls := rfl
      rw [hstderrOf, ← List.append_assoc]
      exact hanswers

/-- Every sequence of calls offers batches. -/
theorem exists_offers (hl : l.Enough) (f : UInt16) (appStatus : Int32) {calls : List Server.ApiCall}
    (hcalls : ∀ call ∈ calls, ∃ bytes, call = .write bytes ∨ call = .writeError bytes) :
    (∃ batches, Offers l f appStatus fcgiRequestComplete (calls ++ [.complete appStatus]) batches) ∧
      ∃ batches, Offers l f appStatus fcgiUnknownRole (calls ++ [.rejectRole appStatus]) batches := by
  induction calls with
  | nil => exact ⟨⟨_, .complete⟩, ⟨_, .rejectRole⟩⟩
  | cons call calls ih =>
    obtain ⟨⟨bytes, hcall⟩, hcalls⟩ := List.forall_mem_cons.mp hcalls
    obtain ⟨⟨_, hcomplete⟩, ⟨_, hreject⟩⟩ := ih hcalls
    rcases hcall with rfl | rfl
    · obtain ⟨parts, -, hparts, -⟩ := exists_calls hl kFcgiStdout f bytes.length bytes le_rfl
      exact ⟨⟨_, .write hparts hcomplete⟩, ⟨_, .write hparts hreject⟩⟩
    · obtain ⟨parts, -, hparts, -⟩ := exists_calls hl kFcgiStderr f bytes.length bytes le_rfl
      exact ⟨⟨_, .writeError hparts hcomplete⟩, ⟨_, .writeError hparts hreject⟩⟩

/-- An order of batches is an order of records that keeps the order of each
request. -/
theorem exists_records {order : List (UInt16 × Bytes)} {recs : UInt16 → List (List Record)}
    (horder : ∀ f, (order.filter fun b => b.1 = f).map Prod.snd = (recs f).map encodeRecords)
    (hown : ∀ f, ∀ r ∈ (recs f).flatten, r.fcgiId = f) : ∃ records,
      encodeRecords records = (order.map Prod.snd).flatten ∧
      ∀ f, records.filter (fun r => r.fcgiId = f) = (recs f).flatten := by
  induction order generalizing recs with
  | nil =>
    refine ⟨[], rfl, fun f => ?_⟩
    rw [List.map_eq_nil_iff.mp (horder f).symm]
    rfl
  | cons b order ih =>
    obtain ⟨g, bytes⟩ := b
    have hhead := horder g
    rw [List.filter_cons_of_pos (by simp), List.map_cons] at hhead
    obtain ⟨first, rest, hg, hfirst, hrest⟩ := List.map_eq_cons_iff.mp hhead.symm
    have hfirstOwn : ∀ r ∈ first, r.fcgiId = g := fun r hr =>
      hown g r (hg ▸ List.mem_flatten.mpr ⟨first, List.mem_cons_self, hr⟩)
    have horder' : ∀ f, (order.filter fun b => b.1 = f).map Prod.snd =
        (Function.update recs g rest f).map encodeRecords := by
      intro f
      by_cases hself : f = g
      · subst hself
        rw [Function.update_self, hrest]
      · rw [Function.update_of_ne hself, ← horder f,
          List.filter_cons_of_neg (by simpa using Ne.symm hself)]
    have hown' : ∀ f, ∀ r ∈ (Function.update recs g rest f).flatten, r.fcgiId = f := by
      intro f r hr
      by_cases hself : f = g
      · subst hself
        rw [Function.update_self] at hr
        refine hown f r (hg ▸ ?_)
        rw [List.flatten_cons]
        exact List.mem_append_right _ hr
      · rw [Function.update_of_ne hself] at hr
        exact hown f r hr
    obtain ⟨records, hrecords, hfilter⟩ := ih horder' hown'
    refine ⟨first ++ records, ?_, fun f => ?_⟩
    · rw [encodeRecords_append, hrecords, hfirst]
      rfl
    · rw [List.filter_append, hfilter]
      by_cases hself : f = g
      · subst hself
        rw [Function.update_self, hg, List.flatten_cons,
          List.filter_eq_self.mpr fun r hr => decide_eq_true (hfirstOwn r hr)]
      · rw [Function.update_of_ne hself, List.filter_eq_nil_iff.mpr, List.nil_append]
        intro r hr
        rw [decide_eq_true_eq, hfirstOwn r hr]
        exact Ne.symm hself

end

/-- Whatever applications write for the requests that are pending on a
connection, however the batches of different requests follow each other and
however the bytes are cut into reads: every request is answered once, with what
was written for it. -/
theorem responses_of_interleaving {s : TestFcgiClientInterface} (hs : Receivable s) {c : Nat}
    {e : ConnectionState} (he : s.connectionMap[c]? = some e) (hconnected : e.connected = true)
    (hclear : e.recordState.Clear) {ids : List UInt16} (hnodup : ids.Nodup)
    {request : UInt16 → FcgiRequestDataReference} (hpending : ∀ f ∈ ids,
      s.pendingRequestMap[(⟨c, f⟩ : FcgiRequestIdentifier)]? = some { request := request f })
    {l : SystemLimits} {appStatus : UInt16 → Int32} {protocolStatus : UInt16 → UInt8}
    {calls : UInt16 → List Server.ApiCall} {batches : UInt16 → List Bytes}
    (hoffers : ∀ f ∈ ids, Offers l f (appStatus f) (protocolStatus f) (calls f) (batches f))
    {order : List (UInt16 × Bytes)} (horder : ∀ f, (order.filter fun b => b.1 = f).map Prod.snd =
      if f ∈ ids then batches f else [])
    (reply : SystemReply) {reads : List Read}
    (hreads : reads.flatMap (·.bytes) = (order.map Prod.snd).flatten) :
    ∃ t events, discard (receiveReads (receive reply c) none reads) s = some (.ok ⟨⟩, t) ∧
      t.microEventQueue = s.microEventQueue ++ events ∧
      events.Perm (ids.map fun f => .fcgiResponse (appStatus f) (stderrOf (calls f))
        (stdoutOf (calls f)) (protocolStatus f) (request f) ⟨c, f⟩) ∧
      (∀ event ∈ events, event.isInvalidRecord = false) ∧
      (∀ f ∈ ids, (⟨c, f⟩ : FcgiRequestIdentifier) ∉ t.pendingRequestMap ∧
        (⟨c, f⟩ : FcgiRequestIdentifier) ∈ t.completedRequestSet) ∧
      ∀ id : FcgiRequestIdentifier, (id.descriptor = c → id.fcgiId ∉ ids) →
        t.pendingRequestMap[id]? = s.pendingRequestMap[id]? ∧
          (id ∈ t.completedRequestSet ↔ id ∈ s.completedRequestSet) := by
  have hc : s.isConnected c = true := isConnected_eq_true_iff.mpr ⟨e, he, hconnected⟩
  obtain ⟨hinv, -⟩ := hs.framed
  -- the records of each request
  have hrecs : ∀ f, ∃ recs : List (List Record), (f ∉ ids → recs = []) ∧
      (if f ∈ ids then batches f else []) = recs.map encodeRecords ∧
      (∀ r ∈ recs.flatten, r.fcgiId = f) ∧
      (f ∈ ids → Answers ⟨c, f⟩ (.fcgiResponse (appStatus f) (stderrOf (calls f)) (stdoutOf (calls f))
        (protocolStatus f) (request f) ⟨c, f⟩) { request := request f } recs.flatten) := by
    intro f
    by_cases hf : f ∈ ids
    · obtain ⟨recs, hbatches, hown, hanswers⟩ := answers_of_offers (c := c)
        (d := { request := request f }) (hoffers f hf) rfl rfl
      exact ⟨recs, fun hnot => absurd hf hnot, by rw [if_pos hf, hbatches], hown, fun _ => hanswers⟩
    · exact ⟨[], fun _ => rfl, by rw [if_neg hf]; rfl, by simp, fun hmem => absurd hmem hf⟩
  choose recs hnone hbatches hown hanswers using hrecs
  obtain ⟨records, hrecords, hfilter⟩ := exists_records
    (fun f => (horder f).trans (hbatches f)) hown
  have hwaits : Waits c ids (fun f => .fcgiResponse (appStatus f) (stderrOf (calls f))
      (stdoutOf (calls f)) (protocolStatus f) (request f) ⟨c, f⟩) records s := by
    refine ⟨⟨e, he, hclear⟩, fun f hf => ⟨_, hpending f hf, fun hmem => ?_, ?_⟩, fun r hr => ?_⟩
    · exact hinv.disjoint _ hmem
        (ExtTreeMap.mem_iff_isSome_getElem?.mpr (Option.isSome_of_eq_some (hpending f hf)))
    · rw [hfilter f]
      exact hanswers f hf
    · by_contra hnot
      have hmem : r ∈ records.filter fun r' => r'.fcgiId = r.fcgiId :=
        List.mem_filter.mpr ⟨hr, decide_eq_true rfl⟩
      rw [hfilter, hnone _ hnot] at hmem
      cases hmem
  obtain ⟨t, ht, hdone⟩ := takeRecords_answers reply hnodup hwaits
  obtain ⟨events, hevents, hperm⟩ := hdone.events
  refine ⟨t, events, ?_, hevents, hperm, fun event hmem => ?_, hdone.completed, hdone.others⟩
  · rw [discard_receiveReads hs hc, hreads, ← hrecords, ht]
  · obtain ⟨f, -, rfl⟩ := List.mem_map.mp (hperm.mem_iff.mp hmem)
    rfl

/-! ## Two requests -/

/-- Request 1 is completed, and the application rejects the role of request 2. -/
def twoCalls (f : UInt16) : List Server.ApiCall :=
  if f = 1 then [.write [72, 105], .complete (-1)] else [.writeError [33], .rejectRole 7]

def twoStatuses (f : UInt16) : Int32 := if f = 1 then -1 else 7

def writtenRecord : Bytes := [1, 6, 0, 1, 0, 2, 6, 0] ++ [72, 105, 0, 0, 0, 0, 0, 0]

def errorRecord : Bytes := [1, 7, 0, 2, 0, 1, 7, 0] ++ [33, 0, 0, 0, 0, 0, 0, 0]

def twoBatches (f : UInt16) : List Bytes :=
  if f = 1 then [writtenRecord, Server.conclusion 1 (-1) fcgiRequestComplete]
  else [errorRecord, Server.conclusion 2 7 fcgiUnknownRole]

/-- The answer to request 2 is sent between the batches of request 1. -/
def twoOrder : List (UInt16 × Bytes) :=
  [(1, writtenRecord), (2, errorRecord), (2, Server.conclusion 2 7 fcgiUnknownRole),
    (1, Server.conclusion 1 (-1) fcgiRequestComplete)]

theorem offers_two : ∀ f ∈ [1, 2], Offers {} f (twoStatuses f)
    (if f = 1 then fcgiRequestComplete else fcgiUnknownRole) (twoCalls f) (twoBatches f) := by
  intro f hf
  have hone : partitionByteSequence {} kFcgiStdout 1 [72, 105] = some
      ⟨[[1, 6, 0, 1, 0, 2, 6, 0], [72, 105], [0, 0, 0, 0, 0, 0]], 16, []⟩ := by decide +kernel
  have htwo : partitionByteSequence {} kFcgiStderr 2 [33] = some
      ⟨[[1, 7, 0, 2, 0, 1, 7, 0], [33], [0, 0, 0, 0, 0, 0, 0]], 16, []⟩ := by decide +kernel
  rcases List.mem_cons.mp hf with rfl | hf
  · exact .write (.call (by decide) hone .done) .complete
  · obtain rfl := List.mem_singleton.mp hf
    exact .writeError (.call (by decide) htwo .done) .rejectRole

theorem order_two (f : UInt16) : (twoOrder.filter fun b => b.1 = f).map Prod.snd =
    if f ∈ [1, 2] then twoBatches f else [] := by
  by_cases hone : f = 1
  · subst hone
    decide
  · by_cases htwo : f = 2
    · subst htwo
      decide
    · have hone' : (1 : UInt16) ≠ f := Ne.symm hone
      have htwo' : (2 : UInt16) ≠ f := Ne.symm htwo
      simp [twoOrder, hone, htwo, hone', htwo']

theorem responses_of_interleaving_two : ∃ s t r r', Reachable s ∧
    discard (receiveReads (receive {} 5) none
      [⟨true, (twoOrder.map Prod.snd).flatten.take 21⟩,
        ⟨false, (twoOrder.map Prod.snd).flatten.drop 21⟩]) s = some (.ok ⟨⟩, t) ∧
    t.microEventQueue.Perm [.fcgiResponse (-1) [] [72, 105] fcgiRequestComplete r ⟨5, 1⟩,
      .fcgiResponse 7 [33] [] fcgiUnknownRole r' ⟨5, 2⟩] := by
  have hrun : ((run {} [(connectReply, .connect), (requestReply, .sendRequest 5 bareRequest),
      (requestReply, .sendRequest 5 bareRequest)]).map fun s =>
      (s.connectionMap[5]?.map fun e => (e.connected, e.recordState), s.microEventQueue.length,
        [1, 2].map fun f => s.pendingRequestMap[(⟨5, f⟩ : FcgiRequestIdentifier)]?.map fun d =>
          (d.stdoutCompleted || d.stderrCompleted, (d.fcgiStdout ++ d.fcgiStderr).length))) =
      some (some (true, ({} : RecordState)), 0,
        [some (false, 0), some (false, 0)]) := by
    decide +kernel
  obtain ⟨s, hs, hfacts⟩ := Option.map_eq_some_iff.mp hrun
  simp only [Prod.mk.injEq, List.length_eq_zero_iff, List.map_cons, List.map_nil, List.cons.injEq,
    and_true] at hfacts
  obtain ⟨hentry, hevents, hone, htwo⟩ := hfacts
  obtain ⟨e, he, hstate⟩ := Option.map_eq_some_iff.mp hentry
  obtain ⟨hconnected, hrecord⟩ := Prod.mk.injEq .. ▸ hstate
  have hfresh : ∀ f : UInt16, (s.pendingRequestMap[(⟨5, f⟩ : FcgiRequestIdentifier)]?.map fun d =>
      (d.stdoutCompleted || d.stderrCompleted, (d.fcgiStdout ++ d.fcgiStderr).length)) =
        some (false, 0) → ∃ request : FcgiRequestDataReference,
      s.pendingRequestMap[(⟨5, f⟩ : FcgiRequestIdentifier)]? = some { request := request } := by
    intro f hf
    obtain ⟨⟨request, fcgiStderr, stderrCompleted, fcgiStdout, stdoutCompleted⟩, hd, hfields⟩ :=
      Option.map_eq_some_iff.mp hf
    simp only [Prod.mk.injEq, Bool.or_eq_false_iff, List.length_eq_zero_iff,
      List.append_eq_nil_iff] at hfields
    obtain ⟨⟨rfl, rfl⟩, rfl, rfl⟩ := hfields
    exact ⟨request, hd⟩
  obtain ⟨r, hr⟩ := hfresh 1 hone
  obtain ⟨r', hr'⟩ := hfresh 2 htwo
  have hpending : ∀ f ∈ ([1, 2] : List UInt16),
      s.pendingRequestMap[(⟨5, f⟩ : FcgiRequestIdentifier)]? =
        some { request := if f = 1 then r else r' } := by
    intro f hf
    rcases List.mem_cons.mp hf with rfl | hf
    · exact hr
    · obtain rfl := List.mem_singleton.mp hf
      exact hr'
  have hreads : ([⟨true, (twoOrder.map Prod.snd).flatten.take 21⟩,
      ⟨false, (twoOrder.map Prod.snd).flatten.drop 21⟩] : List Read).flatMap (·.bytes) =
        (twoOrder.map Prod.snd).flatten := by decide
  have hreachable := reachable_run (.initial {}) hs
  obtain ⟨t, events, ht, hqueue, hperm, -⟩ := responses_of_interleaving (.reachable hreachable) he
    hconnected (by rw [hrecord, RecordState.Clear]) (by decide) hpending offers_two order_two {} hreads
  refine ⟨s, t, r, r', hreachable, ht, ?_⟩
  rw [hqueue, hevents]
  exact hperm

end AsComponents.Client
