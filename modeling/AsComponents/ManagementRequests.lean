import AsComponents.EncodingCalls
import AsComponents.ManagementRecords
import AsComponents.ReceivedRequests

/-! What a client has written on a connection, and which of it are management
requests that wait for a response. -/

namespace AsComponents.Protocol

/-! ## Records are told apart -/

/-- The lengths in the header tell where a record ends. -/
theorem Record.encode_append_inj {r r' : Record} (h : r.Fits) (h' : r'.Fits) {rest rest' : List UInt8}
    (heq : r.encode ++ rest = r'.encode ++ rest') : r = r' ∧ rest = rest' := by
  simp only [Record.encode, List.append_assoc] at heq
  obtain ⟨hheader, hbody⟩ := List.append_inj heq rfl
  have htype : r.type = r'.type := congrArg headerType hheader
  have hid : r.fcgiId = r'.fcgiId := by
    have hid := congrArg headerRequestId hheader
    rwa [Record.header, Record.header, headerRequestId_populateHeader, headerRequestId_populateHeader] at hid
  have hcontent : r.content.length = r'.content.length := by
    have hlength := congrArg headerContentLength hheader
    rwa [Record.header, Record.header, headerContentLength_populateHeader _ _ _ h.1,
      headerContentLength_populateHeader _ _ _ h'.1] at hlength
  have hpadding : r.padding.length = r'.padding.length := by
    have hlength := congrArg headerPaddingLength hheader
    rwa [Record.header, Record.header, headerPaddingLength_populateHeader _ _ _ h.2,
      headerPaddingLength_populateHeader _ _ _ h'.2] at hlength
  obtain ⟨hcontents, hbody⟩ := List.append_inj hbody hcontent
  obtain ⟨hpaddings, hrest⟩ := List.append_inj hbody hpadding
  cases r
  cases r'
  exact ⟨by simp only [Record.mk.injEq]; exact ⟨htype, hid, hcontents, hpaddings⟩, hrest⟩

theorem Record.encode_ne_nil (r : Record) : r.encode ≠ [] := by
  rw [Record.encode, Record.header]
  exact List.cons_ne_nil _ _

/-- Bytes are the bytes of one list of records at most. -/
theorem encodeRecords_inj {rs rs' : List Record} (h : ∀ r ∈ rs, r.Fits) (h' : ∀ r ∈ rs', r.Fits)
    (heq : encodeRecords rs = encodeRecords rs') : rs = rs' := by
  induction rs generalizing rs' with
  | nil =>
    cases rs' with
    | nil => rfl
    | cons r' rs' => exact absurd (List.append_eq_nil_iff.mp heq.symm).1 r'.encode_ne_nil
  | cons r rs ih =>
    cases rs' with
    | nil => exact absurd (List.append_eq_nil_iff.mp heq).1 r.encode_ne_nil
    | cons r' rs' =>
      obtain ⟨hr, hrs⟩ := List.forall_mem_cons.mp h
      obtain ⟨hr', hrs'⟩ := List.forall_mem_cons.mp h'
      obtain ⟨rfl, hrest⟩ := Record.encode_append_inj hr hr' heq
      rw [ih hrs hrs' hrest]

end AsComponents.Protocol

namespace AsComponents.Encoding

open Protocol NameValue AsComponents.Partition Client

variable {type : FcgiType} {fcgiId : UInt16} {l : SystemLimits} {pairs : List ByteSeqPair}

/-- A call that succeeds as a whole meets no pair that is rejected. -/
theorem encodable_of_whole (hl : l.Posix)
    (h : (encodeNameValuePairs type fcgiId l pairs 0).singleRecordFailure = false) :
    ∀ p ∈ pairs, Encodable l.sizeMax p := by
  simp only [EncodeReturn.singleRecordFailure, Bool.or_eq_false_iff, Bool.not_eq_false',
    List.isEmpty_iff] at h
  have hdescribes := encodeBuffers_describes type fcgiId (sizeMax_of_posix hl) pairs 0
  rcases exists_rejected l.sizeMax pairs with hall | ⟨front, bad, back, rfl, hbad, hfront⟩
  · exact fun p hp => not_not.mp (mt rejected_iff.mpr (hall p hp))
  · obtain ⟨ok, hcall, -⟩ := encodeBuffers_append type fcgiId hl hbad back hfront 0
    have hrest := hdescribes.rest.trans h.2
    rw [hcall] at hrest
    cases (List.append_eq_nil_iff.mp hrest).2

/-- The pairs are in one record. -/
theorem single_record (hl : l.Posix)
    (h : (encodeNameValuePairs type fcgiId l pairs 0).singleRecordFailure = false) :
    (encodeNameValuePairs type fcgiId l pairs 0).iovec.flatten =
      (alignedRecord type fcgiId (encodePairs pairs)).encode ∧
    (encodePairs pairs).length ≤ maxAlignedContentLength := by
  have hpairs := encodable_of_whole hl h
  simp only [EncodeReturn.singleRecordFailure, Bool.or_eq_false_iff, Bool.not_eq_false', bne_eq_false_iff_eq,
    List.isEmpty_iff] at h
  obtain ⟨⟨⟨-, hcount⟩, hoffset⟩, hrest⟩ := h
  have hne : pairs ≠ [] := by
    rintro rfl
    cases hcount
  obtain ⟨contents, hbounded⟩ := encodeNameValuePairs_bounded type fcgiId hl hne hpairs (within_zero pairs)
  obtain ⟨-, contents', hcarries, -, hconsumed, -⟩ :=
    encodeNameValuePairs_spec type fcgiId hl hne hpairs (within_zero pairs)
  have hfits : ∀ contents : List Bytes, (∀ c ∈ contents, c ≠ [] ∧ c.length ≤ maxAlignedContentLength) →
      ∀ r ∈ contents.map (alignedRecord type fcgiId), r.Fits := by
    intro contents hbounds r hr
    obtain ⟨content, hcontent, rfl⟩ := List.mem_map.mp hr
    exact fits_alignedRecord type fcgiId (hbounds content hcontent).2
  have hsame := encodeRecords_inj (hfits contents hbounded.carries.bounds) (hfits contents' hcarries.bounds)
    (hbounded.carries.records.symm.trans hcarries.records)
  have hlength : contents'.length = 1 := by
    have hlengths := congrArg List.length hsame
    rw [List.length_map, List.length_map, ← hbounded.recordCount, hcount] at hlengths
    exact hlengths.symm
  obtain ⟨content, rfl⟩ := List.length_eq_one_iff.mp hlength
  have hsplit := hconsumed.split
  rw [hrest, hoffset] at hsplit
  have hcontent : encodePairs pairs = content := by simpa [encodePairs] using hsplit
  rw [hcarries.records, hcontent]
  refine ⟨?_, (hcarries.bounds content (List.mem_singleton_self _)).2⟩
  rw [List.map_singleton, encodeRecords_cons, encodeRecords_nil, List.append_nil]

end AsComponents.Encoding

namespace AsComponents.Client

open Protocol NameValue SocketFunctions AsComponents.Partition Encoding Std Critical TestFcgiClientInterface

/-! ## Calls that succeed -/

/-- The record of a management request. -/
def managementRecord (q : ManagementRequestData) : Record :=
  alignedRecord q.type fcgiNullRequestId (q.data ++ encodePairs q.paramsMap.toList)

/-- The request is given by the names of its variables or by its content. -/
def ManagementRequestData.Asked (q : ManagementRequestData) : Prop :=
  q.paramsMap = ∅ ∨ q.data = [] ∧ ∀ p ∈ q.paramsMap.toList, PairFits p

/-- No request of the connection has a complete `FCGI_STDOUT` stream. -/
def Unfinished (c : Nat) (s : TestFcgiClientInterface) : Prop :=
  ∀ (f : UInt16) (d : RequestData),
    s.pendingRequestMap[(⟨c, f⟩ : FcgiRequestIdentifier)]? = some d → d.stdoutCompleted = false

/-- These records were written on connection `c`, and the requests among them that
are management requests were queued. -/
structure Wrote (c : Nat) (qs : List ManagementRequestData) (rs : List Record)
    (s t : TestFcgiClientInterface) : Prop where
  entry : ∀ e, s.connectionMap[c]? = some e → ∃ e', t.connectionMap[c]? = some e' ∧
    e'.connected = e.connected ∧ e'.recordState = e.recordState ∧
    e'.managementQueue = e.managementQueue ++ qs
  sent : (t.sockets c).sent = (s.sockets c).sent ++ encodeRecords rs
  management : Server.recordsOf fcgiNullRequestId rs = qs.map managementRecord
  asked : ∀ q ∈ qs, q.Asked
  fits : ∀ r ∈ rs, r.Fits
  known : ∀ r ∈ rs, r.fcgiId ≠ fcgiNullRequestId →
    (⟨c, r.fcgiId⟩ : FcgiRequestIdentifier) ∈ t.pendingRequestMap
  pending : ∀ id ∈ s.pendingRequestMap, id ∈ t.pendingRequestMap
  unfinished : Unfinished c s → Unfinished c t
  limits : t.limits = s.limits

section

variable {reply : SystemReply} {c : Nat} {s t u : TestFcgiClientInterface}
  {qs qs' : List ManagementRequestData} {rs rs' : List Record} {q : ManagementRequestData}

namespace Wrote

theorem refl (c : Nat) (s : TestFcgiClientInterface) : Wrote c [] [] s s where
  entry e he := ⟨e, he, rfl, rfl, (List.append_nil _).symm⟩
  sent := (List.append_nil _).symm
  management := rfl
  asked := List.forall_mem_nil _
  fits := List.forall_mem_nil _
  known := List.forall_mem_nil _
  pending _ hid := hid
  unfinished h := h
  limits := rfl

theorem trans (h : Wrote c qs rs s t) (h' : Wrote c qs' rs' t u) : Wrote c (qs ++ qs') (rs ++ rs') s u where
  entry e he := by
    obtain ⟨e', he', hconnected, hrecord, hqueue⟩ := h.entry e he
    obtain ⟨e'', he'', hconnected', hrecord', hqueue'⟩ := h'.entry e' he'
    exact ⟨e'', he'', hconnected'.trans hconnected, hrecord'.trans hrecord,
      by rw [hqueue', hqueue, List.append_assoc]⟩
  sent := by rw [h'.sent, h.sent, encodeRecords_append, List.append_assoc]
  management := by
    rw [Server.recordsOf, List.filter_append, List.map_append, ← h.management, ← h'.management]
    rfl
  asked q hq := (List.mem_append.mp hq).elim (h.asked q) (h'.asked q)
  fits r hr := (List.mem_append.mp hr).elim (h.fits r) (h'.fits r)
  known r hr hid := (List.mem_append.mp hr).elim (fun hr => h'.pending _ (h.known r hr hid))
    fun hr => h'.known r hr hid
  pending id hid := h'.pending id (h.pending id hid)
  unfinished hs := h'.unfinished (h.unfinished hs)
  limits := h'.limits.trans h.limits

end Wrote

theorem fits_managementRecord (h : (q.data ++ encodePairs q.paramsMap.toList).length ≤
    kMaxRecordContentByteLength) : (managementRecord q).Fits := by
  refine ⟨h, ?_⟩
  rw [managementRecord, alignedRecord, List.length_replicate]
  exact (paddingFor_lt _).trans (by decide)

/-- A management request is queued, and its record is written. -/
theorem wrote_queuedRequest {iovec : List Bytes} {n : Nat}
    (hiovec : iovec.flatten = (managementRecord q).encode) (hn : iovec.flatten.length = n)
    (hasked : q.Asked) (hfits : (managementRecord q).Fits) :
    After (do pushManagementRequest reply c q; sendManagementRequestHelper reply c iovec n) s
      (fun b t => b = true → Wrote c [q] [managementRecord q] s t) fun _ _ => True := by
  rw [after_bind]
  have hpushed : After (pushManagementRequest reply c q) s (fun _ t => ∃ e,
      s.connectionMap[c]? = some e ∧
        t = s.setConnection c { e with managementQueue := e.managementQueue ++ [q] }) fun _ _ => True := by
    rw [pushManagementRequest, after_bind]
    unfold insertionSucceeds
    split
    · trivial
    · rw [after_pure, after_bind]
      refine (after_connectionState (E := fun _ _ => True) fun e he => ?_).mono (fun _ _ h => h)
        fun _ _ _ => trivial
      rw [after_modify]
      exact ⟨e, he, rfl⟩
  refine hpushed.mono (fun _ t ht => ?_) fun _ _ h => h
  obtain ⟨e, he, rfl⟩ := ht
  unfold sendManagementRequestHelper
  split
  · trivial
  rw [after_bind]
  refine (after_scatterGatherSocketWrite_sent hn).mono (fun r u hu => ?_) fun _ _ h => h
  rw [after_ite]
  refine ⟨fun _ => ?_, fun hzero _ => ?_⟩
  · rw [after_bind]
    exact (after_true _ u).mono (fun _ _ _ h => absurd h Bool.false_ne_true) fun _ _ h => h
  · have hsent := hu.2 (Decidable.not_not.mp hzero)
    have hframe := hu.1.frame
    refine ⟨fun e' he' => ?_, ?_, ?_, List.forall_mem_singleton.mpr hasked,
      List.forall_mem_singleton.mpr hfits, List.forall_mem_singleton.mpr fun h => absurd rfl h, ?_, ?_, ?_⟩
    · obtain rfl := Option.some.inj (he.symm.trans he')
      refine ⟨{ e with managementQueue := e.managementQueue ++ [q] }, ?_, rfl, rfl, rfl⟩
      rw [hframe]
      exact (getElem?_setConnection _ _ _ _).trans (if_pos rfl)
    · rw [hsent, hiovec, encodeRecords_cons, encodeRecords_nil, List.append_nil]
      rfl
    · exact List.filter_cons_of_pos (decide_eq_true rfl)
    · rw [hframe]
      exact fun _ hid => hid
    · rw [hframe]
      exact fun h => h
    · rw [hframe]
      rfl

theorem wrote_sendBinaryManagementRequest {type : FcgiType} {data : Bytes} :
    After (sendBinaryManagementRequest reply c type data) s
      (fun b t => b = true → Wrote c [{ type := type, data := data }]
        [managementRecord { type := type, data := data }] s t) fun _ _ => True := by
  have hrecord : managementRecord { type := type, data := data } = alignedRecord type fcgiNullRequestId data := by
    rw [managementRecord]
    exact congrArg _ (List.append_nil _)
  rw [sendBinaryManagementRequest, after_bind, after_get, after_ite]
  refine ⟨fun _ h => absurd h Bool.false_ne_true, fun _ => ?_⟩
  rw [after_ite]
  refine ⟨fun _ h => absurd h Bool.false_ne_true, fun hshort => ?_⟩
  refine wrote_queuedRequest ?_ ?_ (.inl rfl) ?_
  · rw [hrecord]
    simp [Record.encode, Record.header, alignedRecord]
  · simp [fcgiHeaderLen]
    omega
  · rw [hrecord]
    exact ⟨Nat.not_lt.mp hshort, by rw [alignedRecord, List.length_replicate]
                                    exact (paddingFor_lt _).trans (by decide)⟩

theorem wrote_sendGetValuesRequest {params : ParamsMap} (hl : s.limits.Posix) :
    After (sendGetValuesRequest reply c params) s
      (fun b t => b = true → Wrote c [{ type := kFcgiGetValues, paramsMap := params.map fun _ _ => [] }]
        [managementRecord { type := kFcgiGetValues, paramsMap := params.map fun _ _ => [] }] s t)
      fun _ _ => True := by
  rw [sendGetValuesRequest, after_bind, after_get, after_ite]
  refine ⟨fun _ h => absurd h Bool.false_ne_true, fun _ => ?_⟩
  dsimp only
  rw [after_ite]
  refine ⟨fun _ h => absurd h Bool.false_ne_true, fun hwhole => ?_⟩
  obtain ⟨hflatten, hlength⟩ := single_record hl (Bool.eq_false_iff.mpr hwhole)
  have hnames := encodable_of_whole hl (Bool.eq_false_iff.mpr hwhole)
  exact wrote_queuedRequest hflatten (numberToWrite_eq ..).symm (.inr ⟨rfl, fun p hp => (hnames p hp).1⟩)
    (fits_managementRecord (hlength.trans (by decide)))

/-- The records of a request are not those of a management request. -/
theorem recordsOf_sent {i : UInt16} {request : FcgiRequestDataReference} (hi : i ≠ fcgiNullRequestId)
    (hrs : SentAs i request rs) :
    Server.recordsOf fcgiNullRequestId rs = [] ∧ ∀ r ∈ rs, r.fcgiId = i := by
  obtain ⟨rest, rfl, hrest⟩ := Server.SentAs.parts hrs
  have hown : ∀ r ∈ beginRecord i request.role request.keepConn :: rest, r.fcgiId = i :=
    List.forall_mem_cons.mpr ⟨rfl, fun r hr => (hrest r hr).1⟩
  refine ⟨List.filter_eq_nil_iff.mpr fun r hr => ?_, hown⟩
  rw [hown r hr, decide_eq_true_eq]
  exact hi

theorem wrote_sendRequest {request : FcgiRequestDataReference} {id : FcgiRequestIdentifier}
    (hl : s.limits.Posix) (hpairs : ∀ p ∈ request.params, Encodable s.limits.sizeMax p)
    (h : sendRequest reply c request s = some (.ok (some id), t)) : ∃ rs, Wrote c [] rs s t := by
  obtain ⟨hdescriptor, hid, rs, hrs, hsent⟩ := (delivered_sendRequest hl hpairs).of_ok h id rfl
  obtain ⟨hnone, hown⟩ := recordsOf_sent hid hrs
  rcases after_sendRequest.of_ok h with ⟨hfree, -⟩ | ⟨newId, v, hacquired, hout⟩
  · cases hfree
  obtain ⟨e, _, m, he, -, -, rfl⟩ := hacquired.acquired
  cases hout with
  | @sent w hw hbegun =>
    have hframe := hbegun.frame
    have hpending : w.pendingRequestMap = s.pendingRequestMap := by rw [hframe]; rfl
    refine ⟨rs, fun e' he' => ?_, hsent, hnone, List.forall_mem_nil _, (Server.SentAs.fits hrs).1, ?_, ?_, ?_, ?_⟩
    · obtain rfl := Option.some.inj (he.symm.trans he')
      refine ⟨{ e with idManager := m }, ?_, rfl, rfl, (List.append_nil _).symm⟩
      show w.connectionMap[c]? = _
      rw [hframe]
      exact (getElem?_setConnection _ _ _ _).trans (if_pos rfl)
    · intro r hr _
      rw [hown r hr]
      exact ExtTreeMap.mem_insertIfNew.mpr (.inl (LawfulEqCmp.compare_eq_iff_eq.mpr rfl))
    · intro id hid
      exact ExtTreeMap.mem_insertIfNew.mpr (.inr (hpending.symm ▸ hid))
    · intro hs f d hd
      have hd' : (w.pendingRequestMap.insertIfNew ⟨c, newId⟩ { request := request })[
          (⟨c, f⟩ : FcgiRequestIdentifier)]? = some d := hd
      rw [ExtTreeMap.getElem?_insertIfNew] at hd'
      split at hd'
      · cases hd'
        rfl
      · exact hs f d (hpending ▸ hd')
    · show w.limits = s.limits
      rw [hframe]
      rfl
  | beginClosed hw hshort herrno hu hsent ht hr => split at hr <;> cases hr
  | closed hw hu ht hr => rcases hr with hr | ⟨e, what, hr⟩ <;> cases hr

/-- The record of a call of `SendAbortRequest`. -/
def abortRecord (fcgiId : UInt16) : Record := ⟨kFcgiAbortRequest, fcgiId, [], []⟩

theorem wrote_sendAbortRequest {id : FcgiRequestIdentifier} (hinv : Invariant s) :
    After (sendAbortRequest reply id) s
      (fun b t => b = true → Wrote id.descriptor [] [abortRecord id.fcgiId] s t) fun _ _ => True := by
  rw [sendAbortRequest, after_bind, after_get, after_ite]
  refine ⟨fun _ h => absurd h Bool.false_ne_true, fun hpending => ?_⟩
  rw [after_ite]
  refine ⟨fun _ h => absurd h Bool.false_ne_true, fun hc => ?_⟩
  rw [not_not] at hpending
  obtain ⟨e, he, -⟩ := isConnected_eq_true_iff.mp (Bool.not_eq_false _ ▸ hc)
  obtain ⟨d, hd⟩ := Option.isSome_iff_exists.mp (ExtTreeMap.mem_iff_isSome_getElem?.mp hpending)
  have hid : id.fcgiId ≠ fcgiNullRequestId := ne_null_of_pending hinv he hd
  split
  · trivial
  dsimp only
  rw [after_bind]
  refine after_writeOnSelect.mono (fun r t ht => ?_) fun _ _ h => h
  rw [after_ite]
  refine ⟨fun _ => ?_, fun hall _ => ?_⟩
  · rw [after_bind]
    exact (after_true _ t).mono (fun _ _ _ h => absurd h Bool.false_ne_true) fun _ _ h => h
  have hframe := ht.1.frame
  have hsent := ht.2.1
  rw [List.take_of_length_le (Nat.not_lt.mp hall)] at hsent
  refine ⟨fun e he => ⟨e, by rw [hframe]; exact he, rfl, rfl, (List.append_nil _).symm⟩, ?_, ?_,
    List.forall_mem_nil _, ?_, ?_, ?_, ?_, ?_⟩
  · rw [hsent, encodeRecords_cons, encodeRecords_nil, List.append_nil]
    simp [abortRecord, Record.encode, Record.header]
  · exact List.filter_cons_of_neg fun h => hid (of_decide_eq_true h)
  · exact List.forall_mem_singleton.mpr ⟨Nat.zero_le _, Nat.zero_lt_succ 255⟩
  · refine List.forall_mem_singleton.mpr fun _ => ?_
    rw [hframe]
    exact hpending
  · rw [hframe]
    exact fun _ hid => hid
  · rw [hframe]
    exact fun h => h
  · rw [hframe]

end

/-! ## Calls one after the other -/

/-- Calls on connection `c` that succeed, with the management requests among
them. -/
inductive Sending (c : Nat) :
    TestFcgiClientInterface → List ManagementRequestData → TestFcgiClientInterface → Prop
  | done (s : TestFcgiClientInterface) : Sending c s [] s
  | binary {s t u : TestFcgiClientInterface} {reply : SystemReply} {type : FcgiType} {data : Bytes}
      {qs : List ManagementRequestData}
      (h : sendBinaryManagementRequest reply c type data s = some (.ok true, t))
      (rest : Sending c t qs u) : Sending c s ({ type := type, data := data } :: qs) u
  | getValues {s t u : TestFcgiClientInterface} {reply : SystemReply} {params : ParamsMap}
      {qs : List ManagementRequestData}
      (h : sendGetValuesRequest reply c params s = some (.ok true, t)) (rest : Sending c t qs u) :
      Sending c s ({ type := kFcgiGetValues, paramsMap := params.map fun _ _ => [] } :: qs) u
  | request {s t u : TestFcgiClientInterface} {reply : SystemReply} {request : FcgiRequestDataReference}
      {id : FcgiRequestIdentifier} {qs : List ManagementRequestData}
      (hpairs : ∀ p ∈ request.params, Encodable s.limits.sizeMax p)
      (h : sendRequest reply c request s = some (.ok (some id), t)) (rest : Sending c t qs u) :
      Sending c s qs u
  | abort {s t u : TestFcgiClientInterface} {reply : SystemReply} {id : FcgiRequestIdentifier}
      {qs : List ManagementRequestData} (hid : id.descriptor = c)
      (h : sendAbortRequest reply id s = some (.ok true, t)) (rest : Sending c t qs u) :
      Sending c s qs u

theorem ok_map {α β : Type} {x : Operation α} {f : α → β} {a : α} {s t : TestFcgiClientInterface}
    (h : x s = some (.ok a, t)) : (f <$> x) s = some (.ok (f a), t) := ok_bind h

/-- A call that returns leads to a reachable state. -/
theorem reachable_perform {s t : TestFcgiClientInterface} (hs : Reachable s) {reply : SystemReply}
    (call : Call) {value : Value} (h : perform reply call s = some (.ok value, t)) : Reachable t :=
  .call hs (show step s reply call = some t by rw [step, h]) trivial

/-- What was written in all calls. -/
theorem Sending.wrote {c : Nat} {s t : TestFcgiClientInterface} {qs : List ManagementRequestData}
    (h : Sending c s qs t) (hs : Reachable s) (hl : s.limits.Posix) :
    Reachable t ∧ ∃ rs, Wrote c qs rs s t := by
  induction h with
  | done s => exact ⟨hs, [], .refl c s⟩
  | @binary s t u reply type data qs h rest ih =>
    have hwrote := wrote_sendBinaryManagementRequest.of_ok h rfl
    obtain ⟨hu, rs, hrest⟩ := ih
      (reachable_perform hs (.sendBinaryManagementRequest c type data) (ok_map h)) (hwrote.limits ▸ hl)
    exact ⟨hu, _, hwrote.trans hrest⟩
  | @getValues s t u reply params qs h rest ih =>
    have hwrote := (wrote_sendGetValuesRequest hl).of_ok h rfl
    obtain ⟨hu, rs, hrest⟩ := ih
      (reachable_perform hs (.sendGetValuesRequest c params) (ok_map h)) (hwrote.limits ▸ hl)
    exact ⟨hu, _, hwrote.trans hrest⟩
  | @request s t u reply request id qs hpairs h rest ih =>
    obtain ⟨rs, hwrote⟩ := wrote_sendRequest hl hpairs h
    obtain ⟨hu, rs', hrest⟩ := ih (reachable_perform hs (.sendRequest c request) (ok_map h))
      (hwrote.limits ▸ hl)
    exact ⟨hu, _, hwrote.trans hrest⟩
  | @abort s t u reply id qs hid h rest ih =>
    subst hid
    have hwrote := (wrote_sendAbortRequest (invariant_of_reachable hs)).of_ok h rfl
    obtain ⟨hu, rs, hrest⟩ := ih (reachable_perform hs (.sendAbortRequest id) (ok_map h))
      (hwrote.limits ▸ hl)
    exact ⟨hu, _, hwrote.trans hrest⟩

end AsComponents.Client
