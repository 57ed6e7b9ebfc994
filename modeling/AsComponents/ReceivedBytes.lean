import AsComponents.Consistency
import AsComponents.ReceivedSections

/-! The invariant of a connection between two bytes, and the loops of
`ReadRecords` over received bytes. -/

namespace AsComponents.Server

open Protocol NameValue SocketFunctions AsComponents.Partition Std Critical

variable {c : Nat} {s t : System}

/-! ## Requests of the connection -/

/-- The interface serves connection `c`: requests that are assigned are
complete, and those that are complete and pending are in the list of the call of
`ReadRecords`. -/
structure System.Serves (s : System) (c : Nat) (its : List Iterator) : Prop
    extends s.Attends c where
  assigned : ∀ (id : FcgiRequestIdentifier) (d : RequestData), id.descriptor = c →
    s.requestMap[id]? = some d → d.requestStatus = .requestAssigned → d.AllComplete
  listed : ∀ (id : FcgiRequestIdentifier) (d : RequestData), id.descriptor = c →
    s.requestMap[id]? = some d → d.requestStatus = .requestPending → d.AllComplete →
    ⟨id, d.node⟩ ∈ its

/-- A request that is not reported has a stream that is not completed. -/
theorem not_allComplete_of_check {d : RequestData}
    (h : d.checkRequestCompletionWithConditionalUpdate.2 = false) :
    ¬ d.checkRequestCompletionWithConditionalUpdate.1.AllComplete := by
  unfold RequestData.checkRequestCompletionWithConditionalUpdate at h ⊢
  rintro ⟨hstdin, hdata, hparams⟩
  split at h
  · split at h
    · cases h
    · rename_i hrole hopen
      rw [if_pos hrole, if_neg hopen] at hstdin hdata hparams
      exact hopen ⟨hparams, hstdin, .inr hdata⟩
  · rename_i hrole
    split at h
    · split at h
      · cases h
      · rename_i hrole' hopen
        rw [if_neg hrole, if_pos hrole', if_neg hopen] at hstdin hdata hparams
        exact hopen ⟨hparams, .inr hstdin, .inr hdata⟩
    · rename_i hrole'
      rw [if_neg hrole, if_neg hrole'] at hstdin hdata hparams
      have hall : (d.fcgiParamsComplete && d.fcgiStdinComplete && d.fcgiDataComplete) = true := by
        rw [hparams, hstdin, hdata]
        rfl
      exact absurd (h.symm.trans hall) (by decide)

/-- A stream ended, and others are still to come. -/
theorem RequestData.not_allComplete_endStream {d : RequestData} {st : Stream}
    (h : (d.endStream st).2 = .incomplete) : ¬ (d.endStream st).1.AllComplete := by
  by_cases hchecked : (d.complete st).checkRequestCompletionWithConditionalUpdate.2 = true
  · rw [endStream_checked hchecked] at h
    dsimp only at h
    split at h <;> cases h
  · rw [endStream_open hchecked]
    exact not_allComplete_of_check (Bool.eq_false_iff.mpr hchecked)

namespace System.Serves

variable {its its' : List Iterator} (hs : s.Serves c its) {id : FcgiRequestIdentifier}
  {d d' : RequestData}

include hs

/-- No request of the connection changed. -/
theorem of_map (ha : t.Attends c) (h : t.requestMap = s.requestMap) : t.Serves c its where
  toAttends := ha
  assigned id d hid hd := hs.assigned id d hid (h ▸ hd)
  listed id d hid hd := hs.listed id d hid (h ▸ hd)

theorem setData (hd : s.requestMap[id]? = some d) (same : d.requestStatus = d'.requestStatus)
    (hassigned : d.AllComplete → d'.AllComplete)
    (hlisted : d'.requestStatus = .requestPending → d'.AllComplete → id.descriptor = c →
      ⟨id, d'.node⟩ ∈ its') (hits : ∀ i ∈ its, i.key ≠ id → i ∈ its') :
    (s.setData id d').Serves c its' where
  toAttends := hs.toAttends.setData hd d'
  assigned id' e hid' he hstatus := by
    simp only [System.setData, ExtTreeMap.getElem?_insert] at he
    split at he
    · rename_i hsame
      obtain rfl : id = id' := by simpa using hsame
      cases he
      exact hassigned (hs.assigned id d hid' hd (same.trans hstatus))
    · exact hs.assigned id' e hid' he hstatus
  listed id' e hid' he hstatus hall := by
    simp only [System.setData, ExtTreeMap.getElem?_insert] at he
    split at he
    · rename_i hsame
      obtain rfl : id = id' := by simpa using hsame
      cases he
      exact hlisted hstatus hall hid'
    · rename_i hne
      refine hits _ (hs.listed id' e hid' he hstatus hall) fun h => hne ?_
      simp only at h
      simp [h]

theorem removed (ha : t.Attends c) (h : t.requestMap = s.requestMap.erase id)
    (hits : ∀ i ∈ its, i.key ≠ id → i ∈ its') : t.Serves c its' where
  toAttends := ha
  assigned id' e hid' he hstatus := by
    rw [h, ExtTreeMap.getElem?_erase] at he
    split at he
    · cases he
    · exact hs.assigned id' e hid' he hstatus
  listed id' e hid' he hstatus hall := by
    rw [h, ExtTreeMap.getElem?_erase] at he
    split at he
    · cases he
    · rename_i hne
      refine hits _ (hs.listed id' e hid' he hstatus hall) fun h => hne ?_
      simp only at h
      simp [h]

theorem respond (origin : Option Nat) (bytes : Bytes) : (s.respond c origin bytes).Serves c its :=
  hs.of_map (hs.toAttends.respond origin bytes) (requestMap_respond s c origin bytes)

theorem accept (hid : id.descriptor = c) (hnew : s.requestMap[id]? = none) (role : UInt16)
    (closeConnection : Bool) : (s.accept c id role closeConnection).Serves c its where
  toAttends := hs.toAttends.accept hid hnew role closeConnection
  assigned id' e hid' he hstatus := by
    simp only [System.accept, ExtTreeMap.getElem?_insert] at he
    split at he
    · cases he
      cases hstatus
    · exact hs.assigned id' e hid' he hstatus
  listed id' e hid' he hstatus hall := by
    simp only [System.accept, ExtTreeMap.getElem?_insert] at he
    split at he
    · cases he
      exact absurd hall.1 (by simp)
    · exact hs.listed id' e hid' he hstatus hall

theorem endRequest (hid : id.descriptor = c) (hd : s.requestMap[id]? = some d) (n : Nat)
    (e : RequestData) (appStatus : Int32) (hits : ∀ i ∈ its, i.key ≠ id → i ∈ its') :
    (s.endRequest c ⟨id, n⟩ e appStatus).Serves c its' := by
  have hended : (((s.closeLater c e).remove id).record (.endedByInterface e.node)).Serves c its' :=
    hs.removed (hs.toAttends.ended hid hd e _) (congrArg (·.erase id) (requestMap_closeLater s c e))
      hits
  exact hended.respond _ _

theorem beginRequest (hid : id.descriptor = c) (hnew : s.requestMap[id]? = none) (content : Bytes) :
    (s.beginRequest c id content).Serves c its := by
  unfold System.beginRequest
  split
  · split
    · exact (hs.of_map (hs.toAttends.reject id) rfl).respond _ _
    · exact hs.accept hid hnew _ _
  · exact hs

theorem abort (hid : id.descriptor = c) :
    (s.abort c id its).1.Serves c (s.abort c id its).2 := by
  unfold System.abort
  split
  · exact hs
  · rename_i d hd
    split
    · rename_i hassigned
      refine hs.setData hd rfl (fun hall => hall) (fun hpending => ?_) fun i hi _ => hi
      rw [hassigned] at hpending
      cases hpending
    · refine hs.endRequest hid hd d.node d s.appStatusOnAbort fun i hi hne => ?_
      split
      · refine (List.mem_erase_of_ne ?_).mpr hi
        rintro rfl
        exact hne rfl
      · exact hi

theorem endStream (hid : id.descriptor = c) {st : Stream} (hopen : ∀ d,
      s.requestMap[id]? = some d → d.requestStatus = .requestPending ∧ d.completion st = false) :
    (s.endStream c id st its).1.Serves c (s.endStream c id st its).2 := by
  unfold System.endStream
  split
  · exact hs
  · rename_i d hd
    obtain ⟨hpending, hopen⟩ := hopen d hd
    have same := d.sameRequest_endStream st
    have hnew : d.AllComplete → (d.endStream st).1.AllComplete := by
      intro hall
      rw [completion_of_allComplete hall st] at hopen
      cases hopen
    have hcompleted : (s.setData id (d.endStream st).1).Serves c (its ++ [⟨id, d.node⟩]) := by
      refine hs.setData hd same.requestStatus.symm hnew (fun _ _ _ => ?_) fun i hi _ => ?_
      · rw [same.node]
        exact List.mem_append_right its (List.mem_singleton_self _)
      · exact List.mem_append_left _ hi
    dsimp only
    split
    · rename_i hincomplete
      refine hs.setData hd same.requestStatus.symm hnew (fun _ hall _ => ?_) fun i hi _ => hi
      exact absurd hall (RequestData.not_allComplete_endStream hincomplete)
    · exact hcompleted
    · refine hcompleted.endRequest hid ExtTreeMap.getElem?_insert_self d.node _ exitFailure ?_
      intro i hi hne
      rcases List.mem_append.mp hi with hi | hi
      · exact hi
      · obtain rfl := List.mem_singleton.mp hi
        exact absurd rfl hne

end System.Serves

/-! ## Between two bytes -/

/-- The bytes that the present part of the record still needs. -/
def RecordStatus.remaining (rs : RecordStatus) : Nat :=
  if rs.bytesReceived < fcgiHeaderLen then fcgiHeaderLen - rs.bytesReceived
  else if rs.bytesReceived < fcgiHeaderLen + rs.contentBytesExpected then
    fcgiHeaderLen + rs.contentBytesExpected - rs.bytesReceived
  else rs.expectedBytes - rs.bytesReceived

namespace Reception

/-- What holds of a connection when a part of a record was received. -/
structure Consistent (c : Nat) (x : Reception) : Prop where
  serves : x.system.Serves c x.completed
  received : Received x.system c x.status
  regular : x.status.Regular

/-- The record in progress is not complete. -/
structure Waiting (c : Nat) (x : Reception) : Prop extends Consistent c x where
  more : ¬ x.status.IsRecordComplete

variable {x : Reception}

theorem Waiting.lt (h : Waiting c x) : x.status.bytesReceived < x.status.expectedBytes :=
  Nat.lt_of_le_of_ne h.regular.bounded fun he => h.more he.symm

theorem Waiting.remaining_pos (h : Waiting c x) : 0 < x.status.remaining := by
  have hlt := h.lt
  unfold RecordStatus.remaining
  split
  · omega
  · split
    · omega
    · omega

/-- The part of a record is not left before its last byte. -/
theorem remaining_le (x : Reception) :
    x.status.remaining ≤ x.status.expectedBytes - x.status.bytesReceived := by
  unfold RecordStatus.remaining RecordStatus.expectedBytes
  split
  · omega
  · split
    · omega
    · omega

/-! ### Headers -/

theorem checkHeader_header (s : System) (c : Nat) (rs : RecordStatus) :
    (s.checkHeader c rs).bytesReceived = rs.bytesReceived ∧
      (s.checkHeader c rs).localRecordContentBuffer = rs.localRecordContentBuffer ∧
      (s.checkHeader c rs).requestId.descriptor = c := by
  unfold System.checkHeader
  dsimp only
  split <;> exact ⟨rfl, rfl, rfl⟩

theorem consistent_checkHeader {its : List Iterator} (hs : s.Serves c its) {rs : RecordStatus}
    (hreceived : rs.bytesReceived = fcgiHeaderLen) (hbuffer : rs.localRecordContentBuffer = []) :
    Received s c (s.checkHeader c rs) ∧ (s.checkHeader c rs).Regular := by
  obtain ⟨hbytes, hkept, hdescriptor⟩ := checkHeader_header s c rs
  have haccepts : (s.checkHeader c rs).Accepts →
      (s.checkHeader c rs).rejectedByType = false ∧ s.ignores (s.checkHeader c rs) = false := by
    rintro ⟨-, hvalid, hnull⟩
    have hid : (rs.decodeHeader c).requestId.fcgiId ≠ fcgiNullRequestId := by
      unfold System.checkHeader at hnull
      dsimp only at hnull
      split at hnull <;> exact hnull
    unfold System.checkHeader at hvalid ⊢
    dsimp only at hvalid ⊢
    rw [if_neg hid] at hvalid ⊢
    exact Bool.or_eq_false_iff.mp hvalid
  refine ⟨⟨fun _ => hdescriptor, ?_, ?_⟩, ⟨fun hlt => ?_, fun ha => (haccepts ha).1, ?_, ?_⟩⟩
  · intro ha htype
    have hignored := (haccepts ha).2
    cases hd : s.requestMap[(s.checkHeader c rs).requestId]? with
    | none => rfl
    | some d => simp [System.ignores, hd, htype] at hignored
  · intro ha st hst
    have hignored := (haccepts ha).2
    have hbegin : (s.checkHeader c rs).type ≠ kFcgiBeginRequest := by
      intro htype
      rw [htype] at hst
      cases hst
    have habort : (s.checkHeader c rs).type ≠ kFcgiAbortRequest := by
      intro htype
      rw [htype] at hst
      cases hst
    cases hd : s.requestMap[(s.checkHeader c rs).requestId]? with
    | none => simp [System.ignores, hd, hbegin] at hignored
    | some d =>
      simp only [System.ignores, hd, if_neg hbegin, if_neg habort, hst] at hignored
      refine ⟨d, rfl, ?_, hignored⟩
      cases hstatus : d.requestStatus with
      | requestPending => rfl
      | requestAssigned =>
        have hall := hs.assigned _ d hdescriptor hd hstatus
        rw [completion_of_allComplete hall st] at hignored
        cases hignored
  · rw [hkept, hbuffer]
  · intro _ _
    rw [hkept, hbuffer, hbytes, hreceived]
    simp
  · rw [hbytes, hreceived]
    unfold RecordStatus.expectedBytes
    omega

/-! ### Content -/

section Store

variable (bytes : Bytes)

theorem store_invalid (h : x.status.invalidatedByHeader = true) :
    x.store bytes = { x with status := x.status.advance bytes.length } := if_pos h

theorem store_buffered (h : ¬ x.status.invalidatedByHeader = true) (hb : x.status.Buffered) :
    x.store bytes = { x with status := x.status.addContent bytes } :=
  (if_neg h).trans (if_pos hb)

theorem store_stream (h : ¬ x.status.invalidatedByHeader = true) (hb : ¬ x.status.Buffered)
    {st : Stream} (hst : Stream.ofType x.status.type = some st) {d : RequestData}
    (hd : x.system.requestMap[x.status.requestId]? = some d) :
    x.store bytes = { x with
      system := x.system.setData x.status.requestId (d.append st bytes)
      status := x.status.advance bytes.length } := by
  refine (if_neg h).trans ((if_neg hb).trans ?_)
  rw [hst, hd]

end Store

/-- The stream and the request of content that is neither ignored nor kept. -/
theorem Consistent.stream (h : Consistent c x) (hheader : x.status.IsHeaderComplete)
    (hvalid : ¬ x.status.invalidatedByHeader = true) (hb : ¬ x.status.Buffered) :
    ∃ st d, Stream.ofType x.status.type = some st ∧
      x.system.requestMap[x.status.requestId]? = some d ∧ d.requestStatus = .requestPending ∧
      d.completion st = false := by
  simp only [RecordStatus.Buffered, not_or] at hb
  have ha : x.status.Accepts := ⟨hheader, by simpa using hvalid, hb.1⟩
  have hrejected := h.regular.accepted ha
  rw [RecordStatus.rejectedByType, if_neg hb.2.1, if_neg hb.2.2] at hrejected
  cases hst : Stream.ofType x.status.type with
  | none =>
    rw [hst] at hrejected
    cases hrejected
  | some st =>
    obtain ⟨d, hd, hpending, hopen⟩ := h.received.stream ha st hst
    exact ⟨st, d, rfl, hd, hpending, hopen⟩

theorem Consistent.consistent_store (h : Consistent c x) (hheader : x.status.IsHeaderComplete)
    {bytes : Bytes}
    (hlength : x.status.bytesReceived + bytes.length ≤ fcgiHeaderLen + x.status.contentBytesExpected) :
    Consistent c (x.store bytes) := by
  have hbounded : x.status.bytesReceived + bytes.length ≤ x.status.expectedBytes := by
    unfold RecordStatus.expectedBytes
    omega
  have hmore : fcgiHeaderLen ≤ x.status.bytesReceived + bytes.length := Nat.le_add_right_of_le hheader
  by_cases hinvalid : x.status.invalidatedByHeader = true
  · rw [store_invalid bytes hinvalid]
    have hno : ¬ (x.status.advance bytes.length).Accepts := fun ha =>
      absurd (hinvalid.symm.trans ha.2.1) (by simp)
    refine ⟨h.serves, ⟨fun _ => h.received.descriptor hheader, fun ha => absurd ha hno,
      fun ha => absurd ha hno⟩, ⟨fun hlt => ?_, fun ha => absurd ha hno, fun ha => absurd ha hno,
      hbounded⟩⟩
    exact absurd hlt (Nat.not_lt.mpr hmore)
  by_cases hb : x.status.Buffered
  · rw [store_buffered bytes hinvalid hb]
    refine ⟨h.serves, ⟨fun _ => h.received.descriptor hheader, fun ha => ?_, fun ha => ?_⟩,
      ⟨fun hlt => ?_, fun ha => ?_, fun ha htype => ?_, hbounded⟩⟩
    · exact h.received.begins ⟨hheader, ha.2⟩
    · exact h.received.stream ⟨hheader, ha.2⟩
    · exact absurd hlt (Nat.not_lt.mpr hmore)
    · exact h.regular.accepted ⟨hheader, ha.2⟩
    · have hbuffered := h.regular.buffered ⟨hheader, ha.2⟩ htype
      show (x.status.localRecordContentBuffer ++ bytes).length =
        min (x.status.bytesReceived + bytes.length - fcgiHeaderLen) x.status.contentBytesExpected
      rw [List.length_append, hbuffered]
      unfold RecordStatus.IsHeaderComplete at hheader
      omega
  · obtain ⟨st, d, hst, hd, hpending, hopen⟩ := h.stream hheader hinvalid hb
    rw [store_stream bytes hinvalid hb hst hd]
    have same := RequestData.sameRequest_append d st bytes
    have hbegin : x.status.type ≠ kFcgiBeginRequest := fun htype => hb (.inr (.inl htype))
    have hstill : ¬ (d.append st bytes).AllComplete := by
      intro hall
      have := completion_of_allComplete hall st
      rw [completion_append, hopen] at this
      cases this
    refine ⟨?_, ⟨fun _ => h.received.descriptor hheader, fun _ htype => absurd htype hbegin,
      fun _ st' hst' => ?_⟩, ⟨fun hlt => ?_, fun ha => ?_, fun _ htype => absurd htype hbegin, hbounded⟩⟩
    · refine h.serves.setData hd same.requestStatus.symm (fun hall => ?_) (fun _ hall _ => ?_)
        fun i hi _ => hi
      · rw [completion_of_allComplete hall st] at hopen
        cases hopen
      · exact absurd hall hstill
    · obtain rfl : st = st' := Option.some.inj (hst.symm.trans hst')
      refine ⟨_, ExtTreeMap.getElem?_insert_self, same.requestStatus.trans hpending, ?_⟩
      rw [completion_append, hopen]
    · exact absurd hlt (Nat.not_lt.mpr hmore)
    · exact h.regular.accepted ⟨hheader, ha.2⟩

/-! ### Any part of a record -/

/-- The header is not complete. -/
theorem consistent_partHeader (s : System) (c : Nat) {rs : RecordStatus}
    (hlt : rs.bytesReceived < fcgiHeaderLen) (hbuffer : rs.localRecordContentBuffer = []) :
    Received s c rs ∧ rs.Regular := by
  have hno : ¬ rs.IsHeaderComplete := Nat.not_le.mpr hlt
  refine ⟨⟨fun h => absurd h hno, fun h => absurd h.1 hno, fun h => absurd h.1 hno⟩,
    ⟨fun _ => hbuffer, fun h => absurd h.1 hno, fun h => absurd h.1 hno, ?_⟩⟩
  unfold RecordStatus.expectedBytes
  omega

theorem extendHeader_complete {bytes : Bytes}
    (h : (x.status.addHeader bytes).bytesReceived = fcgiHeaderLen) :
    x.extendHeader c bytes =
      { x with status := x.system.checkHeader c (x.status.addHeader bytes) } := by
  unfold extendHeader
  dsimp only
  rw [if_pos h]

theorem extendHeader_part {bytes : Bytes}
    (h : ¬ (x.status.addHeader bytes).bytesReceived = fcgiHeaderLen) :
    x.extendHeader c bytes = { x with status := x.status.addHeader bytes } := by
  unfold extendHeader
  dsimp only
  rw [if_neg h]

theorem Waiting.consistent_extendHeader (h : Waiting c x)
    (hlt : x.status.bytesReceived < fcgiHeaderLen) {bytes : Bytes}
    (hlength : bytes.length ≤ fcgiHeaderLen - x.status.bytesReceived) :
    Consistent c (x.extendHeader c bytes) := by
  have hbuffer : (x.status.addHeader bytes).localRecordContentBuffer = [] := h.regular.fresh hlt
  by_cases hcomplete : (x.status.addHeader bytes).bytesReceived = fcgiHeaderLen
  · obtain ⟨hreceived, hregular⟩ := consistent_checkHeader h.serves hcomplete hbuffer
    rw [extendHeader_complete hcomplete]
    exact ⟨h.serves, hreceived, hregular⟩
  · have hle : (x.status.addHeader bytes).bytesReceived ≤ fcgiHeaderLen := by
      show x.status.bytesReceived + bytes.length ≤ fcgiHeaderLen
      omega
    obtain ⟨hreceived, hregular⟩ := consistent_partHeader x.system c
      (Nat.lt_of_le_of_ne hle hcomplete) hbuffer
    rw [extendHeader_part hcomplete]
    exact ⟨h.serves, hreceived, hregular⟩

theorem Consistent.consistent_padding (h : Consistent c x) (hheader : x.status.IsHeaderComplete)
    (hcontent : fcgiHeaderLen + x.status.contentBytesExpected ≤ x.status.bytesReceived) {n : Nat}
    (hn : x.status.bytesReceived + n ≤ x.status.expectedBytes) :
    Consistent c { x with status := x.status.advance n } := by
  refine ⟨h.serves, ⟨fun _ => h.received.descriptor hheader, fun ha => ?_, fun ha => ?_⟩,
    ⟨fun hlt => ?_, fun ha => ?_, fun ha htype => ?_, hn⟩⟩
  · exact h.received.begins ⟨hheader, ha.2⟩
  · exact h.received.stream ⟨hheader, ha.2⟩
  · exact absurd hlt (Nat.not_lt.mpr (Nat.le_add_right_of_le hheader))
  · exact h.regular.accepted ⟨hheader, ha.2⟩
  · have hbuffered := h.regular.buffered ⟨hheader, ha.2⟩ htype
    show x.status.localRecordContentBuffer.length =
      min (x.status.bytesReceived + n - fcgiHeaderLen) x.status.contentBytesExpected
    omega

theorem Waiting.consistent_place (h : Waiting c x) {bytes : Bytes}
    (hlength : bytes.length ≤ x.status.remaining) : Consistent c (x.place c bytes) := by
  have hlt := h.lt
  unfold RecordStatus.remaining at hlength
  unfold place
  split_ifs at hlength ⊢ with hheader hcontent
  · exact h.consistent_extendHeader hheader hlength
  · exact h.consistent_store (Nat.not_lt.mp hheader) (by omega)
  · exact h.consistent_padding (Nat.not_lt.mp hheader) (Nat.not_lt.mp hcontent) (by omega)

/-! ### Complete records -/

theorem regular_empty : ({} : RecordStatus).Regular := by
  have hno : ¬ ({} : RecordStatus).IsHeaderComplete := by decide
  exact ⟨fun _ => rfl, fun h => absurd h.1 hno, fun h => absurd h.1 hno, Nat.zero_le _⟩

theorem not_complete_empty : ¬ ({} : RecordStatus).IsRecordComplete := by decide

theorem Consistent.serves_processRecord (h : Consistent c x) (hcomplete : x.status.IsRecordComplete) :
    (x.system.processRecord c x.status x.completed).1.Serves c
      (x.system.processRecord c x.status x.completed).2 := by
  have hid := h.received.descriptor hcomplete.header
  unfold System.processRecord
  by_cases hnull : x.status.requestId.fcgiId = fcgiNullRequestId
  · rw [if_pos hnull]
    exact h.serves.respond _ _
  rw [if_neg hnull]
  by_cases hinvalid : x.status.invalidatedByHeader = true
  · rw [if_pos hinvalid]
    exact h.serves
  rw [if_neg hinvalid]
  have ha : x.status.Accepts := ⟨hcomplete.header, by simpa using hinvalid, hnull⟩
  by_cases hbegin : x.status.type = kFcgiBeginRequest
  · rw [if_pos hbegin]
    exact h.serves.beginRequest hid (h.received.begins ha hbegin) _
  rw [if_neg hbegin]
  by_cases habort : x.status.type = kFcgiAbortRequest
  · rw [if_pos habort]
    exact h.serves.abort hid
  rw [if_neg habort]
  cases hst : Stream.ofType x.status.type with
  | none => exact h.serves
  | some st =>
    dsimp only
    split
    · refine h.serves.endStream hid fun d hd => ?_
      obtain ⟨d', hd', hpending, hopen⟩ := h.received.stream ha st hst
      rw [hd, Option.some.injEq] at hd'
      exact hd' ▸ ⟨hpending, hopen⟩
    · exact h.serves

theorem Consistent.waiting_settle (h : Consistent c x) : Waiting c (x.settle c) := by
  unfold settle
  split
  · rename_i hcomplete
    exact ⟨⟨h.serves_processRecord hcomplete, .empty _ c, regular_empty⟩, not_complete_empty⟩
  · rename_i hmore
    exact ⟨h, hmore⟩

/-- One byte keeps the invariant. -/
theorem Waiting.take (h : Waiting c x) (b : UInt8) : Waiting c (x.take c b) := by
  refine (h.consistent_place ?_).waiting_settle
  exact h.remaining_pos

/-- Bytes keep the invariant. -/
theorem Waiting.foldl (h : Waiting c x) (bytes : Bytes) : Waiting c (bytes.foldl (Reception.take c) x) := by
  induction bytes generalizing x with
  | nil => exact h
  | cons b bytes ih => exact ih (h.take b)

/-! ### Parts of a record byte by byte -/

theorem store_counts (x : Reception) (bytes : Bytes) :
    (x.store bytes).status.bytesReceived = x.status.bytesReceived + bytes.length ∧
      (x.store bytes).status.contentBytesExpected = x.status.contentBytesExpected ∧
      (x.store bytes).status.paddingBytesExpected = x.status.paddingBytesExpected := by
  unfold store
  dsimp only
  split_ifs
  · exact ⟨rfl, rfl, rfl⟩
  · exact ⟨rfl, rfl, rfl⟩
  · split <;> exact ⟨rfl, rfl, rfl⟩

theorem completed_place (x : Reception) (c : Nat) (bytes : Bytes) :
    (x.place c bytes).completed = x.completed := by
  unfold place
  split_ifs
  · rfl
  · unfold store
    dsimp only
    split_ifs
    · rfl
    · rfl
    · split <;> rfl
  · rfl

theorem advance_advance (rs : RecordStatus) (m n : Nat) :
    (rs.advance m).advance n = rs.advance (m + n) := by
  simp only [RecordStatus.advance, Nat.add_assoc]

theorem addHeader_addHeader (rs : RecordStatus) (a b : Bytes) :
    (rs.addHeader a).addHeader b = rs.addHeader (a ++ b) := by
  simp only [RecordStatus.addHeader, RecordStatus.advance, List.length_append, List.append_assoc,
    Nat.add_assoc]

theorem append_append (d : RequestData) (st : Stream) (a b : Bytes) :
    (d.append st a).append st b = d.append st (a ++ b) := by
  cases st <;> simp only [RequestData.append, List.append_assoc]

theorem Consistent.store_store (h : Consistent c x) (hheader : x.status.IsHeaderComplete) (a b : Bytes) :
    (x.store a).store b = x.store (a ++ b) := by
  by_cases hinvalid : x.status.invalidatedByHeader = true
  · rw [store_invalid a hinvalid, store_invalid (a ++ b) hinvalid,
      store_invalid (x := { x with status := x.status.advance a.length }) b hinvalid]
    simp only [advance_advance, List.length_append]
  by_cases hb : x.status.Buffered
  · rw [store_buffered a hinvalid hb, store_buffered (a ++ b) hinvalid hb,
      store_buffered (x := { x with status := x.status.addContent a }) b hinvalid hb]
    simp only [RecordStatus.addContent, RecordStatus.advance, List.length_append, List.append_assoc,
      Nat.add_assoc]
  · obtain ⟨st, d, hst, hd, -, -⟩ := h.stream hheader hinvalid hb
    set x' : Reception :=
      { x with
        system := x.system.setData x.status.requestId (d.append st a)
        status := x.status.advance a.length } with hx
    have hd' : x'.system.requestMap[x'.status.requestId]? = some (d.append st a) :=
      ExtTreeMap.getElem?_insert_self
    rw [store_stream a hinvalid hb hst hd, store_stream (a ++ b) hinvalid hb hst hd, ← hx,
      store_stream (x := x') b hinvalid hb hst hd', append_append]
    simp only [hx, advance_advance, List.length_append]
    rw [show x.status.requestId = (x.status.advance a.length).requestId from rfl,
      System.setData_setData]

/-- A piece of a part of a record leaves the rest of the part to come. -/
theorem Waiting.place_place (h : Waiting c x) {a b : Bytes} (hb : b ≠ [])
    (hlength : a.length + b.length ≤ x.status.remaining) :
    (x.place c a).place c b = x.place c (a ++ b) ∧
      (x.place c a).status.remaining = x.status.remaining - a.length := by
  have hpos : 0 < b.length := List.length_pos_of_ne_nil hb
  by_cases hheader : x.status.bytesReceived < fcgiHeaderLen
  · have hremaining : x.status.remaining = fcgiHeaderLen - x.status.bytesReceived := if_pos hheader
    have hlt : (x.status.addHeader a).bytesReceived < fcgiHeaderLen := by
      show x.status.bytesReceived + a.length < fcgiHeaderLen
      omega
    have hfirst : x.place c a = { x with status := x.status.addHeader a } :=
      (if_pos hheader).trans (extendHeader_part (Nat.ne_of_lt hlt))
    have hboth : x.place c (a ++ b) = x.extendHeader c (a ++ b) := if_pos hheader
    have hsecond : (x.place c a).place c b =
        ({ x with status := x.status.addHeader a } : Reception).extendHeader c b := by
      rw [hfirst]
      exact if_pos hlt
    refine ⟨?_, ?_⟩
    · rw [hsecond, hboth]
      unfold extendHeader
      simp only [addHeader_addHeader]
    · rw [hfirst, hremaining, RecordStatus.remaining, if_pos hlt]
      show fcgiHeaderLen - (x.status.bytesReceived + a.length) = _
      omega
  by_cases hcontent : x.status.bytesReceived < fcgiHeaderLen + x.status.contentBytesExpected
  · have hremaining : x.status.remaining =
        fcgiHeaderLen + x.status.contentBytesExpected - x.status.bytesReceived :=
      (if_neg hheader).trans (if_pos hcontent)
    obtain ⟨hbytes, hexpected, -⟩ := store_counts x a
    have hfirst : x.place c a = x.store a := (if_neg hheader).trans (if_pos hcontent)
    have hboth : x.place c (a ++ b) = x.store (a ++ b) := (if_neg hheader).trans (if_pos hcontent)
    have hheader' : ¬ (x.store a).status.bytesReceived < fcgiHeaderLen := by omega
    have hcontent' : (x.store a).status.bytesReceived <
        fcgiHeaderLen + (x.store a).status.contentBytesExpected := by omega
    have hsecond : (x.store a).place c b = (x.store a).store b :=
      (if_neg hheader').trans (if_pos hcontent')
    refine ⟨?_, ?_⟩
    · rw [hfirst, hsecond, hboth, h.store_store (Nat.not_lt.mp hheader)]
    · rw [hfirst, hremaining, RecordStatus.remaining, if_neg hheader', if_pos hcontent']
      omega
  · have hremaining : x.status.remaining = x.status.expectedBytes - x.status.bytesReceived :=
      (if_neg hheader).trans (if_neg hcontent)
    have hfirst : x.place c a = { x with status := x.status.advance a.length } :=
      (if_neg hheader).trans (if_neg hcontent)
    have hheader' : ¬ (x.status.advance a.length).bytesReceived < fcgiHeaderLen := by
      show ¬ x.status.bytesReceived + a.length < fcgiHeaderLen
      omega
    have hcontent' : ¬ (x.status.advance a.length).bytesReceived <
        fcgiHeaderLen + (x.status.advance a.length).contentBytesExpected := by
      show ¬ x.status.bytesReceived + a.length < fcgiHeaderLen + x.status.contentBytesExpected
      omega
    have hsecond : (x.place c a).place c b =
        { x with status := (x.status.advance a.length).advance b.length } := by
      rw [hfirst]
      exact (if_neg hheader').trans (if_neg hcontent')
    refine ⟨?_, ?_⟩
    · rw [hsecond, advance_advance, ← List.length_append]
      exact ((if_neg hheader).trans (if_neg hcontent)).symm
    · rw [hfirst, hremaining, RecordStatus.remaining, if_neg hheader', if_neg hcontent']
      show x.status.expectedBytes - (x.status.bytesReceived + a.length) = _
      omega

/-- Before its last byte a part does not complete the record. -/
theorem not_complete (hremaining : 0 < x.status.remaining) : ¬ x.status.IsRecordComplete := by
  intro hcomplete
  have hle := x.remaining_le
  unfold RecordStatus.IsRecordComplete at hcomplete
  omega

/-- The bytes of one part of a record, one by one. -/
theorem Waiting.foldl_place (h : Waiting c x) {bytes : Bytes} (hne : bytes ≠ [])
    (hlength : bytes.length ≤ x.status.remaining) :
    bytes.foldl (Reception.take c) x = (x.place c bytes).settle c := by
  induction bytes generalizing x with
  | nil => exact absurd rfl hne
  | cons b bytes ih =>
    by_cases hlast : bytes = []
    · rw [hlast]
      rfl
    · rw [List.length_cons] at hlength
      have hpos : 0 < bytes.length := List.length_pos_of_ne_nil hlast
      obtain ⟨hplace, hremaining⟩ := h.place_place (a := [b]) hlast (by
        rw [List.length_singleton]
        omega)
      rw [List.length_singleton] at hremaining
      have hconsistent : Consistent c (x.place c [b]) :=
        h.consistent_place (by rw [List.length_singleton]; omega)
      have hmore := not_complete (x := x.place c [b]) (by omega)
      have htake : x.take c b = x.place c [b] := if_neg hmore
      rw [List.foldl_cons, htake, ih ⟨hconsistent, hmore⟩ hlast (by omega), hplace]
      rfl

end Reception

/-! ## The loop over received bytes -/

section Loop

variable {x : Reception} (h : x.Waiting c) {bytes : Bytes} {n : Nat}

include h

theorem performs_receiveHeader (hheader : x.status.bytesReceived < fcgiHeaderLen)
    (hn : n = min (fcgiHeaderLen - x.status.bytesReceived) bytes.length) :
    Performs (x.system.Caches c) (receiveHeader c x.status bytes) x.system
      ((x.extendHeader c (bytes.take n)).status, bytes.drop n) x.system (x.system.Caches c) := by
  have hlength : (bytes.take n).length = n := by
    rw [List.length_take]
    omega
  have hupdated : ({ x.status with
      header := x.status.header ++ bytes.take n
      bytesReceived := x.status.bytesReceived + n } : RecordStatus) =
        x.status.addHeader (bytes.take n) := by
    simp only [RecordStatus.addHeader, RecordStatus.advance, hlength]
  unfold receiveHeader
  dsimp only
  rw [← hn, hupdated]
  by_cases hcomplete : fcgiHeaderLen - x.status.bytesReceived ≤ bytes.length
  · have hall : (x.status.addHeader (bytes.take n)).bytesReceived = fcgiHeaderLen := by
      show x.status.bytesReceived + (bytes.take n).length = fcgiHeaderLen
      omega
    rw [if_pos hcomplete, Reception.extendHeader_complete hall]
    have hupdate := performs_updateAfterHeaderCompletion (c := c) h.serves.good
      (x.status.addHeader (bytes.take n))
    exact Performs.bind (.tryCatch hupdate) (.ret fun it h => h)
  · have hpart : ¬ (x.status.addHeader (bytes.take n)).bytesReceived = fcgiHeaderLen := by
      show ¬ x.status.bytesReceived + (bytes.take n).length = fcgiHeaderLen
      omega
    rw [if_neg hcomplete, Reception.extendHeader_part hpart]
    exact .ret fun it h => h

theorem performs_receiveContent (hheader : x.status.IsHeaderComplete)
    (hn : n = min (fcgiHeaderLen + x.status.contentBytesExpected - x.status.bytesReceived)
      bytes.length) :
    Performs (x.system.Caches c) (receiveContent c x.status
        (fcgiHeaderLen + x.status.contentBytesExpected - x.status.bytesReceived) bytes) x.system
      ((x.store (bytes.take n)).status, bytes.drop n) (x.store (bytes.take n)).system
      ((x.store (bytes.take n)).system.Caches c) := by
  have hlength : (bytes.take n).length = n := by
    rw [List.length_take]
    omega
  unfold receiveContent
  dsimp only
  rw [← hn]
  by_cases hinvalid : x.status.invalidatedByHeader = true
  · rw [if_pos hinvalid, Reception.store_invalid _ hinvalid, hlength]
    exact .ret fun it h => h
  rw [if_neg hinvalid]
  by_cases hb : x.status.Buffered
  · have hkept : x.status.requestId.fcgiId = fcgiNullRequestId ∨ x.status.type = kFcgiBeginRequest ∨
        x.status.type = kFcgiAbortRequest := hb
    rw [if_pos hkept, Reception.store_buffered _ hinvalid hb, RecordStatus.addContent, hlength]
    exact Performs.bind (.tryCatch (.allocating fun it h => h)) (.ret fun it h => h)
  · obtain ⟨st, d, hst, hd, -, -⟩ := h.stream hheader hinvalid hb
    have hkept : ¬ (x.status.requestId.fcgiId = fcgiNullRequestId ∨
        x.status.type = kFcgiBeginRequest ∨ x.status.type = kFcgiAbortRequest) := hb
    rw [if_neg hkept, Reception.store_stream _ hinvalid hb hst hd, hlength]
    have happend := performs_appendToStream h.serves.toAttends (h.received.descriptor hheader) hst hd
      (bytes.take n)
    exact happend.bind (.ret fun it h => h)

/-- One round of the loop. -/
theorem performs_receiveSegment (hn : n = min x.status.remaining bytes.length) :
    Performs (x.system.Caches c) (receiveSegment c x.status bytes) x.system
      ((x.place c (bytes.take n)).status, bytes.drop n) (x.place c (bytes.take n)).system
      ((x.place c (bytes.take n)).system.Caches c) := by
  have hlength : (bytes.take n).length = n := by
    rw [List.length_take]
    omega
  unfold receiveSegment Reception.place
  unfold RecordStatus.remaining at hn
  by_cases hheader : x.status.bytesReceived < fcgiHeaderLen
  · rw [if_pos hheader] at hn ⊢
    rw [if_neg (show ¬ x.status.IsHeaderComplete from Nat.not_le.mpr hheader)]
    exact performs_receiveHeader h hheader hn
  rw [if_neg hheader] at hn ⊢
  rw [if_pos (show x.status.IsHeaderComplete from Nat.not_lt.mp hheader)]
  by_cases hcontent : x.status.bytesReceived < fcgiHeaderLen + x.status.contentBytesExpected
  · rw [if_pos hcontent] at hn ⊢
    dsimp only
    rw [if_pos (by omega)]
    exact performs_receiveContent h (Nat.not_lt.mp hheader) hn
  · rw [if_neg hcontent] at hn ⊢
    dsimp only
    rw [if_neg (by omega), receivePadding]
    rw [← hn, hlength]
    exact .ret fun it h => h

end Loop

/-- The loop over received bytes receives them all. -/
theorem performs_processReceivedBytes (fuel : Nat) {x : Reception} (h : x.Waiting c) {bytes : Bytes}
    (hfuel : bytes.length ≤ fuel) :
    Performs (x.system.Caches c) (processReceivedBytes c fuel x.status x.completed bytes) x.system
      ((bytes.foldl (Reception.take c) x).status, (bytes.foldl (Reception.take c) x).completed)
      (bytes.foldl (Reception.take c) x).system
      ((bytes.foldl (Reception.take c) x).system.Caches c) := by
  induction fuel generalizing x bytes with
  | zero =>
    obtain rfl : bytes = [] := List.length_eq_zero_iff.mp (Nat.le_zero.mp hfuel)
    exact .ret fun it h => h
  | succ fuel ih =>
    cases bytes with
    | nil => exact .ret fun it h => h
    | cons b rest =>
      set bytes := b :: rest with hbytes
      set n := min x.status.remaining bytes.length with hn
      have hlength : (bytes.take n).length = n := by
        rw [List.length_take]
        omega
      have hpos : 0 < n := lt_min h.remaining_pos (List.length_pos_of_mem List.mem_cons_self)
      have hne : bytes.take n ≠ [] := by
        intro hnil
        rw [hnil, List.length_nil] at hlength
        omega
      set y := x.place c (bytes.take n) with hy
      have hconsistent : y.Consistent c := h.consistent_place (by omega)
      have hfold : bytes.foldl (Reception.take c) x =
          (bytes.drop n).foldl (Reception.take c) (y.settle c) := by
        conv_lhs => rw [← List.take_append_drop n bytes, List.foldl_append]
        rw [h.foldl_place hne (by omega)]
      have hrest : (bytes.drop n).length ≤ fuel := by
        rw [List.length_drop]
        omega
      have hnext := ih hconsistent.waiting_settle hrest
      rw [hfold]
      refine (performs_receiveSegment h hn).bind ?_
      dsimp only
      rw [← hy]
      have hcompleted : y.completed = x.completed := Reception.completed_place x c _
      by_cases hcomplete : y.status.IsRecordComplete
      · rw [if_pos hcomplete, ← hcompleted]
        rw [show y.settle c = ⟨(y.system.processRecord c y.status y.completed).1, {},
          (y.system.processRecord c y.status y.completed).2⟩ from if_pos hcomplete] at hnext ⊢
        refine Performs.bind ?_ hnext
        exact performs_finishRecord hconsistent.serves.toAttends hconsistent.regular
          hconsistent.received hcomplete hconsistent.serves.listed
      · rw [if_neg hcomplete, ← hcompleted]
        rw [show y.settle c = y from if_neg hcomplete] at hnext ⊢
        exact hnext

/-! ## ReadRecords -/

/-- Reads of a socket that give these bytes and then find no more. -/
inductive Gives : List ReadResult → Bytes → Prop
  | drained (bytes : Bytes) (reads : List ReadResult) : Gives (.drained bytes :: reads) bytes
  | filled {reads : List ReadResult} {bytes : Bytes} (first : Bytes) (h : Gives reads bytes) :
      Gives (.filled first :: reads) (first ++ bytes)

theorem performs_readLoop {x : Reception} (h : x.Waiting c) {reads : List ReadResult} {bytes : Bytes}
    (hreads : Gives reads bytes) :
    Performs (x.system.Caches c) (readLoop c reads x.status x.completed) x.system
      ((bytes.foldl (Reception.take c) x).status, (bytes.foldl (Reception.take c) x).completed)
      (bytes.foldl (Reception.take c) x).system
      ((bytes.foldl (Reception.take c) x).system.Caches c) := by
  induction hreads generalizing x with
  | drained bytes reads => exact performs_processReceivedBytes bytes.length h (Nat.le_refl _)
  | filled first hreads ih =>
    have hfirst := performs_processReceivedBytes first.length h (Nat.le_refl _)
    rw [List.foldl_append]
    exact hfirst.bind (ih (h.foldl first))

/-- Whatever the reads are and whichever iterator the last call left, `ReadRecords`
does what the interface as a function of bytes does. -/
theorem completes_readRecords {reads : List ReadResult} {bytes : Bytes}
    (h : (s.reception c).Waiting c) (hreads : Gives reads bytes) :
    Program.Completes Faultless (fun its t => (t, its) = s.receive c bytes) (readRecords c reads) s := by
  set x := bytes.foldl (Reception.take c) (s.reception c) with hx
  have hstart : Performs (fun it => it = s.localRequestIter) (atomically fun _ => do
        setLocalRequestIter none
        return ((← get).recordStatusMap[c]?).getD {}) s (s.reception c).status
      (s.reception c).system ((s.reception c).system.Caches c) :=
    .section' fun it _ reply _ => ⟨_, _, rfl, rfl, none, .none _ c, rfl⟩
  have hloop := performs_readLoop h hreads
  have hstore : Performs (x.system.Caches c) (atomically fun _ => do
        setLocalRequestIter none
        modify fun s => { s with recordStatusMap := s.recordStatusMap.insert c x.status }) x.system ⟨⟩
      (s.receive c bytes).1 (fun it => it = none) :=
    .section' fun it _ reply _ => ⟨_, _, rfl, rfl, none, rfl, rfl⟩
  have hread : Performs (fun it => it = s.localRequestIter) (readRecords c reads) s x.completed
      (s.receive c bytes).1 (fun it => it = none) :=
    .tryCatch (hstart.bind (hloop.bind (hstore.bind (.ret fun it h => h))))
  refine Program.completes_mono ?_ (hread s.localRequestIter rfl)
  rintro _ _ ⟨rfl, _, rfl, rfl⟩
  rfl

/-! ## From one call to the next -/

theorem System.Serves.keeping (hs : s.Serves c its) (it : Option Iterator)
    (statuses : ExtTreeMap Nat RecordStatus) : (s.keeping it statuses).Serves c its :=
  hs.of_map ⟨hs.good, hs.socket, hs.count⟩ rfl

theorem Reception.Waiting.keeping {x : Reception} (h : x.Waiting c) (it : Option Iterator)
    (statuses : ExtTreeMap Nat RecordStatus) : (x.keeping it statuses).Waiting c where
  serves := h.serves.keeping it statuses
  received := ⟨h.received.descriptor, h.received.begins, h.received.stream⟩
  regular := h.regular
  more := h.more

theorem Reception.waiting_start {its : List Iterator} (hs : s.Serves c its) :
    Waiting c ⟨s, {}, its⟩ :=
  ⟨⟨hs, .empty s c, regular_empty⟩, not_complete_empty⟩

/-- Between two records of a connection. -/
theorem waiting_reception (hs : s.Serves c []) (hstatus : (s.recordStatusMap[c]?).getD {} = {}) :
    (s.reception c).Waiting c := by
  have hstart : s.reception c = ⟨s.keeping none s.recordStatusMap, {}, []⟩ := by
    rw [System.reception, hstatus]
    rfl
  rw [hstart]
  exact Reception.waiting_start (hs.keeping none _)

theorem recordStatusMap_foldl (x : Reception) (c : Nat) (bytes : Bytes) :
    (bytes.foldl (Reception.take c) x).system.recordStatusMap = x.system.recordStatusMap := by
  have hsame := Reception.foldl_keeping x c x.system.localRequestIter x.system.recordStatusMap bytes
  exact congrArg (·.system.recordStatusMap) hsame

theorem receive_eq (s : System) (c : Nat) (bytes : Bytes) :
    s.receive c bytes =
      ((bytes.foldl (Reception.take c) (s.reception c)).system.keeping none
          (s.recordStatusMap.insert c (bytes.foldl (Reception.take c) (s.reception c)).status),
        (bytes.foldl (Reception.take c) (s.reception c)).completed) := by
  have hsame : (bytes.foldl (Reception.take c) (s.reception c)).system.recordStatusMap =
      s.recordStatusMap := recordStatusMap_foldl (s.reception c) c bytes
  rw [← hsame]
  rfl

/-- The connection at the start of a call, when the last one reported nothing. -/
theorem reception_receive {bytes : Bytes} (h : (s.receive c bytes).2 = []) :
    (s.receive c bytes).1.reception c =
      (bytes.foldl (Reception.take c) (s.reception c)).keeping none
        (s.receive c bytes).1.recordStatusMap := by
  set x := bytes.foldl (Reception.take c) (s.reception c) with hx
  have hcompleted : x.completed = [] := h
  have hstatus : (s.receive c bytes).1.recordStatusMap[c]? = some x.status :=
    ExtTreeMap.getElem?_insert_self
  rw [System.reception, hstatus, Reception.keeping, hcompleted]
  rfl

/-- A call may stop and another one go on at any byte that reports nothing. -/
theorem receive_append {first rest : Bytes} (h : (s.receive c first).2 = []) :
    s.receive c (first ++ rest) = (s.receive c first).1.receive c rest := by
  set x := first.foldl (Reception.take c) (s.reception c) with hx
  have hstatuses : (s.receive c first).1.recordStatusMap = s.recordStatusMap.insert c x.status := by
    rw [receive_eq]
    rfl
  have hinsert : ∀ rs : RecordStatus,
      (s.recordStatusMap.insert c x.status).insert c rs = s.recordStatusMap.insert c rs := by
    intro rs
    apply ExtTreeMap.ext_getElem?
    intro k
    grind
  rw [receive_eq s, receive_eq (s.receive c first).1, reception_receive h, Reception.foldl_keeping,
    List.foldl_append, hstatuses, ← hx]
  refine Prod.ext ?_ rfl
  show _ = System.keeping _ none ((s.recordStatusMap.insert c x.status).insert c _)
  rw [hinsert]
  rfl

/-! ## Connections of reachable states -/

/-- A connection that is open and that no thread writes to can be served, when no
request of it waits to be assigned. -/
theorem Invariant.serves (h : Invariant s) (hgood : s.badInterfaceStateDetected = false)
    {m : WriteMutex} (hm : s.writeMutexMap[c]? = some m) (hfree : m.owner = none)
    (hopen : m.corrupt = false → (s.sockets m.socket).broken = false)
    (hready : ∀ it, s.Ready it → it.key.descriptor ≠ c) : s.Serves c [] where
  good := hgood
  socket := ⟨m, m.socket, hm, hfree, h.tables.connected c m hm (.inl hgood), hopen⟩
  count := by
    have hmem : c ∈ s.requestCountMap := (h.tables.count_iff c).mpr (.inl (by grind))
    have hn : s.requestCountMap[c]? = some s.requestCountMap[c] := by grind
    rw [← h.counts.count c _ hn, hn]
  assigned id d _ hd hstatus := h.objects.complete id d hd hstatus
  listed id d hid hd hpending hall :=
    absurd hid (hready ⟨id, d.node⟩ ⟨d, lookup_of_data hd, hpending, hall⟩)

/-- An interface that takes two requests on a connection. -/
def multiplexing : System := { maximumRequestCountPerConnection := 2 }

theorem initial_multiplexing : Initial multiplexing :=
  { initial_start with maximumRequestCount_pos := by decide }

/-- The interface with descriptor 5 accepted and nothing received. -/
def accepted : Config := (run ⟨multiplexing, .idle⟩ connect).getD start

theorem reachable_accepted : Reachable accepted := by
  have hsome : (run ⟨multiplexing, .idle⟩ connect).isSome := by decide +kernel
  obtain ⟨d, hd⟩ := Option.isSome_iff_exists.mp hsome
  rw [accepted, hd]
  exact reachable_run (.initial initial_multiplexing) hd

theorem serves_accepted : accepted.system.Serves 5 [] := by
  have hempty : accepted.system.requestsOf 5 = [] := by decide +kernel
  refine (invariant_of_reachable reachable_accepted).serves (m := { socket := 0 }) (by decide +kernel)
    (by decide +kernel) rfl (by decide +kernel) fun it hready => ?_
  obtain ⟨d, hd, -⟩ := hready
  exact not_requestsOf hempty (lookup_eq_some.mp hd).1

theorem status_accepted : (accepted.system.recordStatusMap[5]?).getD ({} : RecordStatus) = {} := by
  decide +kernel

theorem requestMap_accepted (i : UInt16) :
    accepted.system.requestMap[(⟨5, i⟩ : FcgiRequestIdentifier)]? = none := by
  have hempty : accepted.system.requestsOf 5 = [] := by decide +kernel
  by_contra hsome
  obtain ⟨d, hd⟩ := Option.ne_none_iff_exists'.mp hsome
  exact not_requestsOf hempty hd rfl

/-! ## Several calls -/

/-- Calls of `ReadRecords` one after the other, as far as the first one that
reports a request; only the last one may. -/
inductive Feeds (c : Nat) : System → List (List ReadResult) → Bytes → Prop
  | last {s : System} {reads : List ReadResult} {bytes : Bytes} (h : Gives reads bytes) :
      Feeds c s [reads] bytes
  | more {s : System} {reads : List ReadResult} {calls : List (List ReadResult)} {first rest : Bytes}
      (h : Gives reads first) (hnone : (s.receive c first).2 = [])
      (hrest : Feeds c (s.receive c first).1 calls rest) :
      Feeds c s (reads :: calls) (first ++ rest)

/-- The calls, and what the last one of them reports. -/
def readCalls (c : Nat) : List (List ReadResult) → Thread (List Iterator)
  | [] => return []
  | [reads] => readRecords c reads
  | reads :: calls => do
      discard (readRecords c reads)
      readCalls c calls

/-- The bytes of a connection decide what becomes of its requests, however they
come in: in any number of calls, in any chunks and with any iterator left by an
earlier call, nothing throws, and the result is that of the interface as a
function of bytes. -/
theorem readRecords_calls {calls : List (List ReadResult)} {bytes : Bytes}
    (h : (s.reception c).Waiting c) (hcalls : Feeds c s calls bytes) :
    Program.Completes Faultless (fun its t => (t, its) = s.receive c bytes) (readCalls c calls) s := by
  induction hcalls with
  | last hreads => exact completes_readRecords h hreads
  | @more s reads calls first rest hreads hnone hrest ih =>
    have hwaiting : ((s.receive c first).1.reception c).Waiting c := by
      rw [reception_receive hnone]
      exact (h.foldl first).keeping none _
    have hcalls : readCalls c (reads :: calls) =
        discard (readRecords c reads) >>= fun _ => readCalls c calls := by
      cases hrest <;> rfl
    rw [hcalls, receive_append hnone]
    refine Program.completes_bind (Q := fun _ t => t = (s.receive c first).1) ?_ ?_
    · refine Program.completes_bind (completes_readRecords h hreads) fun its t ht => ?_
      exact congrArg Prod.fst ht
    · rintro _ _ rfl
      exact ih hwaiting

/-- A begin record and a part of the next header. -/
def firstBytes : Bytes := populateBeginRequestRecord 1 fcgiAuthorizer true ++ [1, 4, 0]

/-- A request that arrives in two calls, cut inside of its second header: the
calls return, and every run of them ends so. -/
theorem readRecords_calls_accepted :
    (∃ its t, Program.Steps Faultless
      (readCalls 5 [[.drained firstBytes], [.filled [1, 0, 0], .drained [0, 0]]]) accepted.system
      (.ret its) t) ∧
    ∀ its t, Program.Steps Faultless
      (readCalls 5 [[.drained firstBytes], [.filled [1, 0, 0], .drained [0, 0]]]) accepted.system
      (.ret its) t → its = [⟨⟨5, 1⟩, 0⟩] ∧ t.requestsOf 5 = [⟨5, 1⟩] ∧ (t.sockets 0).sent = [] := by
  have hwaiting := waiting_reception serves_accepted status_accepted
  have hnone : (accepted.system.receive 5 firstBytes).2 = [] := by decide +kernel
  have hfeeds : Feeds 5 accepted.system [[.drained firstBytes], [.filled [1, 0, 0], .drained [0, 0]]]
      (firstBytes ++ ([1, 0, 0] ++ [0, 0])) :=
    .more (.drained _ _) hnone (.last (.filled _ (.drained _ _)))
  have hresult : ∀ r, r = accepted.system.receive 5 (firstBytes ++ ([1, 0, 0] ++ [0, 0])) →
      r.2 = [⟨⟨5, 1⟩, 0⟩] ∧ r.1.requestsOf 5 = [⟨5, 1⟩] ∧ (r.1.sockets 0).sent = [] := by
    rintro _ rfl
    decide +kernel
  have hcompletes := readRecords_calls hwaiting hfeeds
  refine ⟨Program.exists_steps_ret hcompletes, fun its t hsteps => ?_⟩
  have hend := Program.completes_ret hcompletes hsteps
  exact hresult (t, its) hend

end AsComponents.Server
