import AsComponents.ReceivedBytes

/-! The interface as a function of the records it receives: a header is judged
once, the content is taken as a whole and padding is skipped. -/

namespace AsComponents.Server

open Protocol NameValue SocketFunctions AsComponents.Partition Std Critical

/-- A record of connection `c`. -/
def System.receiveRecord (s : System) (c : Nat) (r : Record) (its : List Iterator) :
    System × List Iterator :=
  let id : FcgiRequestIdentifier := ⟨c, r.fcgiId⟩
  if r.fcgiId = fcgiNullRequestId then
    (s.respond c none (s.managementResponse r.type r.content).encode, its)
  else if r.type = kFcgiBeginRequest then
    if r.content.length = 8 ∧ s.requestMap[id]? = none then (s.beginRequest c id r.content, its)
    else (s, its)
  else
    match s.requestMap[id]? with
    | none => (s, its)
    | some d =>
        if r.type = kFcgiAbortRequest then
          if r.content = [] ∧ d.clientSetAbort = false then s.abort c id its else (s, its)
        else
          match Stream.ofType r.type with
          | none => (s, its)
          | some st =>
              if d.completion st then (s, its)
              else if r.content = [] then s.endStream c id st its
              else (s.setData id (d.append st r.content), its)

/-- Records of connection `c`, one after the other. -/
def System.receiveRecords (s : System) (c : Nat) (rs : List Record) (its : List Iterator) :
    System × List Iterator :=
  rs.foldl (fun x r => x.1.receiveRecord c r x.2) (s, its)

variable {c : Nat} {s : System} {its : List Iterator}

namespace Reception

variable {x : Reception}

/-! ## The parts of a record -/

theorem Consistent.store_nil (h : Consistent c x) (hheader : x.status.IsHeaderComplete) :
    x.store [] = x := by
  by_cases hinvalid : x.status.invalidatedByHeader = true
  · rw [store_invalid [] hinvalid]
    rfl
  by_cases hb : x.status.Buffered
  · rw [store_buffered [] hinvalid hb]
    simp only [RecordStatus.addContent, List.append_nil]
    rfl
  · obtain ⟨st, d, hst, hd, -, -⟩ := h.stream hheader hinvalid hb
    have hsame : d.append st [] = d := by cases st <;> simp only [RequestData.append, List.append_nil]
    have hmap : x.system.requestMap.insert x.status.requestId d = x.system.requestMap := by
      apply ExtTreeMap.ext_getElem?
      intro id
      rw [ExtTreeMap.getElem?_insert]
      split
      · rename_i he
        obtain rfl := LawfulEqCmp.eq_of_compare he
        exact hd.symm
      · rfl
    rw [store_stream [] hinvalid hb hst hd, hsame, System.setData, hmap]
    rfl

theorem Consistent.foldl_content (h : Consistent c x) {content : Bytes}
    (hbytes : x.status.bytesReceived = fcgiHeaderLen)
    (hcontent : x.status.contentBytesExpected = content.length) :
    content.foldl (Reception.take c) (x.settle c) = (x.store content).settle c := by
  have hheader : ¬ x.status.bytesReceived < fcgiHeaderLen := by omega
  by_cases hnil : content = []
  · rw [hnil, h.store_nil (Nat.not_lt.mp hheader)]
    rfl
  · have hpos : 0 < content.length := List.length_pos_of_ne_nil hnil
    have hinside : x.status.bytesReceived < fcgiHeaderLen + x.status.contentBytesExpected := by omega
    have hremaining : x.status.remaining = content.length := by
      rw [RecordStatus.remaining, if_neg hheader, if_pos hinside]
      omega
    have hmore := not_complete (x := x) (by omega)
    rw [show x.settle c = x from if_neg hmore]
    rw [(show Waiting c x from ⟨h, hmore⟩).foldl_place hnil (by omega)]
    rw [show x.place c content = x.store content from (if_neg hheader).trans (if_pos hinside)]

theorem Consistent.foldl_padding (h : Consistent c x) {padding : Bytes}
    (hbytes : x.status.bytesReceived = fcgiHeaderLen + x.status.contentBytesExpected)
    (hpadding : x.status.paddingBytesExpected = padding.length) :
    padding.foldl (Reception.take c) (x.settle c) =
      ({ x with status := x.status.advance padding.length } : Reception).settle c := by
  have hheader : ¬ x.status.bytesReceived < fcgiHeaderLen := by omega
  by_cases hnil : padding = []
  · rw [hnil]
    rfl
  · have hpos : 0 < padding.length := List.length_pos_of_ne_nil hnil
    have hinside : ¬ x.status.bytesReceived < fcgiHeaderLen + x.status.contentBytesExpected := by omega
    have hremaining : x.status.remaining = padding.length := by
      rw [RecordStatus.remaining, if_neg hheader, if_neg hinside, RecordStatus.expectedBytes]
      omega
    have hmore := not_complete (x := x) (by omega)
    rw [show x.settle c = x from if_neg hmore]
    rw [(show Waiting c x from ⟨h, hmore⟩).foldl_place hnil (by omega)]
    rw [show x.place c padding = { x with status := x.status.advance padding.length } from
      (if_neg hheader).trans (if_neg hinside)]

/-! ## Headers -/

/-- The status of a record whose header was just received. -/
def opened (c : Nat) (r : Record) : RecordStatus where
  header := r.header
  bytesReceived := fcgiHeaderLen
  contentBytesExpected := r.content.length
  paddingBytesExpected := r.padding.length
  type := r.type
  requestId := ⟨c, r.fcgiId⟩

theorem decodeHeader_record (c : Nat) {r : Record} (hr : r.Fits) :
    ((({} : RecordStatus).addHeader r.header).decodeHeader c) = opened c r := by
  have hcontent : headerContentLength r.header = r.content.length :=
    headerContentLength_populateHeader r.type r.fcgiId r.padding.length hr.1
  have hpadding : headerPaddingLength r.header = r.padding.length :=
    headerPaddingLength_populateHeader r.type r.fcgiId r.content.length hr.2
  have hid : headerRequestId r.header = r.fcgiId := headerRequestId_populateHeader _ _ _ _
  have htype : headerType r.header = r.type := headerType_populateHeader _ _ _ _
  unfold RecordStatus.decodeHeader RecordStatus.addHeader RecordStatus.advance opened
  simp only [List.nil_append, hcontent, hpadding, hid, htype]
  rfl

theorem checkHeader_null (s : System) (c : Nat) {r : Record} (hr : r.Fits)
    (hnull : r.fcgiId = fcgiNullRequestId) :
    s.checkHeader c (({} : RecordStatus).addHeader r.header) = opened c r := by
  unfold System.checkHeader
  rw [decodeHeader_record c hr]
  exact if_pos hnull

theorem checkHeader_record (s : System) (c : Nat) {r : Record} (hr : r.Fits)
    (hnull : ¬ r.fcgiId = fcgiNullRequestId) :
    s.checkHeader c (({} : RecordStatus).addHeader r.header) =
      { opened c r with
        invalidatedByHeader := (opened c r).rejectedByType || s.ignores (opened c r) } := by
  unfold System.checkHeader
  rw [decodeHeader_record c hr]
  exact if_neg hnull

/-! ## Whole records -/

theorem checkHeader_valid {r : Record} (hr : r.Fits) (hnull : ¬ r.fcgiId = fcgiNullRequestId)
    (hvalid : ((opened c r).rejectedByType || s.ignores (opened c r)) = false) :
    s.checkHeader c (({} : RecordStatus).addHeader r.header) = opened c r := by
  have hheader := checkHeader_record s c hr hnull
  rw [hvalid] at hheader
  exact hheader

/-- The connection after a whole record with this status and content. -/
def processed (x : Reception) (c : Nat) (padding : Nat) : Reception :=
  let r := x.system.processRecord c (x.status.advance padding) x.completed
  ⟨r.1, {}, r.2⟩

section

variable (hs : s.Serves c its) {r : Record} {rs : RecordStatus}
  (hrs : s.checkHeader c (({} : RecordStatus).addHeader r.header) = rs)

include hs hrs

theorem foldl_header :
    Consistent c ⟨s, rs, its⟩ ∧
      r.header.foldl (Reception.take c) ⟨s, {}, its⟩ = (⟨s, rs, its⟩ : Reception).settle c := by
  have hwaiting := waiting_start hs
  have hplace : (⟨s, {}, its⟩ : Reception).place c r.header = ⟨s, rs, its⟩ := by
    have hshort : (⟨s, {}, its⟩ : Reception).status.bytesReceived < fcgiHeaderLen := Nat.zero_lt_succ 7
    have hwhole : ((⟨s, {}, its⟩ : Reception).status.addHeader r.header).bytesReceived = fcgiHeaderLen :=
      rfl
    rw [place, if_pos hshort, extendHeader_complete hwhole]
    exact congrArg (Reception.mk s · its) hrs
  have hle : r.header.length ≤ (⟨s, {}, its⟩ : Reception).status.remaining := Nat.le_refl 8
  have hne : r.header ≠ [] := List.ne_nil_of_length_pos (Nat.zero_lt_succ 7)
  refine ⟨hplace ▸ hwaiting.consistent_place hle, ?_⟩
  rw [hwaiting.foldl_place hne hle, hplace]

theorem foldl_encode (hbytes : rs.bytesReceived = fcgiHeaderLen)
    (hcontent : rs.contentBytesExpected = r.content.length)
    (hpadding : rs.paddingBytesExpected = r.padding.length) :
    r.encode.foldl (Reception.take c) ⟨s, {}, its⟩ =
      ((⟨s, rs, its⟩ : Reception).store r.content).processed c r.padding.length := by
  obtain ⟨hopened, hheader⟩ := foldl_header hs hrs
  obtain ⟨hstored, hexpected, hpadded⟩ := store_counts ⟨s, rs, its⟩ r.content
  have hreceived : rs.bytesReceived + r.content.length = fcgiHeaderLen + rs.contentBytesExpected := by
    omega
  set y := (⟨s, rs, its⟩ : Reception).store r.content with hy
  have hfull : Consistent c y :=
    hopened.consistent_store (Nat.le_of_eq hbytes.symm) (Nat.le_of_eq hreceived)
  have hcomplete : (y.status.advance r.padding.length).IsRecordComplete := by
    show y.status.paddingBytesExpected + y.status.contentBytesExpected + fcgiHeaderLen =
      y.status.bytesReceived + r.padding.length
    rw [hstored, hexpected, hpadded]
    show rs.paddingBytesExpected + rs.contentBytesExpected + fcgiHeaderLen =
      rs.bytesReceived + r.content.length + r.padding.length
    omega
  rw [Record.encode, List.foldl_append, List.foldl_append, hheader]
  rw [hopened.foldl_content hbytes hcontent,
    hfull.foldl_padding (hstored.trans (hreceived.trans (by rw [hexpected]))) (hpadded.trans hpadding)]
  exact if_pos hcomplete

end

/-! ## What is done with a whole record -/

section Processed

variable {x : Reception} {n : Nat}

theorem processed_management (hnull : x.status.requestId.fcgiId = fcgiNullRequestId) :
    x.processed c n = ⟨x.system.respond c none (x.system.managementResponse x.status.type
      x.status.localRecordContentBuffer).encode, {}, x.completed⟩ := by
  have hprocess : x.system.processRecord c (x.status.advance n) x.completed = _ := if_pos hnull
  rw [processed, hprocess]
  rfl

variable (hnull : ¬ x.status.requestId.fcgiId = fcgiNullRequestId)

include hnull

theorem processed_invalid (h : x.status.invalidatedByHeader = true) :
    x.processed c n = ⟨x.system, {}, x.completed⟩ := by
  have hprocess : x.system.processRecord c (x.status.advance n) x.completed = _ :=
    (if_neg hnull).trans (if_pos h)
  rw [processed, hprocess]

variable (hvalid : ¬ x.status.invalidatedByHeader = true)

include hvalid

theorem processed_begin (h : x.status.type = kFcgiBeginRequest) :
    x.processed c n = ⟨x.system.beginRequest c x.status.requestId x.status.localRecordContentBuffer, {},
      x.completed⟩ := by
  have hprocess : x.system.processRecord c (x.status.advance n) x.completed = _ :=
    (if_neg hnull).trans ((if_neg hvalid).trans (if_pos h))
  rw [processed, hprocess]
  rfl

theorem processed_abort (h : x.status.type = kFcgiAbortRequest) :
    x.processed c n = ⟨(x.system.abort c x.status.requestId x.completed).1, {},
      (x.system.abort c x.status.requestId x.completed).2⟩ := by
  have hbegin : ¬ x.status.type = kFcgiBeginRequest := by
    rw [h]
    decide
  have hprocess : x.system.processRecord c (x.status.advance n) x.completed = _ :=
    (if_neg hnull).trans ((if_neg hvalid).trans ((if_neg hbegin).trans (if_pos h)))
  rw [processed, hprocess]
  rfl

theorem processed_stream {st : Stream} (h : Stream.ofType x.status.type = some st) :
    x.processed c n =
      if x.status.contentBytesExpected = 0 then
        ⟨(x.system.endStream c x.status.requestId st x.completed).1, {},
          (x.system.endStream c x.status.requestId st x.completed).2⟩
      else ⟨x.system, {}, x.completed⟩ := by
  have hbegin : ¬ x.status.type = kFcgiBeginRequest := by
    intro htype
    rw [htype] at h
    cases h
  have habort : ¬ x.status.type = kFcgiAbortRequest := by
    intro htype
    rw [htype] at h
    cases h
  have hprocess : x.system.processRecord c (x.status.advance n) x.completed =
      if x.status.contentBytesExpected = 0 then x.system.endStream c x.status.requestId st x.completed
      else (x.system, x.completed) := by
    refine (if_neg hnull).trans ((if_neg hvalid).trans ((if_neg hbegin).trans ((if_neg habort).trans ?_)))
    rw [show Stream.ofType (x.status.advance n).type = some st from h]
    rfl
  rw [processed, hprocess]
  split <;> rfl

end Processed

end Reception

/-! ## One record -/

section

variable (hs : s.Serves c its) {r : Record} (hr : r.Fits)

include hs hr

open Reception

theorem foldl_management (hnull : r.fcgiId = fcgiNullRequestId) :
    r.encode.foldl (Reception.take c) ⟨s, {}, its⟩ =
      ⟨s.respond c none (s.managementResponse r.type r.content).encode, {}, its⟩ := by
  have hvalid : ¬ (⟨s, opened c r, its⟩ : Reception).status.invalidatedByHeader = true := by
    rintro ⟨⟩
  have hb : (⟨s, opened c r, its⟩ : Reception).status.Buffered := .inl hnull
  rw [foldl_encode hs (checkHeader_null s c hr hnull) rfl rfl rfl, store_buffered _ hvalid hb]
  exact processed_management hnull

variable (hnull : ¬ r.fcgiId = fcgiNullRequestId)

include hnull

/-- A record whose header is rejected or ignored. -/
theorem foldl_invalid
    (h : ((opened c r).rejectedByType || s.ignores (opened c r)) = true) :
    r.encode.foldl (Reception.take c) ⟨s, {}, its⟩ = ⟨s, {}, its⟩ := by
  have hheader := checkHeader_record s c hr hnull
  rw [h] at hheader
  rw [foldl_encode hs hheader rfl rfl rfl, store_invalid _ rfl]
  exact processed_invalid hnull rfl

variable (hvalid : ((opened c r).rejectedByType || s.ignores (opened c r)) = false)

include hvalid

/-- A record whose header is accepted, with its content. -/
theorem foldl_valid : r.encode.foldl (Reception.take c) ⟨s, {}, its⟩ =
    ((⟨s, opened c r, its⟩ : Reception).store r.content).processed c r.padding.length := by
  exact foldl_encode hs (checkHeader_valid hr hnull hvalid) rfl rfl rfl

theorem foldl_begin (htype : r.type = kFcgiBeginRequest) :
    r.encode.foldl (Reception.take c) ⟨s, {}, its⟩ =
      ⟨s.beginRequest c ⟨c, r.fcgiId⟩ r.content, {}, its⟩ := by
  have hb : (⟨s, opened c r, its⟩ : Reception).status.Buffered := .inr (.inl htype)
  rw [foldl_valid hs hr hnull hvalid, store_buffered _ (by rintro ⟨⟩) hb]
  exact processed_begin hnull (by rintro ⟨⟩) htype

theorem foldl_abort (htype : r.type = kFcgiAbortRequest) :
    r.encode.foldl (Reception.take c) ⟨s, {}, its⟩ =
      ⟨(s.abort c ⟨c, r.fcgiId⟩ its).1, {}, (s.abort c ⟨c, r.fcgiId⟩ its).2⟩ := by
  have hb : (⟨s, opened c r, its⟩ : Reception).status.Buffered := .inr (.inr htype)
  rw [foldl_valid hs hr hnull hvalid, store_buffered _ (by rintro ⟨⟩) hb]
  exact processed_abort hnull (by rintro ⟨⟩) htype

theorem foldl_stream {st : Stream} (hst : Stream.ofType r.type = some st) {d : RequestData}
    (hd : s.requestMap[(⟨c, r.fcgiId⟩ : FcgiRequestIdentifier)]? = some d) :
    r.encode.foldl (Reception.take c) ⟨s, {}, its⟩ =
      if r.content = [] then
        ⟨(s.endStream c ⟨c, r.fcgiId⟩ st its).1, {}, (s.endStream c ⟨c, r.fcgiId⟩ st its).2⟩
      else ⟨s.setData ⟨c, r.fcgiId⟩ (d.append st r.content), {}, its⟩ := by
  have hb : ¬ (⟨s, opened c r, its⟩ : Reception).status.Buffered := by
    rintro (h | h | h)
    · exact hnull h
    · rw [show r.type = kFcgiBeginRequest from h] at hst
      cases hst
    · rw [show r.type = kFcgiAbortRequest from h] at hst
      cases hst
  rw [foldl_valid hs hr hnull hvalid]
  by_cases hempty : r.content = []
  · have hopened := (foldl_header hs (checkHeader_valid hr hnull hvalid)).1
    rw [if_pos hempty, hempty, hopened.store_nil (Nat.le_refl 8)]
    refine (processed_stream hnull (by rintro ⟨⟩) hst).trans (if_pos ?_)
    exact List.length_eq_zero_iff.mpr hempty
  · rw [if_neg hempty, store_stream _ (by rintro ⟨⟩) hb hst hd]
    refine (processed_stream hnull (by rintro ⟨⟩) hst).trans (if_neg ?_)
    exact fun h => hempty (List.length_eq_zero_iff.mp h)

omit hvalid hnull in
/-- One record, byte by byte or as a whole. -/
theorem foldl_record :
    r.encode.foldl (Reception.take c) ⟨s, {}, its⟩ =
      ⟨(s.receiveRecord c r its).1, {}, (s.receiveRecord c r its).2⟩ := by
  unfold System.receiveRecord
  dsimp only
  by_cases hnull : r.fcgiId = fcgiNullRequestId
  · rw [if_pos hnull]
    exact foldl_management hs hr hnull
  rw [if_neg hnull]
  by_cases hbegin : r.type = kFcgiBeginRequest
  · rw [if_pos hbegin]
    by_cases hnew : r.content.length = 8 ∧ s.requestMap[(⟨c, r.fcgiId⟩ : FcgiRequestIdentifier)]? = none
    · rw [if_pos hnew]
      refine foldl_begin hs hr hnull ?_ hbegin
      simp [RecordStatus.rejectedByType, System.ignores, opened, hbegin, hnew.1, hnew.2]
    · rw [if_neg hnew]
      refine foldl_invalid hs hr hnull ?_
      by_cases hlength : r.content.length = 8
      · cases hd : s.requestMap[(⟨c, r.fcgiId⟩ : FcgiRequestIdentifier)]? with
        | none => exact absurd ⟨hlength, hd⟩ hnew
        | some d => simp [System.ignores, opened, hbegin, hd]
      · simp [RecordStatus.rejectedByType, opened, hbegin, hlength]
  rw [if_neg hbegin]
  cases hd : s.requestMap[(⟨c, r.fcgiId⟩ : FcgiRequestIdentifier)]? with
  | none =>
    refine foldl_invalid hs hr hnull ?_
    simp [System.ignores, opened, hbegin, hd]
  | some d =>
    dsimp only
    by_cases habort : r.type = kFcgiAbortRequest
    · have htypes : kFcgiAbortRequest ≠ kFcgiBeginRequest := by decide
      rw [if_pos habort]
      by_cases hopen : r.content = [] ∧ d.clientSetAbort = false
      · rw [if_pos hopen]
        refine foldl_abort hs hr hnull ?_ habort
        simp [RecordStatus.rejectedByType, System.ignores, opened, habort, htypes, hopen.1, hopen.2, hd]
      · rw [if_neg hopen]
        refine foldl_invalid hs hr hnull ?_
        by_cases hempty : r.content = []
        · have haborted : d.clientSetAbort = true := by simpa [hempty] using hopen
          simp [System.ignores, opened, habort, htypes, hd, haborted]
        · simp [RecordStatus.rejectedByType, opened, habort, htypes, hempty]
    · rw [if_neg habort]
      cases hst : Stream.ofType r.type with
      | none =>
        refine foldl_invalid hs hr hnull ?_
        simp [RecordStatus.rejectedByType, opened, hbegin, habort, hst]
      | some st =>
        dsimp only
        by_cases hcompleted : d.completion st = true
        · rw [if_pos hcompleted]
          refine foldl_invalid hs hr hnull ?_
          simp [System.ignores, opened, hbegin, habort, hst, hd, hcompleted]
        · rw [if_neg hcompleted, foldl_stream hs hr hnull ?_ hst hd]
          · split <;> rfl
          · simp [RecordStatus.rejectedByType, System.ignores, opened, hbegin, habort, hst, hd,
              hcompleted]

end

theorem serves_receiveRecord (hs : s.Serves c its) {r : Record} (hr : r.Fits) :
    (s.receiveRecord c r its).1.Serves c (s.receiveRecord c r its).2 := by
  have hwaiting := (Reception.waiting_start hs).foldl r.encode
  rw [foldl_record hs hr] at hwaiting
  exact hwaiting.serves

/-! ## Records one after the other -/

theorem receiveRecords_cons (r : Record) (rs : List Record) :
    s.receiveRecords c (r :: rs) its =
      (s.receiveRecord c r its).1.receiveRecords c rs (s.receiveRecord c r its).2 := rfl

theorem foldl_records (hs : s.Serves c its) {rs : List Record} (hrs : ∀ r ∈ rs, r.Fits) :
    (encodeRecords rs).foldl (Reception.take c) ⟨s, {}, its⟩ =
      ⟨(s.receiveRecords c rs its).1, {}, (s.receiveRecords c rs its).2⟩ := by
  induction rs generalizing s its with
  | nil => rfl
  | cons r rs ih =>
    have hr : r.Fits := hrs r List.mem_cons_self
    rw [encodeRecords_cons, List.foldl_append, foldl_record hs hr, receiveRecords_cons]
    exact ih (serves_receiveRecord hs hr) fun r' hr' => hrs r' (List.mem_cons_of_mem r hr')

theorem serves_receiveRecords (hs : s.Serves c its) {rs : List Record} (hrs : ∀ r ∈ rs, r.Fits) :
    (s.receiveRecords c rs its).1.Serves c (s.receiveRecords c rs its).2 := by
  induction rs generalizing s its with
  | nil => exact hs
  | cons r rs ih =>
    exact ih (serves_receiveRecord hs (hrs r List.mem_cons_self))
      fun r' hr' => hrs r' (List.mem_cons_of_mem r hr')

/-! ## Records that are not complete -/

namespace Reception

variable {x : Reception}

theorem sockets_place (x : Reception) (c : Nat) (bytes : Bytes) :
    (x.place c bytes).system.sockets = x.system.sockets := by
  unfold place
  split_ifs
  · rfl
  · unfold store
    dsimp only
    split_ifs
    · rfl
    · rfl
    · split <;> rfl
  · rfl

theorem place_counts (hheader : x.status.IsHeaderComplete) (bytes : Bytes) :
    (x.place c bytes).status.bytesReceived = x.status.bytesReceived + bytes.length ∧
      (x.place c bytes).status.expectedBytes = x.status.expectedBytes := by
  obtain ⟨hbytes, hcontent, hpadding⟩ := store_counts x bytes
  unfold place
  rw [if_neg (Nat.not_lt.mpr hheader)]
  split
  · exact ⟨hbytes, by rw [RecordStatus.expectedBytes, hcontent, hpadding]; rfl⟩
  · exact ⟨rfl, rfl⟩

/-- Nothing is reported or sent before the last byte of a record. -/
theorem Waiting.foldl_unfinished (h : Waiting c x) (hheader : x.status.IsHeaderComplete) {bytes : Bytes}
    (hlt : x.status.bytesReceived + bytes.length < x.status.expectedBytes) :
    (bytes.foldl (Reception.take c) x).completed = x.completed ∧
      (bytes.foldl (Reception.take c) x).system.sockets = x.system.sockets := by
  induction bytes generalizing x with
  | nil => exact ⟨rfl, rfl⟩
  | cons b bytes ih =>
    rw [List.length_cons] at hlt
    obtain ⟨hbytes, hexpected⟩ := place_counts (c := c) hheader [b]
    rw [List.length_singleton] at hbytes
    have hmore : ¬ (x.place c [b]).status.IsRecordComplete := by
      unfold RecordStatus.IsRecordComplete
      omega
    have htake : x.take c b = x.place c [b] := if_neg hmore
    have hheader' : (x.place c [b]).status.IsHeaderComplete := by
      unfold RecordStatus.IsHeaderComplete at hheader ⊢
      omega
    have hwaiting : Waiting c (x.place c [b]) := htake ▸ h.take b
    rw [List.foldl_cons, htake, ← completed_place x c [b], ← sockets_place x c [b]]
    exact ih hwaiting hheader' (by omega)

end Reception

theorem foldl_header_unfinished (hs : s.Serves c its) {bytes : Bytes} (hlt : bytes.length < 8) :
    (bytes.foldl (Reception.take c) ⟨s, {}, its⟩).completed = its ∧
      (bytes.foldl (Reception.take c) ⟨s, {}, its⟩).system.sockets = s.sockets := by
  by_cases hne : bytes = []
  · rw [hne]
    exact ⟨rfl, rfl⟩
  have hwaiting := Reception.waiting_start hs
  set x : Reception := ⟨s, {}, its⟩ with hx
  have hremaining : x.status.remaining = 8 := rfl
  have hshort : x.status.bytesReceived < fcgiHeaderLen := Nat.zero_lt_succ 7
  have hreceived : (x.status.addHeader bytes).bytesReceived = bytes.length := Nat.zero_add _
  have hplace : x.place c bytes = { x with status := x.status.addHeader bytes } := by
    rw [Reception.place, if_pos hshort, Reception.extendHeader_part]
    rw [hreceived]
    exact Nat.ne_of_lt hlt
  have hmore : ¬ (x.place c bytes).status.IsRecordComplete := by
    rw [hplace]
    unfold RecordStatus.IsRecordComplete RecordStatus.expectedBytes
    rw [hreceived, fcgiHeaderLen]
    omega
  rw [hwaiting.foldl_place hne (by omega), Reception.settle, if_neg hmore, hplace]
  exact ⟨rfl, rfl⟩

/-- A part of a record. -/
theorem foldl_unfinished (hs : s.Serves c its) {r : Record} (hr : r.Fits) {bytes : Bytes}
    (hpart : bytes <+: r.encode) (hne : bytes ≠ r.encode) :
    (bytes.foldl (Reception.take c) ⟨s, {}, its⟩).completed = its ∧
      (bytes.foldl (Reception.take c) ⟨s, {}, its⟩).system.sockets = s.sockets := by
  by_cases hlt : bytes.length < 8
  · exact foldl_header_unfinished hs hlt
  have hheader : r.header <+: r.encode := by
    rw [Record.encode, List.append_assoc]
    exact List.prefix_append _ _
  obtain ⟨rest, rfl⟩ := List.prefix_of_prefix_length_le hheader hpart (Nat.not_lt.mp hlt)
  have hshorter : (r.header ++ rest).length < r.encode.length :=
    Nat.lt_of_le_of_ne hpart.length_le fun h => hne (hpart.eq_of_length h)
  have hlength : rest.length < r.content.length + r.padding.length := by
    rw [Record.encode, List.append_assoc, List.length_append, List.length_append,
      List.length_append] at hshorter
    omega
  obtain ⟨rs, hrs, hbytes, hexpected⟩ : ∃ rs, s.checkHeader c (({} : RecordStatus).addHeader r.header) = rs ∧
      rs.bytesReceived = fcgiHeaderLen ∧
      rs.expectedBytes = r.padding.length + r.content.length + fcgiHeaderLen := by
    by_cases hnull : r.fcgiId = fcgiNullRequestId
    · exact ⟨_, Reception.checkHeader_null s c hr hnull, rfl, rfl⟩
    · exact ⟨_, Reception.checkHeader_record s c hr hnull, rfl, rfl⟩
  obtain ⟨hconsistent, hfold⟩ := Reception.foldl_header hs hrs
  have hmore : ¬ rs.IsRecordComplete := by
    unfold RecordStatus.IsRecordComplete
    omega
  rw [List.foldl_append, hfold, Reception.settle, if_neg hmore]
  exact Reception.Waiting.foldl_unfinished (x := ⟨s, rs, its⟩) ⟨hconsistent, hmore⟩ (Nat.le_of_eq hbytes.symm)
    (show rs.bytesReceived + rest.length < rs.expectedBytes by omega)

/-! ## Calls that receive whole records -/

theorem receiveRecord_keeping (s : System) (c : Nat) (it : Option Iterator)
    (statuses : ExtTreeMap Nat RecordStatus) (its : List Iterator) (r : Record) :
    (s.keeping it statuses).receiveRecord c r its =
      ((s.receiveRecord c r its).1.keeping it statuses, (s.receiveRecord c r its).2) := by
  unfold System.receiveRecord
  dsimp only
  rw [show (s.keeping it statuses).requestMap = s.requestMap from rfl]
  split
  · exact congrArg (·, its) (respond_keeping s c it statuses none _)
  split
  · split
    · exact congrArg (·, its) (beginRequest_keeping s c it statuses _ _)
    · rfl
  split
  · rfl
  split
  · split
    · exact abort_keeping s c it statuses _ _
    · rfl
  split
  · rfl
  split
  · rfl
  split
  · exact endStream_keeping s c it statuses _ _ _
  · rfl

theorem receiveRecords_keeping (s : System) (c : Nat) (it : Option Iterator)
    (statuses : ExtTreeMap Nat RecordStatus) (its : List Iterator) (rs : List Record) :
    (s.keeping it statuses).receiveRecords c rs its =
      ((s.receiveRecords c rs its).1.keeping it statuses, (s.receiveRecords c rs its).2) := by
  induction rs generalizing s its with
  | nil => rfl
  | cons r rs ih =>
    rw [receiveRecords_cons, receiveRecord_keeping, receiveRecords_cons]
    exact ih _ _

/-- The bytes of records, with the start of one more. -/
theorem foldl_receiveRecords (hs : s.Serves c []) {rs : List Record} (hrs : ∀ r ∈ rs, r.Fits)
    (hstatus : (s.recordStatusMap[c]?).getD {} = {}) (bytes : Bytes) :
    (encodeRecords rs ++ bytes).foldl (Reception.take c) (s.reception c) =
      (bytes.foldl (Reception.take c)
        ⟨(s.receiveRecords c rs []).1, {}, (s.receiveRecords c rs []).2⟩).keeping none
          s.recordStatusMap := by
  have hstart : s.reception c = ⟨s.keeping none s.recordStatusMap, {}, []⟩ := by
    rw [System.reception, hstatus]
    rfl
  rw [hstart, List.foldl_append, foldl_records (hs.keeping none _) hrs, receiveRecords_keeping,
    ← Reception.foldl_keeping]
  rfl

/-- A call of `ReadRecords` that receives whole records, in any chunks, checks
each header once and completes each record once, in the order of the records. -/
theorem completes_records {reads : List ReadResult} {rs : List Record} (hs : s.Serves c [])
    (hstatus : (s.recordStatusMap[c]?).getD {} = {}) (hrs : ∀ r ∈ rs, r.Fits)
    (hreads : Gives reads (encodeRecords rs)) :
    Program.Completes Faultless (fun its t =>
        its = (s.receiveRecords c rs []).2 ∧
        t = (s.receiveRecords c rs []).1.keeping none (s.recordStatusMap.insert c {}))
      (readRecords c reads) s := by
  refine Program.completes_mono ?_ (completes_readRecords (waiting_reception hs hstatus) hreads)
  intro its t h
  have hfold := foldl_receiveRecords hs hrs hstatus []
  rw [List.append_nil] at hfold
  rw [receive_eq, hfold] at h
  obtain ⟨rfl, rfl⟩ := Prod.mk.inj h
  exact ⟨rfl, rfl⟩

end AsComponents.Server
