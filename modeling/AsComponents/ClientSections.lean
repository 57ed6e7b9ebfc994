import AsComponents.ClientReference

/-! The content, the padding and the completion of a record, by the code and by
the reference. -/

namespace AsComponents.Client

open Protocol NameValue SocketFunctions AsComponents.Partition Std Critical TestFcgiClientInterface

/-! ## The request of a record -/

/-- The records that are processed with a request. -/
def RecordState.NeedsRequest (r : RecordState) : Prop :=
  r.invalidated = false ∧
    (r.type = kFcgiEndRequest ∨ r.type = kFcgiStderr ∨ r.type = kFcgiStdout)

instance (r : RecordState) : Decidable r.NeedsRequest := inferInstanceAs (Decidable (_ ∧ _))

/-- The iterator refers to the request of the record, when there has to be
one. -/
def Serves (c : Nat) (it : Option FcgiRequestIdentifier) (r : RecordState) : Prop :=
  r.NeedsRequest → it = some ⟨c, r.fcgiId⟩

section

variable {s t : TestFcgiClientInterface} {c : Nat} {e : ConnectionState} {r : RecordState}
  {queue : List ManagementRequestData} {it : Option FcgiRequestIdentifier}

theorem isStream_iff : r.isStream = true ↔
    r.invalidated = false ∧ (r.type = kFcgiStdout ∨ r.type = kFcgiStderr) := by
  simp [RecordState.isStream]

theorem needsRequest_of_isStream (h : r.isStream = true) : r.NeedsRequest := by
  obtain ⟨hvalid, htype⟩ := isStream_iff.mp h
  exact ⟨hvalid, .inr htype.symm⟩

theorem Announced.pending (h : Announced s c queue r) (hneeds : r.NeedsRequest) :
    ⟨c, r.fcgiId⟩ ∈ s.pendingRequestMap := by
  obtain ⟨hvalid, htype⟩ := hneeds
  cases h.accepted hvalid with
  | endRequest _ _ hid => exact hid
  | stream _ hid => exact hid
  | getValuesResult hvalues _ _ =>
    rw [hvalues] at htype
    exact absurd htype (by decide)
  | unknownType hunknown _ _ _ =>
    rw [hunknown] at htype
    exact absurd htype (by decide)

/-- The iterator that a search gives. -/
theorem Announced.serves_find (h : Announced s c queue r) : Serves c (s.find ⟨c, r.fcgiId⟩) r :=
  fun hneeds => find_eq_some (h.pending hneeds)

theorem validIterator_find (s : TestFcgiClientInterface) (id : FcgiRequestIdentifier) :
    ValidIterator s (s.find id) := by
  intro i hi
  by_cases hid : id ∈ s.pendingRequestMap
  · rw [find_eq_some hid] at hi
    cases hi
    exact hid
  · rw [find_eq_none hid] at hi
    cases hi

theorem validIterator_some {id : FcgiRequestIdentifier} (hid : id ∈ s.pendingRequestMap) :
    ValidIterator s (some id) := fun i hi => by
  cases hi
  exact hid

/-- The test of the code for a record of a stream. -/
theorem storesWithRequest_iff (h : Receiving c s e) (ha : Announced s c queue r) :
    (r.invalidated = false ∧ r.fcgiId ≠ fcgiNullRequestId ∧ r.type ≠ kFcgiEndRequest) ↔
      r.isStream = true := by
  constructor
  · rintro ⟨hvalid, hid, hend⟩
    cases ha.accepted hvalid with
    | endRequest htype _ _ => exact absurd htype hend
    | stream htype _ => exact isStream_iff.mpr ⟨hvalid, htype⟩
    | getValuesResult _ hnull _ => exact absurd hnull hid
    | unknownType _ hnull _ _ => exact absurd hnull hid
  · intro hstream
    obtain ⟨hvalid, htype⟩ := isStream_iff.mp hstream
    have hpending := ha.pending (needsRequest_of_isStream hstream)
    refine ⟨hvalid, h.identified _ hpending, fun hend => ?_⟩
    rw [hend] at htype
    exact absurd htype (by decide)

/-! ## Content -/

theorem Announced.addContent (h : Announced s c queue r) {bytes : Bytes}
    (hlength : r.contentBytesReceived + bytes.length ≤ r.contentBytesExpected) :
    Announced s c queue (r.addContent bytes) where
  header := h.header
  content := hlength
  padding := h.padding
  order hpadding := by
    have hall := h.order hpadding
    simp only [RecordState.addContent]
    omega
  accepted hvalid := by
    cases h.accepted hvalid with
    | endRequest htype hcontent hid => exact .endRequest htype hcontent hid
    | stream htype hid => exact .stream htype hid
    | getValuesResult htype hid hne => exact .getValuesResult htype hid hne
    | unknownType htype hid hcontent hne => exact .unknownType htype hid hcontent hne
  buffered hvalid hstdout hstderr := by
    have hstream : ¬ r.isStream = true := fun hs =>
      (isStream_iff.mp hs).2.elim hstdout hstderr
    simp only [RecordState.addContent, if_neg hstream, List.length_append,
      h.buffered hvalid hstdout hstderr]

/-- The state in which content of a stream was stored. -/
def TestFcgiClientInterface.withStream (s : TestFcgiClientInterface) (c : Nat) (e : ConnectionState)
    (d : RequestData) (bytes : Bytes) : TestFcgiClientInterface :=
  (s.setPending ⟨c, e.recordState.fcgiId⟩ (d.append e.recordState.type bytes)).setConnection c
    { e with recordState := e.recordState.addContent bytes }

theorem ok_takeContent_stream {d : RequestData} (he : s.connectionMap[c]? = some e)
    (hstream : e.recordState.isStream = true)
    (hd : s.pendingRequestMap[(⟨c, e.recordState.fcgiId⟩ : FcgiRequestIdentifier)]? = some d)
    (bytes : Bytes) : takeContent c bytes s = some (.ok ⟨⟩, s.withStream c e d bytes) := by
  have hid : ⟨c, e.recordState.fcgiId⟩ ∈ s.pendingRequestMap :=
    ExtTreeMap.mem_iff_isSome_getElem?.mpr (by simp [hd])
  have happend : appendStream c e.recordState bytes s = some (.ok ⟨⟩,
      s.setPending ⟨c, e.recordState.fcgiId⟩ (d.append e.recordState.type bytes)) := by
    rw [appendStream, if_pos hstream, get_bind, find_eq_some hid, ok_bind (ok_requestData hd)]
    rfl
  have hentry : (s.setPending ⟨c, e.recordState.fcgiId⟩
      (d.append e.recordState.type bytes)).connectionMap[c]? = some e := he
  rw [takeContent, ok_bind (ok_currentRecord he), ok_bind happend]
  exact ok_setRecordState hentry

theorem ok_takeContent_buffer (he : s.connectionMap[c]? = some e)
    (hstream : ¬ e.recordState.isStream = true) (bytes : Bytes) :
    takeContent c bytes s = some (.ok ⟨⟩,
      s.setConnection c { e with recordState := e.recordState.addContent bytes }) := by
  have happend : appendStream c e.recordState bytes s = some (.ok ⟨⟩, s) := by
    rw [appendStream, if_neg hstream]
    rfl
  rw [takeContent, ok_bind (ok_currentRecord he), ok_bind happend, ok_setRecordState he]

/-- The iterator is refreshed for an end record. -/
theorem ok_refreshIf {needed : Bool} (it : Option FcgiRequestIdentifier)
    (hit : ValidIterator s it)
    (hpending : needed = true → ⟨c, r.fcgiId⟩ ∈ s.pendingRequestMap) :
    refreshIf needed it ⟨c, r.fcgiId⟩ s =
      some (.ok (if needed then some ⟨c, r.fcgiId⟩ else it), s) := by
  cases needed with
  | true =>
    rw [refreshIf, if_pos rfl, ok_pendingIterCheckAndUpdate hit (hpending rfl)]
    rfl
  | false => rfl

/-- The content was stored but is not counted yet. -/
structure Stored (c : Nat) (e : ConnectionState) (bytes : Bytes) (t u : TestFcgiClientInterface)
    (f : ConnectionState) : Prop where
  entry : u.connectionMap[c]? = some f
  record : f.recordState =
    { e.recordState with localBuffer := (e.recordState.addContent bytes).localBuffer }
  counted : u.setConnection c { f with recordState := e.recordState.addContent bytes } = t

/-- Content is stored by the code as by the reference. -/
theorem content_taken (bytes : Bytes) (h : Receiving c s e)
    (ha : Announced s c e.managementQueue e.recordState)

    (hlength : e.recordState.contentBytesReceived + bytes.length ≤
      e.recordState.contentBytesExpected) :
    ∃ t, takeContent c bytes s = some (.ok ⟨⟩, t) ∧
      Receiving c t { e with recordState := e.recordState.addContent bytes } ∧
      Announced t c e.managementQueue (e.recordState.addContent bytes) ∧
      ∀ it, ValidIterator s it → ∃ it' u f,
        storeContent c it e.recordState bytes s = some (.ok it', u) ∧ Stored c e bytes t u f ∧
          ValidIterator t it' ∧ Serves c it' (e.recordState.addContent bytes) := by
  have ha' := ha.addContent hlength
  by_cases hstream : e.recordState.isStream = true
  · have hid := ha.pending (needsRequest_of_isStream hstream)
    obtain ⟨d, hd⟩ := Option.isSome_iff_exists.mp (ExtTreeMap.mem_iff_isSome_getElem?.mp hid)
    have hreceiving : Receiving c (s.withStream c e d bytes)
        { e with recordState := e.recordState.addContent bytes } := (h.setPending hid).setRecord _
    have hkeys : ∀ i, i ∈ s.pendingRequestMap → i ∈ (s.withStream c e d bytes).pendingRequestMap :=
      fun i => (Receiving.mem_setPending hid i).mpr
    refine ⟨_, ok_takeContent_stream h.entry hstream hd bytes, hreceiving,
      ha'.mono id fun i => hkeys ⟨c, i⟩, fun it hit => ?_⟩
    have hstore : storeContent c it e.recordState bytes s = some (.ok (some ⟨c, e.recordState.fcgiId⟩),
        s.setPending ⟨c, e.recordState.fcgiId⟩ (d.append e.recordState.type bytes)) := by
      rw [storeContent, if_pos ((storesWithRequest_iff h ha).mpr hstream),
        ok_bind (ok_pendingIterCheckAndUpdate hit hid), ok_bind (ok_requestData hd)]
      rfl
    have hbuffer : (e.recordState.addContent bytes).localBuffer = e.recordState.localBuffer :=
      if_pos hstream
    refine ⟨_, _, e, hstore, ⟨h.entry, by rw [hbuffer], rfl⟩, validIterator_some (hkeys _ hid),
      fun _ => rfl⟩
  · refine ⟨_, ok_takeContent_buffer h.entry hstream bytes, h.setRecord _, ha'.mono id fun _ => id,
      fun it hit => ?_⟩
    set needed : Bool := decide (e.recordState.type = kFcgiEndRequest ∧
      e.recordState.invalidated = false) with hneeded
    have hpending : needed = true → ⟨c, e.recordState.fcgiId⟩ ∈ s.pendingRequestMap := fun htrue =>
      ha.pending ⟨(of_decide_eq_true htrue).2, .inl (of_decide_eq_true htrue).1⟩
    set it' : Option FcgiRequestIdentifier :=
      if needed then some ⟨c, e.recordState.fcgiId⟩ else it with hit'
    set r' : RecordState := { e.recordState with localBuffer := e.recordState.localBuffer ++ bytes }
    have hstore : storeContent c it e.recordState bytes s =
        some (.ok it', s.setConnection c { e with recordState := r' }) := by
      rw [storeContent, if_neg (fun hcode => hstream ((storesWithRequest_iff h ha).mp hcode)),
        ok_bind (ok_refreshIf _ hit hpending), ok_bind (ok_setRecordState h.entry)]
      rfl
    have hbuffer : (e.recordState.addContent bytes).localBuffer =
        e.recordState.localBuffer ++ bytes := if_neg hstream
    refine ⟨it', _, _, hstore, ⟨(h.setRecord r').entry, by rw [hbuffer],
      setConnection_setConnection _ _ _ _⟩, ?_, fun hneeds => ?_⟩
    · rw [hit']
      split
      · exact validIterator_some (hpending ‹_›)
      · exact hit
    · obtain ⟨hvalid, htype⟩ := hneeds
      have hend : e.recordState.type = kFcgiEndRequest := by
        rcases htype with htype | htype | htype
        · exact htype
        · exact absurd (isStream_iff.mpr ⟨hvalid, .inr htype⟩) hstream
        · exact absurd (isStream_iff.mpr ⟨hvalid, .inl htype⟩) hstream
      rw [hit', if_pos (decide_eq_true ⟨hend, hvalid⟩)]
      rfl

/-! ## Padding -/

theorem Announced.addPadding (h : Announced s c queue r) {bytes : Bytes}
    (hcontent : r.contentBytesReceived = r.contentBytesExpected)
    (hlength : r.paddingBytesReceived + bytes.length ≤ r.paddingBytesExpected) :
    Announced s c queue (r.addPadding bytes) where
  header := h.header
  content := h.content
  padding := hlength
  order _ := hcontent
  accepted hvalid := by
    cases h.accepted hvalid with
    | endRequest htype hcontent hid => exact .endRequest htype hcontent hid
    | stream htype hid => exact .stream htype hid
    | getValuesResult htype hid hne => exact .getValuesResult htype hid hne
    | unknownType htype hid hcontent hne => exact .unknownType htype hid hcontent hne
  buffered := h.buffered

theorem ok_takePadding (he : s.connectionMap[c]? = some e) (bytes : Bytes) :
    takePadding c bytes s = some (.ok ⟨⟩,
      s.setConnection c { e with recordState := e.recordState.addPadding bytes }) := by
  rw [takePadding, ok_bind (ok_currentRecord he), ok_setRecordState he]

/-- No bytes change nothing. -/
theorem ok_takePadding_nil (he : s.connectionMap[c]? = some e) :
    takePadding c [] s = some (.ok ⟨⟩, s) := by
  rw [ok_takePadding he]
  exact congrArg (fun t => some (Except.ok PUnit.unit, t)) (setConnection_self he)

theorem setPending_self {id : FcgiRequestIdentifier} {d : RequestData}
    (hd : s.pendingRequestMap[id]? = some d) : s.setPending id d = s := by
  have hmap : s.pendingRequestMap.insert id d = s.pendingRequestMap := by
    refine ExtTreeMap.ext_getElem? fun i => ?_
    rw [ExtTreeMap.getElem?_insert]
    split
    · rename_i hi
      rw [← Std.LawfulEqCmp.eq_of_compare hi, hd]
    · rfl
  rw [setPending, hmap]

theorem ok_takeContent_nil (he : s.connectionMap[c]? = some e)
    (ha : Announced s c e.managementQueue e.recordState) :
    takeContent c [] s = some (.ok ⟨⟩, s) := by
  have hrecord : e.recordState.addContent [] = e.recordState := by
    simp [RecordState.addContent]
  have hentry : s.setConnection c { e with recordState := e.recordState.addContent [] } = s := by
    rw [hrecord]
    exact setConnection_self he
  by_cases hstream : e.recordState.isStream = true
  · have hid := ha.pending (needsRequest_of_isStream hstream)
    obtain ⟨d, hd⟩ := Option.isSome_iff_exists.mp (ExtTreeMap.mem_iff_isSome_getElem?.mp hid)
    have hrequest : d.append e.recordState.type [] = d := by
      simp [RequestData.append]
    rw [ok_takeContent_stream he hstream hd, withStream, hrequest, setPending_self hd, hentry]
  · rw [ok_takeContent_buffer he hstream, hentry]

/-! ## Complete records -/

/-- A record is processed, the same way with every iterator that serves it. -/
def Processes (c : Nat) (s t : TestFcgiClientInterface) (r : RecordState)
    (x : Option FcgiRequestIdentifier → Operation (Option FcgiRequestIdentifier)) : Prop :=
  ∀ it, ValidIterator s it → Serves c it r →
    ∃ it', x it s = some (.ok it', t) ∧ ValidIterator t it'

/-- The event that tells an invalid record. -/
def RecordState.invalidEvent (c : Nat) (r : RecordState) : ServerEvent :=
  .invalidRecord (r.header.headD 0) r.type ⟨c, r.fcgiId⟩ r.localBuffer r.paddingBytesExpected

theorem processes_generateInvalidRecord (h : Receiving c s e) :
    Processes c s (s.pushEvent (e.recordState.invalidEvent c)) r fun it => do
      generateInvalidRecord c
      return it := by
  intro it hit _
  have hevent : generateInvalidRecord c s =
      some (.ok ⟨⟩, s.pushEvent (e.recordState.invalidEvent c)) := by
    rw [generateInvalidRecord, ok_bind (ok_connectionState h.entry)]
    rfl
  exact ⟨it, ok_bind hevent, hit⟩

/-- The content of a valid end record has eight bytes. -/
theorem exists_eq_cons_of_length {content : Bytes} (h : content.length = 8) :
    ∃ b₃ b₂ b₁ b₀ lps rest, content = b₃ :: b₂ :: b₁ :: b₀ :: lps :: rest := by
  rcases content with _ | ⟨b₃, _ | ⟨b₂, _ | ⟨b₁, _ | ⟨b₀, _ | ⟨lps, rest⟩⟩⟩⟩⟩
  · simp at h
  · simp at h
  · simp at h
  · simp at h
  · simp at h
  · exact ⟨b₃, b₂, b₁, b₀, lps, rest, rfl⟩

/-- The request of an end record moves to the completed ones. -/
theorem Receiving.complete (h : Receiving c s e) (id : FcgiRequestIdentifier)
    (hdescriptor : id.descriptor = c) :
    Receiving c { s with
      completedRequestSet := s.completedRequestSet.insert id
      pendingRequestMap := s.pendingRequestMap.erase id } e := by
  refine h.of_kept h.entry h.connected (fun _ _ => rfl)
    (fun i hi => (ExtTreeMap.mem_erase.mp hi).2) (fun i hi hmem => ?_) fun i hi => ?_
  · refine ExtTreeMap.mem_erase.mpr ⟨fun heq => hi ?_, hmem⟩
    rw [← Std.LawfulEqCmp.eq_of_compare heq, hdescriptor]
  · rcases ExtTreeSet.mem_insert.mp hi with heq | hi
    · refine .inr fun hmem => (ExtTreeMap.mem_erase.mp hmem).1 heq
    · exact .inl hi

theorem processes_endRequest (h : Receiving c s e)
    (ha : Announced s c e.managementQueue e.recordState)
    (hcomplete : e.recordState.Complete) (hvalid : e.recordState.invalidated = false)
    (htype : e.recordState.type = kFcgiEndRequest) (hcontent : e.recordState.contentBytesExpected = 8) :
    ∃ t, Receiving c t e ∧ Processes c s t e.recordState fun it =>
      processEndRequest c it e.recordState.localBuffer := by
  have hlength : e.recordState.localBuffer.length = 8 := by
    rw [ha.buffered hvalid (by rw [htype]; decide) (by rw [htype]; decide), hcomplete.1, hcontent]
  obtain ⟨b₃, b₂, b₁, b₀, lps, rest, hbuffer⟩ := exists_eq_cons_of_length hlength
  have hneeds : e.recordState.NeedsRequest := ⟨hvalid, .inl htype⟩
  have hid := ha.pending hneeds
  obtain ⟨d, hd⟩ := Option.isSome_iff_exists.mp (ExtTreeMap.mem_iff_isSome_getElem?.mp hid)
  by_cases hstatus : lps ≠ fcgiRequestComplete ∧ lps ≠ fcgiCantMpxConn ∧ lps ≠ fcgiOverloaded ∧
      lps ≠ fcgiUnknownRole
  · refine ⟨_, h.pushEvent (e.recordState.invalidEvent c), fun it hit hserves => ?_⟩
    obtain ⟨it', hevent, hit'⟩ := processes_generateInvalidRecord h it hit hserves
    refine ⟨it', ?_, hit'⟩
    beta_reduce
    rw [hbuffer, processEndRequest.eq_def]
    exact (congrFun (if_pos hstatus) s).trans hevent
  · have hnew : ¬ s.completedRequestSet.contains ⟨c, e.recordState.fcgiId⟩ = true := fun hmem =>
      h.disjoint _ (ExtTreeSet.contains_iff_mem.mp hmem) hid
    refine ⟨_, (h.complete ⟨c, e.recordState.fcgiId⟩ rfl).pushEvent
      (.fcgiResponse (appStatusOf b₃ b₂ b₁ b₀) d.fcgiStderr d.fcgiStdout lps d.request
        ⟨c, e.recordState.fcgiId⟩), fun it hit hserves => ⟨none, ?_, validIterator_none _⟩⟩
    obtain rfl := hserves hneeds
    beta_reduce
    rw [hbuffer, processEndRequest.eq_def]
    refine (congrFun (if_neg hstatus) s).trans ?_
    rw [ok_bind (ok_requestData hd)]
    exact congrFun (if_neg hnew) s

/-- The end of a stream. -/
theorem processes_stream (h : Receiving c s e)
    (ha : Announced s c e.managementQueue e.recordState) (hneeds : e.recordState.NeedsRequest)
    (f : RequestData → RequestData) :
    ∃ t, Receiving c t e ∧ Processes c s t e.recordState fun it => do
      if e.recordState.contentBytesExpected = 0 then
        let (id, d) ← requestData it
        modify (·.setPending id (f d))
      return it := by
  have hid := ha.pending hneeds
  obtain ⟨d, hd⟩ := Option.isSome_iff_exists.mp (ExtTreeMap.mem_iff_isSome_getElem?.mp hid)
  by_cases hempty : e.recordState.contentBytesExpected = 0
  · refine ⟨_, h.setPending (d := f d) hid, fun it hit hserves => ⟨it, ?_, fun i hi => ?_⟩⟩
    · obtain rfl := hserves hneeds
      beta_reduce
      rw [if_pos hempty, ok_bind (ok_requestData hd)]
      rfl
    · exact (Receiving.mem_setPending hid i).mpr (hit i hi)
  · refine ⟨s, h, fun it hit _ => ⟨it, ?_, hit⟩⟩
    beta_reduce
    rw [if_neg hempty]
    rfl

/-- The front of a management queue. -/
theorem exists_popManagementQueue (h : Receiving c s e) (hqueue : e.managementQueue ≠ []) :
    ∃ q t f, popManagementQueue c s = some (.ok q, t) ∧ Receiving c t f ∧
      t.pendingRequestMap = s.pendingRequestMap := by
  obtain ⟨q, queue, hcons⟩ := List.exists_cons_of_ne_nil hqueue
  have hpopped : Receiving c (s.setConnection c { e with managementQueue := queue })
      { e with managementQueue := queue } := h.setConnection h.connected
  refine ⟨q, _, _, ?_, hpopped, rfl⟩
  rw [popManagementQueue, ok_bind (ok_connectionState h.entry), hcons]
  rfl

theorem processes_record (h : Receiving c s e)
    (ha : Announced s c e.managementQueue e.recordState) (hcomplete : e.recordState.Complete) :
    ∃ t f, Receiving c t f ∧ Processes c s t e.recordState fun it =>
      processRecord c it e.recordState := by
  by_cases hinvalid : e.recordState.invalidated = true
  · refine ⟨_, e, h.pushEvent (e.recordState.invalidEvent c), fun it hit hserves => ?_⟩
    obtain ⟨it', hevent, hit'⟩ := processes_generateInvalidRecord h it hit hserves
    refine ⟨it', ?_, hit'⟩
    beta_reduce
    rw [processRecord, if_pos hinvalid]
    exact hevent
  · have hvalid : e.recordState.invalidated = false := Bool.not_eq_true _ ▸ hinvalid
    have hprocess : ∀ it, processRecord c it e.recordState =
        processValidRecord c it e.recordState := fun it => by
      rw [processRecord, if_neg hinvalid]
    simp only [hprocess]
    cases ha.accepted hvalid with
    | endRequest htype hcontent _ =>
      obtain ⟨t, ht, hend⟩ := processes_endRequest h ha hcomplete hvalid htype hcontent
      refine ⟨t, e, ht, fun it hit hserves => ?_⟩
      obtain ⟨it', hrun, hit'⟩ := hend it hit hserves
      refine ⟨it', ?_, hit'⟩
      beta_reduce
      rw [processValidRecord, if_pos htype]
      exact hrun
    | stream htype _ =>
      rcases htype with htype | htype
      · obtain ⟨t, ht, hstream⟩ := processes_stream h ha ⟨hvalid, .inr (.inr htype)⟩
          fun d => { d with stdoutCompleted := true }
        refine ⟨t, e, ht, fun it hit hserves => ?_⟩
        obtain ⟨it', hrun, hit'⟩ := hstream it hit hserves
        refine ⟨it', ?_, hit'⟩
        beta_reduce
        rw [processValidRecord, if_neg (by rw [htype]; decide), if_pos htype]
        exact hrun
      · obtain ⟨t, ht, hstream⟩ := processes_stream h ha ⟨hvalid, .inr (.inl htype)⟩
          fun d => { d with stderrCompleted := true }
        refine ⟨t, e, ht, fun it hit hserves => ?_⟩
        obtain ⟨it', hrun, hit'⟩ := hstream it hit hserves
        refine ⟨it', ?_, hit'⟩
        beta_reduce
        rw [processValidRecord, if_neg (by rw [htype]; decide), if_neg (by rw [htype]; decide),
          if_pos htype]
        exact hrun
    | getValuesResult htype _ hqueue =>
      obtain ⟨q, t, f, hpop, ht, hpending⟩ := exists_popManagementQueue h hqueue
      refine ⟨_, f, ht.pushEvent (.getValuesResult (getValuesResponse e.recordState.localBuffer).2
        ⟨c, fcgiNullRequestId⟩ q.paramsMap (getValuesResponse e.recordState.localBuffer).1),
        fun it hit _ => ⟨it, ?_, fun i hi => hpending ▸ hit i hi⟩⟩
      beta_reduce
      rw [processValidRecord, if_neg (by rw [htype]; decide), if_neg (by rw [htype]; decide),
        if_neg (by rw [htype]; decide), if_pos htype]
      exact ok_bind hpop
    | unknownType htype _ hcontent hqueue =>
      have hlength : e.recordState.localBuffer.length = 8 := by
        rw [ha.buffered hvalid (by rw [htype]; decide) (by rw [htype]; decide), hcomplete.1, hcontent]
      obtain ⟨unknown, _, _, _, _, _, hbuffer⟩ := exists_eq_cons_of_length hlength
      obtain ⟨q, t, f, hpop, ht, hpending⟩ := exists_popManagementQueue h hqueue
      refine ⟨_, f, ht.pushEvent (.unknownType ⟨c, fcgiNullRequestId⟩ unknown q),
        fun it hit _ => ⟨it, ?_, fun i hi => hpending ▸ hit i hi⟩⟩
      beta_reduce
      rw [processValidRecord, if_neg (by rw [htype]; decide), if_neg (by rw [htype]; decide),
        if_neg (by rw [htype]; decide), if_neg (by rw [htype]; decide), if_pos htype, hbuffer]
      exact ok_bind hpop

/-- A complete record is processed and the connection waits for the next
one. -/
theorem processes_completeRecord (h : Receiving c s e)
    (ha : Announced s c e.managementQueue e.recordState) (hcomplete : e.recordState.Complete) :
    ∃ t, Ready c t ∧ finishRecord c s = some (.ok ⟨⟩, t) ∧
      Processes c s t e.recordState fun it => processCompleteRecord c it := by
  obtain ⟨u, f, hu, hrecord⟩ := processes_record h ha hcomplete
  have hprocess : Processes c s (u.setConnection c { f with recordState := {} }) e.recordState
      fun it => processCompleteRecord c it := by
    intro it hit hserves
    obtain ⟨it', hrun, hit'⟩ := hrecord it hit hserves
    refine ⟨it', ?_, hit'⟩
    beta_reduce
    rw [processCompleteRecord, ok_bind (ok_connectionState h.entry), ok_bind hrun,
      ok_bind (ok_setRecordState hu.entry)]
    rfl
  refine ⟨_, (hu.setRecord {}).ready (.inl opening_clear), ?_, hprocess⟩
  obtain ⟨it', hrun, -⟩ := hprocess _ (validIterator_find s _) ha.serves_find
  rw [finishRecord, ok_bind (ok_currentRecord h.entry), get_bind]
  exact ok_discard hrun

end

end AsComponents.Client
