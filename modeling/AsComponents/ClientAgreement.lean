import AsComponents.ClientSections

/-! The loop over the bytes of a buffer agrees with the reference. -/

namespace AsComponents.Client

open Protocol NameValue SocketFunctions AsComponents.Partition Std Critical TestFcgiClientInterface

/-! ## Headers -/

/-- The process was stopped by an access through the past-the-end iterator. -/
def Trapped (reply : SystemReply) (f : Failure) (t : TestFcgiClientInterface) : Prop :=
  f = .halted ∧ t.halt = some .danglingIterator ∧ reply.pastTheEndEmpty = none

section

variable {s t : TestFcgiClientInterface} {c : Nat} {e : ConnectionState} {r : RecordState}
  {reply : SystemReply} {it : Option FcgiRequestIdentifier} {header : Bytes}

theorem agrees_self {α : Type} {x : Operation α} {R : α → α → TestFcgiClientInterface → Prop}
    (hx : x s ≠ none) (h : ∀ a u, x s = some (.ok a, u) → R a a u) : Agrees x s x s R := by
  cases hr : x s with
  | none => exact absurd hr hx
  | some r =>
    obtain ⟨r, u⟩ := r
    cases r with
    | ok a => exact .of_ok hr hr (h a u hr)
    | error f => exact .of_error hr hr

theorem ends_checkHeader (reply : SystemReply) (header : Bytes)
    (he : s.connectionMap[c]? = some e) :
    Ends (checkHeader reply c none header) s
      (fun r t => t = checkedState s c header ∧ r.2 = !validHeader s c e.managementQueue header)
      (Trapped reply) := by
  by_cases hend : EndWithoutRequest s c header
  · obtain ⟨hversion, htype, hmissing⟩ := hend
    have hfind : s.find ⟨c, headerRequestId header⟩ = none := find_eq_none hmissing
    cases hempty : reply.pastTheEndEmpty with
    | none =>
      refine .inr ⟨.halted, { s with halt := some .danglingIterator }, ?_, rfl, rfl, hempty⟩
      have hread : readPastTheEnd reply s =
          some (.error .halted, { s with halt := some .danglingIterator }) := by
        rw [readPastTheEnd, hempty]
        rfl
      rw [checkHeader, if_neg (not_not.mpr hversion), checkType, if_pos htype,
        ok_bind (ok_pendingIterCheck (validIterator_none s)), hfind]
      exact error_bind (error_bind hread)
    | some empty =>
      have hread : readPastTheEnd reply s = some (.ok empty, s) := by
        rw [readPastTheEnd, hempty]
        rfl
      have hcheck : checkHeader reply c none header s = some (.ok (none, true), s) := by
        rw [checkHeader, if_neg (not_not.mpr hversion), checkType, if_pos htype,
          ok_bind (ok_pendingIterCheck (validIterator_none s)), hfind]
        exact ok_bind (ok_bind hread)
      exact .of_ok hcheck ((after_checkHeader he).of_ok hcheck)
  · obtain ⟨r, t, hcheck, -⟩ := returns_checkHeader he (validIterator_none s) hend
    exact .of_ok hcheck ((after_checkHeader he).of_ok hcheck)

/-- The types of the records that are processed with a request. -/
def TypeNeedsRequest (type : FcgiType) : Prop :=
  type = kFcgiEndRequest ∨ type = kFcgiStderr ∨ type = kFcgiStdout

theorem mem_checkedState (i : FcgiRequestIdentifier) :
    i ∈ (checkedState s c header).pendingRequestMap ↔ i ∈ s.pendingRequestMap := by
  unfold checkedState acceptEnd
  split
  · split
    · rename_i d hd
      have hid := ExtTreeMap.mem_iff_isSome_getElem?.mpr (by simp [hd] :
        s.pendingRequestMap[headerIdentifier c header]?.isSome = true)
      split
      · exact Receiving.mem_setPending hid i
      · rfl
    · rfl
  · rfl

/-- A valid header of a record that needs a request has one. -/
theorem mem_of_validHeader {queue : List ManagementRequestData}
    (h : validHeader s c queue header = true) (htype : TypeNeedsRequest (headerType header)) :
    headerIdentifier c header ∈ s.pendingRequestMap := by
  rw [validHeader, Bool.and_eq_true] at h
  obtain ⟨-, h⟩ := h
  have hany : ∀ {p : RequestData → Bool},
      s.pendingRequestMap[headerIdentifier c header]?.any p = true →
        headerIdentifier c header ∈ s.pendingRequestMap := by
    intro p hp
    rw [ExtTreeMap.mem_iff_isSome_getElem?]
    cases hd : s.pendingRequestMap[headerIdentifier c header]? with
    | none => simp [hd] at hp
    | some d => rfl
  rw [validType] at h
  split at h
  · exact hany h
  split at h
  · exact hany h
  split at h
  · exact hany h
  · rename_i hend hstdout hstderr
    rcases htype with htype | htype | htype
    · exact absurd htype hend
    · exact absurd htype hstderr
    · exact absurd htype hstdout

/-- What a search for the request of a header gives. -/
theorem serves_of_search {queue : List ManagementRequestData} {err : Bool}
    (ht : t = checkedState s c header) (herr : err = !validHeader s c queue header)
    (htype : TypeNeedsRequest (headerType header)) :
    ValidIterator t (s.find (headerIdentifier c header)) ∧
      (err = false → s.find (headerIdentifier c header) = some (headerIdentifier c header)) := by
  subst ht
  refine ⟨fun i hi => mem_checkedState i |>.mpr (validIterator_find s _ i hi), fun hvalid => ?_⟩
  rw [hvalid] at herr
  exact find_eq_some (mem_of_validHeader (by simpa using herr.symm) htype)

/-- The iterator after the check of a header that needs a request. -/
theorem iterator_of_checkHeader {r : Option FcgiRequestIdentifier × Bool}
    (h : checkHeader reply c it header s = some (.ok r, t)) (hit : ValidIterator s it)
    (hversion : header.headD 0 = 1) (htype : TypeNeedsRequest (headerType header)) :
    r.1 = s.find (headerIdentifier c header) := by
  have hsearch : ∀ {x : Option FcgiRequestIdentifier → Operation Bool},
      (pendingIterCheck it ⟨c, headerRequestId header⟩ >>= fun it => do return (it, ← x it)) s =
        some (.ok r, t) → r.1 = s.find (headerIdentifier c header) := by
    intro x hx
    rw [ok_bind (ok_pendingIterCheck hit)] at hx
    obtain ⟨err, u, -, hrest⟩ := bind_eq_ok hx
    cases hrest
    rfl
  rw [checkHeader, if_neg (not_not.mpr hversion), checkType] at h
  split at h
  · exact hsearch h
  split at h
  · exact hsearch h
  split at h
  · exact hsearch h
  · rename_i hend hstdout hstderr
    rcases htype with htype | htype | htype
    · exact absurd htype hend
    · exact absurd htype hstderr
    · exact absurd htype hstdout

/-- Every valid iterator gives the same search. -/
theorem checkHeader_congr (hit : ValidIterator s it) (hversion : header.headD 0 = 1)
    (htype : TypeNeedsRequest (headerType header)) :
    checkHeader reply c it header s = checkHeader reply c none header s := by
  have hsearch : ∀ (x : Option FcgiRequestIdentifier →
      Operation (Option FcgiRequestIdentifier × Bool)),
      (pendingIterCheck it ⟨c, headerRequestId header⟩ >>= x) s =
        (pendingIterCheck none ⟨c, headerRequestId header⟩ >>= x) s := fun x => by
    rw [ok_bind (ok_pendingIterCheck hit), ok_bind (ok_pendingIterCheck (validIterator_none s))]
  rw [checkHeader, checkHeader, if_neg (not_not.mpr hversion), if_neg (not_not.mpr hversion),
    checkType, checkType]
  split
  · exact hsearch _
  split
  · exact hsearch _
  split
  · exact hsearch _
  · rename_i hend hstdout hstderr
    rcases htype with htype | htype | htype
    · exact absurd htype hend
    · exact absurd htype hstderr
    · exact absurd htype hstdout

/-- The check of a header does not depend on the iterator it starts from. -/
theorem agrees_checkHeader (reply : SystemReply) (header : Bytes)
    (he : s.connectionMap[c]? = some e) (hit : ValidIterator s it) :
    Agrees (checkHeader reply c it header) s (checkHeader reply c none header) s
      fun r r' t => r.2 = r'.2 ∧ ValidIterator t r.1 ∧
        (r.2 = false → TypeNeedsRequest (headerType header) →
          r.1 = some (headerIdentifier c header)) := by
  by_cases hversion : header.headD 0 = 1
  · by_cases htype : TypeNeedsRequest (headerType header)
    · have hnone := validIterator_none s
      rw [Agrees, checkHeader_congr hit hversion htype]
      refine agrees_self ?_ fun r u hr => ?_
      · rcases ends_checkHeader reply header he with ⟨_, _, hx, -⟩ |
          ⟨_, _, hx, -⟩ <;> rw [hx] <;> simp
      · obtain ⟨hu, herr⟩ := (after_checkHeader he).of_ok hr
        obtain ⟨hvalid, hsome⟩ := serves_of_search hu herr htype
        have hfirst := iterator_of_checkHeader hr hnone hversion htype
        rw [hfirst]
        exact ⟨rfl, hvalid, fun h _ => hsome h⟩
    · -- the iterator is passed on
      have hrest : ∀ it', ValidIterator s it' → ∃ err, checkHeader reply c it' header s =
          some (.ok (it', err), s) := by
        intro it' _
        rw [checkHeader, if_neg (not_not.mpr hversion), checkType,
          if_neg fun h => htype (.inl h), if_neg fun h => htype (.inr (.inr h)),
          if_neg fun h => htype (.inr (.inl h)), ok_bind (ok_connectionState he)]
        split
        · exact ⟨_, rfl⟩
        split
        · exact ⟨_, rfl⟩
        · exact ⟨_, rfl⟩
      obtain ⟨err, hcode⟩ := hrest it hit
      obtain ⟨err', href⟩ := hrest none (validIterator_none s)
      have herr := ((after_checkHeader he).of_ok hcode).2
      have herr' := ((after_checkHeader he).of_ok href).2
      exact .of_ok hcode href ⟨herr.trans herr'.symm, hit, fun _ h => absurd h htype⟩
  · have hrejected : ∀ it', checkHeader reply c it' header s = some (.ok (it', true), s) :=
      fun it' => congrFun (if_pos hversion) s
    exact .of_ok (hrejected it) (hrejected none) ⟨rfl, hit, by simp⟩

/-! ### Complete headers -/

/-- The record after its header was checked. -/
def RecordState.announced (r : RecordState) (errorDetected : Bool) : RecordState :=
  { r with
    type := headerType r.header
    fcgiId := headerRequestId r.header
    contentBytesExpected := headerContentLength r.header
    paddingBytesExpected := headerPaddingLength r.header
    invalidated := r.invalidated || errorDetected }

/-- Nothing of the record but a part of its header was received. -/
structure Unread (r : RecordState) : Prop where
  invalidated : r.invalidated = false
  contentBytesReceived : r.contentBytesReceived = 0
  paddingBytesReceived : r.paddingBytesReceived = 0
  localBuffer : r.localBuffer = []

theorem accepted_of_validHeader {queue : List ManagementRequestData} (header : Bytes)
    (hr : r.type = headerType header ∧ r.fcgiId = headerRequestId header ∧
      r.contentBytesExpected = headerContentLength header)
    (h : validHeader s c queue header = true) : Accepted (checkedState s c header) c queue r := by
  obtain ⟨htype, hid, hcontent⟩ := hr
  have hmem : TypeNeedsRequest (headerType header) →
      (⟨c, r.fcgiId⟩ : FcgiRequestIdentifier) ∈ (checkedState s c header).pendingRequestMap :=
    fun hneeds => (mem_checkedState _).mpr (hid ▸ mem_of_validHeader h hneeds)
  have hqueue : ∀ {p : ManagementRequestData → Bool}, queue.head?.any p = true → queue ≠ [] := by
    rintro p hp rfl
    simp at hp
  rw [validHeader, Bool.and_eq_true, validType] at h
  obtain ⟨-, h⟩ := h
  split at h
  · rename_i hend
    refine .endRequest (htype.trans hend) ?_ (hmem (.inl hend))
    cases hd : s.pendingRequestMap[headerIdentifier c header]? with
    | none => simp [hd] at h
    | some d =>
      rw [hd, Option.any_some, acceptsEnd, Bool.and_eq_true, beq_iff_eq] at h
      exact hcontent.trans h.2
  split at h
  · rename_i hstdout
    exact .stream (.inl (htype.trans hstdout)) (hmem (.inr (.inr hstdout)))
  split at h
  · rename_i hstderr
    exact .stream (.inr (htype.trans hstderr)) (hmem (.inr (.inl hstderr)))
  split at h
  · rename_i hvalues
    rw [Bool.and_eq_true, beq_iff_eq] at h
    exact .getValuesResult (htype.trans hvalues) (hid.trans h.1) (hqueue h.2)
  split at h
  · rename_i hunknown
    rw [Bool.and_eq_true, Bool.and_eq_true, beq_iff_eq, beq_iff_eq] at h
    exact .unknownType (htype.trans hunknown) (hid.trans h.1.1) (hcontent.trans h.1.2) (hqueue h.2)
  · cases h

theorem receiving_checkedState (h : Receiving c s e) (header : Bytes) :
    Receiving c (checkedState s c header) e := by
  have hframe := Arrival.checkedState_connectionMap s c header
  have hcompleted : (checkedState s c header).completedRequestSet = s.completedRequestSet := by
    unfold checkedState acceptEnd
    split
    · split
      · split <;> rfl
      · rfl
    · rfl
  exact h.of_kept (hframe.1 ▸ h.entry) h.connected (fun _ _ => by rw [hframe.1])
    (fun i => (mem_checkedState i).mp) (fun i _ => (mem_checkedState i).mpr)
    fun i hi => .inl (hcompleted ▸ hi)

/-- A record whose header has just been completed. -/
structure HeaderDone (c : Nat) (t : TestFcgiClientInterface) (f : ConnectionState) : Prop where
  receiving : Receiving c t f
  announced : Announced t c f.managementQueue f.recordState
  content : f.recordState.contentBytesReceived = 0
  padding : f.recordState.paddingBytesReceived = 0

theorem ok_updateOnHeaderCompletion {err : Bool} {it' : Option FcgiRequestIdentifier}
    (h : Receiving c s e)
    (hcheck : checkHeader reply c it e.recordState.header s =
      some (.ok (it', err), checkedState s c e.recordState.header)) :
    updateOnHeaderCompletion reply c it s = some (.ok it',
      (checkedState s c e.recordState.header).setConnection c
        { e with recordState := e.recordState.announced err }) := by
  rw [updateOnHeaderCompletion, ok_bind (ok_connectionState h.entry), ok_bind hcheck]
  exact ok_bind (ok_setRecordState (receiving_checkedState h _).entry)

theorem headerDone (h : Receiving c s e) (hunread : Unread e.recordState)
    (hlength : e.recordState.header.length = 8) {err : Bool}
    (herr : err = !validHeader s c e.managementQueue e.recordState.header) :
    HeaderDone c ((checkedState s c e.recordState.header).setConnection c
        { e with recordState := e.recordState.announced err })
      { e with recordState := e.recordState.announced err } where
  receiving := (receiving_checkedState h _).setRecord _
  announced :=
    { header := hlength
      content := hunread.contentBytesReceived ▸ Nat.zero_le _
      padding := hunread.paddingBytesReceived ▸ Nat.zero_le _
      order := fun hpos => absurd hpos (by
        show ¬ 0 < e.recordState.paddingBytesReceived
        rw [hunread.paddingBytesReceived]
        omega)
      accepted := fun hvalid => by
        have hok : err = false := by
          have := Bool.or_eq_false_iff.mp hvalid
          exact this.2
        rw [hok] at herr
        refine (accepted_of_validHeader e.recordState.header ⟨rfl, rfl, rfl⟩
          (by simpa using herr.symm)).mono id fun i => id
      buffered := fun _ _ _ => by
        show e.recordState.localBuffer.length = e.recordState.contentBytesReceived
        rw [hunread.localBuffer, hunread.contentBytesReceived]
        rfl }
  content := hunread.contentBytesReceived
  padding := hunread.paddingBytesReceived

theorem ends_updateOnHeaderCompletion (reply : SystemReply) (h : Receiving c s e)
    (hunread : Unread e.recordState)
    (hlength : e.recordState.header.length = 8) :
    Ends (updateOnHeaderCompletion reply c none) s (fun _ t => ∃ f, HeaderDone c t f)
      (Trapped reply) := by
  rcases ends_checkHeader reply e.recordState.header h.entry with
    ⟨⟨it', err⟩, t, hcheck, rfl, herr⟩ | ⟨f, t, hcheck, htrap⟩
  · exact .of_ok (ok_updateOnHeaderCompletion h hcheck) ⟨_, headerDone h hunread hlength herr⟩
  · refine .inr ⟨f, t, ?_, htrap⟩
    rw [updateOnHeaderCompletion, ok_bind (ok_connectionState h.entry)]
    exact error_bind hcheck

theorem agrees_updateOnHeaderCompletion (reply : SystemReply) (it : Option FcgiRequestIdentifier)
    (h : Receiving c s e) (hunread : Unread e.recordState)
    (hlength : e.recordState.header.length = 8) (hit : ValidIterator s it) :
    Agrees (updateOnHeaderCompletion reply c it) s (updateOnHeaderCompletion reply c none) s
      fun it' _ t => ValidIterator t it' ∧ ∃ f, HeaderDone c t f ∧ Serves c it' f.recordState := by
  rcases agrees_checkHeader reply e.recordState.header h.entry hit with
    ⟨-, hnone⟩ | ⟨⟨it', err⟩, ⟨it₀, err₀⟩, t, hcode, href, herr, hvalid, hserves⟩ |
    ⟨f, t, hcode, href⟩
  · rcases ends_checkHeader reply e.recordState.header h.entry with
      ⟨_, _, hx, -⟩ | ⟨_, _, hx, -⟩
    · cases hnone.symm.trans hx
    · cases hnone.symm.trans hx
  · obtain ⟨rfl, hreject⟩ := (after_checkHeader h.entry).of_ok hcode
    obtain rfl : err = err₀ := herr
    refine .of_ok (ok_updateOnHeaderCompletion h hcode) (ok_updateOnHeaderCompletion h href)
      ⟨hvalid, _, headerDone h hunread hlength hreject, fun hneeds => ?_⟩
    exact hserves (Bool.or_eq_false_iff.mp hneeds.1).2 hneeds.2
  · refine .of_error (e := f) (u := t) ?_ ?_
    · rw [updateOnHeaderCompletion, ok_bind (ok_connectionState h.entry)]
      exact error_bind hcode
    · rw [updateOnHeaderCompletion, ok_bind (ok_connectionState h.entry)]
      exact error_bind href

end

end AsComponents.Client
