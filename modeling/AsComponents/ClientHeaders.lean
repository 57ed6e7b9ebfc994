import AsComponents.ClientConsistency
import AsComponents.ClientRecords

/-! When `UpdateOnHeaderCompletion` looks only at requests that exist, and which
headers it rejects. -/

namespace AsComponents.Client

open Protocol NameValue SocketFunctions AsComponents.Partition Std Critical

section

variable {s : TestFcgiClientInterface} {c : Nat} {e : ConnectionState} {reply : SystemReply}
  {it : Option FcgiRequestIdentifier} {id : FcgiRequestIdentifier} {header : Bytes}

theorem returns_connectionState {Q : ConnectionState → TestFcgiClientInterface → Prop}
    (he : s.connectionMap[c]? = some e) (h : Q e s) : Returns (connectionState c) s Q := by
  rw [connectionState, returns_bind, returns_get, he]
  exact (returns_pure e).mpr h

theorem returns_requestData {d : RequestData}
    {Q : FcgiRequestIdentifier × RequestData → TestFcgiClientInterface → Prop}
    (hd : s.pendingRequestMap[id]? = some d) (h : Q (id, d) s) :
    Returns (requestData (some id)) s Q := by
  rw [requestData, returns_bind, returns_get, hd]
  exact (returns_pure _).mpr h

theorem returns_setRecordState {r : RecordState} {Q : Unit → TestFcgiClientInterface → Prop}
    (he : s.connectionMap[c]? = some e) (h : Q ⟨⟩ (s.setConnection c { e with recordState := r })) :
    Returns (setRecordState c r) s Q := by
  rw [setRecordState, returns_bind]
  exact returns_connectionState he (returns_modify.mpr h)

/-- An iterator over `pending_request_map_` that is at the end or at a
request. -/
def ValidIterator (s : TestFcgiClientInterface) (it : Option FcgiRequestIdentifier) : Prop :=
  ∀ id, it = some id → id ∈ s.pendingRequestMap

theorem validIterator_none (s : TestFcgiClientInterface) : ValidIterator s none :=
  fun _ hid => by cases hid

/-- A search gives the request, whatever the iterator was. -/
theorem returns_pendingIterCheck (id : FcgiRequestIdentifier)
    {Q : Option FcgiRequestIdentifier → TestFcgiClientInterface → Prop} (hit : ValidIterator s it)
    (h : Q (s.find id) s) : Returns (pendingIterCheck it id) s Q := by
  rw [pendingIterCheck, returns_ite]
  constructor
  · intro hid
    have hfind : s.find id = some id := if_pos (hit id hid)
    rw [returns_pure, hid, ← hfind]
    exact h
  · intro _
    rw [returns_bind, returns_get]
    exact (returns_pure _).mpr h

/-! ## Reads of requests -/

/-- The header of an end record without a request. -/
def EndWithoutRequest (s : TestFcgiClientInterface) (c : Nat) (header : Bytes) : Prop :=
  header.headD 0 = 1 ∧ headerType header = kFcgiEndRequest ∧
    headerIdentifier c header ∉ s.pendingRequestMap

theorem returns_checkEndRequest {n : Nat} (hid : id ∈ s.pendingRequestMap) :
    Returns (checkEndRequest reply (s.find id) n) s (fun _ _ => True) := by
  have hfind : s.find id = some id := if_pos hid
  obtain ⟨d, hd⟩ := Option.isSome_iff_exists.mp (ExtTreeMap.mem_iff_isSome_getElem?.mp hid)
  rw [hfind, checkEndRequest, stderrEmpty, returns_bind, returns_bind]
  refine returns_requestData hd ?_
  rw [returns_pure, returns_ite]
  refine ⟨fun _ => by rw [returns_pure]; trivial, fun _ => ?_⟩
  rw [returns_bind]
  refine returns_requestData hd ?_
  rw [returns_ite]
  refine ⟨fun _ => by rw [returns_pure]; trivial, fun _ => ?_⟩
  rw [returns_ite]
  exact ⟨fun _ => by rw [returns_bind, returns_modify, returns_pure]; trivial,
    fun _ => by rw [returns_pure]; trivial⟩

theorem returns_checkStream {completed : RequestData → Bool} :
    Returns (checkStream completed (s.find id)) s (fun _ _ => True) := by
  rw [checkStream, returns_ite]
  refine ⟨fun _ => by rw [returns_pure]; trivial, fun hsome => ?_⟩
  by_cases hid : id ∈ s.pendingRequestMap
  · have hfind : s.find id = some id := if_pos hid
    obtain ⟨d, hd⟩ := Option.isSome_iff_exists.mp (ExtTreeMap.mem_iff_isSome_getElem?.mp hid)
    rw [hfind, returns_bind]
    exact returns_requestData hd (by rw [returns_pure]; trivial)
  · exact absurd (if_neg hid) hsome

/-- Every other header is checked without a look at a missing request. -/
theorem returns_checkHeader (he : s.connectionMap[c]? = some e) (hit : ValidIterator s it)
    (hend : ¬ EndWithoutRequest s c header) :
    Returns (checkHeader reply c it header) s (fun _ _ => True) := by
  rw [checkHeader, returns_ite]
  refine ⟨fun _ => by rw [returns_pure]; trivial, fun hversion => ?_⟩
  rw [not_not] at hversion
  rw [checkType, returns_ite]
  constructor
  · intro htype
    have hid : headerIdentifier c header ∈ s.pendingRequestMap := by
      by_contra hmissing
      exact hend ⟨hversion, htype, hmissing⟩
    rw [returns_bind]
    refine returns_pendingIterCheck _ hit ?_
    rw [returns_bind]
    exact (returns_checkEndRequest hid).mono fun _ _ _ => by rw [returns_pure]; trivial
  intro _
  rw [returns_ite]
  constructor
  · intro _
    rw [returns_bind]
    refine returns_pendingIterCheck _ hit ?_
    rw [returns_bind]
    exact returns_checkStream.mono fun _ _ _ => by rw [returns_pure]; trivial
  intro _
  rw [returns_ite]
  constructor
  · intro _
    rw [returns_bind]
    refine returns_pendingIterCheck _ hit ?_
    rw [returns_bind]
    exact returns_checkStream.mono fun _ _ _ => by rw [returns_pure]; trivial
  intro _
  rw [returns_bind]
  refine returns_connectionState he ?_
  rw [returns_ite]
  refine ⟨fun _ => by rw [returns_pure]; trivial, fun _ => ?_⟩
  rw [returns_ite]
  exact ⟨fun _ => by rw [returns_pure]; trivial, fun _ => by rw [returns_pure]; trivial⟩

/-- An access through the past-the-end iterator may stop the process. -/
def trap : SystemReply := { pastTheEndEmpty := none }

theorem checkHeader_trap (hit : ValidIterator s it) (hend : EndWithoutRequest s c header) :
    ¬ Returns (checkHeader trap c it header) s (fun _ _ => True) := by
  obtain ⟨hversion, htype, hmissing⟩ := hend
  have hfind : s.find (headerIdentifier c header) = none := if_neg hmissing
  intro hreturns
  rw [checkHeader, if_neg (not_not.mpr hversion), checkType, if_pos htype, returns_bind] at hreturns
  obtain ⟨it', t, hcheck, hreturns⟩ := hreturns
  obtain ⟨_, _, hsearch, rfl, rfl⟩ := returns_pendingIterCheck (headerIdentifier c header)
    (Q := fun a t => a = s.find (headerIdentifier c header) ∧ t = s) hit ⟨rfl, rfl⟩
  cases hcheck.symm.trans hsearch
  rw [hfind, returns_bind, checkEndRequest, stderrEmpty, readPastTheEnd, returns_bind] at hreturns
  obtain ⟨_, _, hstop, -⟩ := hreturns
  cases hstop

/-! ## The headers that are rejected -/

/-- What makes a header invalid for connection `c` with the management requests
`queue`. -/
def InvalidHeader (s : TestFcgiClientInterface) (c : Nat) (queue : List ManagementRequestData)
    (header : Bytes) : Prop :=
  header.headD 0 ≠ 1 ∨
  (headerType header = kFcgiEndRequest ∧
    ∀ d, s.pendingRequestMap[headerIdentifier c header]? = some d →
      d.stdoutCompleted = false ∨ (d.fcgiStderr ≠ [] ∧ d.stderrCompleted = false) ∨
        headerContentLength header ≠ 8) ∨
  (headerType header = kFcgiStdout ∧
    ∀ d, s.pendingRequestMap[headerIdentifier c header]? = some d → d.stdoutCompleted = true) ∨
  (headerType header = kFcgiStderr ∧
    ∀ d, s.pendingRequestMap[headerIdentifier c header]? = some d → d.stderrCompleted = true) ∨
  (headerType header = kFcgiGetValuesResult ∧
    (headerRequestId header ≠ 0 ∨ ∀ q, queue.head? = some q → q.type ≠ kFcgiGetValues)) ∨
  (headerType header = kFcgiUnknownType ∧
    (headerRequestId header ≠ 0 ∨ headerContentLength header ≠ 8 ∨
      ∀ q, queue.head? = some q → q.type = kFcgiGetValues)) ∨
  headerType header ∉ [kFcgiEndRequest, kFcgiStdout, kFcgiStderr, kFcgiGetValuesResult,
    kFcgiUnknownType]

theorem any_eq_false_iff {α : Type} {o : Option α} {p : α → Bool} :
    o.any p = false ↔ ∀ a, o = some a → p a = false := by
  cases o with
  | none => simp
  | some a => simp

theorem acceptsEnd_eq_false_iff {n : Nat} {d : RequestData} : acceptsEnd n d = false ↔
    d.stdoutCompleted = false ∨ (d.fcgiStderr ≠ [] ∧ d.stderrCompleted = false) ∨ n ≠ 8 := by
  rw [acceptsEnd]
  cases d.stdoutCompleted <;> cases d.stderrCompleted <;> simp [imp_iff_not_or]

/-- The check rejects these headers. -/
theorem validHeader_eq_false_iff {queue : List ManagementRequestData} :
    validHeader s c queue header = false ↔ InvalidHeader s c queue header := by
  by_cases hversion : header.headD 0 = 1
  · have htype : validHeader s c queue header = validType s c queue header := by
      rw [validHeader, decide_eq_true hversion, Bool.true_and]
    rw [htype, validType, InvalidHeader]
    simp only [hversion, ne_eq, not_true_eq_false, false_or]
    split
    · rename_i htype
      simp [htype, any_eq_false_iff, acceptsEnd_eq_false_iff, kFcgiEndRequest, kFcgiStdout,
        kFcgiStderr, kFcgiGetValuesResult, kFcgiUnknownType]
    split
    · rename_i htype
      simp [htype, any_eq_false_iff, kFcgiEndRequest, kFcgiStdout, kFcgiStderr,
        kFcgiGetValuesResult, kFcgiUnknownType]
    split
    · rename_i htype
      simp [htype, any_eq_false_iff, kFcgiEndRequest, kFcgiStdout, kFcgiStderr,
        kFcgiGetValuesResult, kFcgiUnknownType]
    split
    · rename_i htype
      simp [htype, any_eq_false_iff, imp_iff_not_or, fcgiNullRequestId, kFcgiEndRequest,
        kFcgiStdout, kFcgiStderr, kFcgiGetValuesResult, kFcgiUnknownType]
    split
    · rename_i htype
      simp [htype, any_eq_false_iff, imp_iff_not_or, or_assoc, fcgiNullRequestId,
        kFcgiEndRequest, kFcgiStdout, kFcgiStderr, kFcgiGetValuesResult, kFcgiUnknownType]
    · rename_i hend hstdout hstderr hvalues hunknown
      simp [hend, hstdout, hstderr, hvalues, hunknown]
  · rw [validHeader, decide_eq_false hversion, Bool.false_and]
    exact ⟨fun _ => .inl hversion, fun _ => rfl⟩

/-- The header of the record is complete, and what becomes of it. -/
theorem after_updateOnHeaderCompletion_invalidated (reply : SystemReply)
    (he : s.connectionMap[c]? = some e) :
    After (updateOnHeaderCompletion reply c it) s
      (fun _ t => ∃ e', t.connectionMap[c]? = some e' ∧ (e'.recordState.invalidated = true ↔
        e.recordState.invalidated = true ∨
          InvalidHeader s c e.managementQueue e.recordState.header))
      (Thrown fun _ _ => False) := by
  rw [updateOnHeaderCompletion, after_bind]
  refine after_connectionState fun e' he' => ?_
  obtain rfl := Option.some.inj (he.symm.trans he')
  rw [after_bind]
  refine (after_checkHeader he).mono (fun r t ht => ?_) fun _ _ hE => hE
  obtain ⟨rfl, herr⟩ := ht
  rw [after_bind]
  refine after_setRecordState fun f hf => ?_
  rw [after_pure]
  refine ⟨_, (TestFcgiClientInterface.getElem?_setConnection _ c c _).trans (if_pos rfl), ?_⟩
  show (e.recordState.invalidated || r.2) = true ↔ _
  rw [herr, Bool.or_eq_true, Bool.not_eq_true', validHeader_eq_false_iff]

theorem returns_updateOnHeaderCompletion (he : s.connectionMap[c]? = some e)
    (hit : ValidIterator s it) (hend : ¬ EndWithoutRequest s c e.recordState.header) :
    Returns (updateOnHeaderCompletion reply c it) s (fun _ _ => True) := by
  rw [updateOnHeaderCompletion, returns_bind]
  refine returns_connectionState he ?_
  rw [returns_bind]
  refine ((returns_checkHeader he hit hend).after (after_checkHeader he)).mono fun r t ht => ?_
  obtain ⟨-, rfl, -⟩ := ht
  rw [returns_bind]
  have hentry : (checkedState s c e.recordState.header).connectionMap[c]? = some e := by
    rw [(Arrival.checkedState_connectionMap s c e.recordState.header).1, he]
  exact returns_setRecordState hentry (by rw [returns_pure]; trivial)

/-- A complete header is looked at without a read of a missing request, and is
rejected for the reasons above. -/
def HeaderLaw (s : TestFcgiClientInterface) (c : Nat) (e : ConnectionState)
    (it : Option FcgiRequestIdentifier) : Prop :=
  ∀ reply, Returns (updateOnHeaderCompletion reply c it) s fun _ t =>
    ∃ e', t.connectionMap[c]? = some e' ∧ (e'.recordState.invalidated = true ↔
      e.recordState.invalidated = true ∨ InvalidHeader s c e.managementQueue e.recordState.header)

theorem not_headerLaw (hit : ValidIterator s it) (he : s.connectionMap[c]? = some e)
    (hend : EndWithoutRequest s c e.recordState.header) : ¬ HeaderLaw s c e it := by
  intro hlaw
  have hreturns := hlaw trap
  rw [updateOnHeaderCompletion, returns_bind] at hreturns
  obtain ⟨e', t, hentry, hreturns⟩ := hreturns
  obtain ⟨_, _, hread, rfl, rfl⟩ := returns_connectionState (Q := fun a t => a = e ∧ t = s) he
    ⟨rfl, rfl⟩
  cases hentry.symm.trans hread
  rw [returns_bind] at hreturns
  exact checkHeader_trap hit hend (hreturns.mono fun _ _ _ => trivial)

/-- The check of a header is safe and decides as described, but for the end
record of a request that does not exist. -/
theorem header_checked (he : s.connectionMap[c]? = some e) (hit : ValidIterator s it) :
    HeaderLaw s c e it ↔ ¬ EndWithoutRequest s c e.recordState.header := by
  refine ⟨fun hlaw hend => not_headerLaw hit he hend hlaw, fun hend reply => ?_⟩
  have hreturns := (returns_updateOnHeaderCompletion he hit hend).after
    (after_updateOnHeaderCompletion_invalidated reply he)
  exact hreturns.mono fun _ _ h => h.2

/-! ### Runs -/

/-- The header of the end record of request 1. -/
def endHeader : Bytes := [1, 3, 0, 1, 0, 8, 0, 0]

/-- The element of a connection that has received `header`. -/
def ConnectionState.received (e : ConnectionState) (header : Bytes) : ConnectionState :=
  { e with recordState := { header := header } }

theorem endWithoutRequest_iff :
    EndWithoutRequest s 5 endHeader ↔ (⟨5, 1⟩ : FcgiRequestIdentifier) ∉ s.pendingRequestMap :=
  ⟨fun h => h.2.2, fun h => ⟨by decide, by decide, h⟩⟩

theorem header_checked_pending : ∃ s e, Reachable s ∧ s.connectionMap[5]? = some e ∧
    HeaderLaw (s.setConnection 5 (e.received endHeader)) 5 (e.received endHeader) none := by
  have hrun : ((run {} [(connectReply, .connect), (requestReply, .sendRequest 5 bareRequest)]).map
      fun s => (s.connectionMap[5]?.isSome, s.pendingRequestMap.contains ⟨5, 1⟩)) =
      some (true, true) := by
    decide +kernel
  obtain ⟨s, hs, hfacts⟩ := Option.map_eq_some_iff.mp hrun
  obtain ⟨hentry, hpending⟩ := Prod.mk.inj hfacts
  obtain ⟨e, he⟩ := Option.isSome_iff_exists.mp hentry
  refine ⟨s, e, reachable_run (.initial {}) hs, he,
    (header_checked ?_ (validIterator_none _)).mpr ?_⟩
  · exact (s.getElem?_setConnection 5 5 _).trans (if_pos rfl)
  · intro hmissing
    exact endWithoutRequest_iff.mp hmissing (ExtTreeMap.contains_iff_mem.mp hpending)

/-- The header of an end record arrives while no request is pending, and an
access through the past-the-end iterator stops the process. -/
theorem end_without_request : ∃ s, Reachable s ∧ s.isConnected 5 = true ∧
    (∃ t, receiveBuffer trap 5 8 none endHeader s = some (.error .halted, t) ∧
      t.halt = some .danglingIterator) ∧
    ∃ e, s.connectionMap[5]? = some e ∧
      ¬ HeaderLaw (s.setConnection 5 (e.received endHeader)) 5 (e.received endHeader) none := by
  have hrun : ((run {} [(connectReply, .connect)]).map fun s =>
      (s.isConnected 5 && s.connectionMap[5]?.isSome, s.pendingRequestMap.contains ⟨5, 1⟩,
        (receiveBuffer trap 5 8 none endHeader s).map fun r => (thrown r.1, r.2.halt))) =
      some (true, false, some (some .halted, some .danglingIterator)) := by
    decide +kernel
  obtain ⟨s, hs, hfacts⟩ := Option.map_eq_some_iff.mp hrun
  simp only [Prod.mk.injEq, Option.map_eq_some_iff, Bool.and_eq_true] at hfacts
  obtain ⟨⟨hconnected, hentry⟩, hmissing, ⟨r, t⟩, hr, hthrown, hhalt⟩ := hfacts
  obtain ⟨e, he⟩ := Option.isSome_iff_exists.mp hentry
  refine ⟨s, reachable_run (.initial {}) hs, hconnected, ⟨t, ?_, hhalt⟩, e, he,
    not_headerLaw (validIterator_none _) ?_ (endWithoutRequest_iff.mpr ?_)⟩
  · obtain rfl := eq_error_of_thrown hthrown
    exact hr
  · exact (s.getElem?_setConnection 5 5 _).trans (if_pos rfl)
  · intro hmem
    have hcontains : s.pendingRequestMap.contains ⟨5, 1⟩ = true := ExtTreeMap.contains_iff_mem.mpr hmem
    rw [hmissing] at hcontains
    cases hcontains

end

end AsComponents.Client
