import AsComponents.ClientConsistency

/-! The record that is being received on a connection, and what the calls
between two reads leave of it. -/

namespace AsComponents.Client

open Protocol NameValue SocketFunctions AsComponents.Partition Std Critical

/-! ## Records -/

/-- A record with an incomplete header. -/
structure Opening (r : RecordState) : Prop where
  header : r.header.length < 8
  invalidated : r.invalidated = false
  contentBytesExpected : r.contentBytesExpected = 0
  contentBytesReceived : r.contentBytesReceived = 0
  paddingBytesExpected : r.paddingBytesExpected = 0
  paddingBytesReceived : r.paddingBytesReceived = 0
  localBuffer : r.localBuffer = []

/-- The records on connection `c` that `UpdateOnHeaderCompletion` accepts. -/
inductive Accepted (s : TestFcgiClientInterface) (c : Nat) (queue : List ManagementRequestData)
    (r : RecordState) : Prop
  | endRequest (type : r.type = kFcgiEndRequest) (content : r.contentBytesExpected = 8)
      (pending : ⟨c, r.fcgiId⟩ ∈ s.pendingRequestMap)
  | stream (type : r.type = kFcgiStdout ∨ r.type = kFcgiStderr)
      (pending : ⟨c, r.fcgiId⟩ ∈ s.pendingRequestMap)
  | getValuesResult (type : r.type = kFcgiGetValuesResult) (id : r.fcgiId = fcgiNullRequestId)
      (queue : queue ≠ [])
  | unknownType (type : r.type = kFcgiUnknownType) (id : r.fcgiId = fcgiNullRequestId)
      (content : r.contentBytesExpected = 8) (queue : queue ≠ [])

/-- Everything that the header announced was received. -/
def RecordState.Complete (r : RecordState) : Prop :=
  r.contentBytesReceived = r.contentBytesExpected ∧ r.paddingBytesReceived = r.paddingBytesExpected

instance (r : RecordState) : Decidable r.Complete := inferInstanceAs (Decidable (_ ∧ _))

/-- A record with a complete header, before or at its completion. -/
structure Announced (s : TestFcgiClientInterface) (c : Nat) (queue : List ManagementRequestData)
    (r : RecordState) : Prop where
  header : r.header.length = 8
  content : r.contentBytesReceived ≤ r.contentBytesExpected
  padding : r.paddingBytesReceived ≤ r.paddingBytesExpected
  order : 0 < r.paddingBytesReceived → r.contentBytesReceived = r.contentBytesExpected
  accepted : r.invalidated = false → Accepted s c queue r
  buffered : r.invalidated = false → r.type ≠ kFcgiStdout → r.type ≠ kFcgiStderr →
    r.localBuffer.length = r.contentBytesReceived

/-- The connection is in the middle of a header or of a record. -/
def FramedAt (s : TestFcgiClientInterface) (c : Nat) (e : ConnectionState) : Prop :=
  Opening e.recordState ∨ e.connected = true ∧ ¬ e.recordState.Complete ∧
    Announced s c e.managementQueue e.recordState

def Framed (s : TestFcgiClientInterface) : Prop :=
  ∀ (c : Nat) (e : ConnectionState), s.connectionMap[c]? = some e → FramedAt s c e

section

variable {s t u : TestFcgiClientInterface} {c : Nat} {r : RecordState}
  {queue queue' : List ManagementRequestData}

theorem opening_clear : Opening {} := ⟨by decide, rfl, rfl, rfl, rfl, rfl, rfl⟩

theorem opening_onClosure (r : RecordState) : Opening r.onClosure :=
  ⟨by simp [RecordState.onClosure], rfl, rfl, rfl, rfl, rfl, rfl⟩

theorem Accepted.mono (h : Accepted s c queue r) (hqueue : queue ≠ [] → queue' ≠ [])
    (hpending : ∀ i : UInt16, ⟨c, i⟩ ∈ s.pendingRequestMap → ⟨c, i⟩ ∈ t.pendingRequestMap) :
    Accepted t c queue' r := by
  cases h with
  | endRequest htype hcontent hid => exact .endRequest htype hcontent (hpending _ hid)
  | stream htype hid => exact .stream htype (hpending _ hid)
  | getValuesResult htype hid hne => exact .getValuesResult htype hid (hqueue hne)
  | unknownType htype hid hcontent hne => exact .unknownType htype hid hcontent (hqueue hne)

theorem Announced.mono (h : Announced s c queue r) (hqueue : queue ≠ [] → queue' ≠ [])
    (hpending : ∀ i : UInt16, ⟨c, i⟩ ∈ s.pendingRequestMap → ⟨c, i⟩ ∈ t.pendingRequestMap) :
    Announced t c queue' r :=
  { h with accepted := fun hvalid => (h.accepted hvalid).mono hqueue hpending }

/-! ## Calls that receive nothing -/

/-- Nothing is received from `s` to `t`: the record of a connection that stays
open goes on, and so does what it needs. -/
def Carries (s t : TestFcgiClientInterface) : Prop :=
  ∀ (c : Nat) (e' : ConnectionState), t.connectionMap[c]? = some e' →
    Opening e'.recordState ∨ ∃ e, s.connectionMap[c]? = some e ∧ e'.recordState = e.recordState ∧
      (e.connected = true → e'.connected = true ∧
        (e.managementQueue ≠ [] → e'.managementQueue ≠ []) ∧
        ∀ i : UInt16, ⟨c, i⟩ ∈ s.pendingRequestMap → ⟨c, i⟩ ∈ t.pendingRequestMap)

theorem Framed.carries (h : Framed s) (hst : Carries s t) : Framed t := by
  intro c e' he'
  rcases hst c e' he' with hopening | ⟨e, he, hrecord, hkept⟩
  · exact .inl hopening
  · rcases h c e he with hopening | ⟨hconnected, hincomplete, hannounced⟩
    · exact .inl (hrecord ▸ hopening)
    · obtain ⟨hconnected', hqueue, hpending⟩ := hkept hconnected
      rw [FramedAt, hrecord]
      exact .inr ⟨hconnected', hincomplete, hannounced.mono hqueue hpending⟩

namespace Carries

theorem of_entries (hc : ∀ k : Nat, t.connectionMap[k]? = s.connectionMap[k]?)
    (hp : ∀ i, i ∈ s.pendingRequestMap → i ∈ t.pendingRequestMap) : Carries s t :=
  fun c e' he' => .inr ⟨e', hc c ▸ he', rfl, fun hconnected => ⟨hconnected, id, fun _ => hp _⟩⟩

theorem refl (s : TestFcgiClientInterface) : Carries s s := of_entries (fun _ => rfl) fun _ => id

theorem trans (h : Carries s t) (h' : Carries t u) : Carries s u := by
  intro c e'' he''
  rcases h' c e'' he'' with hopening | ⟨e', he', hrecord', hkept'⟩
  · exact .inl hopening
  · rcases h c e' he' with hopening | ⟨e, he, hrecord, hkept⟩
    · exact .inl (hrecord' ▸ hopening)
    · refine .inr ⟨e, he, hrecord'.trans hrecord, fun hconnected => ?_⟩
      obtain ⟨hconnected', hqueue, hpending⟩ := hkept hconnected
      obtain ⟨hconnected'', hqueue', hpending'⟩ := hkept' hconnected'
      exact ⟨hconnected'', hqueue' ∘ hqueue, fun i => hpending' i ∘ hpending i⟩

/-- One element changes, but not its record. -/
theorem setConnection {e e' : ConnectionState} (he : s.connectionMap[c]? = some e)
    (hrecord : e'.recordState = e.recordState) (hconnected : e'.connected = e.connected)
    (hqueue : e.managementQueue ≠ [] → e'.managementQueue ≠ []) :
    Carries s (s.setConnection c e') := by
  intro k f hf
  rw [TestFcgiClientInterface.getElem?_setConnection] at hf
  split at hf
  · rename_i hk
    cases hf
    exact .inr ⟨e, hk ▸ he, hrecord, fun h => ⟨hconnected.trans h, hqueue, fun _ => id⟩⟩
  · exact .inr ⟨f, hf, rfl, fun h => ⟨h, id, fun _ => id⟩⟩

end Carries

theorem Closed.carries (h : Closed c s t) : Carries s t := by
  intro k e' he'
  by_cases hk : k = c
  · subst hk
    obtain ⟨hcompleted, -⟩ := h.entry he'
    obtain ⟨e, f, -, hf, -, -, hrecord, -⟩ := h.kept hcompleted
    obtain rfl := Option.some.inj (hf.symm.trans he')
    exact .inl (hrecord ▸ opening_onClosure _)
  · refine .inr ⟨e', h.others k hk ▸ he', rfl, fun hconnected => ⟨hconnected, id, fun i hi => ?_⟩⟩
    exact (h.mem_pending_iff _).mpr ⟨hi, hk⟩

theorem Carries.pushEvent (h : Carries s t) (event : ServerEvent) : Carries s (t.pushEvent event) :=
  h.trans (.of_entries (fun _ => rfl) fun _ => id)

theorem ClosedThrough.carries {reply : SystemReply} (h : ClosedThrough reply c s t) :
    Carries s t := by
  obtain ⟨u, hu, rfl⟩ := h
  exact hu.carries.pushEvent _

theorem Opened.carries (h : Opened c s t) : Carries s t := by
  intro k e' he'
  by_cases hk : k = c
  · subst hk
    obtain ⟨e, he, hentry⟩ := h.entry
    obtain rfl := Option.some.inj (he.symm.trans he')
    rcases hentry with hentry | ⟨-, rfl⟩
    · exact .inr ⟨e, hentry, rfl, fun _ => ⟨rfl, id, fun i hi => h.pending ▸ hi⟩⟩
    · exact .inl opening_clear
  · exact .inr ⟨e', h.others k hk ▸ he', rfl, fun hconnected =>
      ⟨hconnected, id, fun i hi => h.pending ▸ hi⟩⟩

theorem Freed.carries {ids : List FcgiRequestIdentifier} (h : Freed c ids s t) : Carries s t := by
  intro k e' he'
  by_cases hk : k = c
  · subst hk
    obtain ⟨e, he, ⟨-, -, hnone, -⟩ | ⟨-, -, m, hm, -⟩⟩ := h.entry
    · cases hnone.symm.trans he'
    · obtain rfl := Option.some.inj (hm.symm.trans he')
      exact .inr ⟨e, he, rfl, fun hconnected => ⟨hconnected, id, fun i hi => h.pending ▸ hi⟩⟩
  · exact .inr ⟨e', h.others k hk ▸ he', rfl, fun hconnected =>
      ⟨hconnected, id, fun i hi => h.pending ▸ hi⟩⟩

theorem Sends.carries (h : Sends c s t) : Carries s t :=
  .of_entries (fun _ => by rw [h.connectionMap]) fun _ hi => h.pendingRequestMap ▸ hi

theorem Acquired.carries {newId : UInt16} (h : Acquired c newId s t) : Carries s t := by
  obtain ⟨e, id, m, he, -, -, rfl⟩ := h.acquired
  exact .setConnection he rfl rfl fun hne => hne

theorem Released.carries {ids : List FcgiRequestIdentifier} (h : Released c ids s t)
    (hc : c ∈ s.connectionMap) (hpending : t.pendingRequestMap = s.pendingRequestMap) :
    Carries s t := by
  intro k e' he'
  by_cases hk : k = c
  · subst hk
    obtain ⟨e, he⟩ := mem_connectionMap_iff.mp hc
    obtain ⟨m, hm, -⟩ := h.entry e he
    obtain rfl := Option.some.inj (hm.symm.trans he')
    exact .inr ⟨e, he, rfl, fun hconnected => ⟨hconnected, id, fun i hi => hpending ▸ hi⟩⟩
  · exact .inr ⟨e', h.others k hk ▸ he', rfl, fun hconnected =>
      ⟨hconnected, id, fun i hi => hpending ▸ hi⟩⟩

theorem Settled.carries {newId : UInt16} (h : Settled c newId s t) (hc : c ∈ s.connectionMap) :
    Carries s t := by
  cases h with
  | pending d hu =>
    refine hu.carries.trans (.of_entries (fun _ => rfl) fun i hi => ?_)
    exact mem_insertPending.mpr (.inr hi)
  | released hu ht hpending =>
    exact hu.carries.trans (ht.carries (hu.connectionMap ▸ hc) hpending)
  | closed hu hv ht =>
    obtain ⟨event, rfl⟩ := ht
    exact (hu.carries.trans hv.carries).pushEvent event

end

/-! ## Abort requests and management requests -/

section

variable {s t : TestFcgiClientInterface} {c : Nat} {reply : SystemReply} {e : ConnectionState}

theorem after_sendAbortRequest_carries {id : FcgiRequestIdentifier} :
    After (sendAbortRequest reply id) s (fun _ t => Carries s t)
      (Thrown fun _ t => Carries s t) := by
  rw [sendAbortRequest, after_bind, after_get, after_ite]
  refine ⟨fun _ => Carries.refl s, fun _ => ?_⟩
  rw [after_ite]
  refine ⟨fun _ => Carries.refl s, fun hc => ?_⟩
  rw [Bool.not_eq_false] at hc
  split
  · trivial
  · rw [after_bind]
    refine after_writeOnSelect.mono (fun r t ht => ?_) fun _ _ hE => hE
    have hst := ht.1
    rw [after_ite]
    refine ⟨fun _ => ?_, fun _ => hst.carries⟩
    rw [after_bind]
    refine (after_failedWrite (hst.still.isConnected _ ▸ hc)).mono (fun _ u hu => ?_)
      fun _ u hE hne => ?_
    · exact hst.carries.trans hu.2.carries
    · obtain ⟨-, -, hu⟩ := hE hne
      split at hu
      · exact hu ▸ hst.carries
      · exact hst.carries.trans hu.carries

/-- The management request at the end of the queue is taken back. -/
def ConnectionState.popBack (e : ConnectionState) : ConnectionState :=
  { e with managementQueue := e.managementQueue.dropLast }

theorem after_failedWrite_popBack {errno : Errno} {nothingWritten : Bool} {what : String}
    (he : s.connectionMap[c]? = some e) (hconnected : e.connected = true) :
    After (failedWrite reply c errno nothingWritten true what) s
      (fun _ t => Carries (s.setConnection c e.popBack) t)
      (Thrown fun _ t => Carries (s.setConnection c e.popBack) t) := by
  have hc : (s.setConnection c e.popBack).isConnected c = true :=
    isConnected_eq_true_iff.mpr ⟨e.popBack,
      (s.getElem?_setConnection c c e.popBack).trans (if_pos rfl), hconnected⟩
  rw [failedWrite]
  refine after_noexceptBlock_bind (R := fun _ t => Carries (s.setConnection c e.popBack) t) ?_
    fun _ t ht => ?_
  · rw [if_pos rfl, after_bind]
    refine after_connectionState fun e' he' => ?_
    obtain rfl := Option.some.inj (he.symm.trans he')
    rw [after_bind, after_modify]
    refine (after_closeUnless hc).mono (fun _ t ht => ?_) fun _ _ hE => hE
    split at ht
    · exact ht ▸ .refl _
    · exact ht.carries
  · rw [after_ite]
    exact ⟨fun _ _ => ht, fun _ => ht⟩

/-- The management request at the end of a queue is sent or taken back. -/
theorem after_sendManagementRequestHelper_carries {iovec : List Bytes} {n : Nat}
    {q : ManagementRequestData} (he : s.connectionMap[c]? = some e) (hconnected : e.connected = true) :
    After (sendManagementRequestHelper reply c iovec n)
      (s.setConnection c { e with managementQueue := e.managementQueue ++ [q] })
      (fun _ t => Carries s t) (Thrown fun _ t => Carries s t) := by
  set e' : ConnectionState := { e with managementQueue := e.managementQueue ++ [q] }
  have hqueued : Carries s (s.setConnection c e') := .setConnection he rfl rfl (by simp [e'])
  unfold sendManagementRequestHelper
  split
  · trivial
  · rw [after_bind]
    refine after_scatterGatherSocketWrite.mono (fun r t ht => ?_) fun _ _ hE => hE
    rw [after_ite]
    refine ⟨fun _ => ?_, fun _ => hqueued.trans ht.carries⟩
    rw [after_bind]
    have hentry : ∀ k : Nat, t.connectionMap[k]? = if k = c then some e' else s.connectionMap[k]? :=
      fun k => by rw [ht.connectionMap, TestFcgiClientInterface.getElem?_setConnection]
    have hback : Carries s (t.setConnection c e'.popBack) := by
      refine .of_entries (fun k => ?_) fun i hi => ?_
      · rw [TestFcgiClientInterface.getElem?_setConnection, hentry]
        by_cases hk : k = c
        · simp [hk, he, e', ConnectionState.popBack]
        · simp [hk]
      · exact ht.pendingRequestMap ▸ hi
    refine (after_failedWrite_popBack ((hentry c).trans (if_pos rfl)) hconnected).mono
      (fun _ u hu => ?_) fun _ u hE hne => ?_
    · exact hback.trans hu
    · exact hback.trans (hE hne)

theorem after_queuedRequest_carries {q : ManagementRequestData} {iovec : List Bytes} {n : Nat}
    (hc : s.isConnected c = true) :
    After (do pushManagementRequest reply c q; sendManagementRequestHelper reply c iovec n) s
      (fun _ t => Carries s t) (Thrown fun _ t => Carries s t) := by
  obtain ⟨e, he, hconnected⟩ := isConnected_eq_true_iff.mp hc
  rw [after_bind, pushManagementRequest, after_bind]
  unfold insertionSucceeds
  split
  · exact fun _ => .refl s
  · rw [after_pure, after_bind]
    refine after_connectionState fun e' he' => ?_
    obtain rfl := Option.some.inj (he.symm.trans he')
    rw [after_modify]
    exact after_sendManagementRequestHelper_carries he hconnected

theorem after_sendBinaryManagementRequest_carries {type : FcgiType} {data : Bytes} :
    After (sendBinaryManagementRequest reply c type data) s (fun _ t => Carries s t)
      (Thrown fun _ t => Carries s t) := by
  rw [sendBinaryManagementRequest, after_bind, after_get, after_ite]
  refine ⟨fun _ => Carries.refl s, fun hc => ?_⟩
  rw [after_ite]
  refine ⟨fun _ => Carries.refl s, fun _ => ?_⟩
  exact after_queuedRequest_carries (Bool.not_eq_false _ ▸ hc)

theorem after_sendGetValuesRequest_carries {params : ParamsMap} :
    After (sendGetValuesRequest reply c params) s (fun _ t => Carries s t)
      (Thrown fun _ t => Carries s t) := by
  rw [sendGetValuesRequest, after_bind, after_get, after_ite]
  refine ⟨fun _ => Carries.refl s, fun hc => ?_⟩
  rw [after_ite]
  refine ⟨fun _ => Carries.refl s, fun _ => ?_⟩
  exact after_queuedRequest_carries (Bool.not_eq_false _ ▸ hc)

/-- A call that reads nothing. -/
def Call.ReadsNothing : Call → Prop
  | .retrieveServerEvent => False
  | _ => True

/-- Between two reads the records go on. -/
theorem carries_of_step {call : Call} (hinv : Invariant s) (hs : step s reply call = some t)
    (hcall : call.ReadsNothing) : Carries s t := by
  cases effect_of_step hinv hs with
  | none => exact .refl s
  | opened h => exact h.carries
  | closed h => exact h.carries
  | freed h => exact h.carries
  | freedAll h => exact h.carries
  | retrieved h => exact hcall.elim
  | sent hu ht =>
    obtain ⟨e, he, -⟩ := hu.entry
    exact hu.carries.trans (ht.carries (mem_connectionMap_iff.mpr ⟨e, he⟩))
  | aborted h =>
    refine of_step ?_ hs
    rw [perform, after_map]
    exact after_sendAbortRequest_carries
  | sentBinary h =>
    refine of_step ?_ hs
    rw [perform, after_map]
    exact after_sendBinaryManagementRequest_carries
  | sentGetValues h =>
    refine of_step ?_ hs
    rw [perform, after_map]
    exact after_sendGetValuesRequest_carries

end

end AsComponents.Client
