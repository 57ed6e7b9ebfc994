import AsComponents.ClientHeaders
import AsComponents.ClientRecordStates

/-!
# The records of a byte stream

The reception of bytes as a server means them: they are cut into records, the
header of a record is checked once, its content is kept as it arrives, and the
record is processed once, when all of it was received.
-/

namespace AsComponents.Client

open Protocol NameValue SocketFunctions AsComponents.Partition Std Critical

/-! ## The reference -/

def currentRecord (connection : Nat) : Operation RecordState := do
  return (← connectionState connection).recordState

/-- A record of `FCGI_STDOUT` or `FCGI_STDERR` that was not invalidated. -/
def RecordState.isStream (r : RecordState) : Bool :=
  !r.invalidated && (r.type == kFcgiStdout || r.type == kFcgiStderr)

def RecordState.addContent (r : RecordState) (bytes : Bytes) : RecordState :=
  { r with
    localBuffer := if r.isStream then r.localBuffer else r.localBuffer ++ bytes
    contentBytesReceived := r.contentBytesReceived + bytes.length }

def RecordState.addPadding (r : RecordState) (bytes : Bytes) : RecordState :=
  { r with paddingBytesReceived := r.paddingBytesReceived + bytes.length }

def RequestData.append (d : RequestData) (type : FcgiType) (bytes : Bytes) : RequestData :=
  if type = kFcgiStdout then { d with fcgiStdout := d.fcgiStdout ++ bytes }
  else { d with fcgiStderr := d.fcgiStderr ++ bytes }

/-- Bytes of a header, which is checked when it is complete. -/
def takeHeader (reply : SystemReply) (connection : Nat) (bytes : Bytes) : Operation Unit := do
  let r ← currentRecord connection
  setRecordState connection { r with header := r.header ++ bytes }
  if (r.header ++ bytes).length = fcgiHeaderLen then
    discard (updateOnHeaderCompletion reply connection none)

/-- Content of a stream goes to the request with the identifier of the
record. -/
def appendStream (connection : Nat) (r : RecordState) (bytes : Bytes) : Operation Unit := do
  if r.isStream then
    let (id, d) ← requestData ((← get).find ⟨connection, r.fcgiId⟩)
    modify (·.setPending id (d.append r.type bytes))

def takeContent (connection : Nat) (bytes : Bytes) : Operation Unit := do
  let r ← currentRecord connection
  appendStream connection r bytes
  setRecordState connection (r.addContent bytes)

def takePadding (connection : Nat) (bytes : Bytes) : Operation Unit := do
  let r ← currentRecord connection
  setRecordState connection (r.addPadding bytes)

/-- A complete record is processed with the request of its identifier. -/
def finishRecord (connection : Nat) : Operation Unit := do
  let r ← currentRecord connection
  discard (processCompleteRecord connection ((← get).find ⟨connection, r.fcgiId⟩))

def finishWhenComplete (connection : Nat) : Operation Unit := do
  if (← currentRecord connection).Complete then finishRecord connection

/-- The rest of a record with a complete header. -/
def takeBody (connection : Nat) (r : RecordState) (data : Bytes) : Operation Bytes := do
  let content := r.contentBytesExpected - r.contentBytesReceived
  let padding := r.paddingBytesExpected - r.paddingBytesReceived
  takeContent connection (data.take content)
  takePadding connection ((data.drop content).take padding)
  finishWhenComplete connection
  return data.drop (content + padding)

/-- The bytes of the record that is received, or of the next one; the value is
what follows them. -/
def takeRecord (reply : SystemReply) (connection : Nat) (data : Bytes) : Operation Bytes := do
  let r ← currentRecord connection
  if r.header.length < fcgiHeaderLen then
    let missing := fcgiHeaderLen - r.header.length
    takeHeader reply connection (data.take missing)
    let r ← currentRecord connection
    if r.header.length < fcgiHeaderLen then return [] else
      takeBody connection r (data.drop missing)
  else takeBody connection r data

/-- One record after the other. -/
def takeRecords (reply : SystemReply) (connection : Nat) (data : Bytes) : Operation Unit :=
  if data = [] then return ()
  else do
    let rest ← takeRecord reply connection data
    if _h : rest.length < data.length then takeRecords reply connection rest else Critical.wait
  termination_by data.length

/-! ## A connection that receives -/

/-- Bytes can be received on connection `c`, whose element is `e`. -/
structure Receiving (c : Nat) (s : TestFcgiClientInterface) (e : ConnectionState) : Prop where
  entry : s.connectionMap[c]? = some e
  connected : e.connected = true
  others : ∀ (k : Nat) (f : ConnectionState), k ≠ c → s.connectionMap[k]? = some f → FramedAt s k f
  disjoint : ∀ i ∈ s.completedRequestSet, i ∉ s.pendingRequestMap
  identified : ∀ i ∈ s.pendingRequestMap, i.fcgiId ≠ fcgiNullRequestId

/-- Nothing but the next record has to be received on connection `c`. -/
structure Ready (c : Nat) (s : TestFcgiClientInterface) : Prop where
  framed : Framed s
  connected : s.isConnected c = true
  disjoint : ∀ i ∈ s.completedRequestSet, i ∉ s.pendingRequestMap
  identified : ∀ i ∈ s.pendingRequestMap, i.fcgiId ≠ fcgiNullRequestId

section

variable {s t : TestFcgiClientInterface} {c : Nat} {e : ConnectionState} {r : RecordState}
  {id : FcgiRequestIdentifier} {d : RequestData}

theorem Ready.receiving (h : Ready c s) : ∃ e, Receiving c s e ∧ FramedAt s c e := by
  obtain ⟨e, he, hconnected⟩ := isConnected_eq_true_iff.mp h.connected
  exact ⟨e, ⟨he, hconnected, fun k f _ hf => h.framed k f hf, h.disjoint, h.identified⟩,
    h.framed c e he⟩

namespace Receiving

theorem ready (h : Receiving c s e) (hframed : FramedAt s c e) : Ready c s where
  framed k f hf := by
    by_cases hk : k = c
    · subst hk
      obtain rfl := Option.some.inj (h.entry.symm.trans hf)
      exact hframed
    · exact h.others k f hk hf
  connected := isConnected_eq_true_iff.mpr ⟨e, h.entry, h.connected⟩
  disjoint := h.disjoint
  identified := h.identified

/-- Connection `c` changes, and requests of it. -/
theorem of_kept {e' : ConnectionState} (h : Receiving c s e) (hentry : t.connectionMap[c]? = some e')
    (hconnected : e'.connected = true)
    (hothers : ∀ k : Nat, k ≠ c → t.connectionMap[k]? = s.connectionMap[k]?)
    (hpending : ∀ i, i ∈ t.pendingRequestMap → i ∈ s.pendingRequestMap)
    (hkept : ∀ i : FcgiRequestIdentifier, i.descriptor ≠ c → i ∈ s.pendingRequestMap →
      i ∈ t.pendingRequestMap)
    (hcompleted : ∀ i ∈ t.completedRequestSet, i ∈ s.completedRequestSet ∨ i ∉ t.pendingRequestMap) :
    Receiving c t e' where
  entry := hentry
  connected := hconnected
  others k f hk hf := by
    refine (h.others k f hk (hothers k hk ▸ hf)).imp id ?_
    rintro ⟨hc, hincomplete, hannounced⟩
    exact ⟨hc, hincomplete, hannounced.mono id fun i => hkept ⟨k, i⟩ hk⟩
  disjoint i hi hp := (hcompleted i hi).elim (fun h' => h.disjoint i h' (hpending i hp))
    fun hnot => hnot hp
  identified i hi := h.identified i (hpending i hi)

theorem setConnection {e' : ConnectionState} (h : Receiving c s e) (hconnected : e'.connected = true) :
    Receiving c (s.setConnection c e') e' :=
  h.of_kept ((s.getElem?_setConnection c c e').trans (if_pos rfl)) hconnected
    (fun k hk => (s.getElem?_setConnection c k e').trans (if_neg hk)) (fun _ => id) (fun _ _ => id)
    fun _ => .inl

theorem setRecord (h : Receiving c s e) (r : RecordState) :
    Receiving c (s.setConnection c { e with recordState := r }) { e with recordState := r } :=
  h.setConnection h.connected

theorem mem_setPending (hid : id ∈ s.pendingRequestMap) (i : FcgiRequestIdentifier) :
    i ∈ (s.setPending id d).pendingRequestMap ↔ i ∈ s.pendingRequestMap := by
  simp only [TestFcgiClientInterface.setPending]
  grind

theorem setPending (h : Receiving c s e) (hid : id ∈ s.pendingRequestMap) :
    Receiving c (s.setPending id d) e :=
  h.of_kept h.entry h.connected (fun _ _ => rfl) (fun i => (mem_setPending hid i).mp)
    (fun i _ => (mem_setPending hid i).mpr) fun _ => .inl

theorem pushEvent (h : Receiving c s e) (event : ServerEvent) : Receiving c (s.pushEvent event) e :=
  h.of_kept h.entry h.connected (fun _ _ => rfl) (fun _ => id) (fun _ _ => id) fun _ => .inl

end Receiving

/-! ## Elements of the tables -/

theorem ok_connectionState (he : s.connectionMap[c]? = some e) :
    connectionState c s = some (.ok e, s) := by
  rw [connectionState, get_bind, he]
  rfl

theorem ok_currentRecord (he : s.connectionMap[c]? = some e) :
    currentRecord c s = some (.ok e.recordState, s) := by
  rw [currentRecord, ok_bind (ok_connectionState he)]
  rfl

theorem ok_setRecordState (he : s.connectionMap[c]? = some e) :
    setRecordState c r s = some (.ok ⟨⟩, s.setConnection c { e with recordState := r }) := by
  rw [setRecordState, ok_bind (ok_connectionState he)]
  rfl

theorem ok_requestData (hd : s.pendingRequestMap[id]? = some d) :
    requestData (some id) s = some (.ok (id, d), s) := by
  rw [requestData, get_bind, hd]
  rfl

theorem find_eq_some (hid : id ∈ s.pendingRequestMap) : s.find id = some id := if_pos hid

theorem find_eq_none (hid : id ∉ s.pendingRequestMap) : s.find id = none := if_neg hid

theorem ok_pendingIterCheck {it : Option FcgiRequestIdentifier} (hit : ValidIterator s it) :
    pendingIterCheck it id s = some (.ok (s.find id), s) := by
  obtain ⟨a, t, hx, rfl, rfl⟩ := returns_pendingIterCheck id
    (Q := fun a t => a = s.find id ∧ t = s) hit ⟨rfl, rfl⟩
  exact hx

theorem ok_pendingIterCheckAndUpdate {it : Option FcgiRequestIdentifier} (hit : ValidIterator s it)
    (hid : id ∈ s.pendingRequestMap) :
    pendingIterCheckAndUpdate it id s = some (.ok (some id), s) := by
  rw [pendingIterCheckAndUpdate, ok_bind (ok_pendingIterCheck hit), find_eq_some hid]
  rfl

end

end AsComponents.Client
