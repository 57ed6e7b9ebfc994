import AsComponents.ClientRules

/-! The reception of one record by a client, in any number of reads. -/

namespace AsComponents.Client

open Protocol NameValue SocketFunctions AsComponents.Partition Std Critical

/-! ## The validation of a header -/

/-- The request of a header. -/
def headerIdentifier (c : Nat) (header : Bytes) : FcgiRequestIdentifier :=
  ⟨c, headerRequestId header⟩

/-- The check of an end record with `n` bytes of content against its request. -/
def acceptsEnd (n : Nat) (d : RequestData) : Bool :=
  (d.stderrCompleted || decide (d.fcgiStderr = [])) && d.stdoutCompleted && n == 8

/-- The check of a header by its type, for connection `c` with the management
requests `queue`. -/
def validType (s : TestFcgiClientInterface) (c : Nat) (queue : List ManagementRequestData)
    (header : Bytes) : Bool :=
  if headerType header = kFcgiEndRequest then
    s.pendingRequestMap[headerIdentifier c header]?.any (acceptsEnd (headerContentLength header))
  else if headerType header = kFcgiStdout then
    s.pendingRequestMap[headerIdentifier c header]?.any fun d => !d.stdoutCompleted
  else if headerType header = kFcgiStderr then
    s.pendingRequestMap[headerIdentifier c header]?.any fun d => !d.stderrCompleted
  else if headerType header = kFcgiGetValuesResult then
    headerRequestId header == fcgiNullRequestId && queue.head?.any fun q => q.type = kFcgiGetValues
  else if headerType header = kFcgiUnknownType then
    headerRequestId header == fcgiNullRequestId && headerContentLength header == 8 &&
      queue.head?.any fun q => q.type ≠ kFcgiGetValues
  else false

def validHeader (s : TestFcgiClientInterface) (c : Nat) (queue : List ManagementRequestData)
    (header : Bytes) : Bool :=
  decide (header.headD 0 = 1) && validType s c queue header

/-- The acceptance of an end record completes an empty `FCGI_STDERR`. -/
def acceptEnd (s : TestFcgiClientInterface) (id : FcgiRequestIdentifier) (n : Nat) :
    TestFcgiClientInterface :=
  match s.pendingRequestMap[id]? with
  | some d =>
      if acceptsEnd n d = true ∧ d.fcgiStderr = [] then
        s.setPending id { d with stderrCompleted := true }
      else s
  | none => s

/-- The state after the check of a header. -/
def checkedState (s : TestFcgiClientInterface) (c : Nat) (header : Bytes) :
    TestFcgiClientInterface :=
  if header.headD 0 = 1 ∧ headerType header = kFcgiEndRequest then
    acceptEnd s (headerIdentifier c header) (headerContentLength header)
  else s

section

variable {s : TestFcgiClientInterface} {reply : SystemReply} {c : Nat}
  {it : Option FcgiRequestIdentifier} {header : Bytes} {e : ConnectionState}

/-- The iterator after the search refers to the request, when it is pending. -/
theorem after_pendingIterCheck {id : FcgiRequestIdentifier}
    {Q : Option FcgiRequestIdentifier → TestFcgiClientInterface → Prop}
    {E : Failure → TestFcgiClientInterface → Prop}
    (h : ∀ it', (it' = some id ∨ it' = none ∧ s.pendingRequestMap[id]? = none) → Q it' s) :
    After (pendingIterCheck it id) s Q E := by
  rw [pendingIterCheck, after_ite]
  refine ⟨fun hit => h it (.inl hit), fun _ => ?_⟩
  rw [after_bind, after_get, after_pure]
  refine h _ ?_
  unfold TestFcgiClientInterface.find
  split
  · exact .inl rfl
  · rename_i hmem
    exact .inr ⟨rfl, ExtTreeMap.getElem?_eq_none hmem⟩

theorem after_readPastTheEnd {Q : Bool → TestFcgiClientInterface → Prop}
    {E : Failure → TestFcgiClientInterface → Prop} (h : ∀ empty, Q empty s) :
    After (readPastTheEnd reply) s Q (Thrown E) := by
  unfold readPastTheEnd
  split
  · exact h _
  · exact after_halt

theorem after_checkStream {completed : RequestData → Bool} {id : FcgiRequestIdentifier}
    (hit : it = some id ∨ it = none ∧ s.pendingRequestMap[id]? = none) :
    After (checkStream completed it) s
      (fun err t => t = s ∧ err = !(s.pendingRequestMap[id]?.any fun d => !completed d))
      (Thrown fun _ _ => False) := by
  rw [checkStream, after_ite]
  constructor
  · intro hnone
    rcases hit with rfl | ⟨-, hfree⟩
    · cases hnone
    · simp [hfree]
  · intro hsome
    rcases hit with rfl | ⟨hnone, -⟩
    · rw [after_bind]
      refine after_requestData fun id' d hid hd => ?_
      cases hid
      simp [hd]
    · exact absurd hnone hsome

theorem after_checkEndRequest {id : FcgiRequestIdentifier} {n : Nat}
    (hit : it = some id ∨ it = none ∧ s.pendingRequestMap[id]? = none) :
    After (checkEndRequest reply it n) s
      (fun err t => t = acceptEnd s id n ∧
        err = !(s.pendingRequestMap[id]?.any (acceptsEnd n)))
      (Thrown fun _ _ => False) := by
  rw [checkEndRequest, after_bind]
  rcases hit with rfl | ⟨rfl, hfree⟩
  · rw [stderrEmpty, after_bind]
    refine after_requestData fun id' d hid hd => ?_
    cases hid
    rw [after_pure, after_ite]
    refine ⟨fun h => absurd h (by simp), fun _ => ?_⟩
    rw [after_bind]
    refine after_requestData fun id' d' hid hd' => ?_
    cases hid
    obtain rfl := Option.some.inj (hd.symm.trans hd')
    rw [acceptEnd, hd, after_ite]
    constructor
    · intro hrefused
      have hnot : acceptsEnd n d = false := by
        rw [← Bool.not_eq_true, acceptsEnd]
        simp only [Bool.and_eq_true, Bool.or_eq_true, decide_eq_true_eq, beq_iff_eq] at hrefused ⊢
        tauto
      simp [hnot]
    · intro haccepted
      have hyes : acceptsEnd n d = true := by
        rw [acceptsEnd]
        simp only [Bool.and_eq_true, Bool.or_eq_true, decide_eq_true_eq, beq_iff_eq] at haccepted ⊢
        tauto
      by_cases hempty : d.fcgiStderr = []
      · simp [hyes, hempty]
      · simp [hyes, hempty]
  · rw [stderrEmpty]
    refine after_readPastTheEnd fun empty => ?_
    rw [after_ite]
    refine ⟨fun _ => ?_, fun h => absurd rfl h⟩
    simp [acceptEnd, hfree]

theorem after_checkType (he : s.connectionMap[c]? = some e) :
    After (checkType reply c it (headerType header) (headerRequestId header)
        (headerContentLength header)) s
      (fun r t => t = (if headerType header = kFcgiEndRequest then
          acceptEnd s (headerIdentifier c header) (headerContentLength header) else s) ∧
        r.2 = !validType s c e.managementQueue header)
      (Thrown fun _ _ => False) := by
  unfold checkType validType
  rw [after_ite]
  constructor
  · intro htype
    rw [if_pos htype, if_pos htype, after_bind]
    refine after_pendingIterCheck fun it' hit => ?_
    rw [after_bind]
    exact (after_checkEndRequest hit).mono (fun err t ht => ht) fun _ _ hE => hE
  intro hend
  rw [if_neg hend, if_neg hend, after_ite]
  constructor
  · intro htype
    rw [if_pos htype, after_bind]
    refine after_pendingIterCheck fun it' hit => ?_
    rw [after_bind]
    exact (after_checkStream hit).mono (fun err t ht => ht) fun _ _ hE => hE
  intro hstdout
  rw [if_neg hstdout, after_ite]
  constructor
  · intro htype
    rw [if_pos htype, after_bind]
    refine after_pendingIterCheck fun it' hit => ?_
    rw [after_bind]
    exact (after_checkStream hit).mono (fun err t ht => ht) fun _ _ hE => hE
  intro hstderr
  rw [if_neg hstderr, after_bind]
  refine after_connectionState fun e' he' => ?_
  obtain rfl := Option.some.inj (he.symm.trans he')
  rw [after_ite]
  constructor
  · intro htype
    rw [if_pos htype, after_pure]
    simp [bne]
  intro hvalues
  rw [if_neg hvalues, after_ite]
  constructor
  · intro htype
    rw [if_pos htype, after_pure]
    simp [bne]
  · intro hunknown
    rw [if_neg hunknown, after_pure]
    simp

/-- What the validation of a header finds and does. -/
theorem after_checkHeader (he : s.connectionMap[c]? = some e) :
    After (checkHeader reply c it header) s
      (fun r t => t = checkedState s c header ∧
        r.2 = !validHeader s c e.managementQueue header)
      (Thrown fun _ _ => False) := by
  unfold checkHeader checkedState validHeader
  rw [after_ite]
  constructor
  · intro hversion
    rw [after_pure, if_neg (fun h => hversion h.1), decide_eq_false hversion]
    exact ⟨rfl, rfl⟩
  · intro hversion
    rw [not_not] at hversion
    refine (after_checkType he).mono (fun r t ht => ?_) fun _ _ hE => hE
    rw [decide_eq_true hversion, Bool.true_and]
    simpa only [hversion, true_and] using ht

end

/-! ## Records -/

/-- A record: a header, and the content and padding whose lengths it gives. -/
structure IsRecord (header content padding : Bytes) : Prop where
  headerLength : header.length = 8
  contentLength : content.length = headerContentLength header
  paddingLength : padding.length = headerPaddingLength header

/-- No byte of a record has been received. -/
def RecordState.Clear (r : RecordState) : Prop := r = { type := r.type, fcgiId := r.fcgiId }

/-- The record state after the header, with `j` bytes of content, `p` bytes of
padding and the content in the buffer. -/
def bodyState (header : Bytes) (invalidated : Bool) (j p : Nat) (buffer : Bytes) : RecordState where
  invalidated := invalidated
  header := header
  type := headerType header
  fcgiId := headerRequestId header
  contentBytesExpected := headerContentLength header
  contentBytesReceived := j
  paddingBytesExpected := headerPaddingLength header
  paddingBytesReceived := p
  localBuffer := buffer

/-- The protocol status of the content of an end record is not known. -/
def UnknownStatus (content : Bytes) : Prop :=
  content.getD 4 0 ≠ fcgiRequestComplete ∧ content.getD 4 0 ≠ fcgiCantMpxConn ∧
    content.getD 4 0 ≠ fcgiOverloaded ∧ content.getD 4 0 ≠ fcgiUnknownRole

def ServerEvent.isInvalidRecord : ServerEvent → Bool
  | .invalidRecord .. => true
  | _ => false

namespace TestFcgiClientInterface

/-- Other values of the tracking state. -/
def retrack (s : TestFcgiClientInterface) (n : Int) (next : ConnectionIterator)
    (set : ExtTreeSet Nat) : TestFcgiClientInterface :=
  { s with remainingReady := n, nextConnection := next, selectSet := set }

/-- Other values of the tracking state and the event queue. -/
def resume (s : TestFcgiClientInterface) (n : Int) (next : ConnectionIterator)
    (set : ExtTreeSet Nat) (queue : List ServerEvent) : TestFcgiClientInterface :=
  { s.retrack n next set with microEventQueue := queue }

/-- The same state but for the tracking state. -/
def Retracked (s t : TestFcgiClientInterface) : Prop := ∃ n next set, t = s.retrack n next set

theorem setConnection_self {s : TestFcgiClientInterface} {c : Nat} {e : ConnectionState}
    (he : s.connectionMap[c]? = some e) : s.setConnection c e = s := by
  have hmap : s.connectionMap.insert c e = s.connectionMap := by
    refine ExtTreeMap.ext_getElem? fun k => ?_
    rw [ExtTreeMap.getElem?_insert]
    split
    · rename_i hk
      rw [← Nat.compare_eq_eq.mp hk, he]
    · rfl
  rw [setConnection, hmap]

theorem setConnection_setConnection (s : TestFcgiClientInterface) (c : Nat)
    (e e' : ConnectionState) : (s.setConnection c e).setConnection c e' = s.setConnection c e' := by
  have hmap : (s.connectionMap.insert c e).insert c e' = s.connectionMap.insert c e' := by
    refine ExtTreeMap.ext_getElem? fun k => ?_
    simp only [ExtTreeMap.getElem?_insert]
    split <;> rfl
  rw [setConnection, setConnection, setConnection, hmap]

end TestFcgiClientInterface

open TestFcgiClientInterface

/-- A record that arrives on connection `c`, whose element is `e`, in state
`s`. -/
structure Arrival where
  s : TestFcgiClientInterface
  c : Nat
  e : ConnectionState
  header : Bytes
  content : Bytes
  padding : Bytes
  entry : s.connectionMap[c]? = some e
  clear : e.recordState.Clear
  record : IsRecord header content padding

namespace Arrival

variable (a : Arrival)

def bytes : Bytes := a.header ++ (a.content ++ a.padding)

def invalidated : Bool := !validHeader a.s a.c a.e.managementQueue a.header

/-- The content is kept with the record, not with a request. -/
def Buffered : Prop := a.invalidated = true ∨ headerType a.header = kFcgiEndRequest

/-- The record is rejected: at its header, or for its protocol status. -/
def Rejected : Prop :=
  a.invalidated = true ∨ headerType a.header = kFcgiEndRequest ∧ UnknownStatus a.content

/-- The event of the record when it is rejected. -/
def event : ServerEvent :=
  .invalidRecord (a.header.headD 0) (headerType a.header) (headerIdentifier a.c a.header) a.content
    (headerPaddingLength a.header)

/-- The state with a given record state of the connection. -/
def withRecord (s : TestFcgiClientInterface) (r : RecordState) : TestFcgiClientInterface :=
  s.setConnection a.c { a.e with recordState := r }

/-- `k` bytes of the header were received. -/
def HeaderAt (k : Nat) (t : TestFcgiClientInterface) : Prop :=
  Retracked (a.withRecord a.s { a.e.recordState with header := a.header.take k }) t

/-- The header, `j` bytes of content and `p` bytes of padding were received; a
record that is buffered has changed nothing else. -/
structure BodyAt (j p : Nat) (buffer : Bytes) (t : TestFcgiClientInterface) : Prop where
  entry : ∃ e', t.connectionMap[a.c]? = some e' ∧
    e'.recordState = bodyState a.header a.invalidated j p buffer
  queue : t.microEventQueue = a.s.microEventQueue
  frame : a.Buffered →
    Retracked (a.withRecord (checkedState a.s a.c a.header)
      (bodyState a.header a.invalidated j p buffer)) t

/-- The record was received. -/
structure DoneAt (t : TestFcgiClientInterface) : Prop where
  rejected : a.Rejected →
    Retracked ((a.withRecord (checkedState a.s a.c a.header) {}).pushEvent a.event) t
  accepted : ¬ a.Rejected → t.microEventQueue = a.s.microEventQueue ∨
    ∃ event, t.microEventQueue = a.s.microEventQueue ++ [event] ∧ event.isInvalidRecord = false

/-! ### Between the sections -/

variable {a : Arrival}

theorem withRecord_entry (s : TestFcgiClientInterface) (r : RecordState) :
    (a.withRecord s r).connectionMap[a.c]? = some { a.e with recordState := r } :=
  (s.getElem?_setConnection a.c a.c _).trans (if_pos rfl)

/-- A new record state replaces the one before. -/
theorem retracked_withRecord {s t : TestFcgiClientInterface} {r : RecordState}
    (h : Retracked (a.withRecord s r) t) (r' : RecordState) :
    Retracked (a.withRecord s r') (a.withRecord t r') := by
  obtain ⟨n, next, set, rfl⟩ := h
  refine ⟨n, next, set, ?_⟩
  show ((a.withRecord s r).setConnection a.c { a.e with recordState := r' }).retrack n next set = _
  rw [withRecord, setConnection_setConnection]
  rfl

theorem retracked_setConnection {s t : TestFcgiClientInterface} {r : RecordState}
    (r' : RecordState) {e' : ConnectionState} (h : Retracked (a.withRecord s r) t) (he : t.connectionMap[a.c]? = some e') :
    Retracked (a.withRecord s r') (t.setConnection a.c { e' with recordState := r' }) := by
  have hnew := retracked_withRecord h r'
  obtain ⟨n, next, set, rfl⟩ := h
  obtain rfl := Option.some.inj ((withRecord_entry s r).symm.trans he)
  exact hnew

theorem headerAt_zero : a.HeaderAt 0 a.s := by
  refine ⟨a.s.remainingReady, a.s.nextConnection, a.s.selectSet, ?_⟩
  have hheader : a.e.recordState.header = [] := by rw [a.clear]
  have hsame : ({ a.e with recordState := { a.e.recordState with header := a.header.take 0 } } :
      ConnectionState) = a.e := by
    rw [List.take_zero, ← hheader]
  rw [withRecord, hsame, setConnection_self a.entry]
  rfl

theorem HeaderAt.entry {k : Nat} {t : TestFcgiClientInterface} (h : a.HeaderAt k t) :
    t.connectionMap[a.c]? =
      some { a.e with recordState := { a.e.recordState with header := a.header.take k } } := by
  obtain ⟨n, next, set, rfl⟩ := h
  exact withRecord_entry a.s _

theorem checkedState_connectionMap (s : TestFcgiClientInterface) (c : Nat) (header : Bytes) :
    (checkedState s c header).connectionMap = s.connectionMap ∧
      (checkedState s c header).microEventQueue = s.microEventQueue := by
  unfold checkedState acceptEnd
  split
  · split
    · split <;> exact ⟨rfl, rfl⟩
    · exact ⟨rfl, rfl⟩
  · exact ⟨rfl, rfl⟩

/-- The check reads and changes only the pending requests. -/
theorem checkedState_withRecord (s : TestFcgiClientInterface) (r : RecordState) (n : Int)
    (next : ConnectionIterator) (set : ExtTreeSet Nat) :
    checkedState ((a.withRecord s r).retrack n next set) a.c a.header =
      (a.withRecord (checkedState s a.c a.header) r).retrack n next set := by
  unfold checkedState acceptEnd
  split
  · show (match s.pendingRequestMap[headerIdentifier a.c a.header]? with
      | some d => _
      | none => _) = _
    split
    · split <;> rfl
    · rfl
  · rfl

section

variable {t : TestFcgiClientInterface} {reply : SystemReply} {it : Option FcgiRequestIdentifier}

theorem after_setRecordState_at {Q : Unit → TestFcgiClientInterface → Prop}
    {E : Failure → TestFcgiClientInterface → Prop} {e : ConnectionState} {r : RecordState}
    (he : t.connectionMap[a.c]? = some e)
    (h : Q ⟨⟩ (t.setConnection a.c { e with recordState := r })) :
    After (setRecordState a.c r) t Q (Thrown E) :=
  after_setRecordState fun e' he' => by
    obtain rfl := Option.some.inj (he.symm.trans he')
    exact h

/-- The complete header. -/
theorem after_updateOnHeaderCompletion (h : a.HeaderAt 8 t) :
    After (updateOnHeaderCompletion reply a.c it) t (fun _ u => a.BodyAt 0 0 [] u)
      (Thrown fun _ _ => True) := by
  have hfull : a.header.take 8 = a.header := by
    rw [← a.record.headerLength, List.take_length]
  have hentry := h.entry
  rw [hfull] at hentry
  rw [updateOnHeaderCompletion, after_bind]
  refine after_connectionState fun e' he' => ?_
  obtain rfl := Option.some.inj (hentry.symm.trans he')
  rw [after_bind]
  refine (after_checkHeader hentry).mono (fun r u hu => ?_) fun _ _ _ _ => trivial
  obtain ⟨hu, herr⟩ := hu
  obtain ⟨n, next, set, rfl⟩ := h
  rw [checkedState_withRecord, hfull] at hu
  obtain ⟨type, fcgiId, hclear⟩ : ∃ type fcgiId,
      a.e.recordState = { type := type, fcgiId := fcgiId } := ⟨_, _, a.clear⟩
  have hbody : ({ a.e.recordState with
      header := a.header
      type := headerType a.header
      fcgiId := headerRequestId a.header
      contentBytesExpected := headerContentLength a.header
      paddingBytesExpected := headerPaddingLength a.header
      invalidated := a.e.recordState.invalidated || r.2 } : RecordState) =
      bodyState a.header a.invalidated 0 0 [] := by
    rw [hclear, herr]
    rfl
  have hretracked : Retracked (a.withRecord (checkedState a.s a.c a.header)
      { a.e.recordState with header := a.header }) u := ⟨n, next, set, hu⟩
  have hu' : u.connectionMap[a.c]? =
      some { a.e with recordState := { a.e.recordState with header := a.header } } := by
    rw [hu]
    exact withRecord_entry _ _
  rw [after_bind]
  refine after_setRecordState_at hu' ?_
  rw [after_pure, hbody]
  refine ⟨⟨_, (u.getElem?_setConnection a.c a.c _).trans (if_pos rfl), rfl⟩, ?_, fun _ =>
    retracked_setConnection _ hretracked hu'⟩
  rw [hu]
  exact (checkedState_connectionMap a.s a.c a.header).2

/-- At most one event is told, which is not that of an invalid record. -/
def Quiet (t u : TestFcgiClientInterface) : Prop :=
  u.microEventQueue = t.microEventQueue ∨
    ∃ event, u.microEventQueue = t.microEventQueue ++ [event] ∧ event.isInvalidRecord = false

theorem after_popManagementQueue {Q : ManagementRequestData → TestFcgiClientInterface → Prop}
    {E : Failure → TestFcgiClientInterface → Prop} {c : Nat}
    (h : ∀ q u, u.microEventQueue = t.microEventQueue → Q q u) :
    After (popManagementQueue c) t Q (Thrown E) := by
  rw [popManagementQueue, after_bind]
  refine after_connectionState fun e _ => ?_
  split
  · exact after_halt
  · rw [after_bind, after_modify]
    exact h _ _ rfl

theorem after_completeStream {f : RequestData → RequestData} {n : Nat} :
    After (do
      if n = 0 then
        let (id, d) ← requestData it
        modify (·.setPending id (f d))
      return it) t (fun _ u => Quiet t u) (Thrown fun _ _ => True) := by
  rw [after_ite]
  constructor
  · intro _
    rw [after_bind]
    refine after_requestData fun id d _ _ => ?_
    rw [after_bind, after_modify, after_pure]
    exact .inl rfl
  · exact fun _ => .inl rfl

theorem after_processValidRecord_quiet {c : Nat} {r : RecordState} (hend : r.type ≠ kFcgiEndRequest) :
    After (processValidRecord c it r) t (fun _ u => Quiet t u) (Thrown fun _ _ => True) := by
  rw [processValidRecord, if_neg hend, after_ite]
  refine ⟨fun _ => after_completeStream (f := fun d => { d with stdoutCompleted := true }),
    fun _ => ?_⟩
  rw [after_ite]
  refine ⟨fun _ => after_completeStream (f := fun d => { d with stderrCompleted := true }),
    fun _ => ?_⟩
  rw [after_ite]
  constructor
  · intro _
    rw [after_bind]
    refine after_popManagementQueue fun q u hu => ?_
    exact .inr ⟨_, congrArg (· ++ _) hu, rfl⟩
  · intro _
    rw [after_ite]
    refine ⟨fun _ => ?_, fun _ _ => trivial⟩
    split
    · exact after_halt
    · rw [after_bind]
      refine after_popManagementQueue fun q u hu => ?_
      exact .inr ⟨_, congrArg (· ++ _) hu, rfl⟩

theorem after_generateInvalidRecord {buffer : Bytes} {j : Nat}
    {E : Failure → TestFcgiClientInterface → Prop}
    (h : a.BodyAt j (headerPaddingLength a.header) buffer t) (hbuffer : buffer = a.content) :
    After (generateInvalidRecord a.c) t (fun _ u => u = t.pushEvent a.event) (Thrown E) := by
  obtain ⟨e', he', hrecord⟩ := h.entry
  rw [generateInvalidRecord, after_bind]
  refine after_connectionState fun e'' he'' => ?_
  obtain rfl := Option.some.inj (he'.symm.trans he'')
  subst hbuffer
  rw [after_modify, hrecord]
  rfl

/-- The end of a rejected record. -/
theorem after_reset_rejected {E : Failure → TestFcgiClientInterface → Prop} {j p : Nat}
    {buffer : Bytes} (h : a.BodyAt j p buffer t) (hrejected : a.Rejected) :
    After (setRecordState a.c {}) (t.pushEvent a.event) (fun _ u => a.DoneAt u) (Thrown E) := by
  obtain ⟨e', he', -⟩ := h.entry
  refine after_setRecordState_at (t := t.pushEvent a.event) he' ⟨fun _ => ?_, fun hno =>
    absurd hrejected hno⟩
  obtain ⟨n, next, set, ht⟩ :=
    retracked_setConnection {} (h.frame (hrejected.imp id And.left)) he'
  exact ⟨n, next, set, congrArg (·.pushEvent a.event) ht⟩

/-- The end of a record that was not rejected. -/
theorem after_reset_quiet {E : Failure → TestFcgiClientInterface → Prop} {u : TestFcgiClientInterface}
    (hqueue : t.microEventQueue = a.s.microEventQueue) (h : Quiet t u) (hno : ¬ a.Rejected) :
    After (setRecordState a.c {}) u (fun _ u => a.DoneAt u) (Thrown E) := by
  refine after_setRecordState fun e _ => ⟨fun hrejected => absurd hrejected hno, fun _ => ?_⟩
  unfold Quiet at h
  rw [hqueue] at h
  exact h

/-- A complete end record whose header was valid. -/
theorem after_processEndRequest_at {j : Nat}
    (h : a.BodyAt j (headerPaddingLength a.header) a.content t) :
    After (processEndRequest a.c it a.content) t
      (fun _ u => UnknownStatus a.content ∧ u = t.pushEvent a.event ∨
        ¬ UnknownStatus a.content ∧ Quiet t u) (Thrown fun _ _ => True) := by
  unfold processEndRequest
  split
  · rename_i b₃ b₂ b₁ b₀ lps rest hcontent
    have hstatus : a.content.getD 4 0 = lps := by
      rw [hcontent]
      rfl
    have hunknown : UnknownStatus a.content ↔ lps ≠ fcgiRequestComplete ∧ lps ≠ fcgiCantMpxConn ∧
        lps ≠ fcgiOverloaded ∧ lps ≠ fcgiUnknownRole := by
      rw [UnknownStatus, hstatus]
    rw [after_ite]
    constructor
    · intro hbad
      rw [after_bind]
      refine (after_generateInvalidRecord h rfl).mono (fun _ u hu => ?_) fun _ _ hE => hE
      exact .inl ⟨hunknown.mpr hbad, hu⟩
    · intro hgood
      rw [after_bind]
      refine after_requestData fun id d _ _ => ?_
      rw [after_bind, after_get, after_ite]
      refine ⟨fun _ _ => trivial, fun _ => ?_⟩
      rw [after_bind, after_modify, after_pure]
      exact .inr ⟨fun h => hgood (hunknown.mp h), .inr ⟨_, rfl, rfl⟩⟩
  · exact after_halt

/-- A complete record. -/
theorem after_processCompleteRecord {j : Nat} {buffer : Bytes}
    (h : a.BodyAt j (headerPaddingLength a.header) buffer t)
    (hbuffer : a.Buffered → buffer = a.content) :
    After (processCompleteRecord a.c it) t (fun _ u => a.DoneAt u) (Thrown fun _ _ => True) := by
  obtain ⟨e', he', hrecord⟩ := h.entry
  rw [processCompleteRecord, after_bind]
  refine after_connectionState fun e'' he'' => ?_
  obtain rfl := Option.some.inj (he'.symm.trans he'')
  rw [after_bind, hrecord, processRecord, after_ite]
  constructor
  · intro hinvalid
    rw [after_bind]
    refine (after_generateInvalidRecord h (hbuffer (.inl hinvalid))).mono (fun _ u hu => ?_)
      fun _ _ hE => hE
    subst hu
    rw [after_pure, after_bind]
    exact after_reset_rejected h (.inl hinvalid)
  · intro hvalid
    rw [Bool.not_eq_true] at hvalid
    by_cases hend : headerType a.header = kFcgiEndRequest
    · obtain rfl := hbuffer (.inr hend)
      rw [processValidRecord, if_pos (by exact hend)]
      refine (after_processEndRequest_at h).mono (fun _ u hu => ?_) fun _ _ hE => hE
      rcases hu with ⟨hbad, rfl⟩ | ⟨hgood, hu⟩
      · rw [after_bind]
        exact after_reset_rejected h (.inr ⟨hend, hbad⟩)
      · rw [after_bind]
        refine after_reset_quiet h.queue hu ?_
        rintro (hinvalid | ⟨-, hbad⟩)
        · exact absurd (hvalid.symm.trans hinvalid) (by simp)
        · exact hgood hbad
    · refine (after_processValidRecord_quiet hend).mono (fun _ u hu => ?_) fun _ _ hE => hE
      rw [after_bind]
      refine after_reset_quiet h.queue hu ?_
      rintro (hinvalid | ⟨hend', -⟩)
      · exact absurd (hvalid.symm.trans hinvalid) (by simp)
      · exact hend hend'

/-! ### The sections -/

/-- The bytes that arrive continue the record after its first `k` bytes. -/
def Continues (a : Arrival) (k : Nat) (taken : Bytes) : Prop := taken <+: a.bytes.drop k

theorem take_append_of_prefix {α : Type} {l rest x : List α} {k : Nat} (h : x <+: (l ++ rest).drop k)
    (hk : k + x.length ≤ l.length) : l.take k ++ x = l.take (k + x.length) := by
  rw [List.drop_append_of_le_length (by omega)] at h
  have hx := List.prefix_iff_eq_take.mp h
  rw [List.take_append_of_le_length (by rw [List.length_drop]; omega)] at hx
  rw [List.take_add, ← hx]

/-- The section for the header. -/
theorem after_receiveHeader {k : Nat} {data : Bytes} (h : a.HeaderAt k t) (hk : k < 8)
    (hx : a.Continues k (data.take (min data.length (8 - k)))) :
    After (receiveHeader reply a.c it data) t
      (fun r u => r.data = data.drop (min data.length (8 - k)) ∧
        if k + min data.length (8 - k) < 8 then
          a.HeaderAt (k + min data.length (8 - k)) u ∧ r.completed = false
        else if headerContentLength a.header = 0 ∧ headerPaddingLength a.header = 0 then
          a.DoneAt u ∧ r.completed = true
        else a.BodyAt 0 0 [] u ∧ r.completed = false)
      (Thrown fun _ _ => True) := by
  have hentry := h.entry
  have hlength : (a.header.take k).length = k := by
    rw [List.length_take, a.record.headerLength]
    omega
  have hrecord : ({ a.e.recordState with header := a.header.take k } : RecordState).header.length = k :=
    hlength
  rw [receiveHeader, after_bind]
  refine after_connectionState fun e' he' => ?_
  obtain rfl := Option.some.inj (hentry.symm.trans he')
  simp only [hlength, fcgiHeaderLen]
  rw [if_pos hk]
  set m := min data.length (8 - k) with hm
  have hmlen : (data.take m).length = m := by
    rw [List.length_take]
    omega
  have hheader : a.header.take k ++ data.take m = a.header.take (k + m) := by
    have := take_append_of_prefix (l := a.header) (k := k) hx
      (by rw [hmlen, a.record.headerLength]; omega)
    rwa [hmlen] at this
  rw [hheader, after_bind]
  refine after_setRecordState_at hentry ?_
  set u := t.setConnection a.c
    { a.e with recordState := { a.e.recordState with header := a.header.take (k + m) } }
  have hu : a.HeaderAt (k + m) u := retracked_withRecord h _
  have hulength : (a.header.take (k + m)).length = k + m := by
    rw [List.length_take, a.record.headerLength]
    omega
  rw [hulength, after_ite]
  constructor
  · intro hfull
    rw [after_bind]
    refine (after_updateOnHeaderCompletion (hfull ▸ hu)).mono (fun it' v hv => ?_) fun _ _ hE => hE
    obtain ⟨e', he', hrecord⟩ := hv.entry
    rw [after_bind]
    refine after_connectionState fun e'' he'' => ?_
    obtain rfl := Option.some.inj (he'.symm.trans he'')
    simp only [hrecord, bodyState]
    rw [after_ite]
    constructor
    · rintro ⟨hcontent, hpadding⟩
      rw [after_bind]
      have hv' : a.BodyAt 0 (headerPaddingLength a.header) [] v := hpadding ▸ hv
      refine (after_processCompleteRecord hv' fun _ => ?_).mono (fun _ w hw => ?_) fun _ _ hE => hE
      · exact (List.length_eq_zero_iff.mp (a.record.contentLength.trans hcontent)).symm
      · rw [after_pure, if_neg (by omega), if_pos ⟨hcontent, hpadding⟩]
        exact ⟨rfl, hw, rfl⟩
    · intro hmore
      rw [after_pure, if_neg (by omega), if_neg hmore]
      exact ⟨rfl, hv, rfl⟩
  · intro hmore
    rw [after_pure, if_pos (by omega)]
    exact ⟨rfl, hu, rfl⟩

/-- A new record state after a part of the body. -/
theorem BodyAt.setRecordState {j p j' p' : Nat} {buffer buffer' : Bytes} {e' : ConnectionState}
    (h : a.BodyAt j p buffer t) (he : t.connectionMap[a.c]? = some e') :
    a.BodyAt j' p' buffer' (t.setConnection a.c
      { e' with recordState := bodyState a.header a.invalidated j' p' buffer' }) where
  entry := ⟨_, (t.getElem?_setConnection a.c a.c _).trans (if_pos rfl), rfl⟩
  queue := h.queue
  frame hbuffered := retracked_setConnection _ (h.frame hbuffered) he

theorem after_refreshIf {needed : Bool} {id : FcgiRequestIdentifier}
    {Q : Option FcgiRequestIdentifier → TestFcgiClientInterface → Prop} (h : ∀ it', Q it' t) :
    After (refreshIf needed it id) t Q (Thrown fun _ _ => True) := by
  rw [refreshIf, after_ite]
  refine ⟨fun _ => ?_, fun _ => h it⟩
  rw [pendingIterCheckAndUpdate, after_bind]
  refine after_pendingIterCheck fun it' _ => ?_
  rw [after_ite]
  exact ⟨fun _ _ => trivial, fun _ => h it'⟩

theorem after_storeContent {j p : Nat} {buffer bytes : Bytes} (h : a.BodyAt j p buffer t) :
    After (storeContent a.c it (bodyState a.header a.invalidated j p buffer) bytes) t
      (fun _ u => ∃ buffer', a.BodyAt j p buffer' u ∧ (a.Buffered → buffer' = buffer ++ bytes))
      (Thrown fun _ _ => True) := by
  rw [storeContent, after_ite]
  constructor
  · rintro ⟨hvalid, -, hend⟩
    have hnot : ¬ a.Buffered := by
      rintro (hinvalid | htype)
      · exact absurd (hvalid.symm.trans hinvalid) (by simp)
      · exact hend htype
    rw [after_bind, pendingIterCheckAndUpdate, after_bind]
    refine after_pendingIterCheck fun it' _ => ?_
    rw [after_ite]
    refine ⟨fun _ _ => trivial, fun _ => ?_⟩
    rw [after_pure, after_bind]
    refine after_requestData fun id d _ _ => ?_
    rw [after_bind, after_modify, after_pure]
    exact ⟨buffer, ⟨h.entry, h.queue, fun hb => absurd hb hnot⟩, fun hb => absurd hb hnot⟩
  · intro _
    rw [after_bind]
    refine after_refreshIf fun it' => ?_
    rw [after_bind]
    obtain ⟨e', he', -⟩ := h.entry
    refine after_setRecordState_at he' ?_
    rw [after_pure]
    exact ⟨buffer ++ bytes, h.setRecordState he', fun _ => rfl⟩

/-- The section for the content. -/
theorem after_receiveContent {j p : Nat} {buffer data : Bytes} (h : a.BodyAt j p buffer t)
    (hj : j < headerContentLength a.header)
    (hbuffer : a.Buffered → j + min data.length (headerContentLength a.header - j) =
      headerContentLength a.header → headerPaddingLength a.header = 0 →
      buffer ++ data.take (min data.length (headerContentLength a.header - j)) = a.content)
    (hp : p ≤ headerPaddingLength a.header) :
    After (receiveContent a.c it data) t
      (fun r u => r.data = data.drop (min data.length (headerContentLength a.header - j)) ∧
        if j + min data.length (headerContentLength a.header - j) = headerContentLength a.header ∧
            headerPaddingLength a.header = 0 then a.DoneAt u ∧ r.completed = true
        else r.completed = false ∧ ∃ buffer',
          a.BodyAt (j + min data.length (headerContentLength a.header - j)) p buffer' u ∧
            (a.Buffered → buffer' =
              buffer ++ data.take (min data.length (headerContentLength a.header - j))))
      (Thrown fun _ _ => True) := by
  set m := min data.length (headerContentLength a.header - j) with hm
  obtain ⟨e', he', hrecord⟩ := h.entry
  rw [receiveContent, after_bind]
  refine after_connectionState fun e'' he'' => ?_
  obtain rfl := Option.some.inj (he'.symm.trans he'')
  rw [hrecord, after_ite]
  refine ⟨fun _ => ?_, fun hno => absurd hj hno⟩
  rw [after_bind]
  refine (after_storeContent h).mono (fun it' u hu => ?_) fun _ _ hE => hE
  obtain ⟨buffer', hu, hbuffer'⟩ := hu
  obtain ⟨f', hf', hfrecord⟩ := hu.entry
  rw [after_bind]
  refine after_connectionState fun f'' hf'' => ?_
  obtain rfl := Option.some.inj (hf'.symm.trans hf'')
  rw [hfrecord, after_bind]
  refine after_setRecordState_at hf' ?_
  set v := u.setConnection a.c
    { f' with recordState := { bodyState a.header a.invalidated j p buffer' with
      contentBytesReceived := (bodyState a.header a.invalidated j p buffer').contentBytesReceived + m } }
  have hv : a.BodyAt (j + m) p buffer' v := hu.setRecordState hf'
  rw [after_ite]
  constructor
  · rintro ⟨hfull, hpadding⟩
    have hpadding' : headerPaddingLength a.header = 0 := hpadding
    rw [after_bind]
    obtain rfl : p = headerPaddingLength a.header := by omega
    refine (after_processCompleteRecord hv fun hb => ?_).mono (fun _ w hw => ?_) fun _ _ hE => hE
    · rw [hbuffer' hb]
      exact hbuffer hb hfull hpadding'
    · rw [after_pure, if_pos ⟨hfull, hpadding'⟩]
      exact ⟨rfl, hw, rfl⟩
  · intro hmore
    have hmore' : ¬ (j + m = headerContentLength a.header ∧ headerPaddingLength a.header = 0) := hmore
    rw [after_pure, if_neg hmore']
    exact ⟨rfl, rfl, buffer', hv, hbuffer'⟩

/-- The section for the padding. -/
theorem after_receivePadding {j p : Nat} {buffer data : Bytes} (h : a.BodyAt j p buffer t)
    (hp : p < headerPaddingLength a.header) (hbuffer : a.Buffered → buffer = a.content) :
    After (receivePadding a.c it data) t
      (fun r u => r.data = data.drop (min data.length (headerPaddingLength a.header - p)) ∧
        if p + min data.length (headerPaddingLength a.header - p) = headerPaddingLength a.header then
          a.DoneAt u ∧ r.completed = true
        else r.completed = false ∧
          a.BodyAt j (p + min data.length (headerPaddingLength a.header - p)) buffer u)
      (Thrown fun _ _ => True) := by
  set m := min data.length (headerPaddingLength a.header - p) with hm
  obtain ⟨e', he', hrecord⟩ := h.entry
  rw [receivePadding, after_bind]
  refine after_connectionState fun e'' he'' => ?_
  obtain rfl := Option.some.inj (he'.symm.trans he'')
  rw [hrecord, after_ite]
  refine ⟨fun _ => ?_, fun hno => absurd hp hno⟩
  rw [after_bind]
  refine after_setRecordState_at he' ?_
  set u := t.setConnection a.c
    { e' with recordState := { bodyState a.header a.invalidated j p buffer with
      paddingBytesReceived := (bodyState a.header a.invalidated j p buffer).paddingBytesReceived + m } }
  have hu : a.BodyAt j (p + m) buffer u := h.setRecordState he'
  rw [after_ite]
  constructor
  · intro hfull
    have hfull' : p + m = headerPaddingLength a.header := hfull
    rw [after_bind]
    refine after_refreshIf fun it' => ?_
    rw [after_bind]
    refine (after_processCompleteRecord (hfull' ▸ hu) hbuffer).mono (fun _ w hw => ?_)
      fun _ _ hE => hE
    rw [after_pure, if_pos hfull']
    exact ⟨rfl, hw, rfl⟩
  · intro hmore
    have hmore' : ¬ p + m = headerPaddingLength a.header := hmore
    rw [after_pure, if_neg hmore']
    exact ⟨rfl, rfl, hu⟩

end

end Arrival

end AsComponents.Client
