import AsComponents.ClientConnections
import AsComponents.RequestData

/-! `RetrieveServerEvent` and the functions it uses
(`test_fcgi_client_interface.cc`). -/

namespace AsComponents.Client

open Protocol NameValue SocketFunctions AsComponents.Partition Std

def readBufferSize : Nat := 512

/-! ## Headers -/

/-- `PendingIterCheckAndUpdate` of `UpdateOnHeaderCompletion`. -/
def pendingIterCheck (it : Option FcgiRequestIdentifier) (id : FcgiRequestIdentifier) :
    Operation (Option FcgiRequestIdentifier) := do
  if it = some id then return it
  return (← get).find id

/-- An access through the past-the-end iterator. -/
def readPastTheEnd (reply : SystemReply) : Operation Bool := do
  match reply.pastTheEndEmpty with
  | some empty => return empty
  | none => halt .danglingIterator

/-- The size test on the `FCGI_STDERR` content of a request, which is made
before the iterator is compared with `end()`. -/
def stderrEmpty (reply : SystemReply) (it : Option FcgiRequestIdentifier) : Operation Bool := do
  match it with
  | none => readPastTheEnd reply
  | some _ => return decide ((← requestData it).2.fcgiStderr = [])

/-- The case of `UpdateOnHeaderCompletion` for an end record; the result says
that an error was detected. -/
def checkEndRequest (reply : SystemReply) (it : Option FcgiRequestIdentifier)
    (expectedContent : Nat) : Operation Bool := do
  let empty ← stderrEmpty reply it
  if it = none then return true
  let (id, d) ← requestData it
  if ¬ (d.stderrCompleted ∨ empty) ∨ ¬ d.stdoutCompleted ∨ expectedContent ≠ 8 then
    return true
  -- the end record is accepted, and `FCGI_STDERR` was completed implicitly
  if empty then
    modify (·.setPending id { d with stderrCompleted := true })
  return false

/-- The cases of `UpdateOnHeaderCompletion` for `FCGI_STDOUT` and `FCGI_STDERR`. -/
def checkStream (completed : RequestData → Bool) (it : Option FcgiRequestIdentifier) :
    Operation Bool := do
  if it = none then return true
  return completed (← requestData it).2

/-- The validation of a header with the right version, by its type. -/
def checkType (reply : SystemReply) (connection : Nat) (it : Option FcgiRequestIdentifier)
    (type : FcgiType) (fcgiId : UInt16) (expectedContent : Nat) :
    Operation (Option FcgiRequestIdentifier × Bool) := do
  if type = kFcgiEndRequest then
    let it ← pendingIterCheck it ⟨connection, fcgiId⟩
    return (it, ← checkEndRequest reply it expectedContent)
  else if type = kFcgiStdout then
    let it ← pendingIterCheck it ⟨connection, fcgiId⟩
    return (it, ← checkStream (·.stdoutCompleted) it)
  else if type = kFcgiStderr then
    let it ← pendingIterCheck it ⟨connection, fcgiId⟩
    return (it, ← checkStream (·.stderrCompleted) it)
  else
    let queue := (← connectionState connection).managementQueue
    if type = kFcgiGetValuesResult then
      return (it, fcgiId != fcgiNullRequestId || !queue.head?.any fun q => q.type = kFcgiGetValues)
    else if type = kFcgiUnknownType then
      return (it, fcgiId != fcgiNullRequestId || expectedContent != 8 ||
        !queue.head?.any fun q => q.type ≠ kFcgiGetValues)
    else return (it, true)

/-- The validation of a header; the Boolean is `error_detected`. -/
def checkHeader (reply : SystemReply) (connection : Nat) (it : Option FcgiRequestIdentifier)
    (header : Bytes) : Operation (Option FcgiRequestIdentifier × Bool) :=
  if header.headD 0 ≠ 1 then return (it, true)
  else
    checkType reply connection it (headerType header) (headerRequestId header)
      (headerContentLength header)

def updateOnHeaderCompletion (reply : SystemReply) (connection : Nat)
    (it : Option FcgiRequestIdentifier) : Operation (Option FcgiRequestIdentifier) := do
  let r := (← connectionState connection).recordState
  let (it, errorDetected) ← checkHeader reply connection it r.header
  setRecordState connection
    { r with
      type := headerType r.header
      fcgiId := headerRequestId r.header
      contentBytesExpected := headerContentLength r.header
      paddingBytesExpected := headerPaddingLength r.header
      invalidated := r.invalidated || errorDetected }
  return it

/-! ## Complete records -/

/-- The lambda `GenerateInvalidRecord`. -/
def generateInvalidRecord (connection : Nat) : Operation Unit := do
  let r := (← connectionState connection).recordState
  modify (·.pushEvent (.invalidRecord (r.header.headD 0) r.type ⟨connection, r.fcgiId⟩ r.localBuffer
    r.paddingBytesExpected))

/-- The four bytes of an application status as a signed number. -/
def appStatusOf (b₃ b₂ b₁ b₀ : UInt8) : Int32 :=
  (UInt32.ofNat (((b₃.toNat * 256 + b₂.toNat) * 256 + b₁.toNat) * 256 + b₀.toNat)).toInt32

def processEndRequest (connection : Nat) (it : Option FcgiRequestIdentifier) (content : Bytes) :
    Operation (Option FcgiRequestIdentifier) := do
  match content with
  | b₃ :: b₂ :: b₁ :: b₀ :: lps :: _ =>
      if lps ≠ fcgiRequestComplete ∧ lps ≠ fcgiCantMpxConn ∧ lps ≠ fcgiOverloaded ∧
          lps ≠ fcgiUnknownRole then
        generateInvalidRecord connection
        return it
      let (id, d) ← requestData it
      if (← get).completedRequestSet.contains id then
        throw (.logicError ("A request was found to be present in the completed request tracking " ++
          "set when it should not have been in a call to " ++
          "TestFcgiClientInterface::RetrieveServerEvent."))
      modify fun s =>
        { s.pushEvent (.fcgiResponse (appStatusOf b₃ b₂ b₁ b₀) d.fcgiStderr d.fcgiStdout lps
            d.request id) with
          completedRequestSet := s.completedRequestSet.insert id
          pendingRequestMap := s.pendingRequestMap.erase id }
      return none
  | _ => halt .danglingIterator

/-- The map of a `FCGI_GET_VALUES_RESULT` record, and whether its content is
regarded as corrupt. -/
def getValuesResponse (content : Bytes) : ParamsMap × Bool :=
  if content = [] then (∅, false)
  else
    let pairs := (extractBinaryNameValuePairs content).insertionSort Server.NameLessEqual
    if pairs = [] then (∅, true)
    else if (pairs.zip pairs.tail).any fun (p, q) => p.1 = q.1 then (∅, true)
    else (ExtTreeMap.ofList pairs, false)

/-- The front of the management queue with what the removal of it leaves. -/
def popManagementQueue (connection : Nat) : Operation ManagementRequestData := do
  let e ← connectionState connection
  match e.managementQueue with
  | [] => halt .danglingIterator
  | q :: queue =>
      modify (·.setConnection connection { e with managementQueue := queue })
      return q

/-- The cases of `ProcessCompleteRecord` for a record that was not
invalidated. -/
def processValidRecord (connection : Nat) (it : Option FcgiRequestIdentifier) (r : RecordState) :
    Operation (Option FcgiRequestIdentifier) := do
  if r.type = kFcgiEndRequest then
    processEndRequest connection it r.localBuffer
  else if r.type = kFcgiStdout then
    if r.contentBytesExpected = 0 then
      let (id, d) ← requestData it
      modify (·.setPending id { d with stdoutCompleted := true })
    return it
  else if r.type = kFcgiStderr then
    if r.contentBytesExpected = 0 then
      let (id, d) ← requestData it
      modify (·.setPending id { d with stderrCompleted := true })
    return it
  else if r.type = kFcgiGetValuesResult then
    let (response, corrupt) := getValuesResponse r.localBuffer
    let q ← popManagementQueue connection
    modify (·.pushEvent (.getValuesResult corrupt ⟨connection, fcgiNullRequestId⟩ q.paramsMap response))
    return it
  else if r.type = kFcgiUnknownType then
    match r.localBuffer with
    | [] => halt .danglingIterator
    | unknown :: _ =>
        let q ← popManagementQueue connection
        modify (·.pushEvent (.unknownType ⟨connection, fcgiNullRequestId⟩ unknown q))
        return it
  else
    throw (.logicError ("An unaccepted type was present but regarded as valid in a call to " ++
      "TestFcgiClientInterface::RetrieveServerEvent."))

def processRecord (connection : Nat) (it : Option FcgiRequestIdentifier) (r : RecordState) :
    Operation (Option FcgiRequestIdentifier) := do
  if r.invalidated then
    generateInvalidRecord connection
    return it
  processValidRecord connection it r

def processCompleteRecord (connection : Nat) (it : Option FcgiRequestIdentifier) :
    Operation (Option FcgiRequestIdentifier) := do
  let r := (← connectionState connection).recordState
  let it ← processRecord connection it r
  setRecordState connection {}
  return it

/-! ## The bytes of a buffer -/

/-- The lambda `PendingIterCheckAndUpdate` of `ExamineSelectReturn`. -/
def pendingIterCheckAndUpdate (it : Option FcgiRequestIdentifier) (id : FcgiRequestIdentifier) :
    Operation (Option FcgiRequestIdentifier) := do
  let it ← pendingIterCheck it id
  if it = none then
    throw (.logicError ("A request was not present when expected in a call to " ++
      "TestFcgiClientInterface::RetrieveServerEvent."))
  return it

/-- The check for the records that need the request of the iterator. -/
def refreshIf (needed : Bool) (it : Option FcgiRequestIdentifier) (id : FcgiRequestIdentifier) :
    Operation (Option FcgiRequestIdentifier) := do
  if needed then pendingIterCheckAndUpdate it id else return it

/-- What a section of the loop over a buffer leaves: the iterator, the rest of
the buffer, and whether the loop goes on with the next record. -/
structure SectionReturn where
  it : Option FcgiRequestIdentifier
  data : Bytes
  completed : Bool
  deriving DecidableEq, Repr

/-- Header -/
def receiveHeader (reply : SystemReply) (connection : Nat) (it : Option FcgiRequestIdentifier)
    (data : Bytes) : Operation SectionReturn := do
  let r := (← connectionState connection).recordState
  if r.header.length < fcgiHeaderLen then
    let copySize := min data.length (fcgiHeaderLen - r.header.length)
    let header := r.header ++ data.take copySize
    setRecordState connection { r with header := header }
    if header.length = fcgiHeaderLen then
      let it ← updateOnHeaderCompletion reply connection it
      let r := (← connectionState connection).recordState
      if r.contentBytesExpected = 0 ∧ r.paddingBytesExpected = 0 then
        return ⟨← processCompleteRecord connection it, data.drop copySize, true⟩
      return ⟨it, data.drop copySize, false⟩
    return ⟨it, data.drop copySize, false⟩
  return ⟨it, data, false⟩

/-- Content bytes that are stored: those of the streams with their request,
all others with the record. -/
def storeContent (connection : Nat) (it : Option FcgiRequestIdentifier) (r : RecordState)
    (bytes : Bytes) : Operation (Option FcgiRequestIdentifier) := do
  if r.invalidated = false ∧ r.fcgiId ≠ fcgiNullRequestId ∧ r.type ≠ kFcgiEndRequest then
    let it ← pendingIterCheckAndUpdate it ⟨connection, r.fcgiId⟩
    let (id, d) ← requestData it
    modify (·.setPending id
      (if r.type = kFcgiStdout then { d with fcgiStdout := d.fcgiStdout ++ bytes }
       else { d with fcgiStderr := d.fcgiStderr ++ bytes }))
    return it
  else
    let it ← refreshIf (r.type = kFcgiEndRequest ∧ r.invalidated = false) it ⟨connection, r.fcgiId⟩
    setRecordState connection { r with localBuffer := r.localBuffer ++ bytes }
    return it

/-- Content -/
def receiveContent (connection : Nat) (it : Option FcgiRequestIdentifier) (data : Bytes) :
    Operation SectionReturn := do
  let r := (← connectionState connection).recordState
  if r.contentBytesReceived < r.contentBytesExpected then
    let copySize := min data.length (r.contentBytesExpected - r.contentBytesReceived)
    let it ← storeContent connection it r (data.take copySize)
    let r := (← connectionState connection).recordState
    setRecordState connection
      { r with contentBytesReceived := r.contentBytesReceived + copySize }
    if r.contentBytesReceived + copySize = r.contentBytesExpected ∧ r.paddingBytesExpected = 0 then
      return ⟨← processCompleteRecord connection it, data.drop copySize, true⟩
    return ⟨it, data.drop copySize, false⟩
  return ⟨it, data, false⟩

/-- Padding -/
def receivePadding (connection : Nat) (it : Option FcgiRequestIdentifier) (data : Bytes) :
    Operation SectionReturn := do
  let r := (← connectionState connection).recordState
  if r.paddingBytesReceived < r.paddingBytesExpected then
    let copySize := min data.length (r.paddingBytesExpected - r.paddingBytesReceived)
    setRecordState connection
      { r with paddingBytesReceived := r.paddingBytesReceived + copySize }
    if r.paddingBytesReceived + copySize = r.paddingBytesExpected then
      let it ← refreshIf (r.invalidated = false ∧ (r.type = kFcgiEndRequest ∨
        r.type = kFcgiStderr ∨ r.type = kFcgiStdout)) it ⟨connection, r.fcgiId⟩
      return ⟨← processCompleteRecord connection it, data.drop copySize, true⟩
    return ⟨it, data.drop copySize, false⟩
  return ⟨it, data, false⟩

/-- A round of the loop over the bytes of a buffer. -/
def receiveRound (reply : SystemReply) (connection : Nat) (it : Option FcgiRequestIdentifier)
    (data : Bytes) : Operation SectionReturn := do
  let r ← receiveHeader reply connection it data
  if r.completed ∨ r.data = [] then return r
  let r ← receiveContent connection r.it r.data
  if r.completed ∨ r.data = [] then return r
  receivePadding connection r.it r.data

/-- The loop over the bytes of a buffer.  A round that takes no byte would be
repeated for ever. -/
def receiveBuffer (reply : SystemReply) (connection : Nat) :
    Nat → Option FcgiRequestIdentifier → Bytes → Operation (Option FcgiRequestIdentifier)
  | _, it, [] => return it
  | 0, _, _ :: _ => Critical.wait
  | fuel + 1, it, b :: bs => do
      let r ← receiveRound reply connection it (b :: bs)
      receiveBuffer reply connection fuel r.it r.data

/-- The bytes that `ExamineSelectReturn` has read into its buffer. -/
def receive (reply : SystemReply) (connection : Nat) (it : Option FcgiRequestIdentifier)
    (data : Bytes) : Operation (Option FcgiRequestIdentifier) :=
  noexceptBlock (receiveBuffer reply connection data.length it data)

/-! ## `ExamineSelectReturn` -/

/-- What follows a read that would block or found the end of the stream. -/
def finishReading (reply : SystemReply) (connection : Nat) (e : Errno) : Operation Unit :=
  noexceptBlock do
    modify fun s => { s with remainingReady := s.remainingReady - 1 }
    if (← get).remainingReady = 0 then
      modify fun s => { s with nextConnection := .pastTheEnd }
    else
      let next := (← get).after connection
      if next = .pastTheEnd then
        throw (.logicError ("A discrepancy was detected between the ready connection count and " ++
          "the number of connections in a call to TestFcgiClientInterface::RetrieveServerEvent."))
      modify fun s => { s with nextConnection := next }
    if e = .zero ∨ e = .econnreset then
      discard (closeConnection reply connection)
      modify (·.pushEvent (.connectionClosure connection))

/-- The loop over the reads of one connection. -/
def readLoop (reply : SystemReply) (connection : Nat) :
    Option FcgiRequestIdentifier → List ReadReturn → Operation Unit
  | _, [] => Critical.wait
  | it, .filled bytes :: reads => do
      if bytes.length ≠ readBufferSize then Critical.wait
      readLoop reply connection (← receive reply connection it bytes) reads
  | it, .short bytes e :: _ => do
      if bytes.length ≥ readBufferSize then Critical.wait
      discard (receive reply connection it bytes)
      if e = .zero ∨ e = .econnreset ∨ e = .eagain then finishReading reply connection e
      else throw (.systemError e "read")

/-- The loop over `next_connection_`; the list holds the keys from its element
on. -/
def examineLoop (reply : SystemReply) (reads : List ReadReturn) : List Nat → Operation Unit
  | [] =>
      throw (.logicError ("An error occurred while tracking connections which were ready to be " ++
        "read in a call to TestFcgiClientInterface::RetrieveServerEvent. No such connections " ++
        "were present when some were expected."))
  | c :: cs => do
      if (← get).isReady c then
        readLoop reply c none reads
      else
        modify fun s => { s with nextConnection := s.after c }
        examineLoop reply reads cs

def examineSelectReturn (reply : SystemReply) (reads : List ReadReturn) : Operation Unit := do
  let s ← get
  match s.nextConnection with
  | .pastTheEnd => examineLoop reply reads []
  | .entry k => examineLoop reply reads (s.connectionMap.keys.filter (k ≤ ·))
  | .erased => halt .danglingIterator

/-! ## `RetrieveServerEvent` -/

/-- The connected descriptors. -/
def connectedDescriptors (s : TestFcgiClientInterface) : List Nat :=
  s.connectionMap.keys.filter s.isConnected

/-- The part of a round in which `select` is called.  The call finds at least
one of the descriptors it was given ready. -/
def selectConnections (result : SelectReturn) : Operation Unit := do
  let s ← get
  let all := connectedDescriptors s
  modify fun s => { s with selectSet := ExtTreeSet.ofList all }
  if all = [] then
    throw (.logicError ("A call to TestFcgiClientInterface::RetrieveServerEvent was made when no " ++
      "server connections were active."))
  match result with
  | .failed e => throw (.systemError e "select")
  | .ready connections =>
      if connections = [] ∨ ¬ connections.Nodup ∨ connections.all (· ∈ all) = false then
        Critical.wait
      modify fun s =>
        { s with
          selectSet := ExtTreeSet.ofList connections
          remainingReady := connections.length
          nextConnection :=
            match s.connectionMap.keys.head? with
            | some k => .entry k
            | none => .pastTheEnd }

/-- The front of the event queue, if there is one. -/
def popEvent : Operation (Option ServerEvent) := do
  match (← get).microEventQueue with
  | [] => return none
  | event :: queue =>
      modify fun s => { s with microEventQueue := queue }
      return some event

/-- A round of the loop of `RetrieveServerEvent` with an empty queue. -/
def retrieveRound (reply : SystemReply) (round : Round) : Operation Unit := do
  if (← get).remainingReady ≤ 0 then
    selectConnections round.select
  examineSelectReturn reply round.reads

def retrieveLoop (reply : SystemReply) : List Round → Operation ServerEvent
  | [] => do
      match ← popEvent with
      | some event => return event
      | none => Critical.wait
  | round :: rounds => do
      match ← popEvent with
      | some event => return event
      | none =>
          retrieveRound reply round
          retrieveLoop reply rounds

def retrieveServerEvent (reply : SystemReply) : Operation ServerEvent :=
  retrieveLoop reply reply.rounds

end AsComponents.Client
