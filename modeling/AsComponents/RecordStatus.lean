import AsComponents.ServerInterface

/-! Receiving records on a connection (`record_status.cc`).  The `RecordStatus`
object of the connection is passed along and stored when `ReadRecords` returns;
after an exception the connection is in `application_closure_request_set_` and
its object is not read again. -/

namespace AsComponents.Server

open Protocol NameValue SocketFunctions AsComponents.Partition Std

namespace RecordStatus

def expectedBytes (rs : RecordStatus) : Nat :=
  rs.paddingBytesExpected + rs.contentBytesExpected + fcgiHeaderLen

def IsHeaderComplete (rs : RecordStatus) : Prop := fcgiHeaderLen ≤ rs.bytesReceived

def IsRecordComplete (rs : RecordStatus) : Prop := rs.expectedBytes = rs.bytesReceived

instance (rs : RecordStatus) : Decidable rs.IsHeaderComplete :=
  inferInstanceAs (Decidable (_ ≤ _))

instance (rs : RecordStatus) : Decidable rs.IsRecordComplete :=
  inferInstanceAs (Decidable (_ = _))

/-- What `UpdateAfterHeaderCompletion` reads from the header. -/
def decodeHeader (rs : RecordStatus) (connection : Nat) : RecordStatus :=
  { rs with
    contentBytesExpected := headerContentLength rs.header
    paddingBytesExpected := headerPaddingLength rs.header
    type := headerType rs.header
    requestId := ⟨connection, headerRequestId rs.header⟩ }

/-- The requirements on the type of an application record and on its content
length. -/
def rejectedByType (rs : RecordStatus) : Bool :=
  if rs.type = kFcgiBeginRequest then rs.contentBytesExpected ≠ 8
  else if rs.type = kFcgiAbortRequest then rs.contentBytesExpected ≠ 0
  else (Stream.ofType rs.type).isNone

end RecordStatus

/-! ## The cached iterator -/

/-- The cached iterator when it is one for the request, the result of `find`
otherwise. -/
def cachedOrFind (cache : Option Iterator) (id : FcgiRequestIdentifier) :
    Section (Option Iterator) := do
  match cache with
  | none => return (← get).find id
  | some it =>
      discard (deref it)
      if it.key.fcgiId = id.fcgiId then return cache
      else return (← get).find id

def setLocalRequestIter (it : Option Iterator) : Section Unit :=
  modify fun s => { s with localRequestIter := it }

/-! ## Header completion -/

/-- The part of `UpdateAfterHeaderCompletion` under the interface mutex: whether
the record is invalid. -/
def validateHeader (rs : RecordStatus) : Section Bool := do
  interfaceCheck ("The interface was found to be corrupted in a call to " ++
    "FcgiServerInterface::RecordStatus::UpdateAfterHeaderCompletion.")
  match ← cachedOrFind (← get).localRequestIter rs.requestId with
  | none => return rs.type ≠ kFcgiBeginRequest
  | some it =>
      setLocalRequestIter (some it)
      let d ← deref it
      if rs.type = kFcgiBeginRequest then return true
      else if rs.type = kFcgiAbortRequest then return d.clientSetAbort
      else
        match Stream.ofType rs.type with
        | some st => return d.completion st
        | none => return true

def updateAfterHeaderCompletion (connection : Nat) (rs : RecordStatus) : Thread RecordStatus := do
  let rs := rs.decodeHeader connection
  -- every management record is accepted
  if rs.requestId.fcgiId = fcgiNullRequestId then
    return rs
  else if rs.rejectedByType then
    return { rs with invalidatedByHeader := true }
  else
    let invalidated ← atomically fun _ => validateHeader rs
    return { rs with invalidatedByHeader := invalidated }

/-! ## Complete records -/

def processCheck : Section Unit :=
  interfaceCheck ("The interface was found to be corrupt in a call to " ++
    "fcgi_si::RecordStatus::ProcessCompleteRecord.")

/-- Whether a new request is rejected, and with which status.  A rejected
request gets a node as well, to tell it from others of the same id. -/
def checkRequestLimit (connection : Nat) (requestId : FcgiRequestIdentifier) :
    Section (Option (UInt8 × Nat)) := do
  processCheck
  match (← get).requestCountMap[connection]? with
  | none =>
      goBad
      throw (.logicError "request_count_map_ did not have an expected socket descriptor.")
  | some count =>
      let s ← get
      let limitReached := s.maximumRequestCountPerConnection ≤ count
      if limitReached ∨ s.applicationOverload then
        let socket := ((s.descriptors[connection]?).map (·.socket)).getD 0
        set { s with
          nextNode := s.nextNode + 1
          log := .begun s.nextNode socket requestId.fcgiId false :: s.log }
        let status :=
          if limitReached ∧ s.maximumRequestCountPerConnection = 1 then fcgiCantMpxConn
          else fcgiOverloaded
        return some (status, s.nextNode)
      else
        return none

def processBeginRequest (connection : Nat) (rs : RecordStatus) : Thread Unit := do
  match rs.localRecordContentBuffer with
  | roleB1 :: roleB0 :: flags :: _ =>
      let role := UInt16.ofNat (roleB1.toNat * 256 + roleB0.toNat)
      match ← atomically fun _ => checkRequestLimit connection rs.requestId with
      | some (status, node) =>
          discard (sendFcgiEndRequest connection (some node) rs.requestId status exitFailure)
      | none =>
          let closeConnection := flags &&& fcgiKeepConn = 0
          atomically fun reply => do
            processCheck
            setLocalRequestIter (← addRequest reply rs.requestId role closeConnection)
  | _ => atomically fun _ => halt .danglingPointer

/-- The section of `ProcessCompleteRecord` for an abort record: the list of
completed requests, and the request that has to be ended. -/
def abortRequest (reply : SystemReply) (connection : Nat) (requestId : FcgiRequestIdentifier)
    (requestIterators : List Iterator) : Section (List Iterator × Option Nat) := do
  processCheck
  match ← cachedOrFind (← get).localRequestIter requestId with
  | none => return (requestIterators, none)
  | some it =>
      if (← get).localRequestIter = some it then
        setLocalRequestIter none
      let d ← deref it
      if d.requestStatus = .requestAssigned then
        modify (·.setData it.key { d with clientSetAbort := true })
        return (requestIterators, none)
      else
        if d.closeConnection then
          if reply.allocationFails 0 then throw .badAlloc
          modify fun s =>
            { s with applicationClosureRequestSet :=
                s.applicationClosureRequestSet.insert connection }
        -- a completed request that is not assigned was completed in this call of `ReadRecords`
        if d.AllComplete ∧ it ∉ requestIterators then
          throw (.logicError ("A request which was completed but not yet assigned was not found " ++
            "in the list of iterator instances provided to a call to " ++
            "FcgiServerInterface::RecordStatus::ProcessCompleteRecord. This list was searched " ++
            "because an abort request was received for the request."))
        removeRequestHelper (some it)
        note (.endedByInterface d.node)
        return (if d.AllComplete then requestIterators.erase it else requestIterators, some d.node)

/-- What the end of a stream means for its request. -/
inductive Completion
  | incomplete
  | complete
  | malformed
  deriving DecidableEq, Repr

/-- The actions of `ProcessCompleteRecord` on the data of a request whose
stream has ended.  The request is not assigned: no other thread reads it. -/
def completeStream (reply : SystemReply) (st : Stream) (it : Iterator) : Section Completion := do
  match (← get).lookup it with
  | none => halt .danglingPointer
  | some d =>
      let (d, completed) := (d.complete st).checkRequestCompletionWithConditionalUpdate
      modify (·.setData it.key d)
      if completed then
        if (← get).localRequestIter = some it then
          setLocalRequestIter none
        if reply.allocationFails 0 then throw .badAlloc
        let (d, valid) := d.processFcgiParams
        modify (·.setData it.key d)
        return if valid then .complete else .malformed
      else
        return .incomplete

/-- The removal of a request with a malformed `FCGI_PARAMS` stream. -/
def rejectMalformed (reply : SystemReply) (connection : Nat) (it : Iterator) : Section Unit := do
  processCheck
  let d ← deref it
  if d.closeConnection then
    if reply.allocationFails 0 then throw .badAlloc
    modify fun s =>
      { s with applicationClosureRequestSet := s.applicationClosureRequestSet.insert connection }
  removeRequestHelper (some it)
  note (.endedByInterface d.node)

def processStream (connection : Nat) (rs : RecordStatus) (st : Stream) :
    Thread (Option Iterator) := do
  if rs.contentBytesExpected = 0 then
    let it ← atomically fun _ => do
      processCheck
      match ← cachedOrFind (← get).localRequestIter rs.requestId with
      | none =>
          throw (.logicError ("An expected request was not found in request_map_ in a call to " ++
            "FcgiServerInterface::RecordStatus::ProcessCompleteRecord."))
      | some it => return it
    match ← atomically fun reply => completeStream reply st it with
    | .incomplete => return none
    | .complete => return some it
    | .malformed =>
        atomically fun reply => rejectMalformed reply connection it
        discard (sendFcgiEndRequest connection (some it.node) rs.requestId fcgiRequestComplete
          exitFailure)
        return none
  else
    -- the content was appended when it was received
    return none

/-- The body of `ProcessCompleteRecord`: the list of completed requests, which
an abort record may shorten, and the request completed by this record. -/
def processRecord (connection : Nat) (rs : RecordStatus) (requestIterators : List Iterator) :
    Thread (List Iterator × Option Iterator) := do
  if rs.requestId.fcgiId = fcgiNullRequestId then
    if rs.type = kFcgiGetValues then
      discard (sendGetValuesResult connection rs.localRecordContentBuffer)
    else
      discard (sendFcgiUnknownType connection rs.type)
    return (requestIterators, none)
  else if rs.invalidatedByHeader then
    return (requestIterators, none)
  else if rs.type = kFcgiBeginRequest then
    processBeginRequest connection rs
    return (requestIterators, none)
  else if rs.type = kFcgiAbortRequest then
    match ← atomically fun reply => abortRequest reply connection rs.requestId requestIterators with
    | (requestIterators, none) => return (requestIterators, none)
    | (requestIterators, some node) =>
        let appStatus ← atomically fun _ => return (← get).appStatusOnAbort
        discard (sendFcgiEndRequest connection (some node) rs.requestId fcgiRequestComplete
          appStatus)
        return (requestIterators, none)
  else
    match Stream.ofType rs.type with
    | some st => return (requestIterators, ← processStream connection rs st)
    | none =>
        Program.throw (.logicError ("An unexpected record type was encountered in a call to " ++
          "fcgi_si::RecordStatus::ProcessCompleteRecord."))

def processCompleteRecord (connection : Nat) (rs : RecordStatus)
    (requestIterators : List Iterator) : Thread (List Iterator × Option Iterator) :=
  schedulingClosureOnThrow connection ("The interface was found to be corrupt in a call to " ++
      "fcgi_si::RecordStatus::ProcessCompleteRecord.")
    (processRecord connection rs requestIterators)

/-! ## Received bytes -/

/-- The `InterfaceCheck` message of `ReadRecords`. -/
def readRecordsCorrupt : String :=
  "The interface was found to be corrupt in a call to fcgi_si::RecordStatus::ReadRecords."

/-- Append content to the stream of its request. -/
def appendToStream (reply : SystemReply) (rs : RecordStatus) (bytes : Bytes) : Section Bool := do
  interfaceCheck readRecordsCorrupt
  match ← cachedOrFind (← get).localRequestIter rs.requestId with
  | none =>
      setLocalRequestIter none
      goBad
      throw (.logicError "request_map_ did not have an expected RequestData object.")
  | some it =>
      setLocalRequestIter (some it)
      match Stream.ofType rs.type with
      | none =>
          goBad
          throw (.logicError
            "An invalid type was encountered in a call to FcgiServerInterface::ReadRecords.")
      | some st =>
          let d ← deref it
          if reply.allocationFails 0 then
            return false
          else
            modify (·.setData it.key (d.append st bytes))
            return true

/-- Received bytes that belong to the header. -/
def receiveHeader (connection : Nat) (rs : RecordStatus) (bytes : Bytes) :
    Thread (RecordStatus × Bytes) := do
  let remainingHeader := fcgiHeaderLen - rs.bytesReceived
  let numberToWrite := min remainingHeader bytes.length
  let updated :=
    { rs with
      header := rs.header ++ bytes.take numberToWrite
      bytesReceived := rs.bytesReceived + numberToWrite }
  if remainingHeader ≤ bytes.length then
    let completed ← schedulingClosureOnThrow connection readRecordsCorrupt
      (updateAfterHeaderCompletion connection updated)
    return (completed, bytes.drop numberToWrite)
  else
    return (updated, bytes.drop numberToWrite)

/-- Received bytes that belong to the content.  When an append throws, the
handler schedules the closure before it releases the mutex. -/
def receiveContent (connection : Nat) (rs : RecordStatus) (remainingContent : Nat) (bytes : Bytes) :
    Thread (RecordStatus × Bytes) := do
  let numberToWrite := min remainingContent bytes.length
  let updated := { rs with bytesReceived := rs.bytesReceived + numberToWrite }
  if rs.invalidatedByHeader then
    return (updated, bytes.drop numberToWrite)
  else if rs.requestId.fcgiId = fcgiNullRequestId ∨ rs.type = kFcgiBeginRequest ∨
      rs.type = kFcgiAbortRequest then
    schedulingClosureOnThrow connection readRecordsCorrupt allocating
    return ({ updated with
        localRecordContentBuffer := rs.localRecordContentBuffer ++ bytes.take numberToWrite },
      bytes.drop numberToWrite)
  else
    let appended ← atomically fun reply => appendToStream reply rs (bytes.take numberToWrite)
    if appended then
      return (updated, bytes.drop numberToWrite)
    else
      atomicallyAs (.scheduleClosure connection) fun reply => do
        if (← get).badInterfaceStateDetected = false then
          insertForClosure reply connection
      Program.throw .badAlloc

/-- Received bytes that belong to the padding. -/
def receivePadding (rs : RecordStatus) (bytes : Bytes) : RecordStatus × Bytes :=
  let numberToWrite := min (rs.expectedBytes - rs.bytesReceived) bytes.length
  ({ rs with bytesReceived := rs.bytesReceived + numberToWrite }, bytes.drop numberToWrite)

/-- One round of the loop over received bytes, up to the test for a complete
record. -/
def receiveSegment (connection : Nat) (rs : RecordStatus) (bytes : Bytes) :
    Thread (RecordStatus × Bytes) :=
  if rs.IsHeaderComplete then
    let remainingContent := fcgiHeaderLen + rs.contentBytesExpected - rs.bytesReceived
    if 0 < remainingContent then
      receiveContent connection rs remainingContent bytes
    else
      return receivePadding rs bytes
  else
    receiveHeader connection rs bytes

/-- A complete record: `ClearRecord` leaves a `RecordStatus` as it is
constructed. -/
def finishRecord (connection : Nat) (rs : RecordStatus) (requestIterators : List Iterator) :
    Thread (List Iterator) :=
  schedulingClosureOnThrow connection readRecordsCorrupt do
    match ← processCompleteRecord connection rs requestIterators with
    | (requestIterators, none) => return requestIterators
    | (requestIterators, some it) => do
        allocating
        return requestIterators ++ [it]

/-- The loop over received bytes.  Every round takes at least one byte, so that
one round for each byte is enough. -/
def processReceivedBytes (connection : Nat) :
    Nat → RecordStatus → List Iterator → Bytes → Thread (RecordStatus × List Iterator)
  | 0, rs, requestIterators, _ => return (rs, requestIterators)
  | _ + 1, rs, requestIterators, [] => return (rs, requestIterators)
  | fuel + 1, rs, requestIterators, bytes@(_ :: _) => do
      let (rs, rest) ← receiveSegment connection rs bytes
      if rs.IsRecordComplete then
        let requestIterators ← finishRecord connection rs requestIterators
        processReceivedBytes connection fuel {} requestIterators rest
      else
        processReceivedBytes connection fuel rs requestIterators rest

/-- The loop over reads of the socket. -/
def readLoop (connection : Nat) :
    List ReadResult → RecordStatus → List Iterator → Thread (RecordStatus × List Iterator)
  | [], _, _ => Program.blocked .section
  | .filled bytes :: reads, rs, requestIterators => do
      let (rs, requestIterators) ←
        processReceivedBytes connection bytes.length rs requestIterators bytes
      readLoop connection reads rs requestIterators
  | .drained bytes :: _, rs, requestIterators =>
      processReceivedBytes connection bytes.length rs requestIterators bytes
  | .failed e :: _, rs, _ => do
      scheduleClosure connection readRecordsCorrupt
      if e = .zero ∨ e = .econnreset then
        return (rs, [])
      else
        Program.throw (.systemError e "read from a call to SocketRead")

def readRecords (connection : Nat) (reads : List ReadResult) : Thread (List Iterator) :=
  Program.tryCatch
    (do
      let rs ← atomically fun _ => do
        setLocalRequestIter none
        return ((← get).recordStatusMap[connection]?).getD {}
      let (rs, requestIterators) ← readLoop connection reads rs []
      atomically fun _ => do
        setLocalRequestIter none
        modify fun s => { s with recordStatusMap := s.recordStatusMap.insert connection rs }
      return requestIterators)
    fun e => do
      atomically fun _ => setLocalRequestIter none
      Program.throw e

end AsComponents.Server
