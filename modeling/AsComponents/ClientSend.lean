import AsComponents.ClientConnections
import AsComponents.Encoding

/-! The functions of `TestFcgiClientInterface` that send requests
(`test_fcgi_client_interface.cc`). -/

namespace AsComponents.Client

open Protocol NameValue SocketFunctions AsComponents.Partition Encoding Std

def kWriteOrSelect : String := "write or select"
def kWritevOrSelect : String := "writev or select"

def einval : Errno := .other 22

/-! ## Writes -/

/-- `WriteOnSelect` on a connection, with the number of bytes written and
`errno`. -/
def writeOnSelect (batch : Batch) (connection : Nat) (bytes : Bytes) : Operation (Nat × Errno) := do
  match SocketFunctions.writeOnSelect false batch.tape false ((← get).sockets connection) bytes with
  | none => Critical.wait
  | some r =>
      modify (·.setSocket connection r.socket)
      return (bytes.length - r.unwritten.length, r.errno)

/-- `ScatterGatherSocketWrite` on a connection, with the number of bytes that
remain and `errno`. -/
def scatterGatherSocketWrite (batch : Batch) (connection : Nat) (iovec : List Bytes)
    (numberToWrite : Nat) : Operation (Nat × Errno) := do
  match SocketFunctions.scatterGatherSocketWrite true batch.tape false ((← get).sockets connection)
      iovec numberToWrite with
  | none => Critical.wait
  | some r =>
      modify (·.setSocket connection r.socket)
      return (r.numberRemaining, r.errno)

/-- The event of `FailedWrite`: it names the key read through an iterator to an
element that `CloseConnection` may have erased. -/
def pushClosureThroughIterator (reply : SystemReply) (connection : Nat) : Operation Unit :=
  modify fun s =>
    s.pushEvent (.connectionClosure
      (if connection ∈ s.connectionMap then connection else reply.erasedKey))

def failedWrite (reply : SystemReply) (connection : Nat) (errorCode : Errno)
    (nothingWritten popManagementQueue : Bool) (what : String) : Operation Unit := do
  noexceptBlock do
    if popManagementQueue then
      let e ← connectionState connection
      modify (·.setConnection connection { e with managementQueue := e.managementQueue.dropLast })
    if ¬ (nothingWritten ∧ errorCode ≠ .epipe) then
      discard (closeConnection reply connection)
      pushClosureThroughIterator reply connection
  if errorCode ≠ .epipe then
    throw (.systemError errorCode what)

/-! ## Abort requests and management requests -/

def sendAbortRequest (reply : SystemReply) (id : FcgiRequestIdentifier) : Operation Bool := do
  let s ← get
  if id ∉ s.pendingRequestMap then return false
  if s.isConnected id.descriptor = false then return false
  match reply.batches with
  | [] => Critical.wait
  | batch :: _ =>
      let header := populateHeader kFcgiAbortRequest id.fcgiId 0 0
      let (written, errno) ← writeOnSelect batch id.descriptor header
      if written < header.length then
        failedWrite reply id.descriptor errno (written == 0) false kWriteOrSelect
        return false
      return true

/-- The insertion of a management request at the end of its queue. -/
def pushManagementRequest (reply : SystemReply) (connection : Nat) (q : ManagementRequestData) :
    Operation Unit := do
  insertionSucceeds reply
  let e ← connectionState connection
  modify (·.setConnection connection { e with managementQueue := e.managementQueue ++ [q] })

def sendManagementRequestHelper (reply : SystemReply) (connection : Nat) (iovec : List Bytes)
    (numberToWrite : Nat) : Operation Bool := do
  match reply.batches with
  | [] => Critical.wait
  | batch :: _ =>
      let (remaining, errno) ← scatterGatherSocketWrite batch connection iovec numberToWrite
      if remaining ≠ 0 then
        failedWrite reply connection errno (remaining == numberToWrite) true kWriteOrSelect
        return false
      return true

def sendBinaryManagementRequest (reply : SystemReply) (connection : Nat) (type : FcgiType)
    (data : Bytes) : Operation Bool := do
  if (← get).isConnected connection = false then return false
  if data.length > kMaxRecordContentByteLength then return false
  pushManagementRequest reply connection { type := type, data := data }
  let paddingLength := paddingFor data.length
  sendManagementRequestHelper reply connection
    [populateHeader type fcgiNullRequestId data.length paddingLength, data,
      List.replicate paddingLength 0]
    (fcgiHeaderLen + data.length + paddingLength)

def sendGetValuesRequest (reply : SystemReply) (connection : Nat) (paramsMap : ParamsMap) :
    Operation Bool := do
  let s ← get
  if s.isConnected connection = false then return false
  let newMap : ParamsMap := paramsMap.map fun _ _ => []
  let encoded := encodeNameValuePairs kFcgiGetValues fcgiNullRequestId s.limits newMap.toList 0
  if encoded.singleRecordFailure then return false
  pushManagementRequest reply connection { type := kFcgiGetValues, paramsMap := newMap }
  sendManagementRequestHelper reply connection encoded.iovec encoded.numberToWrite

/-! ## `SendRequest` -/

/-- `NonWriteStdSystemErrorRecoverer` for an exception of this type; other
exceptions propagate. -/
def recoverFault (reply : SystemReply) (connection : Nat) : Option Fault → Operation Unit
  | none => return
  | some (.systemError e what) => do
      failedWrite reply connection e false false what
      throw (.systemError e what)
  | some .badAlloc => throw .badAlloc

/-- `DataAndStdinWriter`, with the batches that are left; `none` is the return
value false. -/
def dataAndStdinWriter (reply : SystemReply) (connection : Nat) (type : FcgiType)
    (newId : UInt16) : Bytes → List Batch → Operation (Option (List Batch))
  | _, [] => Critical.wait
  | bytes, batch :: batches => do
      recoverFault reply connection batch.fault
      match partitionByteSequence (← get).limits type newId bytes with
      | none =>
          throw (.logicError ("An error in the estimation of internal vector lengths occurred in " ++
            "a call to PartitionByteSequence."))
      | some p =>
          let (remaining, errno) ← scatterGatherSocketWrite batch connection p.iovec p.numberToWrite
          if remaining ≠ 0 then
            failedWrite reply connection errno false false kWritevOrSelect
            return none
          -- a terminal record was just sent
          if bytes = [] then return some batches
          dataAndStdinWriter reply connection type newId p.rest batches

/-- The loop of `SendRequest` over the name-value pairs. -/
def paramsWriter (reply : SystemReply) (connection : Nat) (newId : UInt16) :
    List ByteSeqPair → Nat → List Batch → Operation (Option (List Batch))
  | _, _, [] => Critical.wait
  | pairs, offset, batch :: batches => do
      recoverFault reply connection batch.fault
      let encoded := encodeNameValuePairs kFcgiParams newId (← get).limits pairs offset
      if encoded.ok = false then
        failedWrite reply connection einval false false "::as_components::fcgi::EncodeNameValuePairs"
        return none
      let (remaining, errno) ←
        scatterGatherSocketWrite batch connection encoded.iovec encoded.numberToWrite
      if remaining ≠ 0 then
        failedWrite reply connection errno false false kWritevOrSelect
        return none
      if encoded.rest = [] then return some batches
      paramsWriter reply connection newId encoded.rest encoded.offset batches

/-- The begin record; `none` is the return of a null identifier. -/
def sendBeginRecord (reply : SystemReply) (connection : Nat) (newId : UInt16)
    (request : FcgiRequestDataReference) : List Batch → Operation (Option (List Batch))
  | [] => Critical.wait
  | batch :: batches => do
      let record := populateBeginRequestRecord newId request.role request.keepConn
      let (written, errno) ← writeOnSelect batch connection record
      if written < record.length then
        -- the conversion of a number to a Boolean: true when bytes were written
        let nothingWritten := written != 0
        if nothingWritten ∧ errno ≠ .epipe then
          noexceptBlock (releaseFrom connection newId)
        failedWrite reply connection errno nothingWritten false kWriteOrSelect
        return none
      return some batches

def sendData (reply : SystemReply) (connection : Nat) (newId : UInt16)
    (request : FcgiRequestDataReference) (batches : List Batch) : Operation (Option (List Batch)) :=
  if (request.role = fcgiResponder ∨ request.role = fcgiAuthorizer) ∧ request.data = [] then
    return some batches
  else dataAndStdinWriter reply connection kFcgiData newId request.data batches

def sendStdin (reply : SystemReply) (connection : Nat) (newId : UInt16)
    (request : FcgiRequestDataReference) (batches : List Batch) : Operation (Option (List Batch)) :=
  if request.role = fcgiAuthorizer ∧ request.stdin = [] then return some batches
  else dataAndStdinWriter reply connection kFcgiStdin newId request.stdin batches

def sendParams (reply : SystemReply) (connection : Nat) (newId : UInt16)
    (request : FcgiRequestDataReference) (batches : List Batch) : Operation (Option (List Batch)) :=
  match request.paramsMap with
  | none => return some batches
  | some params =>
      if params.toList = [] then return some batches
      else paramsWriter reply connection newId params.toList 0 batches

/-- The terminal `FCGI_PARAMS` record. -/
def sendTerminalParams (reply : SystemReply) (connection : Nat) (newId : UInt16) :
    List Batch → Operation (Option (List Batch))
  | [] => Critical.wait
  | batch :: batches => do
      let record := populateHeader kFcgiParams newId 0 0
      let (written, errno) ← writeOnSelect batch connection record
      if written < record.length then
        failedWrite reply connection errno false false kWriteOrSelect
        return none
      return some batches

/-- A part of `SendRequest` after one that may have returned a null
identifier. -/
def unlessFailed {α β : Type} (x : Operation (Option α)) (f : α → Operation (Option β)) :
    Operation (Option β) := do
  match ← x with
  | none => return none
  | some a => f a

/-- The body of the `try` block of `SendRequest`. -/
def sendRecords (reply : SystemReply) (connection : Nat) (newId : UInt16)
    (request : FcgiRequestDataReference) : Operation (Option FcgiRequestIdentifier) :=
  unlessFailed (sendBeginRecord reply connection newId request reply.batches) fun batches =>
  unlessFailed (sendData reply connection newId request batches) fun batches =>
  unlessFailed (sendStdin reply connection newId request batches) fun batches =>
  unlessFailed (sendParams reply connection newId request batches) fun batches =>
  unlessFailed (sendTerminalParams reply connection newId batches) fun _ => do
    recoverFault reply connection reply.insertionFails
    modify fun s =>
      { s with pendingRequestMap :=
          s.pendingRequestMap.insertIfNew ⟨connection, newId⟩ { request := request } }
    return some ⟨connection, newId⟩

/-- The handlers of `SendRequest`: an exception that is not a
`std::system_error` closes the connection. -/
def handleSendFailure (reply : SystemReply) (connection : Nat) :
    Failure → Operation (Option FcgiRequestIdentifier)
  | .systemError e what => throw (.systemError e what)
  | .halted => throw .halted
  | e => do
      noexceptBlock do
        discard (closeConnection reply connection)
        modify (·.pushEvent (.connectionClosure connection))
      throw e

/-- `SendRequest`; `none` is the null identifier. -/
def sendRequest (reply : SystemReply) (connection : Nat) (request : FcgiRequestDataReference) :
    Operation (Option FcgiRequestIdentifier) := do
  if (← get).isConnected connection = false then return none
  let e ← connectionState connection
  match e.idManager.getId with
  | none =>
      throw (.lengthError ("A request for a new ID was made through a call to " ++
        "IdManager<I>::GetId. All possible IDs had been assigned."))
  | some (id, idManager) =>
      modify (·.setConnection connection { e with idManager := idManager })
      tryCatch (sendRecords reply connection (UInt16.ofNat id.toNat) request)
        (handleSendFailure reply connection)

end AsComponents.Client
