import AsComponents.AcceptRequests

/-! The threads of the application: the calls on `FcgiRequest` objects
(`fcgi_request.cc`, `fcgi_request_templates.h`).  A call of `Write` or
`WriteError` takes several steps, every other call is one section. -/

namespace AsComponents.Server

open Protocol NameValue SocketFunctions AsComponents.Partition Std

/-- Set `completed_` and `was_aborted_`. -/
def abandon (i : Nat) : Section Unit :=
  modify fun s => s.setRequest i { s.requests i with completed := true, wasAborted := true }

def setCall (i : Nat) (call : Call) : Section Unit :=
  modify fun s => s.setRequest i { s.requests i with call := call }

/-- `RemoveRequest` with the handler that wakes the interface up. -/
def removeRequestOrWake (i : Nat) : Section Unit :=
  tryCatch (removeRequest i) fun e => do
    pipeWriteOrTerminate
    throw e

/-- `InterfaceStateCheckForWritingUponMutexAcquisition`. -/
def interfaceStateCheck (i : Nat) : Section Bool := do
  let s ← get
  let o := s.requests i
  if s.interfaceIdentifier ≠ o.associatedInterfaceId then
    abandon i
    return false
  else if s.badInterfaceStateDetected then
    abandon i
    return false
  else
    let d ← requestData i
    if d.connectionClosedByInterface = true ∨
        o.requestIdentifier.descriptor ∈ s.applicationClosureRequestSet then
      abandon i
      removeRequestOrWake i
      return false
    else
      return true

/-- The lambda `TryToAddToApplicationClosureRequestSet` of
`ScatterGatherWriteHelper`. -/
def tryToAddToClosureSet (reply : SystemReply) (i : Nat) (interfaceMutexHeld forceInsert : Bool) :
    Section Bool := do
  let valid ← if interfaceMutexHeld then pure true else interfaceStateCheck i
  if valid then
    tryCatch
      (do
        abandon i
        removeRequest i
        if forceInsert = true ∨ ((← get).requests i).closeConnection = true then
          synchroniseOnWriteMutex i
          requestClosure reply i
        return true)
      fun e => do
        goBad
        pipeWriteOrTerminate
        throw e
  else
    return false

/-- The start of a write under both mutexes: the write mutex of the object when
the batch may be written. -/
def acquireWriteMutex (i : Nat) : Section (Option WriteMutex) := do
  synchroniseOnWriteMutex i
  let s ← get
  match s.writeMutexMap[(s.requests i).requestIdentifier.descriptor]? with
  | none => halt .danglingPointer
  | some m =>
      if m.corrupt then
        abandon i
        removeRequest i
        return none
      else
        return some m

/-! ## The write loop of `ScatterGatherWriteHelper` -/

inductive WriteOutcome
  | done
  /-- The socket is ready again for the rest of the batch. -/
  | again (iovec : List Bytes)
  | failed (forceInsert : Bool) (failure : Option Failure)

/-- One round of the loop: the socket, the bytes that remain, and whether the
connection is to be marked as corrupt. -/
structure WriteRound where
  socket : Socket
  remaining : Nat
  corrupt : Bool
  outcome : WriteOutcome
  tape : List IoResult

/-- The loop over `select`. -/
def selectLoop (k : Socket) (iovec : List Bytes) (working total : Nat) :
    List IoResult → Option WriteRound
  | .ready :: tape => some ⟨k, working, false, .again iovec, tape⟩
  | .timedOut :: tape => some ⟨k, working, decide (working < total), .failed true none, tape⟩
  | .selectFailed e :: tape =>
      if e = .eintr then selectLoop k iovec working total tape
      else some ⟨k, working, decide (working < total),
        .failed true (some (.systemError e "select")), tape⟩
  | _ => none

def writeRound (tape : List IoResult) (k : Socket) (iovec : List Bytes) (working total : Nat) :
    Option WriteRound :=
  match scatterGatherSocketWrite false tape false k iovec working with
  | none => none
  | some r =>
      if r.numberRemaining = 0 then
        some ⟨r.socket, 0, false, .done, r.tape⟩
      else if r.errno = .eagain then
        selectLoop r.socket r.iovec r.numberRemaining total r.tape
      else if r.errno = .epipe then
        some ⟨r.socket, r.numberRemaining, false, .failed false none, r.tape⟩
      else
        some ⟨r.socket, r.numberRemaining, decide (r.numberRemaining < total),
          .failed true (some (.systemError r.errno
            "write from a call to socket_functions::SocketWrite")), r.tape⟩

/-- All rounds of a batch, for a writer that holds the interface mutex; each
takes at least one result of the tape. -/
def writeRounds (total : Nat) : Nat → List IoResult → Socket → List Bytes → Nat → Option WriteRound
  | 0, _, _, _, _ => none
  | fuel + 1, tape, k, iovec, working =>
      match writeRound tape k iovec working total with
      | some ⟨k', remaining, _, .again iovec', tape'⟩ =>
          writeRounds total fuel tape' k' iovec' remaining
      | r => r

/-- The socket a descriptor names. -/
def connectedSocket (connection : Nat) : Section Nat := do
  match (← get).descriptors[connection]? with
  | some ⟨k, false⟩ => return k
  | _ => halt .strayDescriptor

/-! ## Write and WriteError -/

/-- Set how much of the last batch the system has accepted. -/
def acceptUpTo (ts : List Transmission) (accepted : Nat) : List Transmission :=
  match ts.getLast? with
  | some t => ts.dropLast ++ [{ t with accepted := accepted }]
  | none => ts

/-- The start of `ScatterGatherWriteHelper` for the next batch of a write: from
here on the thread holds the write mutex and not the interface mutex. -/
def startBatch (i : Nat) (rest : Bytes) (type : FcgiType) : Section Unit := do
  let s ← get
  let o := s.requests i
  match partitionByteSequence s.limits type o.requestIdentifier.fcgiId rest with
  | none =>
      setCall i .idle
      throw (.logicError ("An error in the estimation of internal vector lengths occurred in a " ++
        "call to PartitionByteSequence."))
  | some p =>
      let valid ← tryCatch (interfaceStateCheck i) fun e => do
        setCall i .idle
        throw e
      if valid then
        match ← tryCatch (acquireWriteMutex i) fun e => do
            setCall i .idle
            throw e with
        | none => setCall i .idle
        | some m => do
            let connection := o.requestIdentifier.descriptor
            modify (·.setWriteMutex connection { m with owner := some i })
            modify fun s => s.setTransmissions m.socket
              (s.transmissions m.socket ++ [⟨some o.node, p.iovec.flatten, 0⟩])
            setCall i (.writing p.rest type p.iovec p.numberToWrite p.numberToWrite)
      else
        setCall i .idle

/-- The next round of the write loop. -/
def continueBatch (reply : SystemReply) (i : Nat) (rest : Bytes) (type : FcgiType)
    (iovec : List Bytes) (working total : Nat) : Section Unit := do
  let o := (← get).requests i
  let connection := o.requestIdentifier.descriptor
  let k ← connectedSocket connection
  match writeRound reply.tape ((← get).sockets k) iovec working total with
  | none => Critical.wait
  | some r =>
      modify (·.setSocket k r.socket)
      modify fun s => s.setTransmissions k (acceptUpTo (s.transmissions k) (total - r.remaining))
      match (← get).writeMutexMap[connection]? with
      | none => halt .danglingPointer
      | some m =>
          match r.outcome with
          | .done =>
              modify (·.setWriteMutex connection { m with owner := none })
              setCall i (if rest = [] then .idle else .looping rest type)
          | .again iovec => setCall i (.writing rest type iovec r.remaining total)
          | .failed forceInsert failure =>
              modify (·.setWriteMutex connection
                { m with owner := none, corrupt := m.corrupt || r.corrupt })
              setCall i (.failing forceInsert failure)

/-- The end of a write that failed: it returns false or throws. -/
def finishFailedWrite (reply : SystemReply) (i : Nat) (forceInsert : Bool)
    (failure : Option Failure) : Section Bool := do
  discard (tryCatch (tryToAddToClosureSet reply i false forceInsert) fun e => do
    setCall i .idle
    throw e)
  setCall i .idle
  match failure with
  | some e => throw e
  | none => return false

/-! ## Complete, RejectRole and AbortStatus -/

/-- The two terminal stream records and the end record. -/
def conclusionRecords (fcgiId : UInt16) (appStatus : Int32) (protocolStatus : UInt8) :
    List Record :=
  [⟨kFcgiStdout, fcgiId, [], []⟩, ⟨kFcgiStderr, fcgiId, [], []⟩,
    ⟨kFcgiEndRequest, fcgiId, endRequestBody appStatus protocolStatus, []⟩]

/-- `ScatterGatherWriteHelper` for a caller that holds the interface mutex. -/
def writeHoldingInterfaceMutex (reply : SystemReply) (i : Nat) (bytes : Bytes) : Section Bool := do
  match ← acquireWriteMutex i with
  | none => return false
  | some m =>
      let o := (← get).requests i
      let connection := o.requestIdentifier.descriptor
      let k ← connectedSocket connection
      match writeRounds bytes.length (reply.tape.length + 1) reply.tape ((← get).sockets k) [bytes]
          bytes.length with
      | none => Critical.wait
      | some r =>
          modify (·.setSocket k r.socket)
          modify fun s => s.setTransmissions k
            (s.transmissions k ++ [⟨some o.node, bytes, bytes.length - r.remaining⟩])
          match r.outcome with
          | .failed forceInsert failure =>
              modify (·.setWriteMutex connection { m with corrupt := m.corrupt || r.corrupt })
              discard (tryToAddToClosureSet reply i true forceInsert)
              match failure with
              | some e => throw e
              | none => return false
          | _ => return true

/-- `EndRequestHelper`. -/
def endRequestHelper (reply : SystemReply) (i : Nat) (appStatus : Int32) (protocolStatus : UInt8) :
    Section Bool := do
  let o := (← get).requests i
  if o.completed = true ∨ o.associatedInterfaceId = 0 then
    return false
  else if ← interfaceStateCheck i then
    let written ← writeHoldingInterfaceMutex reply i
      (encodeRecords (conclusionRecords o.requestIdentifier.fcgiId appStatus protocolStatus))
    if written then
      modify fun s => s.setRequest i { s.requests i with completed := true }
      removeRequestOrWake i
      if o.closeConnection then
        tryCatch
          (do
            synchroniseOnWriteMutex i
            requestClosure reply i)
          fun e => do
            goBad
            pipeWriteOrTerminate
            throw e
      note (.completed o.node appStatus protocolStatus)
    return written
  else
    return false

def abortStatus (i : Nat) : Section Bool := do
  let s ← get
  let o := s.requests i
  if o.completed = true ∨ o.wasAborted = true ∨ o.associatedInterfaceId = 0 then
    return o.wasAborted
  else if s.interfaceIdentifier ≠ o.associatedInterfaceId then
    abandon i
    throw (.runtimeError ("The FcgiServerInterface associated with an FcgiRequest object was " ++
      "destroyed before the request."))
  else if s.badInterfaceStateDetected then
    abandon i
    throw (.runtimeError ("The FcgiServerInterface associated with an FcgiRequest object was in " ++
      "a bad state."))
  else
    let d ← requestData i
    if d.connectionClosedByInterface then
      abandon i
      removeRequestOrWake i
      return true
    else if d.clientSetAbort then
      modify fun s => s.setRequest i { s.requests i with wasAborted := true }
      return true
    else
      return false

/-! ## Steps of the application -/

/-- A call on a request object by the thread that uses it. -/
inductive ApiCall
  | write (bytes : Bytes)
  | writeError (bytes : Bytes)
  | complete (appStatus : Int32)
  | rejectRole (appStatus : Int32)
  | abortStatus
  | destroy
  /-- A new object is constructed from this one. -/
  | moveConstruct
  /-- This object is assigned from another one. -/
  | moveAssign (source : Nat)
  deriving DecidableEq, Repr

/-- The beginning of `WriteHelper`. -/
def startWrite (i : Nat) (type : FcgiType) (bytes : Bytes) : Section Unit := do
  let o := (← get).requests i
  if o.completed = true ∨ o.associatedInterfaceId = 0 ∨ bytes = [] then
    return
  else
    setCall i (.looping bytes type)

def moveConstruct (i : Nat) : Section Unit :=
  modify fun s =>
    { (s.setRequest s.nextRequest (s.requests i)).setRequest i {} with
      nextRequest := s.nextRequest + 1 }

def moveAssign (i source : Nat) : Section Unit := do
  let s ← get
  if i = source then
    return
  else if (s.requests i).completed = true ∨ (s.requests i).associatedInterfaceId = 0 then
    set ((s.setRequest i (s.requests source)).setRequest source {})
  else
    throw (.logicError ("Move assignment would have occurred on an FcgiRequest object which was " ++
      "not in a valid state to be moved to."))

/-- The next step of the call in progress. -/
def continueCall (reply : SystemReply) (i : Nat) : Section Unit := do
  match ((← get).requests i).call with
  | .idle => Critical.wait
  | .looping rest type => startBatch i rest type
  | .writing rest type iovec working total => continueBatch reply i rest type iovec working total
  | .failing forceInsert failure => discard (finishFailedWrite reply i forceInsert failure)

/-- A call on an object that no other call uses. -/
def startCall (reply : SystemReply) (i : Nat) : ApiCall → Section Unit
  | .write bytes => startWrite i kFcgiStdout bytes
  | .writeError bytes => startWrite i kFcgiStderr bytes
  | .complete appStatus => discard (endRequestHelper reply i appStatus fcgiRequestComplete)
  | .rejectRole appStatus => discard (endRequestHelper reply i appStatus fcgiUnknownRole)
  | .abortStatus => discard (abortStatus i)
  | .destroy => destroyRequest reply i
  | .moveConstruct => moveConstruct i
  | .moveAssign source => do
      Critical.await fun s : System =>
        (s.requests source).call = .idle ∧ (s.requests source).held = false
      moveAssign i source

/-- One step of the thread that uses object `i`: the start of a call, or the
next step of the one in progress. -/
def requestStep (reply : SystemReply) (i : Nat) (call : Option ApiCall) : Section Unit := do
  Critical.await fun s : System => i < s.nextRequest ∧ (s.requests i).held = false
  match call with
  | some c => do
      Critical.await fun s : System => (s.requests i).call = .idle
      startCall reply i c
  | none => continueCall reply i

end AsComponents.Server
