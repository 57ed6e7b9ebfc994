import AsComponents.System

/-! The functions of `FcgiServerInterface` which other parts of the program call
(`fcgi_server_interface.cc`). -/

namespace AsComponents.Server

open Protocol NameValue SocketFunctions AsComponents.Partition Std

/-! ## Requests -/

/-- `AddRequest`; the new node is the next one. -/
def addRequest (reply : SystemReply) (requestId : FcgiRequestIdentifier) (role : UInt16)
    (closeConnection : Bool) : Section (Option Iterator) := do
  tryCatch
    (do
      if (← get).requestCountMap[requestId.descriptor]? = none then
        throw (.logicError
          "request_count_map_ did not possess an expected file descriptor key.")
      if (← get).requestMap.contains requestId then
        throw (.logicError ("An attempt was made to add an element to request_map_ with a key " ++
          "which was already present.")))
    fun e => do
      goBad
      throw e
  -- the count is incremented first and restored when the insertion throws
  if reply.allocationFails 0 then throw .badAlloc
  modify fun s =>
    let socket := ((s.descriptors[requestId.descriptor]?).map (·.socket)).getD 0
    { s with
      requestCountMap := s.requestCountMap.modify requestId.descriptor (· + 1)
      requestMap := s.requestMap.insert requestId
        { role := role, closeConnection := closeConnection, node := s.nextNode, socket := socket }
      nextNode := s.nextNode + 1
      log := .begun s.nextNode socket requestId.fcgiId true :: s.log }
  return (← get).find requestId

def removeRequestHelper (iter : Option Iterator) : Section Unit :=
  tryCatch
    (do
      match iter with
      | none =>
          throw (.logicError
            "A request to erase an item of request_map_ was made on a missing key.")
      | some it =>
          discard (deref it)
          match (← get).requestCountMap[it.key.descriptor]? with
          | none => throw (.logicError "map::at")
          | some 0 =>
              throw (.logicError "request_count_map_ would have obtained a negative count.")
          | some (n + 1) =>
              modify fun s =>
                { s with
                  requestCountMap := s.requestCountMap.insert it.key.descriptor n
                  requestMap := s.requestMap.erase it.key })
    fun e => do
      goBad
      throw e

/-! ## Connections -/

/-- `close`, with what it closed. -/
def closeDescriptor (connection : Nat) (destroying : Bool) : Section Unit :=
  modify fun s =>
    { s with
      descriptors := s.descriptors.erase connection
      log := .closed connection ((s.descriptors[connection]?).map (·.socket))
        (s.assigned connection) destroying :: s.log }

/-- The loop of `RequestCleanupDuringConnectionClosure` over the requests of a
connection. -/
def requestCleanupLoop : List FcgiRequestIdentifier → Bool → Section Bool
  | [], assignedRequestsPresent => return assignedRequestsPresent
  | id :: ids, assignedRequestsPresent => do
      match (← get).requestMap[id]? with
      | none => requestCleanupLoop ids assignedRequestsPresent
      | some d =>
          if d.requestStatus = .requestAssigned then
            modify (·.setData id { d with connectionClosedByInterface := true })
            requestCleanupLoop ids true
          else
            removeRequestHelper (some ⟨id, d.node⟩)
            requestCleanupLoop ids assignedRequestsPresent

def requestCleanupDuringConnectionClosure (connection : Nat) : Section Bool :=
  tryCatch
    (do requestCleanupLoop ((← get).requestsOf connection) false)
    fun e => do
      goBad
      throw e

/-- The lambda `EraseConnectionOrTerminate` of `RemoveConnection`. -/
def eraseConnectionOrTerminate (connection : Nat) (eraseRequestCount : Bool) : Section Unit := do
  let s ← get
  if s.recordStatusMap.contains connection ∧ s.writeMutexMap.contains connection ∧
      (eraseRequestCount → s.requestCountMap.contains connection) then
    set { s with
      recordStatusMap := s.recordStatusMap.erase connection
      writeMutexMap := s.writeMutexMap.erase connection
      requestCountMap :=
        if eraseRequestCount then s.requestCountMap.erase connection else s.requestCountMap }
  else
    halt .terminated

/-- `RemoveConnection`; the reply's allocation is the insertion into
`dummy_descriptor_set_`. -/
def removeConnection (reply : SystemReply) (connection : Nat) : Section Bool :=
  tryCatch
    (do
      match (← get).writeMutexMap[connection]? with
      | none => throw (.logicError "map::at")
      | some m =>
          -- `try_lock` fails when a request thread holds the mutex
          if m.owner.isSome then
            return false
          else
            let assignedRequests ← requestCleanupDuringConnectionClosure connection
            if assignedRequests then
              match reply.dup2Fails connection with
              | some e => throw (.systemError e "dup2")
              | none =>
                  modify fun s =>
                    { s with descriptors :=
                        s.descriptors.modify connection ({ · with redirected := true }) }
                  if reply.allocationFails connection then throw .badAlloc
                  modify fun s =>
                    { s with dummyDescriptorSet := s.dummyDescriptorSet.insert connection }
                  eraseConnectionOrTerminate connection false
            else
              eraseConnectionOrTerminate connection true
              closeDescriptor connection false
              match reply.closeFails connection with
              | some e => if e ≠ .eintr then throw (.systemError e "close")
              | none => pure ()
            return true)
    fun e => do
      goBad
      throw e

/-- Insertion into `application_closure_request_set_` by the interface thread,
which gives the interface up when it fails. -/
def insertForClosure (reply : SystemReply) (connection : Nat) : Section Unit := do
  if reply.allocationFails 0 then
    goBad
    throw .badAlloc
  modify fun s =>
    { s with applicationClosureRequestSet := s.applicationClosureRequestSet.insert connection }

/-! ## The interface thread -/

/-- The sections of the interface thread that statements about runs mention. -/
inductive Label
  | cleanup
  /-- The insertion of a connection into `application_closure_request_set_`
  after the end of its stream, after an error or in an exception handler. -/
  | scheduleClosure (connection : Nat)
  /-- The call of `select` in `AcceptRequests`. -/
  | select
  | section
  deriving DecidableEq, Repr

/-- Code of the interface thread. -/
abbrev Thread := Program Label SystemReply System Failure

/-- A critical section of the interface thread, or an action on what only that
thread reads. -/
def atomicallyAs {α : Type} (l : Label) (f : SystemReply → Section α) : Thread α :=
  Program.atomic l f

def atomically {α : Type} (f : SystemReply → Section α) : Thread α := atomicallyAs .section f

/-- An allocation that needs no mutex. -/
def allocating : Thread Unit := atomically fun reply => allocate reply 0

/-- The insertion of a connection for closure in the handlers of
`ProcessCompleteRecord`, `ReadRecords` and `AcceptRequests`. -/
def scheduleClosure (connection : Nat) (what : String) : Thread Unit :=
  atomicallyAs (.scheduleClosure connection) fun reply => do
    interfaceCheck what
    insertForClosure reply connection

/-- The handler which schedules the connection for closure and rethrows. -/
def schedulingClosureOnThrow {α : Type} (connection : Nat) (what : String) (p : Thread α) :
    Thread α :=
  Program.tryCatch p fun e => do
    scheduleClosure connection what
    Program.throw e

/-! ## Sending records -/

/-- How a write of `SendRecord` ended. -/
inductive SendOutcome
  | sent
  | refused
  | incomplete (e : Errno)
  deriving DecidableEq, Repr

/-- The part of `SendRecord` under the write mutex. -/
def sendRecordWrite (reply : SystemReply) (connection : Nat) (origin : Option Nat)
    (bytes : Bytes) : Section SendOutcome := do
  match (← get).writeMutexMap[connection]? with
  | none =>
      goBad
      throw (.logicError "An expected connection was missing from write_mutex_map_.")
  | some m =>
      Critical.await fun s : System => s.owner connection = none
      if m.corrupt then
        return .refused
      else
        match (← get).descriptors[connection]? with
        | some ⟨k, false⟩ =>
            match writeOnSelect true reply.tape false ((← get).sockets k) bytes with
            | none => Critical.wait
            | some r =>
                let numberWritten := bytes.length - r.unwritten.length
                modify (·.setSocket k r.socket)
                modify fun s => s.setTransmissions k
                  (s.transmissions k ++ [⟨origin, bytes, numberWritten⟩])
                if numberWritten < bytes.length then
                  if numberWritten ≠ 0 then
                    modify (·.setWriteMutex connection { m with corrupt := true })
                  return .incomplete r.errno
                else
                  return .sent
        | _ => halt .strayDescriptor

/-- `SendRecord`; `origin` is the request the record belongs to. -/
def sendRecord (connection : Nat) (origin : Option Nat) (bytes : Bytes) : Thread Bool := do
  match ← atomically fun reply => sendRecordWrite reply connection origin bytes with
  | .sent => return true
  | .refused => return false
  | .incomplete e =>
      atomically fun reply => do
        Critical.await fun s : System => s.owner connection = none
        insertForClosure reply connection
      if e = .epipe ∨ e = .zero then
        return false
      else
        Program.throw (.systemError e
          "An error from a call to as_components::socket_functions::WriteOnSelect.")

/-- The record of `SendFcgiEndRequest`. -/
def endRequestRecord (fcgiId : UInt16) (protocolStatus : UInt8) (appStatus : Int32) : Record :=
  ⟨kFcgiEndRequest, fcgiId, endRequestBody appStatus protocolStatus, []⟩

def sendFcgiEndRequest (connection : Nat) (origin : Option Nat) (requestId : FcgiRequestIdentifier)
    (protocolStatus : UInt8) (appStatus : Int32) : Thread Bool := do
  allocating
  sendRecord connection origin (endRequestRecord requestId.fcgiId protocolStatus appStatus).encode

def unknownTypeRecord (type : FcgiType) : Record :=
  ⟨kFcgiUnknownType, fcgiNullRequestId, [type, 0, 0, 0, 0, 0, 0, 0], []⟩

def sendFcgiUnknownType (connection : Nat) (type : FcgiType) : Thread Bool := do
  allocating
  sendRecord connection none (unknownTypeRecord type).encode

/-- The decimal digits of a non-negative integer. -/
def toUnsignedCharacterVector (c : Nat) : Bytes :=
  (Nat.toDigits 10 c).map fun digit => UInt8.ofNat digit.toNat

/-- Whether a sorted list has a pair with this name, by `std::lower_bound`. -/
def hasName (pairs : List ByteSeqPair) (name : Bytes) : Bool :=
  match pairs.find? fun p => !(compare p.1 name).isLT with
  | some p => p.1 == name
  | none => false

/-- The pairs which answer a `FCGI_GET_VALUES` record. -/
def getValuesResultPairs (s : System) (content : Bytes) : List ByteSeqPair :=
  let pairs := (extractBinaryNameValuePairs content).insertionSort NameLessEqual
  (if hasName pairs fcgiMaxConns then
    [(fcgiMaxConns, toUnsignedCharacterVector s.maximumConnectionCount)] else []) ++
  (if hasName pairs fcgiMaxReqs then
    [(fcgiMaxReqs, toUnsignedCharacterVector s.maximumRequestCountPerConnection)] else []) ++
  (if hasName pairs fcgiMpxsConns then
    [(fcgiMpxsConns, ascii (if s.maximumRequestCountPerConnection > 1 then "1" else "0"))] else [])

def getValuesResultRecord (s : System) (content : Bytes) : Record :=
  alignedRecord kFcgiGetValuesResult fcgiNullRequestId
    (encodePairs (getValuesResultPairs s content))

def sendGetValuesResult (connection : Nat) (content : Bytes) : Thread Bool := do
  let result ← atomically fun reply => do
    allocate reply 0
    return getValuesResultRecord (← get) content
  sendRecord connection none result.encode

end AsComponents.Server
