import AsComponents.ClientState

/-! The functions of `TestFcgiClientInterface` that open and close connections
and release request identifiers (`test_fcgi_client_interface.cc`). -/

namespace AsComponents.Client

open Protocol NameValue SocketFunctions AsComponents.Partition Std

def fdSetSize : Nat := 1024

/-- `IdManager::ReleaseId` for the identifiers of a connection. -/
def releaseFrom (connection : Nat) (fcgiId : UInt16) : Operation Unit := do
  let e ← connectionState connection
  match e.idManager.releaseId fcgiId.toNat with
  | none => throw (.logicError "Release was requested for an ID which was not in use.")
  | some m => modify (·.setConnection connection { e with idManager := m })

/-! ## `CloseConnection` -/

/-- The loop which releases and erases the pending requests of a connection. -/
def erasePendingLoop (connection : Nat) : List FcgiRequestIdentifier → Operation Unit
  | [] => return
  | id :: ids => do
      releaseFrom connection id.fcgiId
      modify fun s => { s with pendingRequestMap := s.pendingRequestMap.erase id }
      erasePendingLoop connection ids

/-- `connection_is_ready`; the saved iterator is dereferenced only while ready
descriptors remain. -/
def connectionIsReady (connection : Nat) : Operation Bool := do
  let s ← get
  if s.remainingReady > 0 then
    match s.nextConnection with
    | .entry k => return k ≤ connection && s.selectSet.contains connection
    | _ => halt .danglingIterator
  else return false

/-- The part of a `RecordState` which the closure of its connection resets. -/
def RecordState.onClosure (r : RecordState) : RecordState :=
  { r with
    invalidated := false
    header := []
    contentBytesExpected := 0
    contentBytesReceived := 0
    paddingBytesExpected := 0
    paddingBytesReceived := 0
    localBuffer := [] }

/-- `++next_connection_` when it refers to the connection that is closed. -/
def disconnectNextIf (disconnectNext : Bool) (connection : Nat) : Operation Unit := do
  if disconnectNext then
    modify fun s => { s with nextConnection := s.after connection }

/-- The closure of a connection with completed requests: its element is kept. -/
def keepElement (disconnectNext : Bool) (connection : Nat) : Operation Unit := do
  let s ← get
  let e ← connectionState connection
  if (s.pendingOf connection).all (fun id => e.isUsed id.fcgiId) = false then
    throw (.logicError ("A discrepancy between stored request IDs was found during a call to " ++
      "TestFcgiClientInterface::CloseConnection."))
  modify (·.setConnection connection
    { e with recordState := e.recordState.onClosure, managementQueue := [], connected := false })
  erasePendingLoop connection (s.pendingOf connection)
  disconnectNextIf disconnectNext connection

/-- The closure of a connection without completed requests. -/
def eraseElement (disconnectNext : Bool) (connection : Nat) : Operation Unit := do
  disconnectNextIf disconnectNext connection
  modify fun s =>
    { s.eraseConnection connection with
      pendingRequestMap := s.pendingRequestMap.filter fun id _ => id.descriptor ≠ connection }

/-- The call of `close`. -/
def closeDescriptor (reply : SystemReply) (connection : Nat) : Operation Bool := do
  match reply.closeFails connection with
  | none => return true
  | some e => if e = .eintr then return true else throw (.systemError e "close")

def closeConnection (reply : SystemReply) (connection : Nat) : Operation Bool := do
  let s ← get
  if s.isConnected connection = false then return false
  let ready ← connectionIsReady connection
  let disconnectNext := ready && s.nextConnection == .entry connection
  if s.completedOf connection ≠ [] then keepElement disconnectNext connection
  else eraseElement disconnectNext connection
  modify fun s =>
    { s with
      remainingReady := if ready then s.remainingReady - 1 else s.remainingReady
      numberConnected := s.numberConnected - 1 }
  closeDescriptor reply connection

/-! ## `Connect` -/

/-- `Connect`; `none` is the return value -1. -/
def connect (reply : SystemReply) : Operation (Option Nat) := do
  match reply.connect with
  | .refused => return none
  | .failed e what => throw (.systemError e what)
  | .connected descriptor =>
      if descriptor ≥ fdSetSize then
        throw (.runtimeError ("In a call to TestFcgiClientInterface::Connect, a file descriptor " ++
          "which was returned by a call to socket was too large to be used in a call to select " ++
          "in a call to TestFcgiClientInterface::RetrieveServerEvent."))
      match (← get).connectionMap[descriptor]? with
      | some e =>
          if e.connected then
            throw (.logicError ("In a call to TestFcgiClientInterface::Connect, a connection was " ++
              "made on a file descriptor which was already considered to be connected."))
          modify (·.setConnection descriptor { e with connected := true })
      | none =>
          insertionSucceeds reply
          modify (·.setConnection descriptor { connected := true })
      modify fun s =>
        { s.setSocket descriptor {} with numberConnected := s.numberConnected + 1 }
      return some descriptor

/-! ## `ReleaseId` -/

def discrepancy : Failure :=
  .logicError ("A discrepancy between stored request IDs was found in an instance of " ++
    "TestFcgiClientInterface in a call to ReleaseId.")

/-- `ReleaseId(FcgiRequestIdentifier)`. -/
def releaseId (id : FcgiRequestIdentifier) : Operation Bool := do
  let s ← get
  match s.connectionMap[id.descriptor]? with
  | none => return false
  | some e =>
      let pending := decide (id ∈ s.pendingRequestMap)
      let completed := s.completedRequestSet.contains id
      let used := e.isUsed id.fcgiId
      if (!used && !pending && !completed) || (used && pending && !completed) then
        return false
      else if used && !pending && completed then
        let onlyOne := (s.completedOf id.descriptor).all (· == id)
        if onlyOne && !e.connected then
          modify (·.eraseConnection id.descriptor)
        else
          releaseFrom id.descriptor id.fcgiId
        modify fun s => { s with completedRequestSet := s.completedRequestSet.erase id }
        return true
      else
        throw discrepancy

/-- The loop which releases the completed requests of a connection. -/
def releaseLoop (connection : Nat) : List FcgiRequestIdentifier → Operation Unit
  | [] => return
  | id :: ids => do
      releaseFrom connection id.fcgiId
      releaseLoop connection ids

/-- The actions of `ReleaseId(int)` on `connection_map_`. -/
def releaseElement (connection : Nat) (e : ConnectionState) : Operation Unit := do
  let s ← get
  if e.connected then
    if (s.completedOf connection).all (fun id => e.isUsed id.fcgiId) = false then
      throw (.logicError ("A completed and unreleased request was not present in the " ++
        "appropriate IdManager instance in a call to TestFcgiClientInterface::ReleaseId."))
    releaseLoop connection (s.completedOf connection)
  else
    if s.completedOf connection = [] then
      throw (.logicError ("In a call to TestFcgiClientInterface::ReleaseId(int), a " ++
        "disconnected socket descriptor was found for which no completed-but-unreleased " ++
        "requests were present."))
    modify (·.eraseConnection connection)

/-- `ReleaseId(int)`. -/
def releaseIds (connection : Nat) : Operation Bool := do
  match (← get).connectionMap[connection]? with
  | none => return false
  | some e =>
      releaseElement connection e
      modify fun s =>
        { s with
          completedRequestSet := s.completedRequestSet.filter fun id => id.descriptor ≠ connection }
      return true

end AsComponents.Client
