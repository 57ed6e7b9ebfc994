import AsComponents.RecordStatus

/-! `FcgiRequest`'s constructor and destructor, `AcceptRequests` and the
destructor of the interface (`fcgi_request.cc`, `fcgi_server_interface.cc`). -/

namespace AsComponents.Server

open Protocol NameValue SocketFunctions AsComponents.Partition Std

/-! ## Functions of `FcgiRequest` that the interface thread uses -/

/-- `InterfacePipeWrite`: the pipe is non-blocking. -/
def interfacePipeWrite : Section Unit := do
  let s ← get
  if s.selfPipe < s.pipeCapacity then
    set { s with selfPipe := s.selfPipe + 1 }
  else
    throw (.logicError "The interface pipe could not be written to.")

/-- Wake the interface up while an exception is handled. -/
def pipeWriteOrTerminate : Section Unit :=
  tryCatch interfacePipeWrite fun _ => halt .terminated

/-- `RemoveRequest` as an `FcgiRequest` calls it, with its own identifier. -/
def removeRequest (i : Nat) : Section Unit := do
  let s ← get
  let o := s.requests i
  let found := s.find o.requestIdentifier
  tryCatch
    (do
      removeRequestHelper found
      note (.removed o.node (found.map (·.node)) true))
    fun e => do
      note (.removed o.node (found.map (·.node)) false)
      throw e

/-- Wait for the write mutex of the object and release it, as a temporary lock
guard does. -/
def synchroniseOnWriteMutex (i : Nat) : Section Unit := do
  let s ← get
  let o := s.requests i
  match s.writeMutexMap[o.requestIdentifier.descriptor]? with
  | some m =>
      if m.socket = o.socket then
        Critical.await fun s : System => s.owner o.requestIdentifier.descriptor = none
      else halt .danglingPointer
  | none => halt .danglingPointer

/-- `*request_data_ptr_`. -/
def requestData (i : Nat) : Section RequestData := do
  let s ← get
  match s.lookup ⟨(s.requests i).requestIdentifier, (s.requests i).node⟩ with
  | some d => return d
  | none => halt .danglingPointer

/-- Insertion into `application_closure_request_set_` by a request object,
followed by a write to the self-pipe. -/
def requestClosure (reply : SystemReply) (i : Nat) : Section Unit := do
  if reply.allocationFails 0 then throw .badAlloc
  modify fun s =>
    { s with applicationClosureRequestSet :=
        s.applicationClosureRequestSet.insert (s.requests i).requestIdentifier.descriptor }
  interfacePipeWrite

/-- The destructor of `FcgiRequest`; afterwards the place holds no object. -/
def destroyRequest (reply : SystemReply) (i : Nat) : Section Unit := do
  let s ← get
  let o := s.requests i
  if o.completed = false ∧ o.associatedInterfaceId ≠ 0 then
    if s.interfaceIdentifier = o.associatedInterfaceId ∧ s.badInterfaceStateDetected = false then
      tryCatch
        (do
          if o.closeConnection then
            if (← requestData i).connectionClosedByInterface = false then
              synchroniseOnWriteMutex i
              requestClosure reply i
          removeRequest i)
        fun _ => do
          goBad
          pipeWriteOrTerminate
  modify (·.setRequest i {})

/-- The constructor of `FcgiRequest` from the data at `it`. -/
def constructRequest (it : Iterator) (socket : Nat) : Section Nat := do
  let d ← deref it
  if d.requestStatus = .requestAssigned then
    goBad
    note (.alreadyAssigned it.node)
    throw (.logicError "An FcgiRequest could not be constructed.\n")
  else
    let s ← get
    set { s with
      requests := Function.update s.requests s.nextRequest
        { associatedInterfaceId := s.interfaceIdentifier
          requestIdentifier := it.key
          node := it.node
          socket := socket
          environmentMap := d.environmentMap
          requestStdinContent := d.fcgiStdin
          requestDataContent := d.fcgiData
          role := d.role
          closeConnection := d.closeConnection
          held := true }
      nextRequest := s.nextRequest + 1
      requestMap := s.requestMap.insert it.key
        { d with
          environmentMap := ∅
          fcgiStdin := []
          fcgiData := []
          requestStatus := .requestAssigned }
      log := .constructed it.node :: s.log }
    return s.nextRequest

/-! ## Cleanup -/

def acceptRequestsCheck : Section Unit :=
  interfaceCheck ("The interface was found to be corrupt in a call to " ++
    "fcgi_si::FcgiServerInterface::AcceptRequests.")

/-- The loop over `dummy_descriptor_set_`: a descriptor without requests is
closed. -/
def closeDummyDescriptors (reply : SystemReply) : List Nat → Section Unit
  | [] => return
  | c :: cs => do
      if (← get).requestsOf c = [] then
        tryCatch
          (do
            modify fun s => { s with dummyDescriptorSet := s.dummyDescriptorSet.erase c }
            if (← get).requestCountMap.contains c = false then
              throw (.logicError ("An expected connection was not present in request_count_map_ " ++
                "during connection cleanup in a call to " ++
                "fcgi_si::FcgiServerInterface::AcceptRequests."))
            modify fun s => { s with requestCountMap := s.requestCountMap.erase c }
            closeDescriptor c false
            match reply.closeFails c with
            | some e => if e ≠ .eintr then throw (.systemError e "close")
            | none => pure ())
          fun e => do
            goBad
            throw e
      closeDummyDescriptors reply cs

def clearSelfPipe (reply : SystemReply) : Section Unit := do
  match reply.pipeRead with
  | .drained => modify fun s => { s with selfPipe := 0 }
  | .endOfFile =>
      goBad
      throw (.logicError "The self-pipe of the interface was found to be closed for reading.")
  | .failed e => throw (.systemError e "read")

/-- The exception of the cleanup when `RemoveConnection` returns false. -/
def erroneouslyHeld : Failure :=
  .logicError "A connection could not be removed because a write mutex was erroneously held."

/-- The loop over `application_closure_request_set_`. -/
def removeConnections (reply : SystemReply) : List Nat → Section Unit
  | [] => return
  | c :: cs => do
      let connectionRemoved ← removeConnection reply c
      if connectionRemoved = false then throw erroneouslyHeld
      removeConnections reply cs

/-- The cleanup section of `AcceptRequests`. -/
def cleanup (reply : SystemReply) : Section Unit := do
  acceptRequestsCheck
  closeDummyDescriptors reply (← get).dummyDescriptorSet.toList
  clearSelfPipe reply
  tryCatch
    (do
      removeConnections reply (← get).applicationClosureRequestSet.toList
      modify fun s => { s with applicationClosureRequestSet := ∅ })
    fun e => do
      goBad
      throw e

/-! ## New connections -/

/-- `AcceptConnection`, after `accept` gave a descriptor: whether it was
registered.  A descriptor that is open is not given. -/
def acceptConnection (reply : SystemReply) (c : Nat) (valid : Bool) : Section Unit := do
  Critical.await fun s : System => s.descriptors.contains c = false
  let s ← get
  if s.applicationOverload = true ∨ s.maximumConnectionCount ≤ s.recordStatusMap.size ∨
      valid = false then
    -- rejected: the descriptor is closed again
    return
  else if reply.allocationFails 0 ∨ reply.allocationFails 1 ∨ reply.allocationFails 2 then
    -- the insertions already made are undone
    throw .badAlloc
  else if s.recordStatusMap.contains c ∨ s.writeMutexMap.contains c ∨
      s.requestCountMap.contains c then
    throw (.logicError "Socket descriptor emplacement failed due to duplication.")
  else
    set { s with
      recordStatusMap := s.recordStatusMap.insert c {}
      writeMutexMap := s.writeMutexMap.insert c { socket := s.nextSocket }
      requestCountMap := s.requestCountMap.insert c 0
      descriptors := s.descriptors.insert c { socket := s.nextSocket }
      nextSocket := s.nextSocket + 1
      log := .registered c s.nextSocket :: s.log }

def acceptConnections : List AcceptResult → Thread Unit
  | [] => return
  | .accepted c valid :: rest => do
      atomically fun reply => acceptConnection reply c valid
      acceptConnections rest
  | .failed e :: _ => Program.throw (.systemError e "accept")

/-! ## Accepting requests -/

/-- How the construction of request objects ended: all objects are in the
vector, an object could not be put there, or the constructor threw. -/
inductive Constructed
  | all (objects : List Nat)
  | lost (objects : List Nat) (object : Nat)
  | threw (objects : List Nat) (e : Failure)

/-- The loop over the completed requests of one connection; `objects` were put
into the vector by its earlier rounds. -/
def constructRequests (reply : SystemReply) (socket : Nat) :
    List Iterator → List Nat → Section Constructed
  | [], objects => return .all objects
  | it :: its, objects => do
      let constructed ← tryCatch (Except.ok <$> constructRequest it socket) fun e => return .error e
      match constructed with
      | .error e => return .threw objects e
      | .ok object =>
          if reply.allocationFails objects.length then
            return .lost objects object
          else
            constructRequests reply socket its (objects ++ [object])

/-- Read one connection and construct the objects of its completed requests:
the objects put into the vector, and the exception thrown when there is one. -/
def acceptFromConnection (c : Nat) (reads : List ReadResult) :
    Thread (List Nat × Option Failure) := do
  let requestIterators ← readRecords c reads
  if requestIterators = [] then
    return ([], none)
  else
    let constructed ← atomically fun reply => do
      acceptRequestsCheck
      match (← get).writeMutexMap[c]? with
      | none =>
          goBad
          throw (.logicError ("An expected write mutex and flag pair was not present in " ++
            "write_mutex_map_ in a call to fcgi_si::FcgiServerInterface::AcceptRequests."))
      | some m => constructRequests reply m.socket requestIterators []
    match constructed with
    | .all objects => return (objects, none)
    | .lost objects object => do
        -- the mutex was released for the destructor
        atomically fun reply => destroyRequest reply object
        return (objects, some .badAlloc)
    | .threw objects e => return (objects, some e)

/-- The loop over the connections that are ready: the objects of the rounds
that ended normally, those of a round that threw, with its connection and the
exception. -/
def acceptFromConnections : List (Nat × List ReadResult) → List Nat →
    Thread (List Nat × Option (List Nat × Nat × Failure))
  | [], requests => return (requests, none)
  | (c, reads) :: rest, requests => do
      let result ← Program.tryCatch (acceptFromConnection c reads) fun e => return ([], some e)
      match result with
      | (objects, none) => acceptFromConnections rest (requests ++ objects)
      | (objects, some e) => return (requests, some (objects, c, e))

/-- Destroy the objects of a vector. -/
def destroyRequests : List Nat → Thread Unit
  | [] => return
  | i :: is => do
      atomically fun reply => destroyRequest reply i
      destroyRequests is

/-- Move objects to `request_buffer_on_throw_`; what is returned could not be
moved. -/
def bufferRequests (reply : SystemReply) : Nat → List Nat → Section (List Nat)
  | _, [] => return []
  | k, i :: is => do
      if reply.allocationFails k then
        goBad
        return i :: is
      else
        modify fun s => { s with requestBufferOnThrow := s.requestBufferOnThrow ++ [i] }
        bufferRequests reply (k + 1) is

/-- The handler of `AcceptRequests`: `requests` are the objects of finished
rounds, `unfinished` those of the round for `connection` that threw `e`.  What
is not saved is destroyed with the vector. -/
def saveRequests (requests unfinished : List Nat) (connection : Nat) (e : Failure) :
    Thread (List Nat) := do
  if requests = [] ∧ unfinished = [] then
    Program.throw e
  else
    let (bad, unsaved) ← atomically fun reply => do
      if (← get).badInterfaceStateDetected then
        return (true, requests)
      else
        return (false, ← bufferRequests reply 0 requests)
    if bad = true then
      destroyRequests (unsaved ++ unfinished)
      Program.throw e
    else if unsaved ≠ [] then
      destroyRequests (unsaved ++ unfinished)
      Program.throw .badAlloc
    else
      if unfinished ≠ [] then
        -- still under the mutex of the section above
        atomicallyAs (.scheduleClosure connection) fun reply => do
          if (← get).badInterfaceStateDetected = false then
            if reply.allocationFails 0 then halt .terminated
            insertForClosure reply connection
      destroyRequests unfinished
      Program.throw e

/-- The part of `AcceptRequests` after `select` has returned. -/
def acceptSelected (connections : List (Nat × List ReadResult)) (others : Nat)
    (accepts : List AcceptResult) : Thread (List Nat) := do
  atomically fun _ => acceptRequestsCheck
  let registered ← atomically fun _ => return (← get).recordStatusMap.keys
  let selected := registered.filterMap fun c => (connections.lookup c).map fun reads => (c, reads)
  match ← acceptFromConnections selected [] with
  | (requests, some (unfinished, connection, e)) => saveRequests requests unfinished connection e
  | (requests, none) =>
      if 0 < others then
        Program.tryCatch
          (do
            acceptConnections accepts
            return requests)
          fun e => saveRequests requests [] 0 e
      else
        return requests

def acceptRequests : Thread (List Nat) := do
  let buffered ← atomically fun _ => modifyGet fun s =>
    (s.requestBufferOnThrow, { s with requestBufferOnThrow := [] })
  if buffered ≠ [] then
    return buffered
  else
    atomicallyAs .cleanup cleanup
    let selected ← atomicallyAs .select fun reply => do
      match reply.select with
      | .failed .ebadf =>
          goBad
          throw (.systemError .ebadf "select")
      | selected => return selected
    match selected with
    | .failed .eintr => return []
    | .failed e => Program.throw (.systemError e "select")
    | .ready connections others accepts => acceptSelected connections others accepts

/-! ## Destruction of the interface -/

/-- The destructor of the interface.  It waits for every write mutex while it
holds the interface mutex, so that no thread acquires one in between. -/
def destroyInterface : Section Unit := do
  Critical.await fun s : System => ∀ c ∈ s.writeMutexMap.keys, s.owner c = none
  (← get).dummyDescriptorSet.toList.forM fun c => closeDescriptor c true
  (← get).writeMutexMap.keys.forM fun c => closeDescriptor c true
  modify fun s =>
    { s with
      interfaceIdentifier := 0
      requests := fun i => if i ∈ s.requestBufferOnThrow then {} else s.requests i
      recordStatusMap := ∅
      dummyDescriptorSet := ∅
      requestBufferOnThrow := []
      writeMutexMap := ∅
      applicationClosureRequestSet := ∅
      requestCountMap := ∅
      requestMap := ∅ }

end AsComponents.Server
