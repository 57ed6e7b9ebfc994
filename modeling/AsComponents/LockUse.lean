import AsComponents.Locking

/-!
# The mutexes of the server

Every function of `FcgiRequest`, `RecordStatus` and `FcgiServerInterface` that
locks a mutex, with all its paths (`fcgi_request.cc`, `record_status.cc`,
`fcgi_server_interface.cc`).  What the source decides by other data is a
`decision`; what it does besides and may throw is an `attempt`.
-/

namespace AsComponents.LockUse

/-- `interface_state_mutex_` and the mutexes of `write_mutex_map_`. -/
inductive Mutex
  | interface
  | write (socket : Nat)
  deriving DecidableEq, Repr

/-- Which lock objects of a scope own their mutex. -/
structure Locks where
  interfaceStateLock : Bool := false
  writeLock : Bool := false
  deriving DecidableEq

/-- The code of a function with the lock objects of its scope; the result is
`none` when it throws. -/
def Code (α : Type) : Type := Locks → Locking Mutex (Option α × Locks)

namespace Code

variable {α β : Type}

instance : Monad Code where
  pure a := fun l => .ret (some a, l)
  bind p g := fun l => Locking.bind (p l) fun r =>
    match r with
    | (some a, l') => g a l'
    | (none, l') => .ret (none, l')

def throw : Code α := fun l => .ret (none, l)

def tryCatch (p handler : Code α) : Code α := fun l => Locking.bind (p l) fun r =>
  match r with
  | (some a, l') => .ret (some a, l')
  | (none, l') => handler l'

/-- `std::terminate`. -/
def terminate : Code α := fun _ => .stop

def decision : Code Bool := fun l => .choose fun n => .ret (some (decide (n = 0)), l)

def attempt : Code Unit := fun l => .choose fun n => .ret (if n = 0 then some () else none, l)

/-- The write mutex of some connection. -/
def someMutex : Code Nat := fun l => .choose fun n => .ret (some n, l)

/-- `lock` throws when the mutex cannot be locked. -/
def lockInterface : Code Unit := fun l => .choose fun n =>
  if n = 0 then .acquire .interface (.ret (some (), { l with interfaceStateLock := true }))
  else .ret (none, l)

def unlockInterface : Code Unit := fun l =>
  .release .interface (.ret (some (), { l with interfaceStateLock := false }))

/-- `owns_lock` of the lock on the interface mutex. -/
def ownsInterface : Code Bool := fun l => .ret (some l.interfaceStateLock, l)

def lockWrite (w : Nat) : Code Unit := fun l => .choose fun n =>
  if n = 0 then .acquire (.write w) (.ret (some (), { l with writeLock := true }))
  else .ret (none, l)

def tryLockWrite (w : Nat) : Code Bool := fun l =>
  .tryAcquire (.write w) fun b => .ret (some b, { l with writeLock := b })

def unlockWrite (w : Nat) : Code Unit := fun l =>
  .release (.write w) (.ret (some (), { l with writeLock := false }))

/-- The end of a scope: its lock objects are destroyed, the later one first. -/
def unwind (w : Nat) (l : Locks) (k : Locking Mutex α) : Locking Mutex α :=
  let interface := if l.interfaceStateLock then .release .interface k else k
  if l.writeLock then .release (.write w) interface else interface

/-- A scope with lock objects of its own; `w` is the mutex of the write lock. -/
def block (w : Nat) (p : Code α) : Code α := fun l =>
  Locking.bind (p {}) fun r => unwind w r.2 (.ret (r.1, l))

/-- At most `n` rounds of a loop, which ends with the first result. -/
def rounds (body : Code (Option α)) : Nat → Code α
  | 0 => fun _ => .stop
  | n + 1 => do
      match ← body with
      | some a => return a
      | none => rounds body n

/-- A loop; how many rounds it may take is chosen when it starts. -/
def loop (body : Code (Option α)) : Code α := fun l => .choose fun n => rounds body n l

/-- A loop over a container. -/
def repeatedly (body : Code Unit) : Code Unit :=
  loop do
    if ← decision then
      return some ()
    else
      body
      return none

end Code

open Code

def lockOrTerminate : Code Unit := tryCatch lockInterface terminate

/-- Rethrow after a part of the work was done in a handler. -/
def rethrowAfter {α : Type} (p : Code Unit) : Code α := do
  p
  throw

/-! ## FcgiRequest

`w` is the write mutex of the request. -/

/-- `InterfacePipeWrite` in a handler. -/
def pipeWriteOrTerminate : Code Unit := tryCatch attempt terminate

/-- `RemoveRequest` with the handler that wakes the interface up. -/
def removeRequestOrWake : Code Unit := tryCatch attempt (rethrowAfter pipeWriteOrTerminate)

/-- The statement `std::lock_guard<std::mutex> {*write_mutex_ptr_};`, whose
temporary object is gone when the statement ends. -/
def synchroniseOnWriteMutex (w : Nat) : Code Unit := block w (lockWrite w)

/-- The insertion into `application_closure_request_set_` and the write to the
self-pipe. -/
def requestClosure : Code Unit := do
  attempt
  attempt

/-- `~FcgiRequest`; `live` when the object is neither null nor completed. -/
def destroyRequest (live : Bool) (w : Nat) : Code Unit :=
  if live then
    block w do
      lockOrTerminate
      if ← decision then
        tryCatch
          (do
            if ← decision then
              synchroniseOnWriteMutex w
              requestClosure
            attempt)
          pipeWriteOrTerminate
  else
    return

def abortStatus (w : Nat) : Code Bool := do
  if ← decision then
    return (← decision)
  else
    block w do
      lockInterface
      if ← decision then
        throw
      else if ← decision then
        removeRequestOrWake
        return true
      else
        return (← decision)

/-- `InterfaceStateCheckForWritingUponMutexAcquisition`. -/
def interfaceStateCheck : Code Bool := do
  if ← decision then
    return false
  else if ← decision then
    removeRequestOrWake
    return false
  else
    return true

/-- The part of `TryToAddToApplicationClosureRequestSet` with its own handler. -/
def giveUpOrWake (w : Nat) (forceInsert : Bool) : Code Bool :=
  tryCatch
    (do
      attempt
      if forceInsert || (← decision) then
        lockWrite w
        requestClosure
        unlockWrite w
      if ← ownsInterface then
        unlockInterface
      return true)
    (rethrowAfter pipeWriteOrTerminate)

/-- The lambda `TryToAddToApplicationClosureRequestSet`; it works on the lock
objects of `ScatterGatherWriteHelper`. -/
def tryToAddToClosureSet (w : Nat) (interfaceMutexHeld forceInsert : Bool) : Code Bool := do
  if interfaceMutexHeld then
    giveUpOrWake w forceInsert
  else
    lockOrTerminate
    if ← interfaceStateCheck then
      giveUpOrWake w forceInsert
    else
      unlockInterface
      return false

/-- A round of the write loop of `ScatterGatherWriteHelper`; `none` when the
loop goes on. -/
def writeRound (w : Nat) (interfaceMutexHeld : Bool) : Code (Option Bool) := do
  if ← decision then
    -- all data was written
    unlockWrite w
    return some true
  else if ← decision then
    -- the write would block; the loop over `select` takes no mutex
    if ← decision then
      return none
    else
      unlockWrite w
      discard (tryToAddToClosureSet w interfaceMutexHeld true)
      if ← decision then
        throw
      else
        return some false
  else if ← decision then
    -- the peer closed the connection
    unlockWrite w
    discard (tryToAddToClosureSet w interfaceMutexHeld false)
    return some false
  else
    unlockWrite w
    discard (tryToAddToClosureSet w interfaceMutexHeld true)
    throw

/-- `ScatterGatherWriteHelper` from the acquisition of the write mutex on. -/
def writeUnderMutex (w : Nat) (interfaceMutexHeld : Bool) : Code Bool := do
  lockWrite w
  if ← decision then
    -- the connection is corrupt
    attempt
    return false
  else
    if ← ownsInterface then
      unlockInterface
    loop (writeRound w interfaceMutexHeld)

def scatterGatherWriteHelper (w : Nat) (interfaceMutexHeld : Bool) : Code Bool :=
  block w do
    if interfaceMutexHeld then
      writeUnderMutex w interfaceMutexHeld
    else
      lockInterface
      if ← interfaceStateCheck then
        writeUnderMutex w interfaceMutexHeld
      else
        return false

/-- `WriteHelper`, the common part of `Write` and `WriteError`. -/
def writeHelper (w : Nat) : Code Bool := do
  if ← decision then
    return false
  else
    loop do
      if ← decision then
        -- no bytes are left
        return some true
      else
        attempt
        if ← scatterGatherWriteHelper w false then
          return none
        else
          return some false

/-- `EndRequestHelper`, the common part of `Complete` and `RejectRole`. -/
def endRequestHelper (w : Nat) : Code Bool := do
  if ← decision then
    return false
  else
    block w do
      lockInterface
      if ← interfaceStateCheck then
        if ← scatterGatherWriteHelper w true then
          removeRequestOrWake
          if ← decision then
            tryCatch
              (do
                synchroniseOnWriteMutex w
                requestClosure)
              (rethrowAfter pipeWriteOrTerminate)
          return true
        else
          return false
      else
        return false

/-! ## Sending and receiving

`w` is the write mutex of the connection. -/

/-- `SendRecord`. -/
def sendRecord (w : Nat) : Code Bool := do
  -- the check of `count`
  attempt
  block w do
    if ← decision then
      -- the connection is missing from `write_mutex_map_`
      lockOrTerminate
      throw
    else
      lockWrite w
      if ← decision then
        -- the connection is corrupt
        return false
      else if ← decision then
        return true
      else
        unlockWrite w
        lockOrTerminate
        lockWrite w
        attempt
        unlockWrite w
        if ← decision then
          return false
        else
          throw

/-- `SendFcgiEndRequest`, `SendFcgiUnknownType` and `SendGetValuesResult`. -/
def sendInterfaceRecord (w : Nat) : Code Bool := do
  attempt
  sendRecord w

/-- The insertion of the connection into `application_closure_request_set_`
under the interface mutex, after `InterfaceCheck`. -/
def scheduleClosure (w : Nat) : Code Unit :=
  block w do
    lockOrTerminate
    attempt
    attempt

def schedulingClosureOnThrow {α : Type} (w : Nat) (p : Code α) : Code α :=
  tryCatch p (rethrowAfter (scheduleClosure w))

/-- A section under the interface mutex whose lock may throw. -/
def underInterfaceMutex (w : Nat) (p : Code Unit) : Code Unit :=
  block w do
    lockInterface
    p

/-- The end of a stream in `ProcessCompleteRecord`: whether the request is to be
ended because of malformed parameters. -/
def completeStream (w : Nat) : Code Bool :=
  block w do
    lockInterface
    attempt
    unlockInterface
    attempt
    if ← decision then
      lockInterface
      attempt
      return true
    else
      return false

def processCompleteRecord (w : Nat) : Code Unit :=
  schedulingClosureOnThrow w do
    if ← decision then
      -- a management record
      discard (sendInterfaceRecord w)
    else if ← decision then
      -- invalidated by its header
      return
    else if ← decision then
      -- `FCGI_BEGIN_REQUEST`
      underInterfaceMutex w attempt
      if ← decision then
        discard (sendInterfaceRecord w)
      else
        underInterfaceMutex w attempt
    else if ← decision then
      -- `FCGI_ABORT_REQUEST`
      underInterfaceMutex w attempt
      if ← decision then
        discard (sendInterfaceRecord w)
    else if ← decision then
      -- the end of a stream
      if ← completeStream w then
        discard (sendInterfaceRecord w)
    else
      attempt

def updateAfterHeaderCompletion (w : Nat) : Code Unit := do
  if ← decision then
    return
  else
    underInterfaceMutex w attempt

/-- A round of the loop over received bytes in `ReadRecords`. -/
def processReceivedBytes (w : Nat) : Code Unit := do
  if ← decision then
    -- the header
    if ← decision then
      schedulingClosureOnThrow w (updateAfterHeaderCompletion w)
  else if ← decision then
    -- content for the local buffer
    schedulingClosureOnThrow w attempt
  else if ← decision then
    -- content of a stream
    block w do
      lockOrTerminate
      attempt
      tryCatch attempt (rethrowAfter attempt)
  if ← decision then
    schedulingClosureOnThrow w do
      processCompleteRecord w
      attempt

def readRecords (w : Nat) : Code Unit :=
  loop do
    if ← decision then
      -- the end of the stream or an error
      scheduleClosure w
      if ← decision then
        return some ()
      else
        throw
    else
      repeatedly (processReceivedBytes w)
      if ← decision then
        return some ()
      else
        return none

/-! ## FcgiServerInterface -/

/-- The constructor of `FcgiServerInterface`. -/
def constructInterface : Code Unit := do
  attempt
  underInterfaceMutex 0 attempt

/-- The destruction of a vector of requests. -/
def destroyRequests : Code Unit :=
  repeatedly do
    destroyRequest (← decision) (← someMutex)

/-- `~FcgiServerInterface`; the members are destroyed at its end. -/
def destroyInterface : Code Unit := do
  tryCatch
    (block 0 do
      lockInterface
      repeatedly do
        let w ← someMutex
        block w do
          lockWrite w
          unlockWrite w)
    terminate
  destroyRequests

def interfaceStatus : Code Bool :=
  block 0 do
    lockInterface
    return (← decision)

/-- `RemoveConnection`. -/
def removeConnection (w : Nat) : Code Bool := do
  attempt
  let locked ← block w do
    let locked ← tryLockWrite w
    if locked then
      unlockWrite w
    return locked
  if locked then
    attempt
    if ← decision then
      terminate
    else
      return true
  else
    return false

/-- The cleanup of connections in `AcceptRequests`. -/
def cleanup : Code Unit :=
  block 0 do
    lockInterface
    -- `InterfaceCheck`, the dummy descriptors and the self-pipe
    attempt
    repeatedly do
      if ← removeConnection (← someMutex) then
        return
      else
        throw

def acceptConnection : Code Bool := do
  attempt
  if ← decision then
    return (← decision)
  else
    underInterfaceMutex 0 (tryCatch attempt (rethrowAfter (tryCatch attempt terminate)))
    return true

/-- The round of `AcceptRequests` for a connection that is ready. -/
def acceptFromConnection (w : Nat) : Code Unit := do
  readRecords w
  if ← decision then
    block w do
      lockInterface
      -- `InterfaceCheck` and the look-up of the write mutex
      attempt
      repeatedly do
        -- the constructor of `FcgiRequest`
        attempt
        tryCatch attempt do
          unlockInterface
          destroyRequest true w
          throw
        -- the object was moved from
        destroyRequest false w

/-- The handler of `AcceptRequests` when there are requests. -/
def saveRequests : Code Unit :=
  block 0 do
    lockOrTerminate
    if ← decision then
      attempt
      if ← decision then
        tryCatch attempt terminate
    throw

/-- The part of `AcceptRequests` with the handler that saves requests. -/
def acceptSelected : Code Unit :=
  tryCatch
    (do
      repeatedly do
        acceptFromConnection (← someMutex)
      loop do
        if ← acceptConnection then
          return none
        else
          return some ())
    (do
      if ← decision then
        throw
      else
        saveRequests)

def acceptRequests : Code Unit := do
  if ← decision then
    -- requests of an earlier call are returned
    return
  else
    cleanup
    if ← decision then
      -- `select` was interrupted
      return
    else if ← decision then
      -- `select` failed
      if ← decision then
        tryCatch (underInterfaceMutex 0 (return)) terminate
      throw
    else
      underInterfaceMutex 0 attempt
      tryCatch acceptSelected (rethrowAfter destroyRequests)

/-! ## Threads -/

/-- A call from outside, whose result and exception the caller takes. -/
def toplevel {α : Type} (p : Code α) : Locking Mutex Unit :=
  Locking.bind (p {}) fun _ => .ret ()

/-- The calls on request objects. -/
inductive RequestCall : Locking Mutex Unit → Prop
  | write (w : Nat) : RequestCall (toplevel (writeHelper w))
  | endRequest (w : Nat) : RequestCall (toplevel (endRequestHelper w))
  | abortStatus (w : Nat) : RequestCall (toplevel (abortStatus w))
  | destroy (live : Bool) (w : Nat) : RequestCall (toplevel (destroyRequest live w))

/-- The calls on the interface. -/
inductive InterfaceCall : Locking Mutex Unit → Prop
  | construct : InterfaceCall (toplevel constructInterface)
  | accept : InterfaceCall (toplevel acceptRequests)
  | status : InterfaceCall (toplevel interfaceStatus)
  | destroy : InterfaceCall (toplevel destroyInterface)

/-- Thread 0 uses the interface; every thread may use request objects. -/
def Calls (i : Nat) (p : Locking Mutex Unit) : Prop :=
  RequestCall p ∨ i = 0 ∧ InterfaceCall p

end AsComponents.LockUse
