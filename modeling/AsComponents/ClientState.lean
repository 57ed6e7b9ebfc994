import AsComponents.Critical
import AsComponents.IdManager
import AsComponents.NameValue
import AsComponents.Partition
import AsComponents.SocketFunctions

/-!
# The state of a client

The object `TestFcgiClientInterface` (`test_fcgi_client_interface.h`) and the
sockets it writes to.
-/

namespace AsComponents.Client

open Protocol NameValue SocketFunctions AsComponents.Partition Std

/-! ## Exceptions -/

inductive Failure
  | runtimeError (what : String)
  | logicError (what : String)
  | lengthError (what : String)
  | systemError (e : Errno) (what : String)
  | badAlloc
  /-- The process does not go on; see `Halt`. -/
  | halted
  deriving DecidableEq, Repr

/-- The exceptions of the functions that build data to be sent or stored. -/
inductive Fault
  | systemError (e : Errno) (what : String)
  | badAlloc
  deriving DecidableEq, Repr

def Fault.failure : Fault → Failure
  | systemError e what => .systemError e what
  | badAlloc => .badAlloc

/-- Why the process stopped: `std::terminate`, or the use of an iterator, a
reference or an index that refers to no element. -/
inductive Halt
  | terminated
  | danglingIterator
  deriving DecidableEq, Repr

/-! ## Requests and events -/

/-- `FcgiRequestDataReference`, with the data it points to; a null
`params_map_ptr` is `none`. -/
structure FcgiRequestDataReference where
  role : UInt16
  keepConn : Bool
  paramsMap : Option ParamsMap := none
  stdin : Bytes := []
  data : Bytes := []

structure ManagementRequestData where
  type : FcgiType := 0
  paramsMap : ParamsMap := ∅
  data : Bytes := []

/-- The classes derived from `ServerEvent`. -/
inductive ServerEvent
  | connectionClosure (connection : Nat)
  | fcgiResponse (appStatus : Int32) (fcgiStderr fcgiStdout : Bytes) (protocolStatus : UInt8)
      (request : FcgiRequestDataReference) (requestId : FcgiRequestIdentifier)
  | getValuesResult (corruptResponse : Bool) (requestId : FcgiRequestIdentifier)
      (request response : ParamsMap)
  | invalidRecord (version : UInt8) (type : FcgiType) (requestId : FcgiRequestIdentifier)
      (content : Bytes) (paddingLength : Nat)
  | unknownType (requestId : FcgiRequestIdentifier) (type : FcgiType)
      (request : ManagementRequestData)

/-! ## Components -/

/-- `RecordState`; `header` holds the bytes of the header that were received. -/
structure RecordState where
  invalidated : Bool := false
  header : Bytes := []
  type : FcgiType := 0
  fcgiId : UInt16 := 0
  contentBytesExpected : Nat := 0
  contentBytesReceived : Nat := 0
  paddingBytesExpected : Nat := 0
  paddingBytesReceived : Nat := 0
  localBuffer : Bytes := []
  deriving DecidableEq, Repr

structure ConnectionState where
  connected : Bool := false
  recordState : RecordState := {}
  managementQueue : List ManagementRequestData := []
  idManager : IdManager IdManager.uint16 := {}

/-- `ConnectionState::id_manager::IsUsed`. -/
def ConnectionState.isUsed (e : ConnectionState) (fcgiId : UInt16) : Bool :=
  e.idManager.isUsed fcgiId.toNat

/-- An element of `pending_request_map_`. -/
structure RequestData where
  request : FcgiRequestDataReference
  fcgiStderr : Bytes := []
  stderrCompleted : Bool := false
  fcgiStdout : Bytes := []
  stdoutCompleted : Bool := false

/-- An iterator over `connection_map_`; `erased` refers to an element that is no
longer in the map. -/
inductive ConnectionIterator
  | pastTheEnd
  | entry (connection : Nat)
  | erased
  deriving DecidableEq, Repr

/-! ## The whole state -/

structure TestFcgiClientInterface where
  completedRequestSet : ExtTreeSet FcgiRequestIdentifier := ∅
  connectionMap : ExtTreeMap Nat ConnectionState := ∅
  pendingRequestMap : ExtTreeMap FcgiRequestIdentifier RequestData := ∅
  microEventQueue : List ServerEvent := []
  numberConnected : Int := 0
  remainingReady : Int := 0
  nextConnection : ConnectionIterator := .pastTheEnd
  selectSet : ExtTreeSet Nat := ∅
  -- the system
  limits : SystemLimits := {}
  sockets : Nat → Socket := fun _ => {}
  halt : Option Halt := none

namespace TestFcgiClientInterface

/-- The elements of `completed_request_set_` for a connection. -/
def completedOf (s : TestFcgiClientInterface) (connection : Nat) : List FcgiRequestIdentifier :=
  s.completedRequestSet.toList.filter fun id => id.descriptor = connection

/-- The keys of `pending_request_map_` for a connection. -/
def pendingOf (s : TestFcgiClientInterface) (connection : Nat) : List FcgiRequestIdentifier :=
  s.pendingRequestMap.keys.filter fun id => id.descriptor = connection

/-- `IsConnected`. -/
def isConnected (s : TestFcgiClientInterface) (connection : Nat) : Bool :=
  match s.connectionMap[connection]? with
  | some e => e.connected
  | none => false

/-- A connected descriptor that is set in `select_set_`. -/
def isReady (s : TestFcgiClientInterface) (connection : Nat) : Bool :=
  s.isConnected connection && s.selectSet.contains connection

def find (s : TestFcgiClientInterface) (id : FcgiRequestIdentifier) : Option FcgiRequestIdentifier :=
  if id ∈ s.pendingRequestMap then some id else none

/-- The iterator after one that refers to `connection`. -/
def after (s : TestFcgiClientInterface) (connection : Nat) : ConnectionIterator :=
  match s.connectionMap.keys.find? (connection < ·) with
  | some k => .entry k
  | none => .pastTheEnd

def setConnection (s : TestFcgiClientInterface) (connection : Nat) (e : ConnectionState) :
    TestFcgiClientInterface :=
  { s with connectionMap := s.connectionMap.insert connection e }

def setPending (s : TestFcgiClientInterface) (id : FcgiRequestIdentifier) (d : RequestData) :
    TestFcgiClientInterface :=
  { s with pendingRequestMap := s.pendingRequestMap.insert id d }

/-- `connection_map_.erase`, with what it does to the saved iterator. -/
def eraseConnection (s : TestFcgiClientInterface) (connection : Nat) : TestFcgiClientInterface :=
  { s with
    connectionMap := s.connectionMap.erase connection
    nextConnection :=
      if s.nextConnection = .entry connection then .erased else s.nextConnection }

def pushEvent (s : TestFcgiClientInterface) (e : ServerEvent) : TestFcgiClientInterface :=
  { s with microEventQueue := s.microEventQueue ++ [e] }

def setSocket (s : TestFcgiClientInterface) (connection : Nat) (socket : Socket) :
    TestFcgiClientInterface :=
  { s with sockets := Function.update s.sockets connection socket }

theorem getElem?_setConnection (s : TestFcgiClientInterface) (connection k : Nat)
    (e : ConnectionState) : (s.setConnection connection e).connectionMap[k]? =
      if k = connection then some e else s.connectionMap[k]? := by
  simp only [setConnection, ExtTreeMap.getElem?_insert, Nat.compare_eq_eq, eq_comm (a := k)]

theorem getElem?_setPending (s : TestFcgiClientInterface) (id i : FcgiRequestIdentifier)
    (d : RequestData) : (s.setPending id d).pendingRequestMap[i]? =
      if i = id then some d else s.pendingRequestMap[i]? := by
  simp only [setPending]
  grind

theorem getElem?_eraseConnection (s : TestFcgiClientInterface) (connection k : Nat) :
    (s.eraseConnection connection).connectionMap[k]? =
      if k = connection then none else s.connectionMap[k]? := by
  simp only [eraseConnection, ExtTreeMap.getElem?_erase, Nat.compare_eq_eq, eq_comm (a := k)]

end TestFcgiClientInterface

/-! ## Replies of the environment -/

/-- What one call of `SocketRead` with a buffer of 512 bytes gave: a full
buffer, or fewer bytes and the value of `errno` (zero at the end of the
stream). -/
inductive ReadReturn
  | filled (bytes : Bytes)
  | short (bytes : Bytes) (e : Errno)
  deriving DecidableEq, Repr

inductive SelectReturn
  | ready (connections : List Nat)
  | failed (e : Errno)
  deriving DecidableEq, Repr

/-- A round of the loop of `RetrieveServerEvent`: the result of `select`, if it
is called, and of the reads of the connection found ready. -/
structure Round where
  select : SelectReturn := .ready []
  reads : List ReadReturn := []
  deriving DecidableEq, Repr

/-- One batch of a send: an exception of the function that builds it, or the
results of the system calls that write it. -/
structure Batch where
  fault : Option Fault := none
  tape : List IoResult := []
  deriving DecidableEq, Repr

/-- What the attempt of `Connect` to get a connected socket came to. -/
inductive ConnectReturn
  /-- The address is not usable, or nobody accepts the connection there. -/
  | refused
  /-- A system call failed; its name. -/
  | failed (e : Errno) (what : String)
  | connected (descriptor : Nat)
  deriving DecidableEq, Repr

/-- Everything an operation may ask of its environment.  `erasedKey` is what is
found when the key of an erased element of `connection_map_` is read, and
`pastTheEndEmpty` when the size of a vector is read through the past-the-end
iterator of `pending_request_map_`, unless that access stops the process. -/
structure SystemReply where
  connect : ConnectReturn := .refused
  batches : List Batch := []
  rounds : List Round := []
  closeFails : Nat → Option Errno := fun _ => none
  insertionFails : Option Fault := none
  erasedKey : Nat := 0
  pastTheEndEmpty : Option Bool := some true

/-! ## Operations -/

abbrev Operation := Critical TestFcgiClientInterface Failure

def halt {α : Type} (h : Halt) : Operation α := do
  modify fun s => { s with halt := some h }
  throw .halted

/-- A block that terminates the program when it throws. -/
def noexceptBlock {α : Type} (x : Operation α) : Operation α :=
  tryCatch x fun e => if e = .halted then throw .halted else halt .terminated

/-- Access to an element of `connection_map_`. -/
def connectionState (connection : Nat) : Operation ConnectionState := do
  match (← get).connectionMap[connection]? with
  | some e => return e
  | none => halt .danglingIterator

/-- Access through an iterator over `pending_request_map_`; `none` is `end()`. -/
def requestData (it : Option FcgiRequestIdentifier) :
    Operation (FcgiRequestIdentifier × RequestData) := do
  match it with
  | none => halt .danglingIterator
  | some id =>
      match (← get).pendingRequestMap[id]? with
      | some d => return (id, d)
      | none => halt .danglingIterator

def setRecordState (connection : Nat) (r : RecordState) : Operation Unit := do
  let e ← connectionState connection
  modify (·.setConnection connection { e with recordState := r })

def insertionSucceeds (reply : SystemReply) : Operation Unit := do
  match reply.insertionFails with
  | some f => throw f.failure
  | none => return

end AsComponents.Client
