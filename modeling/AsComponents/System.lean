import AsComponents.Critical
import AsComponents.Partition
import AsComponents.RequestData
import AsComponents.SocketFunctions

/-!
# The state of a server

The interface object, the `FcgiRequest` objects of the application and the part
of the operating system they use.  Fields below a line that says so are read by
no function of the program: they record what happened.
-/

namespace AsComponents.Server

open Protocol NameValue SocketFunctions AsComponents.Partition Std

/-! ## Exceptions -/

inductive Failure
  | runtimeError (what : String)
  | logicError (what : String)
  | systemError (e : Errno) (what : String)
  | badAlloc
  /-- The process does not go on; see `Halt`. -/
  | halted
  deriving DecidableEq, Repr

/-- Why the process stopped: `std::terminate`, or an action whose behaviour is
undefined. -/
inductive Halt
  | terminated
  /-- An iterator was compared or dereferenced after its element was erased. -/
  | danglingIterator
  /-- A pointer to request data, a write mutex or an element of a vector was
  used when the object was gone. -/
  | danglingPointer
  /-- A write on a descriptor that no longer names the connection. -/
  | strayDescriptor
  deriving DecidableEq, Repr

/-! ## Components -/

/-- An iterator over `request_map_` other than `end()`: the key of its element
and the node that holds it. -/
structure Iterator where
  key : FcgiRequestIdentifier
  node : Nat
  deriving DecidableEq, Repr

/-- `FcgiServerInterface::RecordStatus`: how much of a record was received.
`header` holds the valid prefix of `header_`. -/
structure RecordStatus where
  header : Bytes := []
  bytesReceived : Nat := 0
  contentBytesExpected : Nat := 0
  paddingBytesExpected : Nat := 0
  type : FcgiType := 0
  requestId : FcgiRequestIdentifier := ⟨0, 0⟩
  invalidatedByHeader : Bool := false
  localRecordContentBuffer : Bytes := []
  deriving DecidableEq, Repr

/-- An element of `write_mutex_map_`.  `owner` is the request object whose
thread holds the mutex over several steps; `socket` is the connection, which
also tells one mutex from a later one with the same key. -/
structure WriteMutex where
  owner : Option Nat := none
  corrupt : Bool := false
  socket : Nat
  deriving DecidableEq, Repr

/-- A descriptor of the interface: the connection it was accepted for, and
whether `dup2` has made it refer to the listening socket. -/
structure Descriptor where
  socket : Nat
  redirected : Bool := false
  deriving DecidableEq, Repr

/-- Where the thread of a request object stands between two of its steps. -/
inductive Call
  | idle
  /-- In the loop of `WriteHelper`, holding no mutex. -/
  | looping (rest : Bytes) (type : FcgiType)
  /-- In the write loop of `ScatterGatherWriteHelper`, holding the write mutex;
  `working` of the `total` bytes of the batch remain. -/
  | writing (rest : Bytes) (type : FcgiType) (iovec : List Bytes) (working total : Nat)
  /-- The write failed and the write mutex was released;
  `TryToAddToApplicationClosureRequestSet` comes next. -/
  | failing (forceInsert : Bool) (failure : Option Failure)
  deriving DecidableEq, Repr

/-- An `FcgiRequest` object; the default value is the null object.  `node` is
the node `request_data_ptr_` points into and `socket` names the mutex of
`write_mutex_ptr_`. -/
structure FcgiRequest where
  associatedInterfaceId : Nat := 0
  requestIdentifier : FcgiRequestIdentifier := ⟨0, 0⟩
  node : Nat := 0
  socket : Nat := 0
  environmentMap : ParamsMap := ∅
  requestStdinContent : Bytes := []
  requestDataContent : Bytes := []
  role : UInt16 := 0
  closeConnection : Bool := false
  wasAborted : Bool := false
  completed : Bool := false
  call : Call := .idle
  /-- The object is in a vector of the interface thread. -/
  held : Bool := false

/-- One batch offered to a socket, for a request or, without `origin`, for a
management record, and how many of its bytes the system accepted. -/
structure Transmission where
  origin : Option Nat
  bytes : Bytes
  accepted : Nat := 0
  deriving DecidableEq, Repr

inductive Event
  /-- A begin record that named no request of the map was processed. -/
  | begun (node socket : Nat) (fcgiId : UInt16) (accepted : Bool)
  | constructed (node : Nat)
  /-- The constructor of `FcgiRequest` found that the request was assigned. -/
  | alreadyAssigned (node : Nat)
  /-- The interface decided to end the request itself. -/
  | endedByInterface (node : Nat)
  /-- A call of `Complete` or `RejectRole` returned true. -/
  | completed (node : Nat) (appStatus : Int32) (protocolStatus : UInt8)
  /-- A call of `RemoveRequest` made by a request object with data in `node`,
  the node it found and whether it returned normally. -/
  | removed (node : Nat) (found : Option Nat) (returned : Bool)
  | registered (descriptor socket : Nat)
  /-- A call of `close`, the connection the descriptor was registered for, and
  whether an assigned request of the descriptor was in `request_map_`. -/
  | closed (descriptor : Nat) (socket : Option Nat) (assigned destroying : Bool)
  deriving DecidableEq, Repr

/-! ## The whole state -/

structure System where
  -- the interface object
  appStatusOnAbort : Int32 := exitFailure
  maximumConnectionCount : Nat := 1
  maximumRequestCountPerConnection : Nat := 1
  applicationOverload : Bool := false
  recordStatusMap : ExtTreeMap Nat RecordStatus := ∅
  dummyDescriptorSet : ExtTreeSet Nat := ∅
  requestBufferOnThrow : List Nat := []
  writeMutexMap : ExtTreeMap Nat WriteMutex := ∅
  interfaceIdentifier : Nat := 1
  applicationClosureRequestSet : ExtTreeSet Nat := ∅
  requestCountMap : ExtTreeMap Nat Nat := ∅
  requestMap : ExtTreeMap FcgiRequestIdentifier RequestData := ∅
  badInterfaceStateDetected : Bool := false
  -- `local_request_iter` of the call of `ReadRecords` in progress
  localRequestIter : Option Iterator := none
  -- the request objects, in the order of their construction
  requests : Nat → FcgiRequest := fun _ => {}
  nextRequest : Nat := 0
  -- the operating system
  limits : SystemLimits := {}
  pipeCapacity : Nat := 65536
  selfPipe : Nat := 0
  descriptors : ExtTreeMap Nat Descriptor := ∅
  sockets : Nat → Socket := fun _ => {}
  nextSocket : Nat := 0
  halt : Option Halt := none
  -- not read by the program
  nextNode : Nat := 0
  transmissions : Nat → List Transmission := fun _ => []
  log : List Event := []

namespace System

/-- The iterator `request_map_.find(request_id)`; `none` is `end()`. -/
def find (s : System) (id : FcgiRequestIdentifier) : Option Iterator :=
  s.requestMap[id]?.map fun d => ⟨id, d.node⟩

/-- The element an iterator points to, as long as it is in the map. -/
def lookup (s : System) (it : Iterator) : Option RequestData :=
  (s.requestMap[it.key]?).filter fun d => d.node = it.node

/-- The elements of `request_map_` for a connection. -/
def requestsOf (s : System) (connection : Nat) : List FcgiRequestIdentifier :=
  s.requestMap.keys.filter fun id => id.descriptor = connection

/-- The thread that holds the write mutex of a connection. -/
def owner (s : System) (connection : Nat) : Option Nat :=
  s.writeMutexMap[connection]?.bind (·.owner)

def assigned (s : System) (connection : Nat) : Bool :=
  (s.requestsOf connection).any fun id =>
    match s.requestMap[id]? with
    | some d => d.requestStatus = .requestAssigned
    | none => false

/-- An object that is neither null nor completed and belongs to the present
interface. -/
def Live (s : System) (i : Nat) : Prop :=
  (s.requests i).associatedInterfaceId = s.interfaceIdentifier ∧ s.interfaceIdentifier ≠ 0 ∧
    (s.requests i).completed = false

def setRequest (s : System) (i : Nat) (o : FcgiRequest) : System :=
  { s with requests := Function.update s.requests i o }

def setData (s : System) (id : FcgiRequestIdentifier) (d : RequestData) : System :=
  { s with requestMap := s.requestMap.insert id d }

def setWriteMutex (s : System) (connection : Nat) (m : WriteMutex) : System :=
  { s with writeMutexMap := s.writeMutexMap.insert connection m }

def setSocket (s : System) (k : Nat) (socket : Socket) : System :=
  { s with sockets := Function.update s.sockets k socket }

def setTransmissions (s : System) (k : Nat) (ts : List Transmission) : System :=
  { s with transmissions := Function.update s.transmissions k ts }

def record (s : System) (e : Event) : System := { s with log := e :: s.log }

end System

/-! ## Replies of the environment -/

inductive PipeRead
  | drained
  | endOfFile
  | failed (e : Errno)
  deriving DecidableEq, Repr

/-- What one call of `SocketRead` with a buffer of 512 bytes gave. -/
inductive ReadResult
  /-- The buffer was filled. -/
  | filled (bytes : Bytes)
  /-- Fewer bytes, then `EAGAIN`. -/
  | drained (bytes : Bytes)
  /-- The end of the stream (`errno` zero) or an error. -/
  | failed (e : Errno)
  deriving DecidableEq, Repr

inductive AcceptResult
  /-- A connection; `valid` is the outcome of the checks of its type, domain
  and address. -/
  | accepted (descriptor : Nat) (valid : Bool)
  | failed (e : Errno)
  deriving DecidableEq, Repr

/-- What `select` found: the connections that are ready, with the results of the
reads that follow, the number of other ready descriptors, and the results of
the calls of `accept` up to the one that would block. -/
inductive SelectResult
  | ready (connections : List (Nat × List ReadResult)) (others : Nat) (accepts : List AcceptResult)
  | failed (e : Errno)
  deriving DecidableEq, Repr

/-- Everything a section may ask of its environment.  Allocations are told
apart by a number of the section's own. -/
structure SystemReply where
  tape : List IoResult := []
  allocationFails : Nat → Bool := fun _ => false
  closeFails : Nat → Option Errno := fun _ => none
  dup2Fails : Nat → Option Errno := fun _ => none
  pipeRead : PipeRead := .drained
  select : SelectResult := .ready [] 0 []

/-! ## Sections -/

abbrev Section := Critical System Failure

def halt {α : Type} (h : Halt) : Section α := do
  modify fun s => { s with halt := some h }
  throw .halted

def goBad : Section Unit :=
  modify fun s => { s with badInterfaceStateDetected := true }

def note (e : Event) : Section Unit := modify (·.record e)

/-- The `InterfaceCheck` of the functions of the interface thread. -/
def interfaceCheck (what : String) : Section Unit := do
  if (← get).badInterfaceStateDetected then throw (.runtimeError what)

/-- Access through an iterator. -/
def deref (it : Iterator) : Section RequestData := do
  match (← get).lookup it with
  | some d => return d
  | none => halt .danglingIterator

/-- An allocation made without a mutex, or the first one of a section. -/
def allocate (reply : SystemReply) (k : Nat) : Section Unit := do
  if reply.allocationFails k then throw .badAlloc

end AsComponents.Server
