import AsComponents.Run

/-!
# The moves of the threads

A section changes the state in a few ways only.  They are listed here once, with
what the code has made sure of when it makes them; every section is a sequence
of these moves, and every invariant is preserved by each of them.
-/

namespace AsComponents.Server

open Protocol NameValue SocketFunctions AsComponents.Partition Std

/-! ## Batches -/

/-- A batch of `WriteHelper`: records of one of the two output streams, none of
them empty. -/
def StreamBatch (fcgiId : UInt16) (bytes : Bytes) : Prop :=
  ∃ records : List Record, records ≠ [] ∧ encodeRecords records = bytes ∧
    ∀ r ∈ records, (r.type = kFcgiStdout ∨ r.type = kFcgiStderr) ∧ r.fcgiId = fcgiId ∧
      r.content ≠ [] ∧ r.Fits

/-- The batch of `EndRequestHelper`. -/
def conclusion (fcgiId : UInt16) (appStatus : Int32) (protocolStatus : UInt8) : Bytes :=
  encodeRecords (conclusionRecords fcgiId appStatus protocolStatus)

/-- The batch of `SendFcgiEndRequest`. -/
def loneEnd (fcgiId : UInt16) (appStatus : Int32) (protocolStatus : UInt8) : Bytes :=
  (endRequestRecord fcgiId protocolStatus appStatus).encode

namespace System

/-- The batches offered for a request on its connection. -/
def trace (s : System) (k node : Nat) : List Transmission :=
  (s.transmissions k).filter fun t => t.origin = some node

/-- A request was begun, accepted or not. -/
def Begun (s : System) (node k : Nat) (fcgiId : UInt16) : Prop :=
  ∃ accepted, Event.begun node k fcgiId accepted ∈ s.log

/-- The interface ends the request itself: it decided so, or it rejected the
begin record. -/
def EndedByInterface (s : System) (node : Nat) : Prop :=
  .endedByInterface node ∈ s.log ∨ ∃ k fcgiId, Event.begun node k fcgiId false ∈ s.log

/-- The request is the latest one of its id, has no data and nothing was written
for it: the interface is about to end it. -/
structure Ending (s : System) (connection node : Nat) (fcgiId : UInt16) : Prop where
  begun : ∃ m, s.writeMutexMap[connection]? = some m ∧ s.Begun node m.socket fcgiId ∧
    (∀ n, s.Begun n m.socket fcgiId → n ≤ node) ∧ s.trace m.socket node = []
  ended : s.EndedByInterface node
  gone : ∀ (id : FcgiRequestIdentifier) (d : RequestData), s.requestMap[id]? = some d →
    d.node ≠ node

/-! ## Updates -/

/-- Remove an element of `request_map_` and lower the count of its connection. -/
def eraseRequest (s : System) (id : FcgiRequestIdentifier) (count : Nat) : System :=
  { s with
    requestCountMap := s.requestCountMap.insert id.descriptor count
    requestMap := s.requestMap.erase id }

/-- A request object removes its request. -/
def retired (s : System) (i : Nat) (o : FcgiRequest) (count : Nat) : System :=
  ((s.eraseRequest (s.requests i).requestIdentifier count).record
    (.removed (s.requests i).node (some (s.requests i).node) true)).setRequest i o

/-- A whole batch is offered at once. -/
def offered (s : System) (connection : Nat) (m : WriteMutex) (origin : Option Nat) (bytes : Bytes)
    (socket : Socket) (accepted : Nat) (corrupt : Bool) : System :=
  ((s.setSocket m.socket socket).setTransmissions m.socket
    (s.transmissions m.socket ++ [⟨origin, bytes, accepted⟩])).setWriteMutex connection
      { m with corrupt := m.corrupt || corrupt }

end System

/-- What the code knows when it has offered a whole batch: the mutex was free
and the connection intact, and a part was accepted only if the connection does
not accept more. -/
structure Offer (s : System) (connection : Nat) (m : WriteMutex) (bytes : Bytes) (socket : Socket)
    (accepted : Nat) (corrupt : Bool) : Prop where
  mutex : s.writeMutexMap[connection]? = some m
  free : m.owner = none
  intact : m.corrupt = false
  connected : s.descriptors[connection]? = some ⟨m.socket, false⟩
  accepts : Accepted (s.sockets m.socket) socket bytes (bytes.drop accepted)
  le : accepted ≤ bytes.length
  partly : 0 < accepted → accepted < bytes.length → corrupt = true ∨ socket.broken = true

/-- A call that holds no mutex and has not failed. -/
def Call.Resting : Call → Prop
  | .idle | .looping _ _ => True
  | .writing .. | .failing .. => False

def Call.Writing : Call → Prop
  | .writing .. => True
  | _ => False

/-- A write goes to one of the two output streams, and it ends when no bytes
are left. -/
def Call.Output : Call → Prop
  | .looping rest type => rest ≠ [] ∧ (type = kFcgiStdout ∨ type = kFcgiStderr)
  | .writing _ type .. => type = kFcgiStdout ∨ type = kFcgiStderr
  | _ => True

/-! ## Moves of a request object -/

/-- The object belongs to the present interface, which is in a good state, and
has not been completed: its data is the element at `d`. -/
structure Owns (s : System) (i : Nat) (d : RequestData) : Prop where
  good : s.badInterfaceStateDetected = false
  live : s.Live i
  data : s.requestMap[(s.requests i).requestIdentifier]? = some d
  node : d.node = (s.requests i).node
  assigned : d.requestStatus = .requestAssigned

/-- What is left of an object whose request it has removed. -/
def Spent (o o' : FcgiRequest) : Prop :=
  o' = {} ∨ ∃ aborted, o' = { o with completed := true, wasAborted := aborted, call := .idle }

inductive RequestMove (i : Nat) : System → System → Prop
  /-- Only the object itself changes. -/
  | object {s : System} (completed aborted : Bool) (call : Call) (old : i < s.nextRequest)
      (resting : (s.requests i).call.Resting ∨ completed = true ∧ ¬ (s.requests i).call.Writing)
      (resting' : call.Resting)
      (idle : completed = true ∨ (s.requests i).associatedInterfaceId = 0 → call = .idle)
      (held : call ≠ .idle → (s.requests i).held = false) (output : call.Output)
      (only : completed = (s.requests i).completed ∨
        completed = true ∧ (s.badInterfaceStateDetected = true ∨ ¬ s.Live i)) :
      RequestMove i s (s.setRequest i
        { s.requests i with completed := completed, wasAborted := aborted, call := call })
  /-- An object is destroyed that does not own a request. -/
  | drop {s : System} (call : ¬ (s.requests i).call.Writing)
      (only : s.badInterfaceStateDetected = true ∨ ¬ s.Live i) :
      RequestMove i s (s.setRequest i {})
  | retire {s : System} {d : RequestData} {o : FcgiRequest} {n : Nat} (owns : Owns s i d)
      (call : ¬ (s.requests i).call.Writing) (spent : Spent (s.requests i) o)
      (count : s.requestCountMap[(s.requests i).requestIdentifier.descriptor]? = some (n + 1)) :
      RequestMove i s (s.retired i o n)
  /-- The last batch of a request is offered and the request is removed. -/
  | conclude {s : System} {d : RequestData} {o : FcgiRequest} {n : Nat} {m : WriteMutex}
      {appStatus : Int32} {protocolStatus : UInt8} {socket : Socket} {accepted : Nat}
      {corrupt : Bool} (owns : Owns s i d) (idle : (s.requests i).call = .idle)
      (spent : Spent (s.requests i) o)
      (count : s.requestCountMap[(s.requests i).requestIdentifier.descriptor]? = some (n + 1))
      (own : m.socket = (s.requests i).socket)
      (offer : Offer s (s.requests i).requestIdentifier.descriptor m
        (conclusion (s.requests i).requestIdentifier.fcgiId appStatus protocolStatus)
        socket accepted corrupt) :
      RequestMove i s ((s.offered (s.requests i).requestIdentifier.descriptor m
        (some (s.requests i).node)
        (conclusion (s.requests i).requestIdentifier.fcgiId appStatus protocolStatus)
        socket accepted corrupt).retired i o n)
  /-- A call of `Complete` or `RejectRole` returns true. -/
  | note {s : System} {node k : Nat} {fcgiId : UInt16} {appStatus : Int32}
      {protocolStatus : UInt8} {streams : List Transmission}
      (begun : Event.begun node k fcgiId true ∈ s.log)
      (gone : ∀ (id : FcgiRequestIdentifier) (d : RequestData), s.requestMap[id]? = some d →
        d.node ≠ node)
      (whole : ∀ t ∈ streams, StreamBatch fcgiId t.bytes ∧ t.accepted = t.bytes.length)
      (trace : s.trace k node = streams ++
        [⟨some node, conclusion fcgiId appStatus protocolStatus,
          (conclusion fcgiId appStatus protocolStatus).length⟩]) :
      RequestMove i s (s.record (.completed node appStatus protocolStatus))
  | schedule {s : System} {c : Nat} {m : WriteMutex} (mutex : s.writeMutexMap[c]? = some m)
      (free : m.owner = none) :
      RequestMove i s
        { s with applicationClosureRequestSet := s.applicationClosureRequestSet.insert c }
  | pipe {s : System} (n : Nat) : RequestMove i s { s with selfPipe := n }
  | bad {s : System} : RequestMove i s { s with badInterfaceStateDetected := true }
  | terminate {s : System} : RequestMove i s { s with halt := some .terminated }
  /-- The thread acquires the write mutex for a batch. -/
  | acquire {s : System} {d : RequestData} {m : WriteMutex} {rest bytes : Bytes} {type : FcgiType}
      {iovec : List Bytes} (owns : Owns s i d)
      (resting : (s.requests i).call.Resting) (unheld : (s.requests i).held = false)
      (mutex : s.writeMutexMap[(s.requests i).requestIdentifier.descriptor]? = some m)
      (own : m.socket = (s.requests i).socket) (free : m.owner = none) (intact : m.corrupt = false)
      (scheduled : (s.requests i).requestIdentifier.descriptor ∉ s.applicationClosureRequestSet)
      (flatten : iovec.flatten = bytes) (output : type = kFcgiStdout ∨ type = kFcgiStderr)
      (batch : StreamBatch (s.requests i).requestIdentifier.fcgiId bytes) :
      RequestMove i s (((s.setWriteMutex (s.requests i).requestIdentifier.descriptor
          { m with owner := some i }).setTransmissions m.socket
            (s.transmissions m.socket ++ [⟨some (s.requests i).node, bytes, 0⟩])).setRequest i
          { s.requests i with call := .writing rest type iovec bytes.length bytes.length })
  /-- A round of the write loop that does not end it. -/
  | progress {s : System} {rest : Bytes} {type : FcgiType} {iovec iovec' : List Bytes}
      {working total remaining : Nat} {socket : Socket}
      (call : (s.requests i).call = .writing rest type iovec working total)
      (accepts : Accepted (s.sockets (s.requests i).socket) socket iovec.flatten iovec'.flatten)
      (length : iovec'.flatten.length = remaining) (pos : 0 < remaining) :
      RequestMove i s (((s.setSocket (s.requests i).socket socket).setTransmissions
          (s.requests i).socket (acceptUpTo (s.transmissions (s.requests i).socket)
            (total - remaining))).setRequest i
          { s.requests i with call := .writing rest type iovec' remaining total })
  /-- The round which ends the write loop: the mutex is released. -/
  | leave {s : System} {rest : Bytes} {type : FcgiType} {iovec : List Bytes}
      {working total remaining : Nat} {m : WriteMutex} {socket : Socket} {corrupt : Bool}
      {unwritten : Bytes} {after : Call}
      (call : (s.requests i).call = .writing rest type iovec working total)
      (mutex : s.writeMutexMap[(s.requests i).requestIdentifier.descriptor]? = some m)
      (accepts : Accepted (s.sockets (s.requests i).socket) socket iovec.flatten unwritten)
      (length : unwritten.length = remaining)
      (ended : remaining = 0 ∧ after.Resting ∨ (∃ force failure, after = .failing force failure))
      (output : after.Output)
      (partly : 0 < remaining → remaining < total → corrupt = true ∨ socket.broken = true) :
      RequestMove i s ((((s.setSocket (s.requests i).socket socket).setTransmissions
          (s.requests i).socket (acceptUpTo (s.transmissions (s.requests i).socket)
            (total - remaining))).setWriteMutex (s.requests i).requestIdentifier.descriptor
          { m with owner := none, corrupt := m.corrupt || corrupt }).setRequest i
          { s.requests i with call := after })
  | moveConstruct {s : System} (idle : (s.requests i).call = .idle)
      (unheld : (s.requests i).held = false) (old : i < s.nextRequest) :
      RequestMove i s { (s.setRequest s.nextRequest (s.requests i)).setRequest i {} with
        nextRequest := s.nextRequest + 1 }
  | moveAssign {s : System} {j : Nat} (ne : i ≠ j) (idle : (s.requests i).call = .idle)
      (unheld : (s.requests i).held = false) (idle' : (s.requests j).call = .idle)
      (unheld' : (s.requests j).held = false) (old : i < s.nextRequest)
      (only : (s.requests i).completed = true ∨ (s.requests i).associatedInterfaceId = 0) :
      RequestMove i s ((s.setRequest i (s.requests j)).setRequest j {})

/-! ## Moves of the interface thread -/

/-- `loose` is the connection that may be scheduled for closure while a request
thread holds its write mutex. -/
inductive InterfaceMove (loose : Option Nat) : System → System → Prop
  /-- The destruction of an object the interface thread holds, and what the
  interface has in common with request objects. -/
  | request {s t : System} (i : Nat) (move : RequestMove i s t) : InterfaceMove loose s t
  | halt {s : System} (h : Halt) : InterfaceMove loose s { s with halt := some h }
  /-- Members and variables that only the interface thread uses. -/
  | frame {s : System} {statuses : ExtTreeMap Nat RecordStatus} {iter : Option Iterator}
      {buffer : List Nat} {overload : Bool}
      (keys : ∀ c, c ∈ statuses ↔ c ∈ s.recordStatusMap) :
      InterfaceMove loose s { s with
        recordStatusMap := statuses
        localRequestIter := iter
        requestBufferOnThrow := buffer
        applicationOverload := overload }
  | schedule {s : System} {c : Nat} (registered : c ∈ s.writeMutexMap)
      (free : s.owner c = none ∨ loose = some c) :
      InterfaceMove loose s
        { s with applicationClosureRequestSet := s.applicationClosureRequestSet.insert c }
  | beginRequest {s : System} {id : FcgiRequestIdentifier} {m : WriteMutex} {n : Nat} {role : UInt16}
      {closeConnection : Bool} (new : s.requestMap[id]? = none)
      (mutex : s.writeMutexMap[id.descriptor]? = some m)
      (count : s.requestCountMap[id.descriptor]? = some n)
      (below : n < s.maximumRequestCountPerConnection) :
      InterfaceMove loose s { s with
        requestCountMap := s.requestCountMap.insert id.descriptor (n + 1)
        requestMap := s.requestMap.insert id
          { role := role, closeConnection := closeConnection, node := s.nextNode
            socket := m.socket }
        nextNode := s.nextNode + 1
        log := .begun s.nextNode m.socket id.fcgiId true :: s.log }
  | reject {s : System} {id : FcgiRequestIdentifier} {m : WriteMutex}
      (new : s.requestMap[id]? = none) (mutex : s.writeMutexMap[id.descriptor]? = some m) :
      InterfaceMove loose s { s with
        nextNode := s.nextNode + 1
        log := .begun s.nextNode m.socket id.fcgiId false :: s.log }
  /-- The data of a request changes. -/
  | touch {s : System} {id : FcgiRequestIdentifier} {d d' : RequestData}
      (data : s.requestMap[id]? = some d) (same : d.SameRequest d')
      (complete : d.AllComplete → d'.AllComplete) :
      InterfaceMove loose s (s.setData id d')
  /-- A request that is not assigned is removed, `ended` by the interface or
  with its connection. -/
  | remove {s : System} {id : FcgiRequestIdentifier} {d : RequestData} {n : Nat} (ended : Bool)
      (data : s.requestMap[id]? = some d) (pending : d.requestStatus = .requestPending)
      (count : s.requestCountMap[id.descriptor]? = some (n + 1)) :
      InterfaceMove loose s
        { s.eraseRequest id n with
          log := if ended then .endedByInterface d.node :: s.log else s.log }
  | construct {s : System} {id : FcgiRequestIdentifier} {d : RequestData} {m : WriteMutex}
      (good : s.badInterfaceStateDetected = false) (alive : s.interfaceIdentifier ≠ 0)
      (data : s.requestMap[id]? = some d) (pending : d.requestStatus = .requestPending)
      (complete : d.AllComplete) (mutex : s.writeMutexMap[id.descriptor]? = some m) :
      InterfaceMove loose s { s with
        requests := Function.update s.requests s.nextRequest
          { associatedInterfaceId := s.interfaceIdentifier
            requestIdentifier := id
            node := d.node
            socket := m.socket
            environmentMap := d.environmentMap
            requestStdinContent := d.fcgiStdin
            requestDataContent := d.fcgiData
            role := d.role
            closeConnection := d.closeConnection
            held := true }
        nextRequest := s.nextRequest + 1
        requestMap := s.requestMap.insert id
          { d with
            environmentMap := ∅
            fcgiStdin := []
            fcgiData := []
            requestStatus := .requestAssigned }
        log := .constructed d.node :: s.log }
  /-- A record is sent that belongs to no request, or the record which ends a
  request. -/
  | send {s : System} {c : Nat} {m : WriteMutex} {origin : Option Nat} {bytes : Bytes}
      {socket : Socket} {accepted : Nat} {corrupt : Bool}
      (offer : Offer s c m bytes socket accepted corrupt)
      (record : ∃ r : Record, r.encode = bytes)
      (purpose : ∀ node, origin = some node → ∃ fcgiId appStatus protocolStatus,
        s.Ending c node fcgiId ∧ bytes = loneEnd fcgiId appStatus protocolStatus) :
      InterfaceMove loose s (s.offered c m origin bytes socket accepted corrupt)
  | closeDummy {s : System} {c : Nat} (dummy : c ∈ s.dummyDescriptorSet)
      (none : s.requestsOf c = []) :
      InterfaceMove loose s { s with
        dummyDescriptorSet := s.dummyDescriptorSet.erase c
        requestCountMap := s.requestCountMap.erase c
        descriptors := s.descriptors.erase c
        log := .closed c ((s.descriptors[c]?).map (·.socket)) false false :: s.log }
  /-- A connection without requests is closed. -/
  | closeConnection {s : System} {c : Nat} {m : WriteMutex}
      (mutex : s.writeMutexMap[c]? = some m) (free : m.owner = .none) (none : s.requestsOf c = []) :
      InterfaceMove loose s { s with
        recordStatusMap := s.recordStatusMap.erase c
        writeMutexMap := s.writeMutexMap.erase c
        requestCountMap := s.requestCountMap.erase c
        applicationClosureRequestSet := s.applicationClosureRequestSet.erase c
        descriptors := s.descriptors.erase c
        log := .closed c ((s.descriptors[c]?).map (·.socket)) false false :: s.log }
  /-- A connection with assigned requests becomes a dummy. -/
  | makeDummy {s : System} {c : Nat} {m : WriteMutex}
      {requests : ExtTreeMap FcgiRequestIdentifier RequestData}
      (mutex : s.writeMutexMap[c]? = some m) (free : m.owner = none)
      (flagged : ∀ id : FcgiRequestIdentifier, requests[id]? =
        if id.descriptor = c then
          (s.requestMap[id]?).map fun d => { d with connectionClosedByInterface := true }
        else s.requestMap[id]?)
      (assigned : ∀ (id : FcgiRequestIdentifier) (d : RequestData), s.requestMap[id]? = some d →
        id.descriptor = c → d.requestStatus = .requestAssigned) :
      InterfaceMove loose s { s with
        requestMap := requests
        dummyDescriptorSet := s.dummyDescriptorSet.insert c
        recordStatusMap := s.recordStatusMap.erase c
        writeMutexMap := s.writeMutexMap.erase c
        applicationClosureRequestSet := s.applicationClosureRequestSet.erase c
        descriptors := s.descriptors.modify c ({ · with redirected := true }) }
  /-- What an exception during the removal of a connection leaves behind. -/
  | flag {s : System} {id : FcgiRequestIdentifier} {d : RequestData}
      (bad : s.badInterfaceStateDetected = true) (data : s.requestMap[id]? = some d)
      (assigned : d.requestStatus = .requestAssigned) :
      InterfaceMove loose s (s.setData id { d with connectionClosedByInterface := true })
  | redirect {s : System} {c : Nat} {m : WriteMutex} (bad : s.badInterfaceStateDetected = true)
      (mutex : s.writeMutexMap[c]? = some m) (free : m.owner = none) :
      InterfaceMove loose s { s with
        descriptors := s.descriptors.modify c ({ · with redirected := true }) }
  | closureSet {s : System} {closure : ExtTreeSet Nat}
      (bad : s.badInterfaceStateDetected = true) :
      InterfaceMove loose s { s with applicationClosureRequestSet := closure }
  | register {s : System} {c : Nat} (alive : s.interfaceIdentifier ≠ 0)
      (closed : s.descriptors.contains c = false) :
      InterfaceMove loose s { s with
        recordStatusMap := s.recordStatusMap.insert c {}
        writeMutexMap := s.writeMutexMap.insert c { socket := s.nextSocket }
        requestCountMap := s.requestCountMap.insert c 0
        descriptors := s.descriptors.insert c { socket := s.nextSocket }
        nextSocket := s.nextSocket + 1
        log := .registered c s.nextSocket :: s.log }
  | release {s : System} (objects : List Nat) : InterfaceMove loose s (release s objects)
  /-- The destructor closes every descriptor, in the order of the list from its
  end. -/
  | destroy {s : System} {order : List Nat} {assigned : Nat → Bool} {requests : Nat → FcgiRequest}
      (free : ∀ (c : Nat) (m : WriteMutex), s.writeMutexMap[c]? = some m → m.owner = none)
      (nodup : order.Nodup) (all : ∀ c, c ∈ order ↔ c ∈ s.descriptors)
      (objects : ∀ i, requests i = s.requests i ∨ requests i = {}) :
      InterfaceMove loose s { s with
        interfaceIdentifier := 0
        requests := requests
        recordStatusMap := ∅
        dummyDescriptorSet := ∅
        requestBufferOnThrow := []
        writeMutexMap := ∅
        applicationClosureRequestSet := ∅
        requestCountMap := ∅
        requestMap := ∅
        descriptors := ∅
        log := (order.map fun c =>
          .closed c ((s.descriptors[c]?).map (·.socket)) (assigned c) true) ++ s.log }

end AsComponents.Server
