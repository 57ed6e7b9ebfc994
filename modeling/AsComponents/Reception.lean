import AsComponents.RecordStatus

/-!
# What the interface makes of the bytes of a connection

The interface as a function of the bytes it receives.  They are taken one by one:
no mutex, no cached iterator and no buffer has a part in it, and no system call
fails.
-/

namespace AsComponents.Server

open Protocol NameValue SocketFunctions AsComponents.Partition Std

/-- The data of a request after the end of a stream, and what that means for the
request. -/
def RequestData.endStream (d : RequestData) (st : Stream) : RequestData × Completion :=
  let checked := (d.complete st).checkRequestCompletionWithConditionalUpdate
  if checked.2 then
    (checked.1.processFcgiParams.1,
      if checked.1.processFcgiParams.2 then .complete else .malformed)
  else (checked.1, .incomplete)

namespace System

/-- The system with this iterator kept by `ReadRecords` from one of its sections
to the next. -/
def caching (s : System) (it : Option Iterator) : System := { s with localRequestIter := it }

/-- A record of the interface is sent, unless a record was torn on this
connection. -/
def respond (s : System) (c : Nat) (origin : Option Nat) (bytes : Bytes) : System :=
  match s.writeMutexMap[c]?, s.descriptors[c]? with
  | some m, some d =>
      if m.corrupt then s
      else
        (s.setSocket d.socket
          { s.sockets d.socket with sent := (s.sockets d.socket).sent ++ bytes }).setTransmissions
          d.socket (s.transmissions d.socket ++ [⟨origin, bytes, bytes.length⟩])
  | _, _ => s

/-! ## Headers -/

/-- Whether an application record is ignored because of the request it names. -/
def ignores (s : System) (rs : RecordStatus) : Bool :=
  match s.requestMap[rs.requestId]? with
  | none => rs.type ≠ kFcgiBeginRequest
  | some d =>
      if rs.type = kFcgiBeginRequest then true
      else if rs.type = kFcgiAbortRequest then d.clientSetAbort
      else
        match Stream.ofType rs.type with
        | some st => d.completion st
        | none => true

/-- The header of a record was received. -/
def checkHeader (s : System) (c : Nat) (rs : RecordStatus) : RecordStatus :=
  let rs := rs.decodeHeader c
  if rs.requestId.fcgiId = fcgiNullRequestId then rs
  else { rs with invalidatedByHeader := rs.rejectedByType || s.ignores rs }

/-! ## Requests -/

def remove (s : System) (id : FcgiRequestIdentifier) : System :=
  { s with
    requestCountMap := s.requestCountMap.modify id.descriptor (· - 1)
    requestMap := s.requestMap.erase id }

def closeLater (s : System) (c : Nat) (d : RequestData) : System :=
  if d.closeConnection then
    { s with applicationClosureRequestSet := s.applicationClosureRequestSet.insert c }
  else s

/-- The interface ends a request itself. -/
def endRequest (s : System) (c : Nat) (it : Iterator) (d : RequestData) (appStatus : Int32) :
    System :=
  (((s.closeLater c d).remove it.key).record (.endedByInterface d.node)).respond c (some it.node)
    (endRequestRecord it.key.fcgiId fcgiRequestComplete appStatus).encode

/-- Whether a new request of the connection is rejected. -/
def Full (s : System) (c : Nat) : Prop :=
  s.maximumRequestCountPerConnection ≤ (s.requestCountMap[c]?).getD 0 ∨ s.applicationOverload = true

instance (s : System) (c : Nat) : Decidable (s.Full c) := inferInstanceAs (Decidable (_ ∨ _))

/-- The status with which a new request is rejected. -/
def rejection (s : System) (c : Nat) : UInt8 :=
  if s.maximumRequestCountPerConnection ≤ (s.requestCountMap[c]?).getD 0 ∧
      s.maximumRequestCountPerConnection = 1 then fcgiCantMpxConn
  else fcgiOverloaded

/-- A request that is rejected gets a node of its own. -/
def reject (s : System) (c : Nat) (id : FcgiRequestIdentifier) : System :=
  { s with
    nextNode := s.nextNode + 1
    log := .begun s.nextNode (((s.descriptors[c]?).map (·.socket)).getD 0) id.fcgiId false :: s.log }

/-- A new request of a connection. -/
def accept (s : System) (c : Nat) (id : FcgiRequestIdentifier) (role : UInt16)
    (closeConnection : Bool) : System :=
  let socket := ((s.descriptors[c]?).map (·.socket)).getD 0
  { s with
    requestCountMap := s.requestCountMap.modify c (· + 1)
    requestMap := s.requestMap.insert id
      { role := role, closeConnection := closeConnection, node := s.nextNode, socket := socket }
    nextNode := s.nextNode + 1
    log := .begun s.nextNode socket id.fcgiId true :: s.log }

def beginRequest (s : System) (c : Nat) (id : FcgiRequestIdentifier) (content : Bytes) : System :=
  match content with
  | roleB1 :: roleB0 :: flags :: _ =>
      if s.Full c then
        (s.reject c id).respond c (some s.nextNode)
          (endRequestRecord id.fcgiId (s.rejection c) exitFailure).encode
      else
        s.accept c id (UInt16.ofNat (roleB1.toNat * 256 + roleB0.toNat)) (flags &&& fcgiKeepConn = 0)
  | _ => s

/-- The client aborts a request. -/
def abort (s : System) (c : Nat) (id : FcgiRequestIdentifier) (completed : List Iterator) :
    System × List Iterator :=
  match s.requestMap[id]? with
  | none => (s, completed)
  | some d =>
      if d.requestStatus = .requestAssigned then
        (s.setData id { d with clientSetAbort := true }, completed)
      else (s.endRequest c ⟨id, d.node⟩ d s.appStatusOnAbort,
        if d.AllComplete then completed.erase ⟨id, d.node⟩ else completed)

def endStream (s : System) (c : Nat) (id : FcgiRequestIdentifier) (st : Stream)
    (completed : List Iterator) : System × List Iterator :=
  match s.requestMap[id]? with
  | none => (s, completed)
  | some d =>
      let ended := d.endStream st
      let s := s.setData id ended.1
      match ended.2 with
      | .incomplete => (s, completed)
      | .complete => (s, completed ++ [⟨id, d.node⟩])
      | .malformed => (s.endRequest c ⟨id, d.node⟩ ended.1 exitFailure, completed)

/-- The record that answers a management record. -/
def managementResponse (s : System) (type : FcgiType) (content : Bytes) : Record :=
  if type = kFcgiGetValues then getValuesResultRecord s content else unknownTypeRecord type

/-- A record was received as a whole. -/
def processRecord (s : System) (c : Nat) (rs : RecordStatus) (completed : List Iterator) :
    System × List Iterator :=
  if rs.requestId.fcgiId = fcgiNullRequestId then
    (s.respond c none (s.managementResponse rs.type rs.localRecordContentBuffer).encode, completed)
  else if rs.invalidatedByHeader then (s, completed)
  else if rs.type = kFcgiBeginRequest then (s.beginRequest c rs.requestId rs.localRecordContentBuffer, completed)
  else if rs.type = kFcgiAbortRequest then s.abort c rs.requestId completed
  else
    match Stream.ofType rs.type with
    | some st =>
        if rs.contentBytesExpected = 0 then s.endStream c rs.requestId st completed
        else (s, completed)
    | none => (s, completed)

end System

/-! ## Bytes -/

/-- The content of the records that are kept in `local_record_content_buffer_`. -/
def RecordStatus.Buffered (rs : RecordStatus) : Prop :=
  rs.requestId.fcgiId = fcgiNullRequestId ∨ rs.type = kFcgiBeginRequest ∨
    rs.type = kFcgiAbortRequest

instance (rs : RecordStatus) : Decidable rs.Buffered := inferInstanceAs (Decidable (_ ∨ _ ∨ _))

/-- The record with more bytes received and nothing else changed. -/
def RecordStatus.advance (rs : RecordStatus) (n : Nat) : RecordStatus :=
  { rs with bytesReceived := rs.bytesReceived + n }

/-- The record with more bytes of its header received. -/
def RecordStatus.addHeader (rs : RecordStatus) (bytes : Bytes) : RecordStatus :=
  { rs.advance bytes.length with header := rs.header ++ bytes }

/-- The record with more bytes in its content buffer. -/
def RecordStatus.addContent (rs : RecordStatus) (bytes : Bytes) : RecordStatus :=
  { rs.advance bytes.length with localRecordContentBuffer := rs.localRecordContentBuffer ++ bytes }

/-- A connection in the middle of a call of `ReadRecords`. -/
structure Reception where
  system : System
  status : RecordStatus
  completed : List Iterator := []

namespace Reception

/-- Content is kept with the record or goes to the stream of the request. -/
def store (x : Reception) (bytes : Bytes) : Reception :=
  let x' := { x with status := x.status.advance bytes.length }
  if x.status.invalidatedByHeader then x'
  else if x.status.Buffered then { x with status := x.status.addContent bytes }
  else
    match Stream.ofType x.status.type, x.system.requestMap[x.status.requestId]? with
    | some st, some d =>
        { x' with system := x.system.setData x.status.requestId (d.append st bytes) }
    | _, _ => x'

/-- Bytes that belong to the header. -/
def extendHeader (x : Reception) (c : Nat) (bytes : Bytes) : Reception :=
  let rs := x.status.addHeader bytes
  { x with status :=
      if rs.bytesReceived = fcgiHeaderLen then x.system.checkHeader c rs else rs }

/-- Bytes that belong to the header, to the content or to the padding. -/
def place (x : Reception) (c : Nat) (bytes : Bytes) : Reception :=
  if x.status.bytesReceived < fcgiHeaderLen then x.extendHeader c bytes
  else if x.status.bytesReceived < fcgiHeaderLen + x.status.contentBytesExpected then x.store bytes
  else { x with status := x.status.advance bytes.length }

/-- A complete record is processed. -/
def settle (x : Reception) (c : Nat) : Reception :=
  if x.status.IsRecordComplete then
    let r := x.system.processRecord c x.status x.completed
    ⟨r.1, {}, r.2⟩
  else x

def take (c : Nat) (x : Reception) (b : UInt8) : Reception := (x.place c [b]).settle c

end Reception

/-- The connection at the start of a call of `ReadRecords`. -/
def System.reception (s : System) (c : Nat) : Reception where
  system := s.caching none
  status := (s.recordStatusMap[c]?).getD {}

/-- A call of `ReadRecords` that receives these bytes: the system it leaves, and
the requests it reports. -/
def System.receive (s : System) (c : Nat) (bytes : Bytes) : System × List Iterator :=
  let x := bytes.foldl (Reception.take c) (s.reception c)
  ({ x.system with
      localRequestIter := none
      recordStatusMap := x.system.recordStatusMap.insert c x.status }, x.completed)

/-! ## What the bytes do not depend on -/

/-- The system with other values of what is kept from one call of `ReadRecords`
to the next. -/
def System.keeping (s : System) (it : Option Iterator) (statuses : ExtTreeMap Nat RecordStatus) : System :=
  { s with localRequestIter := it, recordStatusMap := statuses }

section

variable (s : System) (c : Nat) (it : Option Iterator) (statuses : ExtTreeMap Nat RecordStatus)
  (id : FcgiRequestIdentifier) (its : List Iterator)

theorem respond_keeping (origin : Option Nat) (bytes : Bytes) :
    (s.keeping it statuses).respond c origin bytes =
      (s.respond c origin bytes).keeping it statuses := by
  unfold System.respond System.keeping
  dsimp only
  split
  · split <;> rfl
  · rfl

theorem endRequest_keeping (i : Iterator) (d : RequestData) (appStatus : Int32) :
    (s.keeping it statuses).endRequest c i d appStatus =
      (s.endRequest c i d appStatus).keeping it statuses := by
  unfold System.endRequest
  rw [← respond_keeping]
  refine congrArg (System.respond · c _ _) ?_
  unfold System.closeLater
  split <;> rfl

theorem beginRequest_keeping (content : Bytes) :
    (s.keeping it statuses).beginRequest c id content =
      (s.beginRequest c id content).keeping it statuses := by
  unfold System.beginRequest
  split
  · show (if s.Full c then _ else _) = System.keeping (if s.Full c then _ else _) it statuses
    split
    · rw [← respond_keeping]
      rfl
    · rfl
  · rfl

theorem abort_keeping :
    (s.keeping it statuses).abort c id its =
      ((s.abort c id its).1.keeping it statuses, (s.abort c id its).2) := by
  unfold System.abort
  rw [show (s.keeping it statuses).requestMap = s.requestMap from rfl]
  split
  · rfl
  · split
    · rfl
    · exact congrArg (·, _) (endRequest_keeping s c it statuses _ _ _)

theorem endStream_keeping (st : Stream) :
    (s.keeping it statuses).endStream c id st its =
      ((s.endStream c id st its).1.keeping it statuses, (s.endStream c id st its).2) := by
  unfold System.endStream
  rw [show (s.keeping it statuses).requestMap = s.requestMap from rfl]
  split
  · rfl
  · dsimp only
    split
    · rfl
    · rfl
    · exact congrArg (·, _) (endRequest_keeping (s.setData id _) c it statuses _ _ _)

theorem processRecord_keeping (rs : RecordStatus) :
    (s.keeping it statuses).processRecord c rs its =
      ((s.processRecord c rs its).1.keeping it statuses, (s.processRecord c rs its).2) := by
  unfold System.processRecord
  split
  · exact congrArg (·, _) (respond_keeping s c it statuses _ _)
  split
  · rfl
  split
  · exact congrArg (·, _) (beginRequest_keeping s c it statuses _ _)
  split
  · exact abort_keeping s c it statuses _ _
  split
  · split
    · exact endStream_keeping s c it statuses _ _ _
    · rfl
  · rfl

end

namespace Reception

/-- The connection with other values of what is kept between calls. -/
def keeping (x : Reception) (it : Option Iterator) (statuses : ExtTreeMap Nat RecordStatus) : Reception :=
  { x with system := x.system.keeping it statuses }

variable (x : Reception) (c : Nat) (it : Option Iterator) (statuses : ExtTreeMap Nat RecordStatus)

theorem store_keeping (bytes : Bytes) :
    (x.keeping it statuses).store bytes = (x.store bytes).keeping it statuses := by
  unfold store
  dsimp only
  rw [show (x.keeping it statuses).status = x.status from rfl]
  split
  · rfl
  split
  · rfl
  · rw [show (x.keeping it statuses).system.requestMap = x.system.requestMap from rfl]
    split <;> rfl

theorem place_keeping (bytes : Bytes) :
    (x.keeping it statuses).place c bytes = (x.place c bytes).keeping it statuses := by
  unfold place
  rw [show (x.keeping it statuses).status = x.status from rfl]
  split
  · rfl
  split
  · exact store_keeping x it statuses bytes
  · rfl

theorem settle_keeping :
    (x.keeping it statuses).settle c = (x.settle c).keeping it statuses := by
  unfold settle
  rw [show (x.keeping it statuses).status = x.status from rfl]
  split
  · dsimp only
    rw [show (x.keeping it statuses).system = x.system.keeping it statuses from rfl,
      processRecord_keeping]
    rfl
  · rfl

theorem foldl_keeping (bytes : Bytes) :
    bytes.foldl (take c) (x.keeping it statuses) = (bytes.foldl (take c) x).keeping it statuses := by
  induction bytes generalizing x with
  | nil => rfl
  | cons b bytes ih =>
    rw [List.foldl_cons, List.foldl_cons, take, place_keeping, settle_keeping]
    exact ih _

end Reception

end AsComponents.Server
