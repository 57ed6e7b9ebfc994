import AsComponents.NameValue

/-! The data of one request while the interface holds it
(`FcgiServerInterface::RequestData`, `request_data.cc`). -/

namespace AsComponents.Server

open Protocol NameValue Std

inductive RequestStatus
  | requestPending
  | requestAssigned
  deriving DecidableEq, Repr

/-- The order which sorts name-value pairs with `NameLessThan`. -/
def NameLessEqual (p q : ByteSeqPair) : Prop := (compare p.1 q.1).isLE = true

instance : DecidableRel NameLessEqual := fun _ _ => inferInstanceAs (Decidable (_ = true))

/-- The three streams a client sends for a request. -/
inductive Stream
  | params
  | stdin
  | data
  deriving DecidableEq, Repr

/-- The stream of a record type, for the types that belong to one. -/
def Stream.ofType (type : FcgiType) : Option Stream :=
  if type = kFcgiParams then some .params
  else if type = kFcgiStdin then some .stdin
  else if type = kFcgiData then some .data
  else none

/-- An element of `request_map_`.  `node` names the node of the map which holds
it and `socket` the connection it was begun on: they stand for what a pointer
to the object tells apart and the program never reads them. -/
structure RequestData where
  fcgiParams : Bytes := []
  fcgiParamsComplete : Bool := false
  fcgiStdin : Bytes := []
  fcgiStdinComplete : Bool := false
  fcgiData : Bytes := []
  fcgiDataComplete : Bool := false
  environmentMap : ParamsMap := ∅
  clientSetAbort : Bool := false
  connectionClosedByInterface : Bool := false
  requestStatus : RequestStatus := .requestPending
  role : UInt16
  closeConnection : Bool
  node : Nat
  socket : Nat

namespace RequestData

def completion (d : RequestData) : Stream → Bool
  | .params => d.fcgiParamsComplete
  | .stdin => d.fcgiStdinComplete
  | .data => d.fcgiDataComplete

/-- `AppendToPARAMS`, `AppendToSTDIN` and `AppendToDATA`. -/
def append (d : RequestData) (st : Stream) (bytes : Bytes) : RequestData :=
  match st with
  | .params => { d with fcgiParams := d.fcgiParams ++ bytes }
  | .stdin => { d with fcgiStdin := d.fcgiStdin ++ bytes }
  | .data => { d with fcgiData := d.fcgiData ++ bytes }

/-- `CompletePARAMS`, `CompleteSTDIN` and `CompleteDATA`. -/
def complete (d : RequestData) (st : Stream) : RequestData :=
  match st with
  | .params => { d with fcgiParamsComplete := true }
  | .stdin => { d with fcgiStdinComplete := true }
  | .data => { d with fcgiDataComplete := true }

/-- Every stream of the request was completed. -/
def AllComplete (d : RequestData) : Prop :=
  d.fcgiStdinComplete = true ∧ d.fcgiDataComplete = true ∧ d.fcgiParamsComplete = true

instance (d : RequestData) : Decidable d.AllComplete :=
  inferInstanceAs (Decidable (_ ∧ _ ∧ _))

def checkRequestCompletionWithConditionalUpdate (d : RequestData) : RequestData × Bool :=
  if d.role = fcgiResponder then
    if d.fcgiParamsComplete ∧ d.fcgiStdinComplete ∧ (d.fcgiData = [] ∨ d.fcgiDataComplete) then
      ({ d with fcgiDataComplete := true }, true)
    else (d, false)
  else if d.role = fcgiAuthorizer then
    if d.fcgiParamsComplete ∧ (d.fcgiStdin = [] ∨ d.fcgiStdinComplete) ∧
        (d.fcgiData = [] ∨ d.fcgiDataComplete) then
      ({ d with fcgiStdinComplete := true, fcgiDataComplete := true }, true)
    else (d, false)
  else (d, d.fcgiParamsComplete && d.fcgiStdinComplete && d.fcgiDataComplete)

/-- The loop over the sorted list: `current` is the definition not yet placed. -/
def placePairs : ByteSeqPair → List ByteSeqPair → ParamsMap → ParamsMap × Bool
  | current, [], env => (env.insertIfNew current.1 current.2, true)
  | current, next :: rest, env =>
      if current.1 = next.1 then
        if current.2 = next.2 then placePairs current rest env
        -- distinct definitions for one variable
        else (env, false)
      else placePairs next rest (env.insertIfNew current.1 current.2)

/-- `ProcessFCGI_PARAMS`, with the object as it leaves it. -/
def processFcgiParams (d : RequestData) : RequestData × Bool :=
  if d.fcgiParams = [] then (d, true)
  else
    match (extractBinaryNameValuePairs d.fcgiParams).insertionSort NameLessEqual with
    | [] => (d, false)
    | first :: rest =>
        let (env, valid) := placePairs first rest d.environmentMap
        ({ d with environmentMap := env }, valid)

/-! ## What the updates leave unchanged -/

/-- Two values of one request: only its streams, its environment and its abort
flag differ. -/
structure SameRequest (d d' : RequestData) : Prop where
  role : d'.role = d.role
  closeConnection : d'.closeConnection = d.closeConnection
  requestStatus : d'.requestStatus = d.requestStatus
  closed : d'.connectionClosedByInterface = d.connectionClosedByInterface
  node : d'.node = d.node
  socket : d'.socket = d.socket

theorem SameRequest.trans {d d' d'' : RequestData} (h : SameRequest d d') (h' : SameRequest d' d'') :
    SameRequest d d'' :=
  ⟨h'.role.trans h.role, h'.closeConnection.trans h.closeConnection,
    h'.requestStatus.trans h.requestStatus, h'.closed.trans h.closed, h'.node.trans h.node,
    h'.socket.trans h.socket⟩

theorem sameRequest_append (d : RequestData) (st : Stream) (bytes : Bytes) :
    SameRequest d (d.append st bytes) := by
  cases st <;> exact ⟨rfl, rfl, rfl, rfl, rfl, rfl⟩

theorem sameRequest_complete (d : RequestData) (st : Stream) : SameRequest d (d.complete st) := by
  cases st <;> exact ⟨rfl, rfl, rfl, rfl, rfl, rfl⟩

theorem sameRequest_check (d : RequestData) :
    SameRequest d d.checkRequestCompletionWithConditionalUpdate.1 := by
  unfold checkRequestCompletionWithConditionalUpdate
  split
  · split <;> exact ⟨rfl, rfl, rfl, rfl, rfl, rfl⟩
  · split
    · split <;> exact ⟨rfl, rfl, rfl, rfl, rfl, rfl⟩
    · exact ⟨rfl, rfl, rfl, rfl, rfl, rfl⟩

theorem sameRequest_processFcgiParams (d : RequestData) :
    SameRequest d d.processFcgiParams.1 := by
  unfold processFcgiParams
  split
  · exact ⟨rfl, rfl, rfl, rfl, rfl, rfl⟩
  · split <;> exact ⟨rfl, rfl, rfl, rfl, rfl, rfl⟩

/-- A request that is reported complete has all its streams completed. -/
theorem allComplete_of_check {d : RequestData}
    (h : d.checkRequestCompletionWithConditionalUpdate.2 = true) :
    d.checkRequestCompletionWithConditionalUpdate.1.AllComplete := by
  unfold checkRequestCompletionWithConditionalUpdate at h ⊢
  split at h
  · rename_i hr
    rw [if_pos hr]
    split at h
    · rename_i hc
      rw [if_pos hc]
      exact ⟨hc.2.1, rfl, hc.1⟩
    · cases h
  · rename_i hr
    rw [if_neg hr]
    split at h
    · rename_i ha
      rw [if_pos ha]
      split at h
      · rename_i hc
        rw [if_pos hc]
        exact ⟨rfl, rfl, hc.1⟩
      · cases h
    · rename_i ha
      rw [if_neg ha]
      simp only [Bool.and_eq_true] at h
      exact ⟨h.1.2, h.2, h.1.1⟩

theorem allComplete_processFcgiParams {d : RequestData} (h : d.AllComplete) :
    d.processFcgiParams.1.AllComplete := by
  unfold processFcgiParams
  split
  · exact h
  · split <;> exact h

end RequestData

end AsComponents.Server
