import AsComponents.ReceivedRecords

/-! One request as a function of its own records: what other requests of the
connection send has no part in it. -/

namespace AsComponents.Server

open Protocol NameValue SocketFunctions AsComponents.Partition Std Critical

/-! ## What a client can tell of a request -/

namespace RequestData

/-- The data without the names of the node and of the connection. -/
def view (d : RequestData) : RequestData := { d with node := 0, socket := 0 }

/-- The request of an accepted begin record with this content. -/
def ofBegin (content : Bytes) : Option RequestData :=
  match content with
  | roleB1 :: roleB0 :: flags :: _ =>
      some
        { role := UInt16.ofNat (roleB1.toNat * 256 + roleB0.toNat)
          closeConnection := flags &&& fcgiKeepConn = 0
          node := 0
          socket := 0 }
  | _ => none

/-- The request after a stream ended; a malformed one is removed. -/
def afterStream (d : RequestData) (st : Stream) : Option RequestData :=
  if (d.endStream st).2 = .malformed then none else some (d.endStream st).1

/-- A record of one request, which is `none` as long as it is not known.  Begin
records are accepted. -/
def receive (request : Option RequestData) (r : Record) : Option RequestData :=
  match request with
  | none => if r.type = kFcgiBeginRequest ∧ r.content.length = 8 then ofBegin r.content else none
  | some d =>
      if r.type = kFcgiAbortRequest then
        if r.content = [] ∧ d.clientSetAbort = false then
          if d.requestStatus = .requestAssigned then some { d with clientSetAbort := true } else none
        else some d
      else
        match Stream.ofType r.type with
        | none => some d
        | some st =>
            if d.completion st then some d
            else if r.content = [] then d.afterStream st
            else some (d.append st r.content)

/-! ### The functions of a request do not read the names -/

@[simp] theorem view_append (d : RequestData) (st : Stream) (bytes : Bytes) :
    (d.append st bytes).view = d.view.append st bytes := by
  cases st <;> rfl

@[simp] theorem view_complete (d : RequestData) (st : Stream) :
    (d.complete st).view = d.view.complete st := by
  cases st <;> rfl

@[simp] theorem completion_view (d : RequestData) (st : Stream) :
    d.view.completion st = d.completion st := by
  cases st <;> rfl

theorem view_check (d : RequestData) :
    d.view.checkRequestCompletionWithConditionalUpdate =
      (d.checkRequestCompletionWithConditionalUpdate.1.view,
        d.checkRequestCompletionWithConditionalUpdate.2) := by
  unfold checkRequestCompletionWithConditionalUpdate
  by_cases hresponder : d.role = fcgiResponder
  · rw [if_pos hresponder, if_pos (show d.view.role = fcgiResponder from hresponder)]
    by_cases hc : d.fcgiParamsComplete = true ∧ d.fcgiStdinComplete = true ∧
        (d.fcgiData = [] ∨ d.fcgiDataComplete = true)
    · rw [if_pos hc]
      exact if_pos hc
    · rw [if_neg hc]
      exact if_neg hc
  rw [if_neg hresponder, if_neg (show ¬ d.view.role = fcgiResponder from hresponder)]
  by_cases hauthorizer : d.role = fcgiAuthorizer
  · rw [if_pos hauthorizer, if_pos (show d.view.role = fcgiAuthorizer from hauthorizer)]
    by_cases hc : d.fcgiParamsComplete = true ∧ (d.fcgiStdin = [] ∨ d.fcgiStdinComplete = true) ∧
        (d.fcgiData = [] ∨ d.fcgiDataComplete = true)
    · rw [if_pos hc]
      exact if_pos hc
    · rw [if_neg hc]
      exact if_neg hc
  · rw [if_neg hauthorizer]
    exact if_neg hauthorizer

theorem view_processFcgiParams (d : RequestData) :
    d.view.processFcgiParams = (d.processFcgiParams.1.view, d.processFcgiParams.2) := by
  unfold processFcgiParams
  rw [show d.view.fcgiParams = d.fcgiParams from rfl]
  split
  · rfl
  · split <;> rfl

theorem view_endStream (d : RequestData) (st : Stream) :
    d.view.endStream st = ((d.endStream st).1.view, (d.endStream st).2) := by
  unfold endStream
  dsimp only
  rw [← view_complete, view_check]
  dsimp only
  split
  · rw [view_processFcgiParams]
  · rfl

theorem view_afterStream (d : RequestData) (st : Stream) :
    d.view.afterStream st = (d.afterStream st).map view := by
  unfold afterStream
  rw [view_endStream]
  split <;> rfl

end RequestData

/-! ## Records of other requests -/

variable {c : Nat} {s : System} {its : List Iterator} {id id' : FcgiRequestIdentifier}

theorem setData_other (hne : id ≠ id') (d : RequestData) :
    (s.setData id d).requestMap[id']? = s.requestMap[id']? := by
  simp only [System.setData]
  grind

theorem endRequest_requestMap (i : Iterator) (d : RequestData) (appStatus : Int32) :
    (s.endRequest c i d appStatus).requestMap = s.requestMap.erase i.key := by
  unfold System.endRequest
  rw [requestMap_respond]
  show (s.closeLater c d).requestMap.erase i.key = _
  rw [requestMap_closeLater]

theorem endRequest_other {i : Iterator} (hne : i.key ≠ id') (d : RequestData) (appStatus : Int32) :
    (s.endRequest c i d appStatus).requestMap[id']? = s.requestMap[id']? := by
  rw [endRequest_requestMap]
  grind

theorem beginRequest_other (hne : id ≠ id') (content : Bytes) :
    (s.beginRequest c id content).requestMap[id']? = s.requestMap[id']? := by
  unfold System.beginRequest
  split
  · split
    · rw [requestMap_respond]
      rfl
    · simp only [System.accept]
      grind
  · rfl

theorem abort_other (hne : id ≠ id') :
    (s.abort c id its).1.requestMap[id']? = s.requestMap[id']? := by
  unfold System.abort
  split
  · rfl
  · split
    · exact setData_other hne _
    · exact endRequest_other hne _ _

theorem endStream_other (hne : id ≠ id') (st : Stream) :
    (s.endStream c id st its).1.requestMap[id']? = s.requestMap[id']? := by
  unfold System.endStream
  split
  · rfl
  · dsimp only
    split
    · exact setData_other hne _
    · exact setData_other hne _
    · rw [endRequest_other hne, setData_other hne]

/-- A record changes no other request. -/
theorem receiveRecord_other {r : Record} (hne : (⟨c, r.fcgiId⟩ : FcgiRequestIdentifier) ≠ id') :
    (s.receiveRecord c r its).1.requestMap[id']? = s.requestMap[id']? := by
  unfold System.receiveRecord
  dsimp only
  split
  · rw [requestMap_respond]
  split
  · split
    · exact beginRequest_other hne _
    · rfl
  split
  · rfl
  split
  · split
    · exact abort_other hne
    · rfl
  split
  · rfl
  split
  · rfl
  split
  · exact endStream_other hne _
  · exact setData_other hne _

/-! ## Records of the request -/

/-- What a client can tell of a request of the map. -/
def System.view (s : System) (id : FcgiRequestIdentifier) : Option RequestData :=
  (s.requestMap[id]?).map RequestData.view

theorem view_setData (d : RequestData) : (s.setData id d).view id = some d.view := by
  rw [System.view, System.setData, ExtTreeMap.getElem?_insert_self]
  rfl

theorem view_endRequest (n : Nat) (d : RequestData) (appStatus : Int32) :
    (s.endRequest c ⟨id, n⟩ d appStatus).view id = none := by
  rw [System.view, endRequest_requestMap]
  simp

theorem view_endStream {d : RequestData} (hd : s.requestMap[id]? = some d) (st : Stream) :
    (s.endStream c id st its).1.view id = d.view.afterStream st := by
  rw [RequestData.view_afterStream]
  unfold System.endStream RequestData.afterStream
  rw [hd]
  dsimp only
  cases hended : (d.endStream st).2 with
  | incomplete => exact view_setData _
  | complete => exact view_setData _
  | malformed => exact view_endRequest _ _ _

theorem view_abort {d : RequestData} (hd : s.requestMap[id]? = some d) :
    (s.abort c id its).1.view id =
      if d.requestStatus = .requestAssigned then some { d.view with clientSetAbort := true } else none := by
  unfold System.abort
  rw [hd]
  dsimp only
  split
  · exact view_setData _
  · exact view_endRequest _ _ _

theorem view_beginRequest (hroom : ¬ s.Full c) (hnone : s.requestMap[id]? = none) (content : Bytes) :
    (s.beginRequest c id content).view id = RequestData.ofBegin content := by
  have hview : s.view id = none := by
    rw [System.view, hnone]
    rfl
  rcases content with _ | ⟨roleB1, _ | ⟨roleB0, _ | ⟨flags, rest⟩⟩⟩
  · exact hview
  · exact hview
  · exact hview
  · simp only [System.beginRequest, RequestData.ofBegin]
    rw [if_neg hroom, System.view, System.accept, ExtTreeMap.getElem?_insert_self]
    rfl

/-- A record does to its own request what it does to a request alone. -/
theorem receiveRecord_own {r : Record} (hid : r.fcgiId ≠ fcgiNullRequestId)
    (hroom : r.type = kFcgiBeginRequest → r.content.length = 8 →
      s.requestMap[(⟨c, r.fcgiId⟩ : FcgiRequestIdentifier)]? = none → ¬ s.Full c) :
    (s.receiveRecord c r its).1.view ⟨c, r.fcgiId⟩ =
      RequestData.receive (s.view ⟨c, r.fcgiId⟩) r := by
  unfold System.receiveRecord
  dsimp only
  rw [if_neg hid]
  cases hd : s.requestMap[(⟨c, r.fcgiId⟩ : FcgiRequestIdentifier)]? with
  | none =>
    have hview : s.view ⟨c, r.fcgiId⟩ = none := by rw [System.view, hd]; rfl
    rw [hview]
    unfold RequestData.receive
    by_cases hbegin : r.type = kFcgiBeginRequest
    · rw [if_pos hbegin]
      by_cases hlength : r.content.length = 8
      · rw [if_pos ⟨hlength, rfl⟩]
        dsimp only
        rw [if_pos ⟨hbegin, hlength⟩]
        exact view_beginRequest (hroom hbegin hlength hd) hd _
      · rw [if_neg fun h => hlength h.1]
        dsimp only
        rw [if_neg fun h => hlength h.2]
        exact hview
    · rw [if_neg hbegin]
      dsimp only
      rw [if_neg fun h => hbegin h.1]
      exact hview
  | some d =>
    have hview : s.view ⟨c, r.fcgiId⟩ = some d.view := by rw [System.view, hd]; rfl
    rw [hview]
    simp only [RequestData.receive, RequestData.completion_view]
    by_cases hbegin : r.type = kFcgiBeginRequest
    · have habort : ¬ r.type = kFcgiAbortRequest := by
        rw [hbegin]
        decide
      have hst : Stream.ofType r.type = none := by
        rw [hbegin]
        rfl
      rw [if_pos hbegin, if_neg (by rintro ⟨-, ⟨⟩⟩), if_neg habort, hst]
      exact hview
    rw [if_neg hbegin]
    by_cases habort : r.type = kFcgiAbortRequest
    · rw [if_pos habort, if_pos habort]
      by_cases hopen : r.content = [] ∧ d.clientSetAbort = false
      · rw [if_pos hopen, if_pos (show _ ∧ d.view.clientSetAbort = false from hopen)]
        exact view_abort (d := d) hd
      · rw [if_neg hopen, if_neg (show ¬ (_ ∧ d.view.clientSetAbort = false) from hopen)]
        exact hview
    rw [if_neg habort, if_neg habort]
    cases hst : Stream.ofType r.type with
    | none => exact hview
    | some st =>
      dsimp only
      split
      · exact hview
      · split
        · exact view_endStream hd st
        · rw [view_setData, RequestData.view_append]

/-! ## A request among others -/

/-- No begin record of request `i` is rejected. -/
def System.Admits (s : System) (c : Nat) (i : UInt16) : List Record → List Iterator → Prop
  | [], _ => True
  | r :: rs, its =>
      (r.fcgiId = i → r.type = kFcgiBeginRequest → r.content.length = 8 →
        s.requestMap[(⟨c, i⟩ : FcgiRequestIdentifier)]? = none → ¬ s.Full c) ∧
      (s.receiveRecord c r its).1.Admits c i rs (s.receiveRecord c r its).2

/-- The records of one request. -/
def recordsOf (i : UInt16) (rs : List Record) : List Record := rs.filter fun r => r.fcgiId = i

theorem recordsOf_cons_self (r : Record) (rs : List Record) :
    recordsOf r.fcgiId (r :: rs) = r :: recordsOf r.fcgiId rs := by
  simp [recordsOf]

theorem recordsOf_cons_ne {i : UInt16} {r : Record} (h : r.fcgiId ≠ i) (rs : List Record) :
    recordsOf i (r :: rs) = recordsOf i rs := by
  simp [recordsOf, h]

/-- What is kept for a request depends on its own records only. -/
theorem view_receiveRecords {i : UInt16} (hi : i ≠ fcgiNullRequestId) {rs : List Record}
    (hadmits : s.Admits c i rs its) :
    (s.receiveRecords c rs its).1.view ⟨c, i⟩ =
      (recordsOf i rs).foldl RequestData.receive (s.view ⟨c, i⟩) := by
  induction rs generalizing s its with
  | nil => rfl
  | cons r rs ih =>
    obtain ⟨hroom, hrest⟩ := hadmits
    rw [receiveRecords_cons, ih hrest]
    by_cases hown : r.fcgiId = i
    · subst hown
      rw [recordsOf_cons_self, List.foldl_cons, receiveRecord_own hi fun ht hl hn => hroom rfl ht hl hn]
    · have hne : (⟨c, r.fcgiId⟩ : FcgiRequestIdentifier) ≠ ⟨c, i⟩ := by simpa using hown
      rw [recordsOf_cons_ne hown, System.view, receiveRecord_other hne]
      rfl

end AsComponents.Server
