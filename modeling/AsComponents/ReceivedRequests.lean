import AsComponents.ClientConsistency
import AsComponents.Environment
import AsComponents.ReceivedRecords
import AsComponents.SentRequests

/-! A request from `SendRequest` to `ReadRecords`: what the records of one
request make of the system that receives them. -/

namespace AsComponents.Server

open Protocol NameValue SocketFunctions AsComponents.Partition Algorithms Std Critical

open Client (CarriedBy Terminated SentAs terminalRecord beginRecord FcgiRequestDataReference)

/-! ## One request -/

/-- The data of a request that was received as a whole. -/
def RequestData.ofRequest (request : FcgiRequestDataReference) (node socket : Nat) : RequestData where
  fcgiParams := encodePairs request.params
  fcgiParamsComplete := true
  fcgiStdin := request.stdin
  fcgiStdinComplete := true
  fcgiData := request.data
  fcgiDataComplete := true
  environmentMap := request.paramsMap.getD ∅
  role := request.role
  closeConnection := !request.keepConn
  node := node
  socket := socket

/-- The system once it has received a request that it accepts. -/
def System.withRequest (s : System) (c : Nat) (id : FcgiRequestIdentifier)
    (request : FcgiRequestDataReference) : System :=
  (s.accept c id request.role (!request.keepConn)).setData id
    (.ofRequest request s.nextNode (((s.descriptors[c]?).map (·.socket)).getD 0))

variable {c : Nat} {s : System} {its : List Iterator} {i : UInt16}

/-! ### Streams -/

theorem RequestData.append_nil (d : RequestData) (st : Stream) : d.append st [] = d := by
  cases st <;> simp only [RequestData.append, List.append_nil]

theorem stream_ne_begin {type : FcgiType} {st : Stream} (hst : Stream.ofType type = some st) :
    type ≠ kFcgiBeginRequest ∧ type ≠ kFcgiAbortRequest := by
  constructor
  · rintro rfl
    cases hst
  · rintro rfl
    cases hst

/-- A record of an open stream. -/
theorem receiveRecord_stream {d : RequestData} {st : Stream} {r : Record} (hi : i ≠ fcgiNullRequestId)
    (hid : r.fcgiId = i) (hst : Stream.ofType r.type = some st) (hopen : d.completion st = false) :
    (s.setData ⟨c, i⟩ d).receiveRecord c r its =
      if r.content = [] then (s.setData ⟨c, i⟩ d).endStream c ⟨c, i⟩ st its
      else (s.setData ⟨c, i⟩ (d.append st r.content), its) := by
  subst hid
  obtain ⟨hbegin, habort⟩ := stream_ne_begin hst
  have hd : (s.setData ⟨c, r.fcgiId⟩ d).requestMap[(⟨c, r.fcgiId⟩ : FcgiRequestIdentifier)]? = some d :=
    ExtTreeMap.getElem?_insert_self
  unfold System.receiveRecord
  dsimp only
  rw [if_neg hi, if_neg hbegin, hd]
  dsimp only
  rw [if_neg habort, hst]
  dsimp only
  rw [if_neg (by rw [hopen]; decide), System.setData_setData]

theorem endStream_incomplete {d d' : RequestData} {st : Stream} (id : FcgiRequestIdentifier)
    (h : d.endStream st = (d', .incomplete)) :
    (s.setData id d).endStream c id st its = (s.setData id d', its) := by
  have hd : (s.setData id d).requestMap[id]? = some d := ExtTreeMap.getElem?_insert_self
  unfold System.endStream
  rw [hd]
  dsimp only
  rw [h]
  exact congrArg (·, its) (System.setData_setData s id d d')

theorem endStream_complete {d d' : RequestData} {st : Stream} (id : FcgiRequestIdentifier)
    (h : d.endStream st = (d', .complete)) :
    (s.setData id d).endStream c id st its = (s.setData id d', its ++ [⟨id, d.node⟩]) := by
  have hd : (s.setData id d).requestMap[id]? = some d := ExtTreeMap.getElem?_insert_self
  unfold System.endStream
  rw [hd]
  dsimp only
  rw [h]
  exact congrArg (·, its ++ [⟨id, d.node⟩]) (System.setData_setData s id d d')

theorem receiveRecords_append (rs rs' : List Record) :
    s.receiveRecords c (rs ++ rs') its =
      (s.receiveRecords c rs its).1.receiveRecords c rs' (s.receiveRecords c rs its).2 :=
  List.foldl_append

variable (its) in
/-- The content of a stream that is open. -/
theorem receiveRecords_carried {type : FcgiType} {st : Stream} (hi : i ≠ fcgiNullRequestId)
    (hst : Stream.ofType type = some st) {bytes : Bytes} {rs : List Record}
    (hrs : CarriedBy type i bytes rs) {d : RequestData} (hopen : d.completion st = false) :
    (s.setData ⟨c, i⟩ d).receiveRecords c rs its = (s.setData ⟨c, i⟩ (d.append st bytes), its) := by
  induction rs generalizing d bytes with
  | nil =>
    obtain rfl : [] = bytes := hrs.content
    rw [RequestData.append_nil]
    rfl
  | cons r rs ih =>
    have htype := hrs.type r List.mem_cons_self
    have hid := hrs.fcgiId r List.mem_cons_self
    have hne := hrs.nonempty r List.mem_cons_self
    obtain ⟨bytes', rfl⟩ : ∃ bytes', bytes = r.content ++ bytes' := ⟨_, hrs.content.symm⟩
    have hrest : CarriedBy type i bytes' rs :=
      ⟨fun q hq => hrs.type q (List.mem_cons_of_mem r hq),
        fun q hq => hrs.fcgiId q (List.mem_cons_of_mem r hq),
        fun q hq => hrs.fits q (List.mem_cons_of_mem r hq),
        fun q hq => hrs.nonempty q (List.mem_cons_of_mem r hq),
        List.append_cancel_left hrs.content⟩
    subst hid
    rw [receiveRecords_cons, receiveRecord_stream hi rfl (htype ▸ hst) hopen, if_neg hne]
    rw [ih hrest ((completion_append ..).trans hopen), Reception.append_append]

/-- The end of a stream of a request whose `FCGI_PARAMS` is to come. -/
theorem endStream_early {d : RequestData} (hparams : d.fcgiParamsComplete = false) {st : Stream}
    (hst : st ≠ .params) : d.endStream st = (d.complete st, .incomplete) := by
  have hopen : (d.complete st).fcgiParamsComplete = false := by
    cases st with
    | params => exact absurd rfl hst
    | stdin => exact hparams
    | data => exact hparams
  have hchecked : (d.complete st).checkRequestCompletionWithConditionalUpdate = (d.complete st, false) := by
    unfold RequestData.checkRequestCompletionWithConditionalUpdate
    rw [hopen]
    simp
  unfold RequestData.endStream
  rw [hchecked]
  rfl

/-- A stream that ends before `FCGI_PARAMS`. -/
theorem receiveRecords_terminated {type : FcgiType} {st : Stream} (hi : i ≠ fcgiNullRequestId)
    (hst : Stream.ofType type = some st) (hearly : st ≠ .params) {bytes : Bytes} {rs : List Record}
    (hrs : Terminated type i bytes rs) {d : RequestData} (hopen : d.completion st = false)
    (hparams : d.fcgiParamsComplete = false) :
    (s.setData ⟨c, i⟩ d).receiveRecords c rs its =
      (s.setData ⟨c, i⟩ ((d.append st bytes).complete st), its) := by
  obtain ⟨carried, hcarried, rfl⟩ := hrs
  have hparams' : (d.append st bytes).fcgiParamsComplete = false :=
    (completion_append d st .params bytes).trans hparams
  have hterminal : (s.setData ⟨c, i⟩ (d.append st bytes)).receiveRecord c (terminalRecord type i) its =
      (s.setData ⟨c, i⟩ (d.append st bytes)).endStream c ⟨c, i⟩ st its :=
    (receiveRecord_stream hi rfl hst ((completion_append ..).trans hopen)).trans (if_pos rfl)
  rw [receiveRecords_append, receiveRecords_carried its hi hst hcarried hopen, receiveRecords_cons, hterminal,
    endStream_incomplete _ (endStream_early hparams' hearly)]
  rfl

variable (its) in
/-- A stream before `FCGI_PARAMS` that may be left out. -/
theorem receiveRecords_optional {p : Prop} [Decidable p] {type : FcgiType} {st : Stream}
    (hi : i ≠ fcgiNullRequestId) (hst : Stream.ofType type = some st) (hearly : st ≠ .params)
    {bytes : Bytes} {rs : List Record} (hrs : if p then rs = [] else Terminated type i bytes rs)
    {d : RequestData} (hopen : d.completion st = false) (hparams : d.fcgiParamsComplete = false) :
    (s.setData ⟨c, i⟩ d).receiveRecords c rs its =
      (s.setData ⟨c, i⟩ (if p then d else (d.append st bytes).complete st), its) := by
  by_cases hp : p
  · rw [if_pos hp] at hrs ⊢
    rw [hrs]
    rfl
  · rw [if_neg hp] at hrs ⊢
    exact receiveRecords_terminated hi hst hearly hrs hopen hparams

/-! ### The environment -/

/-- The environment of a request is the map that was sent. -/
theorem processFcgiParams_toList {d : RequestData} (params : ParamsMap) (hempty : d.environmentMap = ∅)
    (hparams : d.fcgiParams = encodePairs params.toList) (hfits : ∀ p ∈ params.toList, PairFits p) :
    d.processFcgiParams = ({ d with environmentMap := params }, true) := by
  unfold RequestData.processFcgiParams
  by_cases hnil : params.toList = []
  · have hnone : params = ∅ := ExtTreeMap.toList_eq_nil_iff.mp hnil
    rw [if_pos (by rw [hparams, hnil]; rfl), hnone, ← hempty]
  · have hsort : Sorts NameLessEqual (List.insertionSort NameLessEqual) := sorts_insertionSort
    have hne : d.fcgiParams ≠ [] := by
      rw [hparams]
      intro h
      obtain ⟨p, rest, hp⟩ := List.exists_cons_of_ne_nil hnil
      rw [hp] at h
      exact encodePair_ne_nil p (List.append_eq_nil_iff.mp h).1
    rw [if_neg hne, hparams, extract_encodePairs hfits]
    have hperm := hsort.perm params.toList
    have hsorted := hsort.sorted params.toList
    cases hlist : params.toList.insertionSort NameLessEqual with
    | nil =>
      rw [hlist, List.nil_perm] at hperm
      exact absurd hperm hnil
    | cons first rest =>
      rw [hlist] at hperm hsorted
      have hplaced := RequestData.placePairs_spec rest first d.environmentMap hsorted fun p _ => by
        rw [hempty]
        exact ExtTreeMap.not_mem_empty
      have hmem : ∀ name value, (name, value) ∈ first :: rest ↔ params[name]? = some value := by
        intro name value
        rw [hperm.mem_iff, ExtTreeMap.mem_toList_iff_getElem?_eq_some]
      have hvalid : (RequestData.placePairs first rest d.environmentMap).2 = true := by
        refine hplaced.valid.mpr fun p hp q hq hname => ?_
        have hp' := (hmem p.1 p.2).mp hp
        have hq' := (hmem q.1 q.2).mp hq
        rw [hname, hq'] at hp'
        exact (Option.some.inj hp').symm
      have henv : (RequestData.placePairs first rest d.environmentMap).1 = params := by
        apply ExtTreeMap.ext_getElem?
        intro name
        apply Option.ext
        intro value
        rw [hplaced.environment hvalid name value, hempty, hmem]
        simp
      dsimp only
      rw [henv, hvalid]

/-! ### The begin record -/

theorem receiveRecord_begin {role : UInt16} {keepConn : Bool} (hi : i ≠ fcgiNullRequestId)
    (hnone : s.requestMap[(⟨c, i⟩ : FcgiRequestIdentifier)]? = none) (hroom : ¬ s.Full c) :
    s.receiveRecord c (beginRecord i role keepConn) its = (s.accept c ⟨c, i⟩ role (!keepConn), its) := by
  have hrole : UInt16.ofNat ((UInt8.ofNat (role.toNat / 256)).toNat * 256 +
      (UInt8.ofNat role.toNat).toNat) = role := by
    have hlt : role.toNat < 65536 := role.toNat_lt
    have hv : role.toNat / 256 % 256 * 256 + role.toNat % 256 = role.toNat := by omega
    simp [hv]
  have hkeep : decide ((if keepConn = true then 1 else 0 : UInt8) &&& fcgiKeepConn = 0) = !keepConn := by
    cases keepConn <;> decide
  unfold System.receiveRecord
  dsimp only
  rw [if_neg (show ¬ (beginRecord i role keepConn).fcgiId = fcgiNullRequestId from hi),
    if_pos (show (beginRecord i role keepConn).type = kFcgiBeginRequest from rfl),
    if_pos ⟨rfl, hnone⟩]
  refine congrArg (·, its) ((if_neg hroom).trans ?_)
  rw [hrole, hkeep]
  rfl

/-- The data of a request before `FCGI_PARAMS`. -/
def RequestData.begun (request : FcgiRequestDataReference) (node socket : Nat) : RequestData where
  fcgiStdin := request.stdin
  fcgiStdinComplete := !decide request.WithoutStdin
  fcgiData := request.data
  fcgiDataComplete := !decide request.WithoutData
  role := request.role
  closeConnection := !request.keepConn
  node := node
  socket := socket

theorem RequestData.completed_eq {d : RequestData} (hstdin : d.fcgiStdinComplete = true)
    (hdata : d.fcgiDataComplete = true) :
    { d with fcgiStdinComplete := true, fcgiDataComplete := true } = d := by
  cases d
  cases hstdin
  cases hdata
  rfl

/-- The end of `FCGI_PARAMS` completes the request. -/
theorem endStream_params {request : FcgiRequestDataReference} (hfits : ∀ p ∈ request.params, PairFits p)
    (node socket : Nat) :
    ((RequestData.begun request node socket).append .params (encodePairs request.params)).endStream .params =
      (.ofRequest request node socket, .complete) := by
  set d := ((RequestData.begun request node socket).append .params
    (encodePairs request.params)).complete .params with hd
  have hstdin : request.stdin = [] ∧ request.role = fcgiAuthorizer ∨ d.fcgiStdinComplete = true := by
    by_cases h : request.WithoutStdin
    · exact .inl ⟨h.2, h.1⟩
    · exact .inr (by simp [hd, RequestData.complete, RequestData.append, RequestData.begun, h])
  have hdata : request.data = [] ∧ (request.role = fcgiResponder ∨ request.role = fcgiAuthorizer) ∨
      d.fcgiDataComplete = true := by
    by_cases h : request.WithoutData
    · exact .inl ⟨h.2, h.1⟩
    · exact .inr (by simp [hd, RequestData.complete, RequestData.append, RequestData.begun, h])
  have hchecked : d.checkRequestCompletionWithConditionalUpdate =
      ({ d with fcgiStdinComplete := true, fcgiDataComplete := true }, true) := by
    unfold RequestData.checkRequestCompletionWithConditionalUpdate
    have hd' : d.fcgiData = [] ∨ d.fcgiDataComplete = true := hdata.imp And.left id
    have hs' : d.fcgiStdin = [] ∨ d.fcgiStdinComplete = true := hstdin.imp And.left id
    by_cases hresponder : d.role = fcgiResponder
    · have hne : request.role ≠ fcgiAuthorizer := by
        rw [show request.role = fcgiResponder from hresponder]
        decide
      have hcomplete : d.fcgiStdinComplete = true := hstdin.resolve_left fun h => hne h.2
      rw [if_pos hresponder, if_pos ⟨rfl, hcomplete, hd'⟩, ← hcomplete]
    · rw [if_neg hresponder]
      by_cases hauthorizer : d.role = fcgiAuthorizer
      · rw [if_pos hauthorizer, if_pos ⟨rfl, hs', hd'⟩]
      · have hcs : d.fcgiStdinComplete = true := hstdin.resolve_left fun h => hauthorizer h.2
        have hcd : d.fcgiDataComplete = true :=
          hdata.resolve_left fun h => h.2.elim hresponder hauthorizer
        rw [if_neg hauthorizer, hcs, hcd, show d.fcgiParamsComplete = true from rfl]
        exact congrArg (·, true) (RequestData.completed_eq hcs hcd).symm
  unfold RequestData.endStream
  rw [← hd, hchecked]
  dsimp only
  rw [processFcgiParams_toList (request.paramsMap.getD ∅) rfl rfl hfits]
  rfl

/-! ### All records -/

theorem accept_setData (s : System) (c : Nat) (id : FcgiRequestIdentifier) (role : UInt16)
    (closeConnection : Bool) :
    (s.accept c id role closeConnection).setData id
        { role := role, closeConnection := closeConnection, node := s.nextNode
          socket := ((s.descriptors[c]?).map (·.socket)).getD 0 } =
      s.accept c id role closeConnection := by
  simp only [System.accept, System.setData, insert_insert]

section

variable {request : FcgiRequestDataReference} {rs : List Record} (hi : i ≠ fcgiNullRequestId)
  (hrs : SentAs i request rs) (hnone : s.requestMap[(⟨c, i⟩ : FcgiRequestIdentifier)]? = none)
  (hroom : ¬ s.Full c) (hfits : ∀ p ∈ request.params, PairFits p)

include hi hrs hnone hroom hfits

variable (its) in
/-- Every record of the request but the last one, and then the last one. -/
theorem receiveRecords_parts :
    ∃ early last t, rs = early ++ [last] ∧ s.receiveRecords c early its = (t, its) ∧
      t.receiveRecord c last its = (s.withRequest c ⟨c, i⟩ request, its ++ [⟨⟨c, i⟩, s.nextNode⟩]) := by
  obtain ⟨data, stdin, params, rfl, hdata, hstdin, carried, hcarried, rfl⟩ := hrs
  set socket := ((s.descriptors[c]?).map (·.socket)).getD 0 with hsocket
  set t := s.accept c ⟨c, i⟩ request.role (!request.keepConn) with ht
  -- the data of the request at its begin and after its `FCGI_DATA`
  let d : RequestData :=
    { role := request.role, closeConnection := !request.keepConn, node := s.nextNode, socket := socket }
  let d' : RequestData :=
    { d with fcgiData := request.data, fcgiDataComplete := !decide request.WithoutData }
  let e := RequestData.begun request s.nextNode socket
  have haccepted : t.setData ⟨c, i⟩ d = t := accept_setData s c ⟨c, i⟩ request.role (!request.keepConn)
  have hd' : (if request.WithoutData then d else (d.append .data request.data).complete .data) = d' := by
    by_cases h : request.WithoutData
    · simp [d', d, h, h.2]
    · simp [d', d, h, RequestData.append, RequestData.complete]
  have he : (if request.WithoutStdin then d' else (d'.append .stdin request.stdin).complete .stdin) = e := by
    by_cases h : request.WithoutStdin
    · simp [e, RequestData.begun, d', d, h, h.2]
    · simp [e, RequestData.begun, d', d, h, RequestData.append, RequestData.complete]
  have hdata' := receiveRecords_optional (s := t) (c := c) its (d := d) hi rfl (by simp) hdata
    rfl rfl
  have hstdin' := receiveRecords_optional (s := t) (c := c) its (d := d') hi rfl (by simp) hstdin
    rfl rfl
  have hparams := receiveRecords_carried (s := t) (c := c) its (d := e) hi rfl hcarried rfl
  rw [hd', haccepted] at hdata'
  rw [he] at hstdin'
  refine ⟨beginRecord i request.role request.keepConn :: (data ++ (stdin ++ carried)),
    terminalRecord kFcgiParams i, t.setData ⟨c, i⟩ (e.append .params (encodePairs request.params)),
    by simp, ?_, ?_⟩
  · rw [receiveRecords_cons, receiveRecord_begin hi hnone hroom, receiveRecords_append,
      receiveRecords_append, hdata', hstdin', hparams]
  · have hstream : Stream.ofType (terminalRecord kFcgiParams i).type = some .params := rfl
    refine (receiveRecord_stream hi rfl hstream rfl).trans ((if_pos rfl).trans ?_)
    exact endStream_complete ⟨c, i⟩ (endStream_params hfits s.nextNode socket)

end

/-! ## Requests that are rejected -/

/-- The system once it has rejected a request. -/
def System.withoutRequest (s : System) (c : Nat) (id : FcgiRequestIdentifier) : System :=
  (s.reject c id).respond c (some s.nextNode)
    (endRequestRecord id.fcgiId (s.rejection c) exitFailure).encode

/-- Stream records of a request that is not known are ignored. -/
theorem receiveRecords_unknown (hi : i ≠ fcgiNullRequestId)
    (hnone : s.requestMap[(⟨c, i⟩ : FcgiRequestIdentifier)]? = none) {rs : List Record}
    (hrs : ∀ r ∈ rs, r.fcgiId = i ∧ r.type ≠ kFcgiBeginRequest) :
    s.receiveRecords c rs its = (s, its) := by
  induction rs with
  | nil => rfl
  | cons r rs ih =>
    obtain ⟨hid, hbegin⟩ := hrs r List.mem_cons_self
    have hignored : s.receiveRecord c r its = (s, its) := by
      unfold System.receiveRecord
      dsimp only
      rw [hid, if_neg hi, if_neg hbegin, hnone]
    rw [receiveRecords_cons, hignored]
    exact ih fun q hq => hrs q (List.mem_cons_of_mem r hq)

theorem receiveRecord_rejected {role : UInt16} {keepConn : Bool} (hi : i ≠ fcgiNullRequestId)
    (hnone : s.requestMap[(⟨c, i⟩ : FcgiRequestIdentifier)]? = none) (hfull : s.Full c) :
    s.receiveRecord c (beginRecord i role keepConn) its = (s.withoutRequest c ⟨c, i⟩, its) := by
  unfold System.receiveRecord
  dsimp only
  rw [if_neg (show ¬ (beginRecord i role keepConn).fcgiId = fcgiNullRequestId from hi),
    if_pos (show (beginRecord i role keepConn).type = kFcgiBeginRequest from rfl),
    if_pos ⟨rfl, hnone⟩]
  exact congrArg (·, its) (if_pos hfull)

/-! ## Requests that are not complete -/

/-- The sockets have sent what they had, and maybe more. -/
def System.Grows (s t : System) : Prop := ∀ k, (s.sockets k).sent <+: (t.sockets k).sent

theorem grows_refl (s : System) : s.Grows s := fun _ => List.prefix_refl _

theorem System.Grows.trans {t u : System} (h : s.Grows t) (h' : t.Grows u) : s.Grows u :=
  fun k => (h k).trans (h' k)

theorem grows_respond (s : System) (c : Nat) (origin : Option Nat) (bytes : Bytes) :
    s.Grows (s.respond c origin bytes) := by
  intro k
  unfold System.respond
  split
  · split
    · exact List.prefix_refl _
    · rename_i d _ _ _
      by_cases hk : k = d.socket
      · subst hk
        simp [System.setTransmissions, System.setSocket]
      · simp [System.setTransmissions, System.setSocket, Function.update_of_ne hk]
  · exact List.prefix_refl _

theorem grows_endRequest (s : System) (c : Nat) (it : Iterator) (d : RequestData) (appStatus : Int32) :
    s.Grows (s.endRequest c it d appStatus) := by
  have hsockets : ((s.closeLater c d).remove it.key).sockets = s.sockets := by
    unfold System.closeLater
    split <;> rfl
  refine System.Grows.trans (fun k => ?_) (grows_respond _ _ _ _)
  show (s.sockets k).sent <+: (((s.closeLater c d).remove it.key).sockets k).sent
  rw [hsockets]

variable (s c its) in
/-- A record that is not an abort takes no request from the list. -/
theorem receiveRecord_grows {r : Record} (habort : r.type ≠ kFcgiAbortRequest) :
    its <+: (s.receiveRecord c r its).2 ∧ s.Grows (s.receiveRecord c r its).1 := by
  unfold System.receiveRecord
  dsimp only
  split
  · exact ⟨List.prefix_refl _, grows_respond s c none _⟩
  split
  · split
    · refine ⟨List.prefix_refl _, ?_⟩
      unfold System.beginRequest
      split
      · split
        · exact grows_respond (s.reject c _) c _ _
        · exact grows_refl s
      · exact grows_refl s
    · exact ⟨List.prefix_refl _, grows_refl s⟩
  split
  · exact ⟨List.prefix_refl _, grows_refl s⟩
  split
  · exact ⟨List.prefix_refl _, grows_refl s⟩
  split
  · exact ⟨List.prefix_refl _, grows_refl s⟩
  split
  · unfold System.endStream
    split
    · exact ⟨List.prefix_refl _, grows_refl s⟩
    · dsimp only
      split
      · exact ⟨List.prefix_refl _, grows_refl s⟩
      · exact ⟨List.prefix_append _ _, grows_refl s⟩
      · exact ⟨List.prefix_refl _, grows_endRequest (s.setData _ _) c _ _ _⟩
  · exact ⟨List.prefix_refl _, grows_refl s⟩

variable (s c its) in
theorem receiveRecords_grows (rs : List Record) (habort : ∀ r ∈ rs, r.type ≠ kFcgiAbortRequest) :
    its <+: (s.receiveRecords c rs its).2 ∧ s.Grows (s.receiveRecords c rs its).1 := by
  induction rs generalizing s its with
  | nil => exact ⟨List.prefix_refl _, grows_refl s⟩
  | cons r rs ih =>
    obtain ⟨hits, hgrows⟩ := receiveRecord_grows c s its (habort r List.mem_cons_self)
    obtain ⟨hits', hgrows'⟩ := ih (s.receiveRecord c r its).1 (s.receiveRecord c r its).2
      fun q hq => habort q (List.mem_cons_of_mem r hq)
    exact ⟨hits.trans hits', hgrows.trans hgrows'⟩

/-- Bytes that stop inside of a list of records. -/
theorem exists_unfinished {rs : List Record} {bytes : Bytes} (h : bytes <+: encodeRecords rs)
    (hne : bytes ≠ encodeRecords rs) : ∃ rs₁ r rs₂ part, rs = rs₁ ++ r :: rs₂ ∧
      bytes = encodeRecords rs₁ ++ part ∧ part <+: r.encode ∧ part ≠ r.encode := by
  induction rs generalizing bytes with
  | nil => exact absurd (List.prefix_nil.mp h) hne
  | cons r rs ih =>
    rw [encodeRecords_cons] at h hne
    by_cases hlt : bytes.length < r.encode.length
    · have hpart := List.prefix_of_prefix_length_le h (List.prefix_append _ _) hlt.le
      exact ⟨[], r, rs, bytes, rfl, rfl, hpart, fun h => absurd (congrArg List.length h) hlt.ne⟩
    · obtain ⟨rest, rfl⟩ := List.prefix_of_prefix_length_le (List.prefix_append _ _) h (Nat.not_lt.mp hlt)
      obtain ⟨rs₁, q, rs₂, part, rfl, rfl, hpart, hshort⟩ :=
        ih ((List.prefix_append_right_inj _).mp h) fun heq => hne (heq ▸ rfl)
      exact ⟨r :: rs₁, q, rs₂, part, rfl, by rw [encodeRecords_cons, List.append_assoc], hpart, hshort⟩

/-! ## From `SendRequest` to `ReadRecords` -/

theorem SentAs.parts {request : FcgiRequestDataReference} {rs : List Record} (hrs : SentAs i request rs) :
    ∃ rest, rs = beginRecord i request.role request.keepConn :: rest ∧
      ∀ r ∈ rest, r.fcgiId = i ∧ r.Fits ∧ (Stream.ofType r.type).isSome = true := by
  obtain ⟨data, stdin, params, rfl, hdata, hstdin, hparams⟩ := hrs
  have hstream : ∀ {type : FcgiType} {bytes : Bytes} {rs : List Record},
      (Stream.ofType type).isSome = true → Terminated type i bytes rs →
      ∀ r ∈ rs, r.fcgiId = i ∧ r.Fits ∧ (Stream.ofType r.type).isSome = true := by
    rintro type bytes _ htype ⟨carried, hcarried, rfl⟩ r hr
    rcases List.mem_append.mp hr with hr | hr
    · exact ⟨hcarried.fcgiId r hr, hcarried.fits r hr, (hcarried.type r hr).symm ▸ htype⟩
    · obtain rfl := List.mem_singleton.mp hr
      exact ⟨rfl, ⟨Nat.zero_le _, Nat.zero_lt_succ 255⟩, htype⟩
  refine ⟨_, rfl, fun r hr => ?_⟩
  rcases List.mem_append.mp hr with hr | hr
  · by_cases h : request.WithoutData
    · rw [if_pos h] at hdata
      rw [hdata] at hr
      cases hr
    · rw [if_neg h] at hdata
      exact hstream rfl hdata r hr
  rcases List.mem_append.mp hr with hr | hr
  · by_cases h : request.WithoutStdin
    · rw [if_pos h] at hstdin
      rw [hstdin] at hr
      cases hr
    · rw [if_neg h] at hstdin
      exact hstream rfl hstdin r hr
  · exact hstream rfl hparams r hr

theorem SentAs.fits {request : FcgiRequestDataReference} {rs : List Record} (hrs : SentAs i request rs) :
    (∀ r ∈ rs, r.Fits) ∧ ∀ r ∈ rs, r.type ≠ kFcgiAbortRequest := by
  obtain ⟨rest, rfl, hrest⟩ := SentAs.parts hrs
  constructor
  · intro r hr
    rcases List.mem_cons.mp hr with rfl | hr
    · exact ⟨Nat.le_of_lt (by decide : 8 < kMaxRecordContentByteLength), Nat.zero_lt_succ 255⟩
    · exact (hrest r hr).2.1
  · intro r hr
    rcases List.mem_cons.mp hr with rfl | hr
    · exact (by decide : kFcgiBeginRequest ≠ kFcgiAbortRequest)
    · obtain ⟨st, hst⟩ := Option.isSome_iff_exists.mp (hrest r hr).2.2
      exact (stream_ne_begin hst).2

section

variable {request : FcgiRequestDataReference} {rs : List Record} {reads : List ReadResult} {bytes : Bytes}
  (hs : s.Serves c []) (hstatus : (s.recordStatusMap[c]?).getD {} = {}) (hi : i ≠ fcgiNullRequestId)
  (hrs : SentAs i request rs) (hnone : s.requestMap[(⟨c, i⟩ : FcgiRequestIdentifier)]? = none)

include hs hstatus hi hrs hnone

/-- All the bytes of a request that is accepted. -/
theorem readRecords_request (hroom : ¬ s.Full c) (hfits : ∀ p ∈ request.params, PairFits p)
    (hreads : Gives reads (encodeRecords rs)) :
    Program.Completes Faultless (fun its t => its = [⟨⟨c, i⟩, s.nextNode⟩] ∧
        t = (s.withRequest c ⟨c, i⟩ request).keeping none (s.recordStatusMap.insert c {}))
      (readRecords c reads) s := by
  have hfit := (SentAs.fits hrs).1
  obtain ⟨early, last, t, rfl, hearly, hlast⟩ := receiveRecords_parts (s := s) [] hi hrs hnone hroom hfits
  have hall : s.receiveRecords c (early ++ [last]) [] =
      (s.withRequest c ⟨c, i⟩ request, [⟨⟨c, i⟩, s.nextNode⟩]) := by
    rw [receiveRecords_append, hearly]
    exact hlast
  have hcompletes := completes_records hs hstatus hfit hreads
  rwa [hall] at hcompletes

/-- All the bytes of a request that is rejected. -/
theorem readRecords_rejected (hfull : s.Full c) (hreads : Gives reads (encodeRecords rs)) :
    Program.Completes Faultless (fun its t => its = [] ∧
        t = (s.withoutRequest c ⟨c, i⟩).keeping none (s.recordStatusMap.insert c {}))
      (readRecords c reads) s := by
  obtain ⟨rest, hparts, hrest⟩ := SentAs.parts hrs
  have hnone' : (s.withoutRequest c ⟨c, i⟩).requestMap[(⟨c, i⟩ : FcgiRequestIdentifier)]? = none := by
    rw [System.withoutRequest, requestMap_respond]
    exact hnone
  have hall : s.receiveRecords c rs [] = (s.withoutRequest c ⟨c, i⟩, []) := by
    rw [hparts, receiveRecords_cons, receiveRecord_rejected hi hnone hfull]
    refine receiveRecords_unknown hi hnone' fun r hr => ⟨(hrest r hr).1, ?_⟩
    obtain ⟨st, hst⟩ := Option.isSome_iff_exists.mp (hrest r hr).2.2
    exact (stream_ne_begin hst).1
  have hcompletes := completes_records hs hstatus (SentAs.fits hrs).1 hreads
  rwa [hall] at hcompletes

/-- Some of the bytes of a request that is accepted. -/
theorem readRecords_unfinished (hroom : ¬ s.Full c) (hfits : ∀ p ∈ request.params, PairFits p)
    (hreads : Gives reads bytes) (hpart : bytes <+: encodeRecords rs) (hne : bytes ≠ encodeRecords rs) :
    Program.Completes Faultless
      (fun its t => its = [] ∧ ∀ k, (t.sockets k).sent = (s.sockets k).sent) (readRecords c reads) s := by
  obtain ⟨hallFit, habort⟩ := SentAs.fits hrs
  obtain ⟨early, last, t, hparts, hearly, hlast⟩ := receiveRecords_parts (s := s) [] hi hrs hnone hroom hfits
  obtain ⟨rs₁, r, rs₂, part, hsplit, rfl, hpart, hshort⟩ := exists_unfinished hpart hne
  have hsplit' : early ++ [last] = rs₁ ++ r :: rs₂ := hparts.symm.trans hsplit
  obtain ⟨rs₃, rfl⟩ : rs₁ <+: early := by
    have hlengths := congrArg List.length hsplit'
    simp only [List.length_append, List.length_cons, List.length_nil] at hlengths
    refine List.prefix_of_prefix_length_le ⟨_, hsplit'.symm⟩ (List.prefix_append _ _) ?_
    omega
  set x := s.receiveRecords c rs₁ [] with hx
  rw [receiveRecords_append, ← hx] at hearly
  have habort' : ∀ q ∈ rs₁ ++ rs₃ ++ [last], q.type ≠ kFcgiAbortRequest := hparts ▸ habort
  have hfit : ∀ q ∈ rs₁, q.Fits := fun q hq => hallFit q (by simp [hsplit, hq])
  -- what is reported and sent only grows, and in the end nothing was sent
  obtain ⟨-, hfirst⟩ := receiveRecords_grows c s [] rs₁
    fun q hq => habort' q (by simp [hq])
  obtain ⟨hits, hsecond⟩ := receiveRecords_grows c x.1 x.2 rs₃
    fun q hq => habort' q (by simp [hq])
  have hlast' := (receiveRecord_grows c t [] (habort' last (by simp))).2
  rw [hearly] at hits hsecond
  rw [hlast] at hlast'
  have hnil : x.2 = [] := List.prefix_nil.mp hits
  have hsame : ∀ k, (x.1.sockets k).sent = (s.sockets k).sent := by
    intro k
    exact ((hsecond.trans hlast') k).eq_of_length_le (hfirst k).length_le
  obtain ⟨hcompleted, hsockets⟩ :=
    foldl_unfinished (serves_receiveRecords hs hfit) (hallFit r (by simp [hsplit])) hpart hshort
  refine Program.completes_mono ?_ (completes_readRecords (waiting_reception hs hstatus) hreads)
  intro its u h
  rw [receive_eq, foldl_receiveRecords hs hfit hstatus, ← hx] at h
  obtain ⟨rfl, rfl⟩ := Prod.mk.inj h
  refine ⟨hcompleted.trans hnil, fun k => ?_⟩
  rw [← hsame k, ← hsockets]
  rfl

end

section

variable {reply : Client.SystemReply} {u u' : Client.TestFcgiClientInterface} {k : Nat}
  {request : FcgiRequestDataReference} {id : FcgiRequestIdentifier}

/-- The bytes that a successful call of `SendRequest` writes, in any chunks, make
an interface that accepts the request report it, once and with its last byte,
with the role, the environment, the input and the data that were sent. -/
theorem request_transferred (hsend : Client.sendRequest reply k request u = some (.ok (some id), u'))
    (hl : u.limits.Posix) (hpairs : ∀ p ∈ request.params, Encoding.Encodable u.limits.sizeMax p) :
    ∃ bytes, (u'.sockets k).sent = (u.sockets k).sent ++ bytes ∧
      ∀ (s : System) (c : Nat), s.Serves c [] → (s.recordStatusMap[c]?).getD {} = {} →
        s.requestMap[(⟨c, id.fcgiId⟩ : FcgiRequestIdentifier)]? = none → ¬ s.Full c →
        ∀ reads part, Gives reads part → part <+: bytes →
          Program.Completes Faultless (fun its t =>
              if part = bytes then
                its = [⟨⟨c, id.fcgiId⟩, s.nextNode⟩] ∧
                t = (s.withRequest c ⟨c, id.fcgiId⟩ request).keeping none (s.recordStatusMap.insert c {})
              else its = [] ∧ ∀ k, (t.sockets k).sent = (s.sockets k).sent)
            (readRecords c reads) s := by
  obtain ⟨-, hid, rs, hrs, hsent⟩ := (Client.delivered_sendRequest hl hpairs).of_ok hsend id rfl
  have hfits : ∀ p ∈ request.params, PairFits p := fun p hp => (hpairs p hp).1
  refine ⟨encodeRecords rs, hsent, fun s c hs hstatus hnone hroom reads part hreads hpart => ?_⟩
  by_cases hall : part = encodeRecords rs
  · subst hall
    simp only [if_true]
    exact readRecords_request hs hstatus hid hrs hnone hroom hfits hreads
  · simp only [hall, if_false]
    exact readRecords_unfinished hs hstatus hid hrs hnone hroom hfits hreads hpart hall

/-- A Responder request with a variable and an input. -/
def postRequest : FcgiRequestDataReference where
  role := fcgiResponder
  keepConn := true
  paramsMap := some (ExtTreeMap.ofList [(([81] : Bytes), ([49] : Bytes))])
  stdin := [97, 98, 99]

/-- The begin record, two batches of input, one of variables and the last header. -/
def postReply : Client.SystemReply :=
  { batches := [{ tape := [.ready, .wrote 16] }, { tape := [.wrote 16] }, { tape := [.wrote 8] },
      { tape := [.wrote 16] }, { tape := [.ready, .wrote 8] }] }

/-- A client has sent its request on a new connection. -/
theorem exists_sent : ∃ u u' : Client.TestFcgiClientInterface, u.limits = {} ∧
    (u.sockets 5).sent = [] ∧ (u'.sockets 5).sent.length = 64 ∧
    Client.sendRequest postReply 5 postRequest u = some (.ok (some ⟨5, 1⟩), u') := by
  have hrun : ((Client.step {} Client.connectReply .connect).bind fun u =>
      (Client.sendRequest postReply 5 postRequest u).map fun r =>
        (u.limits, (u.sockets 5).sent, (r.2.sockets 5).sent.length, r.1.toOption)) =
      some ({}, [], 64, some (some ⟨5, 1⟩)) := by
    decide +kernel
  obtain ⟨u, -, hrest⟩ := Option.bind_eq_some_iff.mp hrun
  obtain ⟨⟨r, u'⟩, hr, hfacts⟩ := Option.map_eq_some_iff.mp hrest
  simp only [Prod.mk.injEq] at hfacts
  obtain ⟨hlimits, hnothing, hlength, hid⟩ := hfacts
  cases r with
  | error e => cases hid
  | ok id =>
    rw [Option.some.inj hid] at hr
    exact ⟨u, u', hlimits, hnothing, hlength, hr⟩

theorem posix_default : ({} : SystemLimits).Posix := by
  constructor
  · decide
  · decide

theorem encodable_postRequest :
    ∀ p ∈ postRequest.params, Encoding.Encodable ({} : SystemLimits).sizeMax p := by
  have hparams : postRequest.params = [([81], [49])] := by decide +kernel
  rw [hparams]
  intro p hp
  obtain rfl := List.mem_singleton.mp hp
  exact ⟨⟨by decide, by decide⟩, by decide⟩

/-- The request arrives in two reads; its first 20 bytes alone report nothing. -/
theorem request_transferred_postRequest : ∃ (u u' : Client.TestFcgiClientInterface) (bytes : Bytes),
    Client.sendRequest postReply 5 postRequest u = some (.ok (some ⟨5, 1⟩), u') ∧
    (u'.sockets 5).sent = bytes ∧
    Program.Completes Faultless (fun its t => its = [⟨⟨5, 1⟩, 0⟩] ∧
        (t.requestMap[(⟨5, 1⟩ : FcgiRequestIdentifier)]?).map
          (fun d => (d.role, d.environmentMap.toList, d.fcgiStdin)) =
            some (fcgiResponder, [([81], [49])], [97, 98, 99]))
      (readRecords 5 [.filled (bytes.take 20), .drained (bytes.drop 20)]) accepted.system ∧
    Program.Completes Faultless (fun its _ => its = [])
      (readRecords 5 [.drained (bytes.take 20)]) accepted.system := by
  obtain ⟨u, u', hlimits, hnothing, hlength, hsend⟩ := exists_sent
  obtain ⟨bytes, hsent, hreads⟩ := request_transferred hsend (hlimits ▸ posix_default)
    (hlimits ▸ encodable_postRequest)
  rw [hnothing, List.nil_append] at hsent
  have hcompletes := hreads accepted.system 5 serves_accepted status_accepted (requestMap_accepted 1)
    (by decide +kernel)
  have hgives := Gives.filled (bytes.take 20) (.drained (bytes.drop 20) [])
  rw [List.take_append_drop] at hgives
  have hwhole := hcompletes _ bytes hgives (List.prefix_refl _)
  have hpart := hcompletes [.drained (bytes.take 20)] (bytes.take 20) (.drained _ [])
    (List.take_prefix 20 bytes)
  refine ⟨u, u', bytes, hsend, hsent, Program.completes_mono ?_ hwhole, Program.completes_mono ?_ hpart⟩
  · intro its t h
    rw [if_pos rfl] at h
    obtain ⟨rfl, rfl⟩ := h
    exact ⟨by decide +kernel, by decide +kernel⟩
  · intro its t h
    have hne : bytes.take 20 ≠ bytes := by
      intro heq
      have hle := congrArg List.length heq
      rw [← hsent, List.length_take, hlength] at hle
      cases hle
    rw [if_neg hne] at h
    exact h.1

/-- The same bytes make an interface that is full or overloaded send one
`FCGI_END_REQUEST` record and change nothing else. -/
theorem request_refused (hsend : Client.sendRequest reply k request u = some (.ok (some id), u'))
    (hl : u.limits.Posix) (hpairs : ∀ p ∈ request.params, Encoding.Encodable u.limits.sizeMax p) :
    ∃ bytes, (u'.sockets k).sent = (u.sockets k).sent ++ bytes ∧
      ∀ (s : System) (c : Nat), s.Serves c [] → (s.recordStatusMap[c]?).getD {} = {} →
        s.requestMap[(⟨c, id.fcgiId⟩ : FcgiRequestIdentifier)]? = none → s.Full c →
        ∀ reads, Gives reads bytes →
          Program.Completes Faultless (fun its t => its = [] ∧
              t = (s.withoutRequest c ⟨c, id.fcgiId⟩).keeping none (s.recordStatusMap.insert c {}))
            (readRecords c reads) s := by
  obtain ⟨-, hid, rs, hrs, hsent⟩ := (Client.delivered_sendRequest hl hpairs).of_ok hsend id rfl
  exact ⟨encodeRecords rs, hsent, fun s c hs hstatus hnone hfull reads hreads =>
    readRecords_rejected hs hstatus hid hrs hnone hfull hreads⟩

/-- The application is overloaded when the request comes in, in two reads. -/
theorem request_refused_postRequest : ∃ (u u' : Client.TestFcgiClientInterface) (bytes : Bytes),
    Client.sendRequest postReply 5 postRequest u = some (.ok (some ⟨5, 1⟩), u') ∧
    (u'.sockets 5).sent = bytes ∧
    Program.Completes Faultless (fun its t => its = [] ∧ t.requestsOf 5 = [] ∧
        (t.sockets 0).sent = (endRequestRecord 1 fcgiOverloaded exitFailure).encode)
      (readRecords 5 [.filled (bytes.take 20), .drained (bytes.drop 20)])
      { accepted.system with applicationOverload := true } := by
  obtain ⟨u, u', hlimits, hnothing, -, hsend⟩ := exists_sent
  obtain ⟨bytes, hsent, hreads⟩ := request_refused hsend (hlimits ▸ posix_default)
    (hlimits ▸ encodable_postRequest)
  rw [hnothing, List.nil_append] at hsent
  refine ⟨u, u', bytes, hsend, hsent, ?_⟩
  have hserves : ({ accepted.system with applicationOverload := true } : System).Serves 5 [] :=
    serves_accepted.of_map ⟨serves_accepted.good, serves_accepted.socket, serves_accepted.count⟩ rfl
  have hgives := Gives.filled (bytes.take 20) (.drained (bytes.drop 20) [])
  rw [List.take_append_drop] at hgives
  refine Program.completes_mono ?_ (hreads _ 5 hserves status_accepted (requestMap_accepted 1) (.inr rfl)
    _ hgives)
  rintro its t ⟨rfl, rfl⟩
  exact ⟨rfl, by decide +kernel, by decide +kernel⟩

end

end AsComponents.Server
