import AsComponents.ClientRequests
import AsComponents.EncodingRecords

/-! The records that a successful call of `SendRequest` writes. -/

namespace AsComponents.Client

open Protocol NameValue SocketFunctions AsComponents.Partition Encoding Std Critical

/-! ## The records of a request -/

/-- Records of one type with these bytes, none of them empty. -/
structure CarriedBy (type : FcgiType) (fcgiId : UInt16) (bytes : Bytes) (rs : List Record) : Prop where
  type : ∀ r ∈ rs, r.type = type
  fcgiId : ∀ r ∈ rs, r.fcgiId = fcgiId
  fits : ∀ r ∈ rs, r.Fits
  nonempty : ∀ r ∈ rs, r.content ≠ []
  content : rs.flatMap Record.content = bytes

/-- The record that ends a stream. -/
def terminalRecord (type : FcgiType) (fcgiId : UInt16) : Record := ⟨type, fcgiId, [], []⟩

/-- A stream with its end. -/
def Terminated (type : FcgiType) (fcgiId : UInt16) (bytes : Bytes) (rs : List Record) : Prop :=
  ∃ carried, CarriedBy type fcgiId bytes carried ∧ rs = carried ++ [terminalRecord type fcgiId]

def beginRecord (fcgiId role : UInt16) (keepConn : Bool) : Record where
  type := kFcgiBeginRequest
  fcgiId := fcgiId
  content := [UInt8.ofNat (role.toNat / 256), UInt8.ofNat role.toNat, if keepConn then 1 else 0,
    0, 0, 0, 0, 0]
  padding := []

/-- The pairs of `FCGI_PARAMS` in the order in which they are sent. -/
def FcgiRequestDataReference.params (request : FcgiRequestDataReference) : List ByteSeqPair :=
  (request.paramsMap.getD ∅).toList

/-- `FCGI_DATA` is left out. -/
def FcgiRequestDataReference.WithoutData (request : FcgiRequestDataReference) : Prop :=
  (request.role = fcgiResponder ∨ request.role = fcgiAuthorizer) ∧ request.data = []

instance (request : FcgiRequestDataReference) : Decidable request.WithoutData :=
  inferInstanceAs (Decidable (_ ∧ _))

/-- `FCGI_STDIN` is left out. -/
def FcgiRequestDataReference.WithoutStdin (request : FcgiRequestDataReference) : Prop :=
  request.role = fcgiAuthorizer ∧ request.stdin = []

instance (request : FcgiRequestDataReference) : Decidable request.WithoutStdin :=
  inferInstanceAs (Decidable (_ ∧ _))

/-- The records of a request, in the order in which they are sent. -/
def SentAs (fcgiId : UInt16) (request : FcgiRequestDataReference) (rs : List Record) : Prop :=
  ∃ data stdin params,
    rs = beginRecord fcgiId request.role request.keepConn :: (data ++ (stdin ++ params)) ∧
    (if request.WithoutData then data = [] else Terminated kFcgiData fcgiId request.data data) ∧
    (if request.WithoutStdin then stdin = [] else Terminated kFcgiStdin fcgiId request.stdin stdin) ∧
    Terminated kFcgiParams fcgiId (encodePairs request.params) params

/-! ## The parts of `SendRequest` -/

/-- When `x` succeeds, it has written such records on connection `c`. -/
def Delivers {α : Type} (l : SystemLimits) (c : Nat) (P : List Record → Prop)
    (x : Operation (Option α)) : Prop :=
  ∀ s, s.limits = l →
    After x s (fun r t => r.isSome → Sends c s t ∧ ∃ rs, P rs ∧
      (t.sockets c).sent = (s.sockets c).sent ++ encodeRecords rs) fun _ _ => True

section

variable {α β : Type} {reply : SystemReply} {c : Nat} {l : SystemLimits} {s t : TestFcgiClientInterface}
  {P Q : List Record → Prop}

theorem Sends.limits (h : Sends c s t) : t.limits = s.limits := by rw [h.frame]

/-- A part that fails writes nothing that counts. -/
theorem after_fails {x : Operation Unit} {R : Option α → TestFcgiClientInterface → Prop}
    (hR : ∀ t, R none t) :
    After (do x; return none : Operation (Option α)) s R fun _ _ => True := by
  rw [after_bind]
  exact (after_true x s).mono (fun _ t _ => hR t) fun _ _ h => h

theorem Delivers.nothing (a : α) (hP : P []) : Delivers l c P (pure (some a)) := by
  intro s _ _
  exact ⟨.refl c s, [], hP, by simp⟩

theorem Delivers.ite {p : Prop} {_ : Decidable p} {x y : Operation (Option α)}
    (hx : p → Delivers l c P x) (hy : ¬ p → Delivers l c P y) :
    Delivers l c P (if p then x else y) := by
  by_cases hp : p
  · rw [if_pos hp]
    exact hx hp
  · rw [if_neg hp]
    exact hy hp

theorem Delivers.mono {x : Operation (Option α)} (hx : Delivers l c P x) (h : ∀ rs, P rs → Q rs) :
    Delivers l c Q x := by
  intro s hs
  refine (hx s hs).mono (fun r t ht hsome => ?_) fun _ _ h => h
  obtain ⟨hsends, rs, hrs, hsent⟩ := ht hsome
  exact ⟨hsends, rs, h rs hrs, hsent⟩

/-- What follows a part that succeeded. -/
theorem Delivers.after_unlessFailed {x : Operation (Option α)} {f : α → Operation (Option β)}
    {R : Option β → TestFcgiClientInterface → Prop} (hx : Delivers l c P x) (hs : s.limits = l)
    (hnone : ∀ t, R none t)
    (hf : ∀ a t rs, t.limits = l → P rs →
      (t.sockets c).sent = (s.sockets c).sent ++ encodeRecords rs → After (f a) t R fun _ _ => True) :
    After (unlessFailed x f) s R fun _ _ => True := by
  rw [Client.unlessFailed, after_bind]
  refine (hx s hs).mono (fun r t ht => ?_) fun _ _ h => h
  cases r with
  | none => exact hnone t
  | some a =>
    obtain ⟨hsends, rs, hrs, hsent⟩ := ht rfl
    exact hf a t rs (hsends.limits.trans hs) hrs hsent

theorem after_recovered (fault : Option Fault) :
    After (recoverFault reply c fault) s (fun _ t => t = s) fun _ _ => True := by
  unfold recoverFault
  split
  · rfl
  · rw [after_bind]
    exact (after_true _ s).mono (fun _ _ _ => trivial) fun _ _ h => h
  · trivial

/-- When no bytes remain, they all were sent. -/
theorem after_scatterGatherSocketWrite_sent {batch : Batch} {iovec : List Bytes} {m : Nat}
    (hm : iovec.flatten.length = m) :
    After (scatterGatherSocketWrite batch c iovec m) s
      (fun r t => Sends c s t ∧
        (r.1 = 0 → (t.sockets c).sent = (s.sockets c).sent ++ iovec.flatten)) fun _ _ => True := by
  rw [scatterGatherSocketWrite, after_bind, after_get]
  split
  · trivial
  · rename_i w hw
    rw [after_bind, after_modify, after_pure]
    refine ⟨.setSocket (prefix_of_scatterGatherSocketWrite hw), fun hzero => ?_⟩
    have haccepted := (scatterGatherSocketWrite_accepted hm hw).1.sent_eq
    have hunwritten : w.unwritten = [] := if_pos hzero
    rw [hunwritten, List.length_nil, Nat.sub_zero, List.take_length] at haccepted
    simpa only [TestFcgiClientInterface.setSocket, Function.update_self] using haccepted

/-- A record is written with `WriteOnSelect`, and a part that fails returns
nothing. -/
theorem after_record {batch : Batch} {r : Record} {fails : Nat × Errno → Operation (Option α)} (a : α)
    (hfails : ∀ w t, After (fails w) t (fun b _ => b = none) fun _ _ => True) :
    After (do
      let w ← writeOnSelect batch c r.encode
      if w.1 < r.encode.length then fails w else return some a) s
      (fun b t => b.isSome → Sends c s t ∧ (t.sockets c).sent = (s.sockets c).sent ++ encodeRecords [r])
      fun _ _ => True := by
  rw [after_bind]
  refine after_writeOnSelect.mono (fun w t ht => ?_) fun _ _ h => h
  rw [after_ite]
  refine ⟨fun _ => (hfails w t).mono ?_ fun _ _ h => h, fun hall _ => ⟨ht.1, ?_⟩⟩
  · rintro _ _ rfl hsome
    cases hsome
  · rw [ht.2.1, List.take_of_length_le (Nat.not_lt.mp hall), encodeRecords_cons, encodeRecords_nil,
      List.append_nil]

/-! ### Streams -/

theorem fits_alignedRecord (type : FcgiType) (fcgiId : UInt16) {content : Bytes}
    (h : content.length ≤ maxAlignedContentLength) : (alignedRecord type fcgiId content).Fits := by
  have hpadding := paddingFor_lt content.length
  refine ⟨h.trans (by decide), ?_⟩
  rw [alignedRecord, List.length_replicate]
  omega

theorem carriedBy_aligned (type : FcgiType) (fcgiId : UInt16) {contents : List Bytes}
    (h : ∀ content ∈ contents, content ≠ [] ∧ content.length ≤ maxAlignedContentLength) :
    CarriedBy type fcgiId contents.flatten (contents.map (alignedRecord type fcgiId)) where
  type := by simp [alignedRecord]
  fcgiId := by simp [alignedRecord]
  fits := by
    simp only [List.mem_map]
    rintro _ ⟨content, hcontent, rfl⟩
    exact fits_alignedRecord type fcgiId (h content hcontent).2
  nonempty := by
    simp only [List.mem_map]
    rintro _ ⟨content, hcontent, rfl⟩
    exact (h content hcontent).1
  content := by
    rw [List.flatMap_map]
    exact List.flatMap_id

theorem CarriedBy.append {type : FcgiType} {fcgiId : UInt16} {bytes bytes' : Bytes}
    {rs rs' : List Record} (h : CarriedBy type fcgiId bytes rs) (h' : CarriedBy type fcgiId bytes' rs') :
    CarriedBy type fcgiId (bytes ++ bytes') (rs ++ rs') where
  type r hr := (List.mem_append.mp hr).elim (h.type r) (h'.type r)
  fcgiId r hr := (List.mem_append.mp hr).elim (h.fcgiId r) (h'.fcgiId r)
  fits r hr := (List.mem_append.mp hr).elim (h.fits r) (h'.fits r)
  nonempty r hr := (List.mem_append.mp hr).elim (h.nonempty r) (h'.nonempty r)
  content := by rw [List.flatMap_append, h.content, h'.content]

theorem Terminated.of_append {type : FcgiType} {fcgiId : UInt16} {bytes bytes' : Bytes}
    {rs rs' : List Record} (h : CarriedBy type fcgiId bytes rs) (h' : Terminated type fcgiId bytes' rs') :
    Terminated type fcgiId (bytes ++ bytes') (rs ++ rs') := by
  obtain ⟨carried, hcarried, rfl⟩ := h'
  exact ⟨rs ++ carried, h.append hcarried, (List.append_assoc ..).symm⟩

theorem delivers_dataAndStdinWriter (type : FcgiType) (newId : UInt16) (bytes : Bytes)
    (batches : List Batch) :
    Delivers l c (Terminated type newId bytes) (dataAndStdinWriter reply c type newId bytes batches) := by
  induction batches generalizing bytes with
  | nil => exact fun s _ => trivial
  | cons batch batches ih =>
    intro s hs
    unfold dataAndStdinWriter
    rw [after_bind]
    refine (after_recovered _).mono (fun _ t ht => ?_) fun _ _ h => h
    subst ht
    rw [after_bind, after_get]
    split
    · trivial
    · rename_i p hp
      by_cases hempty : bytes = []
      · subst hempty
        obtain rfl := Option.some.inj hp
        rw [after_bind]
        refine (after_scatterGatherSocketWrite_sent rfl).mono (fun r u hu => ?_) fun _ _ h => h
        rw [after_ite]
        refine ⟨fun _ => after_fails fun _ h => absurd h Bool.false_ne_true, fun hzero _ =>
          ⟨hu.1, [terminalRecord type newId], ⟨[], ?_, rfl⟩, hu.2 (Decidable.not_not.mp hzero)⟩⟩
        exact ⟨by simp, by simp, by simp, by simp, rfl⟩
      · obtain ⟨contents, hcontents, hflat, hrest, hiovec, hnumber⟩ :=
          partitionByteSequence_spec hempty hp
        rw [after_bind]
        refine (after_scatterGatherSocketWrite_sent hnumber.symm).mono (fun r u hu => ?_) fun _ _ h => h
        rw [after_ite]
        refine ⟨fun _ => after_fails fun _ h => absurd h Bool.false_ne_true, fun hzero => ?_⟩
        rw [after_ite]
        refine ⟨fun h => absurd h hempty, fun _ => ?_⟩
        refine (ih p.rest u (hu.1.limits.trans hs)).mono (fun r v hv hsome => ?_) fun _ _ h => h
        obtain ⟨hsends, rs, hrs, hsent⟩ := hv hsome
        have hcarried := carriedBy_aligned type newId hcontents
        refine ⟨hu.1.trans hsends, contents.map (alignedRecord type newId) ++ rs, ?_, ?_⟩
        · rw [← List.take_append_drop t.limits.minMax bytes, ← hflat, ← hrest]
          exact .of_append hcarried hrs
        · rw [hsent, hu.2 (Decidable.not_not.mp hzero), hiovec, encodeRecords_append,
            List.append_assoc]

theorem delivers_paramsWriter (hl : l.Posix) (newId : UInt16) {pairs : List ByteSeqPair} {offset : Nat}
    (hne : pairs ≠ []) (hpairs : ∀ p ∈ pairs, Encodable l.sizeMax p) (hwithin : Within offset pairs)
    (batches : List Batch) :
    Delivers l c (CarriedBy kFcgiParams newId ((encodePairs pairs).drop offset))
      (paramsWriter reply c newId pairs offset batches) := by
  induction batches generalizing pairs offset with
  | nil => exact fun s _ => trivial
  | cons batch batches ih =>
    intro s hs
    obtain ⟨hok, contents, hcarries, -, hconsumed, -⟩ :=
      encodeNameValuePairs_spec kFcgiParams newId hl hne hpairs hwithin
    have hcarried := carriedBy_aligned kFcgiParams newId hcarries.bounds
    unfold paramsWriter
    rw [after_bind]
    refine (after_recovered _).mono (fun _ t ht => ?_) fun _ _ h => h
    subst ht
    rw [after_bind, after_get, hs]
    dsimp only
    rw [hok, if_neg (by decide), after_bind]
    refine (after_scatterGatherSocketWrite_sent (numberToWrite_eq ..).symm).mono (fun r u hu => ?_)
      fun _ _ h => h
    rw [after_ite]
    refine ⟨fun _ => after_fails fun _ h => absurd h Bool.false_ne_true, fun hzero => ?_⟩
    have hsent := hu.2 (Decidable.not_not.mp hzero)
    rw [hcarries.records] at hsent
    rw [after_ite, hconsumed.split]
    refine ⟨fun hdone _ => ⟨hu.1, _, ?_, hsent⟩, fun hmore => ?_⟩
    · rw [hconsumed.finished hdone, hdone]
      simpa [encodePairs] using hcarried
    · refine (ih hmore (fun p hp => hpairs p (hconsumed.suffix.subset hp)) hconsumed.within u
        (hu.1.limits.trans hs)).mono (fun r v hv hsome => ?_) fun _ _ h => h
      obtain ⟨hsends, rs, hrs, hsent'⟩ := hv hsome
      refine ⟨hu.1.trans hsends, _, hcarried.append hrs, ?_⟩
      rw [hsent', hsent, encodeRecords_append, List.append_assoc]

/-! ### The whole request -/

variable {newId : UInt16} {request : FcgiRequestDataReference}

theorem encode_beginRecord (fcgiId role : UInt16) (keepConn : Bool) :
    (beginRecord fcgiId role keepConn).encode = populateBeginRequestRecord fcgiId role keepConn := by
  simp [beginRecord, Record.encode, Record.header, populateBeginRequestRecord, fcgiHeaderLen]

theorem delivers_sendBeginRecord (batches : List Batch) :
    Delivers l c (fun rs => rs = [beginRecord newId request.role request.keepConn])
      (sendBeginRecord reply c newId request batches) := by
  cases batches with
  | nil => exact fun s _ => trivial
  | cons batch batches =>
    intro s _
    unfold sendBeginRecord
    dsimp only
    rw [← encode_beginRecord]
    refine (after_record batches fun w t => ?_).mono (fun r t ht hsome => ?_) fun _ _ h => h
    · rw [after_ite]
      refine ⟨fun _ => ?_, fun _ => after_fails fun _ => rfl⟩
      rw [after_bind]
      exact (after_true _ t).mono (fun _ _ _ => after_fails fun _ => rfl) fun _ _ h => h
    · exact ⟨(ht hsome).1, _, rfl, (ht hsome).2⟩

theorem delivers_sendData (batches : List Batch) :
    Delivers l c (fun rs => if request.WithoutData then rs = []
        else Terminated kFcgiData newId request.data rs)
      (sendData reply c newId request batches) := by
  refine .ite (fun h => .nothing batches ?_) fun h =>
    Delivers.mono (delivers_dataAndStdinWriter _ _ _ _) fun rs hrs => ?_
  · rw [if_pos (show request.WithoutData from h)]
  · rw [if_neg (show ¬ request.WithoutData from h)]
    exact hrs

theorem delivers_sendStdin (batches : List Batch) :
    Delivers l c (fun rs => if request.WithoutStdin then rs = []
        else Terminated kFcgiStdin newId request.stdin rs)
      (sendStdin reply c newId request batches) := by
  refine .ite (fun h => .nothing batches ?_) fun h =>
    Delivers.mono (delivers_dataAndStdinWriter _ _ _ _) fun rs hrs => ?_
  · rw [if_pos (show request.WithoutStdin from h)]
  · rw [if_neg (show ¬ request.WithoutStdin from h)]
    exact hrs

theorem delivers_sendParams (hl : l.Posix) (hpairs : ∀ p ∈ request.params, Encodable l.sizeMax p)
    (batches : List Batch) :
    Delivers l c (CarriedBy kFcgiParams newId (encodePairs request.params))
      (sendParams reply c newId request batches) := by
  have hnone : CarriedBy kFcgiParams newId [] [] := ⟨by simp, by simp, by simp, by simp, rfl⟩
  unfold FcgiRequestDataReference.params at hpairs ⊢
  unfold sendParams
  cases hparams : request.paramsMap with
  | none => exact .nothing batches hnone
  | some params =>
    rw [hparams, Option.getD_some] at hpairs
    refine .ite (fun hempty => .nothing batches ?_) fun hne => ?_
    · rw [Option.getD_some, hempty]
      exact hnone
    · exact delivers_paramsWriter hl newId hne hpairs (within_zero _) batches

theorem delivers_sendTerminalParams (batches : List Batch) :
    Delivers l c (fun rs => rs = [terminalRecord kFcgiParams newId])
      (sendTerminalParams reply c newId batches) := by
  cases batches with
  | nil => exact fun s _ => trivial
  | cons batch batches =>
    intro s _
    refine (after_record (r := terminalRecord kFcgiParams newId) batches fun w t => ?_).mono
      (fun r t ht hsome => ?_) fun _ _ h => h
    · exact after_fails fun _ => rfl
    · exact ⟨(ht hsome).1, _, rfl, (ht hsome).2⟩

/-- What the call means for the connection when it returns an identifier. -/
def Delivered (request : FcgiRequestDataReference) (c : Nat) (s : TestFcgiClientInterface)
    (r : Option FcgiRequestIdentifier) (t : TestFcgiClientInterface) : Prop :=
  ∀ id, r = some id → id.descriptor = c ∧ id.fcgiId ≠ 0 ∧ ∃ rs, SentAs id.fcgiId request rs ∧
    (t.sockets c).sent = (s.sockets c).sent ++ encodeRecords rs

theorem Delivered.none : Delivered request c s none t := by
  rintro id ⟨⟩

/-- The body of the `try` block of `SendRequest`. -/
theorem delivered_sendRecords (hid : newId ≠ 0) (hl : l.Posix)
    (hpairs : ∀ p ∈ request.params, Encodable l.sizeMax p) (hs : s.limits = l) :
    After (sendRecords reply c newId request) s (Delivered request c s) fun _ _ => True := by
  unfold sendRecords
  refine (delivers_sendBeginRecord _).after_unlessFailed hs (fun _ => .none) fun _ t _ ht hbegin hsent => ?_
  refine (delivers_sendData _).after_unlessFailed ht (fun _ => .none) fun _ t data ht hdata hsent' => ?_
  refine (delivers_sendStdin _).after_unlessFailed ht (fun _ => .none) fun _ t stdin ht hstdin hsent'' => ?_
  refine (delivers_sendParams hl hpairs _).after_unlessFailed ht (fun _ => .none)
    fun _ t params ht hparams hsent₃ => ?_
  refine (delivers_sendTerminalParams _).after_unlessFailed ht (fun _ => .none)
    fun _ t _ ht hterminal hsent₄ => ?_
  subst hbegin hterminal
  rw [after_bind]
  refine (after_recovered _).mono (fun _ u hu => ?_) fun _ _ h => h
  subst hu
  rw [after_bind, after_modify, after_pure]
  rintro id ⟨⟩
  refine ⟨rfl, hid, _, ⟨data, stdin, params ++ [terminalRecord kFcgiParams newId], rfl, hdata, hstdin,
    params, hparams, rfl⟩, ?_⟩
  show (u.sockets c).sent = _
  rw [hsent₄, hsent₃, hsent'', hsent', hsent]
  simp only [encodeRecords_cons, encodeRecords_append, encodeRecords_nil, List.append_assoc,
    List.append_nil]

/-- A call of `SendRequest` that returns an identifier has written the records of
the request. -/
theorem delivered_sendRequest (hl : s.limits.Posix)
    (hpairs : ∀ p ∈ request.params, Encodable s.limits.sizeMax p) :
    After (sendRequest reply c request) s (Delivered request c s) fun _ _ => True := by
  unfold sendRequest
  rw [after_bind, after_get, after_ite]
  refine ⟨fun _ => .none, fun _ => ?_⟩
  rw [after_bind]
  refine (after_connectionState (E := fun _ _ => True) fun e he => ?_).mono (fun _ _ h => h)
    fun _ _ _ => trivial
  split
  · trivial
  · rename_i id m hget
    rw [after_bind, after_modify, after_tryCatch]
    refine (delivered_sendRecords (s := s.setConnection c { e with idManager := m })
      (getId_uint16 hget).2.1 hl hpairs rfl).mono (fun _ _ h => h) fun f u _ => ?_
    have hthrow : After (do
        noexceptBlock do
          discard (closeConnection reply c)
          modify (·.pushEvent (.connectionClosure c))
        throw f) u (Delivered request c s) fun _ _ => True := by
      rw [after_bind]
      exact (after_true _ u).mono (fun _ _ _ => trivial) fun _ _ h => h
    cases f with
    | systemError e what => trivial
    | halted => trivial
    | _ => exact hthrow

end

end AsComponents.Client
