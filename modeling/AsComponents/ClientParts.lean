import AsComponents.ClientRequests

/-! The records of a request after the begin record, as parts that are written
one after the other.  The results of the writes decide how `SendRequest` fails:
by `FailedWrite`, or by another exception. -/

namespace AsComponents.Client

open Protocol NameValue SocketFunctions AsComponents.Partition Encoding Std Critical

/-! ## The parts -/

/-- Records that remain to be written. -/
inductive Part
  | stream (type : FcgiType) (bytes : Bytes)
  | params (pairs : List ByteSeqPair) (offset : Nat)
  | terminalParams

/-- The records of a request after the begin record. -/
def parts (request : FcgiRequestDataReference) : List Part :=
  (if (request.role = fcgiResponder ∨ request.role = fcgiAuthorizer) ∧ request.data = [] then []
    else [.stream kFcgiData request.data]) ++
  (if request.role = fcgiAuthorizer ∧ request.stdin = [] then []
    else [.stream kFcgiStdin request.stdin]) ++
  (if request.paramsMap.elim [] (·.toList) = [] then []
    else [.params (request.paramsMap.elim [] (·.toList)) 0]) ++
  [.terminalParams]

/-- What the results of a batch make of a part: it is written as far as a part
that is left, its write fails, or an exception that is no `std::system_error` is
thrown. -/
inductive PartReturn
  | written (socket : Socket) (left : List Part)
  | failed
  | thrown

/-- The write of a part with the results of a batch. -/
def writePart (batch : Batch) (socket : Socket) (iovec : List Bytes) (numberToWrite : Nat)
    (left : List Part) : Option PartReturn :=
  (SocketFunctions.scatterGatherSocketWrite true batch.tape false socket iovec numberToWrite).map
    fun r => if r.numberRemaining ≠ 0 then .failed else .written r.socket left

/-- The exception that comes before the write of a part, if there is one. -/
def unlessFault (batch : Batch) (x : Option PartReturn) : Option PartReturn :=
  match batch.fault with
  | none => x
  | some (.systemError _ _) => some .failed
  | some .badAlloc => some .thrown

def sendPart (limits : SystemLimits) (newId : UInt16) (batch : Batch) (socket : Socket) :
    Part → Option PartReturn
  | .stream type bytes =>
      unlessFault batch <| (partitionByteSequence limits type newId bytes).elim (some .thrown) fun p =>
        writePart batch socket p.iovec p.numberToWrite (if bytes = [] then [] else [.stream type p.rest])
  | .params pairs offset =>
      let encoded := encodeNameValuePairs kFcgiParams newId limits pairs offset
      unlessFault batch <|
        if encoded.ok = false then some .failed
        else writePart batch socket encoded.iovec encoded.numberToWrite
          (if encoded.rest = [] then [] else [.params encoded.rest encoded.offset])
  | .terminalParams =>
      let record := populateHeader kFcgiParams newId 0 0
      (SocketFunctions.writeOnSelect false batch.tape false socket record).map fun w =>
        if record.length - w.unwritten.length < record.length then .failed else .written w.socket []

/-- Parts that are written one after the other meet a write that fails, or a
`std::system_error`, before any other exception; `insertion` is that of the
insertion of the request. -/
def WriteFails (limits : SystemLimits) (newId : UInt16) (insertion : Option Fault) :
    List Part → List Batch → Socket → Prop
  | [], _, _ => ∃ e what, insertion = some (.systemError e what)
  | _ :: _, [], _ => False
  | part :: parts, batch :: batches, socket =>
      match sendPart limits newId batch socket part with
      | some (.written socket left) => WriteFails limits newId insertion (left ++ parts) batches socket
      | some .failed => True
      | _ => False

/-- The write of the begin record fails, or one of the parts after it. -/
def RecordsFail (reply : SystemReply) (c : Nat) (newId : UInt16) (request : FcgiRequestDataReference)
    (s : TestFcgiClientInterface) : Prop :=
  ∃ w, beginWrite reply (s.sockets c) newId request = some w ∧
    (beginWritten w < 16 ∨ WriteFails s.limits newId reply.insertionFails (parts request)
      reply.batches.tail w.socket)

/-- A write of the request with the next identifier of the connection fails, or a
`std::system_error` is thrown between its writes. -/
def RequestFails (reply : SystemReply) (c : Nat) (request : FcgiRequestDataReference)
    (s : TestFcgiClientInterface) : Prop :=
  ∃ e id m, s.connectionMap[c]? = some e ∧ e.idManager.getId = some (id, m) ∧
    RecordsFail reply c (UInt16.ofNat id.toNat) request s

/-! ## The functions over the parts -/

section

variable {reply : SystemReply} {c : Nat} {newId : UInt16} {request : FcgiRequestDataReference}
  {s t : TestFcgiClientInterface}

/-- An exception is a `std::system_error` if and only if `φ` holds. -/
def Tells (φ : Prop) : Failure → TestFcgiClientInterface → Prop :=
  Thrown fun e _ => (∃ e' what, e = .systemError e' what) ↔ φ

/-- When `φ` says whether the writes fail: they have failed, or `φ` is left to the
parts that come next. -/
def Remains (reply : SystemReply) (c : Nat) (limits : SystemLimits) (newId : UInt16) (φ : Prop)
    (parts : List Part) (r : Option (List Batch)) (t : TestFcgiClientInterface) : Prop :=
  (r = none → φ) ∧ ∀ batches, r = some batches → t.limits = limits ∧
    (φ ↔ WriteFails limits newId reply.insertionFails parts batches (t.sockets c))

/-- A part of `SendRequest` writes these parts, and fails as they do. -/
def Follows (reply : SystemReply) (c : Nat) (limits : SystemLimits) (newId : UInt16)
    (parts : List Part) (batches : List Batch) (x : Operation (Option (List Batch))) : Prop :=
  ∀ s more, s.limits = limits → ∀ φ,
    (φ ↔ WriteFails limits newId reply.insertionFails (parts ++ more) batches (s.sockets c)) →
    After x s (Remains reply c limits newId φ more) (Tells φ)

variable {limits : SystemLimits} {insertion : Option Fault} {batch : Batch} {batches : List Batch}
  {socket : Socket} {part : Part} {left more : List Part}

theorem writeFails_nil : WriteFails limits newId insertion [] batches socket ↔
    ∃ e what, insertion = some (.systemError e what) := by
  rw [WriteFails]

theorem writeFails_cons : WriteFails limits newId insertion (part :: more) (batch :: batches) socket ↔
    sendPart limits newId batch socket part = some .failed ∨
      ∃ socket' left, sendPart limits newId batch socket part = some (.written socket' left) ∧
        WriteFails limits newId insertion (left ++ more) batches socket' := by
  rw [WriteFails]
  split
  · rename_i socket' left hsend
    rw [hsend]
    simp
  · rename_i hsend
    exact iff_of_true trivial (.inl hsend)
  · rename_i hwritten hfailed
    refine iff_of_false not_false (not_or.mpr ⟨fun h => hfailed h, ?_⟩)
    rintro ⟨socket', left, h, -⟩
    exact hwritten socket' left h

theorem writeFails_written {socket' : Socket}
    (hsend : sendPart limits newId batch socket part = some (.written socket' left)) :
    WriteFails limits newId insertion (part :: more) (batch :: batches) socket ↔
      WriteFails limits newId insertion (left ++ more) batches socket' := by
  rw [WriteFails, hsend]

theorem after_failedWrite_any {errno : Errno} {nothingWritten : Bool} {what : String} :
    After (failedWrite reply c errno nothingWritten false what) s (fun _ _ => True)
      (Thrown fun e _ => ∃ e' what', e = .systemError e' what') := by
  rw [failedWrite]
  refine after_noexceptBlock_bind ((after_true _ s).mono (fun _ _ h => h) fun _ _ _ _ => trivial)
    fun _ t _ => ?_
  rw [after_ite]
  exact ⟨fun _ _ => ⟨errno, what, rfl⟩, fun _ => trivial⟩

/-- A write that failed. -/
theorem after_failedWrite_tells {α : Type} {errno : Errno} {nothingWritten : Bool} {what : String}
    {φ : Prop} (hφ : φ) {R : Option α → TestFcgiClientInterface → Prop} (hR : ∀ t, R none t) :
    After (do failedWrite reply c errno nothingWritten false what; return none : Operation (Option α)) s R
      (Tells φ) := by
  rw [after_bind]
  exact after_failedWrite_any.mono (fun _ t _ => hR t) fun _ _ hE hne => iff_of_true (hE hne) hφ

theorem after_recoverFault_tells (fault : Option Fault) :
    After (recoverFault reply c fault) s (fun _ t => fault = none ∧ t = s)
      (fun e t => fault ≠ none ∧ Tells (∃ e' what, fault = some (.systemError e' what)) e t) := by
  unfold recoverFault
  split
  · exact ⟨rfl, rfl⟩
  · rename_i e what
    have hfault : ∃ e' what', some (Fault.systemError e what) = some (.systemError e' what') :=
      ⟨e, what, rfl⟩
    rw [after_bind]
    refine after_failedWrite_any.mono (fun _ t _ => ?_) fun e' t hE => ?_
    · exact ⟨Option.some_ne_none _, fun _ => iff_of_true ⟨e, what, rfl⟩ hfault⟩
    · exact ⟨Option.some_ne_none _, fun hne => iff_of_true (hE hne) hfault⟩
  · refine ⟨Option.some_ne_none _, fun _ => iff_of_false ?_ ?_⟩
    · rintro ⟨e, what, he⟩
      cases he
    · rintro ⟨e, what, he⟩
      cases he

/-- The state after a write on a connection. -/
theorem setSocket_kept (s : TestFcgiClientInterface) (c : Nat) (socket : Socket) :
    (s.setSocket c socket).limits = s.limits ∧ (s.setSocket c socket).sockets c = socket :=
  ⟨rfl, by simp [TestFcgiClientInterface.setSocket]⟩

theorem after_writePart {iovec : List Bytes} {n : Nat} (left : List Part)
    {E : Failure → TestFcgiClientInterface → Prop} :
    After (scatterGatherSocketWrite batch c iovec n) s
      (fun r t => t.limits = s.limits ∧
        writePart batch (s.sockets c) iovec n left =
          some (if r.1 ≠ 0 then .failed else .written (t.sockets c) left)) E := by
  rw [scatterGatherSocketWrite, after_bind, after_get]
  split
  · trivial
  · rename_i w hw
    rw [after_bind, after_modify, after_pure]
    obtain ⟨hlimits, hsocket⟩ := setSocket_kept s c w.socket
    refine ⟨hlimits, ?_⟩
    rw [writePart, hw, hsocket]
    rfl

section

variable {φ : Prop}

theorem remains_none (hφ : φ) (t : TestFcgiClientInterface) : Remains reply c limits newId φ more none t := by
  refine ⟨fun _ => hφ, fun rest hrest => ?_⟩
  cases hrest

variable (hφ : φ ↔ WriteFails limits newId insertion (part :: more) (batch :: batches) socket)

include hφ

/-- The exception that comes before the write of a part. -/
theorem after_recoverFault_part {x : Option PartReturn}
    (hsend : sendPart limits newId batch socket part = unlessFault batch x) :
    After (recoverFault reply c batch.fault) s
      (fun _ t => sendPart limits newId batch socket part = x ∧ t = s) (Tells φ) := by
  refine (after_recoverFault_tells batch.fault).mono (fun _ t ht => ?_) fun e t hE hne => ?_
  · obtain ⟨hfault, rfl⟩ := ht
    rw [hsend, unlessFault, hfault]
    exact ⟨rfl, rfl⟩
  · obtain ⟨hfault, htells⟩ := hE
    refine (htells hne).trans ?_
    rw [hφ, writeFails_cons, hsend]
    unfold unlessFault
    cases hb : batch.fault with
    | none => exact absurd hb hfault
    | some fault => cases fault <;> simp

theorem tells_of_thrown {e : Failure} (hsend : sendPart limits newId batch socket part = some .thrown)
    (he : ∀ e' what, e ≠ .systemError e' what) : Tells φ e s := by
  refine fun _ => iff_of_false ?_ ?_
  · rintro ⟨e', what, rfl⟩
    exact he e' what rfl
  · rw [hφ, writeFails_cons, hsend]
    simp

end

theorem follows_nil : Follows reply c limits newId [] batches (pure (some batches)) := by
  intro s more hlimits φ hφ
  rw [after_pure]
  refine ⟨fun hnone => absurd hnone (Option.some_ne_none _), fun rest hrest => ?_⟩
  obtain rfl := Option.some.inj hrest
  exact ⟨hlimits, hφ⟩

theorem Follows.ite {p : Prop} {_ : Decidable p} {ps : List Part} {x : Operation (Option (List Batch))}
    (hx : Follows reply c limits newId ps batches x) :
    Follows reply c limits newId (if p then [] else ps) batches (if p then pure (some batches) else x) := by
  split
  · exact follows_nil
  · exact hx

/-- The write of a part, and what is done after it. -/
theorem Follows.after_write {φ : Prop} {f : Nat × Errno → Operation (Option (List Batch))}
    {x : Operation (Option (List Batch))} {iovec : List Bytes} {n : Nat} {what : String}
    (hx : Follows reply c limits newId left batches x)
    (hfailed : ∀ r, r.1 ≠ 0 → f r = do failedWrite reply c r.2 false false what; return none)
    (hwritten : ∀ r, ¬ r.1 ≠ 0 → f r = x) (hlimits : s.limits = limits)
    (hsend : sendPart limits newId batch (s.sockets c) part = writePart batch (s.sockets c) iovec n left)
    (hφ : φ ↔ WriteFails limits newId reply.insertionFails (part :: more) (batch :: batches)
      (s.sockets c)) :
    After (scatterGatherSocketWrite batch c iovec n >>= f) s (Remains reply c limits newId φ more)
      (Tells φ) := by
  rw [after_bind]
  refine (after_writePart left).mono (fun r t ht => ?_) fun _ _ hE => hE
  obtain ⟨hlimits', hwrite⟩ := ht
  rw [hwrite] at hsend
  by_cases hr : r.1 ≠ 0
  · rw [hfailed r hr]
    rw [if_pos hr] at hsend
    have hfails : φ := hφ.mpr (writeFails_cons.mpr (.inl hsend))
    exact after_failedWrite_tells hfails (remains_none hfails)
  · rw [hwritten r hr]
    rw [if_neg hr] at hsend
    exact hx t more (hlimits' ▸ hlimits) φ (hφ.trans (writeFails_written hsend))

theorem follows_dataAndStdinWriter (type : FcgiType) (bytes : Bytes) (batches : List Batch) :
    Follows reply c limits newId [.stream type bytes] batches
      (dataAndStdinWriter reply c type newId bytes batches) := by
  induction batches generalizing bytes with
  | nil => exact fun s more _ φ _ => trivial
  | cons batch batches ih =>
    intro s more hlimits φ hφ
    subst hlimits
    unfold dataAndStdinWriter
    rw [after_bind]
    refine (after_recoverFault_part hφ rfl).mono (fun _ t ht => ?_) fun _ _ hE => hE
    obtain ⟨hsent, rfl⟩ := ht
    rw [after_bind, after_get]
    split
    · rename_i hnone
      rw [hnone, Option.elim_none] at hsent
      exact tells_of_thrown hφ hsent (by simp)
    · rename_i p hp
      rw [hp, Option.elim_some] at hsent
      exact (Follows.ite (ih p.rest)).after_write (fun r hr => if_pos hr) (fun r hr => if_neg hr) rfl hsent hφ

theorem follows_paramsWriter (pairs : List ByteSeqPair) (offset : Nat) (batches : List Batch) :
    Follows reply c limits newId [.params pairs offset] batches
      (paramsWriter reply c newId pairs offset batches) := by
  induction batches generalizing pairs offset with
  | nil => exact fun s more _ φ _ => trivial
  | cons batch batches ih =>
    intro s more hlimits φ hφ
    subst hlimits
    unfold paramsWriter
    rw [after_bind]
    refine (after_recoverFault_part hφ rfl).mono (fun _ t ht => ?_) fun _ _ hE => hE
    obtain ⟨hsent, rfl⟩ := ht
    rw [after_bind, after_get, after_ite]
    refine ⟨fun hbad => ?_, fun hok => ?_⟩
    · rw [if_pos hbad] at hsent
      have hfails : φ := hφ.mpr (writeFails_cons.mpr (.inl hsent))
      exact after_failedWrite_tells hfails (remains_none hfails)
    · rw [if_neg hok] at hsent
      exact (Follows.ite (ih _ _)).after_write (fun r hr => if_pos hr) (fun r hr => if_neg hr) rfl hsent hφ

theorem after_writeOnSelect_eq {bytes : Bytes} {E : Failure → TestFcgiClientInterface → Prop} :
    After (writeOnSelect batch c bytes) s
      (fun r t => ∃ w, SocketFunctions.writeOnSelect false batch.tape false (s.sockets c) bytes = some w ∧
        r = (bytes.length - w.unwritten.length, w.errno) ∧ t.limits = s.limits ∧ t.sockets c = w.socket) E := by
  rw [writeOnSelect, after_bind, after_get]
  split
  · trivial
  · rename_i w hw
    rw [after_bind, after_modify, after_pure]
    exact ⟨w, hw, rfl, setSocket_kept s c w.socket⟩

theorem follows_sendTerminalParams (batches : List Batch) :
    Follows reply c limits newId [.terminalParams] batches
      (sendTerminalParams reply c newId batches) := by
  intro s more hlimits φ hφ
  unfold sendTerminalParams
  cases batches with
  | nil => trivial
  | cons batch batches =>
    rw [after_bind]
    refine after_writeOnSelect_eq.mono (fun r t ht => ?_) fun _ _ hE => hE
    obtain ⟨w, hw, rfl, hlimits', hsocket⟩ := ht
    have hsend : sendPart limits newId batch (s.sockets c) .terminalParams =
        some (if (populateHeader kFcgiParams newId 0 0).length - w.unwritten.length <
          (populateHeader kFcgiParams newId 0 0).length then .failed else .written w.socket []) := by
      rw [sendPart, hw]
      rfl
    rw [after_ite]
    refine ⟨fun hshort => ?_, fun hwhole => ?_⟩
    · rw [if_pos hshort] at hsend
      have hfails : φ := hφ.mpr (writeFails_cons.mpr (.inl hsend))
      exact after_failedWrite_tells hfails (remains_none hfails)
    · rw [if_neg hwhole, ← hsocket] at hsend
      exact follows_nil t more (hlimits' ▸ hlimits) φ (hφ.trans (writeFails_written hsend))

theorem follows_sendParams (request : FcgiRequestDataReference) (batches : List Batch) :
    Follows reply c limits newId
      (if request.paramsMap.elim [] (·.toList) = [] then []
        else [.params (request.paramsMap.elim [] (·.toList)) 0]) batches
      (sendParams reply c newId request batches) := by
  unfold sendParams
  cases request.paramsMap with
  | none => exact follows_nil
  | some params => exact .ite (follows_paramsWriter _ _ _)

/-! ## `SendRequest` -/

/-- The end of `SendRequest` after the parts that remain: a null identifier or a
`std::system_error` when they fail. -/
def Decides (reply : SystemReply) (c : Nat) (limits : SystemLimits) (newId : UInt16)
    (parts : List Part) (batches : List Batch) (x : Operation (Option FcgiRequestIdentifier)) : Prop :=
  ∀ s, s.limits = limits → ∀ φ,
    (φ ↔ WriteFails limits newId reply.insertionFails parts batches (s.sockets c)) →
    After x s (fun r _ => r = none ↔ φ) (Tells φ)

theorem Decides.unlessFailed {ps qs : List Part} {x : Operation (Option (List Batch))}
    {f : List Batch → Operation (Option FcgiRequestIdentifier)}
    (hx : Follows reply c limits newId ps batches x)
    (hf : ∀ batches, Decides reply c limits newId qs batches (f batches)) :
    Decides reply c limits newId (ps ++ qs) batches (unlessFailed x f) := by
  intro s hlimits φ hφ
  rw [Client.unlessFailed, after_bind]
  refine (hx s qs hlimits φ hφ).mono (fun r t ht => ?_) fun _ _ hE => hE
  cases r with
  | none => exact iff_of_true rfl (ht.1 rfl)
  | some rest =>
    obtain ⟨hlimits', hφ'⟩ := ht.2 rest rfl
    exact hf rest t hlimits' φ hφ'

theorem decides_insertion {f : TestFcgiClientInterface → TestFcgiClientInterface}
    (id : FcgiRequestIdentifier) : Decides reply c limits newId [] batches
      (do recoverFault reply c reply.insertionFails; modify f; return some id) := by
  intro s hlimits φ hφ
  rw [after_bind]
  refine (after_recoverFault_tells _).mono (fun _ t ht => ?_) fun e t hE hne => ?_
  · refine iff_of_false (Option.some_ne_none _) ?_
    rw [hφ, writeFails_nil, ht.1]
    rintro ⟨e, what, hfault⟩
    cases hfault
  · exact (hE.2 hne).trans (writeFails_nil.symm.trans hφ.symm)

/-- The parts of a request after its begin record. -/
theorem decides_parts (request : FcgiRequestDataReference)
    {f : TestFcgiClientInterface → TestFcgiClientInterface} (id : FcgiRequestIdentifier) :
    Decides reply c limits newId (parts request) batches
      (unlessFailed (sendData reply c newId request batches) fun batches =>
        unlessFailed (sendStdin reply c newId request batches) fun batches =>
        unlessFailed (sendParams reply c newId request batches) fun batches =>
        unlessFailed (sendTerminalParams reply c newId batches) fun _ => do
          recoverFault reply c reply.insertionFails
          modify f
          return some id) := by
  rw [parts, List.append_assoc, List.append_assoc, ← List.append_nil [Part.terminalParams]]
  refine .unlessFailed (.ite (follows_dataAndStdinWriter _ _ _)) fun batches => ?_
  refine .unlessFailed (.ite (follows_dataAndStdinWriter _ _ _)) fun batches => ?_
  refine .unlessFailed (follows_sendParams request batches) fun batches => ?_
  exact .unlessFailed (follows_sendTerminalParams batches) fun _ => decides_insertion id

theorem after_sendRecords_tells :
    After (sendRecords reply c newId request) s
      (fun r _ => r = none ↔ RecordsFail reply c newId request s)
      (Tells (RecordsFail reply c newId request s)) := by
  unfold sendRecords sendBeginRecord
  rw [Client.unlessFailed, after_bind]
  split
  · trivial
  · rename_i batch batches hbatches
    rw [after_bind]
    refine after_writeOnSelect_eq.mono (fun r t ht => ?_) fun _ _ hE => hE
    obtain ⟨w, hw, rfl, hlimits, hsocket⟩ := ht
    have hlength := length_populateBeginRequestRecord newId request.role request.keepConn
    have hbegin : beginWrite reply (s.sockets c) newId request = some w := by
      rw [beginWrite, hbatches]
      exact hw
    have hwritten : 16 - w.unwritten.length = beginWritten w := rfl
    dsimp only
    rw [hlength, hwritten, after_ite]
    refine ⟨fun hshort => ?_, fun hfull => ?_⟩
    · have hfails : RecordsFail reply c newId request s := ⟨w, hbegin, .inl hshort⟩
      have hnull : ∀ u, After (pure none : Operation (Option FcgiRequestIdentifier)) u
          (fun r _ => r = none ↔ RecordsFail reply c newId request s)
          (Tells (RecordsFail reply c newId request s)) := fun u => iff_of_true rfl hfails
      rw [after_ite]
      refine ⟨fun _ => ?_, fun _ => after_failedWrite_tells hfails hnull⟩
      exact after_noexceptBlock_bind ((after_true _ t).mono (fun _ _ h => h) fun _ _ _ _ => trivial)
        fun _ u _ => after_failedWrite_tells hfails hnull
    · refine decides_parts request ⟨c, newId⟩ t hlimits _ ?_
      rw [hsocket, RecordsFail, hbatches]
      constructor
      · rintro ⟨w', hw', hshort | hfails⟩
        · obtain rfl := Option.some.inj (hbegin.symm.trans hw')
          exact absurd hshort hfull
        · obtain rfl := Option.some.inj (hbegin.symm.trans hw')
          exact hfails
      · exact fun hfails => ⟨w, hbegin, .inr hfails⟩

theorem after_handleSendFailure_tells {φ : Prop} {e : Failure} (he : Tells φ e s) :
    After (handleSendFailure reply c e) s (fun r _ => r = none ↔ φ) (Tells φ) := by
  -- the handler of every exception but `std::system_error` throws it again
  have hhandled : After (do
        noexceptBlock do
          discard (closeConnection reply c)
          modify (·.pushEvent (.connectionClosure c))
        throw e : Operation (Option FcgiRequestIdentifier)) s (fun r _ => r = none ↔ φ) (Tells φ) := by
    refine after_noexceptBlock_bind ((after_true _ s).mono (fun _ _ h => h) fun _ _ _ _ => trivial)
      fun _ t _ => ?_
    exact fun hne => he hne
  cases e with
  | systemError e what => exact he
  | halted => exact fun hne => absurd rfl hne
  | runtimeError what => exact hhandled
  | logicError what => exact hhandled
  | lengthError what => exact hhandled
  | badAlloc => exact hhandled

/-- The writes of a request decide whether `SendRequest` fails by `FailedWrite`. -/
theorem after_sendRequest_tells (hc : s.isConnected c = true) :
    After (sendRequest reply c request) s (fun r _ => r = none ↔ RequestFails reply c request s)
      (Tells (RequestFails reply c request s)) := by
  rw [sendRequest, after_bind, after_get, after_ite]
  refine ⟨fun hfree => absurd (hfree.symm.trans hc) Bool.false_ne_true, fun _ => ?_⟩
  rw [after_bind]
  refine after_connectionState fun e he => ?_
  split
  · rename_i hnone
    refine fun _ => iff_of_false ?_ ?_
    · rintro ⟨e', what, heq⟩
      cases heq
    · rintro ⟨e', id, m, he', hget, -⟩
      obtain rfl := Option.some.inj (he.symm.trans he')
      rw [hnone] at hget
      cases hget
  · rename_i id m hget
    rw [after_bind, after_modify, after_tryCatch]
    have hfails : RequestFails reply c request s ↔ RecordsFail reply c (UInt16.ofNat id.toNat) request
        (s.setConnection c { e with idManager := m }) := by
      refine ⟨?_, fun h => ⟨e, id, m, he, hget, h⟩⟩
      rintro ⟨e', id', m', he', hget', h⟩
      obtain rfl := Option.some.inj (he.symm.trans he')
      obtain ⟨rfl, rfl⟩ := Prod.mk.inj (Option.some.inj (hget.symm.trans hget'))
      exact h
    rw [hfails]
    exact after_sendRecords_tells.mono (fun _ _ h => h) fun _ _ hE => after_handleSendFailure_tells hE

end

end AsComponents.Client
