import AsComponents.ClientSending

/-! The outcomes of `SendRequest`. -/

namespace AsComponents.Client

open Protocol NameValue SocketFunctions AsComponents.Partition Encoding Std Critical

/-! ## The batches -/

/-- Connection `c` is closed after something more may have been sent. -/
def SendsAndCloses (reply : SystemReply) (c : Nat) (s t : TestFcgiClientInterface) : Prop :=
  ∃ u, Sends c s u ∧ ClosedThrough reply c u t

/-- The states in which an exception leaves a part of `SendRequest`: only those
of type `std::system_error` are handled there. -/
def Aborts (reply : SystemReply) (c : Nat) (s : TestFcgiClientInterface) :
    Failure → TestFcgiClientInterface → Prop
  | .systemError _ _, t => SendsAndCloses reply c s t
  | _, t => Sends c s t

/-- What the parts of `SendRequest` after the begin record do. -/
def Writes {α : Type} (reply : SystemReply) (c : Nat) (x : Operation (Option α)) : Prop :=
  ∀ s, s.isConnected c = true →
    After x s (fun r t => if r.isSome then Sends c s t else SendsAndCloses reply c s t)
      (Thrown (Aborts reply c s))

section

variable {α β : Type} {reply : SystemReply} {c : Nat} {s t u : TestFcgiClientInterface}

theorem Sends.isConnected (h : Sends c s t) (k : Nat) : t.isConnected k = s.isConnected k :=
  h.still.isConnected k

theorem SendsAndCloses.of_sends (h : Sends c s t) (h' : SendsAndCloses reply c t u) :
    SendsAndCloses reply c s u := by
  obtain ⟨v, hv, hclosed⟩ := h'
  exact ⟨v, h.trans hv, hclosed⟩

theorem Aborts.of_sends (h : Sends c s t) {e : Failure} (h' : Aborts reply c t e u) :
    Aborts reply c s e u := by
  cases e with
  | systemError e what => exact SendsAndCloses.of_sends h h'
  | _ => exact h.trans h'

theorem Writes.pure (a : α) : Writes reply c (pure (some a)) := fun s _ => Sends.refl c s

theorem Writes.ite {p : Prop} {_ : Decidable p} {x y : Operation (Option α)}
    (hx : p → Writes reply c x) (hy : ¬ p → Writes reply c y) :
    Writes reply c (if p then x else y) := by
  by_cases hp : p
  · rw [if_pos hp]
    exact hx hp
  · rw [if_neg hp]
    exact hy hp

/-- What is done after something was sent. -/
theorem Writes.after_sends {x : Operation (Option α)} (hx : Writes reply c x) (hst : Sends c s t)
    (hc : s.isConnected c = true) :
    After x t (fun r u => if r.isSome then Sends c s u else SendsAndCloses reply c s u)
      (Thrown (Aborts reply c s)) := by
  refine (hx t (hst.isConnected c ▸ hc)).mono (fun r u hu => ?_)
    fun _ _ hE hne => (hE hne).of_sends hst
  split
  · rename_i hsome
    rw [if_pos hsome] at hu
    exact hst.trans hu
  · rename_i hnone
    rw [if_neg hnone] at hu
    exact hu.of_sends hst

theorem after_recoverFault (hc : s.isConnected c = true) (fault : Option Fault) :
    After (recoverFault reply c fault) s (fun _ t => fault = none ∧ t = s)
      (Thrown (Aborts reply c s)) := by
  unfold recoverFault
  split
  · exact ⟨rfl, rfl⟩
  · rw [after_bind]
    refine (after_failedWrite hc).mono (fun _ t ht _ => ?_) fun e t hE hne => ?_
    · exact ⟨s, .refl c s, ht.2⟩
    · obtain ⟨rfl, -, ht⟩ := hE hne
      rw [if_neg Bool.false_ne_true] at ht
      exact ⟨s, .refl c s, ht⟩
  · exact fun _ => Sends.refl c s

/-- A write that failed closes the connection. -/
theorem after_failedBatch {errno : Errno} {what : String} (hst : Sends c s t)
    (hc : s.isConnected c = true) :
    After (do failedWrite reply c errno false false what; return none : Operation (Option α)) t
      (fun r u => if r.isSome then Sends c s u else SendsAndCloses reply c s u)
      (Thrown (Aborts reply c s)) := by
  rw [after_bind]
  refine (after_failedWrite (hst.isConnected c ▸ hc)).mono (fun _ u hu => ?_) fun e u hE hne => ?_
  · rw [after_pure, if_neg (by simp)]
    exact ⟨t, hst, hu.2⟩
  · obtain ⟨rfl, -, hu⟩ := hE hne
    rw [if_neg Bool.false_ne_true] at hu
    exact ⟨t, hst, hu⟩

theorem writes_dataAndStdinWriter (type : FcgiType) (newId : UInt16) (bytes : Bytes)
    (batches : List Batch) : Writes reply c (dataAndStdinWriter reply c type newId bytes batches) := by
  induction batches generalizing bytes with
  | nil => exact fun s _ => trivial
  | cons batch batches ih =>
    intro s hc
    unfold dataAndStdinWriter
    rw [after_bind]
    refine (after_recoverFault hc _).mono (fun _ t ht => ?_) fun _ _ hE => hE
    obtain ⟨-, rfl⟩ := ht
    rw [after_bind, after_get]
    split
    · exact fun _ => Sends.refl c t
    · rename_i p hp
      rw [after_bind]
      refine after_scatterGatherSocketWrite.mono (fun r u hu => ?_) fun _ _ hE => hE
      rw [after_ite]
      refine ⟨fun _ => after_failedBatch hu hc, fun _ => ?_⟩
      rw [after_ite]
      exact ⟨fun _ => hu, fun _ => (ih p.rest).after_sends hu hc⟩

theorem writes_paramsWriter (newId : UInt16) (pairs : List ByteSeqPair) (offset : Nat)
    (batches : List Batch) : Writes reply c (paramsWriter reply c newId pairs offset batches) := by
  induction batches generalizing pairs offset with
  | nil => exact fun s _ => trivial
  | cons batch batches ih =>
    intro s hc
    unfold paramsWriter
    rw [after_bind]
    refine (after_recoverFault hc _).mono (fun _ t ht => ?_) fun _ _ hE => hE
    obtain ⟨-, rfl⟩ := ht
    rw [after_bind, after_get, after_ite]
    refine ⟨fun _ => after_failedBatch (.refl c t) hc, fun _ => ?_⟩
    rw [after_bind]
    refine after_scatterGatherSocketWrite.mono (fun r u hu => ?_) fun _ _ hE => hE
    rw [after_ite]
    refine ⟨fun _ => after_failedBatch hu hc, fun _ => ?_⟩
    rw [after_ite]
    exact ⟨fun _ => hu, fun _ => (ih _ _).after_sends hu hc⟩

theorem writes_sendData (newId : UInt16) (request : FcgiRequestDataReference)
    (batches : List Batch) : Writes reply c (sendData reply c newId request batches) :=
  .ite (fun _ => .pure batches) fun _ => writes_dataAndStdinWriter _ _ _ _

theorem writes_sendStdin (newId : UInt16) (request : FcgiRequestDataReference)
    (batches : List Batch) : Writes reply c (sendStdin reply c newId request batches) :=
  .ite (fun _ => .pure batches) fun _ => writes_dataAndStdinWriter _ _ _ _

theorem writes_sendParams (newId : UInt16) (request : FcgiRequestDataReference)
    (batches : List Batch) : Writes reply c (sendParams reply c newId request batches) := by
  unfold sendParams
  split
  · exact .pure batches
  · exact .ite (fun _ => .pure batches) fun _ => writes_paramsWriter _ _ _ _

theorem writes_sendTerminalParams (newId : UInt16) (batches : List Batch) :
    Writes reply c (sendTerminalParams reply c newId batches) := by
  intro s hc
  unfold sendTerminalParams
  split
  · trivial
  · rw [after_bind]
    refine after_writeOnSelect.mono (fun r t ht => ?_) fun _ _ hE => hE
    rw [after_ite]
    exact ⟨fun _ => after_failedBatch ht.1 hc, fun _ => ht.1⟩

end

/-! ## The begin record -/

/-- The write of the begin record with the results of the first batch. -/
def beginWrite (reply : SystemReply) (socket : Socket) (newId : UInt16)
    (request : FcgiRequestDataReference) : Option SocketFunctions.SelectReturn :=
  match reply.batches with
  | [] => none
  | batch :: _ =>
      SocketFunctions.writeOnSelect false batch.tape false socket
        (populateBeginRequestRecord newId request.role request.keepConn)

/-- The number of bytes of the begin record that were written. -/
def beginWritten (w : SocketFunctions.SelectReturn) : Nat := 16 - w.unwritten.length

/-- The write of the begin record is not short. -/
def BeginSent (reply : SystemReply) (socket : Socket) (newId : UInt16)
    (request : FcgiRequestDataReference) : Prop :=
  ∃ w, beginWrite reply socket newId request = some w ∧ 16 ≤ beginWritten w

/-- Connection `c` has sent the begin record and maybe more. -/
structure Begun (c : Nat) (s t : TestFcgiClientInterface) : Prop extends Sends c s t where
  begun : (s.sockets c).sent.length < (t.sockets c).sent.length

theorem Begun.of_sends {c : Nat} {s t u : TestFcgiClientInterface} (h : Begun c s t)
    (h' : Sends c t u) : Begun c s u where
  toSends := h.toSends.trans h'
  begun := h.begun.trans_le h'.grows.length_le

/-- The results of `SendRequest` once it has taken `newId`, with the state it
leaves. -/
inductive SendOutcome (reply : SystemReply) (c : Nat) (newId : UInt16)
    (request : FcgiRequestDataReference) (s : TestFcgiClientInterface) :
    Except Failure (Option FcgiRequestIdentifier) → TestFcgiClientInterface → Prop
  | sent {u : TestFcgiClientInterface} (hw : BeginSent reply (s.sockets c) newId request)
      (hu : Begun c s u) :
      SendOutcome reply c newId request s (.ok (some ⟨c, newId⟩))
        { u with pendingRequestMap :=
            u.pendingRequestMap.insertIfNew ⟨c, newId⟩ { request := request } }
  /-- A part of the begin record was written; the connection goes on. -/
  | beginTorn {u t : TestFcgiClientInterface} {w : SocketFunctions.SelectReturn}
      (hw : beginWrite reply (s.sockets c) newId request = some w)
      (hshort : 0 < beginWritten w ∧ beginWritten w < 16) (herrno : w.errno ≠ .epipe)
      (hu : Begun c s u) (ht : Released c [⟨c, newId⟩] u t)
      (hpending : t.pendingRequestMap = u.pendingRequestMap) :
      SendOutcome reply c newId request s (.error (.systemError w.errno kWriteOrSelect)) t
  /-- The begin record was not written, and the connection is closed. -/
  | beginClosed {u t : TestFcgiClientInterface} {w : SocketFunctions.SelectReturn}
      {r : Except Failure (Option FcgiRequestIdentifier)}
      (hw : beginWrite reply (s.sockets c) newId request = some w) (hshort : beginWritten w < 16)
      (herrno : beginWritten w = 0 ∨ w.errno = .epipe) (hu : Sends c s u)
      (hsent : (u.sockets c).sent.length = (s.sockets c).sent.length + beginWritten w)
      (ht : ClosedThrough reply c u t)
      (hr : r = if w.errno = .epipe then .ok none
        else .error (.systemError w.errno kWriteOrSelect)) :
      SendOutcome reply c newId request s r t
  /-- A later part failed, and the connection is closed by `FailedWrite`. -/
  | closed {u t : TestFcgiClientInterface} {r : Except Failure (Option FcgiRequestIdentifier)}
      (hw : BeginSent reply (s.sockets c) newId request) (hu : Begun c s u)
      (ht : ClosedThrough reply c u t) (hr : r = .ok none ∨ ∃ e what, r = .error (.systemError e what)) :
      SendOutcome reply c newId request s r t
  /-- A later part threw, and the connection is closed by the handler. -/
  | handled {u t : TestFcgiClientInterface} {e : Failure}
      (hw : BeginSent reply (s.sockets c) newId request) (hu : Begun c s u)
      (ht : ClosedWithEvent c u t) (he : ∀ e' what, e ≠ .systemError e' what) :
      SendOutcome reply c newId request s (.error e) t

section

variable {reply : SystemReply} {c : Nat} {newId : UInt16} {request : FcgiRequestDataReference}
  {s t : TestFcgiClientInterface}

theorem length_populateBeginRequestRecord (newId role : UInt16) (keepConn : Bool) :
    (populateBeginRequestRecord newId role keepConn).length = 16 := by
  simp [populateBeginRequestRecord, fcgiHeaderLen]

theorem Released.isConnected {ids : List FcgiRequestIdentifier} {e : ConnectionState}
    (h : Released c ids s t) (he : s.connectionMap[c]? = some e) :
    t.isConnected c = s.isConnected c := by
  obtain ⟨m, hm, -⟩ := h.entry e he
  rw [TestFcgiClientInterface.isConnected, TestFcgiClientInterface.isConnected, hm, he]

theorem after_sendBeginRecord (reply : SystemReply) (request : FcgiRequestDataReference)
    (hc : s.isConnected c = true) {e : ConnectionState}
    (he : s.connectionMap[c]? = some e) (hused : e.isUsed newId = true) :
    After (sendBeginRecord reply c newId request reply.batches) s
      (fun r t => if r.isSome then BeginSent reply (s.sockets c) newId request ∧ Begun c s t
        else SendOutcome reply c newId request s (.ok none) t)
      (Thrown fun e t => (∃ e' what, e = .systemError e' what) ∧
        SendOutcome reply c newId request s (.error e) t) := by
  unfold sendBeginRecord
  split
  · trivial
  · rename_i batch batches hbatches
    rw [after_bind]
    refine after_writeOnSelect.mono (fun r u hu => ?_) fun _ _ hE => hE
    obtain ⟨hsends, hsent, w, hw, rfl⟩ := hu
    have hlength := length_populateBeginRequestRecord newId request.role request.keepConn
    have hbegin : beginWrite reply (s.sockets c) newId request = some w := by
      rw [beginWrite, hbatches]
      exact hw
    have hwritten : (populateBeginRequestRecord newId request.role request.keepConn).length -
        w.unwritten.length = beginWritten w := by
      rw [hlength, beginWritten]
    simp only [hwritten] at hsent ⊢
    have hsentLength : (u.sockets c).sent.length = (s.sockets c).sent.length + beginWritten w := by
      rw [hsent, List.length_append, List.length_take, hlength, beginWritten]
      omega
    rw [hlength, after_ite]
    constructor
    · intro hshort
      have hcu : u.isConnected c = true := hsends.isConnected c ▸ hc
      rw [after_ite]
      constructor
      · rintro ⟨hsome, herrno⟩
        have hpos : 0 < beginWritten w := by
          simp only [bne_iff_ne] at hsome
          omega
        have heu : u.connectionMap[c]? = some e := hsends.connectionMap ▸ he
        refine after_noexceptBlock_bind ((after_releaseFrom heu hused).mono (fun _ _ => id)
          fun _ _ _ _ => trivial) fun _ t ht => ?_
        obtain ⟨hreleased, hpending⟩ := ht
        rw [after_bind]
        refine (after_failedWrite (hreleased.isConnected heu ▸ hcu)).mono
          (fun _ v hv => absurd hv.1 herrno) fun e' v hE hne => ?_
        obtain ⟨rfl, -, hv⟩ := hE hne
        rw [if_pos hsome] at hv
        subst hv
        exact ⟨⟨_, _, rfl⟩, .beginTorn hbegin ⟨hpos, hshort⟩ herrno ⟨hsends, by omega⟩ hreleased
          hpending⟩
      · intro hclose
        have herrno : beginWritten w = 0 ∨ w.errno = .epipe := by
          simp only [bne_iff_ne] at hclose
          tauto
        rw [after_bind]
        refine (after_failedWrite hcu).mono (fun _ v hv => ?_) fun e' v hE hne => ?_
        · rw [after_pure, if_neg (by simp)]
          exact .beginClosed hbegin hshort herrno hsends hsentLength hv.2 (if_pos hv.1).symm
        · obtain ⟨rfl, hepipe, hv⟩ := hE hne
          have hzero : beginWritten w = 0 := herrno.resolve_right hepipe
          rw [hzero, if_neg (by simp)] at hv
          exact ⟨⟨_, _, rfl⟩, .beginClosed hbegin hshort herrno hsends hsentLength hv
            (if_neg hepipe).symm⟩
    · intro hfull
      rw [after_pure, Option.isSome_some, if_pos rfl]
      exact ⟨⟨w, hbegin, by omega⟩, hsends, by omega⟩

/-- The states in which the body of the `try` block throws. -/
def Throws (reply : SystemReply) (c : Nat) (newId : UInt16) (request : FcgiRequestDataReference)
    (s : TestFcgiClientInterface) : Failure → TestFcgiClientInterface → Prop
  | .systemError e what, t => SendOutcome reply c newId request s (.error (.systemError e what)) t
  | _, t => BeginSent reply (s.sockets c) newId request ∧ Begun c s t

/-- After the begin record every part of `SendRequest` fails in the same way. -/
theorem Writes.after_begun {α : Type} {x : Operation (Option α)} (hx : Writes reply c x)
    (hw : BeginSent reply (s.sockets c) newId request) (hbegun : Begun c s t) (hc : s.isConnected c = true) :
    After x t
      (fun r u => if r.isSome then Begun c s u else SendOutcome reply c newId request s (.ok none) u)
      (Thrown (Throws reply c newId request s)) := by
  refine (hx t (hbegun.isConnected c ▸ hc)).mono (fun r u hu => ?_) fun e u hE hne => ?_
  · split
    · rename_i hsome
      rw [if_pos hsome] at hu
      exact hbegun.of_sends hu
    · rename_i hnone
      rw [if_neg hnone] at hu
      obtain ⟨v, hv, hclosed⟩ := hu
      exact .closed hw (hbegun.of_sends hv) hclosed (.inl rfl)
  · cases e with
    | systemError e what =>
      obtain ⟨v, hv, hclosed⟩ := hE hne
      exact .closed hw (hbegun.of_sends hv) hclosed (.inr ⟨e, what, rfl⟩)
    | _ => exact ⟨hw, hbegun.of_sends (hE hne)⟩

theorem after_unlessFailed {α β : Type} {x : Operation (Option α)} {f : α → Operation (Option β)}
    {Q : Option β → TestFcgiClientInterface → Prop} {E : Failure → TestFcgiClientInterface → Prop}
    {R N : TestFcgiClientInterface → Prop}
    (hx : After x s (fun r t => if r.isSome then R t else N t) E)
    (hf : ∀ a t, R t → After (f a) t Q E) (hn : ∀ t, N t → Q none t) :
    After (unlessFailed x f) s Q E := by
  rw [unlessFailed, after_bind]
  refine hx.mono (fun r t ht => ?_) fun _ _ hE => hE
  cases r with
  | none => exact hn t ht
  | some a => exact hf a t ht

theorem after_sendRecords (hc : s.isConnected c = true) {e : ConnectionState}
    (he : s.connectionMap[c]? = some e) (hused : e.isUsed newId = true) :
    After (sendRecords reply c newId request) s
      (fun r t => SendOutcome reply c newId request s (.ok r) t)
      (Thrown (Throws reply c newId request s)) := by
  have hbegin : After (sendBeginRecord reply c newId request reply.batches) s
      (fun r t => if r.isSome then BeginSent reply (s.sockets c) newId request ∧ Begun c s t
        else SendOutcome reply c newId request s (.ok none) t)
      (Thrown (Throws reply c newId request s)) :=
    (after_sendBeginRecord reply request hc he hused).mono (fun _ _ h => h) fun f t hE hne => by
      obtain ⟨⟨e', what, rfl⟩, ht⟩ := hE hne
      exact ht
  refine after_unlessFailed hbegin (fun batches t ht => ?_) fun _ ht => ht
  obtain ⟨hw, ht⟩ := ht
  refine after_unlessFailed ((writes_sendData newId request batches).after_begun hw ht hc)
    (fun batches t ht => ?_) fun _ ht => ht
  refine after_unlessFailed ((writes_sendStdin newId request batches).after_begun hw ht hc)
    (fun batches t ht => ?_) fun _ ht => ht
  refine after_unlessFailed ((writes_sendParams newId request batches).after_begun hw ht hc)
    (fun batches t ht => ?_) fun _ ht => ht
  refine after_unlessFailed ((writes_sendTerminalParams newId batches).after_begun hw ht hc)
    (fun batches t ht => ?_) fun _ ht => ht
  have hinsert : Writes reply c (do recoverFault reply c reply.insertionFails; return some ()) := by
    intro u hcu
    rw [after_bind]
    exact (after_recoverFault hcu _).mono (fun _ v hv => hv.2 ▸ Sends.refl c u) fun _ _ hE => hE
  have hinserted := hinsert.after_begun hw ht hc
  rw [after_bind] at hinserted ⊢
  refine hinserted.mono (fun _ u hu => ?_) fun _ _ hE => hE
  rw [after_bind, after_modify, after_pure]
  exact .sent hw hu

theorem after_handleSendFailure {e : Failure} (hc : s.isConnected c = true)
    (ht : Throws reply c newId request s e t) :
    After (handleSendFailure reply c e) t
      (fun r t => SendOutcome reply c newId request s (.ok r) t)
      (Thrown fun e t => SendOutcome reply c newId request s (.error e) t) := by
  -- the handler of every exception but `std::system_error`
  have hhandled : (∀ e' what, e ≠ .systemError e' what) →
      BeginSent reply (s.sockets c) newId request ∧ Begun c s t →
      After (do
        noexceptBlock do
          discard (closeConnection reply c)
          modify (·.pushEvent (.connectionClosure c))
        throw e) t (fun r t => SendOutcome reply c newId request s (.ok r) t)
        (Thrown fun e t => SendOutcome reply c newId request s (.error e) t) := by
    intro he hbegun
    obtain ⟨hw, hbegun⟩ := hbegun
    have hct : t.isConnected c = true := hbegun.isConnected c ▸ hc
    refine after_noexceptBlock_bind (R := fun _ u => ClosedWithEvent c t u) ?_ fun _ u hu => ?_
    · rw [after_bind, after_discard]
      refine (after_closeConnection reply).mono (fun b u hu => ?_) fun _ _ _ _ => trivial
      obtain ⟨rfl, hu⟩ := hu
      rw [if_pos hct] at hu
      exact ⟨u, hu, rfl⟩
    · exact fun _ => .handled hw hbegun hu he
  cases e with
  | systemError e what => exact fun _ => ht
  | halted => exact fun hne => absurd rfl hne
  | runtimeError what => exact hhandled (by simp) ht
  | logicError what => exact hhandled (by simp) ht
  | lengthError what => exact hhandled (by simp) ht
  | badAlloc => exact hhandled (by simp) ht

end

/-! ## `SendRequest` -/

/-- Connection `c` has taken the identifier `newId`. -/
structure Acquired (c : Nat) (newId : UInt16) (s t : TestFcgiClientInterface) : Prop where
  wasConnected : s.isConnected c = true
  acquired : ∃ e id m, s.connectionMap[c]? = some e ∧ e.idManager.getId = some (id, m) ∧
    newId = UInt16.ofNat id.toNat ∧ t = s.setConnection c { e with idManager := m }

section

variable {reply : SystemReply} {c : Nat} {newId : UInt16} {request : FcgiRequestDataReference}
  {s t : TestFcgiClientInterface}

/-- The identifier which a connection gives to its next request. -/
theorem getId_uint16 {e : ConnectionState} {id : Int} {m : IdManager IdManager.uint16}
    (hget : e.idManager.getId = some (id, m)) :
    e.isUsed (UInt16.ofNat id.toNat) = false ∧ UInt16.ofNat id.toNat ≠ 0 ∧
      ∀ i : UInt16, m.isUsed i.toNat = (e.isUsed i || i == UInt16.ofNat id.toNat) := by
  obtain ⟨hpos, hfresh, -, hused⟩ := IdManager.getId_spec hget
  have hself : m.isUsed id = true := by simp [hused]
  have hle : id ≤ 65535 := (IdManager.isUsed_bounds hself).2
  have hid : ((UInt16.ofNat id.toNat).toNat : Int) = id := by
    rw [UInt16.toNat_ofNat_of_lt' (by change id.toNat < 65536; omega)]
    omega
  refine ⟨?_, fun hzero => ?_, fun i => ?_⟩
  · rw [ConnectionState.isUsed, hid, hfresh]
  · rw [hzero] at hid
    simp at hid
    omega
  · rw [hused, ConnectionState.isUsed, Bool.eq_iff_iff]
    simp only [Bool.or_eq_true, beq_iff_eq]
    rw [← toNat_intCast_inj, hid]

theorem Acquired.entry (h : Acquired c newId s t) :
    ∃ e, t.connectionMap[c]? = some e ∧ e.isUsed newId = true := by
  obtain ⟨e, id, m, -, hget, rfl, rfl⟩ := h.acquired
  refine ⟨_, (s.getElem?_setConnection c c _).trans (if_pos rfl), ?_⟩
  exact ((getId_uint16 hget).2.2 _).trans (by simp)

theorem Acquired.isConnected (h : Acquired c newId s t) (k : Nat) :
    t.isConnected k = s.isConnected k := by
  obtain ⟨e, id, m, he, -, -, rfl⟩ := h.acquired
  by_cases hk : k = c
  · subst hk
    rw [TestFcgiClientInterface.isConnected, TestFcgiClientInterface.isConnected, he,
      TestFcgiClientInterface.getElem?_setConnection, if_pos rfl]
  · apply isConnected_congr
    rw [TestFcgiClientInterface.getElem?_setConnection, if_neg hk]

/-- `SendRequest` changes nothing, or it takes an identifier first. -/
theorem after_sendRequest :
    After (sendRequest reply c request) s
      (fun r t => r = none ∧ s.isConnected c = false ∧ t = s ∨
        ∃ newId u, Acquired c newId s u ∧ SendOutcome reply c newId request u (.ok r) t)
      (Thrown fun e t => (∃ what, e = .lengthError what) ∧ t = s ∧
          (∀ e, s.connectionMap[c]? = some e → e.idManager.getId = none) ∨
        ∃ newId u, Acquired c newId s u ∧ SendOutcome reply c newId request u (.error e) t) := by
  rw [sendRequest, after_bind, after_get, after_ite]
  refine ⟨fun hfree => .inl ⟨rfl, hfree, rfl⟩, fun hc => ?_⟩
  rw [Bool.not_eq_false] at hc
  rw [after_bind]
  refine after_connectionState fun e he => ?_
  split
  · rename_i hnone
    refine fun _ => .inl ⟨⟨_, rfl⟩, rfl, fun e' he' => ?_⟩
    obtain rfl := Option.some.inj (he.symm.trans he')
    exact hnone
  · rename_i id m hget
    rw [after_bind, after_modify, after_tryCatch]
    set u := s.setConnection c { e with idManager := m }
    have hacquired : Acquired c (UInt16.ofNat id.toNat) s u :=
      ⟨hc, e, id, m, he, hget, rfl, rfl⟩
    have hcu : u.isConnected c = true := hacquired.isConnected c ▸ hc
    obtain ⟨e', he', hused⟩ := hacquired.entry
    refine (after_sendRecords hcu he' hused).mono (fun r t ht => .inr ⟨_, u, hacquired, ht⟩)
      fun f t hE => ?_
    by_cases hne : f = .halted
    · subst hne
      exact fun hne => absurd rfl hne
    · exact (after_handleSendFailure hcu (hE hne)).mono
        (fun r t ht => .inr ⟨_, u, hacquired, ht⟩) fun _ _ hE hne => .inr ⟨_, u, hacquired, hE hne⟩

end

end AsComponents.Client
