import AsComponents.ClientInvariant

/-! What the functions that send do to the tables of a client. -/

namespace AsComponents.Client

open Protocol NameValue SocketFunctions AsComponents.Partition Std Critical

/-! ## Writes -/

/-- The calls for a socket only add to what was sent. -/
theorem prefix_of_scatterGatherSocketWrite {w : Bool} {tape : List IoResult} {selecting : Bool}
    {k : Socket} {iovec : List Bytes} {m : Nat} {r : ScatterReturn}
    (h : SocketFunctions.scatterGatherSocketWrite w tape selecting k iovec m = some r) :
    k.sent <+: r.socket.sent := by
  fun_induction SocketFunctions.scatterGatherSocketWrite w tape selecting k iovec m with
  | case1 tape b k iovec =>
    cases h
    exact List.prefix_refl _
  | case2 => cases h
  | case3 tape k iovec m ih => exact ih h
  | case4 tape k iovec m ih => exact ih h
  | case5 tape k iovec m e =>
    cases h
    exact List.prefix_refl _
  | case6 => cases h
  | case7 => cases h
  | case8 r tape k iovec m k' hw ih =>
    obtain ⟨-, rfl⟩ := Socket.write_error hw
    exact ih h
  | case9 r tape k iovec m k' e hw hne hwait ih =>
    obtain ⟨-, rfl⟩ := Socket.write_error hw
    exact ih h
  | case10 r tape k iovec m k' e hw =>
    obtain ⟨-, rfl⟩ := Socket.write_error hw
    cases h
    exact List.prefix_refl _
  | case11 r tape k iovec m k' n hw hmore ih =>
    obtain ⟨-, -, -, rfl⟩ := Socket.write_ok hw
    exact (List.prefix_append _ _).trans (ih h)
  | case12 r tape k iovec m k' n hw =>
    obtain ⟨-, -, -, rfl⟩ := Socket.write_ok hw
    cases h
    exact List.prefix_append _ _

/-- Only the socket of connection `c` changes, and only by sending more. -/
structure Sends (c : Nat) (s t : TestFcgiClientInterface) : Prop where
  frame : t = { s with sockets := t.sockets }
  grows : (s.sockets c).sent <+: (t.sockets c).sent

namespace Sends

variable {s t u : TestFcgiClientInterface} {c : Nat}

theorem refl (c : Nat) (s : TestFcgiClientInterface) : Sends c s s := ⟨rfl, List.prefix_refl _⟩

theorem trans (h : Sends c s t) (h' : Sends c t u) : Sends c s u :=
  ⟨by rw [h'.frame, h.frame], h.grows.trans h'.grows⟩

theorem setSocket {k : Socket} (h : (s.sockets c).sent <+: k.sent) : Sends c s (s.setSocket c k) :=
  ⟨rfl, by simpa [TestFcgiClientInterface.setSocket] using h⟩

theorem still (h : Sends c s t) : Still s t := by
  rw [h.frame]
  exact .of_eq rfl rfl rfl rfl rfl rfl rfl

theorem connectionMap (h : Sends c s t) : t.connectionMap = s.connectionMap := by rw [h.frame]

theorem pendingRequestMap (h : Sends c s t) : t.pendingRequestMap = s.pendingRequestMap := by
  rw [h.frame]

theorem completedRequestSet (h : Sends c s t) : t.completedRequestSet = s.completedRequestSet := by
  rw [h.frame]

theorem microEventQueue (h : Sends c s t) : t.microEventQueue = s.microEventQueue := by rw [h.frame]

end Sends

section

variable {s t : TestFcgiClientInterface} {c : Nat} {batch : Batch}
  {E : Failure → TestFcgiClientInterface → Prop}

/-- `WriteOnSelect` sends a prefix of the bytes. -/
theorem after_writeOnSelect {bytes : Bytes} :
    After (writeOnSelect batch c bytes) s
      (fun r t => Sends c s t ∧ (t.sockets c).sent = (s.sockets c).sent ++ bytes.take r.1 ∧
        ∃ w, SocketFunctions.writeOnSelect false batch.tape false (s.sockets c) bytes = some w ∧
          r = (bytes.length - w.unwritten.length, w.errno)) E := by
  rw [writeOnSelect, after_bind, after_get]
  split
  · trivial
  · rename_i w hw
    rw [after_bind, after_modify, after_pure]
    have haccepted := writeOnSelect_accepted hw
    refine ⟨.setSocket ?_, ?_, w, hw, rfl⟩
    · rw [haccepted.sent_eq]
      exact List.prefix_append _ _
    · simp only [TestFcgiClientInterface.setSocket, Function.update_self]
      exact haccepted.sent_eq

theorem after_scatterGatherSocketWrite {iovec : List Bytes} {m : Nat} :
    After (scatterGatherSocketWrite batch c iovec m) s (fun _ t => Sends c s t) E := by
  rw [scatterGatherSocketWrite, after_bind, after_get]
  split
  · trivial
  · rename_i w hw
    rw [after_bind, after_modify, after_pure]
    exact .setSocket (prefix_of_scatterGatherSocketWrite hw)

end

/-! ## Failed writes -/

/-- Connection `c` is closed and its closure is told under the key that the
iterator to its element gives. -/
def ClosedThrough (reply : SystemReply) (c : Nat) (s t : TestFcgiClientInterface) : Prop :=
  ∃ u, Closed c s u ∧ t = u.pushEvent (.connectionClosure
    (if s.completedOf c = [] then reply.erasedKey else c))

/-- Connection `c` is closed and its closure is told. -/
def ClosedWithEvent (c : Nat) (s t : TestFcgiClientInterface) : Prop :=
  ∃ u, Closed c s u ∧ t = u.pushEvent (.connectionClosure c)

section

variable {s t : TestFcgiClientInterface} {c : Nat} {reply : SystemReply}

theorem Closed.mem_iff (h : Closed c s t) : c ∈ t.connectionMap ↔ s.completedOf c ≠ [] := by
  rw [mem_connectionMap_iff]
  constructor
  · rintro ⟨e, he⟩
    exact (h.entry he).1
  · intro hc
    obtain ⟨-, e', -, he', -⟩ := h.kept hc
    exact ⟨e', he'⟩

/-- The part of `FailedWrite` that closes the connection. -/
theorem after_closeThroughIterator {E : Failure → TestFcgiClientInterface → Prop}
    (hc : s.isConnected c = true) (hE : ∀ e t, E e t) :
    After (do discard (closeConnection reply c); pushClosureThroughIterator reply c) s
      (fun _ t => ClosedThrough reply c s t) (Thrown E) := by
  rw [after_bind, after_discard]
  refine (after_closeConnection reply).mono (fun b u hu => ?_) fun e t _ _ => hE e t
  obtain ⟨rfl, hu⟩ := hu
  rw [if_pos hc] at hu
  rw [pushClosureThroughIterator, after_modify]
  refine ⟨u, hu, ?_⟩
  by_cases hnil : s.completedOf c = []
  · rw [if_pos hnil, if_neg fun hmem => hu.mem_iff.mp hmem hnil]
  · rw [if_neg hnil, if_pos (hu.mem_iff.mpr hnil)]

/-- The block of `FailedWrite` after the management queue. -/
theorem after_closeUnless {errno : Errno} {nothingWritten : Bool} (hc : s.isConnected c = true) :
    After (if ¬ (nothingWritten = true ∧ errno ≠ .epipe) then do
        discard (closeConnection reply c)
        pushClosureThroughIterator reply c
      else pure ()) s
      (fun _ t =>
        if nothingWritten = true ∧ errno ≠ .epipe then t = s else ClosedThrough reply c s t)
      (Thrown fun _ _ => True) := by
  rw [after_ite]
  constructor
  · intro hclose
    simp only [if_neg hclose]
    exact after_closeThroughIterator hc fun _ _ => trivial
  · intro hkeep
    rw [not_not] at hkeep
    simp [hkeep]

/-- `FailedWrite` for a send that has no management request to take back. -/
theorem after_failedWrite {errno : Errno} {nothingWritten : Bool} {what : String}
    (hc : s.isConnected c = true) :
    After (failedWrite reply c errno nothingWritten false what) s
      (fun _ t => errno = .epipe ∧ ClosedThrough reply c s t)
      (Thrown fun e t => e = .systemError errno what ∧ errno ≠ .epipe ∧
        if nothingWritten then t = s else ClosedThrough reply c s t) := by
  rw [failedWrite]
  refine after_noexceptBlock_bind (R := fun _ t =>
    if nothingWritten = true ∧ errno ≠ .epipe then t = s else ClosedThrough reply c s t) ?_
    fun _ t ht => ?_
  · rw [if_neg Bool.false_ne_true]
    exact after_closeUnless hc
  · rw [after_ite]
    refine ⟨fun hne _ => ⟨rfl, hne, ?_⟩, fun heq => ?_⟩
    · simpa [hne] using ht
    · rw [not_not] at heq
      rw [if_neg (fun h => h.2 heq)] at ht
      exact ⟨heq, ht⟩

/-- What a send leaves of the tables: they keep still, with connection `c`
closed at most once. -/
def Leaves (c : Nat) (s t : TestFcgiClientInterface) : Prop :=
  Still s t ∨ ∃ s' u, Still s s' ∧ Closed c s' u ∧ Still u t

theorem still_pushEvent (s : TestFcgiClientInterface) (e : ServerEvent) : Still s (s.pushEvent e) :=
  .of_eq rfl rfl rfl rfl rfl rfl rfl

theorem ClosedThrough.leaves {u : TestFcgiClientInterface} (hsu : Still s u)
    (h : ClosedThrough reply c u t) : Leaves c s t := by
  obtain ⟨v, hclosed, rfl⟩ := h
  exact .inr ⟨u, v, hsu, hclosed, still_pushEvent v _⟩

theorem Still.leaves (h : Still s t) : Leaves c s t := .inl h

theorem after_failedWrite_leaves {errno : Errno} {nothingWritten pop : Bool} {what : String}
    (hc : s.isConnected c = true) :
    After (failedWrite reply c errno nothingWritten pop what) s (fun _ t => Leaves c s t)
      (Thrown fun _ t => Leaves c s t) := by
  have hrest : ∀ u, Still s u →
      After (if ¬ (nothingWritten = true ∧ errno ≠ .epipe) then do
          discard (closeConnection reply c)
          pushClosureThroughIterator reply c
        else pure ()) u (fun _ t => Leaves c s t) (Thrown fun _ _ => True) := by
    intro u hsu
    refine (after_closeUnless (hsu.isConnected c ▸ hc)).mono (fun _ t ht => ?_) fun _ _ hE => hE
    split at ht
    · exact ht ▸ hsu.leaves
    · exact ht.leaves hsu
  rw [failedWrite]
  refine after_noexceptBlock_bind (R := fun _ t => Leaves c s t) ?_ fun _ t ht => ?_
  · cases pop with
    | false =>
      rw [if_neg Bool.false_ne_true]
      exact hrest s (.refl s)
    | true =>
      rw [if_pos rfl, after_bind]
      refine after_connectionState fun e he => ?_
      rw [after_bind, after_modify]
      refine hrest _ (.setConnection he ⟨rfl, rfl, fun hfree _ => ?_⟩)
      have hconnected : e.connected = true := by
        simpa [TestFcgiClientInterface.isConnected, he] using hc
      simp [hconnected] at hfree
  · rw [after_ite]
    exact ⟨fun _ _ => ht, fun _ => ht⟩

end

/-! ## Abort requests and management requests -/

section

variable {s : TestFcgiClientInterface} {c : Nat} {reply : SystemReply}

theorem Leaves.of_still {t u : TestFcgiClientInterface} (h : Still s t) (h' : Leaves c t u) :
    Leaves c s u := by
  rcases h' with h' | ⟨s', v, hst, hclosed, hu⟩
  · exact .inl (h.trans h')
  · exact .inr ⟨s', v, h.trans hst, hclosed, hu⟩

theorem after_sendAbortRequest {id : FcgiRequestIdentifier} :
    After (sendAbortRequest reply id) s (fun _ t => Leaves id.descriptor s t)
      (Thrown fun _ t => Leaves id.descriptor s t) := by
  rw [sendAbortRequest, after_bind, after_get, after_ite]
  refine ⟨fun _ => (Still.refl s).leaves, fun _ => ?_⟩
  rw [after_ite]
  refine ⟨fun _ => (Still.refl s).leaves, fun hc => ?_⟩
  rw [Bool.not_eq_false] at hc
  split
  · trivial
  · rw [after_bind]
    refine after_writeOnSelect.mono (fun r t ht => ?_) fun _ _ hE => hE
    have hst := ht.1.still
    rw [after_ite]
    refine ⟨fun _ => ?_, fun _ => hst.leaves⟩
    rw [after_bind]
    exact (after_failedWrite_leaves (hst.isConnected _ ▸ hc)).mono (fun _ u hu => hu.of_still hst)
      fun _ _ hE hne => (hE hne).of_still hst

theorem after_sendManagementRequestHelper {iovec : List Bytes} {n : Nat}
    (hc : s.isConnected c = true) :
    After (sendManagementRequestHelper reply c iovec n) s (fun _ t => Leaves c s t)
      (Thrown fun _ t => Leaves c s t) := by
  unfold sendManagementRequestHelper
  split
  · trivial
  · rw [after_bind]
    refine after_scatterGatherSocketWrite.mono (fun r t ht => ?_) fun _ _ hE => hE
    have hst := ht.still
    rw [after_ite]
    refine ⟨fun _ => ?_, fun _ => hst.leaves⟩
    rw [after_bind]
    exact (after_failedWrite_leaves (hst.isConnected _ ▸ hc)).mono (fun _ u hu => hu.of_still hst)
      fun _ _ hE hne => (hE hne).of_still hst

theorem after_pushManagementRequest {q : ManagementRequestData} (hc : s.isConnected c = true) :
    After (pushManagementRequest reply c q) s (fun _ t => Still s t) (Thrown fun _ t => t = s) := by
  rw [pushManagementRequest, after_bind]
  unfold insertionSucceeds
  split
  · exact fun _ => rfl
  · rw [after_pure, after_bind]
    refine after_connectionState fun e he => ?_
    rw [after_modify]
    refine .setConnection he ⟨rfl, rfl, fun hfree _ => ?_⟩
    have hconnected : e.connected = true := by
      simpa [TestFcgiClientInterface.isConnected, he] using hc
    simp [hconnected] at hfree

/-- A management request is queued and then sent. -/
theorem after_queuedRequest {q : ManagementRequestData} {iovec : List Bytes} {n : Nat}
    (hc : s.isConnected c = true) :
    After (do pushManagementRequest reply c q; sendManagementRequestHelper reply c iovec n) s
      (fun _ t => Leaves c s t) (Thrown fun _ t => Leaves c s t) := by
  rw [after_bind]
  refine (after_pushManagementRequest hc).mono (fun _ t ht => ?_)
    fun _ t hE hne => .inl (by rw [hE hne]; exact .refl s)
  exact (after_sendManagementRequestHelper (ht.isConnected c ▸ hc)).mono
    (fun _ u hu => hu.of_still ht) fun _ _ hE hne => (hE hne).of_still ht

theorem after_sendBinaryManagementRequest {type : FcgiType} {data : Bytes} :
    After (sendBinaryManagementRequest reply c type data) s (fun _ t => Leaves c s t)
      (Thrown fun _ t => Leaves c s t) := by
  rw [sendBinaryManagementRequest, after_bind, after_get, after_ite]
  refine ⟨fun _ => (Still.refl s).leaves, fun hc => ?_⟩
  rw [after_ite]
  refine ⟨fun _ => (Still.refl s).leaves, fun _ => ?_⟩
  exact after_queuedRequest (Bool.not_eq_false _ ▸ hc)

theorem after_sendGetValuesRequest {params : ParamsMap} :
    After (sendGetValuesRequest reply c params) s (fun _ t => Leaves c s t)
      (Thrown fun _ t => Leaves c s t) := by
  rw [sendGetValuesRequest, after_bind, after_get, after_ite]
  refine ⟨fun _ => (Still.refl s).leaves, fun hc => ?_⟩
  rw [after_ite]
  refine ⟨fun _ => (Still.refl s).leaves, fun _ => ?_⟩
  exact after_queuedRequest (Bool.not_eq_false _ ▸ hc)

end

end AsComponents.Client
