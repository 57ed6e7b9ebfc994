import AsComponents.ClientRun

/-!
# What receiving does to the tables of a client

The bytes of a server move requests from `pending_request_map_` to
`completed_request_set_` and take management requests from the front of their
queue; they change nothing else that the tables have to agree on.
-/

namespace AsComponents.Client

open Protocol NameValue SocketFunctions AsComponents.Partition Std Critical

/-- The exceptions after which the process goes on satisfy `E`. -/
def Thrown (E : Failure → TestFcgiClientInterface → Prop) :
    Failure → TestFcgiClientInterface → Prop :=
  fun e t => e ≠ .halted → E e t

section

variable {α : Type} {s t u : TestFcgiClientInterface} {Q : α → TestFcgiClientInterface → Prop}
  {E : Failure → TestFcgiClientInterface → Prop} {c : Nat}

/-! ## Rules -/

theorem after_halt {h : Halt} : After (halt h : Operation α) s Q (Thrown E) := by
  simp [halt, Thrown]

theorem after_noexceptBlock {x : Operation α} (h : After x s Q (Thrown fun _ _ => True)) :
    After (noexceptBlock x) s Q (Thrown E) := by
  rw [noexceptBlock, after_tryCatch]
  refine h.mono (fun _ _ => id) fun e t _ => ?_
  split
  · simp [Thrown]
  · exact after_halt

theorem after_noexceptBlock_bind {β : Type} {x : Operation α} {f : α → Operation β}
    {R : α → TestFcgiClientInterface → Prop} {Q : β → TestFcgiClientInterface → Prop}
    (hx : After x s R (Thrown fun _ _ => True)) (hf : ∀ a t, R a t → After (f a) t Q (Thrown E)) :
    After (noexceptBlock x >>= f) s Q (Thrown E) := by
  rw [after_bind]
  exact (after_noexceptBlock hx).mono hf fun _ _ hE => hE

theorem after_connectionState {Q : ConnectionState → TestFcgiClientInterface → Prop}
    (h : ∀ e, s.connectionMap[c]? = some e → Q e s) :
    After (connectionState c) s Q (Thrown E) := by
  rw [connectionState, after_bind, after_get]
  split
  · rename_i e he
    exact h e he
  · exact after_halt

theorem after_requestData {it : Option FcgiRequestIdentifier}
    {Q : FcgiRequestIdentifier × RequestData → TestFcgiClientInterface → Prop}
    (h : ∀ id d, it = some id → s.pendingRequestMap[id]? = some d → Q (id, d) s) :
    After (requestData it) s Q (Thrown E) := by
  unfold requestData
  split
  · exact after_halt
  · rename_i id
    rw [after_bind, after_get]
    split
    · rename_i d hd
      exact h id d rfl hd
    · exact after_halt

theorem after_setRecordState {r : RecordState} {Q : Unit → TestFcgiClientInterface → Prop}
    (h : ∀ e, s.connectionMap[c]? = some e → Q ⟨⟩ (s.setConnection c { e with recordState := r })) :
    After (setRecordState c r) s Q (Thrown E) := by
  rw [setRecordState, after_bind]
  exact after_connectionState fun e he => h e he

end

/-! ## The effect of received bytes -/

theorem rel_cases {α : Type} {r : α → α → Prop} {x y : Option α} (h : Option.Rel r x y) :
    x = none ∧ y = none ∨ ∃ a b, x = some a ∧ y = some b ∧ r a b := by
  cases h with
  | none => exact .inl ⟨rfl, rfl⟩
  | some hab => exact .inr ⟨_, _, rfl, rfl, hab⟩

theorem rel_mono {α : Type} {r r' : α → α → Prop} {x y : Option α} (h : Option.Rel r x y)
    (hr : ∀ a b, r a b → r' a b) : Option.Rel r' x y := by
  cases h with
  | none => exact .none
  | some hab => exact .some (hr _ _ hab)

theorem rel_refl {α : Type} {r : α → α → Prop} (hr : ∀ a, r a a) (x : Option α) :
    Option.Rel r x x := by
  cases x with
  | none => exact .none
  | some a => exact .some (hr a)

theorem rel_trans {α : Type} {r : α → α → Prop} (hr : ∀ a b c, r a b → r b c → r a c)
    {x y z : Option α} (h : Option.Rel r x y) (h' : Option.Rel r y z) : Option.Rel r x z := by
  rcases rel_cases h with ⟨rfl, rfl⟩ | ⟨a, b, rfl, rfl, hab⟩
  · exact h'
  · rcases rel_cases h' with ⟨hb, -⟩ | ⟨b', c, hb, rfl, hbc⟩
    · cases hb
    · cases hb
      exact .some (hr a b c hab hbc)

/-- Two values of one element of `connection_map_`: only its record and the
front of its queue may differ. -/
structure SameConnection (e e' : ConnectionState) : Prop where
  connected : e'.connected = e.connected
  idManager : e'.idManager = e.idManager
  managementQueue : e'.managementQueue <:+ e.managementQueue

theorem SameConnection.refl (e : ConnectionState) : SameConnection e e :=
  ⟨rfl, rfl, List.suffix_refl _⟩

theorem SameConnection.trans {e e' e'' : ConnectionState} (h : SameConnection e e')
    (h' : SameConnection e' e'') : SameConnection e e'' :=
  ⟨h'.connected.trans h.connected, h'.idManager.trans h.idManager,
    h'.managementQueue.trans h.managementQueue⟩

/-- `t` follows `s` when bytes were received. -/
structure Receives (s t : TestFcgiClientInterface) : Prop where
  entries : ∀ k : Nat, Option.Rel SameConnection s.connectionMap[k]? t.connectionMap[k]?
  pending : ∀ id, id ∈ t.pendingRequestMap → id ∈ s.pendingRequestMap
  completed : ∀ id, id ∈ t.completedRequestSet ↔
    id ∈ s.completedRequestSet ∨ id ∈ s.pendingRequestMap ∧ id ∉ t.pendingRequestMap
  numberConnected : t.numberConnected = s.numberConnected
  remainingReady : t.remainingReady = s.remainingReady
  nextConnection : t.nextConnection = s.nextConnection
  selectSet : t.selectSet = s.selectSet
  sockets : t.sockets = s.sockets
  limits : t.limits = s.limits

namespace Receives

variable {s t u : TestFcgiClientInterface} {c : Nat}

theorem refl (s : TestFcgiClientInterface) : Receives s s where
  entries _ := rel_refl .refl _
  pending _ := id
  completed id := by simp
  numberConnected := rfl
  remainingReady := rfl
  nextConnection := rfl
  selectSet := rfl
  sockets := rfl
  limits := rfl

theorem trans (h : Receives s t) (h' : Receives t u) : Receives s u where
  entries k := rel_trans (fun _ _ _ => .trans) (h.entries k) (h'.entries k)
  pending id hid := h.pending id (h'.pending id hid)
  completed id := by
    have hp := h.pending id
    have hp' := h'.pending id
    rw [h'.completed, h.completed]
    by_cases ht : id ∈ t.pendingRequestMap <;> grind
  numberConnected := h'.numberConnected.trans h.numberConnected
  remainingReady := h'.remainingReady.trans h.remainingReady
  nextConnection := h'.nextConnection.trans h.nextConnection
  selectSet := h'.selectSet.trans h.selectSet
  sockets := h'.sockets.trans h.sockets
  limits := h'.limits.trans h.limits

/-- One element of `connection_map_` changes. -/
theorem setConnection {e e' : ConnectionState} (he : s.connectionMap[c]? = some e)
    (hsame : SameConnection e e') : Receives s (s.setConnection c e') :=
  { refl s with
    entries := fun k => by
      rw [TestFcgiClientInterface.getElem?_setConnection]
      split
      · rename_i hk
        rw [hk, he]
        exact .some hsame
      · exact rel_refl .refl _ }

theorem setPending {id : FcgiRequestIdentifier} (hid : id ∈ s.pendingRequestMap) (d : RequestData) :
    Receives s (s.setPending id d) := by
  have hkeys : ∀ i, i ∈ (s.setPending id d).pendingRequestMap ↔ i ∈ s.pendingRequestMap := by
    intro i
    simp only [TestFcgiClientInterface.setPending]
    grind
  exact { refl s with
    pending := fun i hi => (hkeys i).mp hi
    completed := fun i => by
      rw [hkeys]
      simp [TestFcgiClientInterface.setPending] }

theorem pushEvent (s : TestFcgiClientInterface) (e : ServerEvent) : Receives s (s.pushEvent e) :=
  { refl s with }

end Receives

/-! ## The functions that receive -/

/-- The operation has the effect of received bytes, or the process stops. -/
def Yields {α : Type} (x : Operation α) : Prop :=
  ∀ s, After x s (fun _ t => Receives s t) (Thrown fun _ _ => True)

namespace Yields

variable {α β : Type}

theorem pure (a : α) : Yields (pure a : Operation α) := fun s => Receives.refl s

theorem throw (f : Failure) : Yields (throw f : Operation α) := fun _ _ => trivial

theorem wait : Yields (Critical.wait : Operation α) := fun _ => trivial

theorem halt (h : Halt) : Yields (halt h : Operation α) := fun _ => after_halt

theorem get : Yields (get : Operation TestFcgiClientInterface) := fun s => Receives.refl s

theorem bind {x : Operation α} {f : α → Operation β} (hx : Yields x) (hf : ∀ a, Yields (f a)) :
    Yields (x >>= f) := by
  intro s
  rw [after_bind]
  refine (hx s).mono (fun a t ht => ?_) fun _ _ => id
  exact (hf a t).mono (fun _ _ => ht.trans) fun _ _ => id

theorem ite {p : Prop} {_ : Decidable p} {x y : Operation α} (hx : p → Yields x)
    (hy : ¬ p → Yields y) : Yields (if p then x else y) := by
  by_cases hp : p
  · rw [if_pos hp]
    exact hx hp
  · rw [if_neg hp]
    exact hy hp

theorem noexceptBlock {x : Operation α} (hx : Yields x) : Yields (noexceptBlock x) := fun s =>
  after_noexceptBlock (hx s)

end Yields

theorem yields_connectionState (c : Nat) : Yields (connectionState c) := fun s =>
  after_connectionState fun _ _ => .refl s

theorem yields_requestData (it : Option FcgiRequestIdentifier) : Yields (requestData it) := fun s =>
  after_requestData fun _ _ _ _ => .refl s

theorem yields_setRecordState (c : Nat) (r : RecordState) : Yields (setRecordState c r) := fun _ =>
  after_setRecordState fun _ he => .setConnection he ⟨rfl, rfl, List.suffix_refl _⟩

theorem yields_pushEvent (f : TestFcgiClientInterface → ServerEvent) :
    Yields (modify fun s => s.pushEvent (f s)) := fun s => .pushEvent s _

/-- What follows the access to a request knows the request. -/
theorem yields_withRequest {β : Type} (it : Option FcgiRequestIdentifier)
    {f : FcgiRequestIdentifier × RequestData → Operation β}
    (h : ∀ id d s, s.pendingRequestMap[id]? = some d →
      After (f (id, d)) s (fun _ t => Receives s t) (Thrown fun _ _ => True)) :
    Yields (requestData it >>= f) := by
  intro s
  rw [after_bind]
  exact after_requestData fun id d _ hd => h id d s hd

theorem receives_setPending {s : TestFcgiClientInterface} {id : FcgiRequestIdentifier}
    {d : RequestData} (hd : s.pendingRequestMap[id]? = some d) (d' : RequestData) :
    Receives s (s.setPending id d') :=
  .setPending (ExtTreeMap.mem_iff_isSome_getElem?.mpr (by simp [hd])) d'

theorem yields_pendingIterCheck (it : Option FcgiRequestIdentifier) (id : FcgiRequestIdentifier) :
    Yields (pendingIterCheck it id) := by
  unfold pendingIterCheck
  exact .ite (fun _ => .pure _) fun _ => .bind .get fun _ => .pure _

theorem yields_readPastTheEnd (reply : SystemReply) : Yields (readPastTheEnd reply) := by
  unfold readPastTheEnd
  split
  · exact .pure _
  · exact .halt _

theorem yields_stderrEmpty (reply : SystemReply) (it : Option FcgiRequestIdentifier) :
    Yields (stderrEmpty reply it) := by
  unfold stderrEmpty
  split
  · exact yields_readPastTheEnd reply
  · exact .bind (yields_requestData _) fun _ => .pure _

theorem yields_checkEndRequest (reply : SystemReply) (it : Option FcgiRequestIdentifier) (n : Nat) :
    Yields (checkEndRequest reply it n) := by
  unfold checkEndRequest
  refine .bind (yields_stderrEmpty reply it) fun empty => ?_
  refine .ite (fun _ => .pure _) fun _ => ?_
  refine yields_withRequest it fun id d s hd => ?_
  rw [after_ite]
  refine ⟨fun _ => .refl s, fun _ => ?_⟩
  rw [after_ite]
  refine ⟨fun _ => ?_, fun _ => .refl s⟩
  rw [after_bind]
  exact receives_setPending hd _

theorem yields_checkStream (completed : RequestData → Bool) (it : Option FcgiRequestIdentifier) :
    Yields (checkStream completed it) := by
  unfold checkStream
  exact .ite (fun _ => .pure _) fun _ => .bind (yields_requestData it) fun _ => .pure _

theorem yields_checkType (reply : SystemReply) (c : Nat) (it : Option FcgiRequestIdentifier)
    (type : FcgiType) (fcgiId : UInt16) (n : Nat) :
    Yields (checkType reply c it type fcgiId n) := by
  unfold checkType
  refine .ite (fun _ => ?_) fun _ => .ite (fun _ => ?_) fun _ => .ite (fun _ => ?_) fun _ => ?_
  · exact .bind (yields_pendingIterCheck it _) fun it =>
      .bind (yields_checkEndRequest reply it n) fun _ => .pure _
  · exact .bind (yields_pendingIterCheck it _) fun it =>
      .bind (yields_checkStream _ it) fun _ => .pure _
  · exact .bind (yields_pendingIterCheck it _) fun it =>
      .bind (yields_checkStream _ it) fun _ => .pure _
  · refine .bind (yields_connectionState c) fun e => ?_
    exact .ite (fun _ => .pure _) fun _ => .ite (fun _ => .pure _) fun _ => .pure _

theorem yields_updateOnHeaderCompletion (reply : SystemReply) (c : Nat)
    (it : Option FcgiRequestIdentifier) : Yields (updateOnHeaderCompletion reply c it) := by
  unfold updateOnHeaderCompletion
  refine .bind (yields_connectionState c) fun e => ?_
  refine .bind (.ite (fun _ => .pure _) fun _ => yields_checkType _ _ _ _ _ _) fun r => ?_
  exact .bind (yields_setRecordState c _) fun _ => .pure _

theorem yields_generateInvalidRecord (c : Nat) : Yields (generateInvalidRecord c) := by
  unfold generateInvalidRecord
  exact .bind (yields_connectionState c) fun _ => yields_pushEvent _

theorem yields_processEndRequest (c : Nat) (it : Option FcgiRequestIdentifier) (content : Bytes) :
    Yields (processEndRequest c it content) := by
  unfold processEndRequest
  split
  · refine .ite (fun _ => .bind (yields_generateInvalidRecord c) fun _ => .pure _) fun _ => ?_
    refine yields_withRequest it fun id d s hd => ?_
    rw [after_bind, after_get, after_ite]
    refine ⟨fun _ _ => trivial, fun hnew => ?_⟩
    rw [after_bind, after_modify]
    have hid : id ∈ s.pendingRequestMap := ExtTreeMap.mem_iff_isSome_getElem?.mpr (by simp [hd])
    exact { Receives.refl s with
      pending := fun i hi => (ExtTreeMap.mem_erase.mp hi).2
      completed := fun i => by grind }
  · exact .halt _

theorem yields_popManagementQueue (c : Nat) : Yields (popManagementQueue c) := by
  intro s
  rw [popManagementQueue, after_bind]
  refine after_connectionState fun e he => ?_
  split
  · exact after_halt
  · rename_i q queue hqueue
    rw [after_bind, after_modify]
    exact .setConnection he ⟨rfl, rfl, by rw [hqueue]; exact List.suffix_cons q queue⟩

theorem yields_processValidRecord (c : Nat) (it : Option FcgiRequestIdentifier) (r : RecordState) :
    Yields (processValidRecord c it r) := by
  unfold processValidRecord
  refine .ite (fun _ => yields_processEndRequest c it _) fun _ => ?_
  refine .ite (fun _ => ?_) fun _ => .ite (fun _ => ?_) fun _ => .ite (fun _ => ?_) fun _ =>
    .ite (fun _ => ?_) fun _ => .throw _
  · refine .ite (fun _ => ?_) fun _ => .pure _
    refine yields_withRequest it fun id d s hd => ?_
    rw [after_bind]
    exact receives_setPending hd _
  · refine .ite (fun _ => ?_) fun _ => .pure _
    refine yields_withRequest it fun id d s hd => ?_
    rw [after_bind]
    exact receives_setPending hd _
  · refine .bind (yields_popManagementQueue c) fun q => ?_
    exact .bind (yields_pushEvent _) fun _ => .pure _
  · split
    · exact .halt _
    · refine .bind (yields_popManagementQueue c) fun q => ?_
      exact .bind (yields_pushEvent _) fun _ => .pure _

theorem yields_processRecord (c : Nat) (it : Option FcgiRequestIdentifier) (r : RecordState) :
    Yields (processRecord c it r) := by
  unfold processRecord
  refine .ite (fun _ => ?_) fun _ => yields_processValidRecord c it r
  exact .bind (yields_generateInvalidRecord c) fun _ => .pure _

theorem yields_processCompleteRecord (c : Nat) (it : Option FcgiRequestIdentifier) :
    Yields (processCompleteRecord c it) := by
  unfold processCompleteRecord
  refine .bind (yields_connectionState c) fun e => .bind (yields_processRecord c it _) fun it => ?_
  exact .bind (yields_setRecordState c _) fun _ => .pure _

theorem yields_pendingIterCheckAndUpdate (it : Option FcgiRequestIdentifier)
    (id : FcgiRequestIdentifier) : Yields (pendingIterCheckAndUpdate it id) := by
  unfold pendingIterCheckAndUpdate
  refine .bind (yields_pendingIterCheck it id) fun it => ?_
  exact .ite (fun _ => .throw _) fun _ => .pure _

theorem yields_refreshIf (needed : Bool) (it : Option FcgiRequestIdentifier)
    (id : FcgiRequestIdentifier) : Yields (refreshIf needed it id) :=
  .ite (fun _ => yields_pendingIterCheckAndUpdate it id) fun _ => .pure _

theorem yields_receiveHeader (reply : SystemReply) (c : Nat) (it : Option FcgiRequestIdentifier)
    (data : Bytes) : Yields (receiveHeader reply c it data) := by
  unfold receiveHeader
  refine .bind (yields_connectionState c) fun e => .ite (fun _ => ?_) fun _ => .pure _
  refine .bind (yields_setRecordState c _) fun _ => .ite (fun _ => ?_) fun _ => .pure _
  refine .bind (yields_updateOnHeaderCompletion reply c it) fun it => ?_
  refine .bind (yields_connectionState c) fun e' => .ite (fun _ => ?_) fun _ => .pure _
  exact .bind (yields_processCompleteRecord c it) fun _ => .pure _

theorem yields_storeContent (c : Nat) (it : Option FcgiRequestIdentifier) (r : RecordState)
    (bytes : Bytes) : Yields (storeContent c it r bytes) := by
  unfold storeContent
  refine .ite (fun _ => ?_) fun _ => ?_
  · refine .bind (yields_pendingIterCheckAndUpdate it _) fun it => ?_
    refine yields_withRequest it fun id d s hd => ?_
    rw [after_bind]
    exact receives_setPending hd _
  · refine .bind (yields_refreshIf _ it _) fun it => ?_
    exact .bind (yields_setRecordState c _) fun _ => .pure _

theorem yields_receiveContent (c : Nat) (it : Option FcgiRequestIdentifier) (data : Bytes) :
    Yields (receiveContent c it data) := by
  unfold receiveContent
  refine .bind (yields_connectionState c) fun e => .ite (fun _ => ?_) fun _ => .pure _
  refine .bind (yields_storeContent c it _ _) fun it => ?_
  refine .bind (yields_connectionState c) fun e' => ?_
  refine .bind (yields_setRecordState c _) fun _ => .ite (fun _ => ?_) fun _ => .pure _
  exact .bind (yields_processCompleteRecord c it) fun _ => .pure _

theorem yields_receivePadding (c : Nat) (it : Option FcgiRequestIdentifier) (data : Bytes) :
    Yields (receivePadding c it data) := by
  unfold receivePadding
  refine .bind (yields_connectionState c) fun e => .ite (fun _ => ?_) fun _ => .pure _
  refine .bind (yields_setRecordState c _) fun _ => .ite (fun _ => ?_) fun _ => .pure _
  refine .bind (yields_refreshIf _ it _) fun it => ?_
  exact .bind (yields_processCompleteRecord c it) fun _ => .pure _

theorem yields_receiveBuffer (reply : SystemReply) (c fuel : Nat) (it : Option FcgiRequestIdentifier)
    (data : Bytes) : Yields (receiveBuffer reply c fuel it data) := by
  induction fuel generalizing it data with
  | zero =>
    cases data with
    | nil => exact .pure _
    | cons b bs => exact .wait
  | succ fuel ih =>
    cases data with
    | nil => exact .pure _
    | cons b bs =>
      refine .bind ?_ fun r => ih r.it r.data
      refine .bind (yields_receiveHeader reply c it _) fun r => .ite (fun _ => .pure _) fun _ => ?_
      refine .bind (yields_receiveContent c r.it r.data) fun r => .ite (fun _ => .pure _) fun _ => ?_
      exact yields_receivePadding c r.it r.data

theorem yields_receive (reply : SystemReply) (c : Nat) (it : Option FcgiRequestIdentifier)
    (data : Bytes) : Yields (receive reply c it data) :=
  .noexceptBlock (yields_receiveBuffer reply c _ it data)

end AsComponents.Client
