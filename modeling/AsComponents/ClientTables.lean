import AsComponents.ClientRequests

/-! What every call keeps true of the tables of a client. -/

namespace AsComponents.Client

open Protocol NameValue SocketFunctions AsComponents.Partition Std Critical

/-! ## Properties of the tables -/

/-- The operation keeps a property true, also when it throws. -/
def Maintains {α : Type} (P : TestFcgiClientInterface → Prop) (x : Operation α) : Prop :=
  ∀ s, P s → After x s (fun _ t => P t) (Thrown fun _ t => P t)

/-- A property of the tables that the receipt of bytes and the closure of a
connection keep true. -/
structure Tabular (P : TestFcgiClientInterface → Prop) : Prop where
  still : ∀ {s t}, P s → Still s t → P t
  retracked : ∀ {s t : TestFcgiClientInterface}, P s →
    t = { s with
      remainingReady := t.remainingReady
      nextConnection := t.nextConnection
      selectSet := t.selectSet } → P t
  closed : ∀ {s t c}, P s → Closed c s t → P t

/-- A property that every part of `RetrieveServerEvent` keeps true; `V` is what
holds of the connection that is read and of the iterator over its requests. -/
structure Retrieving (P : TestFcgiClientInterface → Prop)
    (V : TestFcgiClientInterface → Nat → Option FcgiRequestIdentifier → Prop) : Prop where
  start : ∀ {s : TestFcgiClientInterface} {c : Nat}, P s → s.isConnected c = true → V s c none
  receive : ∀ (reply : SystemReply) {s : TestFcgiClientInterface} {c : Nat}
    {it : Option FcgiRequestIdentifier} (data : Bytes), P s → V s c it →
    After (receive reply c it data) s (fun it t => P t ∧ V t c it) (Thrown fun _ t => P t)
  retracked : ∀ {s t : TestFcgiClientInterface}, P s →
    t = { s with
      remainingReady := t.remainingReady
      nextConnection := t.nextConnection
      selectSet := t.selectSet } → P t
  closed : ∀ {s t c}, P s → Closed c s t → P t
  events : ∀ {s : TestFcgiClientInterface} (queue : List ServerEvent), P s →
    P { s with microEventQueue := queue }

section

variable {α β : Type} {P : TestFcgiClientInterface → Prop} {reply : SystemReply} {c : Nat}

namespace Maintains

theorem pure (a : α) : Maintains P (pure a : Operation α) := fun _ => id

theorem throw (f : Failure) : Maintains P (throw f : Operation α) := fun _ h _ => h

theorem wait : Maintains P (Critical.wait : Operation α) := fun _ _ => trivial

theorem bind {x : Operation α} {f : α → Operation β} (hx : Maintains P x)
    (hf : ∀ a, Maintains P (f a)) : Maintains P (x >>= f) := by
  intro s hs
  rw [after_bind]
  exact (hx s hs).mono (fun a t ht => hf a t ht) fun _ _ => id

theorem get_bind {f : TestFcgiClientInterface → Operation β} (hf : ∀ s, Maintains P (f s)) :
    Maintains P (get >>= f) := by
  intro s hs
  rw [after_bind, after_get]
  exact hf s s hs

theorem discard {x : Operation α} (hx : Maintains P x) : Maintains P (discard x) := by
  intro s hs
  rw [after_discard]
  exact (hx s hs).mono (fun _ _ ht => ht) fun _ _ => id

theorem ite {p : Prop} {_ : Decidable p} {x y : Operation α} (hx : p → Maintains P x)
    (hy : ¬ p → Maintains P y) : Maintains P (if p then x else y) := by
  by_cases hp : p
  · rw [if_pos hp]
    exact hx hp
  · rw [if_neg hp]
    exact hy hp

theorem noexceptBlock {x : Operation α} (hx : Maintains P x) : Maintains P (noexceptBlock x) :=
  fun s hs => after_noexceptBlock ((hx s hs).mono (fun _ _ => id) fun _ _ _ _ => trivial)

end Maintains

namespace Retrieving

variable {V : TestFcgiClientInterface → Nat → Option FcgiRequestIdentifier → Prop}
  (hP : Retrieving P V)

include hP

theorem retrack {f : TestFcgiClientInterface → TestFcgiClientInterface}
    (hf : ∀ s, f s = { s with
      remainingReady := (f s).remainingReady
      nextConnection := (f s).nextConnection
      selectSet := (f s).selectSet }) : Maintains P (modify f : Operation PUnit) := fun s hs =>
  hP.retracked hs (hf s)

theorem pushEvent (e : ServerEvent) :
    Maintains P (modify (·.pushEvent e) : Operation PUnit) := fun _ hs => hP.events _ hs

theorem closeConnection : Maintains P (closeConnection reply c) := by
  intro s hs
  refine (after_closeConnection reply).mono (fun b t ht => ?_) fun e t hE hne => ?_
  · obtain ⟨-, ht⟩ := ht
    split at ht
    · exact hP.closed hs ht
    · exact ht ▸ hs
  · rcases hE hne with ⟨ht, -⟩ | ⟨rfl, -⟩
    · exact hP.closed hs ht
    · exact hs

theorem finishReading (e : Errno) : Maintains P (finishReading reply c e) := by
  have hend : Maintains P (if e = .zero ∨ e = .econnreset then do
      discard (Client.closeConnection reply c)
      modify (·.pushEvent (.connectionClosure c))
    else Pure.pure ()) :=
    .ite (fun _ => .bind (.discard hP.closeConnection) fun _ => hP.pushEvent _) fun _ => .pure _
  unfold Client.finishReading
  refine .noexceptBlock (.bind (hP.retrack fun _ => rfl) fun _ => .get_bind fun s => ?_)
  refine .ite (fun _ => .bind (hP.retrack fun _ => rfl) fun _ => hend) fun _ => .get_bind fun s => ?_
  exact .ite (fun _ => .bind (.throw _) fun _ => .bind (hP.retrack fun _ => rfl) fun _ => hend)
    fun _ => .bind (hP.retrack fun _ => rfl) fun _ => hend

theorem readLoop {s : TestFcgiClientInterface} {it : Option FcgiRequestIdentifier}
    (hs : P s) (hit : V s c it) (reads : List ReadReturn) :
    After (readLoop reply c it reads) s (fun _ t => P t) (Thrown fun _ t => P t) := by
  induction reads generalizing s it with
  | nil => trivial
  | cons r reads ih =>
    cases r with
    | filled bytes =>
      rw [Client.readLoop]
      refine (after_ite_bind (x := Critical.wait)).mpr ?_
      rw [after_ite]
      refine ⟨fun _ => trivial, fun _ => ?_⟩
      rw [after_pure, after_bind]
      exact (hP.receive reply bytes hs hit).mono (fun _ t ht => ih ht.1 ht.2) fun _ _ hE => hE
    | short bytes e =>
      rw [Client.readLoop]
      refine (after_ite_bind (x := Critical.wait)).mpr ?_
      rw [after_ite]
      refine ⟨fun _ => trivial, fun _ => ?_⟩
      rw [after_pure, after_bind, after_discard]
      refine (hP.receive reply bytes hs hit).mono (fun _ t ht => ?_) fun _ _ hE => hE
      rw [after_ite]
      exact ⟨fun _ => hP.finishReading e t ht.1, fun _ _ => ht.1⟩

theorem examineLoop (reads : List ReadReturn) (cs : List Nat) :
    Maintains P (examineLoop reply reads cs) := by
  induction cs with
  | nil => exact .throw _
  | cons c cs ih =>
    intro s hs
    rw [Client.examineLoop, after_bind, after_get, after_ite]
    refine ⟨fun hready => ?_, fun _ => ?_⟩
    · exact hP.readLoop hs (hP.start hs (Bool.and_eq_true_iff.mp hready).1) reads
    · exact Maintains.bind (hP.retrack fun _ => rfl) (fun _ => ih) s hs

theorem selectConnections (result : SelectReturn) : Maintains P (selectConnections result) := by
  unfold Client.selectConnections
  refine .get_bind fun s => .bind (hP.retrack fun _ => rfl) fun _ => ?_
  cases result with
  | failed e => exact .ite (fun _ => .bind (.throw _) fun _ => .throw _) fun _ => .throw _
  | ready connections =>
    refine .ite (fun _ => .bind (.throw _) fun _ => ?_) fun _ => ?_
    all_goals
      exact .ite (fun _ => .bind .wait fun _ => hP.retrack fun _ => rfl) fun _ =>
        hP.retrack fun _ => rfl

theorem popEvent : Maintains P popEvent := by
  unfold Client.popEvent
  refine .get_bind fun s => ?_
  split
  · exact .pure _
  · exact .bind (fun t ht => hP.events _ ht) fun _ => .pure _

theorem retrieveRound (round : Round) : Maintains P (retrieveRound reply round) := by
  have hexamine : Maintains P (examineSelectReturn reply round.reads) := by
    refine .get_bind fun t => ?_
    split
    · exact hP.examineLoop _ _
    · exact hP.examineLoop _ _
    · exact fun _ _ => after_halt
  refine .get_bind fun s => ?_
  exact .ite (fun _ => .bind (hP.selectConnections _) fun _ => hexamine) fun _ => hexamine

theorem retrieveServerEvent : Maintains P (retrieveServerEvent reply) := by
  have hloop : ∀ rounds, Maintains P (retrieveLoop reply rounds) := by
    intro rounds
    induction rounds with
    | nil =>
      refine .bind hP.popEvent fun event => ?_
      cases event with
      | some event => exact .pure _
      | none => exact .wait
    | cons round rounds ih =>
      refine .bind hP.popEvent fun event => ?_
      cases event with
      | some event => exact .pure _
      | none => exact .bind (hP.retrieveRound round) fun _ => ih
  exact hloop _

end Retrieving

theorem Tabular.retrieving (hP : Tabular P) : Retrieving P fun _ _ _ => True where
  start _ _ := trivial
  receive reply _ _ _ data hs _ :=
    after_noexceptBlock ((yields_receiveBuffer reply _ _ _ data _).mono
      (fun _ _ ht => ⟨hP.still hs ht.still, trivial⟩) fun _ _ _ _ => trivial)
  retracked := hP.retracked
  closed := hP.closed
  events _ hs := hP.still hs (.of_eq rfl rfl rfl rfl rfl rfl rfl)

end

/-! ## The invariant is tabular -/

theorem tabular_invariant : Tabular Invariant where
  still h hst := h.still hst
  retracked h ht := by
    rw [ht]
    exact ⟨h.completed_entry, h.pending_connected, h.disconnected, h.disjoint, h.used,
      h.numberConnected⟩
  closed h hst := h.closed hst

theorem tabular_accounted : Tabular (Accounted none) where
  still h hst := h.still hst
  retracked h ht := by
    rw [ht]
    exact h
  closed h hst := h.closed hst (by simp)

/-! ## The steps of `SendRequest` -/

section

variable {reply : SystemReply} {c : Nat} {newId : UInt16} {request : FcgiRequestDataReference}
  {s t : TestFcgiClientInterface}

/-- A connection takes or releases an identifier of no request. -/
structure Retaken (c : Nat) (newId : UInt16) (s t : TestFcgiClientInterface) : Prop where
  frame : t = { s with connectionMap := t.connectionMap }
  others : ∀ k, k ≠ c → t.connectionMap[k]? = s.connectionMap[k]?
  entry : ∃ e m, s.connectionMap[c]? = some e ∧ t.connectionMap[c]? = some { e with idManager := m } ∧
    ∀ i : UInt16, i ≠ newId → m.isUsed i.toNat = e.isUsed i

namespace Retaken

theorem entry_iff (h : Retaken c newId s t) {k : Nat} {e' : ConnectionState}
    (he' : t.connectionMap[k]? = some e') : ∃ e, s.connectionMap[k]? = some e ∧
      e'.connected = e.connected ∧ e'.managementQueue = e.managementQueue ∧
      ∀ i, (k = c → i ≠ newId) → e'.isUsed i = e.isUsed i := by
  by_cases hk : k = c
  · subst hk
    obtain ⟨e, m, he, hm, hused⟩ := h.entry
    obtain rfl := Option.some.inj (hm.symm.trans he')
    exact ⟨e, he, rfl, rfl, fun i hi => hused i (hi rfl)⟩
  · exact ⟨e', h.others k hk ▸ he', rfl, rfl, fun _ _ => rfl⟩

theorem mem_iff (h : Retaken c newId s t) (k : Nat) : k ∈ t.connectionMap ↔ k ∈ s.connectionMap := by
  by_cases hk : k = c
  · subst hk
    obtain ⟨e, m, he, hm, -⟩ := h.entry
    simp [mem_connectionMap_iff, he, hm]
  · rw [mem_connectionMap_iff, h.others k hk, ← mem_connectionMap_iff]

theorem isConnected (h : Retaken c newId s t) (k : Nat) : t.isConnected k = s.isConnected k := by
  by_cases hk : k = c
  · subst hk
    obtain ⟨e, m, he, hm, -⟩ := h.entry
    rw [TestFcgiClientInterface.isConnected, TestFcgiClientInterface.isConnected, he, hm]
  · exact isConnected_congr (h.others k hk)

end Retaken

theorem Acquired.retaken (h : Acquired c newId s t) : Retaken c newId s t := by
  obtain ⟨e, id, m, he, hget, rfl, rfl⟩ := h.acquired
  refine ⟨rfl, fun k hk => ?_, e, m, he, ?_, fun i hi => ?_⟩
  · exact (s.getElem?_setConnection c k _).trans (if_neg hk)
  · exact (s.getElem?_setConnection c c _).trans (if_pos rfl)
  · rw [(getId_uint16 hget).2.2]
    simp [hi]

theorem Released.retaken (h : Released c [⟨c, newId⟩] s t) (hc : c ∈ s.connectionMap)
    (hpending : t.pendingRequestMap = s.pendingRequestMap) : Retaken c newId s t := by
  obtain ⟨e, he⟩ := mem_connectionMap_iff.mp hc
  obtain ⟨m, hm, hused⟩ := h.entry e he
  refine ⟨?_, h.others, e, m, he, hm, fun i hi => ?_⟩
  · have hframe := h.frame
    rw [hpending] at hframe
    exact hframe
  · rw [hused]
    simp [hi]

/-- The identifier is not that of a request. -/
def Unassigned (id : FcgiRequestIdentifier) (s : TestFcgiClientInterface) : Prop :=
  id ∉ s.completedRequestSet ∧ id ∉ s.pendingRequestMap

theorem Acquired.unassigned (h : Acquired c newId s t) (hs : Invariant s) :
    Unassigned ⟨c, newId⟩ s := by
  obtain ⟨e, id, m, he, hget, rfl, -⟩ := h.acquired
  have hfresh := (getId_uint16 hget).1
  have hused := hs.used c e he (UInt16.ofNat id.toNat)
  rw [hfresh] at hused
  exact ⟨fun hmem => by simpa using hused (.inl hmem), fun hmem => by simpa using hused (.inr hmem)⟩

theorem Invariant.retaken (h : Invariant s) (hst : Retaken c newId s t)
    (hfree : Unassigned ⟨c, newId⟩ s) : Invariant t := by
  have hcompleted : t.completedRequestSet = s.completedRequestSet := by rw [hst.frame]
  have hpending : t.pendingRequestMap = s.pendingRequestMap := by rw [hst.frame]
  have hnumber : t.numberConnected = s.numberConnected := by rw [hst.frame]
  refine ⟨fun i hi => ?_, fun i hi => ?_, fun k e' he' hdisconnected => ?_, fun i hi => ?_,
    fun k e' he' i hi => ?_, ?_⟩
  · rw [hst.mem_iff]
    exact h.completed_entry i (hcompleted ▸ hi)
  · rw [hst.isConnected]
    exact h.pending_connected i (hpending ▸ hi)
  · obtain ⟨e, he, hconnected, hqueue, -⟩ := hst.entry_iff he'
    rw [completedOf_congr hcompleted, hqueue]
    exact h.disconnected k e he (hconnected ▸ hdisconnected)
  · rw [hpending]
    exact h.disjoint i (hcompleted ▸ hi)
  · rw [hcompleted, hpending] at hi
    obtain ⟨e, he, -, -, hused⟩ := hst.entry_iff he'
    rw [hused i, h.used k e he i hi]
    rintro rfl rfl
    exact hi.elim hfree.1 hfree.2
  · have hcount := length_eq_of_mem_iff (nodup_connectedDescriptors s) (nodup_connectedDescriptors t)
      fun k => by rw [mem_connectedDescriptors, mem_connectedDescriptors, hst.isConnected]
    rw [hnumber, h.numberConnected, hcount]

theorem Accounted.acquired (h : Accounted none s) (hst : Acquired c newId s t) :
    Accounted (some ⟨c, newId⟩) t := by
  intro k e' he' i hused
  have hretaken := hst.retaken
  rw [show t.completedRequestSet = s.completedRequestSet by rw [hretaken.frame],
    show t.pendingRequestMap = s.pendingRequestMap by rw [hretaken.frame]]
  obtain ⟨e, he, -, -, hused'⟩ := hretaken.entry_iff he'
  by_cases hnew : k = c ∧ i = newId
  · exact .inr (.inr (by rw [hnew.1, hnew.2]))
  · rw [hused' i fun hk hi => hnew ⟨hk, hi⟩] at hused
    rcases h k e he i hused with hi | hi | hi
    · exact .inl hi
    · exact .inr (.inl hi)
    · cases hi

theorem Accounted.released (h : Accounted (some ⟨c, newId⟩) s) (hst : Released c [⟨c, newId⟩] s t)
    (hc : c ∈ s.connectionMap) (hpending : t.pendingRequestMap = s.pendingRequestMap) :
    Accounted none t := by
  intro k e' he' i hused
  have hcompleted : t.completedRequestSet = s.completedRequestSet := by rw [hst.frame]
  rw [hcompleted, hpending]
  obtain ⟨e, he, -, -, hused'⟩ := (hst.retaken hc hpending).entry_iff he'
  by_cases hnew : k = c ∧ i = newId
  · obtain ⟨rfl, rfl⟩ := hnew
    obtain ⟨m, hm, hreleased⟩ := hst.entry e he
    obtain rfl := Option.some.inj (hm.symm.trans he')
    rw [ConnectionState.isUsed, hreleased] at hused
    simp at hused
  · rw [hused' i fun hk hi => hnew ⟨hk, hi⟩] at hused
    rcases h k e he i hused with hi | hi | hi
    · exact .inl hi
    · exact .inr (.inl hi)
    · cases hi
      exact absurd ⟨rfl, rfl⟩ hnew

/-- The state after the insertion of a pending request. -/
def TestFcgiClientInterface.insertPending (s : TestFcgiClientInterface) (id : FcgiRequestIdentifier)
    (d : RequestData) : TestFcgiClientInterface :=
  { s with pendingRequestMap := s.pendingRequestMap.insertIfNew id d }

theorem mem_insertPending {id i : FcgiRequestIdentifier} {d : RequestData} :
    i ∈ (s.insertPending id d).pendingRequestMap ↔ i = id ∨ i ∈ s.pendingRequestMap := by
  rw [TestFcgiClientInterface.insertPending, ExtTreeMap.mem_insertIfNew, Std.compare_eq_iff_eq,
    eq_comm]

theorem Invariant.insertPending (h : Invariant s) (hc : s.isConnected c = true)
    (hnew : ⟨c, newId⟩ ∉ s.completedRequestSet) {e : ConnectionState}
    (he : s.connectionMap[c]? = some e) (hused : e.isUsed newId = true) (d : RequestData) :
    Invariant (s.insertPending ⟨c, newId⟩ d) := by
  refine ⟨h.completed_entry, fun i hi => ?_, h.disconnected, fun i hi hp => ?_,
    fun k e' he' i hi => ?_, h.numberConnected⟩
  · rcases mem_insertPending.mp hi with rfl | hi
    · exact hc
    · exact h.pending_connected i hi
  · rcases mem_insertPending.mp hp with rfl | hp
    · exact hnew hi
    · exact h.disjoint i hi hp
  · rw [mem_insertPending, or_left_comm] at hi
    rcases hi with hi | hi
    · cases hi
      obtain rfl := Option.some.inj (he.symm.trans he')
      exact hused
    · exact h.used k e' he' i hi

theorem Accounted.insertPending (h : Accounted (some ⟨c, newId⟩) s) (d : RequestData) :
    Accounted none (s.insertPending ⟨c, newId⟩ d) := by
  intro k e he i hused
  rw [mem_insertPending]
  rcases h k e he i hused with hi | hi | hi
  · exact .inl hi
  · exact .inr (.inl (.inr hi))
  · exact .inr (.inl (.inl (Option.some.inj hi).symm))

/-! ## The outcomes of `SendRequest` -/

/-- What an outcome of `SendRequest` leaves: the request is pending, its
identifier is released, or the connection is closed. -/
inductive Settled (c : Nat) (newId : UInt16) (s : TestFcgiClientInterface) :
    TestFcgiClientInterface → Prop
  | pending {u : TestFcgiClientInterface} (d : RequestData) (hu : Sends c s u) :
      Settled c newId s (u.insertPending ⟨c, newId⟩ d)
  | released {u t : TestFcgiClientInterface} (hu : Sends c s u) (ht : Released c [⟨c, newId⟩] u t)
      (hpending : t.pendingRequestMap = u.pendingRequestMap) : Settled c newId s t
  | closed {u v t : TestFcgiClientInterface} (hu : Sends c s u) (hv : Closed c u v)
      (ht : ∃ e, t = v.pushEvent e) : Settled c newId s t

theorem ClosedThrough.settled {u : TestFcgiClientInterface} (hu : Sends c s u)
    (h : ClosedThrough reply c u t) : Settled c newId s t := by
  obtain ⟨v, hv, rfl⟩ := h
  exact .closed hu hv ⟨_, rfl⟩

theorem SendOutcome.settled {r : Except Failure (Option FcgiRequestIdentifier)}
    (h : SendOutcome reply c newId request s r t) : Settled c newId s t := by
  cases h with
  | sent hw hu => exact .pending _ hu.toSends
  | beginTorn hw hshort herrno hu ht hpending => exact .released hu.toSends ht hpending
  | beginClosed hw hshort herrno hu hsent ht hr => exact ht.settled hu
  | closed hw hu ht hr => exact ht.settled hu.toSends
  | handled hw hu ht he =>
    obtain ⟨v, hv, rfl⟩ := ht
    exact .closed hu.toSends hv ⟨_, rfl⟩

theorem Invariant.settled {u : TestFcgiClientInterface} (h : Invariant s)
    (hacquired : Acquired c newId s u) (hst : Settled c newId u t) : Invariant t := by
  have hfree := hacquired.unassigned h
  have hu := h.retaken hacquired.retaken hfree
  have hcompleted : u.completedRequestSet = s.completedRequestSet := by
    rw [hacquired.retaken.frame]
  have hpending : u.pendingRequestMap = s.pendingRequestMap := by rw [hacquired.retaken.frame]
  cases hst with
  | pending d hv =>
    obtain ⟨e, he, hused⟩ := hacquired.entry
    refine (hu.still hv.still).insertPending ?_ ?_ (hv.connectionMap ▸ he) hused d
    · rw [hv.isConnected, hacquired.isConnected]
      exact hacquired.wasConnected
    · rw [hv.completedRequestSet, hcompleted]
      exact hfree.1
  | released hv ht hkept =>
    rename_i v
    obtain ⟨e, he, -⟩ := hacquired.entry
    have hc : c ∈ v.connectionMap := mem_connectionMap_iff.mpr ⟨e, hv.connectionMap ▸ he⟩
    refine (hu.still hv.still).retaken (ht.retaken hc hkept) ?_
    rw [Unassigned, hv.completedRequestSet, hv.pendingRequestMap, hcompleted, hpending]
    exact hfree
  | closed hv hw ht =>
    obtain ⟨e, rfl⟩ := ht
    exact ((hu.still hv.still).closed hw).still (still_pushEvent _ e)

/-- An identifier is lost only when a connection with completed requests is
closed. -/
theorem Accounted.settled {u : TestFcgiClientInterface} (h : Accounted none s)
    (hacquired : Acquired c newId s u) (hst : Settled c newId u t)
    (hclosed : t.isConnected c = false → s.completedOf c = []) : Accounted none t := by
  have hu := h.acquired hacquired
  have hcompleted : u.completedRequestSet = s.completedRequestSet := by
    rw [hacquired.retaken.frame]
  cases hst with
  | pending d hv => exact (hu.still hv.still).insertPending d
  | released hv ht hkept =>
    rename_i v
    obtain ⟨e, he, -⟩ := hacquired.entry
    have hc : c ∈ v.connectionMap := mem_connectionMap_iff.mpr ⟨e, hv.connectionMap ▸ he⟩
    exact (hu.still hv.still).released ht hc hkept
  | closed hv hw ht =>
    rename_i v w
    obtain ⟨e, rfl⟩ := ht
    refine ((hu.still hv.still).closed hw fun i hi => ?_).still (still_pushEvent _ e)
    obtain rfl := Option.some.inj hi
    refine ⟨rfl, ?_⟩
    rw [completedOf_congr (hv.completedRequestSet.trans hcompleted)]
    refine hclosed ?_
    have hfree := hw.isConnected_iff c
    rw [(still_pushEvent w e).isConnected]
    simpa using hfree

end

end AsComponents.Client
