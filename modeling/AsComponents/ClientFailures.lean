import AsComponents.ClientConsistency
import AsComponents.ClientParts

/-! What a failed `SendRequest` leaves behind. -/

namespace AsComponents.Client

open Protocol NameValue SocketFunctions AsComponents.Partition Std Critical

/-! ## The law -/

/-- `SendRequest` throws or returns a null identifier. -/
def Fails (r : Except Failure (Option FcgiRequestIdentifier)) : Prop :=
  r = .ok none ∨ ∃ e, r = .error e ∧ e ≠ .halted

/-- The error was `EPIPE`: it is told by a null identifier. -/
def BrokenPipe (c : Nat) (s : TestFcgiClientInterface)
    (r : Except Failure (Option FcgiRequestIdentifier)) : Prop :=
  s.isConnected c = true ∧ (r = .ok none ∨ ∃ what, r = .error (.systemError .epipe what))

/-- Connection `c` has taken an identifier and was then closed by
`CloseConnection`, with one event for it. -/
def ClosedBySend (c : Nat) (s t : TestFcgiClientInterface) : Prop :=
  ∃ newId a u v, Acquired c newId s a ∧ Sends c a u ∧ Closed c u v ∧
    t = v.pushEvent (.connectionClosure c)

/-- What a failed `SendRequest` on `c` guarantees: nothing has changed, or the
connection is closed. -/
structure FailureLaw (c : Nat) (s : TestFcgiClientInterface)
    (r : Except Failure (Option FcgiRequestIdentifier)) (t : TestFcgiClientInterface) : Prop where
  unchanged : (t.sockets c).sent = (s.sockets c).sent → ¬ BrokenPipe c s r →
    t = { s with sockets := t.sockets }
  closed : (t.sockets c).sent ≠ (s.sockets c).sent ∨ BrokenPipe c s r → ClosedBySend c s t
  whole : t.isConnected c = true → (t.sockets c).sent = (s.sockets c).sent

/-- The begin record of a request with the next identifier of the connection is
written short, with an error other than `EPIPE`. -/
def BeginFails (reply : SystemReply) (c : Nat) (request : FcgiRequestDataReference)
    (s : TestFcgiClientInterface) : Prop :=
  ∃ e id m w, s.connectionMap[c]? = some e ∧ e.idManager.getId = some (id, m) ∧
    beginWrite reply (s.sockets c) (UInt16.ofNat id.toNat) request = some w ∧
    beginWritten w < 16 ∧ w.errno ≠ .epipe

/-- The error is one which `FailedWrite` handles, by the iterator to the element
of the connection. -/
def ByFailedWrite (r : Except Failure (Option FcgiRequestIdentifier)) : Prop :=
  r = .ok none ∨ ∃ e what, r = .error (.systemError e what)

/-- The key of the element can be read after `CloseConnection`: the element was
kept for completed requests, or its memory still holds the key. -/
def KeyReadable (reply : SystemReply) (c : Nat) (s : TestFcgiClientInterface) : Prop :=
  s.completedOf c ≠ [] ∨ reply.erasedKey = c

section

variable {reply : SystemReply} {c : Nat} {newId : UInt16} {request : FcgiRequestDataReference}
  {s t u : TestFcgiClientInterface} {r : Except Failure (Option FcgiRequestIdentifier)}

theorem beginFails_iff (h : Acquired c newId s u) : BeginFails reply c request s ↔
    ∃ w, beginWrite reply (u.sockets c) newId request = some w ∧ beginWritten w < 16 ∧
      w.errno ≠ .epipe := by
  obtain ⟨e, id, m, he, hget, rfl, rfl⟩ := h.acquired
  constructor
  · rintro ⟨e', id', m', w, he', hget', hw⟩
    obtain rfl := Option.some.inj (he.symm.trans he')
    obtain ⟨rfl, rfl⟩ := Prod.mk.inj (Option.some.inj (hget.symm.trans hget'))
    exact ⟨w, hw⟩
  · rintro ⟨w, hw⟩
    exact ⟨e, id, m, w, he, hget, hw⟩

theorem not_beginFails (h : Acquired c newId s u)
    (hw : BeginSent reply (u.sockets c) newId request) : ¬ BeginFails reply c request s := by
  rw [beginFails_iff h]
  rintro ⟨w, hw', hshort, -⟩
  obtain ⟨w', hw'', hfull⟩ := hw
  obtain rfl := Option.some.inj (hw'.symm.trans hw'')
  omega

theorem Acquired.sockets (h : Acquired c newId s u) : u.sockets = s.sockets := by
  rw [h.retaken.frame]

theorem Acquired.completedOf (h : Acquired c newId s u) : u.completedOf c = s.completedOf c :=
  completedOf_congr (by rw [h.retaken.frame])

theorem ClosedBySend.microEventQueue (h : ClosedBySend c s t) :
    t.microEventQueue = s.microEventQueue ++ [.connectionClosure c] := by
  obtain ⟨newId, a, u, v, ha, hu, hv, rfl⟩ := h
  have hqueue : v.microEventQueue = s.microEventQueue := by
    rw [hv.events, hu.microEventQueue, ha.retaken.frame]
  rw [TestFcgiClientInterface.pushEvent, hqueue]

theorem ClosedBySend.isConnected (h : ClosedBySend c s t) : t.isConnected c = false := by
  obtain ⟨newId, a, u, v, ha, hu, hv, rfl⟩ := h
  have hv' := hv.isConnected_iff c
  rw [(still_pushEvent v _).isConnected]
  simpa using hv'

/-- A connection that was closed through its iterator is named by the event when
the key can be read. -/
theorem ClosedThrough.event_iff {a : TestFcgiClientInterface} (ha : Acquired c newId s a)
    (hu : Sends c a u) (h : ClosedThrough reply c u t) :
    ClosedBySend c s t ↔ KeyReadable reply c s := by
  obtain ⟨v, hv, rfl⟩ := h
  have hcompleted : u.completedOf c = s.completedOf c :=
    (completedOf_congr hu.completedRequestSet).trans ha.completedOf
  rw [hcompleted]
  constructor
  · intro hlaw
    have hqueue := hlaw.microEventQueue
    have hkept : v.microEventQueue = s.microEventQueue := by
      rw [hv.events, hu.microEventQueue, ha.retaken.frame]
    simp only [TestFcgiClientInterface.pushEvent, hkept, List.append_cancel_left_eq,
      List.cons.injEq, ServerEvent.connectionClosure.injEq, and_true] at hqueue
    by_cases hnil : s.completedOf c = []
    · rw [if_pos hnil] at hqueue
      exact .inr hqueue
    · exact .inl hnil
  · rintro (hne | hkey)
    · rw [if_neg hne]
      exact ⟨newId, a, u, v, ha, hu, hv, rfl⟩
    · rw [hkey, ite_self]
      exact ⟨newId, a, u, v, ha, hu, hv, rfl⟩

/-! ## The law, exit by exit -/

/-- The exits at which nothing was done. -/
theorem FailureLaw.refl (hr : s.isConnected c = false ∨ ¬ ByFailedWrite r) :
    FailureLaw c s r s where
  unchanged _ _ := rfl
  closed h := by
    rcases h with h | ⟨hc, hr'⟩
    · exact absurd rfl h
    · refine absurd hr (not_or.mpr ⟨by simp [hc], not_not.mpr ?_⟩)
      exact hr'.imp id fun hr' => ⟨_, hr'⟩
  whole _ := rfl

/-- The exits at which the connection was closed. -/
theorem failureLaw_iff_of_closed (hclosed : t.isConnected c = false)
    (hrequired : (t.sockets c).sent ≠ (s.sockets c).sent ∨ BrokenPipe c s r) :
    FailureLaw c s r t ↔ ClosedBySend c s t := by
  constructor
  · exact fun h => h.closed hrequired
  · refine fun h => ⟨fun hsame hno => ?_, fun _ => h, fun hc => ?_⟩
    · exact (hrequired.elim (absurd hsame) fun hpipe => absurd hpipe hno)
    · simp [hclosed] at hc

theorem Begun.sent_ne {a : TestFcgiClientInterface} (ha : Acquired c newId s a) (hu : Begun c a u)
    (ht : t.sockets = u.sockets) : (t.sockets c).sent ≠ (s.sockets c).sent := by
  intro heq
  have hlt := hu.begun
  rw [ha.sockets, ← heq, ht] at hlt
  omega

/-- The exits after an identifier was taken. -/
theorem failureLaw_of_outcome {a : TestFcgiClientInterface} (ha : Acquired c newId s a)
    (hout : SendOutcome reply c newId request a r t) (hfails : Fails r) :
    FailureLaw c s r t ↔
      ¬ BeginFails reply c request s ∧ (ByFailedWrite r → KeyReadable reply c s) := by
  have hthrough : ∀ {u}, Sends c a u → ClosedThrough reply c u t →
      t.isConnected c = false ∧ t.sockets = u.sockets := by
    rintro u hu ⟨v, hv, rfl⟩
    have hfree := hv.isConnected_iff c
    exact ⟨by rw [(still_pushEvent v _).isConnected]; simpa using hfree, hv.sockets⟩
  cases hout with
  | sent hw hu =>
    rcases hfails with hr | ⟨e, hr, -⟩ <;> cases hr
  | beginTorn hw hshort herrno hu ht hpending =>
    rename_i u w
    have hbad : BeginFails reply c request s := (beginFails_iff ha).mpr ⟨w, hw, hshort.2, herrno⟩
    refine ⟨fun hlaw => ?_, fun hgood => absurd hbad hgood.1⟩
    have hsent : (t.sockets c).sent ≠ (s.sockets c).sent :=
      hu.sent_ne ha (by rw [ht.frame])
    obtain ⟨e, he, -⟩ := ha.entry
    have hfree := (hlaw.closed (.inl hsent)).isConnected
    have hconnected : t.isConnected c = true := by
      rw [ht.isConnected (hu.connectionMap ▸ he), hu.isConnected, ha.isConnected]
      exact ha.wasConnected
    simp [hfree] at hconnected
  | beginClosed hw hshort herrno hu hsent ht hr =>
    rename_i u w
    obtain ⟨hfree, hsockets⟩ := hthrough hu ht
    by_cases hepipe : w.errno = .epipe
    · rw [if_pos hepipe] at hr
      have hgood : ¬ BeginFails reply c request s := by
        rw [beginFails_iff ha]
        rintro ⟨w', hw', -, hne⟩
        obtain rfl := Option.some.inj (hw.symm.trans hw')
        exact hne hepipe
      rw [failureLaw_iff_of_closed hfree (.inr ⟨ha.wasConnected, .inl hr⟩), ht.event_iff ha hu]
      exact ⟨fun hkey => ⟨hgood, fun _ => hkey⟩, fun h => h.2 (.inl hr)⟩
    · rw [if_neg hepipe] at hr
      have hbad : BeginFails reply c request s := (beginFails_iff ha).mpr ⟨w, hw, hshort, hepipe⟩
      refine ⟨fun hlaw => ?_, fun hgood => absurd hbad hgood.1⟩
      have hzero : beginWritten w = 0 := herrno.resolve_right hepipe
      have hsame : (t.sockets c).sent = (s.sockets c).sent := by
        rw [hsockets, ← ha.sockets]
        exact (hu.grows.eq_of_length (by omega)).symm
      have hno : ¬ BrokenPipe c s r := by
        rintro ⟨-, hr' | ⟨what, hr'⟩⟩
        · rw [hr] at hr'
          cases hr'
        · rw [hr, Except.error.injEq, Failure.systemError.injEq] at hr'
          exact hepipe hr'.1
      have hconnected := ha.wasConnected
      rw [hlaw.unchanged hsame hno] at hfree
      exact absurd (hconnected.symm.trans hfree) (by simp)
  | closed hw hu ht hr =>
    obtain ⟨hfree, hsockets⟩ := hthrough hu.toSends ht
    rw [failureLaw_iff_of_closed hfree (.inl (hu.sent_ne ha hsockets)), ht.event_iff ha hu.toSends]
    exact ⟨fun hkey => ⟨not_beginFails ha hw, fun _ => hkey⟩, fun h => h.2 hr⟩
  | handled hw hu ht he =>
    rename_i u e
    obtain ⟨v, hv, rfl⟩ := ht
    have hclosed : ClosedBySend c s (v.pushEvent (.connectionClosure c)) :=
      ⟨newId, a, u, v, ha, hu.toSends, hv, rfl⟩
    have hsent : ((v.pushEvent (.connectionClosure c)).sockets c).sent ≠ (s.sockets c).sent :=
      hu.sent_ne ha hv.sockets
    rw [failureLaw_iff_of_closed hclosed.isConnected (.inl hsent)]
    refine ⟨fun _ => ⟨not_beginFails ha hw, fun hby => ?_⟩, fun _ => hclosed⟩
    rcases hby with hr | ⟨e', what, hr⟩
    · cases hr
    · cases hr
      exact absurd rfl (he e' what)

theorem failureLaw_iff (h : sendRequest reply c request s = some (r, t)) (hfails : Fails r) :
    FailureLaw c s r t ↔ (s.isConnected c = true →
      ¬ BeginFails reply c request s ∧ (ByFailedWrite r → KeyReadable reply c s)) := by
  have hout : s.isConnected c = true → ∀ newId a, Acquired c newId s a →
      SendOutcome reply c newId request a r t → (FailureLaw c s r t ↔ (s.isConnected c = true →
        ¬ BeginFails reply c request s ∧ (ByFailedWrite r → KeyReadable reply c s))) :=
    fun hc newId a ha hout => by
      rw [failureLaw_of_outcome ha hout hfails]
      exact ⟨fun h _ => h, fun h => h hc⟩
  cases r with
  | ok id =>
    rcases after_sendRequest.of_ok h with ⟨-, hfree, rfl⟩ | ⟨newId, a, ha, hr⟩
    · exact ⟨fun _ hc => absurd (hfree.symm.trans hc) (by simp), fun _ => .refl (.inl hfree)⟩
    · exact hout ha.wasConnected newId a ha hr
  | error e =>
    have hne : e ≠ .halted := by
      rcases hfails with hr | ⟨e', hr, hne⟩
      · cases hr
      · cases hr
        exact hne
    rcases after_sendRequest.of_error h hne with ⟨⟨what, rfl⟩, rfl, hnone⟩ | ⟨newId, a, ha, hr⟩
    · have hnot : ¬ ByFailedWrite (.error (.lengthError what)) := by
        rintro (hr | ⟨e', what', hr⟩) <;> cases hr
      refine ⟨fun _ _ => ⟨?_, fun hby => absurd hby hnot⟩, fun _ => .refl (.inr hnot)⟩
      rintro ⟨e', id, m, w, he, hget, -⟩
      rw [hnone e' he] at hget
      cases hget
    · exact hout ha.wasConnected newId a ha hr

/-- The writes decide whether `FailedWrite` handles the error. -/
theorem byFailedWrite_iff (h : sendRequest reply c request s = some (r, t)) (hfails : Fails r)
    (hc : s.isConnected c = true) : ByFailedWrite r ↔ RequestFails reply c request s := by
  have htells := @after_sendRequest_tells reply c request s hc
  cases r with
  | ok id =>
    rw [← htells.of_ok h]
    rcases hfails with hr | ⟨e, hr, -⟩
    · exact iff_of_true (.inl hr) (Except.ok.inj hr)
    · cases hr
  | error e =>
    have hne : e ≠ .halted := by
      rcases hfails with hr | ⟨e', hr, hne⟩
      · cases hr
      · exact Except.error.inj hr ▸ hne
    refine Iff.trans ?_ (htells.of_error h hne)
    constructor
    · rintro (hr | ⟨e', what, hr⟩)
      · cases hr
      · exact ⟨e', what, Except.error.inj hr⟩
    · rintro ⟨e', what, rfl⟩
      exact .inr ⟨e', what, rfl⟩

/-- A failed `SendRequest` leaves everything unchanged or the connection closed
if and only if it is not the write of the begin record that fails, unless with
`EPIPE`, and the connection can still be named when a write fails. -/
theorem failed_sendRequest (h : sendRequest reply c request s = some (r, t)) (hfails : Fails r) :
    FailureLaw c s r t ↔ (s.isConnected c = true →
      ¬ BeginFails reply c request s ∧ (RequestFails reply c request s → KeyReadable reply c s)) := by
  rw [failureLaw_iff h hfails]
  refine forall_congr' fun hc => ?_
  rw [byFailedWrite_iff h hfails hc]

end

/-! ### A torn begin record -/

/-- The peer has gone when the begin record is written; the key of the erased
element can still be read. -/
def brokenReply : SystemReply := { batches := [{ tape := [.ready, .failed .epipe] }], erasedKey := 5 }

theorem failed_sendRequest_epipe : ∃ s r t, Reachable s ∧ s.isConnected 5 = true ∧
    sendRequest brokenReply 5 bareRequest s = some (r, t) ∧ FailureLaw 5 s r t := by
  have hrun : ((step {} connectReply .connect).bind fun s =>
      (sendRequest brokenReply 5 bareRequest s).map fun r => (s.isConnected 5, r.1.toOption)) =
      some (true, some none) := by
    decide +kernel
  obtain ⟨s, hs, hrest⟩ := Option.bind_eq_some_iff.mp hrun
  obtain ⟨⟨r, t⟩, hr, hfacts⟩ := Option.map_eq_some_iff.mp hrest
  obtain ⟨hconnected, hnull⟩ := Prod.mk.inj hfacts
  have hnone : r = .ok none := by
    cases r with
    | ok id => rw [Option.some.inj hnull]
    | error e => cases hnull
  have hbegin : ¬ BeginFails brokenReply 5 bareRequest s := by
    rintro ⟨e, id, m, w, -, -, hw, -, herrno⟩
    simp only [beginWrite, brokenReply, populateBeginRequestRecord, populateHeader, List.cons_append,
      SocketFunctions.writeOnSelect, Socket.write] at hw
    simp at hw
    exact herrno (hw ▸ rfl)
  exact ⟨s, r, t, .call (.initial {}) hs trivial, hconnected, hr,
    (failed_sendRequest hr (.inl hnone)).mpr fun _ => ⟨hbegin, fun _ => .inr rfl⟩⟩

/-- Five bytes of the begin record are written before the write fails.  The
connection stays connected and carries them. -/
theorem torn_begin_record : ∃ s reply r t, Reachable s ∧
    sendRequest reply 5 bareRequest s = some (r, t) ∧ Fails r ∧ t.isConnected 5 = true ∧
      (s.sockets 5).sent.length = 0 ∧ (t.sockets 5).sent.length = 5 ∧ ¬ FailureLaw 5 s r t := by
  let reply : SystemReply :=
    { batches := [{ tape := [.ready, .wrote 5, .ready, .failed (.other 5)] }] }
  have hrun : ((step {} connectReply .connect).bind fun s =>
      (sendRequest reply 5 bareRequest s).map fun r => (thrown r.1, r.2.isConnected 5,
        (s.sockets 5).sent.length, (r.2.sockets 5).sent.length)) =
      some (some (.systemError (.other 5) kWriteOrSelect), true, 0, 5) := by
    decide +kernel
  obtain ⟨s, hs, hrest⟩ := Option.bind_eq_some_iff.mp hrun
  obtain ⟨⟨r, t⟩, hr, hfacts⟩ := Option.map_eq_some_iff.mp hrest
  simp only [Prod.mk.injEq] at hfacts
  obtain ⟨hthrown, hconnected, hbefore, hafter⟩ := hfacts
  refine ⟨s, reply, r, t, .call (.initial {}) hs trivial, hr, ?_, hconnected, hbefore, hafter, ?_⟩
  · obtain rfl := eq_error_of_thrown hthrown
    exact .inr ⟨_, rfl, by simp⟩
  · intro hlaw
    have hwhole := hlaw.whole hconnected
    rw [hwhole, hbefore] at hafter
    cases hafter

end AsComponents.Client
