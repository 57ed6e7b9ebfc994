import AsComponents.ClientConsistency
import AsComponents.ClientReceptions

/-! The events of received bytes do not depend on the events in the queue and
on the tracking of ready connections. -/

namespace AsComponents.Client

open Protocol NameValue SocketFunctions AsComponents.Partition Std Critical TestFcgiClientInterface

/-- The state without events and tracking. -/
def TestFcgiClientInterface.bare (s : TestFcgiClientInterface) : TestFcgiClientInterface :=
  s.resume 0 .pastTheEnd ∅ []

/-- The operation only adds events, and looks neither at the queue nor at the
tracking state. -/
def Appends {α : Type} (x : Operation α) : Prop :=
  ∀ (s : TestFcgiClientInterface) n next set queue, x (s.resume n next set queue) =
    (x s.bare).map fun r => (r.1, r.2.resume n next set (queue ++ r.2.microEventQueue))

namespace Appends

variable {α β : Type}

theorem pure (a : α) : Appends (pure a : Operation α) := fun s n next set queue => by
  show some (Except.ok a, _) = some (Except.ok a, s.resume n next set (queue ++ []))
  rw [List.append_nil]

theorem throw (f : Failure) : Appends (throw f : Operation α) := fun s n next set queue => by
  show some (Except.error f, _) = some (Except.error f, s.resume n next set (queue ++ []))
  rw [List.append_nil]

theorem wait : Appends (Critical.wait : Operation α) := fun _ _ _ _ _ => rfl

/-- A change of the other fields. -/
theorem modify {f : TestFcgiClientInterface → TestFcgiClientInterface}
    (hf : ∀ s n next set queue, f (s.resume n next set queue) = (f s).resume n next set queue) :
    Appends (modify f : Operation PUnit) := fun s n next set queue => by
  show some (Except.ok PUnit.unit, f (s.resume n next set queue)) =
    some (Except.ok PUnit.unit, (f (s.resume 0 .pastTheEnd ∅ [])).resume n next set
      (queue ++ (f (s.resume 0 .pastTheEnd ∅ [])).microEventQueue))
  rw [hf, hf]
  show _ = some (Except.ok PUnit.unit, (f s).resume n next set (queue ++ []))
  rw [List.append_nil]

theorem bind {x : Operation α} {f : α → Operation β} (hx : Appends x) (hf : ∀ a, Appends (f a)) :
    Appends (x >>= f) := by
  intro s n next set queue
  show Critical.bind x f _ = (Critical.bind x f _).map _
  unfold Critical.bind
  rw [hx]
  cases x s.bare with
  | none => rfl
  | some r =>
    obtain ⟨r, t⟩ := r
    cases r with
    | error e => rfl
    | ok a =>
      have hsame : f a t = f a (t.resume t.remainingReady t.nextConnection t.selectSet
        t.microEventQueue) := rfl
      show f a (t.resume n next set (queue ++ t.microEventQueue)) = (f a t).map _
      rw [hf a, hsame, hf a, Option.map_map]
      congr 1
      funext r
      simp only [Function.comp, List.append_assoc]
      rfl

/-- What is read is not the queue and not the tracking state. -/
theorem get {f : TestFcgiClientInterface → Operation β}
    (hread : ∀ s n next set queue, f (s.resume n next set queue) = f s) (hf : ∀ s, Appends (f s)) :
    Appends (get >>= f) := fun s n next set queue => by
  show f (s.resume n next set queue) _ = (f (s.resume 0 .pastTheEnd ∅ []) _).map _
  rw [hread, hread]
  exact hf s s n next set queue

theorem ite {p : Prop} {_ : Decidable p} {x y : Operation α} (hx : p → Appends x)
    (hy : ¬ p → Appends y) : Appends (if p then x else y) := by
  by_cases hp : p
  · rw [if_pos hp]
    exact hx hp
  · rw [if_neg hp]
    exact hy hp

theorem halt (h : Halt) : Appends (halt h : Operation α) :=
  .bind (.modify fun _ _ _ _ _ => rfl) fun _ => .throw _

theorem tryCatch {x : Operation α} {f : Failure → Operation α} (hx : Appends x)
    (hf : ∀ e, Appends (f e)) : Appends (tryCatch x f) := by
  intro s n next set queue
  simp only [MonadExcept.tryCatch, tryCatchThe, MonadExceptOf.tryCatch]
  rw [hx]
  cases x s.bare with
  | none => rfl
  | some r =>
    obtain ⟨r, t⟩ := r
    cases r with
    | ok a => rfl
    | error e =>
      have hsame : f e t = f e (t.resume t.remainingReady t.nextConnection t.selectSet
        t.microEventQueue) := rfl
      show f e (t.resume n next set (queue ++ t.microEventQueue)) = (f e t).map _
      rw [hf e, hsame, hf e, Option.map_map]
      congr 1
      funext r
      simp only [Function.comp, List.append_assoc]
      rfl

theorem noexceptBlock {x : Operation α} (hx : Appends x) : Appends (noexceptBlock x) :=
  .tryCatch hx fun _ => .ite (fun _ => .throw _) fun _ => .halt _

end Appends

theorem appends_pushEvent (event : ServerEvent) :
    Appends (modify (·.pushEvent event) : Operation PUnit) := fun _ _ _ _ _ => rfl

theorem appends_connectionState (c : Nat) : Appends (connectionState c) := by
  unfold connectionState
  refine .get (fun _ _ _ _ _ => rfl) fun s => ?_
  split
  · exact .pure _
  · exact .halt _

theorem appends_requestData (it : Option FcgiRequestIdentifier) : Appends (requestData it) := by
  unfold requestData
  split
  · exact .halt _
  · refine .get (fun _ _ _ _ _ => rfl) fun s => ?_
    split
    · exact .pure _
    · exact .halt _

theorem appends_setConnection (c : Nat) (e : ConnectionState) :
    Appends (modify (·.setConnection c e) : Operation PUnit) :=
  .modify fun _ _ _ _ _ => rfl

theorem appends_setPending (id : FcgiRequestIdentifier) (d : RequestData) :
    Appends (modify (·.setPending id d) : Operation PUnit) :=
  .modify fun _ _ _ _ _ => rfl

theorem appends_setRecordState (c : Nat) (r : RecordState) : Appends (setRecordState c r) := by
  unfold setRecordState
  exact .bind (appends_connectionState c) fun e => appends_setConnection c _

theorem appends_pendingIterCheck (it : Option FcgiRequestIdentifier) (id : FcgiRequestIdentifier) :
    Appends (pendingIterCheck it id) := by
  unfold pendingIterCheck
  exact .ite (fun _ => .pure _) fun _ => .get (fun _ _ _ _ _ => rfl) fun _ => .pure _

theorem appends_readPastTheEnd (reply : SystemReply) : Appends (readPastTheEnd reply) := by
  unfold readPastTheEnd
  split
  · exact .pure _
  · exact .halt _

theorem appends_stderrEmpty (reply : SystemReply) (it : Option FcgiRequestIdentifier) :
    Appends (stderrEmpty reply it) := by
  unfold stderrEmpty
  split
  · exact appends_readPastTheEnd reply
  · exact .bind (appends_requestData _) fun _ => .pure _

theorem appends_checkEndRequest (reply : SystemReply) (it : Option FcgiRequestIdentifier) (n : Nat) :
    Appends (checkEndRequest reply it n) := by
  unfold checkEndRequest
  refine .bind (appends_stderrEmpty reply it) fun empty => .ite (fun _ => .pure _) fun _ => ?_
  refine .bind (appends_requestData it) fun r => .ite (fun _ => .pure _) fun _ => ?_
  exact .ite (fun _ => .bind (appends_setPending _ _) fun _ => .pure _) fun _ => .pure _

theorem appends_checkStream (completed : RequestData → Bool) (it : Option FcgiRequestIdentifier) :
    Appends (checkStream completed it) := by
  unfold checkStream
  exact .ite (fun _ => .pure _) fun _ => .bind (appends_requestData it) fun _ => .pure _

theorem appends_checkType (reply : SystemReply) (c : Nat) (it : Option FcgiRequestIdentifier)
    (type : FcgiType) (fcgiId : UInt16) (n : Nat) :
    Appends (checkType reply c it type fcgiId n) := by
  unfold checkType
  refine .ite (fun _ => ?_) fun _ => .ite (fun _ => ?_) fun _ => .ite (fun _ => ?_) fun _ => ?_
  · exact .bind (appends_pendingIterCheck it _) fun it =>
      .bind (appends_checkEndRequest reply it n) fun _ => .pure _
  · exact .bind (appends_pendingIterCheck it _) fun it =>
      .bind (appends_checkStream _ it) fun _ => .pure _
  · exact .bind (appends_pendingIterCheck it _) fun it =>
      .bind (appends_checkStream _ it) fun _ => .pure _
  · refine .bind (appends_connectionState c) fun e => ?_
    exact .ite (fun _ => .pure _) fun _ => .ite (fun _ => .pure _) fun _ => .pure _

theorem appends_updateOnHeaderCompletion (reply : SystemReply) (c : Nat)
    (it : Option FcgiRequestIdentifier) : Appends (updateOnHeaderCompletion reply c it) := by
  unfold updateOnHeaderCompletion
  refine .bind (appends_connectionState c) fun e => ?_
  refine .bind (.ite (fun _ => .pure _) fun _ => appends_checkType _ _ _ _ _ _) fun r => ?_
  exact .bind (appends_setRecordState c _) fun _ => .pure _

theorem appends_generateInvalidRecord (c : Nat) : Appends (generateInvalidRecord c) := by
  unfold generateInvalidRecord
  exact .bind (appends_connectionState c) fun _ => appends_pushEvent _

theorem appends_processEndRequest (c : Nat) (it : Option FcgiRequestIdentifier) (content : Bytes) :
    Appends (processEndRequest c it content) := by
  unfold processEndRequest
  split
  · refine .ite (fun _ => .bind (appends_generateInvalidRecord c) fun _ => .pure _) fun _ => ?_
    refine .bind (appends_requestData it) fun r => .get (fun _ _ _ _ _ => rfl) fun s => ?_
    refine .ite (fun _ => .throw _) fun _ => ?_
    refine .bind (fun s n next set queue => rfl) fun _ => .pure _
  · exact .halt _

theorem appends_popManagementQueue (c : Nat) : Appends (popManagementQueue c) := by
  unfold popManagementQueue
  refine .bind (appends_connectionState c) fun e => ?_
  split
  · exact .halt _
  · exact .bind (appends_setConnection c _) fun _ => .pure _

theorem appends_processValidRecord (c : Nat) (it : Option FcgiRequestIdentifier) (r : RecordState) :
    Appends (processValidRecord c it r) := by
  unfold processValidRecord
  refine .ite (fun _ => appends_processEndRequest c it _) fun _ => ?_
  refine .ite (fun _ => ?_) fun _ => .ite (fun _ => ?_) fun _ => .ite (fun _ => ?_) fun _ =>
    .ite (fun _ => ?_) fun _ => .throw _
  · refine .ite (fun _ => ?_) fun _ => .pure _
    exact .bind (appends_requestData it) fun r => .bind (appends_setPending _ _) fun _ => .pure _
  · refine .ite (fun _ => ?_) fun _ => .pure _
    exact .bind (appends_requestData it) fun r => .bind (appends_setPending _ _) fun _ => .pure _
  · refine .bind (appends_popManagementQueue c) fun q => ?_
    exact .bind (appends_pushEvent _) fun _ => .pure _
  · split
    · exact .halt _
    · refine .bind (appends_popManagementQueue c) fun q => ?_
      exact .bind (appends_pushEvent _) fun _ => .pure _

theorem appends_processCompleteRecord (c : Nat) (it : Option FcgiRequestIdentifier) :
    Appends (processCompleteRecord c it) := by
  unfold processCompleteRecord processRecord
  refine .bind (appends_connectionState c) fun e => .bind ?_ fun it => ?_
  · refine .ite (fun _ => ?_) fun _ => appends_processValidRecord c it _
    exact .bind (appends_generateInvalidRecord c) fun _ => .pure _
  · exact .bind (appends_setRecordState c _) fun _ => .pure _

theorem appends_pendingIterCheckAndUpdate (it : Option FcgiRequestIdentifier)
    (id : FcgiRequestIdentifier) : Appends (pendingIterCheckAndUpdate it id) := by
  unfold pendingIterCheckAndUpdate
  refine .bind (appends_pendingIterCheck it id) fun it => ?_
  exact .ite (fun _ => .throw _) fun _ => .pure _

theorem appends_refreshIf (needed : Bool) (it : Option FcgiRequestIdentifier)
    (id : FcgiRequestIdentifier) : Appends (refreshIf needed it id) :=
  .ite (fun _ => appends_pendingIterCheckAndUpdate it id) fun _ => .pure _

theorem appends_receiveHeader (reply : SystemReply) (c : Nat) (it : Option FcgiRequestIdentifier)
    (data : Bytes) : Appends (receiveHeader reply c it data) := by
  unfold receiveHeader
  refine .bind (appends_connectionState c) fun e => .ite (fun _ => ?_) fun _ => .pure _
  refine .bind (appends_setRecordState c _) fun _ => .ite (fun _ => ?_) fun _ => .pure _
  refine .bind (appends_updateOnHeaderCompletion reply c it) fun it => ?_
  refine .bind (appends_connectionState c) fun e' => .ite (fun _ => ?_) fun _ => .pure _
  exact .bind (appends_processCompleteRecord c it) fun _ => .pure _

theorem appends_storeContent (c : Nat) (it : Option FcgiRequestIdentifier) (r : RecordState)
    (bytes : Bytes) : Appends (storeContent c it r bytes) := by
  unfold storeContent
  refine .ite (fun _ => ?_) fun _ => ?_
  · refine .bind (appends_pendingIterCheckAndUpdate it _) fun it => ?_
    exact .bind (appends_requestData it) fun r => .bind (appends_setPending _ _) fun _ => .pure _
  · refine .bind (appends_refreshIf _ it _) fun it => ?_
    exact .bind (appends_setRecordState c _) fun _ => .pure _

theorem appends_receiveContent (c : Nat) (it : Option FcgiRequestIdentifier) (data : Bytes) :
    Appends (receiveContent c it data) := by
  unfold receiveContent
  refine .bind (appends_connectionState c) fun e => .ite (fun _ => ?_) fun _ => .pure _
  refine .bind (appends_storeContent c it _ _) fun it => ?_
  refine .bind (appends_connectionState c) fun e' => ?_
  refine .bind (appends_setRecordState c _) fun _ => .ite (fun _ => ?_) fun _ => .pure _
  exact .bind (appends_processCompleteRecord c it) fun _ => .pure _

theorem appends_receivePadding (c : Nat) (it : Option FcgiRequestIdentifier) (data : Bytes) :
    Appends (receivePadding c it data) := by
  unfold receivePadding
  refine .bind (appends_connectionState c) fun e => .ite (fun _ => ?_) fun _ => .pure _
  refine .bind (appends_setRecordState c _) fun _ => .ite (fun _ => ?_) fun _ => .pure _
  refine .bind (appends_refreshIf _ it _) fun it => ?_
  exact .bind (appends_processCompleteRecord c it) fun _ => .pure _

theorem appends_receiveRound (reply : SystemReply) (c : Nat) (it : Option FcgiRequestIdentifier)
    (data : Bytes) : Appends (receiveRound reply c it data) := by
  unfold receiveRound
  refine .bind (appends_receiveHeader reply c it _) fun r => .ite (fun _ => .pure _) fun _ => ?_
  refine .bind (appends_receiveContent c r.it r.data) fun r => .ite (fun _ => .pure _) fun _ => ?_
  exact appends_receivePadding c r.it r.data

theorem appends_receiveBuffer (reply : SystemReply) (c fuel : Nat)
    (it : Option FcgiRequestIdentifier) (data : Bytes) :
    Appends (receiveBuffer reply c fuel it data) := by
  induction fuel generalizing it data with
  | zero =>
    cases data with
    | nil => exact .pure _
    | cons b bs => exact .wait
  | succ fuel ih =>
    cases data with
    | nil => exact .pure _
    | cons b bs => exact .bind (appends_receiveRound reply c it _) fun r => ih r.it r.data

/-- The bytes of several buffers, each received on its connection by a call of
its own. -/
def receiveAll (reply : SystemReply) : List (Nat × Bytes) → Operation Unit
  | [] => return
  | (c, data) :: later => do
      let _ ← receive reply c none data
      receiveAll reply later

theorem appends_receiveAll (reply : SystemReply) (later : List (Nat × Bytes)) :
    Appends (receiveAll reply later) := by
  induction later with
  | nil => exact .pure _
  | cons p later ih =>
    exact .bind (.noexceptBlock (appends_receiveBuffer reply p.1 _ none p.2)) fun _ => ih

/-- Both states give the same further events. -/
def SameEvents (x : Operation Unit) (s t : TestFcgiClientInterface) : Prop :=
  ∃ events : Option (List ServerEvent),
    (x s).map (·.2.microEventQueue) = events.map (s.microEventQueue ++ ·) ∧
      (x t).map (·.2.microEventQueue) = events.map (t.microEventQueue ++ ·)

theorem sameEvents_resume {x : Operation Unit} (hx : Appends x) (s : TestFcgiClientInterface)
    (n : Int) (next : ConnectionIterator) (set : ExtTreeSet Nat) (queue : List ServerEvent) :
    SameEvents x s (s.resume n next set queue) := by
  have hsame : x s = x (s.resume s.remainingReady s.nextConnection s.selectSet s.microEventQueue) :=
    rfl
  refine ⟨(x s.bare).map (·.2.microEventQueue), ?_, ?_⟩
  · rw [hsame, hx, Option.map_map, Option.map_map]
    rfl
  · rw [hx, Option.map_map, Option.map_map]
    rfl

/-! ## Invalid records -/

namespace Arrival

/-- The header of an end record is accepted for a request whose `FCGI_STDERR`
is empty and not completed, and completes it. -/
def Implicit (a : Arrival) : Prop :=
  a.header.headD 0 = 1 ∧ headerType a.header = kFcgiEndRequest ∧
    ∃ d, a.s.pendingRequestMap[headerIdentifier a.c a.header]? = some d ∧
      acceptsEnd (headerContentLength a.header) d = true ∧ d.fcgiStderr = [] ∧
        d.stderrCompleted = false

/-- After the record nothing has changed but the event that reports it, and
later records give the events they give without it. -/
structure Unaffected (a : Arrival) (v : Reception) : Prop where
  state : ∃ n next set queue, v.state = (a.withRecord a.s {}).resume n next set queue
  events : v.events = a.s.microEventQueue ++ [a.event]
  later : ∀ reply later, SameEvents (receiveAll reply later) (a.withRecord a.s {}) v.state

variable {a : Arrival} {v : Reception} {it : Option FcgiRequestIdentifier} {data : Bytes}

theorem setPending_self {s : TestFcgiClientInterface} {id : FcgiRequestIdentifier} {d : RequestData}
    (hd : s.pendingRequestMap[id]? = some d) : s.setPending id d = s := by
  have hmap : s.pendingRequestMap.insert id d = s.pendingRequestMap := by
    refine ExtTreeMap.ext_getElem? fun i => ?_
    have := s.getElem?_setPending id i d
    rw [setPending] at this
    rw [this]
    split
    · rename_i hi
      rw [hi, hd]
    · rfl
  rw [setPending, hmap]

theorem checkedState_of_not_implicit (h : ¬ a.Implicit) : checkedState a.s a.c a.header = a.s := by
  rw [checkedState]
  split
  · rename_i hend
    rw [acceptEnd]
    split
    · rename_i d hd
      split
      · rename_i haccepted
        cases hstderr : d.stderrCompleted with
        | false => exact absurd ⟨hend.1, hend.2, d, hd, haccepted.1, haccepted.2, hstderr⟩ h
        | true =>
          rw [← hstderr]
          exact setPending_self hd
      · rfl
    · rfl
  · rfl

/-- The completion of the stream is seen in the pending request. -/
theorem checkedState_of_implicit (h : a.Implicit) :
    (checkedState a.s a.c a.header).pendingRequestMap ≠ a.s.pendingRequestMap := by
  obtain ⟨hversion, htype, d, hd, haccepted, hempty, hopen⟩ := h
  intro hsame
  rw [checkedState, if_pos ⟨hversion, htype⟩, acceptEnd, hd] at hsame
  simp only [if_pos (And.intro haccepted hempty)] at hsame
  have hget := a.s.getElem?_setPending (headerIdentifier a.c a.header) (headerIdentifier a.c a.header)
    { d with stderrCompleted := true }
  rw [hsame, hd, if_pos rfl] at hget
  have := congrArg RequestData.stderrCompleted (Option.some.inj hget)
  rw [hopen] at this
  cases this

/-- A rejected record leaves its event and what the check of its header did. -/
theorem rejected_of_takes (h : Takes a.c ⟨it, data, a.s, []⟩ a.bytes v)
    (hinvalid : ∃ event, v.events = a.s.microEventQueue ++ [event] ∧ event.isInvalidRecord = true) :
    v.events = a.s.microEventQueue ++ [a.event] ∧ ∃ n next set queue,
      v.state = (a.withRecord (checkedState a.s a.c a.header) {}).resume n next set queue := by
  obtain ⟨event, hevents, hevent⟩ := hinvalid
  obtain ⟨n, next, set, queue, hreturned, hdone⟩ :=
    done_of_takes (k := 0) h (by rw [At, if_pos (by omega)]; exact headerAt_zero) rfl
  rw [List.nil_append] at hreturned
  by_cases hrejected : (a.resume n next set queue).Rejected
  · obtain ⟨n', next', set', hstate⟩ := hdone.rejected hrejected
    have hchecked := checkedState_resume a.s a.c a.header n next set queue
    replace hstate : v.state = (((a.resume n next set queue).withRecord
      (checkedState (a.s.resume n next set queue) a.c a.header) {}).pushEvent a.event).retrack
        n' next' set' := hstate
    rw [hchecked] at hstate
    have hqueue : v.state.microEventQueue = (checkedState a.s a.c a.header |>.resume n next set
      queue).microEventQueue ++ [a.event] := by
      rw [hstate]
      rfl
    refine ⟨?_, n', next', set', queue ++ [a.event], hstate⟩
    rw [Reception.events, hqueue, ← hreturned, List.append_assoc]
    rfl
  · exfalso
    rcases hdone.accepted hrejected with hqueue | ⟨event', hqueue, hevent'⟩
    · have hsame : v.events = a.s.microEventQueue := by
        rw [Reception.events, hqueue]
        exact hreturned
      rw [hsame] at hevents
      simpa using congrArg List.length hevents
    · have hsame : v.events = a.s.microEventQueue ++ [event'] := by
        rw [Reception.events, hqueue, ← hreturned, List.append_assoc]
        rfl
      rw [hsame] at hevents
      obtain rfl := List.singleton_inj.mp (List.append_cancel_left hevents)
      exact absurd (hevent.symm.trans hevent') (by simp)

theorem not_unaffected_of_implicit (h : Takes a.c ⟨it, data, a.s, []⟩ a.bytes v)
    (hinvalid : ∃ event, v.events = a.s.microEventQueue ++ [event] ∧ event.isInvalidRecord = true)
    (himplicit : a.Implicit) : ¬ a.Unaffected v := by
  obtain ⟨hevents, n, next, set, queue, hstate⟩ := rejected_of_takes h hinvalid
  intro hunaffected
  obtain ⟨n', next', set', queue', hsame⟩ := hunaffected.state
  rw [hstate] at hsame
  have hpending := congrArg TestFcgiClientInterface.pendingRequestMap hsame
  exact checkedState_of_implicit himplicit hpending

/-- What an invalid record leaves behind. -/
theorem invalid_record (h : Takes a.c ⟨it, data, a.s, []⟩ a.bytes v)
    (hinvalid : ∃ event, v.events = a.s.microEventQueue ++ [event] ∧ event.isInvalidRecord = true) :
    a.Unaffected v ↔ ¬ a.Implicit := by
  refine ⟨fun hunaffected himplicit => not_unaffected_of_implicit h hinvalid himplicit hunaffected,
    fun hexplicit => ?_⟩
  obtain ⟨hevents, n, next, set, queue, hstate⟩ := rejected_of_takes h hinvalid
  rw [checkedState_of_not_implicit hexplicit] at hstate
  refine ⟨⟨n, next, set, queue, hstate⟩, hevents, fun reply later => ?_⟩
  rw [hstate]
  exact sameEvents_resume (appends_receiveAll reply later) _ n next set queue

/-! ### Runs -/

/-- A record that is received from one buffer on a connection without a
partial record. -/
theorem exists_takes (header content padding : Bytes) {s : TestFcgiClientInterface}
    (hrecord : IsRecord header content padding) {bytes : Bytes}
    (hbytes : bytes = header ++ (content ++ padding)) {c : Nat}
    (hclear : s.connectionMap[c]?.map (·.recordState) = some {})
    (hevents : s.microEventQueue.length = 0)
    (hrun : (receiveBuffer { rounds := [] } c bytes.length none bytes s).map (fun r => match r.1 with
      | .ok _ => r.2.microEventQueue.map ServerEvent.isInvalidRecord
      | .error _ => []) = some [true]) :
    ∃ (a : Arrival) (v : Reception), a.s = s ∧ a.c = c ∧ a.header = header ∧
      Takes a.c ⟨none, bytes, a.s, []⟩ a.bytes v ∧
      ∃ event, v.events = a.s.microEventQueue ++ [event] ∧ event.isInvalidRecord = true := by
  obtain ⟨e, he, hstate⟩ := Option.map_eq_some_iff.mp hclear
  obtain ⟨⟨r, t⟩, hr, hevent⟩ := Option.map_eq_some_iff.mp hrun
  have hnil := List.length_eq_zero_iff.mp hevents
  cases r with
  | error e => cases hevent
  | ok it' =>
    refine ⟨⟨s, c, e, header, content, padding, he, by rw [hstate, RecordState.Clear], hrecord⟩,
      ⟨it', [], t, []⟩, rfl, rfl, rfl, ?_, ?_⟩
    · subst hbytes
      exact takes_of_receiveBuffer [] hr
    · obtain ⟨event, rest, hqueue, hinvalid, hrest⟩ := List.map_eq_cons_iff.mp hevent
      obtain rfl := List.map_eq_nil_iff.mp hrest
      exact ⟨event, by rw [hnil]; exact hqueue, hinvalid⟩

/-- A record of a type that no server sends. -/
def strangeRecord : Bytes := [1, 99, 0, 0, 0, 0, 0, 0]

/-- The end of `FCGI_STDOUT` of request 1, and a record that is reported. -/
def streamReply : SystemReply :=
  { rounds := [{
      select := .ready [5]
      reads := [.short ([1, 6, 0, 1, 0, 0, 0, 0] ++ strangeRecord) .eagain] }] }

/-- The same with the end of `FCGI_STDERR`. -/
def streamsReply : SystemReply :=
  { rounds := [{
      select := .ready [5]
      reads := [.short ([1, 6, 0, 1, 0, 0, 0, 0] ++ ([1, 7, 0, 1, 0, 0, 0, 0] ++ strangeRecord))
        .eagain] }] }

/-- The end record of request 1 with protocol status 9. -/
def unknownEnd : Bytes := [1, 3, 0, 1, 0, 8, 0, 0] ++ [0, 0, 0, 0, 9, 0, 0, 0]

/-- The end record with padding, for a request whose streams are completed. -/
theorem invalid_record_of_unknown_status : ∃ (a : Arrival) (v : Reception), Reachable a.s ∧
    a.s.pendingRequestMap.contains ⟨a.c, 1⟩ = true ∧
    Takes a.c ⟨none, [1, 3, 0, 1, 0, 8, 2, 0] ++ ([0, 0, 0, 0, 9, 0, 0, 0] ++ [0, 0]), a.s, []⟩ a.bytes v ∧
    a.Unaffected v := by
  have hrun : ((run {} [(connectReply, .connect), (requestReply, .sendRequest 5 bareRequest),
      (streamsReply, .retrieveServerEvent)]).map fun s =>
      (s.connectionMap[5]?.map (·.recordState), s.microEventQueue.length,
        s.pendingRequestMap[(⟨5, 1⟩ : FcgiRequestIdentifier)]?.map RequestData.stderrCompleted,
        (receiveBuffer { rounds := [] } 5 18 none
            ([1, 3, 0, 1, 0, 8, 2, 0] ++ ([0, 0, 0, 0, 9, 0, 0, 0] ++ [0, 0])) s).map fun r =>
          match r.1 with
          | .ok _ => r.2.microEventQueue.map ServerEvent.isInvalidRecord
          | .error _ => [])) =
      some (some ({} : RecordState), 0, some true, some [true]) := by
    decide +kernel
  obtain ⟨s, hs, hfacts⟩ := Option.map_eq_some_iff.mp hrun
  simp only [Prod.mk.injEq] at hfacts
  obtain ⟨hclear, hevents, hpending, hreceived⟩ := hfacts
  obtain ⟨d, hd, hcompleted⟩ := Option.map_eq_some_iff.mp hpending
  obtain ⟨a, v, rfl, hc, hheader, htakes, hinvalid⟩ :=
    exists_takes [1, 3, 0, 1, 0, 8, 2, 0] [0, 0, 0, 0, 9, 0, 0, 0] [0, 0] ⟨rfl, rfl, rfl⟩ rfl hclear
      hevents hreceived
  refine ⟨a, v, reachable_run (.initial {}) hs, ?_, htakes, (invalid_record htakes hinvalid).mpr ?_⟩
  · rw [hc, ExtTreeMap.contains_eq_isSome_getElem?, hd]
    rfl
  · rintro ⟨-, -, d', hd', -, -, hopen⟩
    rw [hc, hheader] at hd'
    obtain rfl := Option.some.inj (hd.symm.trans hd')
    rw [hcompleted] at hopen
    cases hopen

/-- An end record with an unknown protocol status is reported as invalid, but
the `FCGI_STDERR` of its request is completed. -/
theorem affected_by_invalid_record : ∃ (a : Arrival) (v : Reception), Reachable a.s ∧
    Takes a.c ⟨none, unknownEnd, a.s, []⟩ a.bytes v ∧
    (∃ event, v.events = a.s.microEventQueue ++ [event] ∧ event.isInvalidRecord = true) ∧
    ¬ a.Unaffected v := by
  have hrun : ((run {} [(connectReply, .connect), (requestReply, .sendRequest 5 bareRequest),
      (streamReply, .retrieveServerEvent)]).map fun s =>
      (s.connectionMap[5]?.map (·.recordState), s.microEventQueue.length,
        s.pendingRequestMap[(⟨5, 1⟩ : FcgiRequestIdentifier)]?.map (fun d =>
          acceptsEnd 8 d && decide (d.fcgiStderr = []) && !d.stderrCompleted),
        (receiveBuffer { rounds := [] } 5 16 none unknownEnd s).map fun r => match r.1 with
          | .ok _ => r.2.microEventQueue.map ServerEvent.isInvalidRecord
          | .error _ => [])) =
      some (some ({} : RecordState), 0, some true, some [true]) := by
    decide +kernel
  obtain ⟨s, hs, hfacts⟩ := Option.map_eq_some_iff.mp hrun
  simp only [Prod.mk.injEq] at hfacts
  obtain ⟨hclear, hevents, hpending, hreceived⟩ := hfacts
  obtain ⟨d, hd, hstreams⟩ := Option.map_eq_some_iff.mp hpending
  simp only [Bool.and_eq_true, decide_eq_true_eq, Bool.not_eq_true'] at hstreams
  obtain ⟨⟨haccepted, hempty⟩, hopen⟩ := hstreams
  obtain ⟨a, v, rfl, hc, hheader, htakes, hinvalid⟩ :=
    exists_takes [1, 3, 0, 1, 0, 8, 0, 0] [0, 0, 0, 0, 9, 0, 0, 0] []
    ⟨rfl, rfl, rfl⟩ rfl hclear hevents hreceived
  refine ⟨a, v, reachable_run (.initial {}) hs, htakes, hinvalid,
    not_unaffected_of_implicit htakes hinvalid ⟨by rw [hheader]; rfl, by rw [hheader]; rfl, d, ?_, ?_,
      hempty, hopen⟩⟩
  · rw [hc, hheader]
    exact hd
  · rw [hheader]
    exact haccepted

end Arrival

end AsComponents.Client
