import AsComponents.Completing

/-! A call of `ReadRecords` keeps what the interface thread promises. -/

namespace AsComponents.Server

open Protocol NameValue SocketFunctions AsComponents.Partition Std Critical

variable {A : Assumptions} {c : Nat} {kept : Kept} {loose : Option Nat} {P : System → Prop}

/-! ## Sections that keep the requests of the map -/

theorem keeps_fact {α : Type} {l : Label} {f : SystemReply → Section α} {P' : System → Prop}
    {Q : α → System → Prop} {E : Failure → System → Prop} (hP : Fact A P) (hl : l.Plain)
    (stable : Stable A P')
    (h : ∀ (s : System) (reply : SystemReply), Invariant s → Serving A c kept loose s → P' s →
      (A.sync → ∀ c, l = .scheduleClosure c → s.badInterfaceStateDetected = false →
        s.owner c = none) →
      After (f reply) s
        (fun a => Outcome A c loose s fun t => t.requestMap = s.requestMap ∧ Q a t)
        (fun e => Outcome A c loose s fun t => t.requestMap = s.requestMap ∧ E e t)) :
    Keeps A (fun s => Serving A c kept loose s ∧ P s ∧ P' s) (atomicallyAs l f)
      (fun a s => Serving A c kept loose s ∧ P s ∧ Q a s)
      (fun e s => Serving A c kept loose s ∧ P s ∧ E e s) := by
  refine keeps_served hl (hP.stable.and stable) fun s reply hi hs hp hsync => ?_
  refine (h s reply hi hs hp.2 hsync).mono ?_ ?_
  · exact fun a t ho => ho.mono fun hq => ⟨hP.map s t hq.1 hp.1, hq.2⟩
  · exact fun e t ho => ho.mono fun hq => ⟨hP.map s t hq.1 hp.1, hq.2⟩

theorem stable_true : Stable A fun _ => True := fun _ _ _ _ _ => trivial

theorem keeps_allocating (stable : Stable A P) :
    Keeps A (fun s => Serving A c kept loose s ∧ P s) allocating
      (fun _ s => Serving A c kept loose s ∧ P s) (fun _ s => Serving A c kept loose s ∧ P s) := by
  refine keeps_served trivial stable fun s reply _ hs hp _ => ?_
  simp only [allocate, after_ite, after_throw, after_pure]
  exact ⟨fun _ => hs.outcome hp, fun _ => hs.outcome hp⟩

/-- The connection is scheduled for closure, or the interface is of no use. -/
def System.Scheduled (s : System) (c : Nat) : Prop :=
  s.badInterfaceStateDetected = true ∨ c ∈ s.applicationClosureRequestSet

theorem Serving.tighten_bad {s : System} (h : Serving A c kept (some c) s)
    (ho : s.badInterfaceStateDetected = true ∨ (A.sync → s.owner c = none)) :
    Serving A c kept none s :=
  { h with
    quiet := by
      intro hsync
      rcases ho with hbad | hfree
      · exact .of_bad hbad
      · exact (h.quiet hsync).tighten (hfree hsync) }

/-- The section of the handlers: in a good state the mutex of the connection is
assumed to be free. -/
theorem keeps_schedule {f : SystemReply → Section Unit} (hP : Fact A P)
    (h : ∀ (s : System) (reply : SystemReply), Serving A c kept (some c) s →
      After (f reply) s
        (fun _ => Outcome A c (some c) s fun t => t.requestMap = s.requestMap ∧
          (t.badInterfaceStateDetected = true ∨
            s.badInterfaceStateDetected = false ∧ c ∈ t.applicationClosureRequestSet ∧
              t.owner c = s.owner c))
        (fun _ => Outcome A c (some c) s fun t => t.requestMap = s.requestMap ∧
          t.badInterfaceStateDetected = true)) :
    Keeps A (fun s => Serving A c kept (some c) s ∧ P s) (atomicallyAs (.scheduleClosure c) f)
      (fun _ s => Serving A c kept none s ∧ P s ∧ s.Scheduled c)
      (fun _ s => Serving A c kept none s ∧ P s ∧ s.Scheduled c) := by
  have hkeeps : Keeps A (fun s => Serving A c kept (some c) s ∧ P s ∧ True)
      (atomicallyAs (.scheduleClosure c) f)
      (fun _ s => Serving A c kept (some c) s ∧ P s ∧ s.Scheduled c ∧
        (s.badInterfaceStateDetected = true ∨ (A.sync → s.owner c = none)))
      (fun _ s => Serving A c kept (some c) s ∧ P s ∧ s.Scheduled c ∧
        (s.badInterfaceStateDetected = true ∨ (A.sync → s.owner c = none))) := by
    refine keeps_fact hP trivial stable_true fun s reply _ hs _ hsync => ?_
    refine (h s reply hs).mono ?_ ?_
    · rintro _ t ht
      refine ht.mono fun hu => ⟨hu.1, ?_⟩
      rcases hu.2 with hbad | ⟨hgood, hmem, howner⟩
      · exact ⟨.inl hbad, .inl hbad⟩
      · refine ⟨.inr hmem, .inr fun hs' => ?_⟩
        rw [howner]
        exact hsync hs' c rfl hgood
    · exact fun _ t ht => ht.mono fun hq => ⟨hq.1, .inl hq.2, .inl hq.2⟩
  refine hkeeps.mono (fun s hs => ⟨hs.1, hs.2, trivial⟩) ?_ ?_
  · exact fun _ s hs => ⟨hs.1.tighten_bad hs.2.2.2, hs.2.1, hs.2.2.1⟩
  · exact fun _ s hs => ⟨hs.1.tighten_bad hs.2.2.2, hs.2.1, hs.2.2.1⟩

theorem keeps_scheduleClosure (hP : Fact A P) (what : String) :
    Keeps A (fun s => Serving A c kept (some c) s ∧ P s) (scheduleClosure c what)
      (fun _ s => Serving A c kept none s ∧ P s ∧ s.Scheduled c)
      (fun _ s => Serving A c kept none s ∧ P s ∧ s.Scheduled c) := by
  refine keeps_schedule hP fun s reply hs => ?_
  rw [after_bind, after_interfaceCheck]
  refine ⟨fun hbad => hs.outcome ⟨rfl, hbad⟩, fun hgood => ?_⟩
  refine (after_insertForClosure hs (.inr rfl) reply).mono ?_ fun _ _ ht => ht
  exact fun _ t ht => ht.mono fun hq => ⟨hq.1, .inr ⟨hgood, hq.2.1, hq.2.2⟩⟩

/-- The handler which schedules the connection and rethrows. -/
theorem Keeps.schedulingClosureOnThrow {α : Type} {p : Thread α} {Q : α → System → Prop}
    (what : String) (h : Keeps A P p Q fun _ => Serving A c kept (some c)) :
    Keeps A P (schedulingClosureOnThrow c what p) Q
      (fun _ s => Serving A c kept none s ∧ s.Scheduled c) := by
  refine Keeps.tryCatch h fun e => ?_
  have hschedule : Keeps A (Serving A c kept (some c)) (scheduleClosure c what)
      (fun _ s => Serving A c kept none s ∧ s.Scheduled c)
      (fun _ s => Serving A c kept none s ∧ s.Scheduled c) :=
    (keeps_scheduleClosure fact_true what).mono (fun s hs => ⟨hs, trivial⟩)
      (fun _ s hs => ⟨hs.1, hs.2.2⟩) (fun _ s hs => ⟨hs.1, hs.2.2⟩)
  exact hschedule.bind fun _ => keeps_throw e fun _ hs => hs

/-! ## Sending records -/

theorem keeps_sendRecord (hP : Fact A P) {origin : Option Nat} {bytes : Bytes}
    (hrecord : ∃ r : Record, r.encode = bytes) :
    Keeps A (fun s => Serving A c kept (some c) s ∧ P s ∧ s.Purpose c origin bytes)
      (sendRecord c origin bytes) (fun _ s => Serving A c kept none s ∧ P s)
      (fun _ => Serving A c kept (some c)) := by
  have hwrite : Keeps A (fun s => Serving A c kept (some c) s ∧ P s ∧ s.Purpose c origin bytes)
      (atomically fun reply => sendRecordWrite reply c origin bytes)
      (fun _ s => Serving A c kept (some c) s ∧ P s ∧ s.owner c = none)
      (fun _ s => Serving A c kept (some c) s ∧ P s ∧ True) := by
    refine keeps_fact hP trivial stable_purpose fun s reply hi hs hp _ => ?_
    refine (after_sendRecordWrite hi hs hp hrecord reply).mono (fun _ _ ht => ht) ?_
    exact fun _ t ht => ht.mono fun hq => ⟨hq, trivial⟩
  have hinsert : Keeps A (fun s => Serving A c kept none s ∧ P s ∧ True)
      (atomically fun reply => do
        Critical.await fun s : System => s.owner c = none
        insertForClosure reply c)
      (fun _ s => Serving A c kept none s ∧ P s ∧ True)
      (fun _ s => Serving A c kept none s ∧ P s ∧ True) := by
    refine keeps_fact hP trivial stable_true fun s reply _ hs _ _ => ?_
    rw [after_bind, after_await]
    intro hfree
    refine (after_insertForClosure hs (.inl hfree) reply).mono ?_ ?_
    · exact fun _ t ht => ht.mono fun hq => ⟨hq.1, trivial⟩
    · exact fun _ t ht => ht.mono fun hq => ⟨hq.1, trivial⟩
  have hwritten : Keeps A (fun s => Serving A c kept (some c) s ∧ P s ∧ s.Purpose c origin bytes)
      (atomically fun reply => sendRecordWrite reply c origin bytes)
      (fun _ s => Serving A c kept none s ∧ P s) (fun _ => Serving A c kept (some c)) :=
    hwrite.mono (fun _ hs => hs) (fun _ s hs => ⟨hs.1.tighten hs.2.2, hs.2.1⟩) (fun _ s hs => hs.1)
  refine hwritten.bind fun outcome => ?_
  cases outcome with
  | sent => exact keeps_pure true fun _ hs => hs
  | refused => exact keeps_pure false fun _ hs => hs
  | incomplete e =>
    refine (hinsert.mono (fun s hs => ⟨hs.1, hs.2, trivial⟩) (fun _ _ hs => hs)
      (fun _ s hs => hs.1.weaken _)).bind fun _ => ?_
    refine Keeps.ite (fun _ => keeps_pure false fun s hs => ⟨hs.1, hs.2.1⟩) fun _ => ?_
    exact keeps_throw _ fun s hs => hs.1.weaken _

/-- The two allocations and the record by which a request is ended. -/
theorem keeps_sendFcgiEndRequest (hP : Fact A P) {node : Nat} (id : FcgiRequestIdentifier)
    (protocolStatus : UInt8) (appStatus : Int32) :
    Keeps A (fun s => Serving A c kept (some c) s ∧ P s ∧ s.Ending c node id.fcgiId)
      (sendFcgiEndRequest c (some node) id protocolStatus appStatus)
      (fun _ s => Serving A c kept none s ∧ P s) (fun _ => Serving A c kept (some c)) := by
  refine ((keeps_allocating (hP.stable.and stable_ending)).mono (fun _ hs => hs)
    (fun _ _ hs => hs) (fun _ s hs => hs.1)).bind fun _ => ?_
  refine (keeps_sendRecord hP ⟨_, rfl⟩).mono ?_ (fun _ _ hs => hs) (fun _ _ hs => hs)
  rintro s ⟨hs, hp, hending⟩
  refine ⟨hs, hp, fun node' he => ?_⟩
  cases he
  exact ⟨_, _, _, hending, rfl⟩

theorem purpose_none {s : System} {bytes : Bytes} : s.Purpose c none bytes := by rintro _ ⟨⟩

theorem keeps_sendFcgiUnknownType (hP : Fact A P) (type : FcgiType) :
    Keeps A (fun s => Serving A c kept none s ∧ P s) (sendFcgiUnknownType c type)
      (fun _ s => Serving A c kept none s ∧ P s) (fun _ => Serving A c kept (some c)) := by
  refine ((keeps_allocating hP.stable).mono (fun _ hs => hs) (fun _ _ hs => hs)
    (fun _ s hs => hs.1.weaken _)).bind fun _ => ?_
  exact (keeps_sendRecord hP ⟨_, rfl⟩).mono (fun s hs => ⟨hs.1.weaken _, hs.2, purpose_none⟩)
    (fun _ _ hs => hs) (fun _ _ hs => hs)

theorem keeps_sendGetValuesResult (hP : Fact A P) (content : Bytes) :
    Keeps A (fun s => Serving A c kept none s ∧ P s) (sendGetValuesResult c content)
      (fun _ s => Serving A c kept none s ∧ P s) (fun _ => Serving A c kept (some c)) := by
  have hresult : Keeps A (fun s => Serving A c kept none s ∧ P s)
      (atomically fun reply => do
        allocate reply 0
        return getValuesResultRecord (← get) content)
      (fun _ s => Serving A c kept none s ∧ P s) (fun _ s => Serving A c kept none s ∧ P s) := by
    refine keeps_served trivial hP.stable fun s reply _ hs hp _ => ?_
    simp only [allocate, after_bind, after_ite, after_throw, after_pure, after_get]
    exact ⟨fun _ => hs.outcome hp, fun _ => hs.outcome hp⟩
  refine (hresult.mono (fun _ hs => hs) (fun _ _ hs => hs)
    (fun _ s hs => hs.1.weaken _)).bind fun record => ?_
  exact (keeps_sendRecord hP ⟨record, rfl⟩).mono (fun s hs => ⟨hs.1.weaken _, hs.2, purpose_none⟩)
    (fun _ _ hs => hs) (fun _ _ hs => hs)

theorem Keeps.discard {α : Type} {p : Thread α} {Q : System → Prop} {E : Failure → System → Prop}
    (h : Keeps A P p (fun _ => Q) E) : Keeps A P (discard p) (fun _ => Q) E :=
  h.bind fun _ => keeps_pure _ fun _ hs => hs

/-! ## Complete records -/

theorem keeps_processBeginRequest (its : List Iterator) {rs : RecordStatus}
    (hid : rs.requestId.descriptor = c) :
    Keeps A (fun s => Serving A c kept none s ∧ Listed s c its ∧ s.requestMap[rs.requestId]? = none)
      (processBeginRequest c rs) (fun _ s => Serving A c kept none s ∧ Listed s c its)
      (fun _ => Serving A c kept (some c)) := by
  have hcheck : Keeps A
      (fun s => Serving A c kept none s ∧ Listed s c its ∧ s.requestMap[rs.requestId]? = none)
      (atomically fun _ => checkRequestLimit c rs.requestId)
      (fun r s => Serving A c kept none s ∧ Listed s c its ∧ (r = none → s.Room c) ∧
        ∀ status node, r = some (status, node) → s.Ending c node rs.requestId.fcgiId)
      (fun _ s => Serving A c kept none s ∧ Listed s c its ∧ True) := by
    refine keeps_fact (fact_listed its) trivial stable_absent fun s _ hi hs hnew _ => ?_
    refine (after_checkRequestLimit hi hs hid hnew).mono (fun _ _ ht => ht) ?_
    exact fun _ t ht => ht.mono fun hq => ⟨hq, trivial⟩
  have hadd : ∀ (role : UInt16) (closeConnection : Bool),
      Keeps A (fun s => Serving A c kept none s ∧ Listed s c its ∧ s.Room c)
        (atomically fun reply => do
          processCheck
          setLocalRequestIter (← addRequest reply rs.requestId role closeConnection))
        (fun _ s => Serving A c kept none s ∧ Listed s c its)
        (fun _ s => Serving A c kept none s ∧ True) := by
    intro role closeConnection
    refine keeps_served trivial ((stable_listed its).and stable_room) fun s reply hi hs hp _ => ?_
    refine (after_addRequest hi hs hid hp.2 reply role closeConnection).mono ?_ ?_
    · refine fun _ t ht => ht.mono fun hgrow => hp.1.mono fun it _ hr => ?_
      obtain ⟨d, hd, hready⟩ := hr
      obtain ⟨hd, hn⟩ := lookup_eq_some.mp hd
      exact ⟨d, lookup_eq_some.mpr ⟨hgrow _ d hd, hn⟩, hready⟩
    · exact fun _ t ht => ht.mono fun _ => trivial
  unfold processBeginRequest
  split
  · refine (hcheck.mono (fun _ hs => hs) (fun _ _ hs => hs) (fun _ s hs => hs.1.weaken _)).bind
      fun r => ?_
    cases r with
    | none =>
      refine (hadd _ _).mono ?_ (fun _ _ hs => hs) (fun _ s hs => hs.1.weaken _)
      exact fun s hs => ⟨hs.1, hs.2.1, hs.2.2.1 rfl⟩
    | some r =>
      obtain ⟨status, node⟩ := r
      have hsend : Keeps A
          (fun s => Serving A c kept (some c) s ∧ Listed s c its ∧ s.Ending c node rs.requestId.fcgiId)
          (sendFcgiEndRequest c (some node) rs.requestId status exitFailure)
          (fun _ s => Serving A c kept none s ∧ Listed s c its) (fun _ => Serving A c kept (some c)) :=
        keeps_sendFcgiEndRequest (fact_listed its) rs.requestId status exitFailure
      refine (hsend.mono ?_ (fun _ _ hs => hs) (fun _ _ hs => hs)).discard
      exact fun s hs => ⟨hs.1.weaken _, hs.2.1, hs.2.2.2 status node rfl⟩
  · have hhalt : Keeps A (fun s => Serving A c kept none s ∧ True)
        (atomically fun _ => halt .danglingPointer : Thread Unit)
        (fun _ s => Serving A c kept none s ∧ Listed s c its)
        (fun _ s => Serving A c kept none s ∧ True) := by
      refine keeps_served trivial stable_true fun s _ _ _ _ _ => ?_
      rw [after_halt]
      exact .halt (by simp)
    exact hhalt.mono (fun s hs => ⟨hs.1, trivial⟩) (fun _ _ hs => hs) (fun _ s hs => hs.1.weaken _)

theorem stable_quiet : Stable A fun s => A.sync → Quiet none s :=
  stable_of_interference fun _ _ hi hq hs => hi.quiet none (hq hs)

/-- The list of completed requests with the one that the last record completed. -/
def finished (r : List Iterator × Option Iterator) : List Iterator := r.1 ++ r.2.toList

theorem keeps_processAbort (its : List Iterator) {rs : RecordStatus}
    (hid : rs.requestId.descriptor = c) :
    Keeps A (fun s => Serving A c kept none s ∧ Listed s c its)
      (do
        match ← atomically fun reply => abortRequest reply c rs.requestId its with
        | (its, none) => return (its, none)
        | (its, some node) =>
            let appStatus ← atomically fun _ => return (← get).appStatusOnAbort
            discard (sendFcgiEndRequest c (some node) rs.requestId fcgiRequestComplete appStatus)
            return (its, none) : Thread (List Iterator × Option Iterator))
      (fun r s => Serving A c kept none s ∧ Listed s c (finished r))
      (fun _ => Serving A c kept (some c)) := by
  have habort : Keeps A
      (fun s => Serving A c kept (some c) s ∧ Listed s c its ∧ (A.sync → Quiet none s))
      (atomically fun reply => abortRequest reply c rs.requestId its)
      (fun r s => Serving A c kept (some c) s ∧ Listed s c r.1 ∧
        (r.2 = none → A.sync → Quiet none s) ∧
        ∀ node, r.2 = some node → s.Ending c node rs.requestId.fcgiId)
      (fun _ s => Serving A c kept (some c) s ∧ True) :=
    keeps_served trivial ((stable_listed its).and stable_quiet) fun s reply hi hs hp _ =>
      after_abortRequest hi hs hid hp.1 hp.2 reply
  refine (habort.mono (fun s hs => ⟨hs.1.weaken _, hs.2, hs.1.quiet⟩) (fun _ _ hs => hs)
    (fun _ s hs => hs.1)).bind fun r => ?_
  obtain ⟨its', ended⟩ := r
  cases ended with
  | none =>
    refine keeps_pure _ fun s hs => ?_
    rw [finished, Option.toList_none, List.append_nil]
    exact ⟨{ hs.1 with quiet := hs.2.2.1 rfl }, hs.2.1⟩
  | some node =>
    have hstatus : Keeps A
        (fun s => Serving A c kept (some c) s ∧ Listed s c its' ∧ s.Ending c node rs.requestId.fcgiId)
        (atomically fun _ => return (← get).appStatusOnAbort)
        (fun _ s => Serving A c kept (some c) s ∧ Listed s c its' ∧
          s.Ending c node rs.requestId.fcgiId)
        (fun _ s => Serving A c kept (some c) s ∧ True) := by
      refine keeps_served trivial ((stable_listed its').and stable_ending) fun s _ _ hs hp _ => ?_
      rw [after_bind, after_get, after_pure]
      exact hs.outcome hp
    refine (hstatus.mono (fun s hs => ⟨hs.1, hs.2.1, hs.2.2.2 node rfl⟩) (fun _ _ hs => hs)
      (fun _ s hs => hs.1)).bind fun appStatus => ?_
    have hsend : Keeps A
        (fun s => Serving A c kept (some c) s ∧ Listed s c its' ∧ s.Ending c node rs.requestId.fcgiId)
        (sendFcgiEndRequest c (some node) rs.requestId fcgiRequestComplete appStatus)
        (fun _ s => Serving A c kept none s ∧ Listed s c its') (fun _ => Serving A c kept (some c)) :=
      keeps_sendFcgiEndRequest (fact_listed its') rs.requestId fcgiRequestComplete appStatus
    refine hsend.discard.bind fun _ => keeps_pure _ fun s hs => ?_
    rw [finished, Option.toList_none, List.append_nil]
    exact hs

/-- The record that ends a malformed request. -/
theorem keeps_endMalformed {its : List Iterator} {it : Iterator} (hit : it.key.descriptor = c)
    (id : FcgiRequestIdentifier) (hid : it.key.fcgiId = id.fcgiId) :
    Keeps A (fun s => Serving A c kept none s ∧ Listed s c its ∧ s.Ready it ∧
        it ∉ its ∧ s.localRequestIter ≠ some it)
      (do
        atomically fun reply => rejectMalformed reply c it
        discard (sendFcgiEndRequest c (some it.node) id fcgiRequestComplete exitFailure)
        return none : Thread (Option Iterator))
      (fun r s => Serving A c kept none s ∧ Listed s c (its ++ r.toList))
      (fun _ => Serving A c kept (some c)) := by
  have hcached : Stable A fun s => s.localRequestIter ≠ some it := by
    refine stable_of_interference fun s t hi hne => ?_
    rw [hi.localRequestIter]
    exact hne
  have hnew : Stable A fun _ => it ∉ its := fun _ _ h _ _ => h
  have hreject : Keeps A
      (fun s => Serving A c kept (some c) s ∧ Listed s c its ∧ s.Ready it ∧ it ∉ its ∧
        s.localRequestIter ≠ some it)
      (atomically fun reply => rejectMalformed reply c it)
      (fun _ s => Serving A c kept (some c) s ∧ Listed s c its ∧ s.Ending c it.node id.fcgiId)
      (fun _ s => Serving A c kept (some c) s ∧ True) := by
    refine keeps_served trivial ((stable_listed its).and (stable_ready.and (hnew.and hcached))) ?_
    rintro s reply hi hs ⟨hl, hr, hnot, hne⟩ _
    rw [← hid]
    exact after_rejectMalformed hi hs hl hit hr hnot hne reply
  refine (hreject.mono (fun s hs => ⟨hs.1.weaken _, hs.2⟩) (fun _ _ hs => hs)
    (fun _ s hs => hs.1)).bind fun _ => ?_
  have hsend : Keeps A
      (fun s => Serving A c kept (some c) s ∧ Listed s c its ∧ s.Ending c it.node id.fcgiId)
      (sendFcgiEndRequest c (some it.node) id fcgiRequestComplete exitFailure)
      (fun _ s => Serving A c kept none s ∧ Listed s c its) (fun _ => Serving A c kept (some c)) :=
    keeps_sendFcgiEndRequest (fact_listed its) id fcgiRequestComplete exitFailure
  refine hsend.discard.bind fun _ => keeps_pure _ fun s hs => ?_
  rw [Option.toList_none, List.append_nil]
  exact hs

theorem keeps_processStream (its : List Iterator) {rs : RecordStatus}
    (hid : rs.requestId.descriptor = c) (ha : rs.Accepts) {st : Stream}
    (hst : Stream.ofType rs.type = some st) :
    Keeps A (fun s => Serving A c kept none s ∧ Listed s c its ∧ Received s c rs)
      (processStream c rs st)
      (fun r s => Serving A c kept none s ∧ Listed s c (its ++ r.toList))
      (fun _ => Serving A c kept (some c)) := by
  unfold processStream
  refine Keeps.ite (fun _ => ?_) fun _ => keeps_pure _ fun s hs => ?_
  · have hcomplete : ∀ it : Iterator, it.key = rs.requestId → Keeps A
        (fun s => Serving A c kept none s ∧ Listed s c its ∧ s.Open it st)
        (atomically fun reply => completeStream reply st it)
        (fun r s => Serving A c kept none s ∧ StreamEnded s c its it r ∧
          (r ≠ .incomplete → s.localRequestIter ≠ some it))
        (fun _ s => Serving A c kept none s ∧ True) := by
      intro it hkey
      refine keeps_served trivial ((stable_listed its).and stable_open) fun s reply _ hs hp _ => ?_
      exact after_completeStream hs (hkey ▸ hid) hp.2 hp.1 reply
    refine Keeps.bind (Q := fun it s =>
      Serving A c kept none s ∧ Listed s c its ∧ it.key = rs.requestId ∧ s.Open it st) ?_ fun it => ?_
    · refine Keeps.mono (E := fun _ s => Serving A c kept none s ∧ Listed s c its ∧ True) ?_
        (fun _ hs => hs) (fun _ _ hs => hs) (fun _ s hs => hs.1.weaken _)
      refine keeps_fact (fact_listed its) trivial (stable_received rs) fun s _ _ hs hr _ => ?_
      refine (after_findStream hs hr ha hst _).mono (fun _ _ ht => ht) ?_
      exact fun _ t ht => ht.mono fun hq => ⟨hq, trivial⟩
    refine keeps_of (fun s hs => hs.2.2.1) fun hkey => ?_
    refine ((hcomplete it hkey).mono (fun s hs => ⟨hs.1, hs.2.1, hs.2.2.2⟩) (fun _ _ hs => hs)
      (fun _ s hs => hs.1.weaken _)).bind fun r => ?_
    cases r with
    | incomplete =>
      refine keeps_pure _ fun s hs => ?_
      rw [Option.toList_none, List.append_nil]
      exact ⟨hs.1, hs.2.1.listed⟩
    | complete =>
      refine keeps_pure _ fun s hs => ?_
      obtain ⟨hready, hnew⟩ := hs.2.1.ready (by simp)
      exact ⟨hs.1, hs.2.1.listed.cons (hkey ▸ hid) hready hnew⟩
    | malformed =>
      refine (keeps_endMalformed (hkey ▸ hid) rs.requestId (by rw [hkey])).mono ?_
        (fun _ _ hs => hs) (fun _ _ hs => hs)
      intro s hs
      obtain ⟨hready, hnew⟩ := hs.2.1.ready (by simp)
      exact ⟨hs.1, hs.2.1.listed, hready, hnew, hs.2.2 (by simp)⟩
  · rw [Option.toList_none, List.append_nil]
    exact ⟨hs.1, hs.2.1⟩

theorem keeps_processRecord (its : List Iterator) {rs : RecordStatus} (hc : rs.IsRecordComplete) :
    Keeps A (fun s => Serving A c kept none s ∧ Listed s c its ∧ Received s c rs)
      (processRecord c rs its) (fun r s => Serving A c kept none s ∧ Listed s c (finished r))
      (fun _ => Serving A c kept (some c)) := by
  have hheader : rs.IsHeaderComplete := by
    unfold RecordStatus.IsRecordComplete RecordStatus.expectedBytes at hc
    unfold RecordStatus.IsHeaderComplete
    omega
  have hnothing : Keeps A (fun s => Serving A c kept none s ∧ Listed s c its)
      (return (its, none) : Thread (List Iterator × Option Iterator))
      (fun r s => Serving A c kept none s ∧ Listed s c (finished r))
      (fun _ => Serving A c kept (some c)) := by
    refine keeps_pure _ fun s hs => ?_
    rw [finished, Option.toList_none, List.append_nil]
    exact hs
  have hforget : ∀ s, Serving A c kept none s ∧ Listed s c its ∧ Received s c rs →
      Serving A c kept none s ∧ Listed s c its := fun s hs => ⟨hs.1, hs.2.1⟩
  unfold processRecord
  refine keeps_of (fun s hs => hs.2.2.descriptor hheader) fun hid => ?_
  refine Keeps.ite (fun _ => ?_) fun hid0 => ?_
  · refine Keeps.mono ?_ hforget (fun _ _ hs => hs) (fun _ _ hs => hs)
    refine Keeps.ite (fun _ => ?_) fun _ => ?_
    · exact (keeps_sendGetValuesResult (fact_listed its) _).discard.bind fun _ => hnothing
    · exact (keeps_sendFcgiUnknownType (fact_listed its) _).discard.bind fun _ => hnothing
  refine Keeps.ite (fun _ => hnothing.mono hforget (fun _ _ hs => hs) (fun _ _ hs => hs))
    fun hvalid => ?_
  have ha : rs.Accepts := ⟨hheader, by simpa using hvalid, hid0⟩
  refine Keeps.ite (fun htype => ?_) fun _ => Keeps.ite (fun _ => ?_) fun _ => ?_
  · refine ((keeps_processBeginRequest its hid).mono ?_ (fun _ _ hs => hs) (fun _ _ hs => hs)).bind
      fun _ => hnothing
    exact fun s hs => ⟨hs.1, hs.2.1, hs.2.2.begins ha htype⟩
  · exact (keeps_processAbort its hid).mono hforget (fun _ _ hs => hs) (fun _ _ hs => hs)
  · split
    · rename_i st hst
      exact (keeps_processStream its hid ha hst).bind fun r => keeps_pure _ fun s hs => hs
    · exact keeps_throw _ fun s hs => hs.1.weaken _

/-- A record that is complete: the list of completed requests is updated. -/
theorem keeps_finishRecord (its : List Iterator) {rs : RecordStatus} (hc : rs.IsRecordComplete) :
    Keeps A (fun s => Serving A c kept none s ∧ Listed s c its ∧ Received s c rs)
      (finishRecord c rs its) (fun its s => Serving A c kept none s ∧ Listed s c its)
      (fun _ s => Serving A c kept none s ∧ s.Scheduled c) := by
  refine Keeps.schedulingClosureOnThrow _ ?_
  have hprocess : Keeps A (fun s => Serving A c kept none s ∧ Listed s c its ∧ Received s c rs)
      (processCompleteRecord c rs its) (fun r s => Serving A c kept none s ∧ Listed s c (finished r))
      (fun _ s => Serving A c kept none s ∧ s.Scheduled c) :=
    Keeps.schedulingClosureOnThrow _ (keeps_processRecord its hc)
  refine (hprocess.mono (fun _ hs => hs) (fun _ _ hs => hs) (fun _ s hs => hs.1.weaken _)).bind
    fun r => ?_
  obtain ⟨its', completed⟩ := r
  cases completed with
  | none =>
    refine keeps_pure _ fun s hs => ?_
    rw [finished, Option.toList_none, List.append_nil] at hs
    exact hs
  | some it =>
    refine ((keeps_allocating (stable_listed (its' ++ [it]))).mono (fun _ hs => hs) (fun _ _ hs => hs)
      (fun _ s hs => hs.1.weaken _)).bind fun _ => ?_
    exact keeps_pure _ fun s hs => hs

/-! ## Received bytes -/

/-- Only how much was received differs. -/
theorem Received.update {s : System} {rs rs' : RecordStatus} (h : Received s c rs)
    (hc : rs.IsHeaderComplete) (hid : rs'.requestId = rs.requestId) (htype : rs'.type = rs.type)
    (hinv : rs'.invalidatedByHeader = rs.invalidatedByHeader) : Received s c rs' := by
  have ha : rs'.Accepts → rs.Accepts := fun h' => ⟨hc, hinv ▸ h'.2.1, hid ▸ h'.2.2⟩
  refine ⟨fun _ => hid ▸ h.descriptor hc, fun h' ht => ?_, fun h' st hst => ?_⟩
  · rw [hid]
    exact h.begins (ha h') (htype ▸ ht)
  · rw [hid]
    exact h.stream (ha h') st (htype ▸ hst)

theorem Received.of_incomplete {s : System} {rs : RecordStatus} (h : ¬ rs.IsHeaderComplete) :
    Received s c rs :=
  ⟨fun h' => absurd h' h, fun h' => absurd h'.1 h, fun h' => absurd h'.1 h⟩

/-- A record that is not accepted says nothing about the requests. -/
theorem Received.of_refused {s : System} {rs : RecordStatus} (hid : rs.requestId.descriptor = c)
    (h : ¬ rs.Accepts) : Received s c rs :=
  ⟨fun _ => hid, fun h' => absurd h' h, fun h' => absurd h' h⟩

theorem keeps_updateAfterHeaderCompletion (its : List Iterator) (rs : RecordStatus) :
    Keeps A (fun s => Serving A c kept none s ∧ Listed s c its) (updateAfterHeaderCompletion c rs)
      (fun rs s => Serving A c kept none s ∧ Listed s c its ∧ Received s c rs)
      (fun _ => Serving A c kept none) := by
  unfold updateAfterHeaderCompletion
  refine Keeps.ite (fun hnull => keeps_pure _ fun s hs => ⟨hs.1, hs.2, ?_⟩) fun _ => ?_
  · exact .of_refused rfl fun ha => ha.2.2 hnull
  refine Keeps.ite (fun _ => keeps_pure _ fun s hs => ⟨hs.1, hs.2, ?_⟩) fun _ => ?_
  · exact .of_refused rfl fun ha => absurd ha.2.1 (by simp)
  have hvalidate : Keeps A (fun s => Serving A c kept none s ∧ Listed s c its ∧ True)
      (atomically fun _ => validateHeader (rs.decodeHeader c))
      (fun b s => Serving A c kept none s ∧ Listed s c its ∧
        Received s c { rs.decodeHeader c with invalidatedByHeader := b })
      (fun _ s => Serving A c kept none s ∧ Listed s c its ∧ True) := by
    refine keeps_fact (fact_listed its) trivial stable_true fun s _ hi hs _ _ => ?_
    refine (after_validateHeader hi hs rfl).mono (fun _ _ ht => ht) ?_
    exact fun _ t ht => ht.mono fun hq => ⟨hq, trivial⟩
  refine (hvalidate.mono (fun s hs => ⟨hs.1, hs.2, trivial⟩) (fun _ _ hs => hs)
    (fun _ s hs => hs.1)).bind fun b => ?_
  exact keeps_pure _ fun s hs => hs

theorem keeps_receiveHeader (its : List Iterator) {rs : RecordStatus} (hr : ¬ rs.IsHeaderComplete)
    (bytes : Bytes) :
    Keeps A (fun s => Serving A c kept none s ∧ Listed s c its) (receiveHeader c rs bytes)
      (fun r s => Serving A c kept none s ∧ Listed s c its ∧ Received s c r.1)
      (fun _ s => Serving A c kept none s ∧ s.Scheduled c) := by
  unfold receiveHeader
  refine Keeps.ite (fun _ => ?_) fun hshort => keeps_pure _ fun s hs => ⟨hs.1, hs.2, ?_⟩
  · refine Keeps.bind (Keeps.schedulingClosureOnThrow readRecordsCorrupt
      ((keeps_updateAfterHeaderCompletion its _).mono (fun _ hs => hs) (fun _ _ hs => hs)
        (fun _ s hs => hs.weaken _))) fun rs' => ?_
    exact keeps_pure _ fun s hs => hs
  · refine .of_incomplete ?_
    unfold RecordStatus.IsHeaderComplete at hr ⊢
    simp only at hshort ⊢
    omega

theorem keeps_receiveContent (its : List Iterator) {rs : RecordStatus} (hc : rs.IsHeaderComplete)
    (remaining : Nat) (bytes : Bytes) :
    Keeps A (fun s => Serving A c kept none s ∧ Listed s c its ∧ Received s c rs)
      (receiveContent c rs remaining bytes)
      (fun r s => Serving A c kept none s ∧ Listed s c its ∧ Received s c r.1)
      (fun _ s => Serving A c kept none s ∧ s.Scheduled c) := by
  unfold receiveContent
  refine Keeps.ite (fun _ => keeps_pure _ fun s hs => ⟨hs.1, hs.2.1, ?_⟩) fun hvalid => ?_
  · exact hs.2.2.update hc rfl rfl rfl
  refine Keeps.ite (fun _ => ?_) fun hstream => ?_
  · have hallocate : Keeps A (fun s => Serving A c kept none s ∧ Listed s c its ∧ Received s c rs)
        allocating (fun _ s => Serving A c kept none s ∧ Listed s c its ∧ Received s c rs)
        (fun _ s => Serving A c kept none s ∧ Listed s c its ∧ Received s c rs) :=
      keeps_allocating ((stable_listed its).and (stable_received rs))
    refine Keeps.bind (Keeps.schedulingClosureOnThrow readRecordsCorrupt
      (hallocate.mono (fun _ hs => hs) (fun _ _ hs => hs) (fun _ s hs => hs.1.weaken _))) fun _ => ?_
    exact keeps_pure _ fun s hs => ⟨hs.1, hs.2.1, hs.2.2.update hc rfl rfl rfl⟩
  · simp only [not_or] at hstream
    have ha : rs.Accepts := ⟨hc, by simpa using hvalid, hstream.1⟩
    have happend : Keeps A (fun s => Serving A c kept none s ∧ Listed s c its ∧ Received s c rs)
        (atomically fun reply => appendToStream reply rs (bytes.take (min remaining bytes.length)))
        (fun _ s => Serving A c kept none s ∧ Listed s c its ∧ Received s c rs)
        (fun _ s => Serving A c kept none s ∧ s.badInterfaceStateDetected = true) :=
      keeps_served trivial ((stable_listed its).and (stable_received rs)) fun s reply _ hs hp _ =>
        after_appendToStream hs hp.2 ha hp.1 reply _
    refine (happend.mono (fun _ hs => hs) (fun _ _ hs => hs) (fun _ s hs => ⟨hs.1, .inl hs.2⟩)).bind
      fun appended => Keeps.ite (fun _ => keeps_pure _ fun s hs => ?_) fun _ => ?_
    · exact ⟨hs.1, hs.2.1, hs.2.2.update hc rfl rfl rfl⟩
    · have hschedule : Keeps A (fun s => Serving A c kept (some c) s ∧ True)
          (atomicallyAs (.scheduleClosure c) fun reply => do
            if (← get).badInterfaceStateDetected = false then
              insertForClosure reply c)
          (fun _ s => Serving A c kept none s ∧ True ∧ s.Scheduled c)
          (fun _ s => Serving A c kept none s ∧ True ∧ s.Scheduled c) := by
        refine keeps_schedule fact_true fun s reply hs => ?_
        rw [after_bind, after_get, after_ite]
        refine ⟨fun hgood => ?_, fun hbad => ?_⟩
        · refine (after_insertForClosure hs (.inr rfl) reply).mono ?_ fun _ _ ht => ht
          exact fun _ t ht => ht.mono fun hq => ⟨hq.1, .inr ⟨hgood, hq.2.1, hq.2.2⟩⟩
        · rw [after_pure]
          exact hs.outcome ⟨rfl, .inl (by simpa using hbad)⟩
      refine (hschedule.mono (fun s hs => ⟨hs.1.weaken _, trivial⟩) (fun _ _ hs => hs) ?_).bind
        fun _ => keeps_throw _ fun s hs => ⟨hs.1, hs.2.2⟩
      exact fun _ s hs => ⟨hs.1, hs.2.2⟩

theorem keeps_receiveSegment (its : List Iterator) (rs : RecordStatus) (bytes : Bytes) :
    Keeps A (fun s => Serving A c kept none s ∧ Listed s c its ∧ Received s c rs)
      (receiveSegment c rs bytes)
      (fun r s => Serving A c kept none s ∧ Listed s c its ∧ Received s c r.1)
      (fun _ s => Serving A c kept none s ∧ s.Scheduled c) := by
  unfold receiveSegment
  refine Keeps.ite (fun hc => Keeps.ite (fun _ => ?_) fun _ => keeps_pure _ fun s hs => ?_)
    fun hc => ?_
  · exact keeps_receiveContent its hc _ bytes
  · exact ⟨hs.1, hs.2.1, hs.2.2.update hc rfl rfl rfl⟩
  · exact (keeps_receiveHeader its hc bytes).mono (fun s hs => ⟨hs.1, hs.2.1⟩) (fun _ _ hs => hs)
      (fun _ _ hs => hs)

theorem keeps_processReceivedBytes (fuel : Nat) (its : List Iterator) (rs : RecordStatus)
    (bytes : Bytes) :
    Keeps A (fun s => Serving A c kept none s ∧ Listed s c its ∧ Received s c rs)
      (processReceivedBytes c fuel rs its bytes)
      (fun r s => Serving A c kept none s ∧ Listed s c r.2 ∧ Received s c r.1)
      (fun _ s => Serving A c kept none s ∧ s.Scheduled c) := by
  induction fuel generalizing its rs bytes with
  | zero => exact keeps_pure _ fun s hs => hs
  | succ fuel ih =>
    cases bytes with
    | nil => exact keeps_pure _ fun s hs => hs
    | cons b bs =>
      refine (keeps_receiveSegment its rs (b :: bs)).bind fun r => ?_
      obtain ⟨rs', rest⟩ := r
      refine Keeps.ite (fun hc => ?_) fun _ => ih its rs' rest
      refine (keeps_finishRecord its hc).bind fun its' => ?_
      exact (ih its' {} rest).mono (fun s hs => ⟨hs.1, hs.2, .empty s c⟩) (fun _ _ hs => hs)
        (fun _ _ hs => hs)

theorem keeps_readLoop (reads : List ReadResult) (its : List Iterator) (rs : RecordStatus) :
    Keeps A (fun s => Serving A c kept none s ∧ Listed s c its ∧ Received s c rs)
      (readLoop c reads rs its)
      (fun r s => Serving A c kept none s ∧ Listed s c r.2 ∧ Received s c r.1)
      (fun _ s => Serving A c kept none s ∧ s.Scheduled c) := by
  induction reads generalizing its rs with
  | nil => exact keeps_blocked
  | cons read reads ih =>
    cases read with
    | filled bytes =>
      exact (keeps_processReceivedBytes bytes.length its rs bytes).bind fun r => ih r.2 r.1
    | drained bytes => exact keeps_processReceivedBytes bytes.length its rs bytes
    | failed e =>
      refine ((keeps_scheduleClosure (fact_received rs) readRecordsCorrupt).mono
        (fun s hs => ⟨hs.1.weaken _, hs.2.2⟩) (fun _ _ hs => hs)
        (fun _ s hs => ⟨hs.1, hs.2.2⟩)).bind fun _ => ?_
      refine Keeps.ite (fun _ => keeps_pure _ fun s hs => ?_) fun _ => keeps_throw _ fun s hs => ?_
      · exact ⟨hs.1, .nil s c, hs.2.1⟩
      · exact ⟨hs.1, hs.2.2⟩

/-! ## A whole call -/

/-- What the interface thread knows when it serves no connection. -/
structure Waiting (A : Assumptions) (kept : Kept) (s : System) : Prop where
  alive : s.interfaceIdentifier ≠ 0
  received : ∀ (c : Nat) (rs : RecordStatus), s.recordStatusMap[c]? = some rs → Received s c rs
  held : ∀ i ∈ kept.objects, (s.requests i).held = true
  connections : ∀ c ∈ kept.connections, c ∈ s.writeMutexMap
  quiet : A.sync → Quiet none s

/-- What it knows when an exception has been thrown, and between two calls of
`AcceptRequests`: the record status of a connection that is to be closed may be
out of date. -/
structure Left (A : Assumptions) (kept : Kept) (s : System) : Prop where
  alive : s.interfaceIdentifier ≠ 0
  received : s.Current
  held : ∀ i ∈ kept.objects, (s.requests i).held = true
  connections : ∀ c ∈ kept.connections, c ∈ s.writeMutexMap
  quiet : A.sync → Quiet none s

theorem Waiting.left {s : System} (h : Waiting A kept s) : Left A kept s :=
  ⟨h.alive, fun _ c rs hrs => .inl (h.received c rs hrs), h.held, h.connections, h.quiet⟩

theorem Waiting.undisturbed {s t : System} (h : Waiting A kept s) (hu : Undisturbed s t)
    {kept' : Kept} (hheld : ∀ i ∈ kept'.objects, (t.requests i).held = true)
    (hc : kept'.connections = kept.connections) : Waiting A kept' t where
  alive := by
    rw [hu.interfaceIdentifier]
    exact h.alive
  received c rs hrs := by
    rw [hu.recordStatusMap] at hrs
    exact (h.received c rs hrs).undisturbed hu
  held := hheld
  connections c hmem := hu.mem_writeMutexMap (h.connections c (hc ▸ hmem))
  quiet hs := hu.quiet none (h.quiet hs)

theorem Left.undisturbed {s t : System} (h : Left A kept s) (hu : Undisturbed s t)
    {kept' : Kept} (hheld : ∀ i ∈ kept'.objects, (t.requests i).held = true)
    (hc : kept'.connections = kept.connections) : Left A kept' t where
  alive := by
    rw [hu.interfaceIdentifier]
    exact h.alive
  received hg c rs hrs := by
    rw [hu.recordStatusMap] at hrs
    rcases h.received (hu.good hg) c rs hrs with hrec | hmem
    · exact .inl (hrec.undisturbed hu)
    · exact .inr (hu.closure c hmem)
  held := hheld
  connections c hmem := hu.mem_writeMutexMap (h.connections c (hc ▸ hmem))
  quiet hs := hu.quiet none (h.quiet hs)

theorem stable_waiting : Stable A (Waiting A kept) := by
  refine stable_of_interference fun s t hi h => h.undisturbed hi.toUndisturbed (fun i hk => ?_) rfl
  rw [hi.held i (h.held i hk)]
  exact h.held i hk

theorem stable_left : Stable A (Left A kept) := by
  refine stable_of_interference fun s t hi h => h.undisturbed hi.toUndisturbed (fun i hk => ?_) rfl
  rw [hi.held i (h.held i hk)]
  exact h.held i hk

/-- The call begins without a cached iterator. -/
theorem Waiting.serving {s t : System} (h : Waiting A kept s) (hc : c ∈ kept.connections)
    (ht : t = { s with localRequestIter := none }) : Serving A c kept none t := by
  subst ht
  exact
    { alive := h.alive
      registered := h.connections c hc
      others := fun c' rs _ hrs => (h.received c' rs hrs).congr (by rfl)
      cached := by simp
      present := by rintro _ _ ⟨⟩
      held := h.held
      connections := h.connections
      quiet := h.quiet }

theorem Serving.left {s : System} (h : Serving A c kept none s) (hs : s.Scheduled c) :
    Left A kept s where
  alive := h.alive
  received hg c' rs hrs := by
    by_cases hne : c' = c
    · subst hne
      rcases hs with hbad | hmem
      · rw [hg] at hbad
        cases hbad
      · exact .inr hmem
    · exact .inl (h.others c' rs hne hrs)
  held := h.held
  connections := h.connections
  quiet := h.quiet

/-- The record status is stored when the call ends. -/
theorem Serving.waiting {s : System} (h : Serving A c kept none s) {rs : RecordStatus}
    (hr : Received s c rs) :
    Waiting A kept { s with
      localRequestIter := none, recordStatusMap := s.recordStatusMap.insert c rs } where
  alive := h.alive
  received c' rs' hrs := by
    have hrs' : (s.recordStatusMap.insert c rs)[c']? = some rs' := hrs
    by_cases hne : c' = c
    · subst hne
      rw [ExtTreeMap.getElem?_insert_self, Option.some.injEq] at hrs'
      subst hrs'
      exact hr.congr (by rfl)
    · exact (h.others c' rs' hne (by grind)).congr (by rfl)
  held := h.held
  connections := h.connections
  quiet := h.quiet

theorem keeps_readRecords (hc : c ∈ kept.connections) (reads : List ReadResult) :
    Keeps A (Waiting A kept) (readRecords c reads)
      (fun its s => Waiting A kept s ∧ Listed s c its) (fun _ => Left A kept) := by
  have hstart : Keeps A (Waiting A kept)
      (atomically fun _ => do
        setLocalRequestIter none
        return ((← get).recordStatusMap[c]?).getD {})
      (fun rs s => Serving A c kept none s ∧ Listed s c [] ∧ Received s c rs)
      (fun _ => Left A kept) := by
    refine keeps_atomically stable_waiting fun s reply _ hh hs => ?_
    simp only [after_bind, after_setLocalRequestIter, after_get, after_pure]
    refine ⟨.of_move hh (.frame fun _ => Iff.rfl) rfl, fun _ => ?_⟩
    refine ⟨hs.serving hc rfl, .nil _ _, ?_⟩
    cases hrs : s.recordStatusMap[c]? with
    | none => exact .empty _ c
    | some rs => exact (hs.received c rs hrs).congr (by rfl)
  have hend : ∀ (its : List Iterator) (rs : RecordStatus),
      Keeps A (fun s => Serving A c kept none s ∧ Listed s c its ∧ Received s c rs)
        (atomically fun _ => do
          setLocalRequestIter none
          modify fun s => { s with recordStatusMap := s.recordStatusMap.insert c rs })
        (fun _ s => Waiting A kept s ∧ Listed s c its) (fun _ => Left A kept) := by
    intro its rs
    refine keeps_atomically (stable_serving.and ((stable_listed its).and (stable_received rs)))
      fun s reply hi hh hs => ?_
    simp only [after_bind, after_setLocalRequestIter, after_modify]
    refine ⟨.of_move hh (.frame (s := s) fun c' => ?_) rfl, fun _ => ?_⟩
    · rw [ExtTreeMap.mem_insert]
      refine ⟨fun h => ?_, .inr⟩
      rcases h with he | h
      · obtain rfl := LawfulEqCmp.eq_of_compare he
        exact (hi.tables.recordStatus_iff c).mpr hs.1.registered
      · exact h
    · exact ⟨hs.1.waiting hs.2.2, hs.2.1.congr (by rfl)⟩
  have hgiveUp : Keeps A (Left A kept) (atomically fun _ => setLocalRequestIter none)
      (fun _ => Left A kept) (fun _ => Left A kept) := by
    refine keeps_atomically stable_left fun s reply _ hh hs => ?_
    rw [after_setLocalRequestIter]
    refine ⟨.of_move hh (.frame fun _ => Iff.rfl) rfl, fun _ => ?_⟩
    exact ⟨hs.alive, fun hg c rs hrs => (hs.received hg c rs hrs).imp_left (.congr (by rfl)), hs.held,
      hs.connections, hs.quiet⟩
  unfold readRecords
  refine Keeps.tryCatch (E := fun _ => Left A kept) ?_ fun e => ?_
  · refine hstart.bind fun rs => ?_
    refine ((keeps_readLoop reads [] rs).mono (fun _ hs => hs) (fun _ _ hs => hs)
      (fun _ s hs => hs.1.left hs.2)).bind fun r => ?_
    exact (hend r.2 r.1).bind fun _ => keeps_pure _ fun s hs => hs
  · exact hgiveUp.bind fun _ => keeps_throw e fun _ hs => hs

end AsComponents.Server
