import AsComponents.ClientTables

/-! The class invariants of `TestFcgiClientInterface` over all of its runs. -/

namespace AsComponents.Client

open Protocol NameValue SocketFunctions AsComponents.Partition Std Critical

/-! ## Steps -/

section

variable {reply : SystemReply} {call : Call} {s t : TestFcgiClientInterface}

theorem of_step {P : TestFcgiClientInterface → Prop}
    (h : After (perform reply call) s (fun _ t => P t) (Thrown fun _ t => P t))
    (hs : step s reply call = some t) : P t := by
  unfold step at hs
  split at hs
  · rename_i hx
    cases hs
    exact h.of_ok hx
  · rename_i hx
    split at hs
    · cases hs
    · rename_i hne
      cases hs
      exact h.of_error hx hne
  · cases hs

theorem ReachableBy.mono {ok : TestFcgiClientInterface → SystemReply → Call →
    TestFcgiClientInterface → Prop} (h : ReachableBy ok s) : Reachable s := by
  induction h with
  | initial limits => exact .initial limits
  | call _ hs _ ih => exact .call ih hs trivial

/-- The effect of a call that returned or threw. -/
inductive Effect (s : TestFcgiClientInterface) : Call → TestFcgiClientInterface → Prop
  | none {call : Call} : Effect s call s
  | opened {t : TestFcgiClientInterface} {d : Nat} (h : Opened d s t) : Effect s .connect t
  | closed {t : TestFcgiClientInterface} {c : Nat} (h : Closed c s t) :
      Effect s (.closeConnection c) t
  | freed {t : TestFcgiClientInterface} {id : FcgiRequestIdentifier}
      (h : Freed id.descriptor [id] s t) : Effect s (.releaseId id) t
  | freedAll {t : TestFcgiClientInterface} {c : Nat} (h : Freed c (s.completedOf c) s t) :
      Effect s (.releaseIds c) t
  | retrieved {t : TestFcgiClientInterface} {reply : SystemReply}
      (h : step s reply .retrieveServerEvent = some t) : Effect s .retrieveServerEvent t
  | aborted {t : TestFcgiClientInterface} {id : FcgiRequestIdentifier}
      (h : Leaves id.descriptor s t) : Effect s (.sendAbortRequest id) t
  | sentBinary {t : TestFcgiClientInterface} {c : Nat} {type : FcgiType} {data : Bytes}
      (h : Leaves c s t) : Effect s (.sendBinaryManagementRequest c type data) t
  | sentGetValues {t : TestFcgiClientInterface} {c : Nat} {params : ParamsMap}
      (h : Leaves c s t) : Effect s (.sendGetValuesRequest c params) t
  | sent {u t : TestFcgiClientInterface} {c : Nat} {request : FcgiRequestDataReference}
      {newId : UInt16} (hu : Acquired c newId s u) (ht : Settled c newId u t) :
      Effect s (.sendRequest c request) t

theorem Effect.of_eq {call : Call} (h : t = s) : Effect s call t := h ▸ .none

/-- Every call has one of the effects. -/
theorem effect_of_step (hinv : Invariant s) (hs : step s reply call = some t) : Effect s call t := by
  cases call with
  | connect =>
    refine of_step ?_ hs
    rw [perform, after_map]
    refine (after_connect reply).mono (fun r u hu => ?_) fun _ u hE hne => .of_eq (hE hne)
    cases r with
    | none => exact .of_eq hu
    | some d => exact .opened hu.2
  | closeConnection c =>
    refine of_step ?_ hs
    rw [perform, after_map]
    refine (after_closeConnection reply).mono (fun b u hu => ?_) fun _ u hE hne => ?_
    · obtain ⟨-, hu⟩ := hu
      split at hu
      · exact .closed hu
      · exact .of_eq hu
    · rcases hE hne with ⟨hu, -⟩ | ⟨-, hunused⟩
      · exact .closed hu
      · exact absurd hunused (not_pendingUnused hinv c)
  | releaseId id =>
    refine of_step ?_ hs
    rw [perform, after_map]
    refine (after_releaseId id).mono (fun b u hu => ?_) fun _ u hE hne => .of_eq (hE hne)
    split at hu
    · exact .freed hu
    · exact .of_eq hu
  | releaseIds c =>
    refine of_step ?_ hs
    rw [perform, after_map]
    refine (after_releaseIds c).mono (fun b u hu => ?_) fun _ u hE hne => .of_eq (hE hne)
    split at hu
    · exact .freedAll hu
    · exact .of_eq hu
  | retrieveServerEvent => exact .retrieved hs
  | sendAbortRequest id =>
    refine of_step ?_ hs
    rw [perform, after_map]
    exact after_sendAbortRequest.mono (fun _ u hu => .aborted hu) fun _ u hE hne =>
      .aborted (hE hne)
  | sendBinaryManagementRequest c type data =>
    refine of_step ?_ hs
    rw [perform, after_map]
    exact after_sendBinaryManagementRequest.mono (fun _ u hu => .sentBinary hu) fun _ u hE hne =>
      .sentBinary (hE hne)
  | sendGetValuesRequest c params =>
    refine of_step ?_ hs
    rw [perform, after_map]
    exact after_sendGetValuesRequest.mono (fun _ u hu => .sentGetValues hu) fun _ u hE hne =>
      .sentGetValues (hE hne)
  | sendRequest c request =>
    refine of_step ?_ hs
    rw [perform, after_map]
    refine after_sendRequest.mono (fun r u hu => ?_) fun _ u hE hne => ?_
    · rcases hu with ⟨-, -, hu⟩ | ⟨newId, v, hacquired, hu⟩
      · exact .of_eq hu
      · exact .sent hacquired hu.settled
    · rcases hE hne with ⟨-, hu, -⟩ | ⟨newId, v, hacquired, hu⟩
      · exact .of_eq hu
      · exact .sent hacquired hu.settled

theorem Invariant.leaves {c : Nat} (h : Invariant s) (hst : Leaves c s t) : Invariant t := by
  rcases hst with hst | ⟨u, v, hu, hclosed, hv⟩
  · exact h.still hst
  · exact ((h.still hu).closed hclosed).still hv

theorem Invariant.effect (h : Invariant s) (hst : Effect s call t) : Invariant t := by
  cases hst with
  | none => exact h
  | opened hst => exact h.opened hst
  | closed hst => exact h.closed hst
  | freed hst => exact h.freed hst
  | freedAll hst => exact h.freed hst
  | retrieved hs =>
    refine of_step ?_ hs
    rw [perform, after_map]
    exact tabular_invariant.retrieving.retrieveServerEvent s h
  | aborted hst => exact h.leaves hst
  | sentBinary hst => exact h.leaves hst
  | sentGetValues hst => exact h.leaves hst
  | sent hu ht => exact h.settled hu ht

theorem invariant_of_reachable (h : Reachable s) : Invariant s := by
  induction h with
  | initial limits => exact .initial limits
  | call _ hs _ ih => exact ih.effect (effect_of_step ih hs)

/-! ## The tables agree -/

/-- In every reachable state the containers agree, and an identifier that
`SendRequest` returns is that of no other request. -/
theorem tables_agree (h : Reachable s) :
    (∀ id, id ∈ s.completedRequestSet ∨ id ∈ s.pendingRequestMap → id.descriptor ∈ s.connectionMap) ∧
    (∀ (c : Nat) (e : ConnectionState), s.connectionMap[c]? = some e → e.connected = false →
      s.pendingOf c = [] ∧ e.managementQueue = [] ∧ s.completedOf c ≠ []) ∧
    (∀ id ∈ s.completedRequestSet, id ∉ s.pendingRequestMap) ∧
    (∀ id, id ∈ s.completedRequestSet ∨ id ∈ s.pendingRequestMap →
      ∃ e, s.connectionMap[id.descriptor]? = some e ∧ e.isUsed id.fcgiId = true) ∧
    s.numberConnected = (connectedDescriptors s).length ∧
    ∀ reply c request id t, sendRequest reply c request s = some (.ok (some id), t) →
      id ∉ s.completedRequestSet ∧ id ∉ s.pendingRequestMap := by
  have hinv := invariant_of_reachable h
  have hentry : ∀ id, id ∈ s.completedRequestSet ∨ id ∈ s.pendingRequestMap →
      id.descriptor ∈ s.connectionMap := fun id hid => hid.elim (hinv.completed_entry id) fun hid =>
    mem_of_isConnected (hinv.pending_connected id hid)
  refine ⟨hentry, fun c e he hfree => ?_, hinv.disjoint, fun id hid => ?_, hinv.numberConnected,
    fun reply c request id t ht => ?_⟩
  · obtain ⟨hqueue, hcompleted⟩ := hinv.disconnected c e he hfree
    refine ⟨?_, hqueue, hcompleted⟩
    rw [List.eq_nil_iff_forall_not_mem]
    intro id hid
    obtain ⟨hmem, rfl⟩ := mem_pendingOf.mp hid
    obtain ⟨e', he', hconnected⟩ := isConnected_eq_true_iff.mp (hinv.pending_connected id hmem)
    obtain rfl := Option.some.inj (he.symm.trans he')
    simp [hfree] at hconnected
  · obtain ⟨e, he⟩ := mem_connectionMap_iff.mp (hentry id hid)
    exact ⟨e, he, hinv.used _ e he _ hid⟩
  · rcases after_sendRequest.of_ok ht with ⟨hnone, -⟩ | ⟨newId, u, hacquired, hout⟩
    · cases hnone
    · obtain rfl : id = ⟨c, newId⟩ := by
        cases hout with
        | sent => rfl
        | beginClosed hw hshort herrno hu hsent ht hr => split at hr <;> cases hr
        | closed hw hu ht hr => rcases hr with hr | ⟨e, what, hr⟩ <;> cases hr
      exact hacquired.unassigned hinv

end

/-- Replies with which a connection and a request on it succeed. -/
def connectReply : SystemReply := { connect := .connected 5 }

def requestReply : SystemReply :=
  { batches := [{ tape := [.ready, .wrote 16] }, { tape := [.ready, .wrote 8] }] }

/-- An Authorizer request without streams. -/
def bareRequest : FcgiRequestDataReference := { role := fcgiAuthorizer, keepConn := true }

/-- The end of `FCGI_STDOUT` and the end record of request 1. -/
def answerReply : SystemReply :=
  { rounds := [{
      select := .ready [5]
      reads := [.short ([1, 6, 0, 1, 0, 0, 0, 0] ++ [1, 3, 0, 1, 0, 8, 0, 0] ++
        [0, 0, 0, 0, 0, 0, 0, 0]) .eagain] }] }

theorem tables_agree_after_request : ∃ s : TestFcgiClientInterface,
    s.pendingRequestMap.contains ⟨5, 1⟩ = true ∧
      s.numberConnected = (connectedDescriptors s).length := by
  have hrun : ((run {} [(connectReply, .connect), (requestReply, .sendRequest 5 bareRequest)]).map
      fun s => s.pendingRequestMap.contains ⟨5, 1⟩) = some true := by
    decide +kernel
  obtain ⟨s, hs, hpending⟩ := Option.map_eq_some_iff.mp hrun
  have hagree := tables_agree (reachable_run (.initial {}) hs)
  exact ⟨s, hpending, hagree.2.2.2.2.1⟩

/-! ## Identifiers in use -/

section

variable {reply : SystemReply} {call : Call} {s t : TestFcgiClientInterface}

/-- No `SendRequest` closes a connection that has completed requests. -/
def KeepsCompleted (s : TestFcgiClientInterface) (_ : SystemReply) :
    Call → TestFcgiClientInterface → Prop
  | .sendRequest c _, t =>
      s.isConnected c = true → s.completedOf c ≠ [] → t.isConnected c = true
  | _, _ => True

/-- The identifiers in use are those of the pending and completed requests. -/
def AllAccounted (s : TestFcgiClientInterface) : Prop :=
  ∀ (c : Nat) (e : ConnectionState), s.connectionMap[c]? = some e → ∀ i : UInt16,
    e.isUsed i = true ↔ ⟨c, i⟩ ∈ s.completedRequestSet ∨ ⟨c, i⟩ ∈ s.pendingRequestMap

theorem allAccounted_iff (hinv : Invariant s) : AllAccounted s ↔ Accounted none s := by
  constructor
  · intro h c e he i hused
    exact ((h c e he i).mp hused).imp id .inl
  · intro h c e he i
    refine ⟨fun hused => ?_, hinv.used c e he i⟩
    rcases h c e he i hused with hi | hi | hi
    · exact .inl hi
    · exact .inr hi
    · cases hi

theorem Accounted.leaves {c : Nat} (h : Accounted none s) (hst : Leaves c s t) :
    Accounted none t := by
  rcases hst with hst | ⟨u, v, hu, hclosed, hv⟩
  · exact h.still hst
  · exact ((h.still hu).closed hclosed (by simp)).still hv

theorem Accounted.effect (h : Accounted none s) (hst : Effect s call t)
    (hok : KeepsCompleted s reply call t) : Accounted none t := by
  cases hst with
  | none => exact h
  | opened hst => exact h.opened hst
  | closed hst => exact h.closed hst (by simp)
  | freed hst => exact h.freed hst
  | freedAll hst => exact h.freed hst
  | retrieved hs =>
    refine of_step ?_ hs
    rw [perform, after_map]
    exact tabular_accounted.retrieving.retrieveServerEvent s h
  | aborted hst => exact h.leaves hst
  | sentBinary hst => exact h.leaves hst
  | sentGetValues hst => exact h.leaves hst
  | sent hu ht =>
    refine h.settled hu ht fun hclosed => ?_
    by_contra hne
    have hconnected := hok hu.wasConnected hne
    simp [hclosed] at hconnected

theorem accounted_of_reachable (h : ReachableBy KeepsCompleted s) : Accounted none s := by
  induction h with
  | initial limits => exact fun c e he => by simp at he
  | call hs' hs hok ih =>
    exact ih.effect (effect_of_step (invariant_of_reachable hs'.mono) hs) hok

/-- `ReleaseId` does not throw when the identifiers are accounted for. -/
theorem after_releaseId_of_accounted (hinv : Invariant s) (h : AllAccounted s)
    (id : FcgiRequestIdentifier) :
    After (releaseId id) s (fun _ _ => True) (Thrown fun _ _ => False) := by
  rw [releaseId, after_bind, after_get]
  split
  · trivial
  · rename_i e he
    have hused : e.isUsed id.fcgiId = true ↔ id ∈ s.completedRequestSet ∨ id ∈ s.pendingRequestMap :=
      h id.descriptor e he id.fcgiId
    have hdisjoint := hinv.disjoint id
    have hvalid : ¬ ((!e.isUsed id.fcgiId && !decide (id ∈ s.pendingRequestMap) &&
          !s.completedRequestSet.contains id) || (e.isUsed id.fcgiId &&
          decide (id ∈ s.pendingRequestMap) && !s.completedRequestSet.contains id)) = true →
        (e.isUsed id.fcgiId && !decide (id ∈ s.pendingRequestMap) &&
          s.completedRequestSet.contains id) = true := by
      simp only [Bool.or_eq_true, Bool.and_eq_true, Bool.not_eq_true', decide_eq_true_eq,
        ← Bool.not_eq_true, ExtTreeSet.contains_iff_mem]
      tauto
    rw [after_ite]
    refine ⟨fun _ => trivial, fun hneither => ?_⟩
    rw [after_ite]
    refine ⟨fun hcompleted => ?_, fun hno => absurd (hvalid hneither) hno⟩
    rw [after_ite]
    refine ⟨fun _ => trivial, fun _ => ?_⟩
    simp only [Bool.and_eq_true] at hcompleted
    rw [after_bind]
    exact (after_releaseFrom he hcompleted.1.1).mono (fun _ _ _ => trivial) fun _ _ hE => hE

/-- A `SendRequest` that closes a connection with completed requests leaves its
new identifier in use. -/
theorem leaks_of_closed {c : Nat} {newId : UInt16} {u : TestFcgiClientInterface} (hinv : Invariant s)
    (hu : Acquired c newId s u) (ht : Settled c newId u t) (hcompleted : s.completedOf c ≠ [])
    (hclosed : t.isConnected c = false) : ¬ AllAccounted t := by
  have hfree := hu.unassigned hinv
  have hframe := hu.retaken.frame
  have hconnected : u.isConnected c = true := hu.isConnected c ▸ hu.wasConnected
  cases ht with
  | pending d hv =>
    have hv' := hv.isConnected c
    rw [hconnected] at hv'
    exact absurd (hclosed.symm.trans hv') (by simp)
  | released hv ht hpending =>
    obtain ⟨e, he, -⟩ := hu.entry
    have ht' := ht.isConnected (hv.connectionMap ▸ he)
    rw [hv.isConnected, hconnected] at ht'
    exact absurd (hclosed.symm.trans ht') (by simp)
  | closed hv hw ht =>
    rename_i v w
    obtain ⟨event, rfl⟩ := ht
    have hset : v.completedRequestSet = s.completedRequestSet := by
      rw [hv.completedRequestSet, hframe]
    have hmap : v.pendingRequestMap = s.pendingRequestMap := by
      rw [hv.pendingRequestMap, hframe]
    obtain ⟨e, e', he, he', -, -, -, hused⟩ := hw.kept (by rwa [completedOf_congr hset])
    obtain ⟨e₀, he₀, hnew⟩ := hu.entry
    obtain rfl := Option.some.inj (he₀.symm.trans (hv.connectionMap ▸ he))
    intro hall
    have hnot : ⟨c, newId⟩ ∉ v.pendingRequestMap := hmap ▸ hfree.2
    rcases (hall c e' he' newId).mp (by simp [hused, hnew, hnot]) with hi | hi
    · exact hfree.1 (hset ▸ hw.completed ▸ hi)
    · exact ((hw.mem_pending_iff _).mp hi).2 rfl

/-- Where no `SendRequest` closes a connection that has completed requests, the
identifiers in use are those of the requests and no release finds a
discrepancy; the first call that does so leaks an identifier. -/
theorem identifiers_accounted (h : ReachableBy KeepsCompleted s) :
    AllAccounted s ∧ (∀ id t, releaseId id s ≠ some (.error discrepancy, t)) ∧
      ∀ reply call t, step s reply call = some t → ¬ KeepsCompleted s reply call t →
        ¬ AllAccounted t := by
  have hinv := invariant_of_reachable h.mono
  have hall : AllAccounted s := (allAccounted_iff hinv).mpr (accounted_of_reachable h)
  refine ⟨hall, fun id t ht => ?_, fun reply call t hs hbad => ?_⟩
  · exact (after_releaseId_of_accounted hinv hall id).of_error ht (by simp [discrepancy])
  · cases effect_of_step hinv hs with
    | sent hu ht =>
      simp only [KeepsCompleted, not_forall, Bool.not_eq_true] at hbad
      obtain ⟨-, hcompleted, hclosed⟩ := hbad
      exact leaks_of_closed hinv hu ht hcompleted hclosed
    | none =>
      cases call with
      | sendRequest c request => exact absurd (fun hc _ => hc) hbad
      | _ => exact absurd trivial hbad
    | _ => exact absurd trivial hbad

end

/-! ### A leaked identifier -/

/-- A second request on a connection that keeps the first one, which is
completed and not released. -/
theorem identifiers_accounted_after_request : ∃ s : TestFcgiClientInterface,
    s.completedRequestSet.contains ⟨5, 1⟩ = true ∧ s.pendingRequestMap.contains ⟨5, 2⟩ = true ∧
      AllAccounted s := by
  have hrun : ((step {} connectReply .connect).bind fun s =>
      (step s requestReply (.sendRequest 5 bareRequest)).bind fun t =>
      (step t answerReply .retrieveServerEvent).bind fun u =>
      (step u requestReply (.sendRequest 5 bareRequest)).map fun v =>
        (s.completedOf 5, v.isConnected 5, v.completedRequestSet.contains ⟨5, 1⟩,
          v.pendingRequestMap.contains ⟨5, 2⟩)) = some ([], true, true, true) := by
    decide +kernel
  obtain ⟨s, hs, hrest⟩ := Option.bind_eq_some_iff.mp hrun
  obtain ⟨t, ht, hrest⟩ := Option.bind_eq_some_iff.mp hrest
  obtain ⟨u, hu, hrest⟩ := Option.bind_eq_some_iff.mp hrest
  obtain ⟨v, hv, hfacts⟩ := Option.map_eq_some_iff.mp hrest
  simp only [Prod.mk.injEq] at hfacts
  obtain ⟨hnone, hconnected, hcompleted, hpending⟩ := hfacts
  have hreachable : ReachableBy KeepsCompleted v :=
    .call (.call (.call (.call (.initial {}) hs trivial) ht fun _ hne => absurd hnone hne) hu trivial)
      hv fun _ _ => hconnected
  exact ⟨v, hcompleted, hpending, (identifiers_accounted hreachable).1⟩

/-- The second request fails before a byte of it is written.  Its identifier is
in use but that of no request, and its release is refused as a discrepancy. -/
theorem leaked_identifier : ∃ s : TestFcgiClientInterface, Reachable s ∧
    (∃ e, s.connectionMap[5]? = some e ∧ e.isUsed 2 = true) ∧
    (⟨5, 2⟩ : FcgiRequestIdentifier) ∉ s.completedRequestSet ∧
    (⟨5, 2⟩ : FcgiRequestIdentifier) ∉ s.pendingRequestMap ∧
    ∃ t, releaseId ⟨5, 2⟩ s = some (.error discrepancy, t) := by
  have hrun : ((run {} [(connectReply, .connect), (requestReply, .sendRequest 5 bareRequest),
      (answerReply, .retrieveServerEvent),
      ({ batches := [{ tape := [.ready, .failed (.other 5)] }] }, .sendRequest 5 bareRequest)]).map
      fun s => (s.connectionMap[5]?.map fun e => e.isUsed 2,
        s.completedRequestSet.contains ⟨5, 2⟩, s.pendingRequestMap.contains ⟨5, 2⟩,
        (releaseId ⟨5, 2⟩ s).map fun r => thrown r.1)) =
      some (some true, false, false, some (some discrepancy)) := by
    decide +kernel
  obtain ⟨s, hs, hfacts⟩ := Option.map_eq_some_iff.mp hrun
  simp only [Prod.mk.injEq, Option.map_eq_some_iff] at hfacts
  obtain ⟨hused, hcompleted, hpending, ⟨r, t⟩, hr, hthrown⟩ := hfacts
  refine ⟨s, reachable_run (.initial {}) hs, hused, ?_, ?_, t, ?_⟩
  · rw [← ExtTreeSet.contains_iff_mem, hcompleted]
    simp
  · rw [← ExtTreeMap.contains_iff_mem, hpending]
    simp
  · obtain rfl := eq_error_of_thrown hthrown
    exact hr

end AsComponents.Client
