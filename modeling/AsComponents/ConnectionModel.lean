import AsComponents.RequestRecords

/-!
# A connection as its client knows it

The requests that were begun and have not ended, and the records with which the
interface answers.  `ReadRecords` refines this machine.
-/

namespace AsComponents.Server

open Protocol NameValue SocketFunctions AsComponents.Partition Std Critical

/-! ## The machine -/

/-- The requests of a connection by their identifiers. -/
abbrev Requests := UInt16 → Option RequestData

/-- What the answers of an interface depend on besides the requests. -/
structure Policy where
  maximumRequestCount : Nat
  overload : Bool
  appStatusOnAbort : Int32
  /-- The answer to a management record. -/
  answer : FcgiType → Bytes → Record

namespace Requests

/-- The identifiers in use. -/
def active (v : Requests) : Set UInt16 := {i | (v i).isSome = true}

@[simp] theorem mem_active (v : Requests) (i : UInt16) : i ∈ v.active ↔ (v i).isSome = true := Iff.rfl

/-- The record begins a new request. -/
def Begins (v : Requests) (r : Record) : Prop :=
  v r.fcgiId = none ∧ r.type = kFcgiBeginRequest ∧ r.content.length = 8

/-- The record ends a request that is not assigned. -/
def Ends (v : Requests) (r : Record) : Prop :=
  (v r.fcgiId).isSome = true ∧ RequestData.receive (v r.fcgiId) r = none

end Requests

namespace Policy

/-- No more requests are accepted. -/
def Refuses (p : Policy) (v : Requests) : Prop :=
  p.maximumRequestCount ≤ v.active.ncard ∨ p.overload = true

open Classical in
/-- The answer to a begin record that is refused. -/
noncomputable def refusal (p : Policy) (v : Requests) (r : Record) : Record :=
  endRequestRecord r.fcgiId
    (if p.maximumRequestCount ≤ v.active.ncard ∧ p.maximumRequestCount = 1 then fcgiCantMpxConn
     else fcgiOverloaded)
    exitFailure

/-- The answer to the last record of a request that is not assigned. -/
def ending (p : Policy) (r : Record) : Record :=
  endRequestRecord r.fcgiId fcgiRequestComplete
    (if r.type = kFcgiAbortRequest then p.appStatusOnAbort else exitFailure)

open Classical in
/-- One record: the requests after it, and the answers to it. -/
noncomputable def step (p : Policy) (v : Requests) (r : Record) : Requests × List Record :=
  if r.fcgiId = fcgiNullRequestId then (v, [p.answer r.type r.content])
  else if v.Begins r ∧ p.Refuses v then (v, [p.refusal v r])
  else
    (Function.update v r.fcgiId (RequestData.receive (v r.fcgiId) r),
      if v.Ends r then [p.ending r] else [])

/-- Records one after the other, with all answers. -/
noncomputable def run (p : Policy) (v : Requests) : List Record → Requests × List Record
  | [] => (v, [])
  | r :: rs => ((p.run (p.step v r).1 rs).1, (p.step v r).2 ++ (p.run (p.step v r).1 rs).2)

variable {p : Policy} {v : Requests} {r : Record}

theorem step_management (h : r.fcgiId = fcgiNullRequestId) :
    p.step v r = (v, [p.answer r.type r.content]) := if_pos h

theorem step_refused (hid : r.fcgiId ≠ fcgiNullRequestId) (hbegins : v.Begins r) (hfull : p.Refuses v) :
    p.step v r = (v, [p.refusal v r]) :=
  (if_neg hid).trans (if_pos ⟨hbegins, hfull⟩)

theorem step_received (hid : r.fcgiId ≠ fcgiNullRequestId) (hroom : v.Begins r → ¬ p.Refuses v)
    (hends : ¬ v.Ends r) :
    p.step v r = (Function.update v r.fcgiId (RequestData.receive (v r.fcgiId) r), []) := by
  refine (if_neg hid).trans ((if_neg fun h => hroom h.1 h.2).trans ?_)
  rw [if_neg hends]

theorem step_ended (hid : r.fcgiId ≠ fcgiNullRequestId) (hends : v.Ends r) :
    p.step v r = (Function.update v r.fcgiId none, [p.ending r]) := by
  have hknown : ¬ v.Begins r := by
    rintro ⟨hnone, -⟩
    rw [Requests.Ends, hnone] at hends
    cases hends.1
  refine (if_neg hid).trans ((if_neg fun h => hknown h.1).trans ?_)
  rw [if_pos hends, hends.2]

end Policy

/-! ## What the machine keeps -/

namespace Requests

variable {v : Requests} {r : Record}

/-- Only a begin record makes a request known. -/
theorem begins_of_receive (hnone : v r.fcgiId = none)
    (hsome : (RequestData.receive (v r.fcgiId) r).isSome = true) : v.Begins r := by
  rw [hnone] at hsome
  unfold RequestData.receive at hsome
  dsimp only at hsome
  split at hsome
  · rename_i h
    exact ⟨hnone, h⟩
  · cases hsome

theorem active_update (i : UInt16) (d : Option RequestData) :
    active (Function.update v i d) ⊆ insert i v.active := by
  intro j hj
  by_cases hij : j = i
  · exact .inl hij
  · refine .inr ?_
    rw [mem_active, Function.update_of_ne hij] at hj
    exact hj

end Requests

namespace Policy

variable {p : Policy} {v : Requests} {r : Record}

/-- The limit on the number of requests is kept. -/
theorem ncard_step (h : v.active.ncard ≤ p.maximumRequestCount) :
    (p.step v r).1.active.ncard ≤ p.maximumRequestCount := by
  unfold step
  split
  · exact h
  split
  · exact h
  rename_i hroom
  dsimp only
  by_cases hknown : r.fcgiId ∈ v.active
  · refine (Set.ncard_le_ncard (Requests.active_update _ _) (Set.toFinite _)).trans ?_
    rwa [Set.insert_eq_of_mem hknown]
  by_cases hsome : (RequestData.receive (v r.fcgiId) r).isSome = true
  · have hnone : v r.fcgiId = none := by simpa [Requests.active] using hknown
    have hless : ¬ p.Refuses v := fun hfull => hroom ⟨Requests.begins_of_receive hnone hsome, hfull⟩
    have hlt : v.active.ncard < p.maximumRequestCount := Nat.not_le.mp fun hle => hless (.inl hle)
    refine (Set.ncard_le_ncard (Requests.active_update _ _) (Set.toFinite _)).trans ?_
    exact (Set.ncard_insert_le _ _).trans hlt
  · refine (Set.ncard_le_ncard (fun j hj => ?_) (Set.toFinite _)).trans h
    by_cases hj' : j = r.fcgiId
    · subst hj'
      rw [Requests.mem_active, Function.update_self] at hj
      exact absurd hj hsome
    · rw [Requests.mem_active, Function.update_of_ne hj'] at hj
      exact hj

theorem ncard_run (h : v.active.ncard ≤ p.maximumRequestCount) (rs : List Record) :
    (p.run v rs).1.active.ncard ≤ p.maximumRequestCount := by
  induction rs generalizing v with
  | nil => exact h
  | cons r rs ih => exact ih (ncard_step h)

end Policy

/-! ## The interface as this machine -/

/-- The requests of a connection. -/
def System.requestsOn (s : System) (c : Nat) : Requests := fun i => s.view ⟨c, i⟩

def System.policy (s : System) : Policy where
  maximumRequestCount := s.maximumRequestCountPerConnection
  overload := s.applicationOverload
  appStatusOnAbort := s.appStatusOnAbort
  answer := s.managementResponse

/-- Records are written to socket `k` of the connection. -/
def System.SendsOn (s : System) (c k : Nat) : Prop :=
  ∃ m : WriteMutex, s.writeMutexMap[c]? = some m ∧ m.corrupt = false ∧ s.descriptors[c]? = some ⟨k, false⟩

/-- These records were sent on socket `k` and nothing else. -/
structure Answered (k : Nat) (s t : System) (rs : List Record) : Prop where
  sent : ∀ j, (t.sockets j).sent = (s.sockets j).sent ++ if j = k then encodeRecords rs else []
  policy : t.policy = s.policy
  mutexes : t.writeMutexMap = s.writeMutexMap
  descriptors : t.descriptors = s.descriptors

variable {c k : Nat} {s t u : System} {its : List Iterator} {r : Record} {rs rs' : List Record}

namespace Answered

/-- Nothing is sent, and what answers depend on does not change. -/
theorem nothing (hsockets : t.sockets = s.sockets) (hpolicy : t.policy = s.policy)
    (hmutexes : t.writeMutexMap = s.writeMutexMap) (hdescriptors : t.descriptors = s.descriptors) :
    Answered k s t [] :=
  ⟨fun j => by rw [hsockets, encodeRecords_nil, ite_self, List.append_nil], hpolicy, hmutexes, hdescriptors⟩

theorem refl (s : System) : Answered k s s [] := nothing rfl rfl rfl rfl

theorem trans (h : Answered k s t rs) (h' : Answered k t u rs') : Answered k s u (rs ++ rs') where
  sent j := by
    rw [h'.sent, h.sent, List.append_assoc]
    split
    · rw [encodeRecords_append]
    · rfl
  policy := h'.policy.trans h.policy
  mutexes := h'.mutexes.trans h.mutexes
  descriptors := h'.descriptors.trans h.descriptors

theorem sendsOn (h : Answered k s t rs) (hs : s.SendsOn c k) : t.SendsOn c k := by
  rw [System.SendsOn, h.mutexes, h.descriptors]
  exact hs

end Answered

theorem answered_respond (hs : s.SendsOn c k) (origin : Option Nat) (r : Record) :
    Answered k s (s.respond c origin r.encode) [r] := by
  obtain ⟨m, hm, hcorrupt, hd⟩ := hs
  have hrespond : s.respond c origin r.encode =
      (s.setSocket k { s.sockets k with sent := (s.sockets k).sent ++ r.encode }).setTransmissions k
        (s.transmissions k ++ [⟨origin, r.encode, r.encode.length⟩]) := by
    unfold System.respond
    rw [hm, hd]
    dsimp only
    rw [hcorrupt]
    rfl
  rw [hrespond]
  refine ⟨fun j => ?_, rfl, rfl, rfl⟩
  by_cases hj : j = k
  · subst hj
    simp [System.setTransmissions, System.setSocket]
  · simp [System.setTransmissions, System.setSocket, hj]

theorem answered_endRequest (hs : s.SendsOn c k) (it : Iterator) (d : RequestData) (appStatus : Int32) :
    Answered k s (s.endRequest c it d appStatus)
      [endRequestRecord it.key.fcgiId fcgiRequestComplete appStatus] := by
  set t := ((s.closeLater c d).remove it.key).record (.endedByInterface d.node) with ht
  have hremoved : Answered k s t [] := by
    rw [ht]
    unfold System.closeLater
    split <;> exact .nothing rfl rfl rfl rfl
  exact hremoved.trans (answered_respond (hremoved.sendsOn hs) (some it.node) _)

/-! ### The number of requests -/

theorem isSome_view {id : FcgiRequestIdentifier} : (s.view id).isSome = true ↔ id ∈ s.requestMap := by
  rw [System.view, Option.isSome_map]
  exact ExtTreeMap.mem_iff_isSome_getElem?.symm

theorem ncard_active (s : System) (c : Nat) :
    (s.requestsOn c).active.ncard = (s.requestsOf c).length := by
  have hinj : ∀ id ∈ s.requestsOf c, ∀ id' ∈ s.requestsOf c, id.fcgiId = id'.fcgiId → id = id' := by
    rintro ⟨e, i⟩ hi ⟨e', i'⟩ hi' rfl
    obtain rfl : e = c := (mem_requestsOf.mp hi).2
    obtain rfl : e' = e := (mem_requestsOf.mp hi').2
    rfl
  have hnodup : ((s.requestsOf c).map (·.fcgiId)).Nodup :=
    (nodup_requestsOf s c).map_on hinj
  have hactive : (s.requestsOn c).active = ((s.requestsOf c).map (·.fcgiId)).toFinset := by
    ext i
    rw [Requests.mem_active, System.requestsOn, isSome_view, Finset.mem_coe, List.mem_toFinset, List.mem_map]
    constructor
    · exact fun hi => ⟨⟨c, i⟩, mem_requestsOf.mpr ⟨hi, rfl⟩, rfl⟩
    · rintro ⟨⟨e, i'⟩, hi, rfl⟩
      obtain ⟨hmem, rfl⟩ := mem_requestsOf.mp hi
      exact hmem
  rw [hactive, Set.ncard_coe_finset, List.toFinset_card_of_nodup hnodup, List.length_map]

theorem refuses_iff (hs : s.Serves c its) : s.policy.Refuses (s.requestsOn c) ↔ s.Full c := by
  unfold Policy.Refuses System.Full
  rw [ncard_active, hs.count]
  rfl

/-! ### One record -/

theorem answered_beginRequest (hroom : ¬ s.Full c) (id : FcgiRequestIdentifier) (content : Bytes) :
    Answered k s (s.beginRequest c id content) [] := by
  unfold System.beginRequest
  split
  · rw [if_neg hroom]
    exact .nothing rfl rfl rfl rfl
  · exact .refl s

theorem beginRequest_full (hfull : s.Full c) (hlength : r.content.length = 8) :
    s.beginRequest c ⟨c, r.fcgiId⟩ r.content =
      (s.reject c ⟨c, r.fcgiId⟩).respond c (some s.nextNode)
        (endRequestRecord r.fcgiId (s.rejection c) exitFailure).encode := by
  obtain ⟨roleB1, rest₁, h₁⟩ := List.exists_cons_of_length_eq_add_one hlength
  rw [h₁, List.length_cons, Nat.add_right_cancel_iff] at hlength
  obtain ⟨roleB0, rest₂, rfl⟩ := List.exists_cons_of_length_eq_add_one hlength
  rw [List.length_cons, Nat.add_right_cancel_iff] at hlength
  obtain ⟨flags, rest₃, rfl⟩ := List.exists_cons_of_length_eq_add_one hlength
  rw [h₁, System.beginRequest, if_pos hfull]

/-- A begin record that is refused. -/
theorem receiveRecord_refused (hs : s.Serves c its) (hopen : s.SendsOn c k)
    (hid : r.fcgiId ≠ fcgiNullRequestId) (hbegins : (s.requestsOn c).Begins r) (hfull : s.Full c) :
    (s.receiveRecord c r its).1.requestsOn c = s.requestsOn c ∧
      Answered k s (s.receiveRecord c r its).1 [s.policy.refusal (s.requestsOn c) r] := by
  obtain ⟨hunknown, hbegin, hlength⟩ := hbegins
  have hnone : s.requestMap[(⟨c, r.fcgiId⟩ : FcgiRequestIdentifier)]? = none :=
    Option.map_eq_none_iff.mp hunknown
  have hresult : (s.receiveRecord c r its).1 = (s.reject c ⟨c, r.fcgiId⟩).respond c (some s.nextNode)
      (endRequestRecord r.fcgiId (s.rejection c) exitFailure).encode := by
    rw [← beginRequest_full hfull hlength]
    unfold System.receiveRecord
    dsimp only
    rw [if_neg hid, if_pos hbegin, if_pos ⟨hlength, hnone⟩]
  have hrefusal : s.policy.refusal (s.requestsOn c) r =
      endRequestRecord r.fcgiId (s.rejection c) exitFailure := by
    unfold Policy.refusal System.rejection
    rw [ncard_active, hs.count]
    rfl
  rw [hresult, hrefusal]
  constructor
  · funext i
    rw [System.requestsOn, System.view, requestMap_respond]
    rfl
  · have hrejected : Answered k s (s.reject c ⟨c, r.fcgiId⟩) [] := .nothing rfl rfl rfl rfl
    exact hrejected.trans (answered_respond (hrejected.sendsOn hopen) _ _)

/-- How a record ends a request that is known. -/
theorem receive_eq_none_iff {d : RequestData} :
    RequestData.receive (some d.view) r = none ↔
      (r.type = kFcgiAbortRequest ∧ (r.content = [] ∧ d.clientSetAbort = false) ∧
        d.requestStatus = .requestPending) ∨
      (r.type ≠ kFcgiAbortRequest ∧ ∃ st, Stream.ofType r.type = some st ∧ d.completion st = false ∧
        r.content = [] ∧ (d.endStream st).2 = .malformed) := by
  have hstatus : d.requestStatus = .requestPending ↔ ¬ d.requestStatus = .requestAssigned := by
    cases d.requestStatus <;> simp
  simp only [RequestData.receive, RequestData.completion_view]
  by_cases habort : r.type = kFcgiAbortRequest
  · rw [if_pos habort, hstatus]
    simp only [habort, ne_eq, not_true_eq_false, false_and, or_false, true_and]
    by_cases hopen : r.content = [] ∧ d.clientSetAbort = false
    · rw [if_pos (show _ ∧ d.view.clientSetAbort = false from hopen)]
      by_cases hassigned : d.requestStatus = .requestAssigned
      · rw [if_pos (show d.view.requestStatus = _ from hassigned)]
        simp [hassigned]
      · rw [if_neg (show ¬ d.view.requestStatus = _ from hassigned)]
        simp [hassigned, hopen]
    · rw [if_neg (show ¬ (_ ∧ d.view.clientSetAbort = false) from hopen)]
      simp [hopen]
  · rw [if_neg habort]
    simp only [habort, false_and, false_or, ne_eq, not_false_eq_true, true_and]
    cases hst : Stream.ofType r.type with
    | none => simp
    | some st =>
      simp only [RequestData.afterStream, RequestData.view_endStream]
      by_cases hended : d.completion st = true
      · simp [hended]
      by_cases hempty : r.content = []
      · by_cases hmalformed : (d.endStream st).2 = .malformed
        · simp [hended, hempty, hmalformed]
        · simp [hended, hempty, hmalformed]
      · simp [hended, hempty]

/-- A record of a request ends it in one of these ways. -/
theorem ends_iff {d : RequestData} (hd : s.requestMap[(⟨c, r.fcgiId⟩ : FcgiRequestIdentifier)]? = some d) :
    (s.requestsOn c).Ends r ↔ RequestData.receive (some d.view) r = none := by
  have hview : s.requestsOn c r.fcgiId = some d.view := by
    rw [System.requestsOn, System.view, hd]
    rfl
  unfold Requests.Ends
  rw [hview]
  exact and_iff_right rfl

/-- A record that neither ends a request nor is refused. -/
theorem answered_received (hid : r.fcgiId ≠ fcgiNullRequestId)
    (hroom : (s.requestsOn c).Begins r → ¬ s.Full c) (hends : ¬ (s.requestsOn c).Ends r) :
    Answered k s (s.receiveRecord c r its).1 [] := by
  unfold System.receiveRecord
  dsimp only
  rw [if_neg hid]
  split
  · rename_i hbegin
    split
    · rename_i hnew
      refine answered_beginRequest (hroom ⟨?_, hbegin, hnew.1⟩) _ _
      rw [System.requestsOn, System.view, hnew.2]
      rfl
    · exact .refl s
  split
  · exact .refl s
  · rename_i d hd
    rw [ends_iff hd, receive_eq_none_iff, not_or] at hends
    split
    · rename_i habort
      split
      · rename_i hopen
        unfold System.abort
        rw [hd]
        dsimp only
        split
        · exact .nothing rfl rfl rfl rfl
        · rename_i hassigned
          refine absurd ⟨habort, hopen, ?_⟩ hends.1
          cases hstatus : d.requestStatus with
          | requestPending => rfl
          | requestAssigned => exact absurd hstatus hassigned
      · exact .refl s
    · rename_i habort
      split
      · exact .refl s
      · rename_i st hst
        split
        · exact .refl s
        split
        · rename_i hopen hempty
          unfold System.endStream
          rw [hd]
          dsimp only
          split
          · exact .nothing rfl rfl rfl rfl
          · exact .nothing rfl rfl rfl rfl
          · rename_i hmalformed
            exact absurd ⟨habort, st, hst, Bool.eq_false_iff.mpr hopen, hempty, hmalformed⟩ hends.2
        · exact .nothing rfl rfl rfl rfl

/-- The record that ends a request is answered. -/
theorem answered_ended (hopen : s.SendsOn c k) (hid : r.fcgiId ≠ fcgiNullRequestId)
    (hends : (s.requestsOn c).Ends r) :
    Answered k s (s.receiveRecord c r its).1 [s.policy.ending r] := by
  unfold System.receiveRecord
  dsimp only
  rw [if_neg hid]
  cases hd : s.requestMap[(⟨c, r.fcgiId⟩ : FcgiRequestIdentifier)]? with
  | none =>
    have hview : s.requestsOn c r.fcgiId = none := by
      rw [System.requestsOn, System.view, hd]
      rfl
    rw [Requests.Ends, hview] at hends
    cases hends.1
  | some d =>
    rw [ends_iff hd, receive_eq_none_iff] at hends
    dsimp only
    rcases hends with ⟨habort, hopen', hpending⟩ | ⟨habort, st, hst, hstream, hempty, hmalformed⟩
    · have hbegin : ¬ r.type = kFcgiBeginRequest := by
        rw [habort]
        decide
      have hassigned : ¬ d.requestStatus = .requestAssigned := by
        rw [hpending]
        rintro ⟨⟩
      rw [if_neg hbegin, if_pos habort, if_pos hopen', System.abort, hd]
      dsimp only
      rw [if_neg hassigned, Policy.ending, if_pos habort]
      exact answered_endRequest hopen _ _ _
    · have hbegin : ¬ r.type = kFcgiBeginRequest := by
        intro h
        rw [h] at hst
        cases hst
      rw [if_neg hbegin, if_neg habort, hst]
      dsimp only
      rw [if_neg (by rw [hstream]; decide), if_pos hempty, System.endStream, hd]
      dsimp only
      rw [hmalformed, Policy.ending, if_neg habort]
      have hset : Answered k s (s.setData ⟨c, r.fcgiId⟩ (d.endStream st).1) [] := .nothing rfl rfl rfl rfl
      exact hset.trans (answered_endRequest (hset.sendsOn hopen) _ _ _)

/-- One record does to the connection what it does to the machine. -/
theorem receiveRecord_step (hs : s.Serves c its) (hopen : s.SendsOn c k) (r : Record) :
    (s.receiveRecord c r its).1.requestsOn c = (s.policy.step (s.requestsOn c) r).1 ∧
      Answered k s (s.receiveRecord c r its).1 (s.policy.step (s.requestsOn c) r).2 := by
  by_cases hid : r.fcgiId = fcgiNullRequestId
  · have hresult : (s.receiveRecord c r its).1 =
        s.respond c none (s.managementResponse r.type r.content).encode := by
      unfold System.receiveRecord
      dsimp only
      rw [if_pos hid]
    rw [Policy.step_management hid, hresult]
    refine ⟨funext fun i => ?_, answered_respond hopen none _⟩
    rw [System.requestsOn, System.view, requestMap_respond]
    rfl
  by_cases hrefused : (s.requestsOn c).Begins r ∧ s.Full c
  · rw [Policy.step_refused hid hrefused.1 ((refuses_iff hs).mpr hrefused.2)]
    exact receiveRecord_refused hs hopen hid hrefused.1 hrefused.2
  have hroom : (s.requestsOn c).Begins r → ¬ s.Full c := fun hbegins hfull => hrefused ⟨hbegins, hfull⟩
  have hown : (s.receiveRecord c r its).1.view ⟨c, r.fcgiId⟩ = RequestData.receive (s.view ⟨c, r.fcgiId⟩) r :=
    receiveRecord_own hid fun hbegin hlength hnone => hroom
      ⟨Option.map_eq_none_iff.mpr hnone, hbegin, hlength⟩
  have hupdate : (s.receiveRecord c r its).1.requestsOn c = Function.update (s.requestsOn c) r.fcgiId
      (RequestData.receive (s.requestsOn c r.fcgiId) r) := by
    funext i
    by_cases hi : i = r.fcgiId
    · subst hi
      rw [Function.update_self]
      exact hown
    · have hne : (⟨c, r.fcgiId⟩ : FcgiRequestIdentifier) ≠ ⟨c, i⟩ := by simpa using Ne.symm hi
      rw [Function.update_of_ne hi, System.requestsOn, System.view, receiveRecord_other hne]
      rfl
  by_cases hends : (s.requestsOn c).Ends r
  · rw [Policy.step_ended hid hends, hupdate, hends.2]
    exact ⟨rfl, answered_ended hopen hid hends⟩
  · rw [Policy.step_received hid (fun hbegins hfull => hroom hbegins ((refuses_iff hs).mp hfull)) hends, hupdate]
    exact ⟨rfl, answered_received hid hroom hends⟩

/-! ### Records one after the other -/

theorem receiveRecords_run (hs : s.Serves c its) (hopen : s.SendsOn c k) (hrs : ∀ r ∈ rs, r.Fits) :
    (s.receiveRecords c rs its).1.requestsOn c = (s.policy.run (s.requestsOn c) rs).1 ∧
      Answered k s (s.receiveRecords c rs its).1 (s.policy.run (s.requestsOn c) rs).2 := by
  induction rs generalizing s its with
  | nil => exact ⟨rfl, .refl s⟩
  | cons r rs ih =>
    obtain ⟨hrequests, hanswered⟩ := receiveRecord_step hs hopen r
    have hserves := serves_receiveRecord hs (hrs r List.mem_cons_self)
    have hrest := ih hserves (hanswered.sendsOn hopen) fun q hq => hrs q (List.mem_cons_of_mem r hq)
    rw [hanswered.policy, hrequests] at hrest
    rw [receiveRecords_cons]
    exact ⟨hrest.1, hanswered.trans hrest.2⟩

theorem receiveRecords_otherConnection {e : Nat} (he : e ≠ c) (rs : List Record) :
    (s.receiveRecords c rs its).1.requestsOn e = s.requestsOn e := by
  induction rs generalizing s its with
  | nil => rfl
  | cons r rs ih =>
    rw [receiveRecords_cons, ih]
    funext i
    have hne : (⟨c, r.fcgiId⟩ : FcgiRequestIdentifier) ≠ ⟨e, i⟩ := fun h =>
      he (congrArg (·.descriptor) h).symm
    rw [System.requestsOn, System.view, receiveRecord_other hne]
    rfl

/-! ## `ReadRecords` -/

theorem fcgiId_managementResponse (s : System) (type : FcgiType) (content : Bytes) :
    (s.managementResponse type content).fcgiId = fcgiNullRequestId := by
  unfold System.managementResponse
  split <;> rfl

/-- An answer has the identifier of the record that it answers. -/
theorem fcgiId_step (s : System) (v : Requests) (r : Record) :
    ∀ a ∈ (s.policy.step v r).2, a.fcgiId = r.fcgiId := by
  intro a ha
  unfold Policy.step at ha
  split at ha
  · rename_i hid
    rw [List.mem_singleton.mp ha, hid]
    exact fcgiId_managementResponse s r.type r.content
  split at ha
  · rw [List.mem_singleton.mp ha]
    rfl
  · dsimp only at ha
    split at ha
    · rw [List.mem_singleton.mp ha]
      rfl
    · cases ha

/-- The answers to management records, in the order of these. -/
theorem recordsOf_answers (s : System) (v : Requests) (rs : List Record) :
    recordsOf fcgiNullRequestId (s.policy.run v rs).2 =
      (recordsOf fcgiNullRequestId rs).map fun r => s.managementResponse r.type r.content := by
  induction rs generalizing v with
  | nil => rfl
  | cons r rs ih =>
    have hown := fcgiId_step s v r
    rw [Policy.run, recordsOf, List.filter_append]
    refine (congrArg (_ ++ ·) (ih _)).trans ?_
    by_cases hid : r.fcgiId = fcgiNullRequestId
    · have hcons : recordsOf fcgiNullRequestId (r :: rs) = r :: recordsOf fcgiNullRequestId rs := by
        rw [← hid]
        exact recordsOf_cons_self r rs
      rw [hcons, Policy.step_management hid, List.map_cons, List.filter_cons_of_pos]
      · rfl
      · exact decide_eq_true (fcgiId_managementResponse s r.type r.content)
    · rw [recordsOf_cons_ne hid, List.filter_eq_nil_iff.mpr, List.nil_append]
      intro a ha
      rw [decide_eq_true_eq, hown a ha]
      exact hid

/-- `ReadRecords` does to the connection what the records do to the machine. -/
theorem completes_run {reads : List ReadResult} (hs : s.Serves c [])
    (hstatus : (s.recordStatusMap[c]?).getD {} = {}) (hopen : s.SendsOn c k) (hrs : ∀ r ∈ rs, r.Fits)
    (hreads : Gives reads (encodeRecords rs)) :
    Program.Completes Faultless (fun _ t =>
        t.requestsOn c = (s.policy.run (s.requestsOn c) rs).1 ∧
          Answered k s t (s.policy.run (s.requestsOn c) rs).2 ∧
          ∀ e, e ≠ c → t.requestsOn e = s.requestsOn e)
      (readRecords c reads) s := by
  obtain ⟨hrequests, hanswered⟩ := receiveRecords_run hs hopen hrs
  have hkept := hanswered.trans (u := (s.receiveRecords c rs []).1.keeping none
    (s.recordStatusMap.insert c {})) (.nothing rfl rfl rfl rfl)
  rw [List.append_nil] at hkept
  refine Program.completes_mono ?_ (completes_records hs hstatus hrs hreads)
  rintro _ t ⟨-, rfl⟩
  exact ⟨hrequests, hkept, fun e he => receiveRecords_otherConnection he rs⟩

/-- `ReadRecords` refines the machine: the requests of the connection and what is
sent to its client are those of the machine, and no other connection changes.  The
machine keeps the limit on the number of requests and answers every management
record once, in their order. -/
theorem readRecords_refines {reads : List ReadResult} (hs : s.Serves c [])
    (hstatus : (s.recordStatusMap[c]?).getD {} = {}) (hopen : s.SendsOn c k) (hrs : ∀ r ∈ rs, r.Fits)
    (hreads : Gives reads (encodeRecords rs)) :
    ∃ v answers, s.policy.run (s.requestsOn c) rs = (v, answers) ∧
      ((s.requestsOn c).active.ncard ≤ s.maximumRequestCountPerConnection →
        v.active.ncard ≤ s.maximumRequestCountPerConnection) ∧
      recordsOf fcgiNullRequestId answers =
        (recordsOf fcgiNullRequestId rs).map (fun r => s.managementResponse r.type r.content) ∧
      Program.Completes Faultless (fun _ t =>
          t.requestsOn c = v ∧ Answered k s t answers ∧ ∀ e, e ≠ c → t.requestsOn e = s.requestsOn e)
        (readRecords c reads) s :=
  ⟨_, _, rfl, fun h => Policy.ncard_run (p := s.policy) h rs, recordsOf_answers s _ rs,
    completes_run hs hstatus hopen hrs hreads⟩

/-- Three requests on a connection that takes two, and management records. -/
def crowd : List Record :=
  [⟨kFcgiBeginRequest, 1, [0, 1, 1, 0, 0, 0, 0, 0], []⟩,
    ⟨kFcgiGetValues, fcgiNullRequestId, encodePairs [(fcgiMpxsConns, [])], []⟩,
    ⟨kFcgiBeginRequest, 2, [0, 1, 1, 0, 0, 0, 0, 0], []⟩,
    ⟨kFcgiBeginRequest, 3, [0, 1, 1, 0, 0, 0, 0, 0], []⟩,
    ⟨kFcgiUnknownType, fcgiNullRequestId, [], [0]⟩]

theorem readRecords_refines_crowd : ∃ v answers,
    v.active.ncard ≤ 2 ∧
    recordsOf fcgiNullRequestId answers =
      [getValuesResultRecord multiplexing (encodePairs [(fcgiMpxsConns, [])]), unknownTypeRecord kFcgiUnknownType] ∧
    Program.Completes Faultless (fun _ t => t.requestsOn 5 = v ∧ Answered 0 accepted.system t answers ∧
        ∀ e, e ≠ 5 → t.requestsOn e = accepted.system.requestsOn e)
      (readRecords 5 [.drained (encodeRecords crowd)]) accepted.system := by
  have hfits : ∀ r ∈ crowd, r.Fits := by
    intro r hr
    simp only [crowd, List.mem_cons, List.not_mem_nil, or_false] at hr
    rcases hr with rfl | rfl | rfl | rfl | rfl <;> exact ⟨by decide, by decide⟩
  have hopen : accepted.system.SendsOn 5 0 :=
    ⟨{ socket := 0 }, by decide +kernel, rfl, by decide +kernel⟩
  obtain ⟨v, answers, -, hlimit, hmanagement, hcompletes⟩ :=
    readRecords_refines serves_accepted status_accepted hopen hfits (.drained _ [])
  refine ⟨v, answers, hlimit ?_, hmanagement, hcompletes⟩
  rw [ncard_active]
  decide +kernel

end AsComponents.Server
