import AsComponents.RequestRecords

/-! The records of one request assembled: what its streams hold, and which
record completes it. -/

namespace AsComponents.Server

open Protocol NameValue SocketFunctions AsComponents.Partition Std Critical

/-! ## Streams of a list of records -/

/-- The record ends this stream. -/
def EndsStream (st : Stream) (r : Record) : Prop := Stream.ofType r.type = some st ∧ r.content = []

instance (st : Stream) (r : Record) : Decidable (EndsStream st r) := inferInstanceAs (Decidable (_ ∧ _))

/-- The stream was ended by one of the records. -/
def ended (st : Stream) (ws : List Record) : Bool := ws.any fun r => EndsStream st r

/-- What the records hold of a stream before its end. -/
def received (st : Stream) : List Record → Bytes
  | [] => []
  | r :: ws =>
      if Stream.ofType r.type = some st then
        if r.content = [] then [] else r.content ++ received st ws
      else received st ws

/-- The condition under which a request of this role is complete. -/
def RoleComplete (role : UInt16) (ws : List Record) : Prop :=
  if role = fcgiResponder then
    ended .params ws ∧ ended .stdin ws ∧ (received .data ws = [] ∨ ended .data ws)
  else if role = fcgiAuthorizer then
    ended .params ws ∧ (received .stdin ws = [] ∨ ended .stdin ws) ∧
      (received .data ws = [] ∨ ended .data ws)
  else ended .params ws ∧ ended .stdin ws ∧ ended .data ws

instance (role : UInt16) (ws : List Record) : Decidable (RoleComplete role ws) := by
  unfold RoleComplete
  infer_instance

theorem ended_append (st : Stream) (ws : List Record) (r : Record) :
    ended st (ws ++ [r]) = (ended st ws || decide (EndsStream st r)) := by
  simp [ended]

/-- A stream that has ended gets nothing more. -/
theorem received_append (st : Stream) (ws : List Record) (r : Record) :
    received st (ws ++ [r]) =
      if ended st ws = false ∧ Stream.ofType r.type = some st then received st ws ++ r.content
      else received st ws := by
  induction ws with
  | nil =>
    show received st [r] = _
    by_cases hst : Stream.ofType r.type = some st
    · by_cases hr : r.content = [] <;> simp [received, ended, hst, hr]
    · simp [received, hst]
  | cons q ws ih =>
    rw [List.cons_append, received, received, ih]
    by_cases hst : Stream.ofType q.type = some st
    · by_cases hq : q.content = []
      · simp [ended, EndsStream, hst, hq]
      · have hended : ended st (q :: ws) = ended st ws := by simp [ended, EndsStream, hq]
        rw [if_pos hst, if_pos hst, if_neg hq, if_neg hq, hended]
        split
        · rw [List.append_assoc]
        · rfl
    · have hended : ended st (q :: ws) = ended st ws := by simp [ended, EndsStream, hst]
      rw [if_neg hst, if_neg hst, hended]

/-! ## The request after its records -/

namespace RequestData

variable {d : RequestData} {ws : List Record} {r : Record}

/-- The request with the streams that were received. -/
def assembled (d : RequestData) (ws : List Record) : RequestData :=
  { d with
    fcgiParams := received .params ws
    fcgiParamsComplete := ended .params ws
    fcgiStdin := received .stdin ws
    fcgiStdinComplete := ended .stdin ws
    fcgiData := received .data ws
    fcgiDataComplete := ended .data ws }

/-- All streams were received, or are not needed for the role. -/
def allEnded (d : RequestData) (ws : List Record) : RequestData :=
  { d.assembled ws with
    fcgiParamsComplete := true
    fcgiStdinComplete := true
    fcgiDataComplete := true }

theorem completion_assembled (d : RequestData) (ws : List Record) (st : Stream) :
    (d.assembled ws).completion st = ended st ws := by
  cases st <;> rfl

theorem assembled_append_other (h : Stream.ofType r.type = none) :
    d.assembled (ws ++ [r]) = d.assembled ws := by
  simp [assembled, ended_append, received_append, EndsStream, h]

theorem assembled_append_ended {st : Stream} (hst : Stream.ofType r.type = some st)
    (hended : ended st ws = true) : d.assembled (ws ++ [r]) = d.assembled ws := by
  cases st <;> simp [assembled, ended_append, received_append, EndsStream, hst, hended]

theorem assembled_append_content {st : Stream} (hst : Stream.ofType r.type = some st)
    (hopen : ended st ws = false) (hne : r.content ≠ []) :
    d.assembled (ws ++ [r]) = (d.assembled ws).append st r.content := by
  cases st <;> simp [assembled, append, ended_append, received_append, EndsStream, hst, hopen, hne]

theorem assembled_append_end {st : Stream} (hst : Stream.ofType r.type = some st)
    (hopen : ended st ws = false) (hnil : r.content = []) :
    d.assembled (ws ++ [r]) = (d.assembled ws).complete st := by
  cases st <;> simp [assembled, complete, ended_append, received_append, EndsStream, hst, hopen, hnil]

/-- The check at the end of a stream is the condition on the role. -/
theorem check_complete (h : RoleComplete d.role ws) :
    (d.assembled ws).checkRequestCompletionWithConditionalUpdate = (d.allEnded ws, true) := by
  unfold RoleComplete at h
  unfold checkRequestCompletionWithConditionalUpdate
  by_cases hresponder : d.role = fcgiResponder
  · rw [if_pos hresponder] at h
    rw [if_pos (show (d.assembled ws).role = _ from hresponder)]
    refine (if_pos h).trans ?_
    simp [allEnded, assembled, h.1, h.2.1]
  rw [if_neg hresponder] at h
  rw [if_neg (show ¬ (d.assembled ws).role = _ from hresponder)]
  by_cases hauthorizer : d.role = fcgiAuthorizer
  · rw [if_pos hauthorizer] at h
    rw [if_pos (show (d.assembled ws).role = _ from hauthorizer)]
    refine (if_pos h).trans ?_
    simp [allEnded, assembled, h.1]
  · rw [if_neg hauthorizer] at h
    rw [if_neg (show ¬ (d.assembled ws).role = _ from hauthorizer)]
    simp [allEnded, assembled, h.1, h.2.1, h.2.2]

theorem check_incomplete (h : ¬ RoleComplete d.role ws) :
    (d.assembled ws).checkRequestCompletionWithConditionalUpdate = (d.assembled ws, false) := by
  unfold RoleComplete at h
  unfold checkRequestCompletionWithConditionalUpdate
  by_cases hresponder : d.role = fcgiResponder
  · rw [if_pos hresponder] at h
    rw [if_pos (show (d.assembled ws).role = _ from hresponder)]
    exact if_neg h
  rw [if_neg hresponder] at h
  rw [if_neg (show ¬ (d.assembled ws).role = _ from hresponder)]
  by_cases hauthorizer : d.role = fcgiAuthorizer
  · rw [if_pos hauthorizer] at h
    rw [if_pos (show (d.assembled ws).role = _ from hauthorizer)]
    exact if_neg h
  · rw [if_neg hauthorizer] at h
    rw [if_neg (show ¬ (d.assembled ws).role = _ from hauthorizer)]
    refine Prod.ext rfl ?_
    simpa [assembled, Bool.and_eq_true, and_assoc] using h

theorem roleComplete_of_allComplete (hall : (d.assembled ws).AllComplete) : RoleComplete d.role ws := by
  obtain ⟨hstdin, hdata, hparams⟩ := hall
  unfold RoleComplete
  split_ifs
  · exact ⟨hparams, hstdin, .inr hdata⟩
  · exact ⟨hparams, .inr hstdin, .inr hdata⟩
  · exact ⟨hparams, hstdin, hdata⟩

/-- Only the end of an open stream completes a request. -/
theorem roleComplete_append {role : UInt16} (h : RoleComplete role (ws ++ [r]))
    (hnot : ¬ RoleComplete role ws) :
    ∃ st, EndsStream st r ∧ ended st ws = false := by
  by_contra hno
  have hclosed : ∀ st, EndsStream st r → ended st ws = true := by
    intro st hends
    by_contra hopen
    exact hno ⟨st, hends, Bool.eq_false_iff.mpr hopen⟩
  have hended : ∀ st, ended st (ws ++ [r]) = ended st ws := by
    intro st
    rw [ended_append]
    by_cases hends : EndsStream st r
    · rw [hclosed st hends, Bool.true_or]
    · rw [decide_eq_false hends, Bool.or_false]
  have hempty : ∀ st, received st (ws ++ [r]) = [] → received st ws = [] := by
    intro st hnil
    rw [received_append] at hnil
    split at hnil
    · exact (List.append_eq_nil_iff.mp hnil).1
    · exact hnil
  refine hnot ?_
  unfold RoleComplete at h ⊢
  simp only [hended] at h
  split_ifs at h ⊢ with hresponder hauthorizer
  · exact ⟨h.1, h.2.1, h.2.2.imp_left (hempty .data)⟩
  · exact ⟨h.1, h.2.1.imp_left (hempty .stdin), h.2.2.imp_left (hempty .data)⟩
  · exact h

/-! ### Before and after completion -/

/-- A record that does not abort a request. -/
def Keeps (r : Record) : Prop := r.type = kFcgiAbortRequest → r.content ≠ []

theorem receive_other (h : Keeps r) (hst : Stream.ofType r.type = none) (d : RequestData) :
    receive (some d) r = some d := by
  unfold receive
  dsimp only
  split
  · exact if_neg fun hopen => h ‹_› hopen.1
  · rw [hst]

theorem receive_stream {st : Stream} (hst : Stream.ofType r.type = some st) (d : RequestData) :
    receive (some d) r =
      if d.completion st then some d
      else if r.content = [] then d.afterStream st
      else some (d.append st r.content) := by
  unfold receive
  dsimp only
  split
  · rename_i habort
    rw [habort] at hst
    cases hst
  · rw [hst]

/-- The streams are assembled as long as the role needs more. -/
theorem foldl_receive_assembled (hws : ∀ r ∈ ws, Keeps r)
    (hmore : ∀ p, p <+: ws → ¬ RoleComplete d.role p) (hfresh : d.assembled [] = d) :
    ws.foldl receive (some d) = some (d.assembled ws) := by
  induction ws using List.reverseRecOn with
  | nil => exact congrArg some hfresh.symm
  | append_singleton ws r ih =>
    rw [List.foldl_append, ih (fun q hq => hws q (List.mem_append_left _ hq))
      fun p hp => hmore p (hp.trans (List.prefix_append ws [r]))]
    show receive (some (d.assembled ws)) r = _
    cases hst : Stream.ofType r.type with
    | none => rw [receive_other (hws r (by simp)) hst, assembled_append_other hst]
    | some st =>
      rw [receive_stream hst, completion_assembled]
      cases hended : ended st ws with
      | true =>
        rw [assembled_append_ended hst hended]
        rfl
      | false =>
        rw [if_neg Bool.false_ne_true]
        by_cases hnil : r.content = []
        · rw [if_pos hnil, afterStream, endStream, ← assembled_append_end hst hended hnil,
            check_incomplete (hmore _ (List.prefix_refl _))]
          rfl
        · rw [if_neg hnil, assembled_append_content hst hended hnil]

/-- The record that completes the request. -/
theorem foldl_receive_complete {p : List Record} (hp : ∀ q ∈ p ++ [r], Keeps q)
    (hmore : ∀ q, q <+: p → ¬ RoleComplete d.role q) (hfresh : d.assembled [] = d)
    (hdone : RoleComplete d.role (p ++ [r])) :
    (p ++ [r]).foldl receive (some d) =
      if (d.allEnded (p ++ [r])).processFcgiParams.2 then
        some (d.allEnded (p ++ [r])).processFcgiParams.1
      else none := by
  obtain ⟨st, ⟨hst, hnil⟩, hopen⟩ := roleComplete_append hdone (hmore p (List.prefix_refl _))
  rw [List.foldl_append, foldl_receive_assembled (fun q hq => hp q (List.mem_append_left _ hq)) hmore hfresh]
  show receive (some (d.assembled p)) r = _
  rw [receive_stream hst, completion_assembled, hopen, if_neg Bool.false_ne_true, if_pos hnil, afterStream, endStream,
    ← assembled_append_end hst hopen hnil, check_complete hdone]
  dsimp only
  rw [if_pos rfl]
  dsimp only
  cases (d.allEnded (p ++ [r])).processFcgiParams.2 <;> rfl

/-- Nothing is added to a request that is complete. -/
theorem foldl_receive_allComplete (hws : ∀ r ∈ ws, Keeps r) (hall : d.AllComplete) :
    ws.foldl receive (some d) = some d := by
  induction ws with
  | nil => rfl
  | cons r ws ih =>
    have hkept : receive (some d) r = some d := by
      cases hst : Stream.ofType r.type with
      | none => exact receive_other (hws r List.mem_cons_self) hst d
      | some st => exact (receive_stream hst d).trans (if_pos (completion_of_allComplete hall st))
    rw [List.foldl_cons, hkept]
    exact ih fun q hq => hws q (List.mem_cons_of_mem r hq)

end RequestData

/-! ## The list of a call -/

section

variable {c : Nat} {s : System} {its : List Iterator} {id : FcgiRequestIdentifier} {d : RequestData}

theorem listed_beginRequest (hl : Listed s c its) (hnone : s.requestMap[id]? = none) (content : Bytes) :
    Listed (s.beginRequest c id content) c its := by
  unfold System.beginRequest
  split
  · split
    · exact Listed.congr (requestMap_respond (s.reject c id) c _ _) (Listed.congr (s := s) (t := s.reject c id) rfl hl)
    · refine hl.mono fun it _ hready => ?_
      obtain ⟨d, hd, hpending⟩ := hready
      obtain ⟨hmap, hnode⟩ := lookup_eq_some.mp hd
      refine ⟨d, lookup_eq_some.mpr ⟨?_, hnode⟩, hpending⟩
      have hne : id ≠ it.key := by
        rintro rfl
        rw [hnone] at hmap
        cases hmap
      simp only [System.accept]
      grind
  · exact hl

theorem listed_endRequest (hl : Listed s c its) (hd : s.requestMap[id]? = some d)
    (hit : ⟨id, d.node⟩ ∉ its) (e : RequestData) (appStatus : Int32) :
    Listed (s.endRequest c ⟨id, d.node⟩ e appStatus) c its :=
  hl.removed (lookup_of_data hd) hit (endRequest_requestMap ⟨id, d.node⟩ e appStatus)

theorem listed_abort (hl : Listed s c its) : Listed (s.abort c id its).1 c (s.abort c id its).2 := by
  unfold System.abort
  split
  · exact hl
  · rename_i d hd
    split
    · exact hl.touch (lookup_of_data hd) ⟨rfl, rfl, rfl, rfl, rfl, rfl⟩ fun hall => hall
    · dsimp only
      split
      · exact listed_endRequest (hl.erase _) hd (hl.nodup.not_mem_erase) d _
      · rename_i hopen
        refine listed_endRequest hl hd (fun hmem => hopen ?_) d _
        obtain ⟨e, he, -, hall⟩ := hl.ready _ hmem
        obtain rfl := Option.some.inj ((lookup_of_data hd).symm.trans he)
        exact hall

theorem listed_endStream (hl : Listed s c its) (hid : id.descriptor = c) {st : Stream}
    (hopen : ∀ d, s.requestMap[id]? = some d → d.requestStatus = .requestPending ∧ d.completion st = false) :
    Listed (s.endStream c id st its).1 c (s.endStream c id st its).2 := by
  unfold System.endStream
  split
  · exact hl
  · rename_i d hd
    obtain ⟨hpending, hopen⟩ := hopen d hd
    have same := d.sameRequest_endStream st
    have hnew : ¬ d.AllComplete := by
      intro hall
      rw [completion_of_allComplete hall st] at hopen
      cases hopen
    have htouch : Listed (s.setData id (d.endStream st).1) c its :=
      hl.touch (lookup_of_data hd) same fun hall => absurd hall hnew
    have hready : s.Open ⟨id, d.node⟩ st := ⟨d, lookup_of_data hd, hpending, hopen⟩
    have hnot : ⟨id, d.node⟩ ∉ its := hl.not_mem hready
    have hlookup : (s.setData id (d.endStream st).1).lookup ⟨id, d.node⟩ = some (d.endStream st).1 :=
      lookup_setData_self (lookup_of_data hd) same.node
    dsimp only
    cases hended : (d.endStream st).2 with
    | incomplete => exact htouch
    | complete =>
      refine htouch.cons hid ⟨_, hlookup, same.requestStatus.trans hpending, ?_⟩ hnot
      by_cases hchecked : (d.complete st).checkRequestCompletionWithConditionalUpdate.2 = true
      · rw [RequestData.endStream_checked hchecked]
        exact RequestData.allComplete_processFcgiParams (RequestData.allComplete_of_check hchecked)
      · rw [RequestData.endStream_open hchecked] at hended
        cases hended
    | malformed =>
      refine htouch.removed hlookup hnot ?_
      rw [endRequest_requestMap]

/-- The list holds complete requests that are not assigned, each once. -/
theorem listed_receiveRecord (hs : s.Serves c its) (hl : Listed s c its) (r : Record) :
    Listed (s.receiveRecord c r its).1 c (s.receiveRecord c r its).2 := by
  unfold System.receiveRecord
  dsimp only
  split
  · exact Listed.congr (requestMap_respond s c _ _) hl
  split
  · split
    · rename_i hnew
      exact listed_beginRequest hl hnew.2 _
    · exact hl
  split
  · exact hl
  · rename_i d hd
    split
    · split
      · exact listed_abort hl
      · exact hl
    split
    · exact hl
    · rename_i st _
      split
      · exact hl
      · rename_i hopen
        split
        · refine listed_endStream hl rfl fun d' hd' => ?_
          obtain rfl := Option.some.inj (hd.symm.trans hd')
          refine ⟨?_, Bool.eq_false_iff.mpr hopen⟩
          cases hstatus : d.requestStatus with
          | requestPending => rfl
          | requestAssigned => exact absurd (completion_of_allComplete (hs.assigned _ d rfl hd hstatus) st) hopen
        · refine hl.touch (lookup_of_data hd) (d.sameRequest_append st _) fun hall => ?_
          exact absurd (completion_of_allComplete hall st) hopen

theorem listed_receiveRecords (hs : s.Serves c its) (hl : Listed s c its) {rs : List Record}
    (hrs : ∀ r ∈ rs, r.Fits) :
    Listed (s.receiveRecords c rs its).1 c (s.receiveRecords c rs its).2 := by
  induction rs generalizing s its with
  | nil => exact hl
  | cons r rs ih =>
    rw [receiveRecords_cons]
    exact ih (serves_receiveRecord hs (hrs r List.mem_cons_self)) (listed_receiveRecord hs hl r)
      fun q hq => hrs q (List.mem_cons_of_mem r hq)

/-- Reported are the requests that are complete and not assigned. -/
theorem mem_reported_iff (hs : s.Serves c its) (hl : Listed s c its) {i : UInt16} :
    (⟨c, i⟩ : FcgiRequestIdentifier) ∈ its.map (·.key) ↔
      ∃ d, s.view ⟨c, i⟩ = some d ∧ d.requestStatus = .requestPending ∧ d.AllComplete := by
  constructor
  · intro hmem
    obtain ⟨it, hit, hkey⟩ := List.mem_map.mp hmem
    obtain ⟨d, hd, hpending, hall⟩ := hl.ready it hit
    refine ⟨d.view, ?_, hpending, hall⟩
    rw [System.view, ← hkey, (lookup_eq_some.mp hd).1]
    rfl
  · rintro ⟨d, hd, hpending, hall⟩
    obtain ⟨e, he, rfl⟩ := Option.map_eq_some_iff.mp hd
    exact List.mem_map.mpr ⟨_, hs.listed ⟨c, i⟩ e rfl he hpending hall, rfl⟩

end

/-! ## A call of `ReadRecords` -/

section

variable {c : Nat} {s : System} {reads : List ReadResult} {rs : List Record} {i : UInt16}

/-- The list of a call of `ReadRecords` holds exactly the requests that are
complete and not assigned, each once. -/
theorem readRecords_records (hs : s.Serves c []) (hstatus : (s.recordStatusMap[c]?).getD {} = {})
    (hrs : ∀ r ∈ rs, r.Fits) (hreads : Gives reads (encodeRecords rs)) :
    Program.Completes Faultless (fun its t =>
        its = (s.receiveRecords c rs []).2 ∧
        t = (s.receiveRecords c rs []).1.keeping none (s.recordStatusMap.insert c {}) ∧
        its.Nodup ∧ (∀ it, it ∈ its ↔ it.key.descriptor = c ∧ t.Ready it) ∧ t.Serves c its)
      (readRecords c reads) s := by
  have hserves := (serves_receiveRecords hs hrs).keeping none (s.recordStatusMap.insert c {})
  have hlisted := Listed.congr (s := (s.receiveRecords c rs []).1)
    (t := (s.receiveRecords c rs []).1.keeping none (s.recordStatusMap.insert c {})) rfl
    (listed_receiveRecords hs (.nil s c) hrs)
  refine Program.completes_mono ?_ (completes_records hs hstatus hrs hreads)
  rintro _ _ ⟨rfl, rfl⟩
  refine ⟨rfl, rfl, hlisted.nodup, fun it => ⟨fun hit => ⟨hlisted.descriptor it hit, hlisted.ready it hit⟩, ?_⟩,
    hserves⟩
  rintro ⟨hit, d, hd, hpending, hall⟩
  obtain ⟨hmap, hnode⟩ := lookup_eq_some.mp hd
  have hmem := hserves.listed it.key d hit hmap hpending hall
  rwa [hnode] at hmem

/-- Two requests on one connection: the records of the second one are all around
those of the first. -/
def twoRequests : List Record :=
  [⟨kFcgiBeginRequest, 2, [0, 1, 1, 0, 0, 0, 0, 0], []⟩,
    ⟨kFcgiBeginRequest, 1, [0, 2, 1, 0, 0, 0, 0, 0], [0]⟩,
    ⟨kFcgiStdin, 2, [97, 98], []⟩,
    ⟨kFcgiParams, 1, [], []⟩,
    ⟨kFcgiParams, 2, [], [0, 0]⟩]

theorem fits_twoRequests : ∀ r ∈ twoRequests, r.Fits := by
  intro r hr
  simp only [twoRequests, List.mem_cons, List.not_mem_nil, or_false] at hr
  rcases hr with rfl | rfl | rfl | rfl | rfl <;> exact ⟨by decide, by decide⟩

theorem readRecords_records_twoRequests :
    Program.Completes Faultless (fun its t => its = [⟨⟨5, 1⟩, 1⟩] ∧ t.requestsOf 5 = [⟨5, 1⟩, ⟨5, 2⟩] ∧
        ∀ it, it ∈ its ↔ it.key.descriptor = 5 ∧ t.Ready it)
      (readRecords 5 [.drained (encodeRecords twoRequests)]) accepted.system := by
  have hresult : ∀ x, x = accepted.system.receiveRecords 5 twoRequests [] →
      x.2 = [⟨⟨5, 1⟩, 1⟩] ∧ x.1.requestsOf 5 = [⟨5, 1⟩, ⟨5, 2⟩] := by
    rintro _ rfl
    decide +kernel
  obtain ⟨hits, hmap⟩ := hresult _ rfl
  refine Program.completes_mono ?_ (readRecords_records serves_accepted status_accepted
    fits_twoRequests (.drained _ _))
  rintro its t ⟨hits', rfl, -, hready, -⟩
  exact ⟨hits'.trans hits, hmap, hready⟩

/-- What a call makes of one request. -/
theorem completes_view (hi : i ≠ fcgiNullRequestId) (hs : s.Serves c [])
    (hstatus : (s.recordStatusMap[c]?).getD {} = {}) (hrs : ∀ r ∈ rs, r.Fits)
    (hadmits : s.Admits c i rs []) (hreads : Gives reads (encodeRecords rs)) :
    Program.Completes Faultless (fun its t =>
        t.view ⟨c, i⟩ = (recordsOf i rs).foldl RequestData.receive (s.view ⟨c, i⟩) ∧
        ((⟨c, i⟩ : FcgiRequestIdentifier) ∈ its.map (·.key) ↔
          ∃ d, t.view ⟨c, i⟩ = some d ∧ d.requestStatus = .requestPending ∧ d.AllComplete))
      (readRecords c reads) s := by
  have hreported := mem_reported_iff (serves_receiveRecords hs hrs) (listed_receiveRecords hs (.nil s c) hrs)
    (i := i)
  refine Program.completes_mono ?_ (completes_records hs hstatus hrs hreads)
  rintro _ _ ⟨rfl, rfl⟩
  exact ⟨view_receiveRecords hi hadmits, hreported⟩

/-- Two calls, of any interfaces and connections, in which a request has the same
records keep the same data for it and report it or not alike, whatever other
records come in between. -/
theorem request_isolated {c' : Nat} {s' : System} {reads' : List ReadResult} {rs' : List Record}
    (hi : i ≠ fcgiNullRequestId) (hs : s.Serves c []) (hs' : s'.Serves c' [])
    (hstatus : (s.recordStatusMap[c]?).getD {} = {}) (hstatus' : (s'.recordStatusMap[c']?).getD {} = {})
    (hrs : ∀ r ∈ rs, r.Fits) (hrs' : ∀ r ∈ rs', r.Fits)
    (hadmits : s.Admits c i rs []) (hadmits' : s'.Admits c' i rs' [])
    (hreads : Gives reads (encodeRecords rs)) (hreads' : Gives reads' (encodeRecords rs'))
    (hview : s.view ⟨c, i⟩ = s'.view ⟨c', i⟩) (hsame : recordsOf i rs = recordsOf i rs') :
    ∃ (kept : Option RequestData) (reported : Prop),
      Program.Completes Faultless
        (fun its t => t.view ⟨c, i⟩ = kept ∧ ((⟨c, i⟩ : FcgiRequestIdentifier) ∈ its.map (·.key) ↔ reported))
        (readRecords c reads) s ∧
      Program.Completes Faultless
        (fun its t => t.view ⟨c', i⟩ = kept ∧ ((⟨c', i⟩ : FcgiRequestIdentifier) ∈ its.map (·.key) ↔ reported))
        (readRecords c' reads') s' := by
  refine ⟨(recordsOf i rs).foldl RequestData.receive (s.view ⟨c, i⟩), ∃ d,
    (recordsOf i rs).foldl RequestData.receive (s.view ⟨c, i⟩) = some d ∧
      d.requestStatus = .requestPending ∧ d.AllComplete, ?_, ?_⟩
  · refine Program.completes_mono ?_ (completes_view hi hs hstatus hrs hadmits hreads)
    rintro _ t ⟨hkept, hreported⟩
    exact ⟨hkept, by rw [hreported, hkept]⟩
  · refine Program.completes_mono ?_ (completes_view hi hs' hstatus' hrs' hadmits' hreads')
    rintro _ t ⟨hkept, hreported⟩
    exact ⟨by rw [hkept, hview, hsame], by rw [hreported, hkept, hview, hsame]⟩

theorem admits_twoRequests (i : UInt16) : accepted.system.Admits 5 i twoRequests [] := by
  refine ⟨fun _ _ _ _ => ?_, fun _ _ _ _ => ?_, fun _ h => ?_, fun _ h => ?_, fun _ h => ?_, trivial⟩
  · decide +kernel
  · decide +kernel
  · cases h
  · cases h
  · cases h

/-- The first request alone and among the records of the second. -/
theorem request_isolated_twoRequests :
    ∃ (kept : Option RequestData) (reported : Prop),
      Program.Completes Faultless
        (fun its t => t.view ⟨5, 1⟩ = kept ∧ ((⟨5, 1⟩ : FcgiRequestIdentifier) ∈ its.map (·.key) ↔ reported))
        (readRecords 5 [.drained (encodeRecords twoRequests)]) accepted.system ∧
      Program.Completes Faultless
        (fun its t => t.view ⟨5, 1⟩ = kept ∧ ((⟨5, 1⟩ : FcgiRequestIdentifier) ∈ its.map (·.key) ↔ reported))
        (readRecords 5 [.drained (encodeRecords (recordsOf 1 twoRequests))]) accepted.system := by
  have hfits : ∀ r ∈ recordsOf 1 twoRequests, r.Fits := fun r hr =>
    fits_twoRequests r (List.mem_of_mem_filter hr)
  have hadmits : accepted.system.Admits 5 1 (recordsOf 1 twoRequests) [] := by
    refine ⟨fun _ _ _ _ => ?_, fun _ h => ?_, trivial⟩
    · decide +kernel
    · cases h
  exact request_isolated (by decide) serves_accepted serves_accepted status_accepted status_accepted
    fits_twoRequests hfits (admits_twoRequests 1) hadmits (.drained _ _) (.drained _ _) rfl rfl

/-! ## A request from its begin to its end -/

variable {b : Record} {ws : List Record} {d : RequestData}

theorem assembled_ofBegin (hd : RequestData.ofBegin b.content = some d) :
    d.assembled [] = d ∧ d.requestStatus = .requestPending := by
  unfold RequestData.ofBegin at hd
  split at hd
  · obtain rfl := Option.some.inj hd
    exact ⟨rfl, rfl⟩
  · cases hd

/-- What is kept for a request while its role needs more, and when it is
reported: the streams are assembled up to their ends, and the request is reported
by the first record after which the condition on its role holds, unless its
`FCGI_PARAMS` is malformed. -/
theorem request_assembled (hi : i ≠ fcgiNullRequestId) (hs : s.Serves c [])
    (hstatus : (s.recordStatusMap[c]?).getD {} = {}) (hrs : ∀ r ∈ rs, r.Fits)
    (hadmits : s.Admits c i rs []) (hreads : Gives reads (encodeRecords rs))
    (hnone : s.requestMap[(⟨c, i⟩ : FcgiRequestIdentifier)]? = none)
    (hown : recordsOf i rs = b :: ws) (htype : b.type = kFcgiBeginRequest) (hlength : b.content.length = 8)
    (hd : RequestData.ofBegin b.content = some d) (hws : ∀ r ∈ ws, RequestData.Keeps r) :
    ((∀ p, p <+: ws → ¬ RoleComplete d.role p) →
      Program.Completes Faultless (fun its t => t.view ⟨c, i⟩ = some (d.assembled ws) ∧
          (⟨c, i⟩ : FcgiRequestIdentifier) ∉ its.map (·.key))
        (readRecords c reads) s) ∧
    ∀ p r q, ws = p ++ r :: q → (∀ p', p' <+: p → ¬ RoleComplete d.role p') →
      RoleComplete d.role (p ++ [r]) →
      Program.Completes Faultless (fun its t =>
          if (d.allEnded (p ++ [r])).processFcgiParams.2 then
            t.view ⟨c, i⟩ = some (d.allEnded (p ++ [r])).processFcgiParams.1 ∧
            (⟨c, i⟩ : FcgiRequestIdentifier) ∈ its.map (·.key)
          else t.view ⟨c, i⟩ = q.foldl RequestData.receive none)
        (readRecords c reads) s := by
  have hview : s.view ⟨c, i⟩ = none := by
    rw [System.view, hnone]
    rfl
  obtain ⟨hfresh, hpending⟩ := assembled_ofBegin hd
  have hbegun : (recordsOf i rs).foldl RequestData.receive (s.view ⟨c, i⟩) =
      ws.foldl RequestData.receive (some d) := by
    rw [hown, hview, List.foldl_cons]
    refine congrArg (ws.foldl RequestData.receive ·) ?_
    exact (if_pos ⟨htype, hlength⟩).trans hd
  have hcompletes := completes_view hi hs hstatus hrs hadmits hreads
  rw [hbegun] at hcompletes
  constructor
  · intro hmore
    rw [RequestData.foldl_receive_assembled hws hmore hfresh] at hcompletes
    refine Program.completes_mono ?_ hcompletes
    rintro its t ⟨hkept, hreported⟩
    refine ⟨hkept, fun hmem => ?_⟩
    obtain ⟨e, he, -, hall⟩ := hreported.mp hmem
    obtain rfl := Option.some.inj (hkept.symm.trans he)
    exact hmore ws (List.prefix_refl _) (RequestData.roleComplete_of_allComplete hall)
  · rintro p r q rfl hmore hdone
    have hkeeps : ∀ w ∈ p ++ [r], RequestData.Keeps w := fun w hw => hws w (by
      simp only [List.mem_append, List.mem_cons, List.not_mem_nil, or_false] at hw ⊢
      tauto)
    have hrest : ∀ w ∈ q, RequestData.Keeps w := fun w hw => hws w (by simp [hw])
    rw [show p ++ r :: q = (p ++ [r]) ++ q by simp, List.foldl_append,
      RequestData.foldl_receive_complete hkeeps hmore hfresh hdone] at hcompletes
    by_cases hvalid : (d.allEnded (p ++ [r])).processFcgiParams.2 = true
    · rw [if_pos hvalid, RequestData.foldl_receive_allComplete hrest
        (RequestData.allComplete_processFcgiParams ⟨rfl, rfl, rfl⟩)] at hcompletes
      refine Program.completes_mono ?_ hcompletes
      rintro its t ⟨hkept, hreported⟩
      rw [if_pos hvalid]
      refine ⟨hkept, hreported.mpr ⟨_, hkept, ?_, ?_⟩⟩
      · exact (RequestData.sameRequest_processFcgiParams _).requestStatus.trans hpending
      · exact RequestData.allComplete_processFcgiParams ⟨rfl, rfl, rfl⟩
    · rw [if_neg hvalid] at hcompletes
      refine Program.completes_mono ?_ hcompletes
      rintro its t ⟨hkept, -⟩
      rw [if_neg hvalid]
      exact hkept

end

theorem keeps_twoRequests : ∀ r ∈ twoRequests, RequestData.Keeps r := by
  intro r hr
  simp only [twoRequests, List.mem_cons, List.not_mem_nil, or_false] at hr
  rcases hr with rfl | rfl | rfl | rfl | rfl <;> exact fun h => by cases h

/-- The first request is reported, the second one has a stream to come. -/
theorem request_assembled_twoRequests :
    Program.Completes Faultless (fun its t => t.view ⟨5, 1⟩ ≠ none ∧
        (⟨5, 1⟩ : FcgiRequestIdentifier) ∈ its.map (·.key))
      (readRecords 5 [.drained (encodeRecords twoRequests)]) accepted.system ∧
    Program.Completes Faultless (fun its t => (t.view ⟨5, 2⟩).map (·.fcgiStdin) = some [97, 98] ∧
        (⟨5, 2⟩ : FcgiRequestIdentifier) ∉ its.map (·.key))
      (readRecords 5 [.drained (encodeRecords twoRequests)]) accepted.system := by
  have hkeeps : ∀ i, ∀ r ∈ (recordsOf i twoRequests).tail, RequestData.Keeps r := fun i r hr =>
    keeps_twoRequests r (List.mem_of_mem_filter (List.mem_of_mem_tail hr))
  constructor
  · obtain ⟨-, hcomplete⟩ := request_assembled (by decide) serves_accepted status_accepted fits_twoRequests
      (admits_twoRequests 1) (.drained _ []) (requestMap_accepted 1) rfl rfl rfl rfl (hkeeps 1)
    refine Program.completes_mono ?_ (hcomplete [] ⟨kFcgiParams, 1, [], []⟩ [] rfl ?_ ?_)
    · intro its t h
      obtain ⟨hkept, hmem⟩ : t.view ⟨5, 1⟩ = some _ ∧ _ := h
      exact ⟨by rw [hkept]; exact Option.some_ne_none _, hmem⟩
    · rintro _ hprefix
      rw [List.prefix_nil.mp hprefix]
      decide
    · decide
  · obtain ⟨hmore, -⟩ := request_assembled (by decide) serves_accepted status_accepted fits_twoRequests
      (admits_twoRequests 2) (.drained _ []) (requestMap_accepted 2) rfl rfl rfl rfl (hkeeps 2)
    refine Program.completes_mono ?_ (hmore fun p hp => ?_)
    · rintro its t ⟨hkept, hreported⟩
      exact ⟨by rw [hkept]; rfl, hreported⟩
    · intro h
      obtain ⟨-, hstdin, -⟩ : _ ∧ ended .stdin p = true ∧ _ := h
      obtain ⟨r, hr, hends⟩ := List.any_eq_true.mp hstdin
      have hnever : ended .stdin (recordsOf 2 twoRequests).tail = false := by decide
      exact Bool.false_ne_true (hnever.symm.trans (List.any_eq_true.mpr ⟨r, hp.subset hr, hends⟩))

end AsComponents.Server
