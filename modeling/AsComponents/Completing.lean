import AsComponents.Receiving

/-! The sections of `ReadRecords` that extend or end a stream of a request. -/

namespace AsComponents.Server

open Protocol NameValue SocketFunctions AsComponents.Partition Std Critical

variable {A : Assumptions} {c : Nat} {kept : Kept} {loose : Option Nat} {s : System}

/-- An iterator to a request with a stream that has not ended. -/
def System.Open (s : System) (it : Iterator) (st : Stream) : Prop :=
  ∃ d, s.lookup it = some d ∧ d.requestStatus = .requestPending ∧ d.completion st = false

theorem stable_open {it : Iterator} {st : Stream} : Stable A fun s => s.Open it st := by
  refine stable_of_interference ?_
  rintro s t hi ⟨d, hd, hp, hc⟩
  obtain ⟨hd, hn⟩ := lookup_eq_some.mp hd
  exact ⟨d, lookup_eq_some.mpr ⟨hi.pending _ d hd hp, hn⟩, hp, hc⟩

theorem stable_ready {it : Iterator} : Stable A fun s => s.Ready it :=
  stable_of_interference fun _ _ hi hr => hr.interference hi

/-- The request of a stream record that was accepted, by its iterator. -/
theorem Received.isOpen {rs : RecordStatus} (h : Received s c rs) (ha : rs.Accepts) {st : Stream}
    (hst : Stream.ofType rs.type = some st) {it : Iterator} {d : RequestData}
    (hkey : it.key = rs.requestId) (hd : s.lookup it = some d) :
    d.requestStatus = .requestPending ∧ d.completion st = false := by
  obtain ⟨d', hd', hp, hc⟩ := h.stream ha st hst
  obtain ⟨hdata, -⟩ := lookup_eq_some.mp hd
  rw [hkey, hd', Option.some.injEq] at hdata
  subst hdata
  exact ⟨hp, hc⟩

/-- A request that is reported complete was not reported before. -/
theorem Listed.not_mem {its : List Iterator} (h : Listed s c its) {it : Iterator} {st : Stream}
    (ho : s.Open it st) : it ∉ its := by
  intro hmem
  obtain ⟨d, hd, -, hc⟩ := ho
  obtain ⟨d', hd', -, hin, hda, hpa⟩ := h.ready it hmem
  rw [hd, Option.some.injEq] at hd'
  subst hd'
  cases st
  · exact absurd (hpa.symm.trans hc) (by simp)
  · exact absurd (hin.symm.trans hc) (by simp)
  · exact absurd (hda.symm.trans hc) (by simp)

theorem Listed.cons {its : List Iterator} (h : Listed s c its) {it : Iterator}
    (hit : it.key.descriptor = c) (hr : s.Ready it) (hnew : it ∉ its) : Listed s c (its ++ [it]) where
  nodup := by
    refine List.nodup_append.mpr ⟨h.nodup, List.nodup_singleton it, ?_⟩
    rintro a ha b hb rfl
    obtain rfl := List.mem_singleton.mp hb
    exact hnew ha
  descriptor it' hmem := by
    rcases List.mem_append.mp hmem with hmem | hmem
    · exact h.descriptor it' hmem
    · obtain rfl := List.mem_singleton.mp hmem
      exact hit
  ready it' hmem := by
    rcases List.mem_append.mp hmem with hmem | hmem
    · exact h.ready it' hmem
    · obtain rfl := List.mem_singleton.mp hmem
      exact hr

/-- What the section that ends a stream says about its request. -/
structure StreamEnded (s : System) (c : Nat) (its : List Iterator) (it : Iterator)
    (r : Completion) : Prop where
  listed : Listed s c its
  ready : r ≠ .incomplete → s.Ready it ∧ it ∉ its

/-- The section that looks up the request of an ended stream. -/
theorem after_findStream (h : Serving A c kept loose s) {rs : RecordStatus}
    (hr : Received s c rs) (ha : rs.Accepts) {st : Stream} (hst : Stream.ofType rs.type = some st)
    (e : Failure) :
    After (do
        processCheck
        match ← cachedOrFind (← get).localRequestIter rs.requestId with
        | none => throw e
        | some it => return it : Section Iterator) s
      (fun it => Outcome A c loose s fun t => t.requestMap = s.requestMap ∧
        it.key = rs.requestId ∧ t.Open it st)
      (fun _ => Outcome A c loose s fun t => t.requestMap = s.requestMap) := by
  have hid := hr.descriptor ha.1
  simp only [processCheck, after_bind, after_interfaceCheck, after_get]
  refine ⟨fun _ => h.outcome rfl, fun _ => ?_⟩
  refine after_cachedOrFind h hid ?_ ?_ fun t ht => .inl ht
  · intro it d hkey hd
    simp only [after_pure]
    exact h.outcome ⟨rfl, hkey, d, hd, hr.isOpen ha hst hkey hd⟩
  · intro _
    simp only [after_throw]
    exact h.outcome rfl

theorem completion_of_allComplete {d : RequestData} (h : d.AllComplete) (st : Stream) :
    d.completion st = true := by
  obtain ⟨hin, hda, hpa⟩ := h
  cases st <;> assumption

/-- A change of the data of a request whose stream is open. -/
theorem Listed.touch {its : List Iterator} (h : Listed s c its) {it : Iterator} {d d' : RequestData}
    (hd : s.lookup it = some d) (same : d.SameRequest d')
    (complete : d.AllComplete → d'.AllComplete) : Listed (s.setData it.key d') c its :=
  h.mono fun _ _ hr => ready_touch hd same complete hr

theorem lookup_setData_self {it : Iterator} {d d' : RequestData} (hd : s.lookup it = some d)
    (hnode : d'.node = d.node) : (s.setData it.key d').lookup it = some d' :=
  lookup_eq_some.mpr ⟨ExtTreeMap.getElem?_insert_self, hnode.trans (lookup_eq_some.mp hd).2⟩

theorem after_completeStream (h : Serving A c kept loose s) {it : Iterator} {st : Stream}
    (hit : it.key.descriptor = c) (ho : s.Open it st) {its : List Iterator} (hl : Listed s c its)
    (reply : SystemReply) :
    After (completeStream reply st it) s
      (fun r => Outcome A c loose s fun t => StreamEnded t c its it r ∧
        (r ≠ .incomplete → t.localRequestIter ≠ some it))
      (fun _ => Outcome A c loose s fun _ => True) := by
  have hnew := hl.not_mem ho
  obtain ⟨d, hd, hp, hc⟩ := ho
  have hopen : ¬ d.AllComplete := by
    intro hall
    rw [completion_of_allComplete hall st] at hc
    cases hc
  set checked := (d.complete st).checkRequestCompletionWithConditionalUpdate with hchecked
  have same : d.SameRequest checked.1 :=
    (RequestData.sameRequest_complete d st).trans (RequestData.sameRequest_check _)
  have hserved : Served A c loose s (s.setData it.key checked.1) :=
    served_touch h.refl hit hd same fun hall => absurd hall hopen
  have hlisted : Listed (s.setData it.key checked.1) c its :=
    hl.touch hd same fun hall => absurd hall hopen
  have hself := lookup_setData_self hd same.node
  simp only [completeStream, after_bind, after_get, hd, after_modify]
  rw [after_ite]
  refine ⟨fun hcompleted => ?_, fun _ => ?_⟩
  · have hall : checked.1.AllComplete := RequestData.allComplete_of_check hcompleted
    rw [after_bind, after_get, after_ite_bind, after_forget]
    have hserved' : Served A c loose s ((s.setData it.key checked.1).forget it) := by
      refine ⟨hserved.moves.tail (.frame fun _ => Iff.rfl), rfl, { hserved.frame with }, ?_, ?_⟩
      · exact fun it' he => hserved.cached it' (forget_ne he).1
      · exact fun hf it' he => hserved.present hf it' (forget_ne he).1
    simp only [after_bind, after_ite, after_throw, after_modify, after_pure]
    refine ⟨fun _ => .inr ⟨hserved', trivial⟩, fun _ => ?_⟩
    have same' := RequestData.sameRequest_processFcgiParams checked.1
    have hall' := RequestData.allComplete_processFcgiParams hall
    have hself' : ((s.setData it.key checked.1).forget it).lookup it = some checked.1 := hself
    have hlast : Served A c loose s
        (((s.setData it.key checked.1).forget it).setData it.key checked.1.processFcgiParams.1) :=
      served_touch hserved' hit hself' same' fun _ => hall'
    refine .inr ⟨hlast, ⟨?_, fun _ => ⟨⟨_, ?_, ?_, hall'⟩, hnew⟩⟩, ?_⟩
    · exact Listed.touch (s := (s.setData it.key checked.1).forget it)
        (hlisted.mono fun _ _ hr => hr) hself' same' fun _ => hall'
    · exact lookup_setData_self hself' same'.node
    · exact same'.requestStatus.trans (same.requestStatus.trans hp)
    · exact fun _ he => (forget_ne he).2 rfl
  · simp only [after_pure]
    exact .inr ⟨hserved, ⟨hlisted, fun hne => absurd rfl hne⟩, fun hne => absurd rfl hne⟩

/-- The removal of a malformed request, once the closure is scheduled. -/
theorem after_removeMalformed (hi : Invariant s) (h : Serving A c kept (some c) s) {it : Iterator}
    {d : RequestData} {closure : ExtTreeSet Nat} {its : List Iterator} (hl : Listed s c its)
    (hit : it.key.descriptor = c) (hd : s.lookup it = some d)
    (hp : d.requestStatus = .requestPending) (hnew : it ∉ its)
    (hs : Served A c (some c) s ((s.forget it).closing closure)) :
    After (do
        removeRequestHelper (some it)
        note (.endedByInterface d.node) : Section Unit)
      ((s.forget it).closing closure)
      (fun _ => Outcome A c (some c) s fun t => Listed t c its ∧ t.Ending c it.node it.key.fcgiId)
      (fun _ => Outcome A c (some c) s fun _ => True) := by
  obtain ⟨hdata, hnode⟩ := lookup_eq_some.mp hd
  obtain ⟨n, hn⟩ := count_pos hi hdata
  have hd' : ((s.forget it).closing closure).lookup it = some d := hd
  have hn' : ((s.forget it).closing closure).requestCountMap[it.key.descriptor]? = some (n + 1) := hn
  obtain ⟨hserved, hending⟩ := served_ended hi h hit hd hp hn hs.moves
  rw [after_bind, after_removeRequestHelper hd' hn', after_note]
  exact .inr ⟨hserved, hl.removed hd hnew rfl, hnode ▸ hending⟩

theorem after_rejectMalformed (hi : Invariant s) (h : Serving A c kept (some c) s) {it : Iterator}
    {its : List Iterator} (hl : Listed s c its) (hit : it.key.descriptor = c) (hr : s.Ready it)
    (hnew : it ∉ its) (hcache : s.localRequestIter ≠ some it) (reply : SystemReply) :
    After (rejectMalformed reply c it) s
      (fun _ => Outcome A c (some c) s fun t => Listed t c its ∧ t.Ending c it.node it.key.fcgiId)
      (fun _ => Outcome A c (some c) s fun _ => True) := by
  obtain ⟨d, hd, hp, -⟩ := hr
  have hforget : s.forget it = s := by
    rw [System.forget, if_neg hcache]
  simp only [rejectMalformed, processCheck, after_bind, after_interfaceCheck, after_deref]
  refine ⟨fun _ => h.outcome trivial, fun _ => ⟨fun d' hd' => ?_, fun hnone => ?_⟩⟩
  · obtain rfl : d = d' := Option.some.inj (hd.symm.trans hd')
    have hself : (s.forget it).closing s.applicationClosureRequestSet = s := by
      rw [hforget]
      rfl
    rw [after_ite, after_ite, after_bind, after_throw, after_bind, after_modify]
    refine ⟨fun _ => ⟨fun _ => h.outcome trivial, fun _ => ?_⟩, fun _ => ?_⟩
    · have hclosing : Served A c (some c) s
          ((s.forget it).closing (s.applicationClosureRequestSet.insert c)) := by
        rw [hforget]
        exact ⟨.single (.schedule h.registered (.inr rfl)), rfl, { Frame.refl c s with }, h.cached,
          h.present⟩
      have hafter := after_removeMalformed hi h hl hit hd hp hnew hclosing
      rw [hforget] at hafter
      exact hafter
    · have hafter := after_removeMalformed hi h hl hit hd hp hnew (by
        rw [hself]
        exact h.refl)
      rw [hself] at hafter
      exact hafter
  · rw [hd] at hnone
    cases hnone

theorem completion_append (d : RequestData) (st st' : Stream) (bytes : Bytes) :
    (d.append st bytes).completion st' = d.completion st' := by
  cases st <;> cases st' <;> rfl

theorem allComplete_append {d : RequestData} (h : d.AllComplete) (st : Stream) (bytes : Bytes) :
    (d.append st bytes).AllComplete := by
  cases st <;> exact h

theorem after_appendToStream (h : Serving A c kept loose s) {rs : RecordStatus}
    (hr : Received s c rs) (ha : rs.Accepts) {its : List Iterator} (hl : Listed s c its)
    (reply : SystemReply) (bytes : Bytes) :
    After (appendToStream reply rs bytes) s
      (fun _ => Outcome A c loose s fun t => Listed t c its ∧ Received t c rs)
      (fun _ => Outcome A c loose s fun t => t.badInterfaceStateDetected = true) := by
  have hid := hr.descriptor ha.1
  simp only [appendToStream, after_bind, after_interfaceCheck, after_get]
  refine ⟨fun hbad => h.outcome hbad, fun _ => ?_⟩
  refine after_cachedOrFind h hid ?_ ?_ fun t ht => .inl ht
  · intro it d hkey hd
    have hserved : Served A c loose s { s with localRequestIter := some it } :=
      served_iterator (hkey ▸ hid) hd
    simp only [after_bind, after_setLocalRequestIter]
    split
    · simp only [after_bind, after_goBad, after_throw]
      refine .inr ⟨⟨hserved.moves.tail (.request 0 .bad), rfl,
        { hserved.frame with }, hserved.cached, hserved.present⟩, rfl⟩
    · rename_i st hst
      obtain ⟨hp, hc⟩ := hr.isOpen ha hst hkey hd
      have same := RequestData.sameRequest_append d st bytes
      have hd' : System.lookup { s with localRequestIter := some it } it = some d := hd
      have hl' : Listed { s with localRequestIter := some it } c its := hl.mono fun _ _ hready => hready
      have hr' : Received { s with localRequestIter := some it } c rs := ⟨hr.descriptor, hr.begins, hr.stream⟩
      simp only [after_bind, after_deref, after_ite, after_pure, after_modify]
      refine ⟨fun e he => ⟨fun _ => .inr ⟨hserved, hl', hr'⟩, fun _ => ?_⟩, fun hnone => ?_⟩
      · obtain rfl : d = e := Option.some.inj (hd'.symm.trans he)
        have complete := fun hall => allComplete_append (d := d) hall st bytes
        refine .inr ⟨served_touch hserved (hkey ▸ hid) hd' same complete,
          hl'.touch hd' same complete, hr.descriptor, ?_, ?_⟩
        · intro ha' htype
          rw [htype] at hst
          cases hst
        · intro ha' st' hst'
          refine ⟨d.append st bytes, ?_, same.requestStatus.trans hp, ?_⟩
          · rw [← hkey]
            exact ExtTreeMap.getElem?_insert_self
          · rw [completion_append]
            rw [hst, Option.some.injEq] at hst'
            exact hst' ▸ hc
      · rw [hd'] at hnone
        cases hnone
  · intro _
    simp only [after_bind, after_setLocalRequestIter, after_goBad, after_throw]
    have hserved : Served A c loose s { s with localRequestIter := none } := served_noIterator
    refine .inr ⟨⟨hserved.moves.tail (.request 0 .bad), rfl,
      { hserved.frame with }, hserved.cached, hserved.present⟩, rfl⟩

end AsComponents.Server
