import AsComponents.Cleanup

/-! A call of `AcceptRequests` keeps what the interface thread promises. -/

namespace AsComponents.Server

open Protocol NameValue SocketFunctions AsComponents.Partition Std Critical

variable {A : Assumptions} {s t : System} {c : Nat} {kept : Kept}

/-! ## Construction of request objects -/

/-- The object for the completed request at `it` was constructed. -/
structure Built (s : System) (it : Iterator) (t : System) : Prop where
  move : InterfaceMove none s t
  halt : t.halt = s.halt
  good : t.badInterfaceStateDetected = s.badInterfaceStateDetected
  identifier : t.interfaceIdentifier = s.interfaceIdentifier
  statuses : t.recordStatusMap = s.recordStatusMap
  mutexes : t.writeMutexMap = s.writeMutexMap
  closure : t.applicationClosureRequestSet = s.applicationClosureRequestSet
  held : (t.requests s.nextRequest).held = true
  others : ∀ i, i ≠ s.nextRequest → t.requests i = s.requests i
  map : ∃ d, t.requestMap = s.requestMap.insert it.key d

theorem after_constructRequest {it : Iterator} {d : RequestData} {m : WriteMutex}
    (hgood : s.badInterfaceStateDetected = false) (halive : s.interfaceIdentifier ≠ 0)
    (hd : s.lookup it = some d) (hp : d.requestStatus = .requestPending) (hall : d.AllComplete)
    (hm : s.writeMutexMap[it.key.descriptor]? = some m) :
    After (constructRequest it m.socket) s (fun i t => i = s.nextRequest ∧ Built s it t)
      (fun _ _ => False) := by
  obtain ⟨hdata, hnode⟩ := lookup_eq_some.mp hd
  obtain ⟨id, node⟩ := it
  simp only at hnode hdata hm
  subst hnode
  simp only [constructRequest, after_bind, after_deref, hd]
  refine ⟨fun d' hd' => ?_, by simp⟩
  cases hd'
  rw [after_ite]
  refine ⟨fun ha => ?_, fun _ => ?_⟩
  · rw [hp] at ha
    cases ha
  · simp only [after_bind, after_get, after_set, after_pure]
    refine ⟨trivial, .construct hgood halive hdata hp hall hm, rfl, rfl, rfl, rfl, rfl, rfl, ?_, ?_,
      _, rfl⟩
    · simp
    · intro i hi
      exact Function.update_of_ne hi _ _

/-- What an object that is built leaves of the completed requests. -/
theorem Built.listed {it : Iterator} {its : List Iterator} (h : Built s it t)
    (hl : Listed s c (it :: its)) : Listed t c its := by
  obtain ⟨hnew, hnodup⟩ := List.nodup_cons.mp hl.nodup
  refine ⟨hnodup, fun it' hit => hl.descriptor it' (List.mem_cons_of_mem _ hit), fun it' hit => ?_⟩
  obtain ⟨d, hd, -, -⟩ := hl.ready it List.mem_cons_self
  obtain ⟨d', hd', hp⟩ := hl.ready it' (List.mem_cons_of_mem _ hit)
  have hne : it ≠ it' := by
    rintro rfl
    exact hnew hit
  have hkey := key_ne_of_lookup hd hd' hne
  obtain ⟨hdata', hnode'⟩ := lookup_eq_some.mp hd'
  obtain ⟨e, hmap⟩ := h.map
  refine ⟨d', lookup_eq_some.mpr ⟨?_, hnode'⟩, hp⟩
  rw [hmap]
  grind

/-- A record in progress is not one of a completed request. -/
theorem Built.received {it : Iterator} (h : Built s it t) (hr : s.Ready it) {c : Nat}
    {rs : RecordStatus} (hrs : Received s c rs) : Received t c rs := by
  obtain ⟨d, hd, hp, hall⟩ := hr
  obtain ⟨hdata, hnode⟩ := lookup_eq_some.mp hd
  obtain ⟨e, hmap⟩ := h.map
  refine ⟨hrs.descriptor, fun ha ht => ?_, fun ha st hst => ?_⟩
  · have hnone := hrs.begins ha ht
    rw [hmap]
    grind
  · obtain ⟨d', hd', hp', hc⟩ := hrs.stream ha st hst
    refine ⟨d', ?_, hp', hc⟩
    have hkey : it.key ≠ rs.requestId := by
      intro he
      rw [← he, hdata, Option.some.injEq] at hd'
      subst hd'
      obtain ⟨hin, hda, hpa⟩ := hall
      cases st
      · exact absurd (hpa.symm.trans hc) (by simp)
      · exact absurd (hin.symm.trans hc) (by simp)
      · exact absurd (hda.symm.trans hc) (by simp)
    rw [hmap]
    grind

theorem Built.waiting {it : Iterator} (h : Built s it t) (hi : Invariant s) (hr : s.Ready it)
    (hw : Waiting A kept s) :
    Waiting A ⟨kept.objects ++ [s.nextRequest], kept.connections⟩ t ∧
      s.nextRequest ∉ kept.objects := by
  have hnew : s.nextRequest ∉ kept.objects := by
    intro hmem
    have hheld := hw.held _ hmem
    rw [hi.objects.fresh _ (Nat.le_refl _)] at hheld
    cases hheld
  refine ⟨⟨?_, ?_, ?_, ?_, ?_⟩, hnew⟩
  · rw [h.identifier]
    exact hw.alive
  · intro c rs hrs
    rw [h.statuses] at hrs
    exact h.received hr (hw.received c rs hrs)
  · intro i hi
    rcases List.mem_append.mp hi with hi | hi
    · rw [h.others i fun he => hnew (he ▸ hi)]
      exact hw.held i hi
    · obtain rfl := List.mem_singleton.mp hi
      exact h.held
  · rw [h.mutexes]
    exact hw.connections
  · exact fun hs => (hw.quiet hs).interfaceMove h.move

/-- The interface thread waits with these objects in its vectors, all of them
different. -/
structure Holding (A : Assumptions) (objects connections : List Nat) (s : System) : Prop where
  waiting : Waiting A ⟨objects, connections⟩ s
  nodup : objects.Nodup

/-- What holds of the objects that were constructed for one connection. -/
def Constructed.Held (A : Assumptions) (earlier connections : List Nat) (s : System) :
    Constructed → Prop
  | .all objects => Holding A (earlier ++ objects) connections s
  | .lost objects object => Holding A (earlier ++ objects ++ [object]) connections s
  | .threw _ _ => False

theorem after_constructRequests (reply : SystemReply) {m : WriteMutex} {connections : List Nat}
    (its : List Iterator) (earlier objects : List Nat) (hi : Invariant s)
    (hgood : s.badInterfaceStateDetected = false)
    (hw : Holding A (earlier ++ objects) connections s) (hl : Listed s c its)
    (hm : s.writeMutexMap[c]? = some m) :
    After (constructRequests reply m.socket its objects) s
      (fun r t => InterfaceMoves none s t ∧ t.halt = s.halt ∧ r.Held A earlier connections t)
      (fun _ _ => False) := by
  induction its generalizing s objects with
  | nil => exact ⟨.refl, rfl, hw⟩
  | cons it its ih =>
    have hready := hl.ready it List.mem_cons_self
    obtain ⟨d, hd, hp, hall⟩ := hready
    have hkey : it.key.descriptor = c := hl.descriptor it List.mem_cons_self
    unfold constructRequests
    rw [after_bind, after_tryCatch, after_map]
    refine (after_constructRequest hgood hw.waiting.alive hd hp hall (hkey ▸ hm)).mono ?_
      fun _ _ hf => hf.elim
    rintro _ t ⟨rfl, hbuilt⟩
    obtain ⟨hwaiting, hnew⟩ := hbuilt.waiting hi ⟨d, hd, hp, hall⟩ hw.waiting
    have hnodup : (earlier ++ objects ++ [s.nextRequest]).Nodup := by
      rw [← List.concat_eq_append]
      exact hw.nodup.concat hnew
    have hholding : Holding A (earlier ++ objects ++ [s.nextRequest]) connections t :=
      ⟨hwaiting, hnodup⟩
    have hmoves : InterfaceMoves none s t := .single hbuilt.move
    simp only
    rw [after_ite, after_pure]
    refine ⟨fun _ => ⟨hmoves, hbuilt.halt, hholding⟩, fun _ => ?_⟩
    refine (ih _ (hi.interfaceMove hbuilt.move) (hbuilt.good.trans hgood) ?_ (hbuilt.listed hl)
      (by rw [hbuilt.mutexes]; exact hm)).mono ?_ fun _ _ hf => hf.elim
    · rw [← List.append_assoc]
      exact hholding
    · exact fun r u hu => ⟨hmoves.trans hu.1, hu.2.1.trans hbuilt.halt, hu.2.2⟩

/-! ## Destruction of request objects -/

/-- The interface thread has thrown an exception and holds these objects, all of
them different. -/
structure Abandoning (A : Assumptions) (objects connections : List Nat) (s : System) : Prop where
  left : Left A ⟨objects, connections⟩ s
  nodup : objects.Nodup

theorem Holding.abandoning {objects connections : List Nat} (h : Holding A objects connections s) :
    Abandoning A objects connections s := ⟨h.waiting.left, h.nodup⟩

theorem stable_holding {objects connections : List Nat} :
    Stable A (Holding A objects connections) :=
  fun s t h hr hh => ⟨stable_waiting s t h.waiting hr hh, h.nodup⟩

theorem stable_abandoning {objects connections : List Nat} :
    Stable A (Abandoning A objects connections) :=
  fun s t h hr hh => ⟨stable_left s t h.left hr hh, h.nodup⟩

theorem Abandoning.perm {objects objects' connections : List Nat}
    (h : Abandoning A objects connections s) (hp : objects.Perm objects') :
    Abandoning A objects' connections s :=
  ⟨{ h.left with held := fun i hi => h.left.held i (hp.mem_iff.mpr hi) }, hp.nodup h.nodup⟩

theorem Abandoning.sublist {objects objects' connections : List Nat}
    (h : Abandoning A objects connections s) (hs : objects'.Sublist objects) :
    Abandoning A objects' connections s :=
  ⟨{ h.left with held := fun i hi => h.left.held i (hs.subset hi) }, h.nodup.sublist hs⟩

/-- Fewer objects and connections matter. -/
theorem Left.forget {kept' : Kept} (h : Left A kept s) (ho : ∀ i ∈ kept'.objects, i ∈ kept.objects)
    (hc : ∀ c ∈ kept'.connections, c ∈ kept.connections) : Left A kept' s :=
  { h with
    held := fun i hi => h.held i (ho i hi)
    connections := fun c hc' => h.connections c (hc c hc') }

theorem keeps_destroyRequest {i : Nat} {objects connections : List Nat} :
    Keeps A (Abandoning A (i :: objects) connections) (atomically fun reply => destroyRequest reply i)
      (fun _ => Abandoning A objects connections) (fun _ _ => False) := by
  refine keeps_atomically stable_abandoning fun s reply hi hh hs => ?_
  have hheld := hs.left.held i List.mem_cons_self
  refine (after_destroyRequest hi reply (hi.objects.held_idle i hheld)).mono ?_ ?_
  · intro _ t ht
    obtain ⟨hnew, hnodup⟩ := List.nodup_cons.mp hs.nodup
    have hu := undisturbed_requestMoves hi ht.moved.moves
    refine ⟨.of_moves hh (ht.moved.moves.interface none) ht.halt, fun _ => ⟨?_, hnodup⟩⟩
    refine hs.left.undisturbed hu (fun j hj => ?_) rfl
    have hne : j ≠ i := by
      rintro rfl
      exact hnew hj
    rw [ht.requests, Function.update_of_ne hne]
    exact hs.left.held j (List.mem_cons_of_mem _ hj)
  · rintro _ t ⟨ht, hstop⟩
    refine ⟨⟨⟨none, ht.moves.interface none⟩, ?_⟩, fun hn => ?_⟩
    · rw [hstop]
      simp
    · rw [hstop] at hn
      cases hn

/-- What holds between two calls of `AcceptRequests`. -/
abbrev Between (A : Assumptions) : System → Prop := Left A ⟨[], []⟩

theorem Abandoning.between {objects connections : List Nat}
    (h : Abandoning A objects connections s) : Between A s :=
  h.left.forget (by simp) (by simp)

theorem keeps_destroyRequests (objects connections : List Nat) :
    Keeps A (Abandoning A objects connections) (destroyRequests objects) (fun _ => Between A)
      (fun _ => Between A) := by
  induction objects with
  | nil => exact keeps_pure _ fun s hs => hs.between
  | cons i objects ih =>
    exact (keeps_destroyRequest.mono (fun _ hs => hs) (fun _ _ hs => hs)
      (fun _ _ hf => hf.elim)).bind fun _ => ih

/-! ## Exceptions of `AcceptRequests` -/

/-- Objects are moved to `request_buffer_on_throw_`. -/
theorem after_bufferRequests (reply : SystemReply) (objects : List Nat) (k : Nat)
    (h : Left A kept s) :
    After (bufferRequests reply k objects) s
      (fun unsaved t => (InterfaceMoves none s t ∧ t.halt = s.halt ∧ Left A kept t) ∧
        unsaved <:+ objects) (fun _ _ => False) := by
  induction objects generalizing s k with
  | nil => exact ⟨⟨.refl, rfl, h⟩, List.suffix_refl _⟩
  | cons i objects ih =>
    unfold bufferRequests
    rw [after_ite, after_bind, after_goBad, after_pure, after_bind, after_modify]
    refine ⟨fun _ => ⟨⟨.single (.request 0 .bad), rfl, ?_⟩, List.suffix_refl _⟩, fun _ => ?_⟩
    · exact { h with received := by rintro ⟨⟩, quiet := fun _ => .of_bad rfl }
    · set t : System := { s with requestBufferOnThrow := s.requestBufferOnThrow ++ [i] } with ht
      have hmove : InterfaceMove none s t := .frame fun _ => Iff.rfl
      have hleft : Left A kept t :=
        { h with
          received := fun hg c rs hrs =>
            (h.received hg c rs hrs).imp_left (.congr (by rfl))
          quiet := fun hs => (h.quiet hs).interfaceMove hmove }
      refine (ih (k + 1) hleft).mono ?_ fun _ _ hf => hf
      exact fun _ u hu => ⟨⟨hu.1.1.head hmove, hu.1.2⟩, hu.2.trans (List.suffix_cons i objects)⟩

/-- The connection of the round that threw is scheduled for closure. -/
theorem keeps_scheduleUnfinished {objects connections : List Nat} (hc : c ∈ connections) :
    Keeps A (Abandoning A objects connections)
      (atomicallyAs (.scheduleClosure c) fun reply => do
        if (← get).badInterfaceStateDetected = false then
          if reply.allocationFails 0 then halt .terminated
          insertForClosure reply c)
      (fun _ => Abandoning A objects connections) (fun _ => Abandoning A objects connections) := by
  refine keeps_atomicallyAs stable_abandoning (fun s _ => Label.Plain.promised (l := .scheduleClosure c) trivial s)
    fun s reply hi hh hs hsync => ?_
  rw [after_bind, after_get, after_ite, after_pure]
  refine ⟨fun hgood => ?_, fun _ => ⟨.refl hh, fun _ => hs⟩⟩
  simp only [after_ite, after_bind, after_halt, insertForClosure, after_goBad, after_throw,
    after_modify]
  refine ⟨fun _ => ⟨⟨⟨none, .single (.halt _)⟩, by simp⟩, by simp⟩,
    fun hno => ⟨fun hyes => ?_, fun _ => ?_⟩⟩
  · exact absurd hyes hno
  · set t : System :=
      { s with applicationClosureRequestSet := s.applicationClosureRequestSet.insert c } with ht
    have hmove : InterfaceMove (some c) s t := .schedule (hs.left.connections c hc) (.inr rfl)
    refine ⟨.of_moves hh (.single hmove) rfl, fun _ => ⟨?_, hs.nodup⟩⟩
    exact
      { hs.left with
        received := by
          intro hg c' rs hrs
          rcases hs.left.received hg c' rs hrs with hr | hmem
          · exact .inl (hr.congr (by rfl))
          · refine .inr ?_
            rw [ht]
            simp [hmem]
        quiet := by
          intro hsync'
          have hquiet := ((hs.left.quiet hsync').weaken (some c)).interfaceMove hmove
          exact hquiet.tighten (hsync hsync' c rfl hgood) }

theorem keeps_saveRequests (requests unfinished connections : List Nat) (c : Nat) (e : Failure)
    (hc : unfinished ≠ [] → c ∈ connections) :
    Keeps A (Abandoning A (requests ++ unfinished) connections) (saveRequests requests unfinished c e)
      (fun _ => Between A) (fun _ => Between A) := by
  have hthrow : ∀ e : Failure, Keeps A (Between A) (Program.throw e : Thread (List Nat))
      (fun _ => Between A) (fun _ => Between A) := fun e => keeps_throw e fun _ hs => hs
  unfold saveRequests
  refine Keeps.ite (fun _ => keeps_throw e fun s hs => hs.between) fun _ => ?_
  have hbuffer : Keeps A (Abandoning A (requests ++ unfinished) connections)
      (atomically fun reply => do
        if (← get).badInterfaceStateDetected then
          return (true, requests)
        else
          return (false, ← bufferRequests reply 0 requests) : Thread (Bool × List Nat))
      (fun r s => Abandoning A (requests ++ unfinished) connections s ∧ r.2 <:+ requests)
      (fun _ _ => False) := by
    refine keeps_atomically stable_abandoning fun s reply _ hh hs => ?_
    rw [after_bind, after_get, after_ite, after_pure, after_bind]
    refine ⟨fun _ => ⟨.refl hh, fun _ => ⟨hs, List.suffix_refl _⟩⟩, fun _ => ?_⟩
    refine (after_bufferRequests reply requests 0 hs.left).mono ?_ fun _ _ hf => hf.elim
    rintro unsaved t ⟨ht, hsuffix⟩
    exact ⟨.of_moves hh ht.1 ht.2.1, fun _ => ⟨⟨ht.2.2, hs.nodup⟩, hsuffix⟩⟩
  refine (hbuffer.mono (fun _ hs => hs) (fun _ _ hs => hs) (fun _ _ hf => hf.elim)).bind fun r => ?_
  obtain ⟨bad, unsaved⟩ := r
  have hdestroy : ∀ e : Failure, Keeps A
      (fun s => Abandoning A (requests ++ unfinished) connections s ∧ unsaved <:+ requests)
      (do
        destroyRequests (unsaved ++ unfinished)
        Program.throw e : Thread (List Nat))
      (fun _ => Between A) (fun _ => Between A) := by
    intro e
    refine ((keeps_destroyRequests _ connections).mono (fun s hs => ?_) (fun _ _ hs => hs)
      (fun _ _ hs => hs)).bind fun _ => hthrow e
    exact hs.1.sublist (hs.2.sublist.append (List.Sublist.refl unfinished))
  refine Keeps.ite (fun _ => hdestroy e) fun _ => Keeps.ite (fun _ => hdestroy .badAlloc) fun _ => ?_
  have hrest : Keeps A (Abandoning A (requests ++ unfinished) connections)
      (do
        destroyRequests unfinished
        Program.throw e : Thread (List Nat))
      (fun _ => Between A) (fun _ => Between A) := by
    refine ((keeps_destroyRequests _ connections).mono (fun s hs => ?_) (fun _ _ hs => hs)
      (fun _ _ hs => hs)).bind fun _ => hthrow e
    exact hs.sublist (List.sublist_append_right requests unfinished)
  by_cases hunfinished : unfinished = []
  · rw [if_neg (not_not.mpr hunfinished)]
    exact hrest.mono (fun s hs => hs.1) (fun _ _ hs => hs) (fun _ _ hs => hs)
  · rw [if_pos hunfinished]
    exact ((keeps_scheduleUnfinished (hc hunfinished)).mono (fun s hs => hs.1) (fun _ _ hs => hs)
      (fun _ _ hs => hs.between)).bind fun _ => hrest

/-! ## One connection -/

theorem keeps_acceptFromConnection {earlier connections : List Nat} (hc : c ∈ connections)
    (reads : List ReadResult) :
    Keeps A (Holding A earlier connections) (acceptFromConnection c reads)
      (fun r s => (r.2 = none → Holding A (earlier ++ r.1) connections s) ∧
        Abandoning A (earlier ++ r.1) connections s)
      (fun _ => Abandoning A earlier connections) := by
  refine keeps_of (fun s hs => hs.nodup) fun hnodup => ?_
  have hread : Keeps A (Waiting A ⟨earlier, connections⟩) (readRecords c reads)
      (fun its s => Waiting A ⟨earlier, connections⟩ s ∧ Listed s c its)
      (fun _ => Left A ⟨earlier, connections⟩) := keeps_readRecords hc reads
  unfold acceptFromConnection
  refine (hread.mono (fun s hs => hs.waiting) (fun _ _ hs => hs) (fun _ s hs => ⟨hs, hnodup⟩)).bind
    fun its => ?_
  refine Keeps.ite (fun _ => keeps_pure _ fun s hs => ?_) fun _ => ?_
  · rw [List.append_nil]
    exact ⟨fun _ => ⟨hs.1, hnodup⟩, hs.1.left, hnodup⟩
  refine Keeps.bind (Q := fun r s => Constructed.Held A earlier connections s r) ?_ fun r => ?_
  · refine keeps_atomically (stable_waiting.and (stable_listed its)) fun s reply hi hh hs => ?_
    rw [after_bind, acceptRequestsCheck, after_interfaceCheck]
    refine ⟨fun _ => ⟨.refl hh, fun _ => ⟨hs.1.left, hnodup⟩⟩, fun hgood => ?_⟩
    rw [after_bind, after_get]
    split
    · rename_i hnone
      have hmem := hs.1.connections c hc
      exfalso
      grind
    · rename_i m hm
      have hholding : Holding A (earlier ++ []) connections s := by
        rw [List.append_nil]
        exact ⟨hs.1, hnodup⟩
      refine (after_constructRequests reply its earlier [] hi hgood hholding hs.2 hm).mono ?_
        fun _ _ hf => hf.elim
      exact fun r t ht => ⟨.of_moves hh ht.1 ht.2.1, fun _ => ht.2.2⟩
  cases r with
  | all objects => exact keeps_pure _ fun s hs => ⟨fun _ => hs, hs.abandoning⟩
  | lost objects object =>
    refine (keeps_destroyRequest.mono (fun s hs => ?_) (fun _ _ hs => hs)
      (fun _ _ hf => hf.elim)).bind fun _ => keeps_pure _ fun s hs => ⟨by simp, hs⟩
    exact hs.abandoning.perm (List.perm_append_singleton _ _)
  | threw objects e => exact keeps_absurd fun s hs => hs

/-- The connections that are ready, one after the other. -/
theorem keeps_acceptFromConnections (selected : List (Nat × List ReadResult)) (requests : List Nat) :
    Keeps A (Holding A requests (selected.map (·.1))) (acceptFromConnections selected requests)
      (fun r s => (r.2 = none → Holding A r.1 [] s) ∧
        ∀ objects c e, r.2 = some (objects, c, e) → Abandoning A (r.1 ++ objects) [c] s)
      (fun _ _ => False) := by
  induction selected generalizing requests with
  | nil => exact keeps_pure _ fun s hs => ⟨fun _ => hs, by simp⟩
  | cons r selected ih =>
    obtain ⟨c, reads⟩ := r
    unfold acceptFromConnections
    have hround : Keeps A (Holding A requests (c :: selected.map (·.1)))
        (Program.tryCatch (acceptFromConnection c reads) fun e => return ([], some e))
        (fun r s => (r.2 = none → Holding A (requests ++ r.1) (c :: selected.map (·.1)) s) ∧
          Abandoning A (requests ++ r.1) (c :: selected.map (·.1)) s)
        (fun _ _ => False) := by
      refine (keeps_acceptFromConnection List.mem_cons_self reads).tryCatch fun e => ?_
      refine keeps_pure _ fun s hs => ⟨by simp, ?_⟩
      rw [List.append_nil]
      exact hs
    refine hround.bind fun result => ?_
    obtain ⟨objects, failure⟩ := result
    cases failure with
    | none =>
      refine (ih (requests ++ objects)).mono (fun s hs => ?_) (fun _ _ hs => hs) (fun _ _ hs => hs)
      have hholding := hs.1 rfl
      refine ⟨{ hholding.waiting with connections := fun c' hc' => ?_ }, hholding.nodup⟩
      exact hholding.waiting.connections c' (List.mem_cons_of_mem _ hc')
    | some e =>
      refine keeps_pure _ fun s hs => ⟨by simp, ?_⟩
      rintro _ _ _ ⟨⟩
      refine ⟨hs.2.left.forget (fun _ hi => hi) fun c' hc' => ?_, hs.2.nodup⟩
      obtain rfl := List.mem_singleton.mp hc'
      exact List.mem_cons_self

/-! ## New connections -/

theorem keeps_acceptConnection {objects : List Nat} (c : Nat) (valid : Bool) :
    Keeps A (Holding A objects []) (atomically fun reply => acceptConnection reply c valid)
      (fun _ => Holding A objects []) (fun _ => Abandoning A objects []) := by
  refine keeps_atomically stable_holding fun s reply _ hh hs => ?_
  simp only [acceptConnection, after_bind, after_await, after_get, after_ite, after_pure,
    after_throw, after_set]
  intro hclosed
  refine ⟨fun _ => ⟨.refl hh, fun _ => hs⟩, fun _ => ⟨fun _ => ⟨.refl hh, fun _ => hs.abandoning⟩,
    fun _ => ⟨fun _ => ⟨.refl hh, fun _ => hs.abandoning⟩, fun _ => ?_⟩⟩⟩
  have hmove : InterfaceMove none s { s with
      recordStatusMap := s.recordStatusMap.insert c {}
      writeMutexMap := s.writeMutexMap.insert c { socket := s.nextSocket }
      requestCountMap := s.requestCountMap.insert c 0
      descriptors := s.descriptors.insert c { socket := s.nextSocket }
      nextSocket := s.nextSocket + 1
      log := .registered c s.nextSocket :: s.log } := .register hs.waiting.alive hclosed
  refine ⟨.of_move hh hmove rfl,
    fun _ => ⟨⟨hs.waiting.alive, ?_, hs.waiting.held, by simp, ?_⟩, hs.nodup⟩⟩
  · intro c' rs hrs
    have hrs' : (s.recordStatusMap.insert c {})[c']? = some rs := hrs
    rw [ExtTreeMap.getElem?_insert] at hrs'
    split at hrs'
    · cases hrs'
      exact .empty _ c'
    · exact (hs.waiting.received c' rs hrs').congr (by rfl)
  · exact fun hsync => (hs.waiting.quiet hsync).interfaceMove hmove

theorem keeps_acceptConnections {objects : List Nat} (accepts : List AcceptResult) :
    Keeps A (Holding A objects []) (acceptConnections accepts) (fun _ => Holding A objects [])
      (fun _ => Abandoning A objects []) := by
  induction accepts with
  | nil => exact keeps_pure _ fun s hs => hs
  | cons accept accepts ih =>
    cases accept with
    | accepted c valid => exact (keeps_acceptConnection c valid).bind fun _ => ih
    | failed e => exact keeps_throw _ fun s hs => hs.abandoning

/-! ## The whole call -/

theorem keeps_acceptSelected (connections : List (Nat × List ReadResult)) (others : Nat)
    (accepts : List AcceptResult) :
    Keeps A (Waiting A ⟨[], []⟩) (acceptSelected connections others accepts) (fun _ => Between A)
      (fun _ => Between A) := by
  have hcheck : Keeps A (Waiting A ⟨[], []⟩) (atomically fun _ => acceptRequestsCheck)
      (fun _ => Waiting A ⟨[], []⟩) (fun _ => Between A) := by
    refine keeps_atomically stable_waiting fun s _ _ hh hs => ?_
    rw [acceptRequestsCheck, after_interfaceCheck]
    exact ⟨fun _ => ⟨.refl hh, fun _ => hs.left⟩, fun _ => ⟨.refl hh, fun _ => hs⟩⟩
  have hregistered : Keeps A (Waiting A ⟨[], []⟩)
      (atomically fun _ => return (← get).recordStatusMap.keys)
      (fun registered => Holding A [] registered) (fun _ => Between A) := by
    refine keeps_atomically stable_waiting fun s _ hi hh hs => ?_
    rw [after_bind, after_get, after_pure]
    refine ⟨.refl hh, fun _ => ⟨{ hs with held := by simp, connections := fun c hc => ?_ },
      List.nodup_nil⟩⟩
    exact (hi.tables.recordStatus_iff c).mp (ExtTreeMap.mem_keys.mp hc)
  unfold acceptSelected
  refine hcheck.bind fun _ => hregistered.bind fun registered => ?_
  refine ((keeps_acceptFromConnections _ []).mono (fun s hs => ?_) (fun _ _ hs => hs)
    (fun _ _ hf => hf.elim)).bind fun r => ?_
  · refine ⟨{ hs.waiting with connections := fun c hc => hs.waiting.connections c ?_ }, hs.nodup⟩
    simp only [List.mem_map, List.mem_filterMap, Option.map_eq_some_iff] at hc
    obtain ⟨_, ⟨c', hc', _, _, rfl⟩, rfl⟩ := hc
    exact hc'
  obtain ⟨requests, failure⟩ := r
  cases failure with
  | some unfinished =>
    obtain ⟨unfinished, c, e⟩ := unfinished
    exact (keeps_saveRequests requests unfinished [c] c e fun _ => List.mem_singleton_self c).mono
      (fun s hs => hs.2 unfinished c e rfl) (fun _ _ hs => hs) (fun _ _ hs => hs)
  | none =>
    have hstart : ∀ s, ((requests, (none : Option (List Nat × Nat × Failure))).2 = none →
        Holding A requests [] s) ∧ (∀ objects c e, (requests,
          (none : Option (List Nat × Nat × Failure))).2 = some (objects, c, e) →
            Abandoning A (requests ++ objects) [c] s) → Holding A requests [] s :=
      fun s hs => hs.1 rfl
    refine Keeps.ite (fun _ => ?_) fun _ => keeps_pure _ fun s hs => (hstart s hs).abandoning.between
    refine Keeps.mono ?_ hstart (fun _ _ hs => hs) (fun _ _ hs => hs)
    refine Keeps.tryCatch (((keeps_acceptConnections accepts).mono (fun _ hs => hs) (fun _ _ hs => hs)
      (fun _ _ hs => hs)).bind fun _ => keeps_pure _ fun s hs => hs.abandoning.between) fun e => ?_
    refine (keeps_saveRequests requests [] [] 0 e fun hne => absurd rfl hne).mono (fun s hs => ?_)
      (fun _ _ hs => hs) (fun _ _ hs => hs)
    rw [List.append_nil]
    exact hs

theorem keeps_cleanup :
    Keeps A (Between A) (atomicallyAs .cleanup cleanup)
      (fun _ s => Waiting A ⟨[], []⟩ s ∧ s.Awake) (fun _ => Between A) := by
  refine keeps_atomicallyAs stable_left (fun s hs => ⟨fun _ => ⟨hs.quiet, hs.received⟩, by simp⟩)
    fun s reply hi hh hs _ => ?_
  refine (after_cleanup hi hs.received reply).mono ?_ ?_
  · rintro _ t ⟨ht, hreceived, hclosure, hgood⟩
    refine ⟨.of_moves hh ht.moves ht.halt, fun _ =>
      ⟨⟨?_, hreceived, by simp, by simp, fun hsync => ?_⟩, ?_⟩⟩
    · rw [ht.identifier]
      exact hs.alive
    · exact (hs.quiet hsync).interfaceMoves ht.moves
    · rintro (hne | hbad)
      · exact absurd hclosure hne
      · rw [hgood] at hbad
        cases hbad
  · intro e t ht
    refine ⟨.of_moves hh ht.1.moves ht.1.halt,
      fun _ => ⟨?_, ht.2.1, by simp, by simp, fun hsync => ?_⟩⟩
    · rw [ht.1.identifier]
      exact hs.alive
    · exact (hs.quiet hsync).interfaceMoves ht.1.moves

theorem keeps_acceptRequests :
    Keeps A (Between A) acceptRequests (fun _ => Between A) (fun _ => Between A) := by
  have hbuffered : Keeps A (Between A)
      (atomically fun _ => modifyGet fun s =>
        (s.requestBufferOnThrow, { s with requestBufferOnThrow := [] }))
      (fun _ => Between A) (fun _ => Between A) := by
    refine keeps_atomically stable_left fun s _ _ hh hs => ?_
    have hmove : InterfaceMove none s { s with requestBufferOnThrow := [] } := .frame fun _ => Iff.rfl
    refine ⟨.of_move hh hmove rfl, fun _ => ?_⟩
    exact
      { hs with
        received := fun hg c rs hrs => (hs.received hg c rs hrs).imp_left (.congr (by rfl))
        held := by simp
        quiet := fun hsync => (hs.quiet hsync).interfaceMove hmove }
  have hawake : Stable A System.Awake := fun _ _ hs hr ht => hr.awake hs ht
  unfold acceptRequests
  refine hbuffered.bind fun buffered => Keeps.ite (fun _ => keeps_pure _ fun _ hs => hs) fun _ => ?_
  refine keeps_cleanup.bind fun _ => ?_
  refine Keeps.bind (Q := fun _ => Waiting A ⟨[], []⟩) ?_ fun selected => ?_
  · refine keeps_atomicallyAs (stable_waiting.and hawake) (fun s hs => ⟨by simp, fun _ => hs.2⟩)
      fun s reply _ hh hs _ => ?_
    replace hs := hs.1
    split
    · rw [after_bind, after_goBad, after_throw]
      refine ⟨.of_move hh (.request 0 .bad) rfl, fun _ => ?_⟩
      exact { hs.left with received := by rintro ⟨⟩, quiet := fun _ => .of_bad rfl }
    · exact ⟨.refl hh, fun _ => hs⟩
  split
  · exact keeps_pure _ fun s hs => hs.left
  · exact keeps_throw _ fun s hs => hs.left
  · exact keeps_acceptSelected _ _ _

end AsComponents.Server
