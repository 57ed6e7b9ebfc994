import AsComponents.InterfaceRules

/-! What the interface thread knows between the sections of a call of
`ReadRecords`, and what each of these sections does. -/

namespace AsComponents.Server

open Protocol NameValue SocketFunctions AsComponents.Partition Std Critical

/-! ## Knowledge about the connection -/

/-- An iterator to a request that was completed and is not assigned. -/
def System.Ready (s : System) (it : Iterator) : Prop :=
  ∃ d, s.lookup it = some d ∧ d.requestStatus = .requestPending ∧ d.AllComplete

/-- The list of completed requests of a connection. -/
structure Listed (s : System) (c : Nat) (its : List Iterator) : Prop where
  nodup : its.Nodup
  descriptor : ∀ it ∈ its, it.key.descriptor = c
  ready : ∀ it ∈ its, s.Ready it

/-- What a section for connection `c` leaves as it was. -/
structure Frame (c : Nat) (s t : System) : Prop where
  identifier : t.interfaceIdentifier = s.interfaceIdentifier
  statuses : t.recordStatusMap = s.recordStatusMap
  mutexes : ∀ c', c' ∈ s.writeMutexMap → c' ∈ t.writeMutexMap
  absent : ∀ id : FcgiRequestIdentifier, id.descriptor ≠ c → s.requestMap[id]? = none →
    t.requestMap[id]? = none
  pending : ∀ (id : FcgiRequestIdentifier) (d : RequestData), id.descriptor ≠ c →
    s.requestMap[id]? = some d → d.requestStatus = .requestPending → t.requestMap[id]? = some d
  held : ∀ i, (s.requests i).held = true → t.requests i = s.requests i

/-- What the interface thread refers to while it serves a connection: the
objects in its vectors and the connections it has still to serve. -/
structure Kept where
  objects : List Nat
  connections : List Nat

/-- What the interface thread knows while it serves connection `c`; the write
mutex of `loose` may be held although the connection is scheduled for
closure. -/
structure Serving (A : Assumptions) (c : Nat) (kept : Kept) (loose : Option Nat)
    (s : System) : Prop where
  alive : s.interfaceIdentifier ≠ 0
  registered : c ∈ s.writeMutexMap
  others : ∀ (c' : Nat) (rs : RecordStatus), c' ≠ c → s.recordStatusMap[c']? = some rs →
    Received s c' rs
  cached : ∀ it, s.localRequestIter = some it → it.key.descriptor = c
  present : A.fresh → s.CachePresent
  held : ∀ i ∈ kept.objects, (s.requests i).held = true
  connections : ∀ c' ∈ kept.connections, c' ∈ s.writeMutexMap
  quiet : A.sync → Quiet loose s

section Knowledge

variable {A : Assumptions} {c : Nat} {kept : Kept} {loose : Option Nat} {s t : System}

theorem Undisturbed.absent (h : Undisturbed s t) {id : FcgiRequestIdentifier}
    (hd : s.requestMap[id]? = none) : t.requestMap[id]? = none := by
  cases he : t.requestMap[id]? with
  | none => rfl
  | some d =>
    rw [h.data id d he] at hd
    cases hd

theorem Interference.frame (h : Interference s t) (c : Nat) : Frame c s t where
  identifier := h.interfaceIdentifier
  statuses := h.recordStatusMap
  mutexes _ := h.mem_writeMutexMap
  absent _ _ := h.absent
  pending id d _ hd hp := h.pending id d hd hp
  held := h.held

theorem Frame.refl (c : Nat) (s : System) : Frame c s s :=
  ⟨rfl, rfl, fun _ h => h, fun _ _ h => h, fun _ _ _ h _ => h, fun _ _ => rfl⟩

theorem Received.frame (h : Frame c s t) {c' : Nat} (hne : c' ≠ c) {rs : RecordStatus}
    (hr : Received s c' rs) : Received t c' rs where
  descriptor := hr.descriptor
  begins ha ht := h.absent _ (hr.descriptor ha.1 ▸ hne) (hr.begins ha ht)
  stream ha st hst := by
    obtain ⟨d, hd, hp, hc⟩ := hr.stream ha st hst
    exact ⟨d, h.pending _ d (hr.descriptor ha.1 ▸ hne) hd hp, hp, hc⟩

theorem Received.undisturbed (h : Undisturbed s t) {rs : RecordStatus} (hr : Received s c rs) :
    Received t c rs where
  descriptor := hr.descriptor
  begins ha ht := h.absent (hr.begins ha ht)
  stream ha st hst := by
    obtain ⟨d, hd, hp, hc⟩ := hr.stream ha st hst
    exact ⟨d, h.pending _ d hd hp, hp, hc⟩

theorem Received.empty (s : System) (c : Nat) : Received s c {} := by
  have hno : ¬ ({} : RecordStatus).IsHeaderComplete := by decide
  exact ⟨fun h => absurd h hno, fun h => absurd h.1 hno, fun h => absurd h.1 hno⟩

theorem Received.agree {rs : RecordStatus} (hr : Received s c rs)
    (h : ∀ id : FcgiRequestIdentifier, id.descriptor = c → t.requestMap[id]? = s.requestMap[id]?) :
    Received t c rs where
  descriptor := hr.descriptor
  begins ha ht := by
    rw [h _ (hr.descriptor ha.1)]
    exact hr.begins ha ht
  stream ha st hst := by
    rw [h _ (hr.descriptor ha.1)]
    exact hr.stream ha st hst

theorem Received.congr (h : t.requestMap = s.requestMap) {rs : RecordStatus}
    (hr : Received s c rs) : Received t c rs :=
  hr.agree fun _ _ => by rw [h]

theorem Listed.congr (h : t.requestMap = s.requestMap) {its : List Iterator}
    (hl : Listed s c its) : Listed t c its := by
  refine ⟨hl.nodup, hl.descriptor, fun it hit => ?_⟩
  obtain ⟨d, hd, hp⟩ := hl.ready it hit
  refine ⟨d, ?_, hp⟩
  rw [lookup_eq_some] at hd ⊢
  rw [h]
  exact hd

theorem System.Ready.interference (h : Interference s t) {it : Iterator} (hr : s.Ready it) :
    t.Ready it := by
  obtain ⟨d, hd, hp, hc⟩ := hr
  obtain ⟨hd, hn⟩ := lookup_eq_some.mp hd
  exact ⟨d, lookup_eq_some.mpr ⟨h.pending _ d hd hp, hn⟩, hp, hc⟩

theorem Listed.nil (s : System) (c : Nat) : Listed s c [] :=
  ⟨.nil, by simp, by simp⟩

theorem Listed.mono {its : List Iterator} (h : Listed s c its)
    (hr : ∀ it ∈ its, s.Ready it → t.Ready it) : Listed t c its :=
  ⟨h.nodup, h.descriptor, fun it hit => hr it hit (h.ready it hit)⟩

/-- Facts about one connection that other threads do not change. -/
theorem stable_of_interference {P : System → Prop}
    (h : ∀ s t, Interference s t → P s → P t) : Stable A P :=
  fun s t hp hr _ => h s t hr.interference hp

theorem stable_listed (its : List Iterator) : Stable A fun s => Listed s c its :=
  stable_of_interference fun _ _ hi hl => hl.mono fun _ _ => System.Ready.interference hi

theorem stable_received (rs : RecordStatus) : Stable A fun s => Received s c rs :=
  stable_of_interference fun _ _ hi hr => hr.undisturbed hi.toUndisturbed

theorem Serving.weaken (h : Serving A c kept none s) (loose : Option Nat) :
    Serving A c kept loose s :=
  { h with quiet := fun hs => (h.quiet hs).weaken loose }

theorem stable_serving : Stable A (Serving A c kept loose) := by
  intro s t h hr _
  have hframe := hr.interference.frame c
  exact
    { alive := by
        rw [hframe.identifier]
        exact h.alive
      registered := hframe.mutexes c h.registered
      others := by
        intro c' rs hne hrs
        rw [hframe.statuses] at hrs
        exact (h.others c' rs hne hrs).frame hframe hne
      cached := by
        rw [hr.interference.localRequestIter]
        exact h.cached
      present := fun hf => hr.present hf (h.present hf)
      held := by
        intro i hi
        rw [hframe.held i (h.held i hi)]
        exact h.held i hi
      connections := fun c' hc' => hframe.mutexes c' (h.connections c' hc')
      quiet := fun hs => hr.interference.quiet loose (h.quiet hs) }

/-- What a section for connection `c` achieves. -/
structure Served (A : Assumptions) (c : Nat) (loose : Option Nat) (s t : System) : Prop where
  moves : InterfaceMoves loose s t
  halt : t.halt = s.halt
  frame : Frame c s t
  cached : ∀ it, t.localRequestIter = some it → it.key.descriptor = c
  present : A.fresh → t.CachePresent

theorem Serving.served (h : Serving A c kept loose s) (hs : Served A c loose s t) :
    Serving A c kept loose t where
  alive := by
    rw [hs.frame.identifier]
    exact h.alive
  registered := hs.frame.mutexes c h.registered
  others := by
    intro c' rs hne hrs
    rw [hs.frame.statuses] at hrs
    exact (h.others c' rs hne hrs).frame hs.frame hne
  cached := hs.cached
  present := hs.present
  held := by
    intro i hi
    rw [hs.frame.held i (h.held i hi)]
    exact h.held i hi
  connections c' hc' := hs.frame.mutexes c' (h.connections c' hc')
  quiet hsync := (h.quiet hsync).interfaceMoves hs.moves

/-- The process stopped, not because of the cached iterator. -/
structure Halted (A : Assumptions) (s t : System) : Prop where
  moves : InterfaceMoves none s t
  halted : t.halt ≠ none
  sound : A.fresh → t.halt ≠ some .danglingIterator

/-- The outcome of a section: the process stopped, or the section served the
connection and `Q` holds. -/
def Outcome (A : Assumptions) (c : Nat) (loose : Option Nat) (s : System) (Q : System → Prop)
    (t : System) : Prop :=
  Halted A s t ∨ Served A c loose s t ∧ Q t

theorem Outcome.mono {Q Q' : System → Prop} (h : Outcome A c loose s Q t) (hQ : Q t → Q' t) :
    Outcome A c loose s Q' t :=
  h.imp_right (And.imp_right hQ)

theorem halted_of {h : Halt} (hne : A.fresh → h ≠ .danglingIterator) :
    Halted A s { s with halt := some h } :=
  ⟨.single (.halt h), by simp, fun hf he => hne hf (by simpa using he)⟩

/-- A section of a call of `ReadRecords`. -/
theorem keeps_served {α : Type} {l : Label} {f : SystemReply → Section α} {P : System → Prop}
    {Q : α → System → Prop} {E : Failure → System → Prop} (hl : l.Plain) (stable : Stable A P)
    (h : ∀ (s : System) (reply : SystemReply), Invariant s → Serving A c kept loose s → P s →
      (A.sync → ∀ c, l = .scheduleClosure c → s.badInterfaceStateDetected = false →
        s.owner c = none) →
      After (f reply) s (fun a => Outcome A c loose s (Q a)) (fun e => Outcome A c loose s (E e))) :
    Keeps A (fun s => Serving A c kept loose s ∧ P s) (atomicallyAs l f)
      (fun a s => Serving A c kept loose s ∧ Q a s)
      (fun e s => Serving A c kept loose s ∧ E e s) := by
  refine keeps_atomicallyAs (stable_serving.and stable) (fun s _ => hl.promised s) ?_
  intro s reply hi hh hp hsync
  refine (h s reply hi hp.1 hp.2 hsync).mono ?_ ?_
  all_goals
    rintro r t (hstop | ⟨hserved, hq⟩)
    · exact ⟨⟨⟨none, hstop.moves⟩, hstop.sound⟩, fun hn => absurd hn hstop.halted⟩
    · exact ⟨.of_moves hh hserved.moves hserved.halt, fun _ => ⟨hp.1.served hserved, hq⟩⟩

/-- Nothing happened. -/
theorem Serving.refl (h : Serving A c kept loose s) : Served A c loose s s :=
  ⟨.refl, rfl, .refl c s, h.cached, h.present⟩

theorem Serving.outcome (h : Serving A c kept loose s) {Q : System → Prop} (hQ : Q s) :
    Outcome A c loose s Q s :=
  .inr ⟨h.refl, hQ⟩

theorem Outcome.halt {Q : System → Prop} {h : Halt} (hne : A.fresh → h ≠ .danglingIterator) :
    Outcome A c loose s Q { s with halt := some h } :=
  .inl (halted_of hne)

end Knowledge

/-! ## Sections that read -/

section Sections

variable {A : Assumptions} {c : Nat} {kept : Kept} {loose : Option Nat} {s : System}

/-- The process stops at a dangling iterator only if a request thread removed
its element. -/
theorem halted_iterator (h : Serving A c kept loose s) {it : Iterator}
    (hit : s.localRequestIter = some it) (hnone : s.lookup it = none) :
    Halted A s { s with halt := some .danglingIterator } := by
  refine halted_of fun hf => ?_
  obtain ⟨d, hd⟩ := h.present hf it hit
  rw [hnone] at hd
  cases hd

theorem after_cachedOrFind (h : Serving A c kept loose s) {id : FcgiRequestIdentifier}
    (hid : id.descriptor = c) {Q : Option Iterator → System → Prop} {E : Failure → System → Prop}
    (found : ∀ it d, it.key = id → s.lookup it = some d → Q (some it) s)
    (missing : s.requestMap[id]? = none → Q none s)
    (halted : ∀ t, Halted A s t → E .halted t) :
    After (cachedOrFind s.localRequestIter id) s Q E := by
  have hfind : Q (s.find id) s := by
    cases hf : s.find id with
    | none => exact missing (find_eq_none.mp hf)
    | some it =>
      obtain ⟨hkey, d, hd, hn⟩ := find_eq_some.mp hf
      exact found it d hkey (lookup_eq_some.mpr ⟨hkey ▸ hd, hn⟩)
  cases hc : s.localRequestIter with
  | none => simpa only [cachedOrFind, after_bind, after_get, after_pure] using hfind
  | some it =>
    simp only [cachedOrFind, after_bind, after_discard, after_deref, after_ite, after_pure, after_get]
    refine ⟨fun d hd => ⟨fun hsame => ?_, fun _ => hfind⟩, fun hnone => ?_⟩
    · have hkey : it.key = id := by
        have hdescriptor := (h.cached it hc).trans hid.symm
        obtain ⟨⟨descriptor, fcgiId⟩, node⟩ := it
        cases id
        simp only at hsame hdescriptor
        rw [hsame, hdescriptor]
      exact found it d hkey hd
    · exact halted _ (halted_iterator h hc hnone)

/-- The cached iterator is set to one that points to an element. -/
theorem served_iterator {it : Iterator} {d : RequestData} (hkey : it.key.descriptor = c)
    (hd : s.lookup it = some d) :
    Served A c loose s { s with localRequestIter := some it } := by
  refine ⟨.single (.frame fun _ => Iff.rfl), rfl, { Frame.refl c s with }, ?_, fun _ => ?_⟩
  · intro it' he
    cases he
    exact hkey
  · intro it' he
    cases he
    exact ⟨d, hd⟩

theorem served_noIterator : Served A c loose s { s with localRequestIter := none } :=
  ⟨.single (.frame fun _ => Iff.rfl), rfl, { Frame.refl c s with }, by simp, by rintro _ _ ⟨⟩⟩

/-- The outcome of the check of a header. -/
theorem after_validateHeader (hi : Invariant s) (h : Serving A c kept loose s)
    {rs : RecordStatus} (hid : rs.requestId.descriptor = c) :
    After (validateHeader rs) s
      (fun invalidated => Outcome A c loose s fun t =>
        t.requestMap = s.requestMap ∧ Received t c { rs with invalidatedByHeader := invalidated })
      (fun _ => Outcome A c loose s fun t => t.requestMap = s.requestMap) := by
  simp only [validateHeader, after_bind, after_interfaceCheck, after_get]
  refine ⟨fun _ => h.outcome rfl, fun _ => ?_⟩
  refine after_cachedOrFind h hid ?_ ?_ fun t ht => .inl ht
  · intro it d hkey hd
    simp only [after_bind, after_setLocalRequestIter, after_deref]
    have hserved : Served A c loose s { s with localRequestIter := some it } :=
      served_iterator (hkey ▸ hid) hd
    obtain ⟨hdata, -⟩ := lookup_eq_some.mp hd
    rw [hkey] at hdata
    refine ⟨fun d' hd' => ?_, fun hnone => ?_⟩
    · obtain rfl : d = d' := Option.some.inj (hd.symm.trans hd')
      have hstream : ∀ b : Bool, (rs.type = kFcgiBeginRequest → b = true) →
          (∀ st, Stream.ofType rs.type = some st → b = d.completion st) →
          Received { s with localRequestIter := some it } c { rs with invalidatedByHeader := b } := by
        intro b hbegin hst
        refine ⟨fun _ => hid, ?_, ?_⟩
        · intro ha htype
          rw [hbegin htype] at ha
          exact absurd ha.2.1 (by simp)
        · intro ha st hs
          have hb : d.completion st = false := (hst st hs).symm.trans ha.2.1
          refine ⟨d, hdata, ?_, hb⟩
          cases hp : d.requestStatus with
          | requestPending => rfl
          | requestAssigned =>
            obtain ⟨hin, hda, hpa⟩ := hi.objects.complete _ d hdata hp
            cases st
            · exact absurd (hpa.symm.trans hb) (by simp)
            · exact absurd (hin.symm.trans hb) (by simp)
            · exact absurd (hda.symm.trans hb) (by simp)
      split
      · rename_i htype
        refine .inr ⟨hserved, rfl, hstream true (fun _ => rfl) fun st hs => ?_⟩
        rw [htype] at hs
        cases hs
      · rename_i hbegin
        split
        · rename_i htype
          refine .inr ⟨hserved, rfl, hstream _ (fun he => absurd he hbegin) fun st hs => ?_⟩
          rw [htype] at hs
          cases hs
        · split
          · rename_i st hst
            refine .inr ⟨hserved, rfl, hstream _ (fun he => absurd he hbegin) fun st' hs => ?_⟩
            rw [hst] at hs
            cases hs
            rfl
          · rename_i hst
            refine .inr ⟨hserved, rfl, hstream true (fun _ => rfl) fun st' hs => ?_⟩
            rw [hst] at hs
            cases hs
    · rw [show System.lookup { s with localRequestIter := some it } it = s.lookup it from rfl, hd]
        at hnone
      cases hnone
  · intro hnone
    simp only [after_pure]
    refine h.outcome ⟨rfl, fun _ => hid, fun _ _ => hnone, ?_⟩
    intro ha st hs
    have htype : rs.type = kFcgiBeginRequest := by simpa using ha.2.1
    have hs' : Stream.ofType rs.type = some st := hs
    rw [htype] at hs'
    cases hs'

/-! ## Sending records -/

/-- A fact about the requests of the map alone that other threads do not
change. -/
structure Fact (A : Assumptions) (P : System → Prop) : Prop where
  stable : Stable A P
  map : ∀ s t, t.requestMap = s.requestMap → P s → P t

/-- The record ends the request `origin`, when it belongs to one. -/
def System.Purpose (s : System) (c : Nat) (origin : Option Nat) (bytes : Bytes) : Prop :=
  ∀ node, origin = some node → ∃ fcgiId appStatus protocolStatus,
    s.Ending c node fcgiId ∧ bytes = loneEnd fcgiId appStatus protocolStatus

theorem stable_purpose {origin : Option Nat} {bytes : Bytes} :
    Stable A fun s => s.Purpose c origin bytes := by
  refine stable_of_interference fun s t hi hp node ho => ?_
  obtain ⟨f, a, p, he, hb⟩ := hp node ho
  exact ⟨f, a, p, hi.ending he, hb⟩

theorem stable_ending {node : Nat} {fcgiId : UInt16} : Stable A fun s => s.Ending c node fcgiId :=
  stable_of_interference fun _ _ hi he => hi.ending he

theorem fact_true : Fact A fun _ => True := ⟨fun _ _ _ _ _ => trivial, fun _ _ _ _ => trivial⟩

theorem fact_listed (its : List Iterator) : Fact A fun s => Listed s c its :=
  ⟨stable_listed its, fun _ _ hm hl => hl.congr hm⟩

theorem fact_received (rs : RecordStatus) : Fact A fun s => Received s c rs :=
  ⟨stable_received rs, fun _ _ hm hr => hr.congr hm⟩

theorem Serving.tighten (h : Serving A c kept (some c) s) (ho : s.owner c = none) :
    Serving A c kept none s :=
  { h with quiet := fun hs => (h.quiet hs).tighten ho }

theorem served_bad (h : Serving A c kept loose s) :
    Served A c loose s { s with badInterfaceStateDetected := true } :=
  ⟨.single (.request 0 .bad), rfl, { Frame.refl c s with }, h.cached, h.present⟩

theorem after_insertForClosure (h : Serving A c kept loose s)
    (hfree : s.owner c = none ∨ loose = some c) (reply : SystemReply) :
    After (insertForClosure reply c) s
      (fun _ => Outcome A c loose s fun t => t.requestMap = s.requestMap ∧
        c ∈ t.applicationClosureRequestSet ∧ t.owner c = s.owner c)
      (fun _ => Outcome A c loose s fun t => t.requestMap = s.requestMap ∧
        t.badInterfaceStateDetected = true) := by
  simp only [insertForClosure, after_bind, after_ite, after_goBad, after_throw, after_modify]
  refine ⟨fun _ => .inr ⟨served_bad h, rfl, rfl⟩, fun _ => .inr ⟨?_, rfl, ?_, rfl⟩⟩
  · exact ⟨.single (.schedule h.registered hfree), rfl, { Frame.refl c s with }, h.cached, h.present⟩
  · simp

theorem after_sendRecordWrite (hi : Invariant s) (h : Serving A c kept loose s)
    {origin : Option Nat} {bytes : Bytes} (hp : s.Purpose c origin bytes)
    (hrecord : ∃ r : Record, r.encode = bytes) (reply : SystemReply) :
    After (sendRecordWrite reply c origin bytes) s
      (fun _ => Outcome A c loose s fun t => t.requestMap = s.requestMap ∧ t.owner c = none)
      (fun _ => Outcome A c loose s fun t => t.requestMap = s.requestMap) := by
  obtain ⟨m, hm⟩ : ∃ m, s.writeMutexMap[c]? = some m := by
    have hc := h.registered
    exact ⟨s.writeMutexMap[c], by grind⟩
  simp only [sendRecordWrite, after_bind, after_get, hm, after_await]
  intro howner
  have hfree : m.owner = none := (Quiet.owner_eq hm).symm.trans howner
  rw [after_ite, after_pure]
  refine ⟨fun _ => h.outcome ⟨rfl, howner⟩, fun hcorrupt => ?_⟩
  have hintact : m.corrupt = false := by simpa using hcorrupt
  simp only [after_bind, after_get]
  split
  · rename_i k hk
    obtain ⟨r, hr⟩ := hi.tables.mutex_socket c m hm
    rw [hk, Option.some.injEq, Descriptor.mk.injEq] at hr
    obtain ⟨rfl, rfl⟩ := hr
    simp only [after_bind, after_get]
    split
    · simp only [after_wait]
    · rename_i w hw
      have haccepts := writeOnSelect_accepted hw
      have hle := haccepts.length_le
      simp only [after_bind, after_modify, after_ite, after_pure]
      have hoffer : ∀ corrupt, (0 < bytes.length - w.unwritten.length →
          bytes.length - w.unwritten.length < bytes.length → corrupt = true) →
          Offer s c m bytes w.socket (bytes.length - w.unwritten.length) corrupt := by
        intro corrupt hcor
        refine ⟨hm, hfree, hintact, hk, ?_, Nat.sub_le _ _, fun h₁ h₂ => .inl (hcor h₁ h₂)⟩
        rw [← haccepts.unwritten_eq]
        exact haccepts
      have hserved : ∀ corrupt, Offer s c m bytes w.socket (bytes.length - w.unwritten.length) corrupt →
          Outcome A c loose s (fun t => t.requestMap = s.requestMap ∧ t.owner c = none)
            (s.offered c m origin bytes w.socket (bytes.length - w.unwritten.length) corrupt) := by
        intro corrupt ho
        refine .inr ⟨⟨.single (.send ho hrecord hp), rfl, { Frame.refl c s with mutexes := ?_ },
          h.cached, h.present⟩, rfl, ?_⟩
        · intro c' hc'
          simp only [System.offered, System.setWriteMutex, System.setTransmissions, System.setSocket]
          grind
        · rw [Quiet.owner_insert (s := s) rfl, if_pos rfl]
          exact hfree
      have hsame : (s.setSocket m.socket w.socket).setTransmissions m.socket
          (s.transmissions m.socket ++ [⟨origin, bytes, bytes.length - w.unwritten.length⟩]) =
          s.offered c m origin bytes w.socket (bytes.length - w.unwritten.length) false := by
        have hm' : ((s.setSocket m.socket w.socket).setTransmissions m.socket
            (s.transmissions m.socket ++ [⟨origin, bytes, bytes.length - w.unwritten.length⟩])).writeMutexMap[c]? =
              some { m with corrupt := m.corrupt || false } := by
          rw [Bool.or_false]
          exact hm
        exact (setWriteMutex_self hm').symm
      refine ⟨fun hlt => ⟨fun hne => ?_, fun hzero => ?_⟩, fun hwhole => ?_⟩
      · have ho := hserved true (hoffer true fun _ _ => rfl)
        rw [System.offered, hintact] at ho
        exact ho
      · refine Eq.mp (congrArg _ hsame.symm) (hserved false (hoffer false fun hpos => ?_))
        omega
      · refine Eq.mp (congrArg _ hsame.symm) (hserved false (hoffer false fun _ hlt => ?_))
        exact absurd hlt hwhole
  · rw [after_halt]
    exact .halt (by simp)

/-! ## Begin records -/

/-- The connection has room for another request. -/
def System.Room (s : System) (c : Nat) : Prop :=
  ∃ n, s.requestCountMap[c]? = some n ∧ n < s.maximumRequestCountPerConnection

theorem stable_room : Stable A fun s => s.Room c := by
  refine stable_of_interference ?_
  rintro s t hi ⟨n, hn, hlt⟩
  obtain ⟨n', hle, hn'⟩ := hi.count c n hn
  refine ⟨n', hn', ?_⟩
  rw [hi.maximumRequestCount]
  omega

theorem stable_absent {id : FcgiRequestIdentifier} : Stable A fun s => s.requestMap[id]? = none :=
  stable_of_interference fun _ _ hi hn => hi.absent hn

/-- The socket of a connection, as the events of its requests name it. -/
theorem connection_socket (hi : Invariant s) {m : WriteMutex} (hm : s.writeMutexMap[c]? = some m) :
    ((s.descriptors[c]?).map (·.socket)).getD 0 = m.socket := by
  obtain ⟨r, hr⟩ := hi.tables.mutex_socket c m hm
  rw [hr]
  rfl

theorem Serving.mutex (h : Serving A c kept loose s) : ∃ m, s.writeMutexMap[c]? = some m := by
  have hc := h.registered
  exact ⟨s.writeMutexMap[c], by grind⟩

/-- A rejected request is about to be ended. -/
theorem ending_rejected (hi : Invariant s) (id : FcgiRequestIdentifier) {m : WriteMutex}
    (hm : s.writeMutexMap[c]? = some m) :
    System.Ending { s with
      nextNode := s.nextNode + 1
      log := .begun s.nextNode m.socket id.fcgiId false :: s.log } c s.nextNode id.fcgiId := by
  refine ⟨⟨m, hm, ⟨false, List.mem_cons_self⟩, ?_, ?_⟩, .inr ⟨_, _, List.mem_cons_self⟩, ?_⟩
  · rintro n ⟨a, hb⟩
    rcases List.mem_cons.mp hb with he | hb
    · cases he
      exact Nat.le_refl _
    · exact Nat.le_of_lt (hi.begins.lt _ _ _ _ hb).1
  · refine Traces.trace_eq_nil fun hn => ?_
    obtain ⟨f, a, hb⟩ := hi.traces.origin _ _ hn
    exact Nat.lt_irrefl _ (hi.begins.lt _ _ _ _ hb).1
  · intro id' d hd
    exact Nat.ne_of_lt (hi.objects.node_lt id' d hd)

theorem after_checkRequestLimit (hi : Invariant s) (h : Serving A c kept loose s)
    {id : FcgiRequestIdentifier} (hid : id.descriptor = c) (hnew : s.requestMap[id]? = none) :
    After (checkRequestLimit c id) s
      (fun r => Outcome A c loose s fun t => t.requestMap = s.requestMap ∧
        (r = none → t.Room c) ∧ ∀ status node, r = some (status, node) → t.Ending c node id.fcgiId)
      (fun _ => Outcome A c loose s fun t => t.requestMap = s.requestMap) := by
  obtain ⟨m, hm⟩ := h.mutex
  simp only [checkRequestLimit, processCheck, after_bind, after_interfaceCheck, after_get]
  refine ⟨fun _ => h.outcome rfl, fun _ => ?_⟩
  split
  · simp only [after_bind, after_goBad, after_throw]
    exact .inr ⟨served_bad h, rfl⟩
  · rename_i count hcount
    rw [after_bind, after_get, after_ite]
    refine ⟨fun _ => ?_, fun hroom => ?_⟩
    · simp only [after_bind, after_set, after_pure]
      rw [connection_socket hi hm]
      have hmove : InterfaceMove loose s { s with
          nextNode := s.nextNode + 1
          log := .begun s.nextNode m.socket id.fcgiId false :: s.log } :=
        .reject hnew (hid ▸ hm)
      refine .inr ⟨⟨.single hmove, rfl, { Frame.refl c s with }, h.cached, h.present⟩, rfl,
        by simp, ?_⟩
      intro status node he
      cases he
      exact ending_rejected hi id hm
    · simp only [after_pure]
      refine h.outcome ⟨rfl, fun _ => ⟨count, hcount, ?_⟩, by simp⟩
      simp only [not_or, Nat.not_le] at hroom
      exact hroom.1

/-- The count of a connection is incremented. -/
theorem modify_count {n : Nat} (hn : s.requestCountMap[c]? = some n) :
    s.requestCountMap.modify c (· + 1) = s.requestCountMap.insert c (n + 1) := by
  apply ExtTreeMap.ext_getElem?
  intro c'
  rw [ExtTreeMap.getElem?_modify, ExtTreeMap.getElem?_insert]
  split
  · rename_i he
    obtain rfl := LawfulEqCmp.eq_of_compare he
    rw [hn]
    rfl
  · rfl

theorem after_addRequest (hi : Invariant s) (h : Serving A c kept loose s)
    {id : FcgiRequestIdentifier} (hid : id.descriptor = c) (hroom : s.Room c) (reply : SystemReply)
    (role : UInt16) (closeConnection : Bool) :
    After (do
        processCheck
        setLocalRequestIter (← addRequest reply id role closeConnection) : Section Unit) s
      (fun _ => Outcome A c loose s fun t => ∀ (id' : FcgiRequestIdentifier) (d : RequestData),
        s.requestMap[id']? = some d → t.requestMap[id']? = some d)
      (fun _ => Outcome A c loose s fun t => t.requestMap = s.requestMap) := by
  obtain ⟨m, hm⟩ := h.mutex
  obtain ⟨n, hn, hlt⟩ := hroom
  subst hid
  simp only [processCheck, addRequest, after_bind, after_interfaceCheck, after_tryCatch, after_get,
    after_ite, after_throw, after_goBad, hn]
  refine ⟨fun _ => h.outcome rfl, fun _ => ⟨by simp, fun _ => ⟨fun _ => ?_, fun hnew => ?_⟩⟩⟩
  · exact .inr ⟨served_bad h, rfl⟩
  · have hnone : s.requestMap[id]? = none := by
      simpa using hnew
    simp only [after_pure, after_modify, after_setLocalRequestIter]
    refine ⟨fun _ => h.outcome rfl, fun _ => ?_⟩
    rw [connection_socket hi hm, modify_count hn]
    set d : RequestData :=
      { role := role, closeConnection := closeConnection, node := s.nextNode, socket := m.socket }
      with hd
    set t : System := { s with
      requestCountMap := s.requestCountMap.insert id.descriptor (n + 1)
      requestMap := s.requestMap.insert id d
      nextNode := s.nextNode + 1
      log := .begun s.nextNode m.socket id.fcgiId true :: s.log } with ht
    have hself : t.requestMap[id]? = some d := ExtTreeMap.getElem?_insert_self
    have hfind : t.find id = some ⟨id, s.nextNode⟩ := find_eq_some.mpr ⟨rfl, d, hself, rfl⟩
    have hlookup : t.lookup ⟨id, s.nextNode⟩ = some d := lookup_eq_some.mpr ⟨hself, rfl⟩
    have hmove : InterfaceMove loose s t := .beginRequest hnone hm hn hlt
    have hframe : Frame id.descriptor s t := by
      refine { Frame.refl id.descriptor s with absent := ?_, pending := ?_ }
      · intro id' hne hd'
        have hid' : id ≠ id' := by
          rintro rfl
          exact hne rfl
        simp only [ht]
        grind
      · intro id' d' hne hd' _
        have hid' : id ≠ id' := by
          rintro rfl
          exact hne rfl
        simp only [ht]
        grind
    rw [hfind]
    refine .inr ⟨⟨(Relation.ReflTransGen.single hmove).tail (.frame fun _ => Iff.rfl), rfl,
      { hframe with }, ?_, fun _ => ?_⟩, ?_⟩
    · intro it he
      cases he
      rfl
    · intro it he
      cases he
      exact ⟨d, hlookup⟩
    · intro id' d' hd'
      have hid' : id ≠ id' := by
        rintro rfl
        rw [hnone] at hd'
        cases hd'
      show (s.requestMap.insert id d)[id']? = some d'
      grind

/-! ## Requests that the interface ends -/

/-- Iterators to different elements. -/
theorem key_ne_of_lookup {it it' : Iterator} {d d' : RequestData} (hd : s.lookup it = some d)
    (hd' : s.lookup it' = some d') (hne : it ≠ it') : it.key ≠ it'.key := by
  intro hk
  obtain ⟨hdata, hnode⟩ := lookup_eq_some.mp hd
  obtain ⟨hdata', hnode'⟩ := lookup_eq_some.mp hd'
  rw [← hk, hdata, Option.some.injEq] at hdata'
  subst hdata'
  obtain ⟨k, n⟩ := it
  obtain ⟨k', n'⟩ := it'
  simp only at hk hnode hnode'
  subst hk hnode hnode'
  exact hne rfl

/-- What the list keeps when the request of another iterator is removed. -/
theorem Listed.removed {its : List Iterator} (h : Listed s c its) {it : Iterator} {d : RequestData}
    (hd : s.lookup it = some d) (hit : it ∉ its) {t : System}
    (ht : t.requestMap = s.requestMap.erase it.key) : Listed t c its := by
  refine h.mono fun it' hmem hr => ?_
  obtain ⟨d', hd', hp⟩ := hr
  refine ⟨d', ?_, hp⟩
  have hkey : it.key ≠ it'.key := key_ne_of_lookup hd hd' fun he => hit (he ▸ hmem)
  obtain ⟨hdata', hnode'⟩ := lookup_eq_some.mp hd'
  rw [lookup_eq_some, ht]
  exact ⟨by grind, hnode'⟩

theorem Listed.erase {its : List Iterator} (h : Listed s c its) (it : Iterator) :
    Listed s c (its.erase it) :=
  ⟨h.nodup.erase it, fun it' hit => h.descriptor it' (List.mem_of_mem_erase hit),
    fun it' hit => h.ready it' (List.mem_of_mem_erase hit)⟩

theorem trace_congr {t : System} (ht : t.transmissions = s.transmissions) (k n : Nat) :
    t.trace k n = s.trace k n := Traces.trace_eq (by rw [ht])

/-- A request that was removed while it was pending is about to be ended. -/
theorem ending_removed (hi : Invariant s) {id : FcgiRequestIdentifier} {d : RequestData}
    {m : WriteMutex} (hd : s.requestMap[id]? = some d) (hp : d.requestStatus = .requestPending)
    (hm : s.writeMutexMap[id.descriptor]? = some m) {t : System}
    (hmap : t.requestMap = s.requestMap.erase id) (hlog : t.log = .endedByInterface d.node :: s.log)
    (htr : t.transmissions = s.transmissions) (hmutex : t.writeMutexMap = s.writeMutexMap) :
    t.Ending id.descriptor d.node id.fcgiId := by
  obtain ⟨r, hr⟩ := hi.tables.request_socket id d hd
  obtain ⟨r', hr'⟩ := hi.tables.mutex_socket _ m hm
  have hsocket : d.socket = m.socket := by
    rw [hr, Option.some.injEq, Descriptor.mk.injEq] at hr'
    exact hr'.1
  refine ⟨⟨m, hmutex ▸ hm, ?_, ?_, ?_⟩, .inl (hlog ▸ List.mem_cons_self), ?_⟩
  · rw [← hsocket]
    exact ⟨true, hlog ▸ List.mem_cons_of_mem _ (hi.begins.entry id d hd)⟩
  · rintro n ⟨a, hb⟩
    rw [hlog] at hb
    rcases List.mem_cons.mp hb with he | hb
    · cases he
    · rw [← hsocket] at hb
      exact hi.begins.latest id d hd n ⟨a, hb⟩
  · rw [trace_congr htr, ← hsocket]
    exact hi.traces.silent id d hd hp
  · intro id' d' hd' hn
    rw [hmap] at hd'
    have hd'' : s.requestMap[id']? = some d' ∧ id ≠ id' := by grind
    exact hd''.2 (hi.objects.node_inj _ _ d d' hd hd''.1 hn.symm)

/-- What removing a pending request leaves as it was. -/
theorem frame_removed {id : FcgiRequestIdentifier} (hid : id.descriptor = c) {t : System}
    (hmap : t.requestMap = s.requestMap.erase id) (h₁ : t.interfaceIdentifier = s.interfaceIdentifier)
    (h₂ : t.recordStatusMap = s.recordStatusMap) (h₃ : t.writeMutexMap = s.writeMutexMap)
    (h₄ : t.requests = s.requests) : Frame c s t where
  identifier := h₁
  statuses := h₂
  mutexes c' hc' := by
    rw [h₃]
    exact hc'
  absent id' _ hd' := by
    rw [hmap]
    grind
  pending id' d' hne hd' _ := by
    have hid' : id ≠ id' := by
      rintro rfl
      exact hne hid
    rw [hmap]
    grind
  held i _ := by rw [h₄]

/-- The cached iterator is given up when it is the one for the request. -/
def System.forget (s : System) (it : Iterator) : System :=
  { s with localRequestIter := if s.localRequestIter = some it then none else s.localRequestIter }

theorem forget_ne {it it' : Iterator} (h : (s.forget it).localRequestIter = some it') :
    s.localRequestIter = some it' ∧ it' ≠ it := by
  simp only [System.forget] at h
  split at h
  · cases h
  · rename_i hne
    refine ⟨h, ?_⟩
    rintro rfl
    exact hne h

/-- The request of an iterator that the cache does not hold any more is
removed. -/
theorem present_removed (h : Serving A c kept loose s) {it : Iterator} {d : RequestData}
    (hd : s.lookup it = some d) {t : System} (hmap : t.requestMap = s.requestMap.erase it.key)
    (hiter : t.localRequestIter = (s.forget it).localRequestIter) : A.fresh → t.CachePresent := by
  intro hf it' he
  rw [hiter] at he
  obtain ⟨hcache, hne⟩ := forget_ne he
  obtain ⟨d', hd'⟩ := h.present hf it' hcache
  refine ⟨d', ?_⟩
  have hkey : it.key ≠ it'.key := key_ne_of_lookup hd hd' fun he => hne he.symm
  obtain ⟨hdata', hnode'⟩ := lookup_eq_some.mp hd'
  rw [lookup_eq_some, hmap]
  exact ⟨by grind, hnode'⟩

theorem cached_forget (h : Serving A c kept loose s) (it : Iterator) :
    ∀ it', (s.forget it).localRequestIter = some it' → it'.key.descriptor = c :=
  fun it' he => h.cached it' (forget_ne he).1

theorem lookup_setData {it it' : Iterator} {d d₁ d' : RequestData} (hd : s.lookup it = some d)
    (hnode : d'.node = d.node) (hd₁ : s.lookup it' = some d₁) :
    (s.setData it.key d').lookup it' = some d₁ ∧ it.key ≠ it'.key ∨
      (s.setData it.key d').lookup it' = some d' ∧ d₁ = d := by
  obtain ⟨hdata, hn⟩ := lookup_eq_some.mp hd
  obtain ⟨hdata₁, hn₁⟩ := lookup_eq_some.mp hd₁
  by_cases hkey : it.key = it'.key
  · right
    rw [← hkey, hdata, Option.some.injEq] at hdata₁
    subst hdata₁
    refine ⟨lookup_eq_some.mpr ⟨?_, hnode.trans hn₁⟩, rfl⟩
    rw [← hkey]
    exact ExtTreeMap.getElem?_insert_self
  · left
    refine ⟨lookup_eq_some.mpr ⟨?_, hn₁⟩, hkey⟩
    simp only [System.setData]
    grind

/-- The data of a request of the connection changes. -/
theorem served_touch {u : System} (hs : Served A c loose s u) {it : Iterator} {d d' : RequestData}
    (hit : it.key.descriptor = c) (hd : u.lookup it = some d) (same : d.SameRequest d')
    (complete : d.AllComplete → d'.AllComplete) : Served A c loose s (u.setData it.key d') where
  moves := hs.moves.tail (.touch (lookup_eq_some.mp hd).1 same complete)
  halt := hs.halt
  frame :=
    { hs.frame with
      absent := by
        intro id hne hn
        have hid : it.key ≠ id := by
          rintro rfl
          exact hne hit
        have hu := hs.frame.absent id hne hn
        simp only [System.setData]
        grind
      pending := by
        intro id e hne he hp
        have hid : it.key ≠ id := by
          rintro rfl
          exact hne hit
        have hu := hs.frame.pending id e hne he hp
        simp only [System.setData]
        grind }
  cached := hs.cached
  present hf it' he := by
    obtain ⟨d₁, hd₁⟩ := hs.present hf it' he
    rcases lookup_setData hd same.node hd₁ with ⟨h₁, -⟩ | ⟨h₁, -⟩
    · exact ⟨_, h₁⟩
    · exact ⟨_, h₁⟩

theorem ready_touch {it it' : Iterator} {d d' : RequestData} (hd : s.lookup it = some d)
    (same : d.SameRequest d') (complete : d.AllComplete → d'.AllComplete) (hr : s.Ready it') :
    (s.setData it.key d').Ready it' := by
  obtain ⟨d₁, hd₁, hp, hall⟩ := hr
  rcases lookup_setData hd same.node hd₁ with ⟨h₁, -⟩ | ⟨h₁, rfl⟩
  · exact ⟨d₁, h₁, hp, hall⟩
  · exact ⟨d', h₁, same.requestStatus.trans hp, complete hall⟩

theorem after_forget (it : Iterator) {Q : PUnit → System → Prop} {E : Failure → System → Prop} :
    After (if s.localRequestIter = some it then setLocalRequestIter none else pure ⟨⟩) s Q E ↔
      Q ⟨⟩ (s.forget it) := by
  by_cases hc : s.localRequestIter = some it
  · rw [if_pos hc, after_setLocalRequestIter]
    simp [System.forget, hc]
  · rw [if_neg hc, after_pure]
    simp [System.forget, hc]

def System.closing (s : System) (closure : ExtTreeSet Nat) : System :=
  { s with applicationClosureRequestSet := closure }

/-- A pending request was removed by the interface, with the cached iterator
given up and perhaps its connection scheduled for closure. -/
def System.ended (s : System) (it : Iterator) (closure : ExtTreeSet Nat) (count node : Nat) :
    System :=
  (((s.forget it).closing closure).eraseRequest it.key count).record (.endedByInterface node)

theorem served_ended (hi : Invariant s) (h : Serving A c kept (some c) s) {it : Iterator}
    {d : RequestData} {closure : ExtTreeSet Nat} {n : Nat} (hit : it.key.descriptor = c)
    (hd : s.lookup it = some d) (hp : d.requestStatus = .requestPending)
    (hn : s.requestCountMap[it.key.descriptor]? = some (n + 1))
    (hm : InterfaceMoves (some c) s ((s.forget it).closing closure)) :
    Served A c (some c) s (s.ended it closure n d.node) ∧
      (s.ended it closure n d.node).Ending c d.node it.key.fcgiId := by
  obtain ⟨hdata, -⟩ := lookup_eq_some.mp hd
  obtain ⟨m, hmutex⟩ := h.mutex
  refine ⟨⟨hm.tail (.remove true hdata hp hn), rfl, frame_removed hit rfl rfl rfl rfl rfl, ?_,
    present_removed h hd rfl rfl⟩, ?_⟩
  · exact cached_forget h it
  · rw [← hit]
    exact ending_removed hi hdata hp (by rw [hit]; exact hmutex) rfl rfl rfl rfl

/-- The rest of the section for an abort record, once the closure is
scheduled. -/
theorem after_abortPending (hi : Invariant s) (h : Serving A c kept (some c) s) {it : Iterator}
    {d : RequestData} {closure : ExtTreeSet Nat} {its : List Iterator} (hl : Listed s c its)
    (hit : it.key.descriptor = c) (hd : s.lookup it = some d)
    (hp : d.requestStatus = .requestPending) (e : Failure)
    (hs : Served A c (some c) s ((s.forget it).closing closure)) :
    After (do
        if d.AllComplete ∧ it ∉ its then throw e
        removeRequestHelper (some it)
        note (.endedByInterface d.node)
        return (if d.AllComplete then its.erase it else its, some d.node) :
          Section (List Iterator × Option Nat))
      ((s.forget it).closing closure)
      (fun r => Outcome A c (some c) s fun t => Listed t c r.1 ∧
        (r.2 = none → A.sync → Quiet none t) ∧
        ∀ node, r.2 = some node → t.Ending c node it.key.fcgiId)
      (fun _ => Outcome A c (some c) s fun _ => True) := by
  obtain ⟨hdata, hnode⟩ := lookup_eq_some.mp hd
  obtain ⟨n, hn⟩ := count_pos hi hdata
  have hd' : ((s.forget it).closing closure).lookup it = some d := hd
  have hn' : ((s.forget it).closing closure).requestCountMap[it.key.descriptor]? = some (n + 1) := hn
  obtain ⟨hserved, hending⟩ := served_ended hi h hit hd hp hn hs.moves
  simp only [after_bind, after_ite, after_throw]
  refine ⟨fun _ => .inr ⟨hs, trivial⟩, fun _ => ?_⟩
  rw [after_removeRequestHelper hd' hn']
  simp only [after_note, after_pure]
  refine .inr ⟨hserved, ?_, by simp, ?_⟩
  · have hmap : (s.ended it closure n d.node).requestMap = s.requestMap.erase it.key := rfl
    split
    · refine (hl.erase it).removed hd ?_ hmap
      intro hmem
      exact (List.Nodup.mem_erase_iff hl.nodup).mp hmem |>.1 rfl
    · rename_i hopen
      refine hl.removed hd ?_ hmap
      intro hmem
      obtain ⟨d', hd', -, hall⟩ := hl.ready it hmem
      rw [hd, Option.some.injEq] at hd'
      subst hd'
      exact hopen hall
  · intro node he
    cases he
    exact hending

theorem after_abortRequest (hi : Invariant s) (h : Serving A c kept (some c) s)
    {id : FcgiRequestIdentifier} (hid : id.descriptor = c) {its : List Iterator}
    (hl : Listed s c its) (hquiet : A.sync → Quiet none s) (reply : SystemReply) :
    After (abortRequest reply c id its) s
      (fun r => Outcome A c (some c) s fun t => Listed t c r.1 ∧
        (r.2 = none → A.sync → Quiet none t) ∧ ∀ node, r.2 = some node → t.Ending c node id.fcgiId)
      (fun _ => Outcome A c (some c) s fun _ => True) := by
  simp only [abortRequest, processCheck, after_bind, after_interfaceCheck, after_get]
  refine ⟨fun _ => h.outcome trivial, fun _ => ?_⟩
  refine after_cachedOrFind h hid ?_ ?_ fun t ht => .inl ht
  · intro it d hkey hd
    have hit : it.key.descriptor = c := hkey ▸ hid
    have hforget : InterfaceMoves (some c) s (s.forget it) := .single (.frame fun _ => Iff.rfl)
    have hpresent : A.fresh → (s.forget it).CachePresent :=
      fun hf it' he => h.present hf it' (forget_ne he).1
    have hserved : Served A c (some c) s (s.forget it) :=
      ⟨hforget, rfl, { Frame.refl c s with }, cached_forget h it, hpresent⟩
    simp only
    rw [after_bind, after_get, after_ite_bind, after_forget, after_bind, after_deref]
    refine ⟨fun d' hd' => ?_, fun hnone => ?_⟩
    · obtain rfl : d = d' := Option.some.inj (hd.symm.trans hd')
      obtain ⟨hdata, hnode⟩ := lookup_eq_some.mp hd
      rw [after_ite]
      refine ⟨fun hassigned => ?_, fun hpending => ?_⟩
      · have same : d.SameRequest { d with clientSetAbort := true } := ⟨rfl, rfl, rfl, rfl, rfl, rfl⟩
        have hd'' : (s.forget it).lookup it = some d := hd
        simp only [after_bind, after_modify, after_pure]
        refine .inr ⟨served_touch hserved hit hd'' same fun ha => ha, hl.mono fun it' _ hr => ?_,
          fun _ => hquiet, by simp⟩
        exact ready_touch hd'' same (fun ha => ha) hr
      · have hp : d.requestStatus = .requestPending := by
          cases hs : d.requestStatus with
          | requestPending => rfl
          | requestAssigned => exact absurd hs hpending
        rw [after_ite]
        refine ⟨fun _ => ?_, fun _ => ?_⟩
        · rw [after_ite, after_bind, after_throw, after_bind, after_modify]
          refine ⟨fun _ => .inr ⟨hserved, trivial⟩, fun _ => ?_⟩
          subst hkey
          have hmove : InterfaceMove (some c) (s.forget it)
              ((s.forget it).closing ((s.forget it).applicationClosureRequestSet.insert c)) :=
            .schedule h.registered (.inr rfl)
          have hclosing : Served A c (some c) s
              ((s.forget it).closing ((s.forget it).applicationClosureRequestSet.insert c)) :=
            ⟨hforget.tail hmove, rfl, { Frame.refl c s with }, cached_forget h it, hpresent⟩
          exact after_abortPending hi h hl hid hd hp _ hclosing
        · subst hkey
          exact after_abortPending hi h hl hid hd hp _ hserved
    · rw [show (s.forget it).lookup it = s.lookup it from rfl, hd] at hnone
      cases hnone
  · intro _
    simp only [after_pure]
    exact h.outcome ⟨hl, fun _ => hquiet, by simp⟩

end Sections

end AsComponents.Server
