import AsComponents.ClientRules

/-! What the functions that open and close connections and release identifiers
do to the tables of a client. -/

namespace AsComponents.Client

open Protocol NameValue SocketFunctions AsComponents.Partition Std Critical

section

variable {s t u : TestFcgiClientInterface} {c k : Nat} {id : FcgiRequestIdentifier}

/-! ## Observers -/

@[simp] theorem mem_completedOf : id ∈ s.completedOf c ↔ id ∈ s.completedRequestSet ∧ id.descriptor = c := by
  simp [TestFcgiClientInterface.completedOf]

@[simp] theorem mem_pendingOf : id ∈ s.pendingOf c ↔ id ∈ s.pendingRequestMap ∧ id.descriptor = c := by
  simp [TestFcgiClientInterface.pendingOf]

theorem nodup_completedOf (s : TestFcgiClientInterface) (c : Nat) : (s.completedOf c).Nodup := by
  have hdistinct := s.completedRequestSet.distinct_toList
  refine List.Nodup.filter _ (hdistinct.imp ?_)
  rintro a b hab rfl
  exact hab ReflCmp.compare_self

theorem nodup_pendingOf (s : TestFcgiClientInterface) (c : Nat) : (s.pendingOf c).Nodup :=
  List.Nodup.filter _ ExtTreeMap.nodup_keys

theorem completedOf_eq_nil_iff :
    s.completedOf c = [] ↔ ∀ id ∈ s.completedRequestSet, id.descriptor ≠ c := by
  rw [List.eq_nil_iff_forall_not_mem]
  simp only [mem_completedOf, not_and]

theorem completedOf_congr (h : t.completedRequestSet = s.completedRequestSet) :
    t.completedOf c = s.completedOf c := by
  rw [TestFcgiClientInterface.completedOf, h]
  rfl

theorem isConnected_eq_true_iff :
    s.isConnected c = true ↔ ∃ e, s.connectionMap[c]? = some e ∧ e.connected = true := by
  unfold TestFcgiClientInterface.isConnected
  split <;> simp_all

theorem isConnected_congr (h : t.connectionMap[c]? = s.connectionMap[c]?) :
    t.isConnected c = s.isConnected c := by
  rw [TestFcgiClientInterface.isConnected, h]
  rfl

theorem mem_connectionMap_iff : c ∈ s.connectionMap ↔ ∃ e, s.connectionMap[c]? = some e := by
  rw [ExtTreeMap.mem_iff_isSome_getElem?, Option.isSome_iff_exists]

theorem mem_of_isConnected (h : s.isConnected c = true) : c ∈ s.connectionMap := by
  obtain ⟨e, he, -⟩ := isConnected_eq_true_iff.mp h
  exact mem_connectionMap_iff.mpr ⟨e, he⟩

theorem after_eq_entry_iff :
    s.after c = .entry k ↔ k ∈ s.connectionMap ∧ c < k ∧ ∀ j ∈ s.connectionMap, c < j → k ≤ j := by
  have hsorted : s.connectionMap.keys.Pairwise (· < ·) :=
    s.connectionMap.ordered_keys.imp fun h => Nat.compare_eq_lt.mp h
  unfold TestFcgiClientInterface.after
  split
  · rename_i j hj
    obtain ⟨hlt, l, r, hkeys, hbefore⟩ := List.find?_eq_some_iff_append.mp hj
    simp only [decide_eq_true_eq] at hlt
    have hleast : ∀ i ∈ s.connectionMap, c < i → j ≤ i := by
      intro i hi hci
      rw [← ExtTreeMap.mem_keys, hkeys, List.mem_append, List.mem_cons] at hi
      rw [hkeys] at hsorted
      rcases hi with hi | rfl | hi
      · have := hbefore i hi
        simp [hci] at this
      · exact Nat.le_refl _
      · exact Nat.le_of_lt ((List.pairwise_cons.mp (List.pairwise_append.mp hsorted).2.1).1 i hi)
    have hmem : j ∈ s.connectionMap := by
      rw [← ExtTreeMap.mem_keys, hkeys]
      simp
    rw [ConnectionIterator.entry.injEq]
    constructor
    · rintro rfl
      exact ⟨hmem, hlt, hleast⟩
    · rintro ⟨hk, hck, hle⟩
      have := hleast k hk hck
      have := hle j hmem hlt
      omega
  · rename_i hnone
    simp only [reduceCtorEq, false_iff]
    rintro ⟨hk, hck, -⟩
    have := List.find?_eq_none.mp hnone k (ExtTreeMap.mem_keys.mpr hk)
    simp [hck] at this

theorem after_eq_pastTheEnd_iff :
    s.after c = .pastTheEnd ↔ ∀ j ∈ s.connectionMap, j ≤ c := by
  unfold TestFcgiClientInterface.after
  split
  · rename_i j hj
    have hlt := List.find?_some hj
    have hmem := List.mem_of_find?_eq_some hj
    simp only [reduceCtorEq, false_iff]
    intro hall
    have := hall j (ExtTreeMap.mem_keys.mp hmem)
    simp only [decide_eq_true_eq] at hlt
    omega
  · rename_i hnone
    simp only [true_iff]
    intro j hj
    have := List.find?_eq_none.mp hnone j (ExtTreeMap.mem_keys.mpr hj)
    simpa using this

theorem after_ne_erased : s.after c ≠ .erased := by
  unfold TestFcgiClientInterface.after
  split <;> simp

/-- Only the keys of `connection_map_` matter. -/
theorem after_congr (h : ∀ j, j ∈ t.connectionMap ↔ j ∈ s.connectionMap) : t.after c = s.after c := by
  cases hs : s.after c with
  | pastTheEnd =>
    rw [after_eq_pastTheEnd_iff] at hs ⊢
    exact fun j hj => hs j ((h j).mp hj)
  | entry k =>
    rw [after_eq_entry_iff] at hs ⊢
    exact ⟨(h k).mpr hs.1, hs.2.1, fun j hj => hs.2.2 j ((h j).mp hj)⟩
  | erased => exact absurd hs after_ne_erased

end

/-! ## Releasing identifiers -/

section

variable {s t : TestFcgiClientInterface} {c : Nat}

/-- Only the identifiers in use on connection `c` differ: those of `ids` are
released. -/
structure Released (c : Nat) (ids : List FcgiRequestIdentifier) (s t : TestFcgiClientInterface) :
    Prop where
  frame : t = { s with
    connectionMap := t.connectionMap
    pendingRequestMap := t.pendingRequestMap }
  others : ∀ k, k ≠ c → t.connectionMap[k]? = s.connectionMap[k]?
  entry : ∀ e, s.connectionMap[c]? = some e → ∃ m, t.connectionMap[c]? = some { e with idManager := m } ∧
    ∀ i : UInt16, m.isUsed i.toNat = (e.isUsed i && decide (⟨c, i⟩ ∉ ids))

theorem Released.refl (c : Nat) (s : TestFcgiClientInterface) : Released c [] s s where
  frame := rfl
  others _ _ := rfl
  entry e he := ⟨e.idManager, he, fun i => by simp [ConnectionState.isUsed]⟩

theorem toNat_intCast_inj {i j : UInt16} : ((i.toNat : Int) = (j.toNat : Int)) ↔ i = j := by
  rw [Int.natCast_inj, UInt16.toNat_inj]

theorem after_releaseFrom {i : UInt16} {e : ConnectionState} (he : s.connectionMap[c]? = some e)
    (hused : e.isUsed i = true) :
    After (releaseFrom c i) s (fun _ t => Released c [⟨c, i⟩] s t ∧
      t.pendingRequestMap = s.pendingRequestMap) (Thrown fun _ _ => False) := by
  rw [releaseFrom, after_bind]
  refine after_connectionState fun e' he' => ?_
  obtain rfl : e = e' := Option.some.inj (he.symm.trans he')
  split
  · rename_i hnone
    have hsome := IdManager.releaseId_isSome e.idManager i.toNat
    rw [hnone, show e.idManager.isUsed i.toNat = true from hused] at hsome
    cases hsome
  · rename_i m hm
    rw [after_modify]
    refine ⟨⟨rfl, fun k hk => ?_, fun e' he' => ?_⟩, rfl⟩
    · rw [TestFcgiClientInterface.getElem?_setConnection, if_neg hk]
    · obtain rfl : e = e' := Option.some.inj (he.symm.trans he')
      refine ⟨m, by rw [TestFcgiClientInterface.getElem?_setConnection, if_pos rfl], fun j => ?_⟩
      rw [(IdManager.releaseId_spec hm).2]
      simp only [ConnectionState.isUsed, List.mem_singleton, FcgiRequestIdentifier.mk.injEq, true_and]
      rw [Bool.eq_iff_iff]
      simp only [Bool.and_eq_true, bne_iff_ne, ne_eq, toNat_intCast_inj, decide_eq_true_eq]

theorem Released.congr {ids : List FcgiRequestIdentifier} (h : Released c ids s t)
    {u : TestFcgiClientInterface} (hframe : u = { t with pendingRequestMap := u.pendingRequestMap }) :
    Released c ids s u where
  frame := by
    rw [hframe, h.frame]
  others k hk := by
    rw [hframe]
    exact h.others k hk
  entry e he := by
    rw [hframe]
    exact h.entry e he

theorem Released.trans {u : TestFcgiClientInterface} {ids ids' : List FcgiRequestIdentifier}
    (h : Released c ids s t) (h' : Released c ids' t u) : Released c (ids ++ ids') s u where
  frame := by
    rw [h'.frame, h.frame]
  others k hk := (h'.others k hk).trans (h.others k hk)
  entry e he := by
    obtain ⟨m, hm, hused⟩ := h.entry e he
    obtain ⟨m', hm', hused'⟩ := h'.entry _ hm
    refine ⟨m', hm', fun i => ?_⟩
    rw [hused', ConnectionState.isUsed, hused]
    simp only [List.mem_append, not_or, Bool.decide_and, Bool.and_assoc]

/-- The first of several different identifiers in use is released; the others
stay in use. -/
theorem after_releaseFirst {r : FcgiRequestIdentifier} {ids : List FcgiRequestIdentifier}
    {e : ConnectionState} (he : s.connectionMap[c]? = some e) (hnodup : (r :: ids).Nodup)
    (hc : ∀ i ∈ r :: ids, i.descriptor = c) (hused : ∀ i ∈ r :: ids, e.isUsed i.fcgiId = true) :
    After (releaseFrom c r.fcgiId) s (fun _ t =>
      (Released c [r] s t ∧ t.pendingRequestMap = s.pendingRequestMap) ∧
        ∃ e', t.connectionMap[c]? = some e' ∧ ∀ i ∈ ids, e'.isUsed i.fcgiId = true)
      (Thrown fun _ _ => False) := by
  have hself : ∀ i ∈ r :: ids, (⟨c, i.fcgiId⟩ : FcgiRequestIdentifier) = i := fun i hi => by
    rw [← hc i hi]
  refine (after_releaseFrom he (hused r (by simp))).mono (fun _ t ht => ?_) fun _ _ hE => hE
  rw [hself r (by simp)] at ht
  refine ⟨ht, ?_⟩
  obtain ⟨m, hm, hm'⟩ := ht.1.entry e he
  refine ⟨_, hm, fun i hi => ?_⟩
  have hne : i ≠ r := by
    rintro rfl
    exact (List.nodup_cons.mp hnodup).1 hi
  rw [ConnectionState.isUsed, hm', hself i (by simp [hi]), hused i (by simp [hi])]
  simpa using hne

/-- Different identifiers in use can be released one after the other. -/
theorem after_releaseLoop {ids : List FcgiRequestIdentifier} {e : ConnectionState}
    (he : s.connectionMap[c]? = some e) (hnodup : ids.Nodup) (hc : ∀ i ∈ ids, i.descriptor = c)
    (hused : ∀ i ∈ ids, e.isUsed i.fcgiId = true) :
    After (releaseLoop c ids) s (fun _ t => Released c ids s t ∧
      t.pendingRequestMap = s.pendingRequestMap) (Thrown fun _ _ => False) := by
  induction ids generalizing s e with
  | nil => exact ⟨.refl c s, rfl⟩
  | cons r ids ih =>
    rw [releaseLoop, after_bind]
    refine (after_releaseFirst he hnodup hc hused).mono (fun _ t ht => ?_) fun _ _ hE => hE
    obtain ⟨⟨hreleased, hpending⟩, e', he', hused'⟩ := ht
    refine (ih he' (List.nodup_cons.mp hnodup).2 (fun i hi => hc i (by simp [hi])) hused').mono
      (fun _ u hu => ?_) fun _ _ hE => hE
    exact ⟨hreleased.trans hu.1, hu.2.trans hpending⟩

theorem after_erasePendingLoop {ids : List FcgiRequestIdentifier} {e : ConnectionState}
    (he : s.connectionMap[c]? = some e) (hnodup : ids.Nodup) (hc : ∀ i ∈ ids, i.descriptor = c)
    (hused : ∀ i ∈ ids, e.isUsed i.fcgiId = true) :
    After (erasePendingLoop c ids) s (fun _ t => Released c ids s t ∧
      ∀ i, t.pendingRequestMap[i]? = if i ∈ ids then none else s.pendingRequestMap[i]?)
      (Thrown fun _ _ => False) := by
  induction ids generalizing s e with
  | nil => exact ⟨.refl c s, fun i => by simp⟩
  | cons r ids ih =>
    rw [erasePendingLoop, after_bind]
    refine (after_releaseFirst he hnodup hc hused).mono (fun _ t ht => ?_) fun _ _ hE => hE
    obtain ⟨⟨hreleased, hpending⟩, e', he', hused'⟩ := ht
    rw [after_bind, after_modify]
    set u : TestFcgiClientInterface := { t with pendingRequestMap := t.pendingRequestMap.erase r }
    have hu : Released c [r] s u := hreleased.congr rfl
    refine (ih (s := u) he' (List.nodup_cons.mp hnodup).2 (fun i hi => hc i (by simp [hi]))
      hused').mono (fun _ v hv => ?_) fun _ _ hE => hE
    refine ⟨hu.trans hv.1, fun i => ?_⟩
    have herase : u.pendingRequestMap[i]? = if i = r then none else s.pendingRequestMap[i]? := by
      rw [show u.pendingRequestMap = t.pendingRequestMap.erase r from rfl, hpending]
      grind
    rw [hv.2 i, herase]
    grind

end

/-! ## `CloseConnection` -/

/-- `connection_is_ready` where the saved iterator can be dereferenced. -/
def TestFcgiClientInterface.countsReady (s : TestFcgiClientInterface) (c : Nat) : Bool :=
  decide (s.remainingReady > 0) &&
    match s.nextConnection with
    | .entry k => k ≤ c && s.selectSet.contains c
    | _ => false

/-- The tables after connection `c` was closed; the saved iterator is advanced
when `advanced` is set. -/
structure Disconnected (c : Nat) (advanced : Bool) (s t : TestFcgiClientInterface) : Prop where
  completed : t.completedRequestSet = s.completedRequestSet
  events : t.microEventQueue = s.microEventQueue
  selectSet : t.selectSet = s.selectSet
  sockets : t.sockets = s.sockets
  limits : t.limits = s.limits
  others : ∀ k, k ≠ c → t.connectionMap[k]? = s.connectionMap[k]?
  erased : s.completedOf c = [] → t.connectionMap[c]? = none
  kept : s.completedOf c ≠ [] → ∃ e e', s.connectionMap[c]? = some e ∧
    t.connectionMap[c]? = some e' ∧ e'.connected = false ∧ e'.managementQueue = [] ∧
    e'.recordState = e.recordState.onClosure ∧
    ∀ i, e'.isUsed i = (e.isUsed i && decide (⟨c, i⟩ ∉ s.pendingRequestMap))
  pending : ∀ i : FcgiRequestIdentifier,
    t.pendingRequestMap[i]? = if i.descriptor = c then none else s.pendingRequestMap[i]?
  nextConnection : t.nextConnection =
    if advanced then s.after c
    else if s.nextConnection = .entry c ∧ s.completedOf c = [] then .erased else s.nextConnection

/-- Connection `c` was closed. -/
structure Closed (c : Nat) (s t : TestFcgiClientInterface) : Prop extends
    Disconnected c (s.countsReady c && s.nextConnection == .entry c) s t where
  wasConnected : s.isConnected c = true
  numberConnected : t.numberConnected = s.numberConnected - 1
  remainingReady : t.remainingReady =
    if s.countsReady c then s.remainingReady - 1 else s.remainingReady

/-- A pending request of the connection has an identifier that is not in use. -/
def PendingUnused (c : Nat) (s : TestFcgiClientInterface) : Prop :=
  ∃ e, s.connectionMap[c]? = some e ∧ ∃ i ∈ s.pendingRequestMap, i.descriptor = c ∧
    e.isUsed i.fcgiId = false

section

variable {s t : TestFcgiClientInterface} {c : Nat}

theorem after_connectionIsReady {E : Failure → TestFcgiClientInterface → Prop} :
    After (connectionIsReady c) s (fun ready t => ready = s.countsReady c ∧ t = s) (Thrown E) := by
  unfold connectionIsReady TestFcgiClientInterface.countsReady
  rw [after_bind, after_get]
  split
  · rename_i hpos
    cases s.nextConnection with
    | entry k => simp [hpos]
    | pastTheEnd => exact after_halt
    | erased => exact after_halt
  · rename_i hpos
    simp [hpos]

theorem after_disconnectNextIf {b : Bool} {Q : Unit → TestFcgiClientInterface → Prop}
    {E : Failure → TestFcgiClientInterface → Prop}
    (h : Q ⟨⟩ { s with nextConnection := if b then s.after c else s.nextConnection }) :
    After (disconnectNextIf b c) s Q E := by
  unfold disconnectNextIf
  cases b
  · exact h
  · exact h

theorem after_eraseElement {b : Bool} {E : Failure → TestFcgiClientInterface → Prop}
    (hc : s.completedOf c = []) :
    After (eraseElement b c) s (fun _ t => Disconnected c b s t ∧
      t.numberConnected = s.numberConnected ∧ t.remainingReady = s.remainingReady) E := by
  rw [eraseElement, after_bind]
  apply after_disconnectNextIf
  rw [after_modify]
  have hentry : ∀ k, (s.eraseConnection c).connectionMap[k]? =
      if k = c then none else s.connectionMap[k]? := s.getElem?_eraseConnection c
  have hne : s.after c ≠ .entry c := fun h => by
    have := (after_eq_entry_iff.mp h).2.1
    omega
  refine ⟨⟨rfl, rfl, rfl, rfl, rfl, fun k hk => ?_, fun _ => ?_, fun h => absurd hc h, fun i => ?_, ?_⟩,
    rfl, rfl⟩
  · exact (hentry k).trans (if_neg hk)
  · exact (hentry c).trans (if_pos rfl)
  · simp only [ExtTreeMap.getElem?_filter']
    cases s.pendingRequestMap[i]? <;> simp [Option.filter]
  · cases b <;> simp [TestFcgiClientInterface.eraseConnection, hc, hne]

theorem Released.mem_iff {ids : List FcgiRequestIdentifier} (h : Released c ids s t)
    (hc : c ∈ s.connectionMap) (k : Nat) : k ∈ t.connectionMap ↔ k ∈ s.connectionMap := by
  by_cases hk : k = c
  · subst hk
    obtain ⟨e, he⟩ := mem_connectionMap_iff.mp hc
    obtain ⟨m, hm, -⟩ := h.entry e he
    exact ⟨fun _ => hc, fun _ => mem_connectionMap_iff.mpr ⟨_, hm⟩⟩
  · rw [mem_connectionMap_iff, mem_connectionMap_iff, h.others k hk]

theorem after_keepElement {b : Bool} (hc : s.completedOf c ≠ []) :
    After (keepElement b c) s (fun _ t => Disconnected c b s t ∧
      t.numberConnected = s.numberConnected ∧ t.remainingReady = s.remainingReady)
      (Thrown fun _ t => t = s ∧ PendingUnused c s) := by
  rw [keepElement, after_bind, after_get, after_bind]
  refine after_connectionState fun e he => ?_
  rw [after_ite]
  constructor
  · intro hunused _
    simp only [List.all_eq_false, mem_pendingOf, Bool.not_eq_true] at hunused
    obtain ⟨i, ⟨hi, hic⟩, hiu⟩ := hunused
    exact ⟨rfl, e, he, i, hi, hic, hiu⟩
  · intro hused
    simp only [Bool.not_eq_false, List.all_eq_true, mem_pendingOf] at hused
    rw [after_bind, after_modify, after_bind]
    set e₀ : ConnectionState :=
      { e with recordState := e.recordState.onClosure, managementQueue := [], connected := false }
    set s₀ := s.setConnection c e₀
    have hentry : ∀ k, s₀.connectionMap[k]? = if k = c then some e₀ else s.connectionMap[k]? :=
      fun k => s.getElem?_setConnection c k e₀
    have he₀ : s₀.connectionMap[c]? = some e₀ := (hentry c).trans (if_pos rfl)
    refine (after_erasePendingLoop he₀ (nodup_pendingOf s c) (fun i hi => (mem_pendingOf.mp hi).2)
      fun i hi => hused i (mem_pendingOf.mp hi)).mono (fun _ t ht => ?_) fun _ _ hE hne => (hE hne).elim
    obtain ⟨hreleased, hpending⟩ := ht
    apply after_disconnectNextIf
    obtain ⟨m, hm, hm'⟩ := hreleased.entry e₀ he₀
    have hkeys : ∀ k, k ∈ t.connectionMap ↔ k ∈ s.connectionMap := by
      intro k
      rw [hreleased.mem_iff (mem_connectionMap_iff.mpr ⟨e₀, he₀⟩), mem_connectionMap_iff,
        mem_connectionMap_iff, hentry]
      split
      · rename_i hk
        simp [hk, he]
      · rfl
    have hframe := hreleased.frame
    refine ⟨⟨?_, ?_, ?_, ?_, ?_, fun k hk => ?_, fun h => absurd h hc, fun _ => ?_, fun i => ?_, ?_⟩,
      ?_, ?_⟩
    · rw [hframe]
      rfl
    · rw [hframe]
      rfl
    · rw [hframe]
      rfl
    · rw [hframe]
      rfl
    · rw [hframe]
      rfl
    · exact (hreleased.others k hk).trans ((hentry k).trans (if_neg hk))
    · refine ⟨e, _, he, hm, rfl, rfl, rfl, fun i => ?_⟩
      rw [ConnectionState.isUsed, hm']
      simp [ConnectionState.isUsed, e₀]
    · simp only [hpending, mem_pendingOf]
      split
      · rename_i hi
        rw [if_pos hi.2]
      · rename_i hi
        split
        · rename_i hic
          exact ExtTreeMap.getElem?_eq_none fun h => hi ⟨h, hic⟩
        · rfl
    · have hnext : t.nextConnection = s.nextConnection := by
        rw [hframe]
        rfl
      simp [after_congr hkeys, hnext, hc]
    · rw [hframe]
      rfl
    · rw [hframe]
      rfl

theorem after_closeDescriptor (reply : SystemReply) :
    After (closeDescriptor reply c) s (fun b t => b = true ∧ t = s)
      (Thrown fun e t => t = s ∧ ∃ code, e = .systemError code "close") := by
  unfold closeDescriptor
  split
  · exact ⟨rfl, rfl⟩
  · rename_i code _
    rw [after_ite]
    exact ⟨fun _ => ⟨rfl, rfl⟩, fun _ _ => ⟨rfl, code, rfl⟩⟩

/-- `CloseConnection` closes a connection or does nothing. -/
theorem after_closeConnection (reply : SystemReply) :
    After (closeConnection reply c) s
      (fun b t => b = s.isConnected c ∧ (if b then Closed c s t else t = s))
      (Thrown fun e t => Closed c s t ∧ (∃ code, e = .systemError code "close") ∨
        t = s ∧ PendingUnused c s) := by
  rw [closeConnection, after_bind, after_get, after_ite]
  constructor
  · intro hdisconnected
    exact ⟨hdisconnected.symm, rfl⟩
  · intro hconnected
    rw [Bool.not_eq_false] at hconnected
    rw [after_bind]
    refine after_connectionIsReady.mono (fun ready u hu => ?_) fun _ _ hE => hE
    obtain ⟨rfl, rfl⟩ := hu
    -- the tables are done; the counters and `close` remain
    have hrest : ∀ t, Disconnected c (u.countsReady c && u.nextConnection == .entry c) u t ∧
          t.numberConnected = u.numberConnected ∧ t.remainingReady = u.remainingReady →
        After (closeDescriptor reply c) { t with
            remainingReady := if u.countsReady c then t.remainingReady - 1 else t.remainingReady
            numberConnected := t.numberConnected - 1 }
          (fun b t => b = u.isConnected c ∧ (if b then Closed c u t else t = u))
          (Thrown fun e t => Closed c u t ∧ (∃ code, e = .systemError code "close") ∨
            t = u ∧ PendingUnused c u) := by
      rintro t ⟨ht, hnumber, hremaining⟩
      set v : TestFcgiClientInterface := { t with
        remainingReady := if u.countsReady c then t.remainingReady - 1 else t.remainingReady
        numberConnected := t.numberConnected - 1 }
      have hclosed : Closed c u v :=
        { ht with
          wasConnected := hconnected
          numberConnected := by rw [← hnumber]
          remainingReady := by rw [← hremaining] }
      refine (after_closeDescriptor reply).mono (fun b w hw => ?_) fun e w hE hne => .inl ?_
      · obtain ⟨rfl, rfl⟩ := hw
        exact ⟨hconnected.symm, hclosed⟩
      · obtain ⟨rfl, hcode⟩ := hE hne
        exact ⟨hclosed, hcode⟩
    rw [after_ite]
    constructor
    · intro hcompleted
      rw [after_bind]
      refine (after_keepElement hcompleted).mono (fun _ t ht => ?_) fun e t hE hne => .inr (hE hne)
      exact hrest t ht
    · intro hcompleted
      rw [after_bind]
      refine (after_eraseElement (not_not.mp hcompleted)).mono (fun _ t ht => ?_) fun _ _ hE => hE
      exact hrest t ht

end

/-! ## `Connect` -/

/-- Descriptor `d` was connected; an element that was kept for it is used
again. -/
structure Opened (d : Nat) (s t : TestFcgiClientInterface) : Prop where
  completed : t.completedRequestSet = s.completedRequestSet
  pending : t.pendingRequestMap = s.pendingRequestMap
  remainingReady : t.remainingReady = s.remainingReady
  nextConnection : t.nextConnection = s.nextConnection
  selectSet : t.selectSet = s.selectSet
  others : ∀ k, k ≠ d → t.connectionMap[k]? = s.connectionMap[k]?
  wasDisconnected : s.isConnected d = false
  entry : ∃ e, t.connectionMap[d]? = some { e with connected := true } ∧
    (s.connectionMap[d]? = some e ∨ s.connectionMap[d]? = none ∧ e = {})
  numberConnected : t.numberConnected = s.numberConnected + 1

section

variable {s t : TestFcgiClientInterface} {c : Nat}

theorem opened_setConnection {d : Nat} {e : ConnectionState} (hs : s.isConnected d = false)
    (he : s.connectionMap[d]? = some e ∨ s.connectionMap[d]? = none ∧ e = {}) :
    Opened d s { (s.setConnection d { e with connected := true }).setSocket d {} with
      numberConnected := s.numberConnected + 1 } where
  completed := rfl
  pending := rfl
  remainingReady := rfl
  nextConnection := rfl
  selectSet := rfl
  others k hk := (s.getElem?_setConnection d k _).trans (if_neg hk)
  wasDisconnected := hs
  entry := ⟨e, (s.getElem?_setConnection d d _).trans (if_pos rfl), he⟩
  numberConnected := rfl

theorem after_connect (reply : SystemReply) :
    After (connect reply) s
      (fun r t => match r with
        | none => t = s
        | some d => reply.connect = .connected d ∧ Opened d s t)
      (Thrown fun _ t => t = s) := by
  unfold connect
  split
  · rfl
  · exact fun _ => rfl
  · rename_i d hd
    rw [after_ite]
    refine ⟨fun _ _ => rfl, fun _ => ?_⟩
    rw [after_bind, after_get]
    split
    · rename_i e he
      rw [after_ite]
      refine ⟨fun _ _ => rfl, fun hfree => ?_⟩
      rw [after_bind, after_modify, after_bind, after_modify, after_pure]
      refine ⟨hd, opened_setConnection ?_ (.inl he)⟩
      simpa [TestFcgiClientInterface.isConnected, he] using hfree
    · rename_i hnone
      rw [after_bind]
      unfold insertionSucceeds
      split
      · exact fun _ => rfl
      · rw [after_pure, after_bind, after_modify, after_bind, after_modify, after_pure]
        refine ⟨hd, opened_setConnection (e := {}) ?_ (.inr ⟨hnone, rfl⟩)⟩
        simp [TestFcgiClientInterface.isConnected, hnone]

/-! ## `ReleaseId` -/

/-- Completed requests of connection `c` were released.  The element of a
connection that is not connected goes with the last of them. -/
structure Freed (c : Nat) (ids : List FcgiRequestIdentifier) (s t : TestFcgiClientInterface) :
    Prop where
  wasCompleted : ∀ i ∈ ids, i ∈ s.completedRequestSet ∧ i.descriptor = c
  completed : ∀ i, i ∈ t.completedRequestSet ↔ i ∈ s.completedRequestSet ∧ i ∉ ids
  pending : t.pendingRequestMap = s.pendingRequestMap
  numberConnected : t.numberConnected = s.numberConnected
  remainingReady : t.remainingReady = s.remainingReady
  selectSet : t.selectSet = s.selectSet
  others : ∀ k, k ≠ c → t.connectionMap[k]? = s.connectionMap[k]?
  entry : ∃ e, s.connectionMap[c]? = some e ∧
    (e.connected = false ∧ t.completedOf c = [] ∧ t.connectionMap[c]? = none ∧
        t.nextConnection = (if s.nextConnection = .entry c then .erased else s.nextConnection) ∨
      (e.connected = true ∨ t.completedOf c ≠ []) ∧ t.nextConnection = s.nextConnection ∧
        ∃ m, t.connectionMap[c]? = some { e with idManager := m } ∧
          ∀ i : UInt16, m.isUsed i.toNat = (e.isUsed i && decide (⟨c, i⟩ ∉ ids)))

theorem freed_of_erase {ids : List FcgiRequestIdentifier} {e : ConnectionState}
    (he : s.connectionMap[c]? = some e) (hfree : e.connected = false)
    (hids : ∀ i ∈ ids, i ∈ s.completedRequestSet ∧ i.descriptor = c)
    {completed : ExtTreeSet FcgiRequestIdentifier}
    (hcompleted : ∀ i, i ∈ completed ↔ i ∈ s.completedRequestSet ∧ i ∉ ids)
    (hall : ∀ i ∈ s.completedOf c, i ∈ ids) :
    Freed c ids s { s.eraseConnection c with completedRequestSet := completed } where
  wasCompleted := hids
  completed := hcompleted
  pending := rfl
  numberConnected := rfl
  remainingReady := rfl
  selectSet := rfl
  others k hk := (s.getElem?_eraseConnection c k).trans (if_neg hk)
  entry := by
    refine ⟨e, he, .inl ⟨hfree, ?_, (s.getElem?_eraseConnection c c).trans (if_pos rfl), rfl⟩⟩
    rw [completedOf_eq_nil_iff]
    intro i hi hic
    obtain ⟨hmem, hnot⟩ := (hcompleted i).mp hi
    exact hnot (hall i (mem_completedOf.mpr ⟨hmem, hic⟩))

theorem freed_of_released {ids : List FcgiRequestIdentifier} {e : ConnectionState}
    (he : s.connectionMap[c]? = some e) (h : Released c ids s t)
    (hpending : t.pendingRequestMap = s.pendingRequestMap)
    (hids : ∀ i ∈ ids, i ∈ s.completedRequestSet ∧ i.descriptor = c)
    {completed : ExtTreeSet FcgiRequestIdentifier}
    (hcompleted : ∀ i, i ∈ completed ↔ i ∈ s.completedRequestSet ∧ i ∉ ids)
    (hmore : e.connected = true ∨ ∃ i ∈ s.completedOf c, i ∉ ids) :
    Freed c ids s { t with completedRequestSet := completed } := by
  have hframe := h.frame
  obtain ⟨m, hm, hm'⟩ := h.entry e he
  refine ⟨hids, hcompleted, hpending, ?_, ?_, ?_, h.others, e, he, .inr ⟨?_, ?_, m, hm, hm'⟩⟩
  · rw [hframe]
  · rw [hframe]
  · rw [hframe]
  · refine hmore.imp id ?_
    rintro ⟨i, hi, hnot⟩ hnil
    obtain ⟨hmem, hic⟩ := mem_completedOf.mp hi
    exact completedOf_eq_nil_iff.mp hnil i ((hcompleted i).mpr ⟨hmem, hnot⟩) hic
  · rw [hframe]

theorem after_releaseId (id : FcgiRequestIdentifier) :
    After (releaseId id) s
      (fun b t => if b then Freed id.descriptor [id] s t else t = s)
      (Thrown fun _ t => t = s) := by
  rw [releaseId, after_bind, after_get]
  split
  · rfl
  · rename_i e he
    rw [after_ite]
    refine ⟨fun _ => rfl, fun _ => ?_⟩
    rw [after_ite]
    refine ⟨fun hvalid => ?_, fun _ _ => rfl⟩
    simp only [Bool.and_eq_true, Bool.not_eq_true', ExtTreeSet.contains_iff_mem] at hvalid
    obtain ⟨⟨hused, -⟩, hid⟩ := hvalid
    have hids : ∀ i ∈ [id], i ∈ s.completedRequestSet ∧ i.descriptor = id.descriptor := by
      simp [hid]
    have herase : ∀ i, i ∈ s.completedRequestSet.erase id ↔ i ∈ s.completedRequestSet ∧ i ∉ [id] := by
      intro i
      grind
    have hself : (⟨id.descriptor, id.fcgiId⟩ : FcgiRequestIdentifier) = id := rfl
    rw [after_ite]
    constructor
    · intro hlast
      simp only [Bool.and_eq_true, List.all_eq_true, beq_iff_eq, Bool.not_eq_true'] at hlast
      rw [after_bind, after_modify, after_bind, after_modify, after_pure]
      exact freed_of_erase he hlast.2 hids herase fun i hi => by simp [hlast.1 i hi]
    · intro hmore
      rw [after_bind]
      refine (after_releaseFrom he hused).mono (fun _ t ht => ?_) fun _ _ hE hne => (hE hne).elim
      rw [after_bind, after_modify, after_pure]
      have hframe := ht.1.frame
      have hset : t.completedRequestSet = s.completedRequestSet := by rw [hframe]
      rw [hset]
      refine freed_of_released he ht.1 ht.2 hids herase ?_
      simp only [Bool.and_eq_true, List.all_eq_true, beq_iff_eq, Bool.not_eq_true', not_and,
        Bool.not_eq_false] at hmore
      by_cases hall : ∀ i ∈ s.completedOf id.descriptor, i = id
      · exact .inl (hmore hall)
      · simp only [not_forall] at hall
        obtain ⟨i, hi, hne⟩ := hall
        exact .inr ⟨i, hi, by simpa using hne⟩

theorem after_releaseIds (c : Nat) :
    After (releaseIds c) s
      (fun b t => if b then Freed c (s.completedOf c) s t else t = s)
      (Thrown fun _ t => t = s) := by
  rw [releaseIds, after_bind, after_get]
  split
  · rfl
  · rename_i e he
    have hids : ∀ i ∈ s.completedOf c, i ∈ s.completedRequestSet ∧ i.descriptor = c :=
      fun i hi => mem_completedOf.mp hi
    have hfilter : ∀ i, i ∈ (s.completedRequestSet.filter fun id => id.descriptor ≠ c) ↔
        i ∈ s.completedRequestSet ∧ i ∉ s.completedOf c := by
      intro i
      rw [mem_completedOf, ExtTreeSet.mem_filter]
      simp only [ExtTreeSet.get_eq, decide_eq_true_eq, exists_prop]
      tauto
    have hall : ∀ i ∈ s.completedOf c, i ∈ s.completedOf c := fun i hi => hi
    rw [after_bind, releaseElement, after_bind, after_get, after_ite]
    constructor
    · intro hconnected
      rw [after_ite]
      refine ⟨fun _ _ => rfl, fun hused => ?_⟩
      simp only [Bool.not_eq_false, List.all_eq_true] at hused
      refine (after_releaseLoop he (nodup_completedOf s c) (fun i hi => (hids i hi).2) hused).mono
        (fun _ t ht => ?_) fun _ _ hE hne => (hE hne).elim
      rw [after_bind, after_modify, after_pure]
      have hframe := ht.1.frame
      have hset : t.completedRequestSet = s.completedRequestSet := by rw [hframe]
      rw [hset]
      exact freed_of_released he ht.1 ht.2 hids hfilter (.inl hconnected)
    · intro hfree
      rw [after_ite]
      refine ⟨fun _ _ => rfl, fun _ => ?_⟩
      rw [after_modify, after_bind, after_modify, after_pure]
      exact freed_of_erase he (by simpa using hfree) hids hfilter hall

end

end AsComponents.Client
