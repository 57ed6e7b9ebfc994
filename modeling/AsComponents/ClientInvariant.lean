import AsComponents.ClientClosing

/-! The invariant of the tables of a client, and what keeps it. -/

namespace AsComponents.Client

open Protocol NameValue SocketFunctions AsComponents.Partition Std Critical

/-! ## Steps that leave the connections as they are -/

/-- Two values of one element of `connection_map_`: the queue of a connection
that is not connected stays empty. -/
structure SameElement (e e' : ConnectionState) : Prop where
  connected : e'.connected = e.connected
  idManager : e'.idManager = e.idManager
  managementQueue : e.connected = false → e.managementQueue = [] → e'.managementQueue = []

/-- No connection is opened or closed and no identifier taken or released;
pending requests may be completed. -/
structure Still (s t : TestFcgiClientInterface) : Prop where
  entries : ∀ k : Nat, Option.Rel SameElement s.connectionMap[k]? t.connectionMap[k]?
  pending : ∀ i, i ∈ t.pendingRequestMap → i ∈ s.pendingRequestMap
  completed : ∀ i, i ∈ t.completedRequestSet ↔
    i ∈ s.completedRequestSet ∨ i ∈ s.pendingRequestMap ∧ i ∉ t.pendingRequestMap
  numberConnected : t.numberConnected = s.numberConnected
  remainingReady : t.remainingReady = s.remainingReady
  nextConnection : t.nextConnection = s.nextConnection
  selectSet : t.selectSet = s.selectSet

theorem Receives.still {s t : TestFcgiClientInterface} (h : Receives s t) : Still s t where
  entries k := rel_mono (h.entries k) fun _ _ hsame =>
    ⟨hsame.connected, hsame.idManager, fun _ hnil => List.suffix_nil.mp (hnil ▸ hsame.managementQueue)⟩
  pending := h.pending
  completed := h.completed
  numberConnected := h.numberConnected
  remainingReady := h.remainingReady
  nextConnection := h.nextConnection
  selectSet := h.selectSet

namespace Still

variable {s t u : TestFcgiClientInterface} {c : Nat} {e : ConnectionState}

theorem refl (s : TestFcgiClientInterface) : Still s s := (Receives.refl s).still

/-- The tables are the same. -/
theorem of_eq (hc : t.connectionMap = s.connectionMap) (hp : t.pendingRequestMap = s.pendingRequestMap)
    (hcompleted : t.completedRequestSet = s.completedRequestSet)
    (hn : t.numberConnected = s.numberConnected) (hr : t.remainingReady = s.remainingReady)
    (hnext : t.nextConnection = s.nextConnection) (hset : t.selectSet = s.selectSet) : Still s t where
  entries k := by
    rw [hc]
    exact (refl s).entries k
  pending i hi := hp ▸ hi
  completed i := by
    rw [hcompleted, hp]
    exact (refl s).completed i
  numberConnected := hn
  remainingReady := hr
  nextConnection := hnext
  selectSet := hset

theorem setConnection {e' : ConnectionState} (he : s.connectionMap[c]? = some e)
    (hsame : SameElement e e') : Still s (s.setConnection c e') :=
  { refl s with
    entries := fun k => by
      rw [TestFcgiClientInterface.getElem?_setConnection]
      split
      · rename_i hk
        rw [hk, he]
        exact .some hsame
      · exact (refl s).entries k }

/-- An element before and after the step. -/
theorem entry (h : Still s t) (he : s.connectionMap[c]? = some e) :
    ∃ e', t.connectionMap[c]? = some e' ∧ SameElement e e' := by
  rcases rel_cases (h.entries c) with ⟨hs, -⟩ | ⟨a, b, hs, ht, hsame⟩
  · rw [he] at hs
    cases hs
  · rw [he] at hs
    cases hs
    exact ⟨b, ht, hsame⟩

theorem entry_back (h : Still s t) {e' : ConnectionState} (he : t.connectionMap[c]? = some e') :
    ∃ e, s.connectionMap[c]? = some e ∧ SameElement e e' := by
  rcases rel_cases (h.entries c) with ⟨-, ht⟩ | ⟨a, b, hs, ht, hsame⟩
  · rw [he] at ht
    cases ht
  · rw [he] at ht
    cases ht
    exact ⟨a, hs, hsame⟩

theorem mem_iff (h : Still s t) (k : Nat) : k ∈ t.connectionMap ↔ k ∈ s.connectionMap := by
  rw [mem_connectionMap_iff, mem_connectionMap_iff]
  constructor
  · rintro ⟨e, he⟩
    obtain ⟨e', he', -⟩ := h.entry_back he
    exact ⟨e', he'⟩
  · rintro ⟨e, he⟩
    obtain ⟨e', he', -⟩ := h.entry he
    exact ⟨e', he'⟩

theorem isConnected (h : Still s t) (k : Nat) : t.isConnected k = s.isConnected k := by
  rw [Bool.eq_iff_iff, isConnected_eq_true_iff, isConnected_eq_true_iff]
  constructor
  · rintro ⟨e, he, hc⟩
    obtain ⟨e', he', hsame⟩ := h.entry_back he
    exact ⟨e', he', hsame.connected ▸ hc⟩
  · rintro ⟨e, he, hc⟩
    obtain ⟨e', he', hsame⟩ := h.entry he
    exact ⟨e', he', hsame.connected.trans hc⟩

theorem trans (h : Still s t) (h' : Still t u) : Still s u where
  entries k := rel_trans (fun _ _ _ h h' => ⟨h'.connected.trans h.connected,
    h'.idManager.trans h.idManager, fun hc hnil =>
      h'.managementQueue (h.connected.trans hc) (h.managementQueue hc hnil)⟩)
    (h.entries k) (h'.entries k)
  pending i hi := h.pending i (h'.pending i hi)
  completed i := by
    have hp := h.pending i
    have hp' := h'.pending i
    rw [h'.completed, h.completed]
    by_cases ht : i ∈ t.pendingRequestMap <;> grind
  numberConnected := h'.numberConnected.trans h.numberConnected
  remainingReady := h'.remainingReady.trans h.remainingReady
  nextConnection := h'.nextConnection.trans h.nextConnection
  selectSet := h'.selectSet.trans h.selectSet

end Still

/-! ## Counting connections -/

theorem mem_connectedDescriptors {s : TestFcgiClientInterface} {c : Nat} :
    c ∈ connectedDescriptors s ↔ s.isConnected c = true := by
  rw [connectedDescriptors, List.mem_filter, ExtTreeMap.mem_keys]
  exact ⟨And.right, fun h => ⟨mem_of_isConnected h, h⟩⟩

/-- Two lists without duplicates that have the same members. -/
theorem length_eq_of_mem_iff {α : Type} {l l' : List α} (hl : l.Nodup) (hl' : l'.Nodup)
    (h : ∀ a, a ∈ l' ↔ a ∈ l) : l'.length = l.length :=
  ((List.perm_ext_iff_of_nodup hl' hl).mpr h).length_eq

/-- Two lists without duplicates, one of which has one member more. -/
theorem length_eq_succ_of_mem_iff {α : Type} {l l' : List α} {a : α} (hl : l.Nodup) (hl' : l'.Nodup)
    (ha : a ∉ l) (h : ∀ b, b ∈ l' ↔ b = a ∨ b ∈ l) : l'.length = l.length + 1 :=
  length_eq_of_mem_iff (l := a :: l) (List.nodup_cons.mpr ⟨ha, hl⟩) hl' fun b => by
    rw [List.mem_cons, h]

theorem nodup_connectedDescriptors (s : TestFcgiClientInterface) : (connectedDescriptors s).Nodup :=
  List.Nodup.filter _ ExtTreeMap.nodup_keys

/-! ## The invariant -/

/-- The tables of a client agree. -/
structure Invariant (s : TestFcgiClientInterface) : Prop where
  completed_entry : ∀ i ∈ s.completedRequestSet, i.descriptor ∈ s.connectionMap
  pending_connected : ∀ i ∈ s.pendingRequestMap, s.isConnected i.descriptor = true
  disconnected : ∀ (c : Nat) (e : ConnectionState), s.connectionMap[c]? = some e →
    e.connected = false → e.managementQueue = [] ∧ s.completedOf c ≠ []
  disjoint : ∀ i ∈ s.completedRequestSet, i ∉ s.pendingRequestMap
  used : ∀ (c : Nat) (e : ConnectionState), s.connectionMap[c]? = some e → ∀ i : UInt16,
    (⟨c, i⟩ ∈ s.completedRequestSet ∨ ⟨c, i⟩ ∈ s.pendingRequestMap) → e.isUsed i = true
  numberConnected : s.numberConnected = (connectedDescriptors s).length

/-- Every identifier in use is that of a pending or completed request, with the
exception of `extra`. -/
def Accounted (extra : Option FcgiRequestIdentifier) (s : TestFcgiClientInterface) : Prop :=
  ∀ (c : Nat) (e : ConnectionState), s.connectionMap[c]? = some e → ∀ i : UInt16,
    e.isUsed i = true →
      ⟨c, i⟩ ∈ s.completedRequestSet ∨ ⟨c, i⟩ ∈ s.pendingRequestMap ∨ extra = some ⟨c, i⟩

theorem not_pendingUnused {s : TestFcgiClientInterface} (h : Invariant s) (c : Nat) :
    ¬ PendingUnused c s := by
  rintro ⟨e, he, i, hi, hic, hunused⟩
  have hself : (⟨c, i.fcgiId⟩ : FcgiRequestIdentifier) = i := by rw [← hic]
  rw [h.used c e he i.fcgiId (.inr (hself ▸ hi))] at hunused
  cases hunused

namespace Invariant

variable {s t : TestFcgiClientInterface} {c : Nat}

theorem initial (limits : SystemLimits) : Invariant { limits := limits } where
  completed_entry i hi := by simp at hi
  pending_connected i hi := by simp at hi
  disconnected c e he := by simp at he
  disjoint i hi := by simp at hi
  used c e he := by simp at he
  numberConnected := rfl

theorem still (h : Invariant s) (hst : Still s t) : Invariant t where
  completed_entry i hi := by
    rw [hst.mem_iff]
    rcases (hst.completed i).mp hi with hi | ⟨hi, -⟩
    · exact h.completed_entry i hi
    · exact mem_of_isConnected (h.pending_connected i hi)
  pending_connected i hi := by
    rw [hst.isConnected]
    exact h.pending_connected i (hst.pending i hi)
  disconnected c e' he' hfree := by
    obtain ⟨e, he, hsame⟩ := hst.entry_back he'
    have hfree' : e.connected = false := hsame.connected.symm.trans hfree
    obtain ⟨hqueue, hcompleted⟩ := h.disconnected c e he hfree'
    refine ⟨hsame.managementQueue hfree' hqueue, fun hnil => hcompleted ?_⟩
    rw [completedOf_eq_nil_iff] at hnil ⊢
    exact fun i hi => hnil i ((hst.completed i).mpr (.inl hi))
  disjoint i hi hp := by
    rcases (hst.completed i).mp hi with hi | ⟨-, hi⟩
    · exact h.disjoint i hi (hst.pending i hp)
    · exact hi hp
  used c e' he' i hi := by
    obtain ⟨e, he, hsame⟩ := hst.entry_back he'
    rw [ConnectionState.isUsed, hsame.idManager]
    refine h.used c e he i ?_
    rcases hi with hi | hi
    · exact ((hst.completed _).mp hi).imp id And.left
    · exact .inr (hst.pending _ hi)
  numberConnected := by
    rw [hst.numberConnected, h.numberConnected]
    have hcount := length_eq_of_mem_iff (nodup_connectedDescriptors s) (nodup_connectedDescriptors t)
      fun k => by rw [mem_connectedDescriptors, mem_connectedDescriptors, hst.isConnected]
    rw [hcount]

end Invariant

theorem Accounted.still {s t : TestFcgiClientInterface} {extra : Option FcgiRequestIdentifier}
    (h : Accounted extra s) (hst : Still s t) : Accounted extra t := by
  intro c e' he' i hused
  obtain ⟨e, he, hsame⟩ := hst.entry_back he'
  rw [ConnectionState.isUsed, hsame.idManager] at hused
  rw [hst.completed]
  rcases h c e he i hused with hi | hi | hi
  · exact .inl (.inl hi)
  · by_cases hp : ⟨c, i⟩ ∈ t.pendingRequestMap
    · exact .inr (.inl hp)
    · exact .inl (.inr ⟨hi, hp⟩)
  · exact .inr (.inr hi)

/-! ## Closing -/

namespace Closed

variable {s t : TestFcgiClientInterface} {c : Nat}

theorem mem_pending_iff (h : Closed c s t) (i : FcgiRequestIdentifier) :
    i ∈ t.pendingRequestMap ↔ i ∈ s.pendingRequestMap ∧ i.descriptor ≠ c := by
  rw [ExtTreeMap.mem_iff_isSome_getElem?, ExtTreeMap.mem_iff_isSome_getElem?, h.pending]
  split <;> simp_all

theorem isConnected_iff (h : Closed c s t) (k : Nat) :
    t.isConnected k = true ↔ s.isConnected k = true ∧ k ≠ c := by
  by_cases hk : k = c
  · subst hk
    simp only [ne_eq, not_true_eq_false, and_false, iff_false, Bool.not_eq_true]
    by_cases hc : s.completedOf k = []
    · rw [TestFcgiClientInterface.isConnected, h.erased hc]
    · obtain ⟨e, e', -, he', hfree, -⟩ := h.kept hc
      rw [TestFcgiClientInterface.isConnected, he']
      exact hfree
  · rw [isConnected_congr (h.others k hk)]
    simp [hk]

/-- The element of the closed connection, when it is kept. -/
theorem entry (h : Closed c s t) {e' : ConnectionState} (he' : t.connectionMap[c]? = some e') :
    s.completedOf c ≠ [] ∧ ∃ e, s.connectionMap[c]? = some e ∧ e'.connected = false ∧
      e'.managementQueue = [] ∧
      ∀ i, e'.isUsed i = (e.isUsed i && decide (⟨c, i⟩ ∉ s.pendingRequestMap)) := by
  have hc : s.completedOf c ≠ [] := by
    intro hnil
    rw [h.erased hnil] at he'
    cases he'
  obtain ⟨e, e'', he, he'', hfree, hqueue, -, hused⟩ := h.kept hc
  obtain rfl : e'' = e' := Option.some.inj (he''.symm.trans he')
  exact ⟨hc, e, he, hfree, hqueue, hused⟩

end Closed

theorem Invariant.closed {s t : TestFcgiClientInterface} {c : Nat} (h : Invariant s)
    (hst : Closed c s t) : Invariant t where
  completed_entry i hi := by
    rw [hst.completed] at hi
    by_cases hic : i.descriptor = c
    · have hne : s.completedOf c ≠ [] := fun hnil => completedOf_eq_nil_iff.mp hnil i hi hic
      obtain ⟨e, e', -, he', -⟩ := hst.kept hne
      exact mem_connectionMap_iff.mpr ⟨e', hic ▸ he'⟩
    · rw [mem_connectionMap_iff, hst.others _ hic, ← mem_connectionMap_iff]
      exact h.completed_entry i hi
  pending_connected i hi := by
    obtain ⟨hi, hic⟩ := (hst.mem_pending_iff i).mp hi
    exact (hst.isConnected_iff _).mpr ⟨h.pending_connected i hi, hic⟩
  disconnected k e' he' hfree := by
    rw [completedOf_congr hst.completed]
    by_cases hk : k = c
    · subst hk
      obtain ⟨hc, e, -, -, hqueue, -⟩ := hst.entry he'
      exact ⟨hqueue, hc⟩
    · exact h.disconnected k e' (hst.others k hk ▸ he') hfree
  disjoint i hi hp := by
    rw [hst.completed] at hi
    exact h.disjoint i hi ((hst.mem_pending_iff i).mp hp).1
  used k e' he' i hi := by
    rw [hst.completed, hst.mem_pending_iff] at hi
    by_cases hk : k = c
    · subst hk
      obtain ⟨-, e, he, -, -, hused⟩ := hst.entry he'
      have hi' : ⟨k, i⟩ ∈ s.completedRequestSet := hi.resolve_right fun hp => hp.2 rfl
      rw [hused, h.used k e he i (.inl hi'), Bool.true_and, decide_eq_true_eq]
      exact h.disjoint _ hi'
    · exact h.used k e' (hst.others k hk ▸ he') i (hi.imp id And.left)
  numberConnected := by
    have hcount : (connectedDescriptors s).length = (connectedDescriptors t).length + 1 := by
      refine length_eq_succ_of_mem_iff (a := c) (nodup_connectedDescriptors t)
        (nodup_connectedDescriptors s) ?_ fun k => ?_
      · rw [mem_connectedDescriptors, hst.isConnected_iff]
        simp
      · rw [mem_connectedDescriptors, mem_connectedDescriptors, hst.isConnected_iff]
        by_cases hk : k = c
        · simp [hk, hst.wasConnected]
        · simp [hk]
    rw [hst.numberConnected, h.numberConnected, hcount]
    omega

/-- Closing a connection loses track of an identifier only when its element is
kept for completed requests. -/
theorem Accounted.closed {s t : TestFcgiClientInterface} {c : Nat}
    {extra : Option FcgiRequestIdentifier} (h : Accounted extra s) (hst : Closed c s t)
    (hextra : ∀ i, extra = some i → i.descriptor = c ∧ s.completedOf c = []) : Accounted none t := by
  intro k e' he' i hused
  rw [hst.completed, hst.mem_pending_iff]
  by_cases hk : k = c
  · subst hk
    obtain ⟨hc, e, he, -, -, hused'⟩ := hst.entry he'
    rw [hused', Bool.and_eq_true, decide_eq_true_eq] at hused
    rcases h k e he i hused.1 with hi | hi | hi
    · exact .inl hi
    · exact absurd hi hused.2
    · exact absurd (hextra _ hi).2 hc
  · rw [hst.others k hk] at he'
    rcases h k e' he' i hused with hi | hi | hi
    · exact .inl hi
    · exact .inr (.inl ⟨hi, hk⟩)
    · exact absurd (hextra _ hi).1 hk

/-! ## Opening -/

namespace Opened

variable {s t : TestFcgiClientInterface} {d : Nat}

theorem isConnected_iff (h : Opened d s t) (k : Nat) :
    t.isConnected k = true ↔ s.isConnected k = true ∨ k = d := by
  by_cases hk : k = d
  · subst hk
    obtain ⟨e, he, -⟩ := h.entry
    simp [TestFcgiClientInterface.isConnected, he]
  · rw [isConnected_congr (h.others k hk)]
    simp [hk]

theorem mem_iff (h : Opened d s t) (k : Nat) :
    k ∈ t.connectionMap ↔ k ∈ s.connectionMap ∨ k = d := by
  by_cases hk : k = d
  · subst hk
    obtain ⟨e, he, -⟩ := h.entry
    simp [mem_connectionMap_iff, he]
  · rw [mem_connectionMap_iff, h.others k hk, ← mem_connectionMap_iff]
    simp [hk]

/-- The identifiers in use are those of the element that was kept. -/
theorem isUsed (h : Opened d s t) {e' : ConnectionState} (he' : t.connectionMap[d]? = some e')
    {i : UInt16} (hused : e'.isUsed i = true) :
    ∃ e, s.connectionMap[d]? = some e ∧ e.isUsed i = true := by
  obtain ⟨e, he, hkept | ⟨-, rfl⟩⟩ := h.entry
  · obtain rfl := Option.some.inj (he.symm.trans he')
    exact ⟨e, hkept, hused⟩
  · obtain rfl := Option.some.inj (he.symm.trans he')
    cases hused

end Opened

theorem Invariant.opened {s t : TestFcgiClientInterface} {d : Nat} (h : Invariant s)
    (hst : Opened d s t) : Invariant t where
  completed_entry i hi := by
    rw [hst.completed] at hi
    exact (hst.mem_iff _).mpr (.inl (h.completed_entry i hi))
  pending_connected i hi := by
    rw [hst.pending] at hi
    exact (hst.isConnected_iff _).mpr (.inl (h.pending_connected i hi))
  disconnected k e' he' hfree := by
    rw [completedOf_congr hst.completed]
    by_cases hk : k = d
    · subst hk
      obtain ⟨e, he, -⟩ := hst.entry
      obtain rfl := Option.some.inj (he.symm.trans he')
      cases hfree
    · exact h.disconnected k e' (hst.others k hk ▸ he') hfree
  disjoint i hi := by
    rw [hst.completed] at hi
    rw [hst.pending]
    exact h.disjoint i hi
  used k e' he' i hi := by
    rw [hst.completed, hst.pending] at hi
    by_cases hk : k = d
    · subst hk
      obtain ⟨e, he, hkept | ⟨hnone, -⟩⟩ := hst.entry
      · obtain rfl := Option.some.inj (he.symm.trans he')
        exact h.used k e hkept i hi
      · have hmem : k ∈ s.connectionMap := hi.elim (h.completed_entry _) fun hp =>
          mem_of_isConnected (h.pending_connected _ hp)
        rw [mem_connectionMap_iff, hnone] at hmem
        exact absurd hmem (by simp)
    · exact h.used k e' (hst.others k hk ▸ he') i hi
  numberConnected := by
    have hcount : (connectedDescriptors t).length = (connectedDescriptors s).length + 1 := by
      refine length_eq_succ_of_mem_iff (a := d) (nodup_connectedDescriptors s)
        (nodup_connectedDescriptors t) ?_ fun k => ?_
      · rw [mem_connectedDescriptors, hst.wasDisconnected]
        simp
      · rw [mem_connectedDescriptors, mem_connectedDescriptors, hst.isConnected_iff, or_comm]
    rw [hst.numberConnected, h.numberConnected, hcount]
    omega

theorem Accounted.opened {s t : TestFcgiClientInterface} {d : Nat}
    {extra : Option FcgiRequestIdentifier} (h : Accounted extra s) (hst : Opened d s t) :
    Accounted extra t := by
  intro k e' he' i hused
  rw [hst.completed, hst.pending]
  by_cases hk : k = d
  · subst hk
    obtain ⟨e, he, hused⟩ := hst.isUsed he' hused
    exact h k e he i hused
  · exact h k e' (hst.others k hk ▸ he') i hused

/-! ## Releasing -/

namespace Freed

variable {s t : TestFcgiClientInterface} {c : Nat} {ids : List FcgiRequestIdentifier}

/-- The element of the connection, when it is kept. -/
theorem kept (h : Freed c ids s t) {e' : ConnectionState} (he' : t.connectionMap[c]? = some e') :
    ∃ e, s.connectionMap[c]? = some e ∧ e'.connected = e.connected ∧
      e'.managementQueue = e.managementQueue ∧ (e.connected = true ∨ t.completedOf c ≠ []) ∧
      ∀ i, e'.isUsed i = (e.isUsed i && decide (⟨c, i⟩ ∉ ids)) := by
  obtain ⟨e, he, ⟨-, -, hnone, -⟩ | ⟨hmore, -, m, hm, hused⟩⟩ := h.entry
  · rw [hnone] at he'
    cases he'
  · obtain rfl := Option.some.inj (hm.symm.trans he')
    exact ⟨e, he, rfl, rfl, hmore, hused⟩

theorem isConnected (h : Freed c ids s t) (k : Nat) : t.isConnected k = s.isConnected k := by
  by_cases hk : k = c
  · subst hk
    obtain ⟨e, he, ⟨hfree, -, hnone, -⟩ | ⟨-, -, m, hm, -⟩⟩ := h.entry
    · rw [TestFcgiClientInterface.isConnected, TestFcgiClientInterface.isConnected, hnone, he]
      exact hfree.symm
    · rw [TestFcgiClientInterface.isConnected, TestFcgiClientInterface.isConnected, hm, he]
  · exact isConnected_congr (h.others k hk)

end Freed

theorem Invariant.freed {s t : TestFcgiClientInterface} {c : Nat} {ids : List FcgiRequestIdentifier}
    (h : Invariant s) (hst : Freed c ids s t) : Invariant t where
  completed_entry i hi := by
    have his := ((hst.completed i).mp hi).1
    by_cases hic : i.descriptor = c
    · obtain ⟨e, he, ⟨-, hnil, -⟩ | ⟨-, -, m, hm, -⟩⟩ := hst.entry
      · exact absurd hic (completedOf_eq_nil_iff.mp hnil i hi)
      · exact mem_connectionMap_iff.mpr ⟨_, hic ▸ hm⟩
    · rw [mem_connectionMap_iff, hst.others _ hic, ← mem_connectionMap_iff]
      exact h.completed_entry i his
  pending_connected i hi := by
    rw [hst.isConnected]
    exact h.pending_connected i (hst.pending ▸ hi)
  disconnected k e' he' hfree := by
    by_cases hk : k = c
    · subst hk
      obtain ⟨e, he, hconnected, hqueue, hmore, -⟩ := hst.kept he'
      rw [hconnected] at hfree
      refine ⟨hqueue.trans (h.disconnected k e he hfree).1, hmore.resolve_left ?_⟩
      simp [hfree]
    · obtain ⟨hqueue, hcompleted⟩ := h.disconnected k e' (hst.others k hk ▸ he') hfree
      refine ⟨hqueue, fun hnil => hcompleted ?_⟩
      rw [completedOf_eq_nil_iff] at hnil ⊢
      intro i hi hik
      refine hnil i ((hst.completed i).mpr ⟨hi, fun hmem => ?_⟩) hik
      exact hk (hik.symm.trans (hst.wasCompleted i hmem).2)
  disjoint i hi := by
    rw [hst.pending]
    exact h.disjoint i ((hst.completed i).mp hi).1
  used k e' he' i hi := by
    rw [hst.completed, hst.pending] at hi
    by_cases hk : k = c
    · subst hk
      obtain ⟨e, he, -, -, -, hused⟩ := hst.kept he'
      rw [hused, h.used k e he i (hi.imp And.left id), Bool.true_and, decide_eq_true_eq]
      rcases hi with hi | hi
      · exact hi.2
      · exact fun hmem => h.disjoint _ (hst.wasCompleted _ hmem).1 hi
    · exact h.used k e' (hst.others k hk ▸ he') i (hi.imp And.left id)
  numberConnected := by
    have hcount := length_eq_of_mem_iff (nodup_connectedDescriptors s) (nodup_connectedDescriptors t)
      fun k => by rw [mem_connectedDescriptors, mem_connectedDescriptors, hst.isConnected]
    rw [hst.numberConnected, h.numberConnected, hcount]

theorem Accounted.freed {s t : TestFcgiClientInterface} {c : Nat} {ids : List FcgiRequestIdentifier}
    {extra : Option FcgiRequestIdentifier} (h : Accounted extra s) (hst : Freed c ids s t) :
    Accounted extra t := by
  intro k e' he' i hused
  rw [hst.completed, hst.pending]
  by_cases hk : k = c
  · subst hk
    obtain ⟨e, he, -, -, -, hused'⟩ := hst.kept he'
    rw [hused', Bool.and_eq_true, decide_eq_true_eq] at hused
    exact (h k e he i hused.1).imp (fun hi => ⟨hi, hused.2⟩) id
  · rcases h k e' (hst.others k hk ▸ he') i hused with hi | hi
    · refine .inl ⟨hi, fun hmem => hk ?_⟩
      exact (hst.wasCompleted _ hmem).2
    · exact .inr hi

end AsComponents.Client
