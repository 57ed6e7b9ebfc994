import AsComponents.ClientConsistency

/-! The tracking state of a client: the saved iterator and the number of ready
connections that remain to be examined. -/

namespace AsComponents.Client

open Protocol NameValue SocketFunctions AsComponents.Partition Std Critical

/-! ## The invariant -/

/-- The ready connections at or above `k`. -/
def readyFrom (s : TestFcgiClientInterface) (k : Nat) : List Nat :=
  (connectedDescriptors s).filter fun c => k ≤ c && s.selectSet.contains c

/-- The saved iterator refers to the element `k`, and ready connections
remain. -/
def TestFcgiClientInterface.Saved (s : TestFcgiClientInterface) (k : Nat) : Prop :=
  0 < s.remainingReady ∧ s.nextConnection = .entry k

/-- While ready connections remain, the saved iterator refers to an element at
or below all of them. -/
structure Tracking (s : TestFcgiClientInterface) : Prop where
  nonneg : 0 ≤ s.remainingReady
  next : 0 < s.remainingReady → ∃ k, s.nextConnection = .entry k ∧ k ∈ s.connectionMap ∧
    ((readyFrom s k).length : Int) = s.remainingReady

section

variable {s t : TestFcgiClientInterface} {c k : Nat}

theorem mem_readyFrom : c ∈ readyFrom s k ↔ k ≤ c ∧ s.isReady c = true := by
  simp only [readyFrom, List.mem_filter, mem_connectedDescriptors, Bool.and_eq_true,
    decide_eq_true_eq, TestFcgiClientInterface.isReady]
  tauto

theorem nodup_readyFrom (s : TestFcgiClientInterface) (k : Nat) : (readyFrom s k).Nodup :=
  (nodup_connectedDescriptors s).filter _

theorem isReady_iff : s.isReady c = true ↔ s.isConnected c = true ∧ c ∈ s.selectSet := by
  rw [TestFcgiClientInterface.isReady, Bool.and_eq_true, ExtTreeSet.contains_iff_mem]

theorem Tracking.of_nonpos (hnonneg : 0 ≤ s.remainingReady) (h : s.remainingReady ≤ 0) :
    Tracking s := ⟨hnonneg, fun hpos => by omega⟩

/-- The same elements, connections and tracking state. -/
structure Aligned (s t : TestFcgiClientInterface) : Prop where
  mem_iff : ∀ k, k ∈ t.connectionMap ↔ k ∈ s.connectionMap
  isConnected : ∀ k, t.isConnected k = s.isConnected k
  remainingReady : t.remainingReady = s.remainingReady
  nextConnection : t.nextConnection = s.nextConnection
  selectSet : t.selectSet = s.selectSet

theorem Still.aligned (h : Still s t) : Aligned s t where
  mem_iff := h.mem_iff
  isConnected := h.isConnected
  remainingReady := h.remainingReady
  nextConnection := h.nextConnection
  selectSet := h.selectSet

theorem Retaken.aligned {newId : UInt16} (h : Retaken c newId s t) : Aligned s t where
  mem_iff := h.mem_iff
  isConnected := h.isConnected
  remainingReady := by rw [h.frame]
  nextConnection := by rw [h.frame]
  selectSet := by rw [h.frame]

namespace Aligned

theorem trans {u : TestFcgiClientInterface} (h : Aligned s t) (h' : Aligned t u) : Aligned s u where
  mem_iff k := (h'.mem_iff k).trans (h.mem_iff k)
  isConnected k := (h'.isConnected k).trans (h.isConnected k)
  remainingReady := h'.remainingReady.trans h.remainingReady
  nextConnection := h'.nextConnection.trans h.nextConnection
  selectSet := h'.selectSet.trans h.selectSet

theorem isReady (h : Aligned s t) (k : Nat) : t.isReady k = s.isReady k := by
  rw [TestFcgiClientInterface.isReady, TestFcgiClientInterface.isReady, h.isConnected, h.selectSet]

theorem saved_iff (h : Aligned s t) (k : Nat) : t.Saved k ↔ s.Saved k := by
  rw [TestFcgiClientInterface.Saved, TestFcgiClientInterface.Saved, h.remainingReady,
    h.nextConnection]

end Aligned

/-- Two states with the same ready connections at or above `k`. -/
theorem length_readyFrom_congr (h : ∀ j, k ≤ j → (t.isReady j = true ↔ s.isReady j = true)) :
    (readyFrom t k).length = (readyFrom s k).length := by
  refine length_eq_of_mem_iff (nodup_readyFrom s k) (nodup_readyFrom t k) fun j => ?_
  rw [mem_readyFrom, mem_readyFrom]
  exact and_congr_right fun hle => h j hle

/-- One ready connection less. -/
theorem length_readyFrom_pred (k' : Nat) (hready : s.isReady c = true) (hle : k ≤ c)
    (h : ∀ j, k' ≤ j ∧ t.isReady j = true ↔ (k ≤ j ∧ s.isReady j = true) ∧ j ≠ c) :
    (readyFrom s k).length = (readyFrom t k').length + 1 := by
  refine length_eq_succ_of_mem_iff (a := c) (nodup_readyFrom t k') (nodup_readyFrom s k) ?_
    fun j => ?_
  · rw [mem_readyFrom, h]
    simp
  · rw [mem_readyFrom, mem_readyFrom, h]
    by_cases hj : j = c
    · simp [hj, hready, hle]
    · simp [hj]

theorem Tracking.aligned (h : Tracking s) (hst : Aligned s t) : Tracking t where
  nonneg := by
    rw [hst.remainingReady]
    exact h.nonneg
  next hpos := by
    rw [hst.remainingReady] at hpos
    obtain ⟨k, hnext, hk, hcount⟩ := h.next hpos
    refine ⟨k, hst.nextConnection.trans hnext, (hst.mem_iff k).mpr hk, ?_⟩
    have hsame := length_readyFrom_congr (s := s) (t := t) (k := k) fun j _ => by
      rw [hst.isReady]
    rw [hst.remainingReady, hsame, hcount]

/-! ## Closing, opening and releasing -/

theorem Closed.isReady_iff (hst : Closed c s t) (j : Nat) :
    t.isReady j = true ↔ s.isReady j = true ∧ j ≠ c := by
  rw [Client.isReady_iff, Client.isReady_iff, hst.isConnected_iff, hst.selectSet]
  tauto

theorem Tracking.countsReady (h : Tracking s) (c : Nat) :
    s.countsReady c = true ↔ ∃ k, s.Saved k ∧ k ≤ c ∧ c ∈ s.selectSet := by
  unfold TestFcgiClientInterface.countsReady
  by_cases hpos : 0 < s.remainingReady
  · obtain ⟨k, hnext, -⟩ := h.next hpos
    simp [hpos, hnext, TestFcgiClientInterface.Saved]
  · simp [hpos, TestFcgiClientInterface.Saved]

/-- The iterator after a ready connection, when it is not the last. -/
theorem after_of_more (hready : s.isReady c = true) (hmore : 1 < (readyFrom s c).length) :
    ∃ k, s.after c = .entry k ∧ k ∈ s.connectionMap ∧ c < k ∧
      (readyFrom s c).length = (readyFrom s k).length + 1 := by
  have hlater : ∃ j, c < j ∧ s.isReady j = true := by
    by_contra hnone
    simp only [not_exists, not_and] at hnone
    have hone : (readyFrom s c).length = 1 := by
      refine length_eq_of_mem_iff (l := [c]) (by simp) (nodup_readyFrom s c) fun j => ?_
      rw [mem_readyFrom, List.mem_singleton]
      refine ⟨fun hj => ?_, fun hj => ⟨by omega, hj ▸ hready⟩⟩
      by_contra hne
      exact hnone j (by omega) hj.2
    omega
  obtain ⟨j, hlt, hj⟩ := hlater
  have hjmem : j ∈ s.connectionMap := mem_of_isConnected (Client.isReady_iff.mp hj).1
  cases hafter : s.after c with
  | pastTheEnd =>
    have := after_eq_pastTheEnd_iff.mp hafter j hjmem
    omega
  | erased => exact absurd hafter after_ne_erased
  | entry k =>
    obtain ⟨hk, hck, hleast⟩ := after_eq_entry_iff.mp hafter
    refine ⟨k, rfl, hk, hck, length_readyFrom_pred _ (t := s) hready le_rfl fun i => ?_⟩
    constructor
    · rintro ⟨hi, hri⟩
      exact ⟨⟨by omega, hri⟩, by omega⟩
    · rintro ⟨⟨hi, hri⟩, hne⟩
      exact ⟨hleast i (mem_of_isConnected (Client.isReady_iff.mp hri).1) (by omega), hri⟩

/-- The closure of the connection that the iterator refers to, which is ready. -/
theorem Tracking.closed_advanced (hst : Closed c s t) (hready : s.isReady c = true)
    (hcounts : s.countsReady c = true) (hnext : s.nextConnection = .entry c)
    (hcount : ((readyFrom s c).length : Int) = s.remainingReady) (hpos : 0 < s.remainingReady) :
    Tracking t := by
  have hremaining : t.remainingReady = s.remainingReady - 1 := by
    rw [hst.remainingReady, if_pos hcounts]
  have hadvanced : t.nextConnection = s.after c := by
    simp [hst.nextConnection, hcounts, hnext]
  refine ⟨by omega, fun hpos' => ?_⟩
  obtain ⟨k, hafter, hk, hck, hlength⟩ := after_of_more hready (by omega)
  have hsame := length_readyFrom_congr (s := s) (t := t) (k := k) fun j hj => by
    rw [hst.isReady_iff]
    exact ⟨And.left, fun h => ⟨h, by omega⟩⟩
  refine ⟨k, hadvanced.trans hafter, ?_, by omega⟩
  rw [mem_connectionMap_iff, hst.others k (by omega), ← mem_connectionMap_iff]
  exact hk

/-- The closure of another ready connection above the iterator. -/
theorem Tracking.closed_above (hst : Closed c s t) (hready : s.isReady c = true)
    (hcounts : s.countsReady c = true) (hnext : s.nextConnection = .entry k) (hlt : k < c)
    (hk : k ∈ s.connectionMap) (hcount : ((readyFrom s k).length : Int) = s.remainingReady) :
    Tracking t := by
  have hremaining : t.remainingReady = s.remainingReady - 1 := by
    rw [hst.remainingReady, if_pos hcounts]
  have hkc : k ≠ c := by omega
  have hpred := length_readyFrom_pred k (t := t) hready hlt.le fun i => by
    rw [hst.isReady_iff, and_assoc]
  refine ⟨by omega, fun _ => ⟨k, ?_, ?_, by omega⟩⟩
  · simp [hst.nextConnection, hnext, hkc]
  · rw [mem_connectionMap_iff, hst.others k hkc, ← mem_connectionMap_iff]
    exact hk

/-- The closure of a connection that is not counted. -/
theorem Tracking.closed_uncounted (h : Tracking s) (hst : Closed c s t)
    (hcounts : s.countsReady c ≠ true) (hsafe : s.Saved c → s.completedOf c ≠ []) : Tracking t := by
  have hremaining : t.remainingReady = s.remainingReady := by
    rw [hst.remainingReady, if_neg hcounts]
  refine ⟨hremaining ▸ h.nonneg, fun hpos => ?_⟩
  rw [hremaining] at hpos
  obtain ⟨k, hnext, hk, hcount⟩ := h.next hpos
  have hsaved : s.Saved k := ⟨hpos, hnext⟩
  have hsame := length_readyFrom_congr (s := s) (t := t) (k := k) fun j hkj => by
    rw [hst.isReady_iff]
    refine ⟨And.left, fun hj => ⟨hj, ?_⟩⟩
    rintro rfl
    exact hcounts ((h.countsReady j).mpr ⟨k, hsaved, hkj, (Client.isReady_iff.mp hj).2⟩)
  have hkept : t.nextConnection = .entry k := by
    rw [hst.nextConnection]
    simp only [hcounts, Bool.false_and, Bool.false_eq_true, if_false, hnext]
    rw [if_neg]
    rintro ⟨hkc, hnil⟩
    cases hkc
    exact hsafe hsaved hnil
  refine ⟨k, hkept, ?_, by omega⟩
  by_cases hkc : k = c
  · subst hkc
    exact hst.mem_iff.mpr (hsafe hsaved)
  · rw [mem_connectionMap_iff, hst.others k hkc, ← mem_connectionMap_iff]
    exact hk

/-- A closure keeps the tracking state unless it erases the element of the saved
iterator while that is not a ready connection. -/
theorem Tracking.closed (h : Tracking s) (hst : Closed c s t)
    (hsafe : s.Saved c → c ∈ s.selectSet ∨ s.completedOf c ≠ []) : Tracking t := by
  by_cases hcounts : s.countsReady c = true
  · obtain ⟨k, ⟨hpos, hnext⟩, hle, hset⟩ := (h.countsReady c).mp hcounts
    have hready : s.isReady c = true := Client.isReady_iff.mpr ⟨hst.wasConnected, hset⟩
    obtain ⟨k', hnext', hk, hcount⟩ := h.next hpos
    obtain rfl : k = k' := by simpa [hnext] using hnext'
    by_cases hkc : k = c
    · subst hkc
      exact .closed_advanced hst hready hcounts hnext hcount hpos
    · exact .closed_above hst hready hcounts hnext (by omega) hk hcount
  · refine h.closed_uncounted hst hcounts fun hsaved => (hsafe hsaved).resolve_left fun hset => ?_
    exact hcounts ((h.countsReady c).mpr ⟨c, hsaved, le_rfl, hset⟩)

/-- A new connection keeps the tracking state unless the saved iterator is at or
below it and its bit is set. -/
theorem Tracking.opened (h : Tracking s) (hst : Opened c s t)
    (hsafe : ∀ k, s.Saved k → k ≤ c → c ∉ s.selectSet) : Tracking t where
  nonneg := by
    rw [hst.remainingReady]
    exact h.nonneg
  next hpos := by
    rw [hst.remainingReady] at hpos
    obtain ⟨k, hnext, hk, hcount⟩ := h.next hpos
    have hsame := length_readyFrom_congr (s := s) (t := t) (k := k) fun j hkj => by
      rw [Client.isReady_iff, Client.isReady_iff, hst.isConnected_iff, hst.selectSet]
      refine and_congr_left fun hset => ⟨fun hj => hj.resolve_right ?_, .inl⟩
      rintro rfl
      exact hsafe k ⟨hpos, hnext⟩ hkj hset
    refine ⟨k, hst.nextConnection.trans hnext, (hst.mem_iff k).mpr (.inl hk), ?_⟩
    rw [hst.remainingReady, hsame, hcount]

/-- A release keeps the tracking state unless it erases the element of the saved
iterator. -/
theorem Tracking.freed {ids : List FcgiRequestIdentifier} (h : Tracking s) (hst : Freed c ids s t)
    (hsafe : s.Saved c → c ∈ t.connectionMap) : Tracking t where
  nonneg := by
    rw [hst.remainingReady]
    exact h.nonneg
  next hpos := by
    rw [hst.remainingReady] at hpos
    obtain ⟨k, hnext, hk, hcount⟩ := h.next hpos
    have hsame := length_readyFrom_congr (s := s) (t := t) (k := k) fun j _ => by
      rw [Client.isReady_iff, Client.isReady_iff, hst.isConnected, hst.selectSet]
    have hmem : k ∈ t.connectionMap := by
      by_cases hkc : k = c
      · exact hkc ▸ hsafe ⟨hpos, hkc ▸ hnext⟩
      · rw [mem_connectionMap_iff, hst.others k hkc, ← mem_connectionMap_iff]
        exact hk
    have hkept : t.nextConnection = .entry k := by
      obtain ⟨e, -, ⟨-, -, hnone, hnext'⟩ | ⟨-, hnext', -⟩⟩ := hst.entry
      · rw [hnext', if_neg, hnext]
        rintro heq
        obtain rfl : k = c := by simpa [hnext] using heq
        rw [mem_connectionMap_iff, hnone] at hmem
        simp at hmem
      · exact hnext'.trans hnext
    exact ⟨k, hkept, hmem, by rw [hst.remainingReady, hsame, hcount]⟩

end

/-! ## `ExamineSelectReturn` -/

/-- The exception of a scan that finds no ready connection. -/
def noReadyConnections : Failure :=
  .logicError ("An error occurred while tracking connections which were ready to be " ++
    "read in a call to TestFcgiClientInterface::RetrieveServerEvent. No such connections " ++
    "were present when some were expected.")

/-- The saved iterator refers to a ready connection and counts it. -/
structure AtReady (c : Nat) (s : TestFcgiClientInterface) : Prop where
  saved : s.Saved c
  ready : s.isReady c = true
  count : ((readyFrom s c).length : Int) = s.remainingReady

/-- The exceptions that leave the tracking state right. -/
abbrev Tracked : Failure → TestFcgiClientInterface → Prop :=
  Thrown fun e t => Tracking t ∧ e ≠ noReadyConnections

section

variable {s t : TestFcgiClientInterface} {c : Nat} {reply : SystemReply}

theorem AtReady.tracking (h : AtReady c s) : Tracking s where
  nonneg := h.saved.1.le
  next _ := ⟨c, h.saved.2, mem_of_isConnected (isReady_iff.mp h.ready).1, h.count⟩

theorem AtReady.aligned (h : AtReady c s) (hst : Aligned s t) : AtReady c t where
  saved := (hst.saved_iff c).mpr h.saved
  ready := (hst.isReady c).trans h.ready
  count := by
    have hsame := length_readyFrom_congr (s := s) (t := t) (k := c) fun j _ => by
      rw [hst.isReady]
    rw [hst.remainingReady, hsame, h.count]

theorem after_receive {it : Option FcgiRequestIdentifier} {data : Bytes} :
    After (receive reply c it data) s (fun _ t => Still s t) (Thrown fun _ _ => False) :=
  after_noexceptBlock ((yields_receiveBuffer reply c _ it data s).mono (fun _ _ ht => ht.still)
    fun _ _ _ _ => trivial)

/-- The end of the reads of a connection that the iterator has passed. -/
theorem after_closeRead (htracking : Tracking s) (hsafe : ¬ s.Saved c) (e : Errno) :
    After (if e = .zero ∨ e = .econnreset then do
        discard (closeConnection reply c)
        modify (·.pushEvent (.connectionClosure c))
      else pure () : Operation Unit) s (fun _ t => Tracking t) (Thrown fun _ _ => True) := by
  rw [after_ite]
  refine ⟨fun _ => ?_, fun _ => htracking⟩
  rw [after_bind, after_discard]
  refine (after_closeConnection reply).mono (fun b t ht => ?_) fun _ _ _ _ => trivial
  rw [after_modify]
  obtain ⟨-, ht⟩ := ht
  split at ht
  · exact (htracking.closed ht fun h => absurd h hsafe).aligned (still_pushEvent t _).aligned
  · exact (ht ▸ htracking).aligned (still_pushEvent t _).aligned

theorem after_finishReading (h : AtReady c s) (e : Errno) :
    After (finishReading reply c e) s (fun _ t => Tracking t) (Thrown fun _ _ => False) := by
  have hpos := h.saved.1
  have hcount := h.count
  unfold finishReading
  refine after_noexceptBlock ?_
  rw [after_bind, after_modify, after_bind, after_get, after_ite]
  constructor
  · intro hzero
    change s.remainingReady - 1 = 0 at hzero
    rw [after_bind, after_modify]
    refine after_closeRead (.of_nonpos hzero.ge hzero.le) (fun hsaved => ?_) e
    have hpos' : 0 < s.remainingReady - 1 := hsaved.1
    omega
  · intro hmore
    change ¬ s.remainingReady - 1 = 0 at hmore
    obtain ⟨k, hafter, hk, hck, hlength⟩ := after_of_more h.ready (by omega)
    have hcount' : ((readyFrom s k).length : Int) = s.remainingReady - 1 := by omega
    rw [after_bind, after_get]
    extract_lets next jp
    have hnext : next = .entry k := hafter
    clear_value next
    subst hnext
    rw [if_neg (by simp)]
    simp only [jp]
    rw [after_bind, after_modify]
    have htracking : Tracking
        { s with remainingReady := s.remainingReady - 1, nextConnection := .entry k } := by
      refine ⟨?_, fun _ => ⟨k, rfl, hk, hcount'⟩⟩
      show 0 ≤ s.remainingReady - 1
      omega
    refine after_closeRead htracking (fun hsaved => ?_) e
    obtain ⟨-, hnext⟩ := hsaved
    cases hnext
    omega

theorem after_readLoop (h : AtReady c s) (it : Option FcgiRequestIdentifier)
    (reads : List ReadReturn) :
    After (readLoop reply c it reads) s (fun _ t => Tracking t) Tracked := by
  induction reads generalizing it s with
  | nil => trivial
  | cons r reads ih =>
    have hread : ∀ bytes, After (receive reply c it bytes) s (fun _ t => AtReady c t) Tracked :=
      fun bytes => after_receive.mono (fun _ _ ht => h.aligned ht.aligned)
        fun _ _ hE hne => (hE hne).elim
    cases r with
    | filled bytes =>
      rw [readLoop, after_ite]
      refine ⟨fun _ => trivial, fun _ => ?_⟩
      rw [after_bind]
      exact (hread bytes).mono (fun it' t ht => ih ht it') fun _ _ hE => hE
    | short bytes e =>
      rw [readLoop, after_ite]
      refine ⟨fun _ => trivial, fun _ => ?_⟩
      rw [after_bind, after_discard]
      refine (hread bytes).mono (fun _ t ht => ?_) fun _ _ hE => hE
      rw [after_ite]
      refine ⟨fun _ => ?_, fun _ _ => ⟨ht.tracking, by simp [noReadyConnections]⟩⟩
      exact (after_finishReading ht e).mono (fun _ _ hu => hu) fun _ _ hE hne => (hE hne).elim

/-- The scan from the element of the saved iterator: `cs` are the keys that are
left. -/
structure Scanning (cs : List Nat) (s : TestFcgiClientInterface) : Prop where
  positive : 0 < s.remainingReady
  ascending : cs.Pairwise (· < ·)
  keys : ∀ c ∈ cs, c ∈ s.connectionMap
  upward : ∀ k ∈ cs, ∀ j ∈ s.connectionMap, k ≤ j → j ∈ cs
  next : ∀ c ∈ cs.head?, s.nextConnection = .entry c
  count : ((cs.filter s.isReady).length : Int) = s.remainingReady

theorem after_examineLoop {cs : List Nat} (h : Scanning cs s) (reads : List ReadReturn) :
    After (examineLoop reply reads cs) s (fun _ t => Tracking t) Tracked := by
  induction cs generalizing s with
  | nil =>
    have hcount := h.count
    have hpos := h.positive
    simp only [List.filter_nil, List.length_nil] at hcount
    omega
  | cons c cs ih =>
    have hnext := h.next c rfl
    obtain ⟨hbelow, hascending⟩ := List.pairwise_cons.mp h.ascending
    rw [examineLoop, after_bind, after_get, after_ite]
    constructor
    · intro hready
      have hcount : ((readyFrom s c).length : Int) = s.remainingReady := by
        rw [← h.count]
        congr 1
        refine length_eq_of_mem_iff ?_ (nodup_readyFrom s c) fun j => ?_
        · exact (h.ascending.imp Nat.ne_of_lt).filter _
        · rw [mem_readyFrom, List.mem_filter]
          refine and_congr_left fun hj => ⟨fun hle => ?_, fun hmem => ?_⟩
          · exact h.upward c (by simp) j (mem_of_isConnected (isReady_iff.mp hj).1) hle
          · rcases List.mem_cons.mp hmem with rfl | hmem
            · exact le_rfl
            · exact (hbelow j hmem).le
      exact after_readLoop ⟨⟨h.positive, hnext⟩, hready, hcount⟩ none reads
    · intro hready
      have hcount := h.count
      rw [List.filter_cons_of_neg hready] at hcount
      have hpos := h.positive
      rw [after_bind, after_modify]
      refine ih ⟨hpos, hascending, fun j hj => h.keys j (by simp [hj]), fun k hk j hj hle => ?_,
        fun k hk => ?_, hcount⟩
      · rcases List.mem_cons.mp (h.upward k (by simp [hk]) j hj hle) with rfl | hmem
        · have := hbelow k hk
          omega
        · exact hmem
      · show s.after c = .entry k
        have hkmem : k ∈ cs := List.mem_of_mem_head? hk
        refine after_eq_entry_iff.mpr ⟨h.keys k (by simp [hkmem]), hbelow k hkmem, fun j hj hlt => ?_⟩
        rcases List.mem_cons.mp (h.upward c (by simp) j hj hlt.le) with rfl | hmem
        · omega
        · cases cs with
          | nil => cases hk
          | cons k' cs =>
            obtain rfl : k' = k := by simpa using hk
            rcases List.mem_cons.mp hmem with rfl | hmem
            · exact le_rfl
            · exact ((List.pairwise_cons.mp hascending).1 j hmem).le

/-- The keys from the element of the saved iterator on. -/
theorem Tracking.scanning (h : Tracking s) (hpos : 0 < s.remainingReady) :
    ∃ k, s.nextConnection = .entry k ∧ k ∈ s.connectionMap ∧
      Scanning (s.connectionMap.keys.filter (k ≤ ·)) s := by
  obtain ⟨k, hnext, hk, hcount⟩ := h.next hpos
  have hsorted : s.connectionMap.keys.Pairwise (· < ·) :=
    s.connectionMap.ordered_keys.imp fun h => Nat.compare_eq_lt.mp h
  have hmem : ∀ j, j ∈ s.connectionMap.keys.filter (k ≤ ·) ↔ j ∈ s.connectionMap ∧ k ≤ j := by
    intro j
    rw [List.mem_filter, ExtTreeMap.mem_keys]
    simp
  have hascending := hsorted.filter fun j => decide (k ≤ j)
  refine ⟨k, hnext, hk, hpos, hascending, fun c hc => ((hmem c).mp hc).1,
    fun i hi j hj hle => (hmem j).mpr ⟨hj, ((hmem i).mp hi).2.trans hle⟩, fun c hc => ?_, ?_⟩
  · have hcmem := (hmem c).mp (List.mem_of_mem_head? hc)
    have hkmem := (hmem k).mpr ⟨hk, le_rfl⟩
    obtain ⟨cs, hcs⟩ : ∃ cs, s.connectionMap.keys.filter (k ≤ ·) = c :: cs :=
      List.head?_eq_some_iff.mp hc
    rw [hcs] at hkmem hascending
    obtain rfl : k = c := by
      rcases List.mem_cons.mp hkmem with rfl | hkmem
      · rfl
      · have := (List.pairwise_cons.mp hascending).1 k hkmem
        omega
    exact hnext
  · rw [← hcount]
    congr 1
    refine length_eq_of_mem_iff (nodup_readyFrom s k) ?_ fun j => ?_
    · exact (hascending.imp Nat.ne_of_lt).filter _
    · rw [List.mem_filter, hmem, mem_readyFrom]
      constructor
      · rintro ⟨⟨-, hle⟩, hj⟩
        exact ⟨hle, hj⟩
      · rintro ⟨hle, hj⟩
        exact ⟨⟨mem_of_isConnected (isReady_iff.mp hj).1, hle⟩, hj⟩

theorem after_examineSelectReturn (h : Tracking s) (hpos : 0 < s.remainingReady)
    (reads : List ReadReturn) :
    After (examineSelectReturn reply reads) s (fun _ t => Tracking t) Tracked := by
  obtain ⟨k, hnext, -, hscanning⟩ := h.scanning hpos
  rw [examineSelectReturn, after_bind, after_get, hnext]
  exact after_examineLoop hscanning reads

/-- The state after `select` has found some connected descriptors ready. -/
theorem tracking_of_select {connections : List Nat} (hne : connections ≠ [])
    (hnodup : connections.Nodup) (hall : ∀ c ∈ connections, s.isConnected c = true) :
    let t : TestFcgiClientInterface := { s with
      selectSet := ExtTreeSet.ofList connections
      remainingReady := connections.length
      nextConnection :=
        match s.connectionMap.keys.head? with
        | some k => .entry k
        | none => .pastTheEnd }
    Tracking t ∧ 0 < t.remainingReady := by
  intro t
  have hpos : 0 < connections.length := List.length_pos_iff.mpr hne
  have hmem : ∀ j, t.isReady j = true ↔ j ∈ connections := by
    intro j
    rw [isReady_iff]
    have hset : j ∈ t.selectSet ↔ j ∈ connections := by simp [t]
    rw [hset]
    exact ⟨And.right, fun hj => ⟨hall j hj, hj⟩⟩
  have hsorted : s.connectionMap.keys.Pairwise (· < ·) :=
    s.connectionMap.ordered_keys.imp fun h => Nat.compare_eq_lt.mp h
  refine ⟨⟨Int.natCast_nonneg _, fun _ => ?_⟩, by simpa [t] using hpos⟩
  cases hkeys : s.connectionMap.keys with
  | nil =>
    obtain ⟨c, hc⟩ := List.exists_mem_of_ne_nil _ hne
    have hmem := ExtTreeMap.mem_keys.mpr (mem_of_isConnected (hall c hc))
    rw [hkeys] at hmem
    cases hmem
  | cons k ks =>
    refine ⟨k, ?_, ?_, ?_⟩
    · simp [t, hkeys]
    · show k ∈ s.connectionMap
      rw [← ExtTreeMap.mem_keys, hkeys]
      simp
    · have hlength := length_eq_of_mem_iff hnodup (nodup_readyFrom t k) fun j => by
        rw [mem_readyFrom, hmem]
        refine ⟨And.right, fun hj => ⟨?_, hj⟩⟩
        have hj' := ExtTreeMap.mem_keys.mpr (mem_of_isConnected (hall j hj))
        rw [hkeys] at hj' hsorted
        rcases List.mem_cons.mp hj' with rfl | hj'
        · exact le_rfl
        · exact ((List.pairwise_cons.mp hsorted).1 j hj').le
      rw [hlength]

theorem after_selectConnections (h : Tracking s) (hzero : s.remainingReady ≤ 0)
    (result : SelectReturn) :
    After (selectConnections result) s (fun _ t => Tracking t ∧ 0 < t.remainingReady) Tracked := by
  have hu : ∀ set, Tracking { s with selectSet := set } := fun _ => .of_nonpos h.nonneg hzero
  rw [selectConnections, after_bind, after_get, after_bind, after_modify]
  rw [after_ite]
  constructor
  · intro _
    rw [after_bind]
    exact fun _ => ⟨hu _, by simp [noReadyConnections]⟩
  · intro _
    split
    · exact fun _ => ⟨hu _, by simp [noReadyConnections]⟩
    · rename_i connections
      rw [after_ite]
      refine ⟨fun _ => trivial, fun hvalid => ?_⟩
      simp only [not_or, not_not, Bool.not_eq_false, List.all_eq_true, decide_eq_true_eq] at hvalid
      obtain ⟨hne, hnodup, hall⟩ := hvalid
      rw [after_modify]
      exact tracking_of_select hne hnodup fun c hc => mem_connectedDescriptors.mp (hall c hc)

/-- `ExamineSelectReturn` starts in `u` during a call of `RetrieveServerEvent`
with these rounds in `s`. -/
inductive Examined (reply : SystemReply) :
    List Round → TestFcgiClientInterface → TestFcgiClientInterface → Prop
  | now {round : Round} {rounds : List Round} {s u : TestFcgiClientInterface}
      (hqueue : s.microEventQueue = [])
      (hu : if s.remainingReady ≤ 0 then selectConnections round.select s = some (.ok ⟨⟩, u)
        else u = s) : Examined reply (round :: rounds) s u
  | later {round : Round} {rounds : List Round} {s t u : TestFcgiClientInterface}
      (hqueue : s.microEventQueue = []) (ht : retrieveRound reply round s = some (.ok ⟨⟩, t))
      (hu : Examined reply rounds t u) : Examined reply (round :: rounds) s u

theorem after_retrieveRound (h : Tracking s) (round : Round) :
    After (retrieveRound reply round) s (fun _ t => Tracking t) Tracked := by
  rw [retrieveRound, after_bind, after_get, after_ite]
  constructor
  · intro hzero
    rw [after_bind]
    exact (after_selectConnections h hzero _).mono
      (fun _ t ht => after_examineSelectReturn ht.1 ht.2 _) fun _ _ hE => hE
  · intro hpos
    exact after_examineSelectReturn h (by omega) _

theorem Tracking.examined {rounds : List Round} {u : TestFcgiClientInterface} (h : Tracking s)
    (hu : Examined reply rounds s u) : Tracking u ∧ 0 < u.remainingReady := by
  induction hu with
  | now hqueue hu =>
    split at hu
    · rename_i hzero
      exact (after_selectConnections h hzero _).of_ok hu
    · rename_i hpos
      exact hu ▸ ⟨h, by omega⟩
  | later hqueue ht _ ih => exact ih ((after_retrieveRound h _).of_ok ht)

theorem after_popEvent (h : Tracking s) : After popEvent s (fun _ t => Tracking t) Tracked := by
  rw [popEvent, after_bind, after_get]
  split
  · exact h
  · rw [after_bind, after_modify, after_pure]
    exact h.aligned ⟨fun _ => Iff.rfl, fun _ => rfl, rfl, rfl, rfl⟩

theorem after_retrieveServerEvent (h : Tracking s) :
    After (retrieveServerEvent reply) s (fun _ t => Tracking t) Tracked := by
  have hloop : ∀ rounds s, Tracking s →
      After (retrieveLoop reply rounds) s (fun _ t => Tracking t) Tracked := by
    intro rounds
    induction rounds with
    | nil =>
      intro s h
      rw [retrieveLoop, after_bind]
      refine (after_popEvent h).mono (fun event t ht => ?_) fun _ _ hE => hE
      cases event with
      | some event => exact ht
      | none => trivial
    | cons round rounds ih =>
      intro s h
      rw [retrieveLoop, after_bind]
      refine (after_popEvent h).mono (fun event t ht => ?_) fun _ _ hE => hE
      cases event with
      | some event => exact ht
      | none =>
        rw [after_bind]
        exact (after_retrieveRound ht round).mono (fun _ u hu => ih u hu) fun _ _ hE => hE
  exact hloop _ s h

end

/-! ## Runs -/

/-- A send that fails does not erase the element of the saved iterator. -/
def SendsUndisturbed (c : Nat) (s t : TestFcgiClientInterface) : Prop :=
  s.Saved c → s.isConnected c = true → t.isConnected c = true ∨ c ∈ s.selectSet ∨ s.completedOf c ≠ []

/-- Between two calls of `RetrieveServerEvent` with ready connections left, no
call erases the element of the saved iterator while that is not a ready
connection, and none opens a connection at or above it whose bit is set. -/
def Undisturbed (s : TestFcgiClientInterface) (_ : SystemReply) :
    Call → TestFcgiClientInterface → Prop
  | .connect, t => ∀ k d, s.Saved k → k ≤ d → d ∈ s.selectSet → s.isConnected d = false →
      t.isConnected d = false
  | .closeConnection c, _ => s.Saved c → s.isConnected c = true →
      c ∈ s.selectSet ∨ s.completedOf c ≠ []
  | .releaseId id, _ => s.Saved id.descriptor → s.isConnected id.descriptor = false →
      ∃ i ∈ s.completedOf id.descriptor, i ≠ id
  | .releaseIds c, _ => s.Saved c → s.isConnected c = true
  | .retrieveServerEvent, _ => True
  | .sendAbortRequest id, t => SendsUndisturbed id.descriptor s t
  | .sendBinaryManagementRequest c _ _, t => SendsUndisturbed c s t
  | .sendGetValuesRequest c _, t => SendsUndisturbed c s t
  | .sendRequest c _, t => SendsUndisturbed c s t

section

variable {reply : SystemReply} {call : Call} {s t : TestFcgiClientInterface} {c : Nat}

/-- A send that closes a connection. -/
theorem Tracking.sendClosed {u v : TestFcgiClientInterface} (h : Tracking s) (hsu : Aligned s u)
    (hcompleted : s.completedOf c ≠ [] → u.completedOf c ≠ []) (hclosed : Closed c u v)
    (hvt : Aligned v t) (hok : SendsUndisturbed c s t) : Tracking t := by
  refine ((h.aligned hsu).closed hclosed fun hsaved => ?_).aligned hvt
  have hconnected : s.isConnected c = true := hsu.isConnected c ▸ hclosed.wasConnected
  rcases hok ((hsu.saved_iff c).mp hsaved) hconnected with hc | hset | hne
  · rw [hvt.isConnected, hclosed.isConnected_iff] at hc
    exact absurd rfl hc.2
  · exact .inl (hsu.selectSet ▸ hset)
  · exact .inr (hcompleted hne)

theorem Still.completedOf_ne_nil (h : Still s t) (hne : s.completedOf c ≠ []) :
    t.completedOf c ≠ [] := by
  intro hnil
  rw [completedOf_eq_nil_iff] at hnil
  refine hne (completedOf_eq_nil_iff.mpr fun i hi => ?_)
  exact hnil i ((h.completed i).mpr (.inl hi))

theorem Tracking.leaves (h : Tracking s) (hst : Leaves c s t) (hok : SendsUndisturbed c s t) :
    Tracking t := by
  rcases hst with hst | ⟨u, v, hu, hclosed, hv⟩
  · exact h.aligned hst.aligned
  · exact h.sendClosed hu.aligned hu.completedOf_ne_nil hclosed hv.aligned hok

theorem Tracking.settled {newId : UInt16} {u : TestFcgiClientInterface} (h : Tracking s)
    (hacquired : Acquired c newId s u) (hst : Settled c newId u t) (hok : SendsUndisturbed c s t) :
    Tracking t := by
  have hsu := hacquired.retaken.aligned
  cases hst with
  | pending d hv =>
    refine (h.aligned (hsu.trans hv.still.aligned)).aligned ?_
    exact ⟨fun _ => Iff.rfl, fun _ => rfl, rfl, rfl, rfl⟩
  | released hv ht hpending =>
    obtain ⟨e, he, -⟩ := hacquired.entry
    have hc := mem_connectionMap_iff.mpr ⟨e, hv.connectionMap ▸ he⟩
    exact (h.aligned (hsu.trans hv.still.aligned)).aligned (ht.retaken hc hpending).aligned
  | closed hv hw ht =>
    rename_i v w
    obtain ⟨event, rfl⟩ := ht
    have hset : u.completedRequestSet = s.completedRequestSet := by rw [hacquired.retaken.frame]
    refine h.sendClosed (hsu.trans hv.still.aligned) (fun hne => ?_) hw
      (still_pushEvent w event).aligned hok
    rwa [completedOf_congr (hv.completedRequestSet.trans hset)]

theorem Tracking.effect (h : Tracking s) (hst : Effect s call t)
    (hok : Undisturbed s reply call t) : Tracking t := by
  cases hst with
  | none => exact h
  | opened hst =>
    refine h.opened hst fun k hsaved hle hset => ?_
    have hclosed := hok k _ hsaved hle hset hst.wasDisconnected
    have hopened := (hst.isConnected_iff _).mpr (.inr rfl)
    simp [hclosed] at hopened
  | closed hst => exact h.closed hst fun hsaved => hok hsaved hst.wasConnected
  | freed hst =>
    rename_i id
    refine h.freed hst fun hsaved => ?_
    obtain ⟨e, he, ⟨hfree, hnil, -⟩ | ⟨-, -, m, hm, -⟩⟩ := hst.entry
    · have hdisconnected : s.isConnected id.descriptor = false := by
        rw [TestFcgiClientInterface.isConnected, he]
        exact hfree
      obtain ⟨i, hi, hne⟩ := hok hsaved hdisconnected
      obtain ⟨hi, hic⟩ := mem_completedOf.mp hi
      exact absurd hic (completedOf_eq_nil_iff.mp hnil i ((hst.completed i).mpr ⟨hi, by simpa⟩))
    · exact mem_connectionMap_iff.mpr ⟨_, hm⟩
  | freedAll hst =>
    refine h.freed hst fun hsaved => ?_
    obtain ⟨e, he, ⟨hfree, -⟩ | ⟨-, -, m, hm, -⟩⟩ := hst.entry
    · have hconnected := hok hsaved
      rw [TestFcgiClientInterface.isConnected, he] at hconnected
      simp [hfree] at hconnected
    · exact mem_connectionMap_iff.mpr ⟨_, hm⟩
  | retrieved hs =>
    refine of_step ?_ hs
    rw [perform, after_map]
    exact (after_retrieveServerEvent h).mono (fun _ _ => id) fun _ _ hE hne => (hE hne).1
  | aborted hst => exact h.leaves hst hok
  | sentBinary hst => exact h.leaves hst hok
  | sentGetValues hst => exact h.leaves hst hok
  | sent hu ht => exact h.settled hu ht hok

theorem tracking_of_reachable (h : ReachableBy Undisturbed s) : Tracking s := by
  induction h with
  | initial limits => exact .of_nonpos le_rfl le_rfl
  | call hs' hs hok ih => exact ih.effect (effect_of_step (invariant_of_reachable hs'.mono) hs) hok

/-- In the runs whose calls leave the saved iterator undisturbed, it refers to
an element at or below the ready connections that remain, also wherever
`ExamineSelectReturn` starts, and no scan ends without one. -/
theorem tracking_kept (h : ReachableBy Undisturbed s) :
    0 ≤ s.remainingReady ∧
    (0 < s.remainingReady → ∃ k, s.nextConnection = .entry k ∧ k ∈ s.connectionMap ∧
      (((connectedDescriptors s).filter fun c => k ≤ c && s.selectSet.contains c).length : Int) =
        s.remainingReady) ∧
    (∀ reply u, Examined reply reply.rounds s u →
      ∃ k, u.nextConnection = .entry k ∧ k ∈ u.connectionMap) ∧
    ∀ reply t, retrieveServerEvent reply s ≠ some (.error noReadyConnections, t) := by
  have htracking := tracking_of_reachable h
  refine ⟨htracking.nonneg, htracking.next, fun reply u hu => ?_, fun reply t ht => ?_⟩
  · obtain ⟨hu, hpos⟩ := htracking.examined hu
    obtain ⟨k, hnext, hk, -⟩ := hu.next hpos
    exact ⟨k, hnext, hk⟩
  · exact ((after_retrieveServerEvent htracking).of_error ht (by simp [noReadyConnections])).2 rfl

end

/-! ### A lost iterator -/

/-- Two connections are found ready; the first has sent a record that is not
valid. -/
def scanReply (first last : Nat) : SystemReply :=
  { rounds := [{
      select := .ready [first, last]
      reads := [.short (List.replicate 8 0) .eagain] }] }

theorem undisturbed_of_idle {s t : TestFcgiClientInterface} {reply : SystemReply} {call : Call}
    (h : s.remainingReady = 0) : Undisturbed s reply call t := by
  have hidle : ∀ k, ¬ s.Saved k := fun k hsaved => by
    have := hsaved.1
    omega
  cases call with
  | connect => exact fun k _ hsaved => absurd hsaved (hidle k)
  | retrieveServerEvent => trivial
  | _ => exact fun hsaved => absurd hsaved (hidle _)

theorem tracking_kept_after_scan : ∃ s : TestFcgiClientInterface, s.remainingReady = 1 ∧
    ∃ k, s.nextConnection = .entry k ∧ k ∈ s.connectionMap := by
  have hrun : ((step {} { connect := .connected 5 } .connect).bind fun a =>
      (step a { connect := .connected 6 } .connect).bind fun b =>
        (step b (scanReply 5 6) .retrieveServerEvent).map fun s =>
          (a.remainingReady, b.remainingReady, s.remainingReady)) = some (0, 0, 1) := by
    decide +kernel
  obtain ⟨a, ha, hrest⟩ := Option.bind_eq_some_iff.mp hrun
  obtain ⟨b, hb, hrest⟩ := Option.bind_eq_some_iff.mp hrest
  obtain ⟨s, hs, hfacts⟩ := Option.map_eq_some_iff.mp hrest
  simp only [Prod.mk.injEq] at hfacts
  obtain ⟨hidle, hidle', hremaining⟩ := hfacts
  have hreachable : ReachableBy Undisturbed s :=
    .call (.call (.call (.initial {}) ha (undisturbed_of_idle rfl)) hb (undisturbed_of_idle hidle))
      hs (undisturbed_of_idle hidle')
  obtain ⟨k, hnext, hk, -⟩ := (tracking_kept hreachable).2.1 (by omega)
  exact ⟨s, hremaining, k, hnext, hk⟩

/-- The second of three connections is closed while the iterator refers to it;
the scan goes on from an element that is gone. -/
theorem lost_iterator : ∃ s : TestFcgiClientInterface, Reachable s ∧ 0 < s.remainingReady ∧
    s.nextConnection = .erased ∧ ∃ reply t,
      retrieveServerEvent reply s = some (.error .halted, t) ∧ t.halt = some .danglingIterator := by
  have hrun : ((run {} [({ connect := .connected 5 }, .connect),
      ({ connect := .connected 6 }, .connect), ({ connect := .connected 7 }, .connect),
      (scanReply 5 7, .retrieveServerEvent), ({ rounds := [] }, .closeConnection 6)]).map fun s =>
      (s.remainingReady, s.nextConnection,
        (retrieveServerEvent { rounds := [{}] } s).map fun r => (thrown r.1, r.2.halt))) =
      some (1, .erased, some (some .halted, some .danglingIterator)) := by
    decide +kernel
  obtain ⟨s, hs, hfacts⟩ := Option.map_eq_some_iff.mp hrun
  simp only [Prod.mk.injEq, Option.map_eq_some_iff] at hfacts
  obtain ⟨hremaining, hnext, ⟨r, t⟩, hr, hthrown, hhalt⟩ := hfacts
  refine ⟨s, reachable_run (.initial {}) hs, by omega, hnext, { rounds := [{}] }, t, ?_, hhalt⟩
  obtain rfl := eq_error_of_thrown hthrown
  exact hr

end AsComponents.Client
