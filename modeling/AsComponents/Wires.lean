import AsComponents.Objects

/-! What was offered to a connection and what it accepted, and which thread is
in the middle of a batch. -/

namespace AsComponents.Server

open Protocol NameValue SocketFunctions AsComponents.Partition Std

/-! ## Sequences of batches -/

/-- All of a batch was accepted, or nothing of it. -/
def Transmission.Settled (t : Transmission) : Prop :=
  t.accepted = 0 ∨ t.accepted = t.bytes.length

/-- Nothing is accepted after a batch that was accepted in part. -/
def Orderly (ts : List Transmission) : Prop :=
  ts.Pairwise fun t t' => t.Settled ∨ t'.accepted = 0

/-- The bytes accepted of a sequence of batches. -/
def acceptedBytes (ts : List Transmission) : Bytes :=
  ts.flatMap fun t => t.bytes.take t.accepted

theorem orderly_append {ts : List Transmission} {t : Transmission} (h : Orderly ts)
    (ht : (∀ t' ∈ ts, t'.Settled) ∨ t.accepted = 0) : Orderly (ts ++ [t]) := by
  refine List.pairwise_append.mpr ⟨h, List.pairwise_singleton _ _, ?_⟩
  intro t' ht' t'' ht''
  obtain rfl := List.mem_singleton.mp ht''
  exact ht.imp_left fun hs => hs t' ht'

theorem Orderly.init {ts : List Transmission} {t : Transmission} (h : Orderly (ts ++ [t])) :
    Orderly ts := (List.pairwise_append.mp h).1

theorem acceptedBytes_append (ts : List Transmission) (t : Transmission) :
    acceptedBytes (ts ++ [t]) = acceptedBytes ts ++ t.bytes.take t.accepted := by
  simp [acceptedBytes]

theorem acceptUpTo_append (ts : List Transmission) (t : Transmission) (n : Nat) :
    acceptUpTo (ts ++ [t]) n = ts ++ [{ t with accepted := n }] := by
  simp [acceptUpTo]

/-! ## The invariant -/

/-- The thread of object `i` is in the middle of a batch. -/
structure Writes (s : System) (i : Nat) (iovec : List Bytes) (working total : Nat) : Prop where
  live : s.Live i
  data : ∃ d, s.requestMap[(s.requests i).requestIdentifier]? = some d ∧
    d.node = (s.requests i).node ∧ d.requestStatus = .requestAssigned
  mutex : ∃ m, s.writeMutexMap[(s.requests i).requestIdentifier.descriptor]? = some m ∧
    m.owner = some i ∧ m.socket = (s.requests i).socket
  last : ∃ before bytes, s.transmissions (s.requests i).socket =
      before ++ [⟨some (s.requests i).node, bytes, total - working⟩] ∧ bytes.length = total ∧
    iovec.flatten = bytes.drop (total - working) ∧
    ((∀ t ∈ before, t.Settled) ∨ (s.sockets (s.requests i).socket).broken = true ∧ working = total)
  length : iovec.flatten.length = working
  le : working ≤ total

structure Wires (s : System) : Prop where
  fresh : ∀ k, s.nextSocket ≤ k → s.sockets k = {} ∧ s.transmissions k = []
  sent : ∀ k, (s.sockets k).sent = acceptedBytes (s.transmissions k)
  accepted_le : ∀ k t, t ∈ s.transmissions k → t.accepted ≤ t.bytes.length
  records : ∀ k t, t ∈ s.transmissions k → ∃ rs : List Record, rs ≠ [] ∧ encodeRecords rs = t.bytes
  orderly : ∀ k, Orderly (s.transmissions k)
  settled : ∀ (c : Nat) (m : WriteMutex), s.writeMutexMap[c]? = some m → m.owner = none →
    m.corrupt = false → (s.sockets m.socket).broken = false →
      ∀ t ∈ s.transmissions m.socket, t.Settled
  owner : ∀ (c : Nat) (m : WriteMutex) (i : Nat), s.writeMutexMap[c]? = some m →
    m.owner = some i → (s.requests i).call.Writing ∧
      (s.requests i).requestIdentifier.descriptor = c ∧ (s.requests i).held = false
  writing : ∀ i rest type iovec working total,
    (s.requests i).call = .writing rest type iovec working total → Writes s i iovec working total

namespace Wires

variable {s t : System}

theorem writing_iff {call : Call} :
    call.Writing ↔ ∃ rest type iovec working total, call = .writing rest type iovec working total := by
  constructor
  · intro h
    cases call with
    | writing rest type iovec working total => exact ⟨rest, type, iovec, working, total, rfl⟩
    | _ => exact absurd h id
  · rintro ⟨_, _, _, _, _, rfl⟩
    trivial

theorem Writing.of_eq {rest : Bytes} {type : FcgiType} {iovec : List Bytes} {working total : Nat}
    {call : Call} (h : call = .writing rest type iovec working total) : call.Writing := by
  rw [h]
  trivial

/-- No batch is offered and nobody who writes is affected. -/
theorem congr (h : Wires s) (hs : t.sockets = s.sockets) (ht : t.transmissions = s.transmissions)
    (hn : s.nextSocket ≤ t.nextSocket)
    (hm : ∀ (c : Nat) (m : WriteMutex), t.writeMutexMap[c]? = some m →
      s.writeMutexMap[c]? = some m ∨ m.owner = none ∧ s.transmissions m.socket = [])
    (hkept : ∀ (c : Nat) (m : WriteMutex), s.writeMutexMap[c]? = some m → m.owner ≠ none →
      t.writeMutexMap[c]? = some m)
    (hr : ∀ i, (s.requests i).call.Writing ∨ (t.requests i).call.Writing →
      t.requests i = s.requests i)
    (hd : ∀ i (d : RequestData), (s.requests i).call.Writing →
      s.requestMap[(s.requests i).requestIdentifier]? = some d → d.requestStatus = .requestAssigned →
        ∃ d', t.requestMap[(s.requests i).requestIdentifier]? = some d' ∧ d'.node = d.node ∧
          d'.requestStatus = .requestAssigned)
    (hid : ∀ i, (s.requests i).call.Writing → t.interfaceIdentifier = s.interfaceIdentifier) :
    Wires t := by
  constructor
  · intro k hk
    rw [hs, ht]
    exact h.fresh k (by omega)
  · rw [hs, ht]
    exact h.sent
  · rw [ht]
    exact h.accepted_le
  · rw [ht]
    exact h.records
  · rw [ht]
    exact h.orderly
  · intro c m hmt ho hc hb
    rw [hs] at hb
    rw [ht]
    rcases hm c m hmt with hms | ⟨-, hnil⟩
    · exact h.settled c m hms ho hc hb
    · rw [hnil]
      simp
  · intro c m i hmt ho
    rcases hm c m hmt with hms | ⟨hnone, -⟩
    · have := h.owner c m i hms ho
      rw [hr i (.inl this.1)]
      exact this
    · rw [hnone] at ho
      cases ho
  · intro i rest type iovec working total hcall
    have he := hr i (.inr (Writing.of_eq hcall))
    rw [he] at hcall
    have hw := h.writing i rest type iovec working total hcall
    have hwriting := Writing.of_eq hcall
    obtain ⟨d, hdata, hnode, hassigned⟩ := hw.data
    obtain ⟨d', hdata', hnode', hassigned'⟩ := hd i d hwriting hdata hassigned
    obtain ⟨m, hmutex, howner, hsocket⟩ := hw.mutex
    refine ⟨?_, ⟨d', ?_, ?_, hassigned'⟩, ⟨m, ?_, howner, ?_⟩, ?_, hw.length, hw.le⟩
    · have := hw.live
      simp only [System.Live, he, hid i hwriting] at this ⊢
      exact this
    · rw [he]
      exact hdata'
    · rw [he]
      exact hnode'.trans hnode
    · rw [he]
      exact hkept _ m hmutex (by simp [howner])
    · rw [he]
      exact hsocket
    · rw [he, ht, hs]
      exact hw.last

/-- Neither mutexes nor sockets change, and no data of an assigned request. -/
theorem same (h : Wires s) (hs : t.sockets = s.sockets) (ht : t.transmissions = s.transmissions)
    (hn : t.nextSocket = s.nextSocket) (hm : t.writeMutexMap = s.writeMutexMap)
    (hr : ∀ i, (s.requests i).call.Writing ∨ (t.requests i).call.Writing →
      t.requests i = s.requests i)
    (hd : t.requestMap = s.requestMap) (hid : t.interfaceIdentifier = s.interfaceIdentifier) :
    Wires t := by
  refine h.congr hs ht (Nat.le_of_eq hn.symm) ?_ ?_ hr ?_ (fun _ _ => hid)
  · intro c m hmt
    rw [hm] at hmt
    exact .inl hmt
  · intro c m hms _
    rw [hm]
    exact hms
  · intro i d _ hds ha
    rw [hd]
    exact ⟨d, hds, rfl, ha⟩

/-- Data changes, but not whether a request is assigned. -/
theorem data (h : Wires s) (hs : t.sockets = s.sockets) (ht : t.transmissions = s.transmissions)
    (hn : t.nextSocket = s.nextSocket) (hm : t.writeMutexMap = s.writeMutexMap)
    (hr : t.requests = s.requests)
    (hd : ∀ (id : FcgiRequestIdentifier) (d : RequestData), s.requestMap[id]? = some d →
      d.requestStatus = .requestAssigned → ∃ d', t.requestMap[id]? = some d' ∧ d'.node = d.node ∧
        d'.requestStatus = .requestAssigned)
    (hid : t.interfaceIdentifier = s.interfaceIdentifier) : Wires t := by
  refine h.congr hs ht (Nat.le_of_eq hn.symm) ?_ ?_ ?_ ?_ (fun _ _ => hid)
  · intro c m hmt
    rw [hm] at hmt
    exact .inl hmt
  · intro c m hms _
    rw [hm]
    exact hms
  · intro i _
    rw [hr]
  · intro i d _ hds ha
    exact hd _ d hds ha

/-- An object changes that is not in the middle of a batch. -/
theorem setRequest (h : Wires s) {i : Nat} {o : FcgiRequest} (hcall : ¬ (s.requests i).call.Writing)
    (hcall' : ¬ o.call.Writing) : Wires (s.setRequest i o) := by
  refine h.same rfl rfl rfl rfl ?_ rfl rfl
  intro j hj
  by_cases hji : j = i
  · subst hji
    simp only [System.setRequest, Function.update_self] at hj
    exact absurd (hj.resolve_right hcall') hcall
  · simp [System.setRequest, hji]

/-- Two mutexes of one connection are the same. -/
theorem mutex_inj (ht : Tables s) {c c' : Nat} {m m' : WriteMutex}
    (hm : s.writeMutexMap[c]? = some m) (hm' : s.writeMutexMap[c']? = some m')
    (he : m.socket = m'.socket) : c = c' := by
  obtain ⟨r, hr⟩ := ht.mutex_socket c m hm
  obtain ⟨r', hr'⟩ := ht.mutex_socket c' m' hm'
  exact ht.socket_inj c c' _ _ hr hr' he

/-- An object that writes on another connection is not affected by what happens
to one mutex and its socket. -/
theorem writes_other {j c : Nat} {iovec : List Bytes} {working total : Nat} {m : WriteMutex}
    (ht : Tables s) (hw : Writes s j iovec working total) (hm : s.writeMutexMap[c]? = some m)
    (hmj : m.owner ≠ some j) (hreq : t.requests j = s.requests j)
    (hid : t.interfaceIdentifier = s.interfaceIdentifier) (hmap : t.requestMap = s.requestMap)
    (hmutex : ∀ c' : Nat, c' ≠ c → t.writeMutexMap[c']? = s.writeMutexMap[c']?)
    (hsockets : ∀ k, k ≠ m.socket → t.sockets k = s.sockets k ∧ t.transmissions k = s.transmissions k) :
    Writes t j iovec working total := by
  obtain ⟨mj, hmj', howner, hsocket⟩ := hw.mutex
  have hc : (s.requests j).requestIdentifier.descriptor ≠ c := by
    intro he
    rw [he, hm, Option.some.injEq] at hmj'
    subst hmj'
    exact hmj howner
  have hk : (s.requests j).socket ≠ m.socket := by
    intro he
    exact hc (mutex_inj ht hmj' hm (hsocket.trans he))
  obtain ⟨hk₁, hk₂⟩ := hsockets _ hk
  refine ⟨?_, ?_, ⟨mj, ?_, howner, ?_⟩, ?_, hw.length, hw.le⟩
  · have := hw.live
    simp only [System.Live, hreq, hid] at this ⊢
    exact this
  · rw [hreq, hmap]
    exact hw.data
  · rw [hreq, hmutex _ hc]
    exact hmj'
  · rw [hreq]
    exact hsocket
  · rw [hreq, hk₁, hk₂]
    exact hw.last

/-- One mutex, its socket and the objects that hold it before and afterwards
change. -/
theorem transmit (h : Wires s) (ht : Tables s) {c : Nat} {m : WriteMutex} (m' : WriteMutex)
    (socket : Socket) {ts : List Transmission} (hm : s.writeMutexMap[c]? = some m)
    (hsocket : m'.socket = m.socket)
    (hmutex : ∀ c' : Nat, t.writeMutexMap[c']? = if c' = c then some m' else s.writeMutexMap[c']?)
    (hsockets : t.sockets = Function.update s.sockets m.socket socket)
    (hts : t.transmissions = Function.update s.transmissions m.socket ts)
    (hnext : t.nextSocket = s.nextSocket) (hmap : t.requestMap = s.requestMap)
    (hid : t.interfaceIdentifier = s.interfaceIdentifier)
    (hreq : ∀ j, m.owner ≠ some j → m'.owner ≠ some j → t.requests j = s.requests j)
    (hsent : socket.sent = acceptedBytes ts) (hle : ∀ t ∈ ts, t.accepted ≤ t.bytes.length)
    (hrecords : ∀ t ∈ ts, ∃ rs : List Record, rs ≠ [] ∧ encodeRecords rs = t.bytes)
    (horderly : Orderly ts)
    (hsettled : m'.owner = none → m'.corrupt = false → socket.broken = false →
      ∀ t ∈ ts, t.Settled)
    (hnew : ∀ i, m'.owner = some i → m.owner = some i ∨ ¬ (s.requests i).call.Writing)
    (howner : ∀ i, m'.owner = some i → (t.requests i).call.Writing ∧
      (t.requests i).requestIdentifier.descriptor = c ∧ (t.requests i).held = false)
    (hwrites : ∀ i rest type iovec working total, m'.owner = some i →
      (t.requests i).call = .writing rest type iovec working total →
        Writes t i iovec working total)
    (hreleased : ∀ i, m.owner = some i → m'.owner ≠ some i → ¬ (t.requests i).call.Writing) :
    Wires t := by
  obtain ⟨r, hr⟩ := ht.mutex_socket c m hm
  have hlt : m.socket < s.nextSocket := ht.socket_lt c _ hr
  have hother : ∀ k, k ≠ m.socket →
      t.sockets k = s.sockets k ∧ t.transmissions k = s.transmissions k := by
    intro k hk
    simp [hsockets, hts, hk]
  constructor
  · intro k hk
    have hne : k ≠ m.socket := by omega
    rw [(hother k hne).1, (hother k hne).2]
    exact h.fresh k (by omega)
  · intro k
    by_cases hk : k = m.socket
    · subst hk
      simpa [hsockets, hts] using hsent
    · rw [(hother k hk).1, (hother k hk).2]
      exact h.sent k
  · intro k
    by_cases hk : k = m.socket
    · subst hk
      simpa [hts] using hle
    · rw [(hother k hk).2]
      exact h.accepted_le k
  · intro k
    by_cases hk : k = m.socket
    · subst hk
      simpa [hts] using hrecords
    · rw [(hother k hk).2]
      exact h.records k
  · intro k
    by_cases hk : k = m.socket
    · subst hk
      simpa [hts] using horderly
    · rw [(hother k hk).2]
      exact h.orderly k
  · intro c' m₁ hm₁ ho hc hb
    rw [hmutex] at hm₁
    split at hm₁
    · cases hm₁
      rw [hsocket] at hb ⊢
      simp only [hsockets, hts, Function.update_self] at hb ⊢
      exact hsettled ho hc hb
    · rename_i hne
      have hk : m₁.socket ≠ m.socket := fun he => hne (mutex_inj ht hm₁ hm he)
      rw [(hother _ hk).1] at hb
      rw [(hother _ hk).2]
      exact h.settled c' m₁ hm₁ ho hc hb
  · intro c' m₁ i hm₁ ho
    rw [hmutex] at hm₁
    split at hm₁
    · rename_i he
      cases hm₁
      rw [he]
      exact howner i ho
    · rename_i hne
      have hs := h.owner c' m₁ i hm₁ ho
      have hi : m.owner ≠ some i := by
        intro hmi
        exact hne (hs.2.1.symm.trans (h.owner c m i hm hmi).2.1)
      have hi' : m'.owner ≠ some i := by
        intro hmi
        rcases hnew i hmi with hmi' | hnw
        · exact hi hmi'
        · exact hnw hs.1
      rw [hreq i hi hi']
      exact hs
  · intro i rest type iovec working total hcall
    by_cases hi' : m'.owner = some i
    · exact hwrites i rest type iovec working total hi' hcall
    · by_cases hi : m.owner = some i
      · exact absurd (Writing.of_eq hcall) (hreleased i hi hi')
      · have he := hreq i hi hi'
        rw [he] at hcall
        refine writes_other ht (h.writing i rest type iovec working total hcall) hm hi he hid hmap
          ?_ hother
        intro c' hc'
        rw [hmutex, if_neg hc']

/-- A whole batch is offered at once. -/
theorem offered (h : Wires s) (ht : Tables s) {c : Nat} {m : WriteMutex} (origin : Option Nat)
    {bytes : Bytes} {socket : Socket} {accepted : Nat} {corrupt : Bool}
    (ho : Offer s c m bytes socket accepted corrupt)
    (hrecords : ∃ rs : List Record, rs ≠ [] ∧ encodeRecords rs = bytes) :
    Wires (s.offered c m origin bytes socket accepted corrupt) := by
  have hbroken : (s.sockets m.socket).broken = true → socket.broken = true ∧ accepted = 0 := by
    intro hb
    obtain ⟨hb', he⟩ := ho.accepts.stays_broken hb
    refine ⟨hb', ?_⟩
    have hlen := congrArg List.length he
    have hne : bytes ≠ [] := by
      obtain ⟨rs, hrs, rfl⟩ := hrecords
      obtain ⟨r, rs', rfl⟩ := List.exists_cons_of_ne_nil hrs
      simp [Record.encode, Record.header, populateHeader]
    have hpos := List.length_pos_iff.mpr hne
    have hle := ho.le
    rw [List.length_drop] at hlen
    omega
  have hsettled : (∀ t ∈ s.transmissions m.socket, t.Settled) ∨ accepted = 0 := by
    by_cases hb : (s.sockets m.socket).broken = true
    · exact .inr (hbroken hb).2
    · exact .inl (h.settled c m ho.mutex ho.free ho.intact (by simpa using hb))
  refine h.transmit ht { m with corrupt := m.corrupt || corrupt } socket ho.mutex rfl ?_ rfl rfl rfl
    rfl rfl ?_ ?_ ?_ ?_ ?_ ?_ ?_ ?_ ?_ ?_
  · intro c'
    simp only [System.offered, System.setWriteMutex, System.setTransmissions, System.setSocket]
    grind
  · intro j _ _
    rfl
  · have hs := ho.accepts.sent_eq
    have hle := ho.le
    rw [List.length_drop, show bytes.length - (bytes.length - accepted) = accepted by omega] at hs
    rw [hs, acceptedBytes_append, h.sent]
  · intro t htm
    rcases List.mem_append.mp htm with htm | htm
    · exact h.accepted_le _ t htm
    · obtain rfl := List.mem_singleton.mp htm
      exact ho.le
  · intro t htm
    rcases List.mem_append.mp htm with htm | htm
    · exact h.records _ t htm
    · obtain rfl := List.mem_singleton.mp htm
      exact hrecords
  · exact orderly_append (h.orderly _) hsettled
  · intro _ hc hb t htm
    have hc' : corrupt = false := by
      have : (m.corrupt || corrupt) = false := hc
      rw [ho.intact] at this
      simpa using this
    rcases List.mem_append.mp htm with htm | htm
    · refine h.settled c m ho.mutex ho.free ho.intact ?_ t htm
      by_contra hbr
      rw [(hbroken (by simpa using hbr)).1] at hb
      cases hb
    · obtain rfl := List.mem_singleton.mp htm
      have hle := ho.le
      have hp := ho.partly
      show accepted = 0 ∨ accepted = bytes.length
      by_contra hne
      rcases hp (by omega) (by omega) with hp | hp
      · rw [hc'] at hp
        cases hp
      · rw [hb] at hp
        cases hp
  · intro i hi
    have hi' : m.owner = some i := hi
    rw [ho.free] at hi'
    cases hi'
  · intro i hi
    have hi' : m.owner = some i := hi
    rw [ho.free] at hi'
    cases hi'
  · intro i _ _ _ _ _ hi
    have hi' : m.owner = some i := hi
    rw [ho.free] at hi'
    cases hi'
  · intro i hi
    rw [ho.free] at hi
    cases hi

/-- An object removes its request. -/
theorem retired (h : Wires s) (hobj : Objects s) {i n : Nat} {d : RequestData} {o : FcgiRequest}
    (owns : Owns s i d) (hcall : ¬ (s.requests i).call.Writing) (hspent : Spent (s.requests i) o) :
    Wires (s.retired i o n) := by
  have hne : ∀ j, (s.requests j).call.Writing → j ≠ i := by
    rintro j hj rfl
    exact hcall hj
  have ho : ¬ o.call.Writing := by
    rcases hspent with rfl | ⟨aborted, rfl⟩ <;> exact id
  have hreq : ∀ j, (s.requests j).call.Writing ∨ ((s.retired i o n).requests j).call.Writing →
      (s.retired i o n).requests j = s.requests j := by
    intro j hj
    by_cases hji : j = i
    · subst hji
      have he : (s.retired j o n).requests j = o := by simp [System.retired, System.setRequest]
      rw [he] at hj
      exact absurd (hj.resolve_left hcall) ho
    · simp [System.retired, System.setRequest, System.record, System.eraseRequest, hji]
  refine h.congr (t := s.retired i o n) rfl rfl (Nat.le_refl _) (fun _ _ hm => .inl hm)
    (fun _ _ hm _ => hm) hreq ?_ (fun _ _ => rfl)
  intro j dj hj hdj ha
  obtain ⟨rest, type, iovec, working, total, hjcall⟩ := writing_iff.mp hj
  have hlive := (h.writing j rest type iovec working total hjcall).live
  have hid : (s.requests j).requestIdentifier ≠ (s.requests i).requestIdentifier := by
    intro he
    exact hne j hj (hobj.inj owns.good j i hlive owns.live he)
  refine ⟨dj, ?_, rfl, ha⟩
  simp only [System.retired, System.setRequest, System.record, System.eraseRequest]
  grind

theorem records_streamBatch {fcgiId : UInt16} {bytes : Bytes} (hb : StreamBatch fcgiId bytes) :
    ∃ rs : List Record, rs ≠ [] ∧ encodeRecords rs = bytes := by
  obtain ⟨rs, hne, he, -⟩ := hb
  exact ⟨rs, hne, he⟩

/-- The thread of an object acquires the write mutex. -/
theorem acquire (h : Wires s) (ht : Tables s) {i : Nat} {d : RequestData} {m : WriteMutex}
    {rest bytes : Bytes} {type : FcgiType} {iovec : List Bytes} (owns : Owns s i d)
    (hresting : (s.requests i).call.Resting) (hheld : (s.requests i).held = false)
    (hm : s.writeMutexMap[(s.requests i).requestIdentifier.descriptor]? = some m)
    (hown : m.socket = (s.requests i).socket) (hfree : m.owner = none) (hintact : m.corrupt = false)
    (hflat : iovec.flatten = bytes)
    (hbatch : StreamBatch (s.requests i).requestIdentifier.fcgiId bytes) :
    Wires (((s.setWriteMutex (s.requests i).requestIdentifier.descriptor
      { m with owner := some i }).setTransmissions m.socket
        (s.transmissions m.socket ++ [⟨some (s.requests i).node, bytes, 0⟩])).setRequest i
      { s.requests i with call := .writing rest type iovec bytes.length bytes.length }) := by
  refine h.transmit ht { m with owner := some i } (s.sockets m.socket) hm rfl ?_ ?_ rfl rfl
    rfl rfl ?_ ?_ ?_ ?_ ?_ ?_ ?_ ?_ ?_ ?_
  · intro c'
    simp only [System.setWriteMutex, System.setTransmissions, System.setRequest]
    grind
  · simp [System.setWriteMutex, System.setTransmissions, System.setRequest]
  · intro j _ hj
    have hji : j ≠ i := by
      rintro rfl
      exact hj rfl
    simp [System.setWriteMutex, System.setTransmissions, System.setRequest, hji]
  · rw [acceptedBytes_append, h.sent]
    simp
  · intro t htm
    rcases List.mem_append.mp htm with htm | htm
    · exact h.accepted_le _ t htm
    · obtain rfl := List.mem_singleton.mp htm
      exact Nat.zero_le _
  · intro t htm
    rcases List.mem_append.mp htm with htm | htm
    · exact h.records _ t htm
    · obtain rfl := List.mem_singleton.mp htm
      exact records_streamBatch hbatch
  · exact orderly_append (h.orderly _) (.inr rfl)
  · intro hn
    cases hn
  · intro j hj
    cases hj
    right
    intro hw
    cases hc : (s.requests i).call <;> rw [hc] at hw hresting
    · exact hw
    · exact hw
    · exact hresting
    · exact hw
  · intro j hj
    cases hj
    simp only [System.setRequest, System.setTransmissions, System.setWriteMutex,
      Function.update_self]
    exact ⟨trivial, trivial, hheld⟩
  · intro j rest' type' iovec' working' total' hj hcall
    cases hj
    simp only [System.setRequest, Function.update_self, Call.writing.injEq] at hcall
    obtain ⟨rfl, rfl, rfl, rfl, rfl⟩ := hcall
    refine ⟨?_, ⟨d, ?_, ?_, owns.assigned⟩, ⟨{ m with owner := some i }, ?_, rfl, ?_⟩, ?_, ?_,
      Nat.le_refl _⟩
    · have := owns.live
      simpa [System.Live, System.setRequest, System.setTransmissions, System.setWriteMutex] using this
    · simpa [System.setRequest, System.setTransmissions, System.setWriteMutex] using owns.data
    · simpa [System.setRequest, System.setTransmissions, System.setWriteMutex] using owns.node
    · simp [System.setRequest, System.setTransmissions, System.setWriteMutex]
    · simpa [System.setRequest, System.setTransmissions, System.setWriteMutex] using hown
    · refine ⟨s.transmissions m.socket, bytes, ?_, rfl, ?_, ?_⟩
      · simp [System.setRequest, System.setTransmissions, System.setWriteMutex, ← hown]
      · simpa using hflat
      · by_cases hb : (s.sockets m.socket).broken = true
        · right
          simpa [System.setRequest, System.setTransmissions, System.setWriteMutex, ← hown] using hb
        · exact .inl (h.settled _ m hm hfree hintact (by simpa using hb))
    · rw [hflat]
  · intro j hj
    rw [hfree] at hj
    cases hj

/-- The next round of a batch: what a write accepted is the next part of it. -/
theorem round (h : Wires s) {i : Nat} {rest : Bytes} {type : FcgiType}
    {iovec : List Bytes} {working total : Nat} {socket : Socket} {unwritten : Bytes}
    (hcall : (s.requests i).call = .writing rest type iovec working total)
    (ha : Accepted (s.sockets (s.requests i).socket) socket iovec.flatten unwritten) :
    ∃ before bytes, s.transmissions (s.requests i).socket =
        before ++ [⟨some (s.requests i).node, bytes, total - working⟩] ∧
      acceptUpTo (s.transmissions (s.requests i).socket) (total - unwritten.length) =
        before ++ [⟨some (s.requests i).node, bytes, total - unwritten.length⟩] ∧
      bytes.length = total ∧ unwritten.length ≤ total ∧
      unwritten = bytes.drop (total - unwritten.length) ∧
      socket.sent = acceptedBytes (before ++
        [⟨some (s.requests i).node, bytes, total - unwritten.length⟩]) ∧
      ((∀ t ∈ before, t.Settled) ∨ socket.broken = true ∧ unwritten.length = total) := by
  have hw := h.writing i rest type iovec working total hcall
  obtain ⟨before, bytes, hts, hlen, hflat, hstate⟩ := hw.last
  have hule := ha.length_le
  have hwle := hw.le
  have hwlen := hw.length
  refine ⟨before, bytes, hts, ?_, hlen, by omega, ?_, ?_, ?_⟩
  · rw [hts, acceptUpTo_append]
  · have he := ha.unwritten_eq
    rw [hwlen, hflat, List.drop_drop] at he
    rw [show total - unwritten.length = total - working + (working - unwritten.length) by omega]
    exact he
  · have hs := ha.sent_eq
    rw [hs, h.sent, hts, acceptedBytes_append, acceptedBytes_append, hwlen, hflat,
      List.append_assoc]
    simp only
    rw [show total - unwritten.length = total - working + (working - unwritten.length) by omega,
      List.take_add]
  · rcases hstate with hall | ⟨hb, he⟩
    · exact .inl hall
    · right
      obtain ⟨hb', hu⟩ := ha.stays_broken hb
      refine ⟨hb', ?_⟩
      rw [hu]
      omega

/-- The batches of a connection after a round. -/
theorem round_transmissions (h : Wires s) {k : Nat} {before : List Transmission} {origin : Option Nat}
    {bytes : Bytes} {accepted : Nat} (accepted' : Nat)
    (hts : s.transmissions k = before ++ [⟨origin, bytes, accepted⟩]) (hle : accepted' ≤ bytes.length)
    (hs : (∀ t ∈ before, t.Settled) ∨ accepted' = 0) :
    (∀ t ∈ before ++ [(⟨origin, bytes, accepted'⟩ : Transmission)], t.accepted ≤ t.bytes.length) ∧
      (∀ t ∈ before ++ [(⟨origin, bytes, accepted'⟩ : Transmission)],
        ∃ rs : List Record, rs ≠ [] ∧ encodeRecords rs = t.bytes) ∧
      Orderly (before ++ [⟨origin, bytes, accepted'⟩]) := by
  have hlast : (⟨origin, bytes, accepted⟩ : Transmission) ∈ s.transmissions k := by simp [hts]
  have hbefore : ∀ t ∈ before, t ∈ s.transmissions k := by
    intro t ht
    simp [hts, ht]
  refine ⟨?_, ?_, ?_⟩
  · intro t ht
    rcases List.mem_append.mp ht with ht | ht
    · exact h.accepted_le k t (hbefore t ht)
    · obtain rfl := List.mem_singleton.mp ht
      exact hle
  · intro t ht
    rcases List.mem_append.mp ht with ht | ht
    · exact h.records k t (hbefore t ht)
    · obtain rfl := List.mem_singleton.mp ht
      obtain ⟨rs, hrs, he⟩ := h.records k _ hlast
      exact ⟨rs, hrs, he⟩
  · have ho := h.orderly k
    rw [hts] at ho
    exact orderly_append ho.init hs

theorem progress (h : Wires s) (ht : Tables s) {i : Nat} {rest : Bytes} {type : FcgiType}
    {iovec iovec' : List Bytes} {working total remaining : Nat} {socket : Socket}
    (hcall : (s.requests i).call = .writing rest type iovec working total)
    (ha : Accepted (s.sockets (s.requests i).socket) socket iovec.flatten iovec'.flatten)
    (hlen : iovec'.flatten.length = remaining) :
    Wires (((s.setSocket (s.requests i).socket socket).setTransmissions (s.requests i).socket
      (acceptUpTo (s.transmissions (s.requests i).socket) (total - remaining))).setRequest i
        { s.requests i with call := .writing rest type iovec' remaining total }) := by
  have hw := h.writing i rest type iovec working total hcall
  obtain ⟨m, hm, howner, hsocket⟩ := hw.mutex
  obtain ⟨before, bytes, hts, hup, hbytes, hle, hdrop, hsent, hstate⟩ := h.round hcall ha
  rw [hlen] at hup hle hdrop hsent hstate
  obtain ⟨h₁, h₂, h₃⟩ := h.round_transmissions (total - remaining) hts (by omega)
    (hstate.imp_right fun hs => by omega)
  have hheld := (h.owner _ m i hm howner).2.2
  refine h.transmit ht m socket hm rfl ?_ (by rw [hsocket]; rfl)
    (by rw [hsocket]; rfl) rfl rfl rfl ?_ ?_ ?_ ?_ ?_ ?_ ?_ ?_ ?_ ?_
  · intro c'
    split
    · rename_i he
      rw [he]
      exact hm
    · rfl
  · intro j hj _
    have hji : j ≠ i := by
      rintro rfl
      exact hj howner
    simp [System.setTransmissions, System.setRequest, System.setSocket, hji]
  · rw [hup]
    exact hsent
  · rw [hup]
    exact h₁
  · rw [hup]
    exact h₂
  · rw [hup]
    exact h₃
  · intro hn
    rw [howner] at hn
    cases hn
  · intro j hj
    exact .inl hj
  · intro j hj
    obtain rfl : i = j := by simpa [howner] using hj
    simp only [System.setRequest, System.setTransmissions, System.setSocket, Function.update_self]
    exact ⟨trivial, trivial, hheld⟩
  · intro j rest' type' iovec₁ working' total' hj hcall'
    obtain rfl : i = j := by simpa [howner] using hj
    simp only [System.setRequest, Function.update_self, Call.writing.injEq] at hcall'
    obtain ⟨rfl, rfl, rfl, rfl, rfl⟩ := hcall'
    refine ⟨?_, ?_, ⟨m, ?_, howner, ?_⟩, ⟨before, bytes, ?_, hbytes, hdrop, ?_⟩, hlen, hle⟩
    · have := hw.live
      simpa [System.Live, System.setRequest, System.setTransmissions, System.setSocket] using this
    · simpa [System.setRequest, System.setTransmissions, System.setSocket] using hw.data
    · simpa [System.setRequest, System.setTransmissions, System.setSocket] using hm
    · simpa [System.setRequest, System.setTransmissions, System.setSocket] using hsocket
    · simpa [System.setRequest, System.setTransmissions, System.setSocket] using hup
    · simpa [System.setRequest, System.setTransmissions, System.setSocket] using hstate
  · intro j hj hj'
    exact absurd hj hj'

theorem leave (h : Wires s) (ht : Tables s) {i : Nat} {rest : Bytes} {type : FcgiType}
    {iovec : List Bytes} {working total remaining : Nat} {m : WriteMutex} {socket : Socket}
    {corrupt : Bool} {unwritten : Bytes} {after : Call}
    (hcall : (s.requests i).call = .writing rest type iovec working total)
    (hm : s.writeMutexMap[(s.requests i).requestIdentifier.descriptor]? = some m)
    (ha : Accepted (s.sockets (s.requests i).socket) socket iovec.flatten unwritten)
    (hlen : unwritten.length = remaining) (hafter : ¬ after.Writing)
    (hpartly : 0 < remaining → remaining < total → corrupt = true ∨ socket.broken = true) :
    Wires ((((s.setSocket (s.requests i).socket socket).setTransmissions (s.requests i).socket
      (acceptUpTo (s.transmissions (s.requests i).socket) (total - remaining))).setWriteMutex
        (s.requests i).requestIdentifier.descriptor
        { m with owner := none, corrupt := m.corrupt || corrupt }).setRequest i
          { s.requests i with call := after }) := by
  have hw := h.writing i rest type iovec working total hcall
  obtain ⟨m₀, hm₀, howner, hsocket⟩ := hw.mutex
  obtain rfl : m₀ = m := Option.some.inj (hm₀.symm.trans hm)
  obtain ⟨before, bytes, hts, hup, hbytes, hle, hdrop, hsent, hstate⟩ := h.round hcall ha
  rw [hlen] at hup hle hdrop hsent hstate
  obtain ⟨h₁, h₂, h₃⟩ := h.round_transmissions (total - remaining) hts (by omega)
    (hstate.imp_right fun hs => by omega)
  refine h.transmit ht { m₀ with owner := none, corrupt := m₀.corrupt || corrupt }
    socket hm rfl ?_ (by rw [hsocket]; rfl) (by rw [hsocket]; rfl) rfl rfl rfl
    ?_ ?_ ?_ ?_ ?_ ?_ ?_ ?_ ?_ ?_
  · intro c'
    simp only [System.setWriteMutex, System.setTransmissions, System.setSocket, System.setRequest]
    grind
  · intro j hj _
    have hji : j ≠ i := by
      rintro rfl
      exact hj howner
    simp [System.setTransmissions, System.setRequest, System.setSocket, System.setWriteMutex, hji]
  · rw [hup]
    exact hsent
  · rw [hup]
    exact h₁
  · rw [hup]
    exact h₂
  · rw [hup]
    exact h₃
  · intro _ hc hb t htm
    have hc' : corrupt = false := by
      have : (m₀.corrupt || corrupt) = false := hc
      simp only [Bool.or_eq_false_iff] at this
      exact this.2
    rw [hup] at htm
    have hall : ∀ t ∈ before, t.Settled := by
      refine hstate.resolve_right ?_
      rintro ⟨hb', -⟩
      rw [hb] at hb'
      cases hb'
    rcases List.mem_append.mp htm with htm | htm
    · exact hall t htm
    · obtain rfl := List.mem_singleton.mp htm
      show total - remaining = 0 ∨ total - remaining = bytes.length
      by_contra hne
      rcases hpartly (by omega) (by omega) with hp | hp
      · rw [hc'] at hp
        cases hp
      · rw [hb] at hp
        cases hp
  · intro j hj
    cases hj
  · intro j hj
    cases hj
  · intro j _ _ _ _ _ hj
    cases hj
  · intro j hj _
    obtain rfl : i = j := by simpa [howner] using hj
    simpa [System.setRequest, System.setTransmissions, System.setSocket, System.setWriteMutex]
      using hafter

theorem resting_not_writing {call : Call} (h : call.Resting) : ¬ call.Writing := by
  cases call <;> first | exact id | exact fun _ => h

theorem requestMove (h : Wires s) (ht : Tables s) (hobj : Objects s) {i : Nat}
    (hm : RequestMove i s t) : Wires t := by
  cases hm with
  | object completed aborted call hold hresting hresting' =>
    refine h.setRequest ?_ (resting_not_writing hresting')
    rcases hresting with hr | ⟨-, hr⟩
    · exact resting_not_writing hr
    · exact hr
  | drop hcall => exact h.setRequest hcall id
  | retire owns hcall hspent _ => exact h.retired hobj owns hcall hspent
  | conclude owns hidle hspent _ hown hoffer =>
    have h' := h.offered ht (some (s.requests i).node) hoffer
      ⟨_, by simp [conclusionRecords], rfl⟩
    refine h'.retired (hobj.offered ..) (owns.offered ..) ?_ hspent
    show ¬ (s.requests i).call.Writing
    rw [hidle]
    exact id
  | acquire owns hresting hheld hm hown hfree hintact _ hflat _ hbatch =>
    exact h.acquire ht owns hresting hheld hm hown hfree hintact hflat hbatch
  | progress hcall ha hlen => exact h.progress ht hcall ha hlen
  | leave hcall hm ha hlen hended _ hpartly =>
    refine h.leave ht hcall hm ha hlen ?_ hpartly
    rcases hended with ⟨-, hr⟩ | ⟨_, _, rfl⟩
    · exact resting_not_writing hr
    · exact id
  | moveConstruct hidle hheld hold =>
    refine h.same rfl rfl rfl rfl ?_ rfl rfl
    intro j hj
    have hfresh := hobj.fresh s.nextRequest (Nat.le_refl _)
    have hi : ¬ (s.requests i).call.Writing := by
      rw [hidle]
      exact id
    simp only [System.setRequest] at hj ⊢
    by_cases hji : j = i
    · subst hji
      simp only [Function.update_self] at hj
      exact absurd (hj.resolve_right id) hi
    · by_cases hjn : j = s.nextRequest
      · subst hjn
        simp only [Function.update_of_ne hji, Function.update_self, hfresh] at hj
        exact absurd (hj.resolve_left id) hi
      · simp [hji, hjn]
  | @moveAssign j hne hidle hheld hidle' =>
    refine h.same rfl rfl rfl rfl ?_ rfl rfl
    intro k hk
    have hi : ¬ (s.requests i).call.Writing := by
      rw [hidle]
      exact id
    have hj : ¬ (s.requests j).call.Writing := by
      rw [hidle']
      exact id
    simp only [System.setRequest] at hk ⊢
    by_cases hkj : k = j
    · subst hkj
      simp only [Function.update_self] at hk
      exact absurd (hk.resolve_right id) hj
    · by_cases hki : k = i
      · subst hki
        simp only [Function.update_of_ne hkj, Function.update_self] at hk
        exact absurd (hk.resolve_left hi) hj
      · simp [hki, hkj]
  | _ => exact h.same rfl rfl rfl rfl (fun _ _ => rfl) rfl rfl

/-- A mutex that nobody holds is removed. -/
theorem eraseMutex (h : Wires s) {c : Nat} {m : WriteMutex} (hm : s.writeMutexMap[c]? = some m)
    (hfree : m.owner = none) (hs : t.sockets = s.sockets) (ht : t.transmissions = s.transmissions)
    (hn : t.nextSocket = s.nextSocket) (hw : t.writeMutexMap = s.writeMutexMap.erase c)
    (hr : t.requests = s.requests)
    (hd : ∀ (id : FcgiRequestIdentifier) (d : RequestData), s.requestMap[id]? = some d →
      d.requestStatus = .requestAssigned → ∃ d', t.requestMap[id]? = some d' ∧ d'.node = d.node ∧
        d'.requestStatus = .requestAssigned)
    (hid : t.interfaceIdentifier = s.interfaceIdentifier) : Wires t := by
  refine h.congr hs ht (Nat.le_of_eq hn.symm) ?_ ?_ ?_ ?_ (fun _ _ => hid)
  · intro c' m' hm'
    rw [hw] at hm'
    exact .inl (by grind)
  · intro c' m' hm' ho
    rw [hw]
    grind
  · intro i _
    rw [hr]
  · intro i d _ hds ha
    exact hd _ d hds ha

theorem interfaceMove (h : Wires s) (ht : Tables s) (hobj : Objects s) {loose : Option Nat}
    (hm : InterfaceMove loose s t) : Wires t := by
  cases hm with
  | request i hm => exact h.requestMove ht hobj hm
  | beginRequest hnew =>
    refine h.data rfl rfl rfl rfl rfl ?_ rfl
    intro id' d hd ha
    exact ⟨d, by grind, rfl, ha⟩
  | touch hd hsame =>
    refine h.data rfl rfl rfl rfl rfl ?_ rfl
    intro id' d' hd' ha
    have h₁ := hsame.node
    have h₂ := hsame.requestStatus
    simp only [System.setData]
    grind
  | remove ended hd hpending =>
    refine h.data rfl rfl rfl rfl rfl ?_ rfl
    intro id' d' hd' ha
    refine ⟨d', ?_, rfl, ha⟩
    simp only [System.eraseRequest]
    grind
  | construct hgood halive hd hpending =>
    refine h.congr rfl rfl (Nat.le_refl _) (fun _ _ hm => .inl hm) (fun _ _ hm _ => hm) ?_ ?_
      (fun _ _ => rfl)
    · intro j hj
      have hfresh := hobj.fresh s.nextRequest (Nat.le_refl _)
      by_cases hjn : j = s.nextRequest
      · subst hjn
        simp only [Function.update_self, hfresh] at hj
        exact absurd hj (by rintro (hw | hw) <;> exact hw)
      · simp [hjn]
    · intro j d' _ hd' ha
      exact ⟨d', by grind, rfl, ha⟩
  | send hoffer hrecord =>
    obtain ⟨r, hr⟩ := hrecord
    exact h.offered ht _ hoffer ⟨[r], by simp, by simpa using hr⟩
  | closeConnection hm hfree =>
    exact h.eraseMutex hm hfree rfl rfl rfl rfl rfl (fun _ d hd ha => ⟨d, hd, rfl, ha⟩) rfl
  | @makeDummy c m requests hm hfree hflag =>
    refine h.eraseMutex hm hfree rfl rfl rfl rfl rfl ?_ rfl
    intro id d hd ha
    have hid := hflag id
    rw [hd] at hid
    by_cases hc : id.descriptor = c
    · rw [if_pos hc] at hid
      exact ⟨_, hid, rfl, ha⟩
    · rw [if_neg hc] at hid
      exact ⟨d, hid, rfl, ha⟩
  | flag _ hd ha =>
    refine h.data rfl rfl rfl rfl rfl ?_ rfl
    intro id' d' hd' ha'
    simp only [System.setData]
    grind
  | @register c _ hclosed =>
    have hnew : c ∉ s.writeMutexMap := by
      intro hc
      have := (ht.descriptors_iff c).mpr (.inl hc)
      rw [ExtTreeMap.contains_iff_mem.mpr this] at hclosed
      cases hclosed
    refine h.congr rfl rfl (Nat.le_succ _) ?_ ?_ (fun _ _ => rfl)
      (fun _ d _ hd ha => ⟨d, hd, rfl, ha⟩) (fun _ _ => rfl)
    · intro c' m' hm'
      simp only [ExtTreeMap.getElem?_insert] at hm'
      split at hm'
      · cases hm'
        exact .inr ⟨rfl, (h.fresh _ (Nat.le_refl _)).2⟩
      · exact .inl hm'
    · intro c' m' hm' _
      grind
  | release objects =>
    refine h.same rfl rfl rfl rfl ?_ rfl rfl
    intro i hi
    have hreq : (Server.release s objects).requests i =
      if i ∈ objects then { s.requests i with held := false } else s.requests i := rfl
    have hw : (s.requests i).call.Writing := by
      rcases hi with hi | hi
      · exact hi
      · rw [hreq] at hi
        split at hi <;> exact hi
    obtain ⟨rest, type, iovec, working, total, hcall⟩ := writing_iff.mp hw
    have hheld : (s.requests i).held = false := by
      by_contra hne
      have := hobj.held_idle i (by simpa using hne)
      rw [hcall] at this
      cases this
    rw [hreq]
    split
    · generalize s.requests i = o at hheld
      cases o
      simp only at hheld
      subst hheld
      rfl
    · rfl
  | @destroy order assigned requests hfree _ _ hobjects =>
    have hnone : ∀ i, ¬ (s.requests i).call.Writing := by
      intro i hi
      obtain ⟨rest, type, iovec, working, total, hcall⟩ := writing_iff.mp hi
      obtain ⟨m, hm, howner, -⟩ := (h.writing i rest type iovec working total hcall).mutex
      rw [hfree _ m hm] at howner
      cases howner
    refine h.congr rfl rfl (Nat.le_refl _) ?_ ?_ ?_ ?_ ?_
    · intro c m hm
      simp at hm
    · intro c m hm ho
      exact absurd (hfree c m hm) ho
    · intro i hi
      have hi' : (requests i).call.Writing := hi.resolve_left (hnone i)
      rcases hobjects i with he | he
      · exact he
      · rw [he] at hi'
        exact absurd hi' id
    · intro i _ hi
      exact absurd hi (hnone i)
    · intro i hi
      exact absurd hi (hnone i)
  | _ => exact h.same rfl rfl rfl rfl (fun _ _ => rfl) rfl rfl

end Wires

end AsComponents.Server
