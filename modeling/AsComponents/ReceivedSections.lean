import AsComponents.Reading
import AsComponents.Reception
import AsComponents.Uninterrupted

/-! The sections of `ReadRecords` when nothing fails: each does what the
interface as a function of bytes does, and keeps some iterator. -/

namespace AsComponents

/-! ## System calls that do not fail -/

namespace SocketFunctions

/-- A result after which `WriteOnSelect` goes on. -/
def IoResult.Harmless : IoResult → Prop
  | .wrote _ | .ready => True
  | .failed e => e = .eintr ∨ e = .eagain
  | .selectFailed e => e = .eintr
  | .timedOut => False

theorem Socket.write_interrupted {k k' : Socket} {offered : List UInt8} {x : IoResult} {e : Errno}
    (hx : x.Harmless) (h : k.write offered x = some (k', .error e)) :
    (e = .eintr ∨ e = .eagain) ∧ k' = k := by
  obtain ⟨-, hk'⟩ := write_error h
  have he : e = .eintr ∨ e = .eagain := by
    cases x with
    | failed e' =>
      simp only [write] at h
      split at h
      · cases h
      · simp only [Option.some.injEq, Prod.mk.injEq, Except.error.injEq] at h
        exact h.2 ▸ hx
    | wrote n =>
      simp only [write] at h
      split at h <;> simp at h
    | ready | timedOut | selectFailed => simp [write] at h
  refine ⟨he, ?_⟩
  have hpipe : (e == Errno.epipe) = false := by rcases he with rfl | rfl <;> rfl
  rw [hk', hpipe, Bool.or_false]

/-- Everything is written, however often a call was interrupted or would have
blocked. -/
theorem writeOnSelect_harmless {timeout : Bool} {tape : List IoResult} {selected : Bool}
    {k : Socket} {bytes : List UInt8} {r : SelectReturn} (hk : k.broken = false)
    (ht : ∀ x ∈ tape, x.Harmless) (h : writeOnSelect timeout tape selected k bytes = some r) :
    r.unwritten = [] ∧ r.socket = { k with sent := k.sent ++ bytes } := by
  induction tape generalizing selected k bytes with
  | nil =>
    cases bytes with
    | nil =>
      cases selected <;>
      · simp only [writeOnSelect, Option.some.injEq] at h
        subst h
        simp
    | cons b bs => cases selected <;> cases h
  | cons x tape ih =>
    have hx : x.Harmless := ht x List.mem_cons_self
    have htape : ∀ y ∈ tape, y.Harmless := fun y hy => ht y (List.mem_cons_of_mem x hy)
    cases bytes with
    | nil =>
      cases selected <;>
      · simp only [writeOnSelect, Option.some.injEq] at h
        subst h
        simp
    | cons b bs =>
      cases selected with
      | false =>
        cases x with
        | ready => exact ih hk htape h
        | selectFailed e =>
          obtain rfl : e = .eintr := hx
          exact ih hk htape h
        | wrote n => cases h
        | failed e => cases h
        | timedOut => exact hx.elim
      | true =>
        simp only [writeOnSelect] at h
        split at h
        · cases h
        · rename_i k' e hw
          obtain ⟨he, rfl⟩ := Socket.write_interrupted hx hw
          rw [if_pos he] at h
          exact ih hk htape h
        · rename_i k' n hw
          obtain ⟨-, -, -, rfl⟩ := Socket.write_ok hw
          obtain ⟨hu, hs⟩ := ih (k := { k with sent := k.sent ++ (b :: bs).take n }) hk htape h
          refine ⟨hu, hs.trans ?_⟩
          rw [List.append_assoc, List.take_append_drop]

/-- A tape with which the call returns. -/
theorem exists_writeOnSelect (timeout : Bool) {k : Socket} (hk : k.broken = false)
    (bytes : List UInt8) : ∃ tape : List IoResult, (∀ x ∈ tape, x.Harmless) ∧
      (writeOnSelect timeout tape false k bytes).isSome = true := by
  cases bytes with
  | nil => exact ⟨[], by simp, rfl⟩
  | cons b bs =>
    refine ⟨[.ready, .wrote (bs.length + 1)], ?_, ?_⟩
    · intro x hx
      rcases List.mem_cons.mp hx with rfl | hx
      · trivial
      · obtain rfl := List.mem_singleton.mp hx
        trivial
    · simp [writeOnSelect, Socket.write, hk]

end SocketFunctions

namespace Server

open Protocol NameValue SocketFunctions AsComponents.Partition Std Critical

/-- A reply without a failure. -/
structure Faultless (reply : SystemReply) : Prop where
  allocations : ∀ k, reply.allocationFails k = false
  harmless : ∀ x ∈ reply.tape, x.Harmless

theorem exists_faultless : ∃ reply, Faultless reply :=
  ⟨{}, fun _ => rfl, by rintro x ⟨⟩⟩

/-! ## What a section leaves to the next one -/

/-- `ReadRecords` may keep this iterator while it serves connection `c`. -/
def System.Caches (s : System) (c : Nat) (it : Option Iterator) : Prop :=
  ∀ i, it = some i → i.key.descriptor = c ∧ ∃ d, s.lookup i = some d

/-- From `s`, with an iterator that satisfies `P`, the program comes to `t` and
returns `a`, and then it has an iterator that satisfies `R`. -/
def Performs {α : Type} (P : Option Iterator → Prop) (p : Thread α) (s : System) (a : α)
    (t : System) (R : Option Iterator → Prop) : Prop :=
  ∀ it, P it → Program.Completes Faultless (fun b u => b = a ∧ ∃ it', R it' ∧ u = t.caching it') p
    (s.caching it)

namespace Performs

variable {α β : Type} {P R T : Option Iterator → Prop} {s t u : System} {a : α} {b : β}

theorem ret (h : ∀ it, P it → R it) : Performs P (.ret a) s a s R :=
  fun it hit => ⟨rfl, it, h it hit, rfl⟩

theorem bind {p : Thread α} {g : α → Thread β} (hp : Performs P p s a t R)
    (hg : Performs R (g a) t b u T) : Performs P (p >>= g) s b u T := by
  intro it hit
  refine Program.completes_bind (hp it hit) ?_
  rintro _ _ ⟨rfl, it', hit', rfl⟩
  exact hg it' hit'

theorem discard {p : Thread α} (hp : Performs P p s a t R) :
    Performs P (discard p) s ⟨⟩ t R :=
  hp.bind (.ret fun _ h => h)

theorem tryCatch {p : Thread α} {h : Failure → Thread α} (hp : Performs P p s a t R) :
    Performs P (Program.tryCatch p h) s a t R :=
  fun it hit => Program.completes_tryCatch (hp it hit)

theorem weaken {p : Thread α} (hp : Performs P p s a t R) (h : ∀ it, R it → T it) :
    Performs P p s a t T := by
  intro it hit
  refine Program.completes_mono ?_ (hp it hit)
  rintro _ _ ⟨rfl, it', hit', rfl⟩
  exact ⟨rfl, it', h it' hit', rfl⟩

/-- A section that returns whatever the reply is, as long as it is faultless. -/
theorem section' {f : SystemReply → Section α}
    (h : ∀ it, P it → ∀ reply, Faultless reply →
      Returns (f reply) (s.caching it) fun b u => b = a ∧ ∃ it', R it' ∧ u = t.caching it') :
    Performs P (atomically f) s a t R := by
  intro it hit
  obtain ⟨reply, hreply⟩ := exists_faultless
  refine Program.completes_atomic ⟨reply, hreply, ?_⟩ fun reply r u hreply hf => ?_
  · obtain ⟨b, u, hf, -⟩ := h it hit reply hreply
    rw [hf]
    rfl
  · obtain ⟨b, u', hf', hQ⟩ := h it hit reply hreply
    obtain ⟨rfl, rfl⟩ := Prod.mk.inj (Option.some.inj (hf'.symm.trans hf))
    exact ⟨b, rfl, hQ⟩

theorem allocating (h : ∀ it, P it → R it) : Performs P allocating s ⟨⟩ s R := by
  refine section' fun it hit reply hreply => ?_
  rw [allocate, hreply.allocations 0]
  exact ⟨⟨⟩, _, rfl, rfl, it, h it hit, rfl⟩

end Performs

/-! ## The connection that is served -/

/-- The interface can serve connection `c`: no thread holds its write mutex, and
its socket is not broken as long as records are written to it. -/
structure System.Attends (s : System) (c : Nat) : Prop where
  good : s.badInterfaceStateDetected = false
  socket : ∃ (m : WriteMutex) (k : Nat), s.writeMutexMap[c]? = some m ∧ m.owner = none ∧
    s.descriptors[c]? = some ⟨k, false⟩ ∧ (m.corrupt = false → (s.sockets k).broken = false)
  count : s.requestCountMap[c]? = some (s.requestsOf c).length

variable {c : Nat} {s t : System}

theorem System.Caches.congr (h : t.requestMap = s.requestMap) {it : Option Iterator}
    (hc : s.Caches c it) : t.Caches c it := by
  intro i hi
  obtain ⟨hkey, d, hd⟩ := hc i hi
  refine ⟨hkey, d, ?_⟩
  rw [lookup_eq_some] at hd ⊢
  rw [h]
  exact hd

theorem System.Caches.none (s : System) (c : Nat) : s.Caches c none := by rintro i ⟨⟩

theorem System.Caches.find {id : FcgiRequestIdentifier} (hid : id.descriptor = c) :
    s.Caches c (s.find id) := by
  intro i hi
  obtain ⟨rfl, d, hd, hnode⟩ := find_eq_some.mp hi
  exact ⟨hid, d, lookup_eq_some.mpr ⟨hd, hnode⟩⟩

theorem find_of_data {id : FcgiRequestIdentifier} {d : RequestData}
    (hd : s.requestMap[id]? = some d) : s.find id = some ⟨id, d.node⟩ :=
  find_eq_some.mpr ⟨rfl, d, hd, rfl⟩

theorem lookup_of_data {id : FcgiRequestIdentifier} {d : RequestData}
    (hd : s.requestMap[id]? = some d) : s.lookup ⟨id, d.node⟩ = some d :=
  lookup_eq_some.mpr ⟨hd, rfl⟩

theorem requestMap_closeLater (s : System) (c : Nat) (d : RequestData) :
    (s.closeLater c d).requestMap = s.requestMap := by
  unfold System.closeLater
  split <;> rfl

theorem requestCountMap_closeLater (s : System) (c : Nat) (d : RequestData) :
    (s.closeLater c d).requestCountMap = s.requestCountMap := by
  unfold System.closeLater
  split <;> rfl

/-! ## What keeps the connection served -/

namespace System.Attends

variable (hs : s.Attends c) {id : FcgiRequestIdentifier} {d : RequestData}

include hs

theorem reject (id : FcgiRequestIdentifier) : (s.reject c id).Attends c :=
  ⟨hs.good, hs.socket, hs.count⟩

theorem record (e : Event) : (s.record e).Attends c := ⟨hs.good, hs.socket, hs.count⟩

theorem closeLater (d : RequestData) : (s.closeLater c d).Attends c := by
  unfold System.closeLater
  split
  · exact ⟨hs.good, hs.socket, hs.count⟩
  · exact hs

theorem setData (hd : s.requestMap[id]? = some d) (d' : RequestData) :
    (s.setData id d').Attends c := by
  refine ⟨hs.good, hs.socket, ?_⟩
  rw [length_requestsOf_congr (s := s) fun id' _ => ?_]
  · exact hs.count
  · simp only [System.setData]
    grind

/-- A request of the connection is counted. -/
theorem counted (hid : id.descriptor = c) (hd : s.requestMap[id]? = some d) :
    ∃ n, s.requestCountMap[c]? = some (n + 1) := by
  have hmem : id ∈ s.requestsOf c := mem_requestsOf.mpr ⟨by grind, hid⟩
  have hpos := List.length_pos_of_mem hmem
  exact ⟨(s.requestsOf c).length - 1, by rw [hs.count]; congr 1; omega⟩

theorem remove (hid : id.descriptor = c) (hd : s.requestMap[id]? = some d) :
    (s.remove id).Attends c := by
  refine ⟨hs.good, hs.socket, ?_⟩
  subst hid
  have hlength := length_requestsOf_cons (t := s) (s := s.remove id)
    (show id ∉ (s.remove id).requestMap by simp [System.remove]) (by
      intro id'
      simp only [System.remove]
      grind)
  show (s.requestCountMap.modify id.descriptor (· - 1))[id.descriptor]? = _
  rw [ExtTreeMap.getElem?_modify_self, hs.count, hlength]
  rfl

theorem accept (hid : id.descriptor = c) (hnew : s.requestMap[id]? = none) (role : UInt16)
    (closeConnection : Bool) : (s.accept c id role closeConnection).Attends c := by
  refine ⟨hs.good, hs.socket, ?_⟩
  subst hid
  have hlength := length_requestsOf_cons (s := s) (t := s.accept id.descriptor id role closeConnection)
    (show id ∉ s.requestMap by grind) (by
      intro id'
      simp only [System.accept]
      grind)
  show (s.requestCountMap.modify id.descriptor (· + 1))[id.descriptor]? = _
  rw [ExtTreeMap.getElem?_modify_self, hs.count, hlength]
  rfl

theorem respond (origin : Option Nat) (bytes : Bytes) : (s.respond c origin bytes).Attends c := by
  obtain ⟨m, k, hmutex, howner, hsocket, hbroken⟩ := hs.socket
  unfold System.respond
  rw [hmutex, hsocket]
  dsimp only
  split
  · exact hs
  · refine ⟨hs.good, ⟨m, k, hmutex, howner, hsocket, fun hm => ?_⟩, hs.count⟩
    simp only [System.setTransmissions, System.setSocket, Function.update_self]
    exact hbroken hm

theorem ended (hid : id.descriptor = c) (hd : s.requestMap[id]? = some d) (e : RequestData)
    (v : Event) : (((s.closeLater c e).remove id).record v).Attends c := by
  refine ((hs.closeLater e).remove (d := d) hid ?_).record v
  rw [requestMap_closeLater]
  exact hd

end System.Attends

/-! ## Small sections -/

section Rules

variable {it : Option Iterator}

theorem returns_interfaceCheck (hs : s.badInterfaceStateDetected = false) (what : String)
    {Q : Unit → System → Prop} :
    Returns (interfaceCheck what) (s.caching it) Q ↔ Q ⟨⟩ (s.caching it) := by
  rw [interfaceCheck, returns_bind, returns_get]
  rw [show (s.caching it).badInterfaceStateDetected = false from hs]
  exact returns_pure _

theorem returns_deref {i : Iterator} {d : RequestData} (hd : s.lookup i = some d)
    {Q : RequestData → System → Prop} :
    Returns (deref i) (s.caching it) Q ↔ Q d (s.caching it) := by
  rw [deref, returns_bind, returns_get, show (s.caching it).lookup i = some d from hd]
  exact returns_pure _

theorem returns_discard {α : Type} {x : Section α} {Q : Unit → System → Prop} :
    Returns (discard x) s Q ↔ Returns x s fun _ t => Q ⟨⟩ t := by
  show Returns (x >>= fun _ => pure ⟨⟩) s Q ↔ _
  simp only [returns_bind, returns_pure]

theorem returns_tryCatch {α : Type} {x : Section α} {h : Failure → Section α}
    {Q : α → System → Prop} (hx : Returns x s Q) : Returns (tryCatch x h) s Q := by
  obtain ⟨a, t, hx, ha⟩ := hx
  refine ⟨a, t, ?_, ha⟩
  simp only [tryCatch, tryCatchThe, MonadExceptOf.tryCatch, hx]

theorem returns_setLocalRequestIter {Q : Unit → System → Prop} (it' : Option Iterator) :
    Returns (setLocalRequestIter it') (s.caching it) Q ↔ Q ⟨⟩ (s.caching it') :=
  returns_modify

theorem Iterator.key_eq {i : Iterator} {id : FcgiRequestIdentifier}
    (hdescriptor : i.key.descriptor = id.descriptor) (hid : i.key.fcgiId = id.fcgiId) :
    i.key = id := by
  obtain ⟨⟨_, _⟩, _⟩ := i
  obtain ⟨_, _⟩ := id
  simp only at hdescriptor hid
  rw [hdescriptor, hid]

theorem returns_cachedOrFind (hit : s.Caches c it) {id : FcgiRequestIdentifier}
    (hid : id.descriptor = c) {Q : Option Iterator → System → Prop} :
    Returns (cachedOrFind (s.caching it).localRequestIter id) (s.caching it) Q ↔
      Q (s.find id) (s.caching it) := by
  cases it with
  | none =>
    show Returns (do return (← get).find id) _ Q ↔ _
    rw [returns_bind, returns_get]
    exact returns_pure _
  | some i =>
    obtain ⟨hdescriptor, d, hd⟩ := hit i rfl
    show Returns (do
      discard (deref i)
      if i.key.fcgiId = id.fcgiId then return (some i)
      else return (← get).find id) _ Q ↔ _
    rw [returns_bind, returns_discard, returns_deref hd]
    by_cases hsame : i.key.fcgiId = id.fcgiId
    · have hkey : i.key = id := i.key_eq (hdescriptor.trans hid.symm) hsame
      obtain ⟨hdata, hnode⟩ := lookup_eq_some.mp hd
      have hfind : s.find id = some i := find_eq_some.mpr ⟨hkey, d, hkey ▸ hdata, hnode⟩
      rw [if_pos hsame, returns_pure, hfind]
    · rw [if_neg hsame, returns_bind, returns_get]
      exact returns_pure _

end Rules

/-! ## Headers -/

theorem performs_validateHeader (hs : s.badInterfaceStateDetected = false) {rs : RecordStatus}
    (hid : rs.requestId.descriptor = c) :
    Performs (s.Caches c) (atomically fun _ => validateHeader rs) s (s.ignores rs) s (s.Caches c) := by
  refine .section' fun it hit reply _ => ?_
  simp only [validateHeader, returns_bind, returns_get]
  rw [returns_interfaceCheck hs, returns_cachedOrFind hit hid]
  cases hdata : s.requestMap[rs.requestId]? with
  | none =>
    rw [find_eq_none.mpr hdata]
    simp only [System.ignores, hdata, returns_pure]
    exact ⟨trivial, it, hit, rfl⟩
  | some d =>
    have hfind : s.find rs.requestId = some ⟨rs.requestId, d.node⟩ :=
      find_eq_some.mpr ⟨rfl, d, hdata, rfl⟩
    have hd : s.lookup ⟨rs.requestId, d.node⟩ = some d := lookup_eq_some.mpr ⟨hdata, rfl⟩
    have hcache : s.Caches c (some ⟨rs.requestId, d.node⟩) := hfind ▸ .find hid
    rw [hfind]
    simp only [returns_bind]
    rw [returns_setLocalRequestIter, returns_deref hd]
    simp only [System.ignores, hdata]
    split_ifs
    · exact (returns_pure _).mpr ⟨rfl, _, hcache, rfl⟩
    · exact (returns_pure _).mpr ⟨rfl, _, hcache, rfl⟩
    · cases Stream.ofType rs.type with
      | none => exact (returns_pure _).mpr ⟨rfl, _, hcache, rfl⟩
      | some st => exact (returns_pure _).mpr ⟨rfl, _, hcache, rfl⟩

theorem performs_updateAfterHeaderCompletion (hs : s.badInterfaceStateDetected = false)
    (rs : RecordStatus) :
    Performs (s.Caches c) (updateAfterHeaderCompletion c rs) s (s.checkHeader c rs) s
      (s.Caches c) := by
  simp only [updateAfterHeaderCompletion, System.checkHeader]
  split_ifs with hnull hrejected
  · exact .ret fun _ h => h
  · rw [hrejected, Bool.true_or]
    exact .ret fun _ h => h
  · have hvalid : (rs.decodeHeader c).rejectedByType = false := Bool.eq_false_iff.mpr hrejected
    rw [hvalid, Bool.false_or]
    have hheader := performs_validateHeader hs (show (rs.decodeHeader c).requestId.descriptor = c from rfl)
    exact hheader.bind (.ret fun _ h => h)

/-! ## Sending records -/

section Sending

variable {m : WriteMutex} {k : Nat} (hmutex : s.writeMutexMap[c]? = some m)
  (howner : m.owner = none)

include hmutex howner

theorem sendRecordWrite_refused (hcorrupt : m.corrupt = true) (reply : SystemReply)
    (origin : Option Nat) (bytes : Bytes) :
    sendRecordWrite reply c origin bytes s = some (.ok .refused, s) := by
  have howned : s.owner c = none := by
    rw [System.owner, hmutex]
    exact howner
  have hawait : (await fun s : System => s.owner c = none : Section Unit) s = some (.ok ⟨⟩, s) :=
    if_pos howned
  rw [sendRecordWrite, get_bind, hmutex]
  dsimp only
  rw [ok_bind hawait, if_pos hcorrupt]
  rfl

theorem sendRecordWrite_eq (hcorrupt : m.corrupt = false)
    (hsocket : s.descriptors[c]? = some ⟨k, false⟩) (reply : SystemReply) (origin : Option Nat)
    (bytes : Bytes) {r : SelectReturn}
    (hr : writeOnSelect true reply.tape false (s.sockets k) bytes = some r)
    (hall : r.unwritten = []) :
    sendRecordWrite reply c origin bytes s = some (.ok .sent,
      (s.setSocket k r.socket).setTransmissions k
        (s.transmissions k ++ [⟨origin, bytes, bytes.length⟩])) := by
  have howned : s.owner c = none := by
    rw [System.owner, hmutex]
    exact howner
  have hawait : (await fun s : System => s.owner c = none : Section Unit) s = some (.ok ⟨⟩, s) :=
    if_pos howned
  rw [sendRecordWrite, get_bind, hmutex]
  dsimp only
  rw [ok_bind hawait, if_neg (by simp [hcorrupt]), get_bind, hsocket]
  dsimp only
  rw [get_bind, hr]
  dsimp only
  rw [hall, List.length_nil, Nat.sub_zero, if_neg (Nat.lt_irrefl _)]
  rfl

theorem sendRecordWrite_none (hcorrupt : m.corrupt = false)
    (hsocket : s.descriptors[c]? = some ⟨k, false⟩) (reply : SystemReply) (origin : Option Nat)
    (bytes : Bytes) (hr : writeOnSelect true reply.tape false (s.sockets k) bytes = none) :
    sendRecordWrite reply c origin bytes s = none := by
  have howned : s.owner c = none := by
    rw [System.owner, hmutex]
    exact howner
  have hawait : (await fun s : System => s.owner c = none : Section Unit) s = some (.ok ⟨⟩, s) :=
    if_pos howned
  rw [sendRecordWrite, get_bind, hmutex]
  dsimp only
  rw [ok_bind hawait, if_neg (by simp [hcorrupt]), get_bind, hsocket]
  dsimp only
  rw [get_bind, hr]
  rfl

end Sending

theorem performs_sendRecord (hs : s.Attends c) (origin : Option Nat) (bytes : Bytes) :
    ∃ sent, Performs (s.Caches c) (sendRecord c origin bytes) s sent (s.respond c origin bytes)
      (s.Caches c) := by
  obtain ⟨m, k, hmutex, howner, hsocket, hbroken⟩ := hs.socket
  cases hcorrupt : m.corrupt with
  | true =>
    refine ⟨false, ?_⟩
    have hrespond : s.respond c origin bytes = s := by
      simp only [System.respond, hmutex, hsocket, hcorrupt]
      rfl
    rw [hrespond]
    refine .bind (a := .refused) (t := s) (R := s.Caches c) (.section' fun it hit reply _ => ?_)
      (.ret fun _ h => h)
    exact ⟨_, _, sendRecordWrite_refused (s := s.caching it) hmutex howner hcorrupt reply origin bytes,
      rfl, it, hit, rfl⟩
  | false =>
    refine ⟨true, ?_⟩
    refine .bind (a := .sent) (t := s.respond c origin bytes) (R := s.Caches c) ?_ (.ret fun _ h => h)
    intro it hit
    have hk : (s.sockets k).broken = false := hbroken hcorrupt
    have hwrite : ∀ (reply : SystemReply) (r : SelectReturn), Faultless reply →
        writeOnSelect true reply.tape false (s.sockets k) bytes = some r →
        sendRecordWrite reply c origin bytes (s.caching it) =
          some (.ok .sent, (s.respond c origin bytes).caching it) := by
      intro reply r hreply hr
      obtain ⟨hall, hsent⟩ := writeOnSelect_harmless hk hreply.harmless hr
      rw [sendRecordWrite_eq (s := s.caching it) hmutex howner hcorrupt hsocket reply origin bytes
        hr hall, hsent]
      simp only [System.respond, hmutex, hsocket, hcorrupt]
      rfl
    refine Program.completes_atomic ?_ ?_
    · obtain ⟨tape, htape, hsome⟩ := exists_writeOnSelect true hk bytes
      obtain ⟨r, hr⟩ := Option.isSome_iff_exists.mp hsome
      refine ⟨{ tape := tape }, ⟨fun _ => rfl, htape⟩, ?_⟩
      rw [hwrite _ r ⟨fun _ => rfl, htape⟩ hr]
      rfl
    · intro reply r u hreply hf
      cases hr : writeOnSelect true reply.tape false (s.sockets k) bytes with
      | none =>
        rw [sendRecordWrite_none (s := s.caching it) hmutex howner hcorrupt hsocket reply origin
          bytes hr] at hf
        cases hf
      | some w =>
        rw [hwrite reply w hreply hr] at hf
        obtain ⟨rfl, rfl⟩ := Prod.mk.inj (Option.some.inj hf)
        exact ⟨_, rfl, rfl, it, hit, rfl⟩

section Respond

variable (s : System) (c : Nat) (origin : Option Nat) (bytes : Bytes)

/-- A record that is sent changes only the socket and what is recorded of it. -/
theorem respond_eq : ∃ sockets transmissions, s.respond c origin bytes =
    { s with sockets := sockets, transmissions := transmissions } := by
  unfold System.respond
  split
  · split
    · exact ⟨s.sockets, s.transmissions, rfl⟩
    · exact ⟨_, _, rfl⟩
  · exact ⟨s.sockets, s.transmissions, rfl⟩

@[simp] theorem requestMap_respond : (s.respond c origin bytes).requestMap = s.requestMap := by
  obtain ⟨_, _, h⟩ := respond_eq s c origin bytes
  rw [h]

end Respond

/-- The program sends the record, if no record was torn before. -/
def Sends (c : Nat) (p : Thread Bool) (s : System) (origin : Option Nat) (record : Record) : Prop :=
  ∃ sent, Performs (s.Caches c) p s sent (s.respond c origin record.encode)
    ((s.respond c origin record.encode).Caches c)

theorem Sends.discard {p : Thread Bool} {origin : Option Nat} {record : Record}
    (h : Sends c p s origin record) :
    Performs (s.Caches c) (discard p) s ⟨⟩ (s.respond c origin record.encode)
      ((s.respond c origin record.encode).Caches c) := by
  obtain ⟨sent, hsent⟩ := h
  exact hsent.discard

theorem sends_sendRecord (hs : s.Attends c) (origin : Option Nat) (record : Record) :
    Sends c (sendRecord c origin record.encode) s origin record := by
  obtain ⟨sent, hsent⟩ := performs_sendRecord hs origin record.encode
  exact ⟨sent, hsent.weaken fun _ h => h.congr (requestMap_respond s c origin record.encode)⟩

theorem sends_sendFcgiEndRequest (hs : s.Attends c) (origin : Option Nat)
    (id : FcgiRequestIdentifier) (protocolStatus : UInt8) (appStatus : Int32) :
    Sends c (sendFcgiEndRequest c origin id protocolStatus appStatus) s origin
      (endRequestRecord id.fcgiId protocolStatus appStatus) := by
  obtain ⟨sent, hsent⟩ := sends_sendRecord hs origin (endRequestRecord id.fcgiId protocolStatus appStatus)
  exact ⟨sent, .bind (.allocating fun _ h => h) hsent⟩

theorem sends_sendFcgiUnknownType (hs : s.Attends c) (type : FcgiType) :
    Sends c (sendFcgiUnknownType c type) s none (unknownTypeRecord type) := by
  obtain ⟨sent, hsent⟩ := sends_sendRecord hs none (unknownTypeRecord type)
  exact ⟨sent, .bind (.allocating fun _ h => h) hsent⟩

theorem sends_sendGetValuesResult (hs : s.Attends c) (content : Bytes) :
    Sends c (sendGetValuesResult c content) s none (getValuesResultRecord s content) := by
  obtain ⟨sent, hsent⟩ := sends_sendRecord hs none (getValuesResultRecord s content)
  refine ⟨sent, .bind (t := s) (R := s.Caches c) (.section' fun it hit reply hreply => ?_) hsent⟩
  rw [returns_bind, allocate, hreply.allocations 0]
  exact ⟨⟨⟩, _, rfl, _, _, rfl, rfl, it, hit, rfl⟩

/-! ## Begin records -/

theorem performs_checkRequestLimit_full (hs : s.Attends c) (id : FcgiRequestIdentifier)
    (hfull : s.Full c) :
    Performs (s.Caches c) (atomically fun _ => checkRequestLimit c id) s
      (some (s.rejection c, s.nextNode)) (s.reject c id) ((s.reject c id).Caches c) := by
  refine .section' fun it hit reply _ => ?_
  unfold System.Full at hfull
  rw [hs.count, Option.getD_some] at hfull
  simp only [checkRequestLimit, processCheck, returns_bind, returns_get]
  rw [returns_interfaceCheck hs.good, show (s.caching it).requestCountMap[c]? = _ from hs.count]
  simp only [returns_bind, returns_get]
  rw [if_pos (show (s.caching it).maximumRequestCountPerConnection ≤ _ ∨
    (s.caching it).applicationOverload = true from hfull)]
  refine ⟨_, _, rfl, ?_, it, hit.congr rfl, rfl⟩
  rw [System.rejection, hs.count]
  rfl

theorem performs_checkRequestLimit (hs : s.Attends c) (id : FcgiRequestIdentifier)
    (hroom : ¬ s.Full c) :
    Performs (s.Caches c) (atomically fun _ => checkRequestLimit c id) s none s (s.Caches c) := by
  refine .section' fun it hit reply _ => ?_
  unfold System.Full at hroom
  rw [hs.count, Option.getD_some] at hroom
  simp only [checkRequestLimit, processCheck, returns_bind, returns_get]
  rw [returns_interfaceCheck hs.good, show (s.caching it).requestCountMap[c]? = _ from hs.count]
  simp only [returns_bind, returns_get]
  rw [if_neg (show ¬ ((s.caching it).maximumRequestCountPerConnection ≤ _ ∨
    (s.caching it).applicationOverload = true) from hroom)]
  exact ⟨_, _, rfl, rfl, it, hit, rfl⟩

theorem performs_addRequest (hs : s.Attends c) {id : FcgiRequestIdentifier}
    (hid : id.descriptor = c) (hnew : s.requestMap[id]? = none) (role : UInt16)
    (closeConnection : Bool) :
    Performs (s.Caches c) (atomically fun reply => do
        processCheck
        setLocalRequestIter (← addRequest reply id role closeConnection)) s ⟨⟩
      (s.accept c id role closeConnection) ((s.accept c id role closeConnection).Caches c) := by
  subst hid
  refine .section' fun it hit reply hreply => ?_
  have hcount : (s.caching it).requestCountMap[id.descriptor]? ≠ none := by
    rw [show (s.caching it).requestCountMap[id.descriptor]? = _ from hs.count]
    simp
  have habsent : (s.caching it).requestMap.contains id = false := by
    rw [ExtTreeMap.contains_eq_isSome_getElem?, show (s.caching it).requestMap[id]? = _ from hnew]
    rfl
  simp only [processCheck, addRequest, returns_bind]
  rw [returns_interfaceCheck hs.good]
  refine returns_tryCatch ?_
  simp only [returns_bind, returns_get]
  rw [if_neg hcount, returns_bind, returns_get, if_neg (by rw [habsent]; exact Bool.false_ne_true),
    returns_pure, if_neg (by rw [hreply.allocations 0]; exact Bool.false_ne_true)]
  exact ⟨_, _, rfl, _, _, rfl, trivial, _, .find rfl, rfl⟩

theorem performs_processBeginRequest (hs : s.Attends c) {rs : RecordStatus}
    (hid : rs.requestId.descriptor = c) (hnew : s.requestMap[rs.requestId]? = none)
    (hlength : 3 ≤ rs.localRecordContentBuffer.length) :
    Performs (s.Caches c) (processBeginRequest c rs) s ⟨⟩
      (s.beginRequest c rs.requestId rs.localRecordContentBuffer)
      ((s.beginRequest c rs.requestId rs.localRecordContentBuffer).Caches c) := by
  obtain ⟨roleB1, roleB0, flags, rest, hbuffer⟩ :
      ∃ roleB1 roleB0 flags rest, rs.localRecordContentBuffer = roleB1 :: roleB0 :: flags :: rest := by
    obtain ⟨roleB1, rest, h₁⟩ := List.exists_cons_of_length_pos (l := rs.localRecordContentBuffer) (by omega)
    rw [h₁, List.length_cons] at hlength
    obtain ⟨roleB0, rest, rfl⟩ := List.exists_cons_of_length_pos (l := rest) (by omega)
    rw [List.length_cons] at hlength
    obtain ⟨flags, rest, rfl⟩ := List.exists_cons_of_length_pos (l := rest) (by omega)
    exact ⟨roleB1, roleB0, flags, rest, h₁⟩
  simp only [processBeginRequest, System.beginRequest, hbuffer]
  split_ifs with hfull
  · refine .bind (performs_checkRequestLimit_full hs rs.requestId hfull) ?_
    exact (sends_sendFcgiEndRequest (hs.reject rs.requestId) _ _ _ _).discard
  · refine .bind (performs_checkRequestLimit hs rs.requestId hfull) ?_
    exact performs_addRequest hs hid hnew _ _

/-! ## Requests that end -/

theorem modify_eq_insert {m : ExtTreeMap Nat Nat} {k n : Nat} (h : m[k]? = some n) (f : Nat → Nat) :
    m.modify k f = m.insert k (f n) := by
  apply ExtTreeMap.ext_getElem?
  intro k'
  rw [ExtTreeMap.getElem?_modify, ExtTreeMap.getElem?_insert]
  split
  · rename_i he
    obtain rfl := LawfulEqCmp.eq_of_compare he
    rw [h]
    rfl
  · rfl

theorem insert_insert {m : ExtTreeMap FcgiRequestIdentifier RequestData} (id : FcgiRequestIdentifier)
    (d d' : RequestData) : (m.insert id d).insert id d' = m.insert id d' := by
  apply ExtTreeMap.ext_getElem?
  intro id'
  simp only [ExtTreeMap.getElem?_insert]
  split <;> rfl

theorem returns_removeRequestHelper {i : Iterator} {d : RequestData} {n : Nat}
    (hd : s.lookup i = some d) (hn : s.requestCountMap[i.key.descriptor]? = some (n + 1))
    {it : Option Iterator} {Q : Unit → System → Prop}
    (hQ : Q ⟨⟩ ((s.remove i.key).caching it)) :
    Returns (removeRequestHelper (some i)) (s.caching it) Q := by
  refine returns_tryCatch ?_
  simp only [returns_bind, returns_discard]
  rw [returns_deref hd, returns_get]
  rw [show (s.caching it).requestCountMap[i.key.descriptor]? = some (n + 1) from hn]
  refine ⟨_, _, rfl, ?_⟩
  have hremove : s.requestCountMap.modify i.key.descriptor (· - 1) =
      s.requestCountMap.insert i.key.descriptor n := modify_eq_insert hn (· - 1)
  rw [System.remove, hremove] at hQ
  exact hQ

/-- The cached iterator is given up when it is the one for the request. -/
theorem returns_forget {α : Type} {i : Iterator} {it : Option Iterator} {rest : Section α}
    {Q : α → System → Prop} :
    Returns (if (s.caching it).localRequestIter = some i then setLocalRequestIter none >>= fun _ => rest
        else rest) (s.caching it) Q ↔
      Returns rest (s.caching (it.filter (· ≠ i))) Q := by
  show Returns (if it = some i then _ else _) _ Q ↔ _
  by_cases hi : it = some i
  · have hdropped : it.filter (· ≠ i) = none := by simp [hi, Option.filter]
    rw [if_pos hi, returns_bind, returns_setLocalRequestIter, hdropped]
  · have hkept : it.filter (· ≠ i) = it := by
      cases it with
      | none => rfl
      | some j => simpa [Option.filter] using hi
    rw [if_neg hi, hkept]

theorem returns_closeLater {α : Type} {d : RequestData} {it : Option Iterator} {rest : Section α}
    {Q : α → System → Prop} :
    Returns (if d.closeConnection = true then
        (modify fun s : System =>
          { s with applicationClosureRequestSet := s.applicationClosureRequestSet.insert c }) >>=
          fun _ => rest
        else rest) (s.caching it) Q ↔
      Returns rest ((s.closeLater c d).caching it) Q := by
  unfold System.closeLater
  split_ifs
  · rw [returns_bind, returns_modify]
    rfl
  · rfl

theorem System.Caches.filter {it : Option Iterator} (h : s.Caches c it) (i : Iterator) :
    s.Caches c (it.filter (· ≠ i)) := by
  intro j hj
  exact h j (Option.filter_eq_some_iff.mp hj).1

theorem System.Caches.setData {it : Option Iterator} (h : s.Caches c it)
    {id : FcgiRequestIdentifier} {d d' : RequestData} (hd : s.requestMap[id]? = some d)
    (hnode : d'.node = d.node) : (s.setData id d').Caches c it := by
  intro j hj
  obtain ⟨hkey, e, he⟩ := h j hj
  have hlookup : s.lookup ⟨id, d.node⟩ = some d := lookup_eq_some.mpr ⟨hd, rfl⟩
  rcases lookup_setData hlookup hnode he with ⟨he', -⟩ | ⟨he', -⟩
  · exact ⟨hkey, _, he'⟩
  · exact ⟨hkey, _, he'⟩

theorem System.Caches.removed {it : Option Iterator} (h : s.Caches c it) {i : Iterator}
    {d : RequestData} (hd : s.lookup i = some d) (hne : it ≠ some i)
    (ht : t.requestMap = s.requestMap.erase i.key) : t.Caches c it := by
  intro j hj
  obtain ⟨hkey, e, he⟩ := h j hj
  have hkeys : i.key ≠ j.key := key_ne_of_lookup hd he fun hij => hne (hij ▸ hj)
  obtain ⟨hdata, hnode⟩ := lookup_eq_some.mp he
  refine ⟨hkey, e, lookup_eq_some.mpr ⟨?_, hnode⟩⟩
  rw [ht, ExtTreeMap.getElem?_erase, if_neg (by simpa using hkeys)]
  exact hdata

/-- The removal of a request once the closure of its connection is scheduled. -/
theorem returns_removeLast {α : Type} {i : Iterator} {d e : RequestData} {n : Nat}
    {it : Option Iterator} {rest : Section α} {Q : α → System → Prop} (hd : s.lookup i = some d)
    (hn : s.requestCountMap[i.key.descriptor]? = some (n + 1))
    (hrest : Returns rest (((s.closeLater c e).remove i.key).caching it) Q) :
    Returns (removeRequestHelper (some i) >>= fun _ => rest) ((s.closeLater c e).caching it) Q := by
  rw [returns_bind]
  refine returns_removeRequestHelper (d := d) (n := n) ?_ ?_ hrest
  · rw [lookup_eq_some, requestMap_closeLater]
    exact lookup_eq_some.mp hd
  · rw [requestCountMap_closeLater]
    exact hn

theorem System.Caches.ended {it : Option Iterator} (h : s.Caches c it) {i : Iterator}
    {d : RequestData} (hd : s.lookup i = some d) (hne : it ≠ some i) (e : RequestData) (v : Event) :
    (((s.closeLater c e).remove i.key).record v).Caches c it :=
  h.removed hd hne (congrArg (·.erase i.key) (requestMap_closeLater s c e))

theorem filter_ne (it : Option Iterator) (i : Iterator) : it.filter (· ≠ i) ≠ some i := by
  intro h
  simpa using (Option.filter_eq_some_iff.mp h).2

theorem performs_abortAbsent (hs : s.Attends c) {id : FcgiRequestIdentifier}
    (hid : id.descriptor = c) (hd : s.requestMap[id]? = none) (its : List Iterator) :
    Performs (s.Caches c) (atomically fun reply => abortRequest reply c id its) s (its, none) s
      (s.Caches c) := by
  refine .section' fun it hit reply _ => ?_
  simp only [abortRequest, processCheck, returns_bind, returns_get]
  rw [returns_interfaceCheck hs.good, returns_cachedOrFind hit hid, find_eq_none.mpr hd]
  exact ⟨_, _, rfl, rfl, it, hit, rfl⟩

theorem performs_abortAssigned (hs : s.Attends c) {id : FcgiRequestIdentifier} {d : RequestData}
    (hid : id.descriptor = c) (hd : s.requestMap[id]? = some d)
    (hassigned : d.requestStatus = .requestAssigned) (its : List Iterator) :
    Performs (s.Caches c) (atomically fun reply => abortRequest reply c id its) s (its, none)
      (s.setData id { d with clientSetAbort := true })
      ((s.setData id { d with clientSetAbort := true }).Caches c) := by
  refine .section' fun it hit reply _ => ?_
  have hlookup : s.lookup ⟨id, d.node⟩ = some d := lookup_eq_some.mpr ⟨hd, rfl⟩
  have hfind : s.find id = some ⟨id, d.node⟩ := find_eq_some.mpr ⟨rfl, d, hd, rfl⟩
  simp only [abortRequest, processCheck, returns_bind, returns_get]
  rw [returns_interfaceCheck hs.good, returns_cachedOrFind hit hid, hfind]
  dsimp only
  rw [returns_bind, returns_get, returns_forget, returns_bind, returns_deref hlookup, if_pos hassigned]
  exact ⟨_, _, rfl, rfl, _, (hit.filter ⟨id, d.node⟩).setData hd rfl, rfl⟩

theorem performs_abortPending (hs : s.Attends c) {id : FcgiRequestIdentifier} {d : RequestData}
    (hid : id.descriptor = c) (hd : s.requestMap[id]? = some d)
    (hpending : d.requestStatus = .requestPending) {its : List Iterator}
    (hlisted : d.AllComplete → ⟨id, d.node⟩ ∈ its) :
    Performs (s.Caches c) (atomically fun reply => abortRequest reply c id its) s
      (if d.AllComplete then its.erase ⟨id, d.node⟩ else its, some d.node)
      (((s.closeLater c d).remove id).record (.endedByInterface d.node))
      ((((s.closeLater c d).remove id).record (.endedByInterface d.node)).Caches c) := by
  refine .section' fun it hit reply hreply => ?_
  have hlookup : s.lookup ⟨id, d.node⟩ = some d := lookup_eq_some.mpr ⟨hd, rfl⟩
  have hfind : s.find id = some ⟨id, d.node⟩ := find_eq_some.mpr ⟨rfl, d, hd, rfl⟩
  simp only [abortRequest, processCheck, returns_bind, returns_get]
  rw [returns_interfaceCheck hs.good, returns_cachedOrFind hit hid, hfind]
  dsimp only
  rw [returns_bind, returns_get, returns_forget, returns_bind, returns_deref hlookup,
    if_neg (by simp [hpending]), hreply.allocations 0]
  simp only [Bool.false_eq_true, if_false]
  obtain ⟨n, hn⟩ := hs.counted hid hd
  subst hid
  rw [returns_closeLater, if_neg (by rintro ⟨hall, hnot⟩; exact hnot (hlisted hall))]
  refine returns_removeLast hlookup hn ⟨_, _, rfl, rfl, _, ?_, rfl⟩
  exact (hit.filter ⟨id, d.node⟩).ended hlookup (filter_ne it _) d _

theorem performs_rejectMalformed (hs : s.Attends c) {i : Iterator} {d : RequestData}
    (hi : i.key.descriptor = c) (hd : s.lookup i = some d) :
    Performs (fun it => s.Caches c it ∧ it ≠ some i) (atomically fun reply => rejectMalformed reply c i)
      s ⟨⟩ (((s.closeLater c d).remove i.key).record (.endedByInterface d.node))
      ((((s.closeLater c d).remove i.key).record (.endedByInterface d.node)).Caches c) := by
  refine .section' fun it hit reply hreply => ?_
  obtain ⟨n, hn⟩ := hs.counted hi (lookup_eq_some.mp hd).1
  simp only [rejectMalformed, processCheck]
  rw [returns_bind, returns_interfaceCheck hs.good, returns_bind, returns_deref hd,
    hreply.allocations 0]
  simp only [Bool.false_eq_true, if_false]
  subst hi
  rw [returns_closeLater]
  exact returns_removeLast hd hn ⟨_, _, rfl, trivial, _, hit.1.ended hd hit.2 d _, rfl⟩

theorem performs_abort (hs : s.Attends c) {id : FcgiRequestIdentifier} (hid : id.descriptor = c)
    {its : List Iterator} (hits : ∀ (id : FcgiRequestIdentifier) (d : RequestData), id.descriptor = c →
      s.requestMap[id]? = some d → d.requestStatus = .requestPending → d.AllComplete →
      ⟨id, d.node⟩ ∈ its) :
    ∃ r, finished r = (s.abort c id its).2 ∧ Performs (s.Caches c)
      (do
        match ← atomically fun reply => abortRequest reply c id its with
        | (its, none) => return (its, none)
        | (its, some node) =>
            let appStatus ← atomically fun _ => return (← get).appStatusOnAbort
            discard (sendFcgiEndRequest c (some node) id fcgiRequestComplete appStatus)
            return (its, none))
      s r (s.abort c id its).1 ((s.abort c id its).1.Caches c) := by
  unfold System.abort
  cases hd : s.requestMap[id]? with
  | none =>
    refine ⟨(its, none), List.append_nil its, ?_⟩
    exact (performs_abortAbsent hs hid hd its).bind (.ret fun it h => h)
  | some d =>
    dsimp only
    by_cases hassigned : d.requestStatus = .requestAssigned
    · rw [if_pos hassigned]
      refine ⟨(its, none), List.append_nil its, ?_⟩
      exact (performs_abortAssigned hs hid hd hassigned its).bind (.ret fun it h => h)
    · rw [if_neg hassigned]
      have hpending : d.requestStatus = .requestPending := by
        cases hstatus : d.requestStatus with
        | requestPending => rfl
        | requestAssigned => exact absurd hstatus hassigned
      have habort := performs_abortPending hs hid hd hpending
        (hits id d hid hd hpending)
      set t := ((s.closeLater c d).remove id).record (.endedByInterface d.node) with ht
      have hattends : t.Attends c := hs.ended hid hd d (.endedByInterface d.node)
      have hstatus : t.appStatusOnAbort = s.appStatusOnAbort := by
        rw [ht]
        unfold System.closeLater
        split <;> rfl
      have hread : Performs (t.Caches c) (atomically fun _ => do return (← get).appStatusOnAbort) t
          s.appStatusOnAbort t (t.Caches c) :=
        .section' fun it hit _ _ => ⟨_, _, rfl, hstatus, it, hit, rfl⟩
      have hsend := (sends_sendFcgiEndRequest hattends (some d.node) id fcgiRequestComplete
        s.appStatusOnAbort).discard
      refine ⟨(if d.AllComplete then its.erase ⟨id, d.node⟩ else its, none), List.append_nil _, ?_⟩
      exact habort.bind (hread.bind (hsend.bind (.ret fun it h => h)))

/-! ## Streams that end -/

theorem System.setData_setData (s : System) (id : FcgiRequestIdentifier) (d d' : RequestData) :
    (s.setData id d).setData id d' = s.setData id d' := by
  simp only [System.setData, insert_insert]

theorem RequestData.endStream_checked {d : RequestData} {st : Stream}
    (h : (d.complete st).checkRequestCompletionWithConditionalUpdate.2 = true) :
    d.endStream st =
      ((d.complete st).checkRequestCompletionWithConditionalUpdate.1.processFcgiParams.1,
        if (d.complete st).checkRequestCompletionWithConditionalUpdate.1.processFcgiParams.2 then
          .complete else .malformed) := if_pos h

theorem RequestData.endStream_open {d : RequestData} {st : Stream}
    (h : ¬ (d.complete st).checkRequestCompletionWithConditionalUpdate.2 = true) :
    d.endStream st =
      ((d.complete st).checkRequestCompletionWithConditionalUpdate.1, .incomplete) := if_neg h

theorem RequestData.sameRequest_endStream (d : RequestData) (st : Stream) :
    SameRequest d (d.endStream st).1 := by
  have hchecked := (sameRequest_complete d st).trans (sameRequest_check (d.complete st))
  by_cases h : (d.complete st).checkRequestCompletionWithConditionalUpdate.2 = true
  · rw [endStream_checked h]
    exact hchecked.trans (sameRequest_processFcgiParams _)
  · rw [endStream_open h]
    exact hchecked

theorem performs_completeStream {i : Iterator} {d : RequestData}
    (hd : s.lookup i = some d) (st : Stream) :
    Performs (s.Caches c) (atomically fun reply => completeStream reply st i) s (d.endStream st).2
      (s.setData i.key (d.endStream st).1)
      (fun it => (s.setData i.key (d.endStream st).1).Caches c it ∧
        ((d.endStream st).2 ≠ .incomplete → it ≠ some i)) := by
  refine .section' fun it hit reply hreply => ?_
  obtain ⟨hdata, hnode⟩ := lookup_eq_some.mp hd
  have hcache : (s.setData i.key (d.endStream st).1).Caches c it :=
    hit.setData hdata (d.sameRequest_endStream st).node
  simp only [completeStream, returns_bind, returns_get]
  rw [show (s.caching it).lookup i = some d from hd]
  simp only [returns_bind, returns_modify, hreply.allocations 0]
  by_cases hchecked : (d.complete st).checkRequestCompletionWithConditionalUpdate.2 = true
  · rw [if_pos hchecked, returns_bind, returns_get]
    rw [RequestData.endStream_checked hchecked] at hcache ⊢
    show Returns (if ((s.setData i.key _).caching it).localRequestIter = some i then
      setLocalRequestIter none >>= fun _ => _ else _) ((s.setData i.key _).caching it) _
    rw [returns_forget]
    simp only [Bool.false_eq_true, if_false]
    refine ⟨_, _, rfl, rfl, it.filter (· ≠ i), ⟨hcache.filter i, fun _ => filter_ne it i⟩, ?_⟩
    exact congrArg (System.caching · (it.filter (· ≠ i))) (s.setData_setData i.key _ _)
  · rw [if_neg hchecked]
    rw [RequestData.endStream_open hchecked] at hcache ⊢
    exact ⟨_, _, rfl, rfl, it, ⟨hcache, fun h => absurd rfl h⟩, rfl⟩

theorem performs_findStream (hs : s.Attends c) {rs : RecordStatus} {d : RequestData}
    (hid : rs.requestId.descriptor = c) (hd : s.requestMap[rs.requestId]? = some d) (e : Failure) :
    Performs (s.Caches c) (atomically fun _ => do
        processCheck
        match ← cachedOrFind (← get).localRequestIter rs.requestId with
        | none => throw e
        | some it => return it) s ⟨rs.requestId, d.node⟩ s (s.Caches c) := by
  refine .section' fun it hit reply _ => ?_
  simp only [processCheck, returns_bind, returns_get]
  rw [returns_interfaceCheck hs.good, returns_cachedOrFind hit hid, find_of_data hd]
  exact ⟨_, _, rfl, rfl, it, hit, rfl⟩

/-- A request in which a stream ended. -/
theorem performs_processStream (hs : s.Attends c) {rs : RecordStatus} {d : RequestData}
    (hid : rs.requestId.descriptor = c) (hd : s.requestMap[rs.requestId]? = some d)
    (hempty : rs.contentBytesExpected = 0) (st : Stream) (its : List Iterator) :
    ∃ r, its ++ r.toList = (s.endStream c rs.requestId st its).2 ∧
      Performs (s.Caches c) (processStream c rs st) s r (s.endStream c rs.requestId st its).1
        ((s.endStream c rs.requestId st its).1.Caches c) := by
  have hattends := hs.setData hd (d.endStream st).1
  have hlookup : (s.setData rs.requestId (d.endStream st).1).lookup ⟨rs.requestId, d.node⟩ =
      some (d.endStream st).1 :=
    lookup_setData_self (lookup_of_data hd) (d.sameRequest_endStream st).node
  have hstart := performs_findStream hs hid hd
    (.logicError ("An expected request was not found in request_map_ in a call to " ++
      "FcgiServerInterface::RecordStatus::ProcessCompleteRecord."))
  have hcomplete := performs_completeStream (c := c) (lookup_of_data hd) st
  unfold processStream System.endStream
  rw [if_pos hempty, hd]
  dsimp only
  cases hended : (d.endStream st).2 with
  | incomplete =>
    rw [hended] at hcomplete
    refine ⟨none, List.append_nil its, ?_⟩
    exact hstart.bind (hcomplete.bind (.ret fun it h => h.1))
  | complete =>
    rw [hended] at hcomplete
    refine ⟨some ⟨rs.requestId, d.node⟩, rfl, ?_⟩
    exact hstart.bind (hcomplete.bind (.ret fun it h => h.1))
  | malformed =>
    rw [hended] at hcomplete
    refine ⟨none, List.append_nil its, ?_⟩
    have hreject := performs_rejectMalformed hattends hid hlookup
    have hdone := hattends.ended hid (lookup_eq_some.mp hlookup).1 (d.endStream st).1
      (.endedByInterface (d.endStream st).1.node)
    have hsend := (sends_sendFcgiEndRequest hdone (some d.node) rs.requestId fcgiRequestComplete
      exitFailure).discard
    have hmalformed := hcomplete.weaken fun it h => (⟨h.1, h.2 (by simp)⟩ : _ ∧ _)
    exact hstart.bind (hmalformed.bind (hreject.bind (hsend.bind (.ret fun it h => h))))

/-! ## Complete records -/

/-- A record in progress as `ReadRecords` leaves it. -/
structure RecordStatus.Regular (rs : RecordStatus) : Prop where
  fresh : rs.bytesReceived < fcgiHeaderLen → rs.localRecordContentBuffer = []
  accepted : rs.Accepts → rs.rejectedByType = false
  buffered : rs.Accepts → rs.type = kFcgiBeginRequest →
    rs.localRecordContentBuffer.length =
      min (rs.bytesReceived - fcgiHeaderLen) rs.contentBytesExpected
  bounded : rs.bytesReceived ≤ rs.expectedBytes

theorem RecordStatus.IsRecordComplete.header {rs : RecordStatus} (h : rs.IsRecordComplete) :
    rs.IsHeaderComplete := by
  unfold IsRecordComplete expectedBytes at h
  unfold IsHeaderComplete
  omega

/-- The content of a complete begin record. -/
theorem RecordStatus.Regular.length_begin {rs : RecordStatus} (h : rs.Regular)
    (hcomplete : rs.IsRecordComplete) (ha : rs.Accepts) (htype : rs.type = kFcgiBeginRequest) :
    rs.localRecordContentBuffer.length = 8 := by
  have hcontent : rs.contentBytesExpected = 8 := by
    have hrejected := h.accepted ha
    rw [rejectedByType, if_pos htype] at hrejected
    simpa using hrejected
  rw [h.buffered ha htype, hcontent]
  rw [IsRecordComplete, expectedBytes, hcontent] at hcomplete
  omega

theorem performs_processRecord (hs : s.Attends c) {rs : RecordStatus} (hregular : rs.Regular)
    (hr : Received s c rs) (hcomplete : rs.IsRecordComplete) {its : List Iterator}
    (hits : ∀ (id : FcgiRequestIdentifier) (d : RequestData), id.descriptor = c →
      s.requestMap[id]? = some d → d.requestStatus = .requestPending → d.AllComplete →
      ⟨id, d.node⟩ ∈ its) :
    ∃ r, finished r = (s.processRecord c rs its).2 ∧
      Performs (s.Caches c) (processRecord c rs its) s r (s.processRecord c rs its).1
        ((s.processRecord c rs its).1.Caches c) := by
  have hid := hr.descriptor hcomplete.header
  have hnothing : finished (its, none) = its := List.append_nil its
  unfold Server.processRecord System.processRecord
  by_cases hnull : rs.requestId.fcgiId = fcgiNullRequestId
  · rw [if_pos hnull, if_pos hnull]
    refine ⟨(its, none), hnothing, ?_⟩
    unfold System.managementResponse
    split_ifs
    · exact (sends_sendGetValuesResult hs _).discard.bind (.ret fun it h => h)
    · exact (sends_sendFcgiUnknownType hs _).discard.bind (.ret fun it h => h)
  rw [if_neg hnull, if_neg hnull]
  by_cases hinvalid : rs.invalidatedByHeader = true
  · rw [if_pos hinvalid, if_pos hinvalid]
    exact ⟨(its, none), hnothing, .ret fun it h => h⟩
  rw [if_neg hinvalid, if_neg hinvalid]
  have ha : rs.Accepts := ⟨hcomplete.header, by simpa using hinvalid, hnull⟩
  by_cases hbegin : rs.type = kFcgiBeginRequest
  · rw [if_pos hbegin, if_pos hbegin]
    have hlength := hregular.length_begin hcomplete ha hbegin
    have hprocess := performs_processBeginRequest hs hid (hr.begins ha hbegin) (by omega)
    exact ⟨(its, none), hnothing, hprocess.bind (.ret fun it h => h)⟩
  rw [if_neg hbegin, if_neg hbegin]
  by_cases habort : rs.type = kFcgiAbortRequest
  · rw [if_pos habort, if_pos habort]
    exact performs_abort hs hid hits
  rw [if_neg habort, if_neg habort]
  cases hst : Stream.ofType rs.type with
  | none =>
    have hrejected := hregular.accepted ha
    rw [RecordStatus.rejectedByType, if_neg hbegin, if_neg habort, hst] at hrejected
    cases hrejected
  | some st =>
    dsimp only
    obtain ⟨d, hd, -⟩ := hr.stream ha st hst
    by_cases hempty : rs.contentBytesExpected = 0
    · obtain ⟨r, hfinished, hprocess⟩ := performs_processStream hs hid hd hempty st its
      rw [if_pos hempty]
      exact ⟨(its, r), hfinished, hprocess.bind (.ret fun it h => h)⟩
    · rw [if_neg hempty]
      refine ⟨(its, none), hnothing, ?_⟩
      rw [processStream, if_neg hempty]
      exact Performs.bind (.ret fun it h => h) (.ret fun it h => h)

/-- The whole processing of a complete record. -/
theorem performs_finishRecord (hs : s.Attends c) {rs : RecordStatus} (hregular : rs.Regular)
    (hr : Received s c rs) (hcomplete : rs.IsRecordComplete) {its : List Iterator}
    (hits : ∀ (id : FcgiRequestIdentifier) (d : RequestData), id.descriptor = c →
      s.requestMap[id]? = some d → d.requestStatus = .requestPending → d.AllComplete →
      ⟨id, d.node⟩ ∈ its) :
    Performs (s.Caches c) (finishRecord c rs its) s (s.processRecord c rs its).2
      (s.processRecord c rs its).1 ((s.processRecord c rs its).1.Caches c) := by
  obtain ⟨⟨its', r⟩, hfinished, hprocess⟩ := performs_processRecord hs hregular hr hcomplete hits
  rw [← hfinished]
  refine .tryCatch (.bind (.tryCatch hprocess) ?_)
  cases r with
  | none =>
    rw [show finished (its', none) = its' from List.append_nil its']
    exact .ret fun it h => h
  | some i => exact Performs.bind (.allocating fun it h => h) (.ret fun it h => h)

/-! ## Content -/

theorem performs_appendToStream (hs : s.Attends c) {rs : RecordStatus} {st : Stream}
    {d : RequestData} (hid : rs.requestId.descriptor = c) (hst : Stream.ofType rs.type = some st)
    (hd : s.requestMap[rs.requestId]? = some d) (bytes : Bytes) :
    Performs (s.Caches c) (atomically fun reply => appendToStream reply rs bytes) s true
      (s.setData rs.requestId (d.append st bytes))
      ((s.setData rs.requestId (d.append st bytes)).Caches c) := by
  refine .section' fun it hit reply hreply => ?_
  have hnode : (d.append st bytes).node = d.node := (RequestData.sameRequest_append d st bytes).node
  have hcache : s.Caches c (some ⟨rs.requestId, d.node⟩) := find_of_data hd ▸ .find hid
  simp only [appendToStream, returns_bind, returns_get]
  rw [returns_interfaceCheck hs.good, returns_cachedOrFind hit hid, find_of_data hd, hst]
  dsimp only
  rw [returns_bind, returns_setLocalRequestIter, returns_bind, returns_deref (lookup_of_data hd),
    hreply.allocations 0]
  exact ⟨_, _, rfl, rfl, _, hcache.setData hd hnode, rfl⟩

end Server

end AsComponents
