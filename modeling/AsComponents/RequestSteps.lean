import AsComponents.Rounds
import AsComponents.Sections

/-! Every step of a request thread is a sequence of moves. -/

namespace AsComponents.Server

open Protocol NameValue SocketFunctions AsComponents.Partition Std Critical

/-! ## Moves between two states -/

/-- The state when no call on the object is in progress any more. -/
def System.rested (s : System) (i : Nat) : System :=
  s.setRequest i { s.requests i with call := .idle }

structure Moved (i : Nat) (s t : System) : Prop where
  moves : RequestMoves i s t
  invariant : Invariant t

/-- The state is one that moves lead to, once the call in progress ends. -/
abbrev Settled (i : Nat) (s t : System) : Prop := Moved i s (t.rested i)

namespace Moved

variable {i : Nat} {s₀ s t : System}

theorem refl (h : Invariant s) : Moved i s s := ⟨.refl, h⟩

theorem step (h : Moved i s₀ s) (hm : RequestMove i s t) : Moved i s₀ t :=
  ⟨h.moves.tail hm, h.invariant.requestMove hm⟩

end Moved

theorem rested_setRequest (s : System) (i : Nat) (o : FcgiRequest) :
    (s.setRequest i o).rested i = s.setRequest i { o with call := .idle } := by
  simp [System.rested, System.setRequest]

theorem rested_eq {s : System} {i : Nat} (h : (s.requests i).call = .idle) : s.rested i = s := by
  have he : ({ s.requests i with call := .idle } : FcgiRequest) = s.requests i := by
    generalize s.requests i = o at h
    cases o
    simp only at h
    rw [h]
  rw [System.rested, System.setRequest, he, Function.update_eq_self]

/-- The object was abandoned and its request removed. -/
theorem rested_removed (s : System) (i : Nat) (o : FcgiRequest) (id : FcgiRequestIdentifier) (n : Nat)
    (e : Event) :
    (((s.setRequest i o).eraseRequest id n).record e).rested i =
      ((s.eraseRequest id n).record e).setRequest i { o with call := .idle } := by
  simp [System.rested, System.setRequest, System.record, System.eraseRequest]

/-- What no closure of a connection changes. -/
structure Alike (s t : System) : Prop where
  log : t.log = s.log
  requestMap : t.requestMap = s.requestMap
  transmissions : t.transmissions = s.transmissions
  requests : t.requests = s.requests
  counts : t.requestCountMap = s.requestCountMap
  identifier : t.interfaceIdentifier = s.interfaceIdentifier
  bad : t.badInterfaceStateDetected = s.badInterfaceStateDetected

namespace Alike

variable {s t u : System}

theorem refl (s : System) : Alike s s := ⟨rfl, rfl, rfl, rfl, rfl, rfl, rfl⟩

theorem trans (h : Alike s t) (h' : Alike t u) : Alike s u :=
  ⟨h'.log.trans h.log, h'.requestMap.trans h.requestMap, h'.transmissions.trans h.transmissions,
    h'.requests.trans h.requests, h'.counts.trans h.counts, h'.identifier.trans h.identifier,
    h'.bad.trans h.bad⟩

end Alike

section Steps

variable {i : Nat} {s₀ s : System}

/-- The write mutex of a live object whose connection is not closed. -/
theorem owned_mutex (h : Invariant s) {d : RequestData} (owns : Owns s i d)
    (hclosed : d.connectionClosedByInterface = false) :
    ∃ m, s.writeMutexMap[(s.requests i).requestIdentifier.descriptor]? = some m ∧
      m.socket = (s.requests i).socket := by
  obtain ⟨d', owns', hsocket⟩ := h.objects.owns owns.good i owns.live
  obtain rfl : d = d' := Option.some.inj (owns.data.symm.trans owns'.data)
  obtain ⟨r, hr⟩ := h.tables.request_socket _ d owns.data
  have hc : (s.requests i).requestIdentifier.descriptor ∈ s.writeMutexMap := by
    refine ((h.tables.descriptors_iff _).mp (by grind)).resolve_right ?_
    intro hdummy
    rw [h.tables.dummy_closed _ d owns.data hdummy] at hclosed
    cases hclosed
  refine ⟨s.writeMutexMap[(s.requests i).requestIdentifier.descriptor], by grind, ?_⟩
  obtain ⟨r', hr'⟩ := h.tables.mutex_socket _ _ (show
    s.writeMutexMap[(s.requests i).requestIdentifier.descriptor]? =
      some s.writeMutexMap[(s.requests i).requestIdentifier.descriptor] by grind)
  rw [hr, Option.some.injEq, Descriptor.mk.injEq] at hr'
  rw [← hr'.1]
  exact hsocket

/-- An object gives its request up without having removed it. -/
theorem moved_abandoned (h : Moved i s₀ s) (hold : i < s.nextRequest)
    (hcall : ¬ (s.requests i).call.Writing)
    (honly : s.badInterfaceStateDetected = true ∨ ¬ s.Live i) :
    Settled i s₀ (s.setRequest i { s.requests i with completed := true, wasAborted := true }) := by
  rw [Settled, rested_setRequest]
  exact h.step (.object true true .idle hold (.inr ⟨rfl, hcall⟩) trivial (fun _ => rfl)
    (fun hne => absurd rfl hne) trivial (.inr ⟨rfl, honly⟩))

/-- What `InterfaceStateCheckForWritingUponMutexAcquisition` ensures when it
returns true. -/
structure Checked (s : System) (i : Nat) (d : RequestData) : Prop where
  owns : Owns s i d
  unclosed : d.connectionClosedByInterface = false
  unscheduled : (s.requests i).requestIdentifier.descriptor ∉ s.applicationClosureRequestSet

/-- The outcome of the check: nothing happened, or the object was abandoned. -/
structure CheckOutcome (i : Nat) (s₀ s : System) (result : Bool) (t : System) : Prop where
  valid : result = true → t = s ∧ ∃ d, Checked s i d
  invalid : result = false → Settled i s₀ t ∧ (t.requests i).call = (s.requests i).call

theorem after_interfaceStateCheck (h : Moved i s₀ s) (hold : i < s.nextRequest)
    (hcall : ¬ (s.requests i).call.Writing) (hcompleted : (s.requests i).completed = false)
    (hassoc : (s.requests i).associatedInterfaceId ≠ 0) :
    After (interfaceStateCheck i) s (CheckOutcome i s₀ s) (fun _ _ => False) := by
  simp only [interfaceStateCheck, after_bind, after_get, after_ite, after_abandon, after_pure]
  refine ⟨?_, fun hid => ⟨?_, fun hbad => ?_⟩⟩
  · intro hid
    refine ⟨by simp, fun _ => ⟨moved_abandoned h hold hcall (.inr ?_), by simp [System.setRequest]⟩⟩
    exact fun hl => hid hl.1.symm
  · intro hbad
    exact ⟨by simp, fun _ =>
      ⟨moved_abandoned h hold hcall (.inl hbad), by simp [System.setRequest]⟩⟩
  · have hid' : s.interfaceIdentifier = (s.requests i).associatedInterfaceId := by
      simpa using hid
    have hgood : s.badInterfaceStateDetected = false := by simpa using hbad
    have hlive : s.Live i := ⟨hid'.symm, hid' ▸ hassoc, hcompleted⟩
    obtain ⟨d, owns, -⟩ := h.invariant.objects.owns hgood i hlive
    obtain ⟨n, hn⟩ := count_pos h.invariant owns.data
    rw [after_requestData owns.data owns.node]
    refine ⟨fun _ => ?_, fun hno => ?_⟩
    · rw [after_removeRequestOrWake (d := d) (n := n)
        (by simpa [System.setRequest] using owns.data)
        (by simpa [System.setRequest] using owns.node)
        (by simpa [System.setRequest] using hn)]
      refine ⟨by simp, fun _ => ⟨?_, ?_⟩⟩
      · rw [Settled, rested_removed]
        simp only [System.setRequest, Function.update_self]
        exact h.step (.retire (o := { s.requests i with
          completed := true, wasAborted := true, call := .idle }) owns hcall (.inr ⟨true, rfl⟩) hn)
      · simp [System.record, System.eraseRequest, System.setRequest]
    · simp only [not_or, Bool.not_eq_true] at hno
      exact ⟨fun _ => ⟨rfl, d, owns, hno.1, hno.2⟩, by simp⟩

theorem after_interfacePipeWrite {u : System} (h : Settled i s₀ u) :
    After interfacePipeWrite u (fun _ v => Settled i s₀ v ∧ Alike u v)
      (fun _ v => Settled i s₀ v ∧ Alike u v) := by
  simp only [interfacePipeWrite, after_bind, after_get, after_ite, after_set, after_throw]
  exact ⟨fun _ => ⟨h.step (.pipe (u.selfPipe + 1)), rfl, rfl, rfl, rfl, rfl, rfl, rfl⟩,
    fun _ => ⟨h, .refl u⟩⟩

theorem after_pipeWriteOrTerminate {u : System} (h : Settled i s₀ u) :
    After pipeWriteOrTerminate u (fun _ v => Settled i s₀ v ∧ Alike u v)
      (fun _ v => Settled i s₀ v ∧ Alike u v) := by
  simp only [pipeWriteOrTerminate, interfacePipeWrite, after_tryCatch, after_bind, after_get,
    after_ite, after_set, after_throw, after_halt]
  exact ⟨fun _ => ⟨h.step (.pipe (u.selfPipe + 1)), rfl, rfl, rfl, rfl, rfl, rfl, rfl⟩,
    fun _ => ⟨h.step .terminate, rfl, rfl, rfl, rfl, rfl, rfl, rfl⟩⟩

theorem after_requestClosure {u : System} {m : WriteMutex} (reply : SystemReply)
    (h : Settled i s₀ u)
    (hm : u.writeMutexMap[(u.requests i).requestIdentifier.descriptor]? = some m)
    (hfree : m.owner = none) :
    After (requestClosure reply i) u (fun _ v => Settled i s₀ v ∧ Alike u v)
      (fun _ v => Settled i s₀ v ∧ Alike u v) := by
  have hunit : ∀ v : System, Settled i s₀ v ∧ Alike u v →
      After interfacePipeWrite v (fun _ w => Settled i s₀ w ∧ Alike u w)
        (fun _ w => Settled i s₀ w ∧ Alike u w) := by
    rintro v ⟨hv, ha⟩
    refine (after_interfacePipeWrite hv).mono ?_ ?_
    · rintro _ w ⟨hw, hb⟩
      exact ⟨hw, ha.trans hb⟩
    · rintro _ w ⟨hw, hb⟩
      exact ⟨hw, ha.trans hb⟩
  simp only [requestClosure, after_bind, after_ite, after_throw, after_modify]
  refine ⟨fun _ => ⟨h, .refl u⟩, fun _ => hunit _ ⟨?_, rfl, rfl, rfl, rfl, rfl, rfl, rfl⟩⟩
  exact h.step (.schedule (c := (u.requests i).requestIdentifier.descriptor) hm hfree)

/-- The actions under the mutex which give a request up and, when asked to,
schedule its connection. -/
theorem after_giveUp {u : System} {d : RequestData} {m : WriteMutex} {n : Nat} (reply : SystemReply)
    (force : Bool) (hd : u.requestMap[(u.requests i).requestIdentifier]? = some d)
    (hnode : d.node = (u.requests i).node)
    (hn : u.requestCountMap[(u.requests i).requestIdentifier.descriptor]? = some (n + 1))
    (hm : u.writeMutexMap[(u.requests i).requestIdentifier.descriptor]? = some m)
    (hs : m.socket = (u.requests i).socket)
    (hret : Moved i s₀ (u.retired i
      { u.requests i with completed := true, wasAborted := true, call := .idle } n)) :
    After (do
        abandon i
        removeRequest i
        if force = true ∨ ((← get).requests i).closeConnection = true then
          synchroniseOnWriteMutex i
          requestClosure reply i
        return true : Section Bool) u
      (fun _ v => Settled i s₀ v ∧ (v.requests i).call = (u.requests i).call)
      (fun _ v => Settled i s₀ v ∧ (v.requests i).call = (u.requests i).call) := by
  simp only [after_bind, after_abandon]
  rw [after_removeRequest (d := d) (n := n) (by simpa [System.setRequest] using hd)
    (by simpa [System.setRequest] using hnode) (by simpa [System.setRequest] using hn)]
  set v := ((u.setRequest i { u.requests i with completed := true, wasAborted := true }).eraseRequest
    ((u.setRequest i { u.requests i with completed := true, wasAborted := true }).requests
      i).requestIdentifier n).record
      (.removed ((u.setRequest i { u.requests i with completed := true, wasAborted := true }).requests
        i).node
        (some ((u.setRequest i { u.requests i with completed := true, wasAborted := true }).requests
          i).node) true) with hv
  have hvi : v.requests i = { u.requests i with completed := true, wasAborted := true } := by
    simp [hv, System.record, System.eraseRequest, System.setRequest]
  have hsettled : Settled i s₀ v := by
    rw [hv, Settled, rested_removed]
    simp only [System.setRequest, Function.update_self]
    exact hret
  have hcall : (v.requests i).call = (u.requests i).call := by rw [hvi]
  simp only [after_get, after_ite, after_bind, after_pure]
  refine ⟨fun _ => ?_, fun _ => ⟨hsettled, hcall⟩⟩
  have hmv : v.writeMutexMap[(v.requests i).requestIdentifier.descriptor]? = some m := by
    rw [hvi]
    exact hm
  rw [after_synchroniseOnWriteMutex hmv (by rw [hvi]; exact hs)]
  intro hfree
  refine (after_requestClosure reply hsettled hmv hfree).mono ?_ ?_
  · rintro _ w ⟨hw, ha⟩
    exact ⟨hw, by rw [ha.requests]; exact hcall⟩
  · rintro _ w ⟨hw, ha⟩
    exact ⟨hw, by rw [ha.requests]; exact hcall⟩

/-- The handler of `TryToAddToApplicationClosureRequestSet`. -/
theorem after_giveUpOrWake {u : System} {d : RequestData} {m : WriteMutex} {n : Nat}
    (reply : SystemReply) (force : Bool)
    (hd : u.requestMap[(u.requests i).requestIdentifier]? = some d)
    (hnode : d.node = (u.requests i).node)
    (hn : u.requestCountMap[(u.requests i).requestIdentifier.descriptor]? = some (n + 1))
    (hm : u.writeMutexMap[(u.requests i).requestIdentifier.descriptor]? = some m)
    (hs : m.socket = (u.requests i).socket)
    (hret : Moved i s₀ (u.retired i
      { u.requests i with completed := true, wasAborted := true, call := .idle } n)) :
    After (tryCatch
        (do
          abandon i
          removeRequest i
          if force = true ∨ ((← get).requests i).closeConnection = true then
            synchroniseOnWriteMutex i
            requestClosure reply i
          return true)
        fun e => do
          goBad
          pipeWriteOrTerminate
          throw e : Section Bool) u
      (fun _ v => Settled i s₀ v ∧ (v.requests i).call = (u.requests i).call)
      (fun _ v => Settled i s₀ v ∧ (v.requests i).call = (u.requests i).call) := by
  rw [after_tryCatch]
  refine (after_giveUp reply force hd hnode hn hm hs hret).mono (fun _ _ hv => hv) ?_
  rintro e v ⟨hv, hcall⟩
  simp only [after_bind, after_goBad, after_throw]
  refine (after_pipeWriteOrTerminate (u := { v with badInterfaceStateDetected := true })
    (hv.step .bad)).mono ?_ ?_
  · rintro _ w ⟨hw, ha⟩
    exact ⟨hw, by rw [ha.requests]; exact hcall⟩
  · rintro _ w ⟨hw, ha⟩
    exact ⟨hw, by rw [ha.requests]; exact hcall⟩

/-- An object that is in the middle of a call is neither null nor completed. -/
theorem in_use (h : Invariant s) (hcall : (s.requests i).call ≠ .idle) :
    (s.requests i).completed = false ∧ (s.requests i).associatedInterfaceId ≠ 0 ∧
      i < s.nextRequest ∧ (s.requests i).held = false := by
  have hidle := h.objects.idle i
  refine ⟨?_, ?_, ?_, ?_⟩
  · by_contra hc
    exact hcall (hidle (.inl (by simpa using hc)))
  · intro hz
    exact hcall (hidle (.inr hz))
  · by_contra hge
    rw [h.objects.fresh i (by omega)] at hcall
    exact hcall rfl
  · by_contra hh
    exact hcall (h.objects.held_idle i (by simpa using hh))

/-- The call of a write that has failed comes to its end. -/
theorem after_finishFailedWrite (h : Invariant s) (reply : SystemReply) {force : Bool}
    {failure : Option Failure} (hcall : (s.requests i).call = .failing force failure) :
    After (finishFailedWrite reply i force failure) s (fun _ t => Moved i s t)
      (fun _ t => Moved i s t) := by
  obtain ⟨hcompleted, hassoc, hold, hheld⟩ := in_use h (i := i) (by rw [hcall]; simp)
  have hnw : ¬ (s.requests i).call.Writing := by
    rw [hcall]
    exact id
  have htry : After (tryToAddToClosureSet reply i false force) s (fun _ t => Settled i s t)
      (fun _ t => Settled i s t) := by
    simp only [tryToAddToClosureSet, Bool.false_eq_true, if_false, after_bind]
    refine (after_interfaceStateCheck (Moved.refl h) hold hnw hcompleted hassoc).mono ?_
      (fun _ _ hf => hf.elim)
    intro valid t hout
    cases valid with
    | false => simpa using (hout.invalid rfl).1
    | true =>
      obtain ⟨rfl, d, hchecked⟩ := hout.valid rfl
      obtain ⟨m, hm, hs⟩ := owned_mutex h hchecked.owns hchecked.unclosed
      obtain ⟨n, hn⟩ := count_pos h hchecked.owns.data
      refine (after_giveUpOrWake reply force hchecked.owns.data hchecked.owns.node hn hm hs ?_).mono
        (fun _ _ hv => hv.1) (fun _ _ hv => hv.1)
      exact (Moved.refl h).step (.retire hchecked.owns hnw (.inr ⟨true, rfl⟩) hn)
  simp only [finishFailedWrite, after_bind, after_discard, after_tryCatch, after_setCall,
    after_throw]
  refine htry.mono ?_ (fun _ _ hv => hv)
  intro _ t ht
  cases failure with
  | none => exact ht
  | some e => exact ht

/-- The result of acquiring the write mutex: the mutex, or nothing when the
connection is corrupt and the request was given up. -/
structure Acquired (i : Nat) (s₀ s : System) (result : Option WriteMutex) (t : System) : Prop where
  some : ∀ m, result = some m → t = s ∧
    s.writeMutexMap[(s.requests i).requestIdentifier.descriptor]? = some m ∧
      m.socket = (s.requests i).socket ∧ m.owner = none ∧ m.corrupt = false
  none : result = none → Settled i s₀ t ∧ (t.requests i).call = (s.requests i).call

theorem after_acquireWriteMutex (h : Moved i s₀ s) {d : RequestData} (hchecked : Checked s i d)
    (hnw : ¬ (s.requests i).call.Writing) :
    After (acquireWriteMutex i) s (Acquired i s₀ s) (fun _ _ => False) := by
  obtain ⟨m, hm, hs⟩ := owned_mutex h.invariant hchecked.owns hchecked.unclosed
  obtain ⟨n, hn⟩ := count_pos h.invariant hchecked.owns.data
  simp only [acquireWriteMutex, after_bind]
  rw [after_synchroniseOnWriteMutex hm hs]
  intro hfree
  simp only [after_get, hm, after_ite, after_bind, after_abandon, after_pure]
  refine ⟨fun _ => ?_, fun hc => ?_⟩
  · rw [after_removeRequest (d := d) (n := n)
      (by simpa [System.setRequest] using hchecked.owns.data)
      (by simpa [System.setRequest] using hchecked.owns.node)
      (by simpa [System.setRequest] using hn)]
    refine ⟨by simp, fun _ => ⟨?_, ?_⟩⟩
    · rw [Settled, rested_removed]
      simp only [System.setRequest, Function.update_self]
      exact h.step (.retire (o := { s.requests i with
        completed := true, wasAborted := true, call := .idle }) hchecked.owns hnw
        (.inr ⟨true, rfl⟩) hn)
    · simp [System.record, System.eraseRequest, System.setRequest]
  · refine ⟨?_, by simp⟩
    rintro m' he
    cases he
    exact ⟨rfl, hm, hs, hfree, by simpa using hc⟩

/-- A partition of bytes that are left is a batch of stream records. -/
theorem streamBatch_partition {l : SystemLimits} {type : FcgiType} {fcgiId : UInt16} {bytes : Bytes}
    {p : PartitionReturn} (hl : l.Posix) (hb : bytes ≠ [])
    (htype : type = kFcgiStdout ∨ type = kFcgiStderr)
    (hp : partitionByteSequence l type fcgiId bytes = some p) :
    StreamBatch fcgiId p.iovec.flatten ∧ p.numberToWrite = p.iovec.flatten.length := by
  obtain ⟨contents, hcs, hflat, -, hiovec, hnumber⟩ := partitionByteSequence_spec hb hp
  refine ⟨⟨contents.map (alignedRecord type fcgiId), ?_, hiovec.symm, ?_⟩, hnumber⟩
  · intro hnil
    rw [List.map_eq_nil_iff] at hnil
    rw [hnil, List.flatten_nil] at hflat
    have hpos := minMax_pos hl
    have hlen := congrArg List.length hflat
    rw [List.length_take, List.length_nil] at hlen
    have := List.length_pos_iff.mpr hb
    omega
  · intro r hr
    obtain ⟨content, hc, rfl⟩ := List.mem_map.mp hr
    obtain ⟨hne, hle⟩ := hcs content hc
    refine ⟨htype, rfl, hne, ?_, ?_⟩
    · simp only [alignedRecord]
      exact Nat.le_trans hle (by decide)
    · have := paddingFor_lt content.length
      simp only [alignedRecord, List.length_replicate]
      omega

/-- The state in which a call on an object has ended and nothing else changed. -/
theorem moved_rested (h : Moved i s₀ s) (hold : i < s.nextRequest)
    (hcall : (s.requests i).call.Resting) : Moved i s₀ (s.rested i) :=
  h.step (.object (s.requests i).completed (s.requests i).wasAborted .idle hold (.inl hcall) trivial
    (fun _ => rfl) (fun hne => absurd rfl hne) trivial (.inl rfl))

/-- The next batch of a write. -/
theorem after_startBatch (h : Invariant s) {rest : Bytes} {type : FcgiType}
    (hcall : (s.requests i).call = .looping rest type) :
    After (startBatch i rest type) s (fun _ t => Moved i s t) (fun _ t => Moved i s t) := by
  obtain ⟨hcompleted, hassoc, hold, hheld⟩ := in_use h (i := i) (by rw [hcall]; simp)
  have hresting : (s.requests i).call.Resting := by
    rw [hcall]
    trivial
  have hnw := Wires.resting_not_writing hresting
  have houtput := h.objects.output i
  rw [hcall] at houtput
  have hrested := moved_rested (Moved.refl h) hold hresting
  simp only [startBatch, after_bind, after_get]
  split
  · simp only [after_bind, after_setCall, after_throw]
    exact hrested
  · rename_i p hp
    obtain ⟨hbatch, hnumber⟩ := streamBatch_partition h.limits houtput.1 houtput.2 hp
    simp only [after_bind, after_tryCatch, after_setCall, after_throw]
    refine (after_interfaceStateCheck (Moved.refl h) hold hnw hcompleted hassoc).mono ?_
      (fun _ _ hf => hf.elim)
    intro valid t hout
    cases valid with
    | false =>
      simp only [Bool.false_eq_true, if_false, after_setCall]
      exact (hout.invalid rfl).1
    | true =>
      obtain ⟨rfl, d, hchecked⟩ := hout.valid rfl
      simp only [if_true, after_bind, after_tryCatch, after_setCall, after_throw]
      refine (after_acquireWriteMutex (Moved.refl h) hchecked hnw).mono ?_ (fun _ _ hf => hf.elim)
      intro result u hacq
      cases result with
      | none => exact (hacq.none rfl).1
      | some m =>
        obtain ⟨rfl, hm, hs, hfree, hintact⟩ := hacq.some m rfl
        simp only [after_bind, after_modify, after_setCall]
        rw [hnumber]
        exact (Moved.refl h).step (.acquire hchecked.owns hresting hheld hm hs hfree hintact
          hchecked.unscheduled rfl houtput.2 hbatch)

/-- The connection of an object in the middle of a batch. -/
theorem after_connectedSocket {c k : Nat} {Q : Nat → System → Prop} {E : Failure → System → Prop}
    (hd : s.descriptors[c]? = some ⟨k, false⟩) : After (connectedSocket c) s Q E ↔ Q k s := by
  simp only [connectedSocket, after_bind, after_get, hd, after_pure]

/-- The next round of the write loop. -/
theorem after_continueBatch (h : Invariant s) (reply : SystemReply) {rest : Bytes} {type : FcgiType}
    {iovec : List Bytes} {working total : Nat}
    (hcall : (s.requests i).call = .writing rest type iovec working total) :
    After (continueBatch reply i rest type iovec working total) s (fun _ t => Moved i s t)
      (fun _ t => Moved i s t) := by
  have hw := h.wires.writing i rest type iovec working total hcall
  obtain ⟨m, hm, howner, hs⟩ := hw.mutex
  have hconn := h.tables.connected _ m hm (.inr (by rw [howner]; simp))
  have houtput := h.objects.output i
  rw [hcall] at houtput
  simp only [continueBatch, after_bind, after_get]
  rw [after_connectedSocket hconn, hs]
  split
  · simp only [after_wait]
  · rename_i r hr
    obtain ⟨unwritten, hspec⟩ := writeRound_spec hw.length hr
    simp only [after_bind, after_modify, after_get]
    have hm' : ((s.setSocket (s.requests i).socket r.socket).setTransmissions (s.requests i).socket
        (acceptUpTo ((s.setSocket (s.requests i).socket r.socket).transmissions
          (s.requests i).socket) (total - r.remaining))).writeMutexMap[
            (s.requests i).requestIdentifier.descriptor]? = some m := hm
    rw [hm']
    cases ho : r.outcome with
    | done =>
      have hz := hspec.done ho
      set after : Call := if rest = [] then .idle else .looping rest type with hafter
      have hresting : after.Resting := by
        rw [hafter]
        split <;> trivial
      have hout : after.Output := by
        rw [hafter]
        split
        · trivial
        · rename_i hrest
          exact ⟨hrest, houtput⟩
      have hpartly : 0 < r.remaining → r.remaining < total →
          false = true ∨ r.socket.broken = true := by
        intro hpos
        omega
      have hleave := RequestMove.leave hcall hm hspec.accepted hspec.length (.inl ⟨hz, hresting⟩)
        hout hpartly
      rw [Bool.or_false] at hleave
      simp only [after_bind, after_modify, after_setCall]
      exact (Moved.refl h).step hleave
    | again iovec' =>
      obtain ⟨hflat, hpos⟩ := hspec.again iovec' ho
      simp only [after_setCall]
      exact (Moved.refl h).step (.progress hcall (hflat ▸ hspec.accepted)
        (by rw [hflat]; exact hspec.length) hpos)
    | failed force failure =>
      simp only [after_bind, after_modify, after_setCall]
      exact (Moved.refl h).step (.leave hcall hm hspec.accepted hspec.length
        (.inr ⟨force, failure, rfl⟩) trivial (fun _ => hspec.failed force failure ho))

theorem setWriteMutex_self {c : Nat} {m : WriteMutex} (hm : s.writeMutexMap[c]? = some m) :
    s.setWriteMutex c m = s := by
  have he : s.writeMutexMap.insert c m = s.writeMutexMap := by
    apply ExtTreeMap.ext_getElem?
    intro c'
    grind
  rw [System.setWriteMutex, he]

/-- The result of writing a batch under the interface mutex: the batch was
accepted as a whole, or the request was given up. -/
structure Written (i : Nat) (s : System) (bytes : Bytes) (result : Bool) (t : System) : Prop where
  sent : result = true → ∃ m socket,
    t = s.offered (s.requests i).requestIdentifier.descriptor m (some (s.requests i).node) bytes socket
      bytes.length false ∧
    Offer s (s.requests i).requestIdentifier.descriptor m bytes socket bytes.length false ∧
    m.socket = (s.requests i).socket
  failed : result = false → Moved i s t

/-- What a call that ended leaves behind, for an object whose call it was. -/
theorem moved_of_settled {t : System} (h : Settled i s₀ t) (hcall : (t.requests i).call = .idle) :
    Moved i s₀ t := by
  rw [Settled, rested_eq hcall] at h
  exact h

theorem after_writeHoldingInterfaceMutex (h : Invariant s) (reply : SystemReply) {d : RequestData}
    (appStatus : Int32) (protocolStatus : UInt8) (hchecked : Checked s i d)
    (hidle : (s.requests i).call = .idle) :
    After (writeHoldingInterfaceMutex reply i
        (conclusion (s.requests i).requestIdentifier.fcgiId appStatus protocolStatus)) s
      (Written i s (conclusion (s.requests i).requestIdentifier.fcgiId appStatus protocolStatus))
      (fun _ t => Moved i s t) := by
  have hnw : ¬ (s.requests i).call.Writing := by
    rw [hidle]
    exact id
  obtain ⟨n, hn⟩ := count_pos h hchecked.owns.data
  simp only [writeHoldingInterfaceMutex, after_bind]
  refine (after_acquireWriteMutex (Moved.refl h) hchecked hnw).mono ?_ (fun _ _ hf => hf.elim)
  intro result t hacq
  cases result with
  | none =>
    obtain ⟨hset, hcall⟩ := hacq.none rfl
    exact ⟨by simp, fun _ => moved_of_settled hset (hcall.trans hidle)⟩
  | some m =>
    obtain ⟨rfl, hm, hs, hfree, hintact⟩ := hacq.some m rfl
    have hconn := h.tables.connected _ m hm (.inl hchecked.owns.good)
    simp only [after_bind, after_get]
    rw [after_connectedSocket hconn]
    generalize hbytes :
      conclusion (t.requests i).requestIdentifier.fcgiId appStatus protocolStatus = bytes
    split
    · simp only [after_wait]
    · rename_i r hr
      obtain ⟨⟨unwritten, hspec⟩, hagain⟩ := writeRounds_spec (by simp) hr
      have hflat : [bytes].flatten = bytes := by simp
      rw [hflat] at hspec
      have hle := hspec.accepted.length_le
      have hlen := hspec.length
      have haccepts : Accepted (t.sockets m.socket) r.socket bytes
          (bytes.drop (bytes.length - r.remaining)) := by
        rw [← hlen, ← hspec.accepted.unwritten_eq]
        exact hspec.accepted
      simp only [after_bind, after_modify]
      cases ho : r.outcome with
      | done =>
        have hz := hspec.done ho
        simp only [after_pure]
        refine ⟨fun _ => ⟨m, r.socket, ?_, ⟨hm, hfree, hintact, hconn, ?_, Nat.le_refl _, ?_⟩, hs⟩,
          by simp⟩
        · rw [hz, Nat.sub_zero, System.offered, hintact]
          have hm' : ((t.setSocket m.socket r.socket).setTransmissions m.socket
            (t.transmissions m.socket ++ [⟨some (t.requests i).node, bytes,
              bytes.length⟩])).writeMutexMap[(t.requests i).requestIdentifier.descriptor]? =
                some { m with corrupt := false || false } := by
            rw [Bool.or_false, ← hintact]
            exact hm
          exact (setWriteMutex_self hm').symm
        · rw [hz, Nat.sub_zero] at haccepts
          exact haccepts
        · intro _ hlt
          omega
      | again iovec => exact absurd ho (hagain iovec)
      | failed force failure =>
        have hoffer : Offer t (t.requests i).requestIdentifier.descriptor m bytes r.socket
            (bytes.length - r.remaining) r.corrupt := by
          refine ⟨hm, hfree, hintact, hconn, haccepts, Nat.sub_le _ _, ?_⟩
          intro hpos hlt
          exact hspec.failed force failure ho (by omega)
        subst hbytes
        have hmove := (Moved.refl h).step (.conclude
          (o := { t.requests i with completed := true, wasAborted := true, call := .idle })
          hchecked.owns hidle (.inr ⟨true, rfl⟩) hn hs hoffer)
        simp only [after_bind, after_modify, after_discard, tryToAddToClosureSet, if_true, after_pure]
        refine (after_giveUpOrWake (m := { m with corrupt := m.corrupt || r.corrupt }) reply force
          (u := t.offered (t.requests i).requestIdentifier.descriptor m (some (t.requests i).node) _
            r.socket _ r.corrupt) hchecked.owns.data hchecked.owns.node hn ?_ hs hmove).mono ?_ ?_
        · exact ExtTreeMap.getElem?_insert_self
        · rintro _ v ⟨hv, hcall⟩
          have hmv := moved_of_settled hv (hcall.trans hidle)
          cases failure with
          | none => exact ⟨by simp, fun _ => hmv⟩
          | some e => exact hmv
        · rintro _ v ⟨hv, hcall⟩
          exact moved_of_settled hv (hcall.trans hidle)

/-- What may be noted about a request that was just completed. -/
theorem completed_note (h : Invariant s) {d : RequestData} (owns : Owns s i d)
    (hidle : (s.requests i).call = .idle) {appStatus : Int32} {protocolStatus : UInt8}
    {m : WriteMutex} {w : System} (hs : m.socket = (s.requests i).socket)
    (hlog : w.log = .removed (s.requests i).node (some (s.requests i).node) true :: s.log)
    (hmap : w.requestMap = s.requestMap.erase (s.requests i).requestIdentifier)
    (htr : w.transmissions = Function.update s.transmissions m.socket (s.transmissions m.socket ++
      [⟨some (s.requests i).node,
        conclusion (s.requests i).requestIdentifier.fcgiId appStatus protocolStatus,
        (conclusion (s.requests i).requestIdentifier.fcgiId appStatus protocolStatus).length⟩])) :
    RequestMove i w (w.record (.completed (s.requests i).node appStatus protocolStatus)) := by
  obtain ⟨d', owns', hsocket⟩ := h.objects.owns owns.good i owns.live
  obtain rfl : d = d' := Option.some.inj (owns.data.symm.trans owns'.data)
  obtain ⟨-, -, -, hstreams, -, -⟩ := h.traces.owned h.begins h.objects owns
  have hresting := h.rests.resting owns.good i owns.live (by rw [hidle]; trivial)
  have hwhole : ∀ t ∈ s.trace (s.requests i).socket (s.requests i).node,
      StreamBatch (s.requests i).requestIdentifier.fcgiId t.bytes ∧ t.accepted = t.bytes.length :=
    fun t ht => ⟨hstreams t ht, hresting t ht⟩
  refine RequestMove.note (i := i) (s := w) (k := (s.requests i).socket) ?_ ?_ hwhole ?_
  · rw [hlog, ← owns.node, ← hsocket]
    exact List.mem_cons_of_mem _ (h.begins.entry _ d owns.data)
  · intro id e he hn
    rw [hmap] at he
    have he' : s.requestMap[id]? = some e ∧ id ≠ (s.requests i).requestIdentifier := by grind
    exact he'.2 (h.objects.node_inj _ _ e d he'.1 owns.data (hn.trans owns.node.symm))
  · rw [Traces.trace_append (s := s) (x := ⟨some (s.requests i).node, _, _⟩)
      (by rw [htr, hs, Function.update_self]), if_pos rfl]

/-- The rest of `EndRequestHelper` once the last batch was written. -/
theorem after_finishRequest (h : Invariant s) (reply : SystemReply) {d : RequestData}
    (hchecked : Checked s i d) (hidle : (s.requests i).call = .idle) {appStatus : Int32}
    {protocolStatus : UInt8} {m : WriteMutex} {socket : Socket} {bytes : Bytes}
    (hbytes : bytes = conclusion (s.requests i).requestIdentifier.fcgiId appStatus protocolStatus)
    (hoffer : Offer s (s.requests i).requestIdentifier.descriptor m bytes socket bytes.length false)
    (hs : m.socket = (s.requests i).socket) :
    After (do
        modify fun s => s.setRequest i { s.requests i with completed := true }
        removeRequestOrWake i
        if (s.requests i).closeConnection = true then
          tryCatch
            (do
              synchroniseOnWriteMutex i
              requestClosure reply i)
            fun e => do
              goBad
              pipeWriteOrTerminate
              throw e
        note (.completed (s.requests i).node appStatus protocolStatus)
        return true : Section Bool)
      (s.offered (s.requests i).requestIdentifier.descriptor m (some (s.requests i).node) bytes socket
        bytes.length false)
      (fun _ t => Moved i s t) (fun _ t => Moved i s t) := by
  subst hbytes
  obtain ⟨n, hn⟩ := count_pos h hchecked.owns.data
  set u := s.offered (s.requests i).requestIdentifier.descriptor m (some (s.requests i).node)
    (conclusion (s.requests i).requestIdentifier.fcgiId appStatus protocolStatus) socket
    (conclusion (s.requests i).requestIdentifier.fcgiId appStatus protocolStatus).length false with hu
  have hui : u.requests i = s.requests i := rfl
  have hdu : u.requestMap[(u.requests i).requestIdentifier]? = some d := hchecked.owns.data
  have hnu : u.requestCountMap[(u.requests i).requestIdentifier.descriptor]? = some (n + 1) := hn
  simp only [after_bind, after_modify]
  rw [after_removeRequestOrWake (d := d) (n := n) (by simpa [System.setRequest] using hdu)
    (by simpa [System.setRequest, hui] using hchecked.owns.node) (by simpa [System.setRequest] using hnu)]
  set v := ((u.setRequest i { u.requests i with completed := true }).eraseRequest
    ((u.setRequest i { u.requests i with completed := true }).requests i).requestIdentifier
      n).record (.removed ((u.setRequest i { u.requests i with completed := true }).requests i).node
        (some ((u.setRequest i { u.requests i with completed := true }).requests i).node) true) with hv
  have hvi : v.requests i = { s.requests i with completed := true } := by
    simp [hv, hui, System.record, System.eraseRequest, System.setRequest]
  have hmoved : Moved i s v := by
    have hstep := (Moved.refl h).step (.conclude (o := { s.requests i with completed := true })
      hchecked.owns hidle (.inr ⟨(s.requests i).wasAborted, by rw [← hidle]⟩) hn hs hoffer)
    have he : v = u.retired i { s.requests i with completed := true } n := by
      simp [hv, hui, System.retired, System.record, System.eraseRequest, System.setRequest]
    rw [he]
    exact hstep
  have hnote : ∀ w, Moved i s w → Alike v w →
      Moved i s (w.record (.completed (s.requests i).node appStatus protocolStatus)) := by
    intro w hw ha
    refine hw.step (completed_note h hchecked.owns hidle hs ?_ ?_ ?_)
    · rw [ha.log, hv]
      simp [hui, System.record, System.eraseRequest, System.setRequest]
      rfl
    · rw [ha.requestMap, hv]
      simp [hui, System.record, System.eraseRequest, System.setRequest]
      rfl
    · rw [ha.transmissions]
      rfl
  simp only [after_ite, after_bind, after_note, after_pure]
  refine ⟨fun _ => ?_, fun _ => hnote v hmoved (.refl v)⟩
  have hcall : (v.requests i).call = .idle := by
    rw [hvi]
    exact hidle
  have hsettled : Settled i s v := by
    rw [Settled, rested_eq hcall]
    exact hmoved
  have hmv : v.writeMutexMap[(v.requests i).requestIdentifier.descriptor]? =
      some { m with corrupt := m.corrupt || false } := by
    rw [hvi]
    exact ExtTreeMap.getElem?_insert_self
  have hback : ∀ w, Settled i s w → w.requests = v.requests → Moved i s w := by
    intro w hw he
    refine moved_of_settled hw ?_
    rw [he]
    exact hcall
  rw [after_tryCatch, after_bind, after_synchroniseOnWriteMutex hmv (by rw [hvi]; exact hs)]
  intro hfree
  refine (after_requestClosure reply hsettled hmv hfree).mono ?_ ?_
  · rintro _ w ⟨hw, ha⟩
    exact hnote w (hback w hw ha.requests) ha
  · rintro _ w ⟨hw, ha⟩
    simp only [after_bind, after_goBad, after_throw]
    refine (after_pipeWriteOrTerminate (u := { w with badInterfaceStateDetected := true })
      (hw.step .bad)).mono ?_ ?_
    · rintro _ x ⟨hx, hb⟩
      exact hback x hx (hb.requests.trans ha.requests)
    · rintro _ x ⟨hx, hb⟩
      exact hback x hx (hb.requests.trans ha.requests)

theorem after_endRequestHelper (h : Invariant s) (reply : SystemReply) (hold : i < s.nextRequest)
    (hidle : (s.requests i).call = .idle) (appStatus : Int32) (protocolStatus : UInt8) :
    After (endRequestHelper reply i appStatus protocolStatus) s (fun _ t => Moved i s t)
      (fun _ t => Moved i s t) := by
  have hnw : ¬ (s.requests i).call.Writing := by
    rw [hidle]
    exact id
  simp only [endRequestHelper, after_bind, after_get]
  rw [after_ite]
  refine ⟨fun _ => Moved.refl h, fun hno => ?_⟩
  simp only [not_or, Bool.not_eq_true] at hno
  rw [after_bind]
  refine (after_interfaceStateCheck (Moved.refl h) hold hnw hno.1 hno.2).mono ?_
    (fun _ _ hf => hf.elim)
  intro valid t hout
  cases valid with
  | false =>
    obtain ⟨hset, hcall⟩ := hout.invalid rfl
    exact moved_of_settled hset (hcall.trans hidle)
  | true =>
    obtain ⟨rfl, d, hchecked⟩ := hout.valid rfl
    simp only [if_true]
    rw [after_bind]
    refine (after_writeHoldingInterfaceMutex h reply appStatus protocolStatus hchecked hidle).mono ?_
      (fun _ _ hv => hv)
    intro written u hwritten
    cases written with
    | false => exact hwritten.failed rfl
    | true =>
      obtain ⟨m, socket, rfl, hoffer, hs⟩ := hwritten.sent rfl
      exact after_finishRequest h reply hchecked hidle rfl hoffer hs

theorem after_abortStatus (h : Invariant s) (hold : i < s.nextRequest)
    (hidle : (s.requests i).call = .idle) :
    After (abortStatus i) s (fun _ t => Moved i s t) (fun _ t => Moved i s t) := by
  have hnw : ¬ (s.requests i).call.Writing := by
    rw [hidle]
    exact id
  have habandoned : s.badInterfaceStateDetected = true ∨ ¬ s.Live i →
      Moved i s (s.setRequest i { s.requests i with completed := true, wasAborted := true }) := by
    intro honly
    refine moved_of_settled (moved_abandoned (Moved.refl h) hold hnw honly) ?_
    simpa [System.setRequest] using hidle
  simp only [abortStatus, after_bind, after_get, after_ite, after_pure, after_abandon, after_throw]
  refine ⟨fun _ => Moved.refl h, fun hno => ?_⟩
  simp only [not_or, Bool.not_eq_true] at hno
  refine ⟨fun hid => habandoned (.inr fun hl => hid hl.1.symm), fun hid => ?_⟩
  refine ⟨fun hbad => habandoned (.inl hbad), fun hbad => ?_⟩
  have hid' : s.interfaceIdentifier = (s.requests i).associatedInterfaceId := by simpa using hid
  have hlive : s.Live i := ⟨hid'.symm, hid' ▸ hno.2.2, hno.1⟩
  obtain ⟨d, owns, -⟩ := h.objects.owns (by simpa using hbad) i hlive
  obtain ⟨n, hn⟩ := count_pos h owns.data
  rw [after_requestData owns.data owns.node]
  refine ⟨fun _ => ?_, fun _ => ⟨fun _ => ?_, fun _ => Moved.refl h⟩⟩
  · rw [after_removeRequestOrWake (d := d) (n := n) (by simpa [System.setRequest] using owns.data)
      (by simpa [System.setRequest] using owns.node) (by simpa [System.setRequest] using hn)]
    refine moved_of_settled (i := i) ?_ ?_
    · rw [Settled, rested_removed]
      simp only [System.setRequest, Function.update_self]
      exact (Moved.refl h).step (.retire (o := { s.requests i with
        completed := true, wasAborted := true, call := .idle }) owns hnw (.inr ⟨true, rfl⟩) hn)
    · simpa [System.record, System.eraseRequest, System.setRequest] using hidle
  · rw [after_modify]
    refine (Moved.refl h).step (.object (s.requests i).completed true (s.requests i).call hold
      (.inl ?_) ?_ (fun _ => hidle) (fun hne => absurd hidle hne) ?_ (.inl rfl))
    · rw [hidle]
      trivial
    · rw [hidle]
      trivial
    · rw [hidle]
      trivial

/-- The place of a destroyed object is empty; when the destructor does not
return, the process has ended. -/
structure Destroyed (i : Nat) (s t : System) : Prop where
  moved : Moved i s t
  requests : t.requests = Function.update s.requests i {}
  halt : t.halt = s.halt

theorem halt_pipeWriteOrTerminate :
    After pipeWriteOrTerminate s (fun _ t => t.halt = s.halt)
      (fun _ t => t.halt = some .terminated) := by
  simp only [pipeWriteOrTerminate, interfacePipeWrite, after_tryCatch, after_bind, after_get,
    after_ite, after_set, after_throw, after_halt]
  exact ⟨fun _ => trivial, fun _ => trivial⟩

theorem halt_requestClosure (reply : SystemReply) :
    After (requestClosure reply i) s (fun _ t => t.halt = s.halt) (fun _ t => t.halt = s.halt) := by
  simp only [requestClosure, interfacePipeWrite, after_bind, after_get, after_ite, after_set,
    after_throw, after_modify]
  simp

/-- The destructor of an object whose request is in the map. -/
theorem after_destroyOwned (h : Invariant s) (reply : SystemReply) {d : RequestData}
    (owns : Owns s i d) (hidle : (s.requests i).call = .idle) :
    After (do
        tryCatch
          (do
            if (s.requests i).closeConnection = true then
              if (← requestData i).connectionClosedByInterface = false then
                synchroniseOnWriteMutex i
                requestClosure reply i
            removeRequest i)
          fun _ => do
            goBad
            pipeWriteOrTerminate
        modify (·.setRequest i {}) : Section Unit) s
      (fun _ t => Destroyed i s t) (fun _ t => Moved i s t ∧ t.halt = some .terminated) := by
  have hnw : ¬ (s.requests i).call.Writing := by
    rw [hidle]
    exact id
  obtain ⟨n, hn⟩ := count_pos h owns.data
  have hremove : ∀ t, Moved i s t → Alike s t → t.halt = s.halt →
      After (removeRequest i) t (fun _ u => Destroyed i s (u.setRequest i {})) (fun _ _ => False) := by
    intro t ht ha hhalt
    have he : t.requests i = s.requests i := by rw [ha.requests]
    rw [after_removeRequest (d := d) (n := n) (by rw [he, ha.requestMap]; exact owns.data)
      (by rw [he]; exact owns.node) (by rw [he, ha.counts]; exact hn)]
    have owns' : Owns t i d := by
      refine ⟨ha.bad.trans owns.good, ?_, ?_, ?_, owns.assigned⟩
      · unfold System.Live
        rw [he, ha.identifier]
        exact owns.live
      · rw [he, ha.requestMap]
        exact owns.data
      · rw [he]
        exact owns.node
    refine ⟨ht.step (.retire (n := n) owns' (by rw [he]; exact hnw) (.inl rfl) ?_), ?_, ?_⟩
    · rw [he, ha.counts]
      exact hn
    · simp only [System.setRequest, System.record, System.eraseRequest, ha.requests]
    · exact hhalt
  have hfailed : ∀ t, Moved i s t → Alike s t → t.halt = s.halt →
      After (do goBad; pipeWriteOrTerminate : Section Unit) t
        (fun _ u => Destroyed i s (u.setRequest i {}))
        (fun _ u => Moved i s u ∧ u.halt = some .terminated) := by
    intro t ht ha hhalt
    have hcall : (t.requests i).call = .idle := by rw [ha.requests]; exact hidle
    simp only [after_bind, after_goBad]
    set u : System := { t with badInterfaceStateDetected := true } with hu
    have hset : Settled i s u := by
      rw [Settled, rested_eq (by exact hcall)]
      exact ht.step .bad
    refine ((after_pipeWriteOrTerminate hset).and halt_pipeWriteOrTerminate).mono ?_ ?_
    · rintro _ v ⟨⟨hv, hb⟩, hhv⟩
      have hvi : (v.requests i).call = .idle := by rw [hb.requests]; exact hcall
      refine ⟨(moved_of_settled hv hvi).step (.drop (by rw [hvi]; exact id) (.inl hb.bad)), ?_,
        hhv.trans hhalt⟩
      simp only [System.setRequest, hb.requests]
      rw [← ha.requests]
    · rintro _ v ⟨⟨hv, hb⟩, hhv⟩
      exact ⟨moved_of_settled hv (by rw [hb.requests]; exact hcall), hhv⟩
  rw [after_bind]
  simp only [after_modify]
  have hlast : After (removeRequest i) s (fun _ u => Destroyed i s (u.setRequest i {})) fun e t =>
      After (do goBad; pipeWriteOrTerminate : Section Unit) t
        (fun _ u => Destroyed i s (u.setRequest i {}))
        (fun _ u => Moved i s u ∧ u.halt = some .terminated) :=
    (hremove s (Moved.refl h) (.refl s) rfl).mono (fun _ _ hu => hu) (fun _ _ hf => hf.elim)
  rw [after_tryCatch, after_ite]
  refine ⟨fun _ => ?_, fun _ => hlast⟩
  · rw [after_bind, after_requestData owns.data owns.node, after_ite]
    refine ⟨fun hopen => ?_, fun _ => hlast⟩
    · obtain ⟨m, hm, hs⟩ := owned_mutex h owns hopen
      rw [after_bind, after_synchroniseOnWriteMutex hm hs]
      intro hfree
      rw [after_bind]
      have hset : Settled i s s := by
        rw [Settled, rested_eq hidle]
        exact Moved.refl h
      have hmoved : ∀ t, Settled i s t → Alike s t → Moved i s t := by
        intro t ht ha
        refine moved_of_settled ht ?_
        rw [ha.requests]
        exact hidle
      refine ((after_requestClosure reply hset hm hfree).and (halt_requestClosure reply)).mono ?_ ?_
      · rintro _ t ⟨⟨ht, ha⟩, hhalt⟩
        exact (hremove t (hmoved t ht ha) ha hhalt).mono (fun _ _ hu => hu) (fun _ _ hf => hf.elim)
      · rintro _ t ⟨⟨ht, ha⟩, hhalt⟩
        exact hfailed t (hmoved t ht ha) ha hhalt

theorem after_destroyRequest (h : Invariant s) (reply : SystemReply)
    (hidle : (s.requests i).call = .idle) :
    After (destroyRequest reply i) s (fun _ t => Destroyed i s t)
      (fun _ t => Moved i s t ∧ t.halt = some .terminated) := by
  have hdrop : s.badInterfaceStateDetected = true ∨ ¬ s.Live i →
      Destroyed i s (s.setRequest i {}) :=
    fun honly => ⟨(Moved.refl h).step (.drop (by rw [hidle]; exact id) honly), rfl, rfl⟩
  simp only [destroyRequest]
  rw [after_bind, after_get, after_ite]
  refine ⟨fun hlive => ?_, fun hdead => ?_⟩
  · rw [after_ite]
    refine ⟨fun hgood => ?_, fun hbad => ?_⟩
    · have hl : s.Live i := ⟨hgood.1.symm, hgood.1 ▸ hlive.2, hlive.1⟩
      obtain ⟨d, owns, -⟩ := h.objects.owns hgood.2 i hl
      exact after_destroyOwned h reply owns hidle
    · rw [after_modify]
      refine hdrop ?_
      by_contra hno
      simp only [not_or, Bool.not_eq_true, not_not] at hno
      exact hbad ⟨hno.2.1.symm, hno.1⟩
  · rw [after_modify]
    refine hdrop (.inr fun hl => hdead ⟨hl.2.2, ?_⟩)
    rw [hl.1]
    exact hl.2.1

theorem after_startWrite (h : Invariant s) (hold : i < s.nextRequest)
    (hheld : (s.requests i).held = false) (hidle : (s.requests i).call = .idle) {type : FcgiType}
    (htype : type = kFcgiStdout ∨ type = kFcgiStderr) (bytes : Bytes) :
    After (startWrite i type bytes) s (fun _ t => Moved i s t) (fun _ t => Moved i s t) := by
  simp only [startWrite, after_bind, after_get, after_ite, after_pure, after_setCall]
  refine ⟨fun _ => Moved.refl h, fun hno => ?_⟩
  simp only [not_or] at hno
  refine (Moved.refl h).step (.object (s.requests i).completed (s.requests i).wasAborted
    (.looping bytes type) hold (.inl ?_) trivial ?_ (fun _ => hheld) ⟨hno.2.2, htype⟩ (.inl rfl))
  · rw [hidle]
    trivial
  · rintro (hc | hz)
    · exact absurd hc hno.1
    · exact absurd hz hno.2.1

theorem after_moveAssign (h : Invariant s) (hold : i < s.nextRequest)
    (hheld : (s.requests i).held = false) (hidle : (s.requests i).call = .idle) {source : Nat}
    (hidle' : (s.requests source).call = .idle) (hheld' : (s.requests source).held = false) :
    After (moveAssign i source) s (fun _ t => Moved i s t) (fun _ t => Moved i s t) := by
  simp only [moveAssign, after_bind, after_get, after_ite, after_pure, after_set, after_throw]
  refine ⟨fun _ => Moved.refl h, fun hne => ⟨fun honly => ?_, fun _ => Moved.refl h⟩⟩
  exact (Moved.refl h).step (.moveAssign hne hidle hheld hidle' hheld' hold honly)

theorem after_startCall (h : Invariant s) (reply : SystemReply) (hold : i < s.nextRequest)
    (hheld : (s.requests i).held = false) (hidle : (s.requests i).call = .idle) (call : ApiCall) :
    After (startCall reply i call) s (fun _ t => Moved i s t) (fun _ t => Moved i s t) := by
  cases call with
  | write bytes => exact after_startWrite h hold hheld hidle (.inl rfl) bytes
  | writeError bytes => exact after_startWrite h hold hheld hidle (.inr rfl) bytes
  | complete appStatus =>
    rw [startCall, after_discard]
    exact after_endRequestHelper h reply hold hidle appStatus _
  | rejectRole appStatus =>
    rw [startCall, after_discard]
    exact after_endRequestHelper h reply hold hidle appStatus _
  | abortStatus =>
    rw [startCall, after_discard]
    exact after_abortStatus h hold hidle
  | destroy =>
    exact (after_destroyRequest h reply hidle).mono (fun _ _ ht => ht.moved) (fun _ _ ht => ht.1)
  | moveConstruct =>
    exact (Moved.refl h).step (.moveConstruct hidle hheld hold)
  | moveAssign source =>
    rw [startCall, after_bind, after_await]
    rintro ⟨hidle', hheld'⟩
    exact after_moveAssign h hold hheld hidle hidle' hheld'

theorem after_continueCall (h : Invariant s) (reply : SystemReply) :
    After (continueCall reply i) s (fun _ t => Moved i s t) (fun _ t => Moved i s t) := by
  simp only [continueCall, after_bind, after_get]
  cases hcall : (s.requests i).call with
  | idle => simp only [after_wait]
  | looping rest type => exact after_startBatch h hcall
  | writing rest type iovec working total => exact after_continueBatch h reply hcall
  | failing force failure =>
    rw [after_discard]
    exact after_finishFailedWrite h reply hcall

/-- A step of a request thread is a sequence of moves on an object that the
application holds. -/
theorem after_requestStep (h : Invariant s) (reply : SystemReply) (i : Nat) (call : Option ApiCall) :
    After (requestStep reply i call) s (fun _ t => (s.requests i).held = false ∧ Moved i s t)
      (fun _ t => (s.requests i).held = false ∧ Moved i s t) := by
  unfold requestStep
  rw [after_bind, after_await]
  rintro ⟨hold, hheld⟩
  cases call with
  | none => exact (after_continueCall h reply).mono (fun _ _ ht => ⟨hheld, ht⟩) (fun _ _ ht => ⟨hheld, ht⟩)
  | some c =>
    simp only [after_bind, after_await]
    intro hidle
    exact (after_startCall h reply hold hheld hidle c).mono (fun _ _ ht => ⟨hheld, ht⟩)
      (fun _ _ ht => ⟨hheld, ht⟩)

end Steps

end AsComponents.Server
