import AsComponents.RequestSteps

/-! A request thread that gives the interface work to do wakes it up: it writes
to the self-pipe before it releases the interface mutex. -/

namespace AsComponents.Server

open Protocol NameValue SocketFunctions AsComponents.Partition Std Critical

/-- Connections that are to be closed and a bad state are signalled. -/
def System.Awake (s : System) : Prop :=
  s.applicationClosureRequestSet ≠ ∅ ∨ s.badInterfaceStateDetected = true → 0 < s.selfPipe

/-- Nothing happened that the interface waits for. -/
structure Calm (s t : System) : Prop where
  closure : t.applicationClosureRequestSet = s.applicationClosureRequestSet
  bad : t.badInterfaceStateDetected = s.badInterfaceStateDetected
  pipe : t.selfPipe = s.selfPipe

/-- What a section leaves behind. -/
inductive Signals (s t : System) : Prop
  | calm (h : Calm s t)
  | written (pipe : 0 < t.selfPipe)
  | ended (halt : t.halt ≠ none)

namespace Calm

variable {s t u : System}

theorem refl (s : System) : Calm s s := ⟨rfl, rfl, rfl⟩

theorem trans (h : Calm s t) (h' : Calm t u) : Calm s u :=
  ⟨h'.closure.trans h.closure, h'.bad.trans h.bad, h'.pipe.trans h.pipe⟩

theorem setRequest (h : Calm s t) (i : Nat) (o : FcgiRequest) : Calm s (t.setRequest i o) :=
  ⟨h.closure, h.bad, h.pipe⟩

theorem setWriteMutex (h : Calm s t) (c : Nat) (m : WriteMutex) : Calm s (t.setWriteMutex c m) :=
  ⟨h.closure, h.bad, h.pipe⟩

theorem transmitted (h : Calm s t) (k k' : Nat) (socket : Socket) (ts : List Transmission) :
    Calm s ((t.setSocket k socket).setTransmissions k' ts) :=
  ⟨h.closure, h.bad, h.pipe⟩

end Calm

namespace Signals

variable {s t u : System}

theorem refl (s : System) : Signals s s := .calm (Calm.refl s)

theorem after (h' : Signals t u) (h : Calm s t) : Signals s u := by
  cases h' with
  | calm hc => exact .calm (h.trans hc)
  | written hp => exact .written hp
  | ended hh => exact .ended hh

theorem setRequest (h : Signals s t) (i : Nat) (o : FcgiRequest) :
    Signals s (t.setRequest i o) := by
  cases h with
  | calm hc => exact .calm (hc.setRequest i o)
  | written hp => exact .written hp
  | ended hh => exact .ended hh

theorem awake (h : Signals s t) (hs : s.Awake) (ht : t.halt = none) :
    t.Awake := by
  cases h with
  | calm hc =>
    intro hw
    rw [hc.closure, hc.bad] at hw
    rw [hc.pipe]
    exact hs hw
  | written hp => exact fun _ => hp
  | ended hh => exact absurd ht hh

end Signals

section Steps

variable {i : Nat} {s : System}

/-! ## What request objects do to the interface -/

theorem signals_halt {α : Type} (h : Halt) :
    After (halt h : Section α) s (fun _ _ => False) (fun _ t => t.halt ≠ none) := by
  rw [after_halt]
  simp

theorem signals_interfacePipeWrite :
    After interfacePipeWrite s (fun _ t => 0 < t.selfPipe) (fun _ _ => True) := by
  simp only [interfacePipeWrite, after_bind, after_get, after_ite, after_set, after_throw]
  exact ⟨fun _ => Nat.succ_pos _, fun _ => trivial⟩

theorem signals_pipeWriteOrTerminate :
    After pipeWriteOrTerminate s (fun _ t => 0 < t.selfPipe) (fun _ t => t.halt ≠ none) := by
  rw [pipeWriteOrTerminate, after_tryCatch]
  exact signals_interfacePipeWrite.mono (fun _ _ ht => ht) fun _ _ _ =>
    (signals_halt _).mono (fun _ _ hf => hf.elim) fun _ _ ht => ht

/-- A handler that wakes the interface up and throws the exception again. -/
theorem signals_wake {α : Type} {Q : α → System → Prop} (s₀ : System) (e : Failure) :
    After (do pipeWriteOrTerminate; throw e : Section α) s Q (fun _ t => Signals s₀ t) := by
  rw [after_bind]
  exact signals_pipeWriteOrTerminate.mono (fun _ _ ht => .written ht) fun _ _ ht => .ended ht

/-- The same handler after the interface was given up. -/
theorem signals_goBad {α : Type} {Q : α → System → Prop} (s₀ : System) (e : Failure) :
    After (do goBad; pipeWriteOrTerminate; throw e : Section α) s Q (fun _ t => Signals s₀ t) := by
  rw [after_bind, after_goBad]
  exact signals_wake s₀ e

theorem calm_removeRequestHelper (found : Option Iterator) :
    After (removeRequestHelper found) s (fun _ t => Calm s t) (fun _ _ => True) := by
  cases found with
  | none => exact trivial
  | some it =>
    simp only [removeRequestHelper, after_tryCatch, after_bind, after_discard, deref, after_get]
    cases s.lookup it with
    | none => exact trivial
    | some d =>
      simp only [after_pure]
      cases s.requestCountMap[it.key.descriptor]? with
      | none => exact trivial
      | some n =>
        cases n with
        | zero => exact trivial
        | succ n => exact ⟨rfl, rfl, rfl⟩

theorem calm_removeRequest (i : Nat) :
    After (removeRequest i) s (fun _ t => Calm s t) (fun _ _ => True) := by
  simp only [removeRequest, after_bind, after_get, after_tryCatch, after_note, after_throw]
  exact (calm_removeRequestHelper _).mono (fun _ _ ht => ht.trans ⟨rfl, rfl, rfl⟩)
    fun _ _ _ => trivial

theorem signals_removeRequestOrWake (i : Nat) :
    After (removeRequestOrWake i) s (fun _ t => Calm s t) (fun _ t => Signals s t) := by
  rw [removeRequestOrWake, after_tryCatch]
  exact (calm_removeRequest i).mono (fun _ _ ht => ht) fun e _ _ => signals_wake s e

theorem signals_requestData (i : Nat) :
    After (requestData i) s (fun _ t => t = s) (fun _ t => Signals s t) := by
  simp only [requestData, after_bind, after_get]
  cases s.lookup ⟨(s.requests i).requestIdentifier, (s.requests i).node⟩ with
  | none => exact (signals_halt _).mono (fun _ _ hf => hf.elim) fun _ _ ht => .ended ht
  | some d =>
    rw [after_pure]

theorem signals_synchronise (i : Nat) :
    After (synchroniseOnWriteMutex i) s (fun _ t => t = s) (fun _ t => Signals s t) := by
  have hhalt : After (halt .danglingPointer : Section Unit) s (fun _ t => t = s)
      (fun _ t => Signals s t) :=
    (signals_halt _).mono (fun _ _ hf => hf.elim) fun _ _ ht => .ended ht
  simp only [synchroniseOnWriteMutex, after_bind, after_get]
  cases s.writeMutexMap[(s.requests i).requestIdentifier.descriptor]? with
  | none => exact hhalt
  | some m =>
    simp only [after_ite, after_await]
    exact ⟨fun _ _ => trivial, fun _ => hhalt⟩

theorem signals_requestClosure (reply : SystemReply) (i : Nat) :
    After (requestClosure reply i) s (fun _ t => 0 < t.selfPipe) (fun _ _ => True) := by
  simp only [requestClosure, after_bind, after_ite, after_throw, after_modify]
  exact ⟨fun _ => trivial, fun _ => signals_interfacePipeWrite⟩

theorem calm_abandon : Calm s
    (s.setRequest i { s.requests i with completed := true, wasAborted := true }) :=
  ⟨rfl, rfl, rfl⟩

theorem calm_setRequest (o : FcgiRequest) : Calm s (s.setRequest i o) := ⟨rfl, rfl, rfl⟩

theorem signals_interfaceStateCheck (i : Nat) :
    After (interfaceStateCheck i) s (fun _ t => Calm s t) (fun _ t => Signals s t) := by
  simp only [interfaceStateCheck, after_bind, after_get, after_ite, after_abandon, after_pure]
  refine ⟨fun _ => calm_abandon, fun _ => ⟨fun _ => calm_abandon, fun _ => ?_⟩⟩
  refine (signals_requestData i).mono ?_ fun _ _ ht => ht
  rintro d t rfl
  refine ⟨fun _ => ?_, fun _ => .refl t⟩
  exact (signals_removeRequestOrWake i).mono (fun _ _ ht => calm_abandon.trans ht)
    fun _ _ ht => ht.after calm_abandon

/-- The part of `TryToAddToApplicationClosureRequestSet` with its own handler. -/
theorem signals_giveUpOrWake (reply : SystemReply) (force : Bool) :
    After (tryCatch
        (do
          abandon i
          removeRequest i
          if force = true ∨ ((← get).requests i).closeConnection = true then
            synchroniseOnWriteMutex i
            requestClosure reply i
          return true)
        fun e => do
          goBad
          pipeWriteOrTerminate
          throw e : Section Bool) s (fun _ t => Signals s t) (fun _ t => Signals s t) := by
  rw [after_tryCatch]
  refine After.mono (Q := fun _ t => Signals s t) (E := fun _ _ => True) ?_ (fun _ _ ht => ht)
    fun e _ _ => signals_goBad s e
  rw [after_bind, after_abandon, after_bind]
  refine (calm_removeRequest i).mono (fun _ t ht => ?_) fun _ _ _ => trivial
  rw [after_bind, after_get, after_ite, after_bind, after_pure]
  refine ⟨fun _ => ?_, fun _ => .calm (calm_abandon.trans ht)⟩
  refine (signals_synchronise i).mono ?_ fun _ _ _ => trivial
  rintro _ u rfl
  rw [after_bind]
  exact (signals_requestClosure reply i).mono (fun _ _ hp => .written hp) fun _ _ _ => trivial

theorem signals_tryToAddToClosureSet (reply : SystemReply) (i : Nat) (held force : Bool) :
    After (tryToAddToClosureSet reply i held force) s (fun _ t => Signals s t)
      (fun _ t => Signals s t) := by
  cases held with
  | true => exact signals_giveUpOrWake reply force
  | false =>
    simp only [tryToAddToClosureSet, Bool.false_eq_true, if_false, after_bind]
    refine (signals_interfaceStateCheck i).mono (fun valid t ht => ?_) fun _ _ ht => ht
    rw [after_ite]
    refine ⟨fun _ => ?_, fun _ => .calm ht⟩
    exact (signals_giveUpOrWake reply force).mono (fun _ _ hu => hu.after ht)
      fun _ _ hu => hu.after ht

/-- The request of a corrupt connection is in the map: its removal does not
throw, so that nothing is left to signal. -/
theorem signals_acquireWriteMutex (h : Invariant s) {d : RequestData} (hchecked : Checked s i d)
    (hnw : ¬ (s.requests i).call.Writing) :
    After (acquireWriteMutex i) s (fun _ t => Calm s t) (fun _ _ => False) := by
  have hcalm : After (acquireWriteMutex i) s (fun _ t => Calm s t) (fun _ _ => True) := by
    rw [acquireWriteMutex, after_bind]
    refine (signals_synchronise i).mono ?_ fun _ _ _ => trivial
    rintro _ t rfl
    simp only [after_bind, after_get]
    cases t.writeMutexMap[(t.requests i).requestIdentifier.descriptor]? with
    | none => exact (signals_halt _).mono (fun _ _ hf => hf.elim) fun _ _ _ => trivial
    | some m =>
      simp only [after_ite, after_bind, after_abandon, after_pure]
      refine ⟨fun _ => ?_, fun _ => .refl t⟩
      exact (calm_removeRequest i).mono (fun _ _ ht => calm_abandon.trans ht) fun _ _ _ => trivial
  exact ((after_acquireWriteMutex (Moved.refl h) hchecked hnw).and hcalm).mono (fun _ _ ht => ht.2)
    fun _ _ ht => ht.1

/-! ## The steps of a call -/

theorem signals_startBatch (h : Invariant s) {rest : Bytes} {type : FcgiType}
    (hcall : (s.requests i).call = .looping rest type) :
    After (startBatch i rest type) s (fun _ t => Signals s t) (fun _ t => Signals s t) := by
  obtain ⟨hcompleted, hassoc, hold, hheld⟩ := in_use h (i := i) (by rw [hcall]; simp)
  have hnw : ¬ (s.requests i).call.Writing := by
    rw [hcall]
    exact id
  simp only [startBatch, after_bind, after_get]
  split
  · simp only [after_bind, after_setCall, after_throw]
    exact .calm (calm_setRequest _)
  · simp only [after_bind, after_tryCatch, after_setCall, after_throw]
    refine ((after_interfaceStateCheck (Moved.refl h) hold hnw hcompleted hassoc).and
      (signals_interfaceStateCheck i)).mono ?_ fun _ _ hf => hf.1.elim
    rintro valid t ⟨hout, ht⟩
    cases valid with
    | false =>
      simp only [Bool.false_eq_true, if_false, after_setCall]
      exact .calm (ht.trans (calm_setRequest _))
    | true =>
      obtain ⟨rfl, d, hchecked⟩ := hout.valid rfl
      simp only [if_true, after_bind, after_tryCatch, after_setCall, after_throw]
      refine (signals_acquireWriteMutex h hchecked hnw).mono ?_ fun _ _ hf => hf.elim
      intro result u hu
      cases result with
      | none => exact .calm (hu.trans (calm_setRequest _))
      | some m =>
        simp only [after_bind, after_modify, after_setCall]
        exact .calm (hu.trans ⟨rfl, rfl, rfl⟩)

theorem signals_connectedSocket (c : Nat) :
    After (connectedSocket c) s (fun _ t => t = s) (fun _ t => Signals s t) := by
  simp only [connectedSocket, after_bind, after_get]
  split
  · rw [after_pure]
  · exact (signals_halt _).mono (fun _ _ hf => hf.elim) fun _ _ ht => .ended ht

theorem signals_continueBatch (reply : SystemReply) (rest : Bytes) (type : FcgiType)
    (iovec : List Bytes) (working total : Nat) :
    After (continueBatch reply i rest type iovec working total) s (fun _ t => Signals s t)
      (fun _ t => Signals s t) := by
  simp only [continueBatch, after_bind, after_get]
  refine (signals_connectedSocket _).mono ?_ fun _ _ ht => ht
  rintro k t rfl
  have hround := (Calm.refl t).transmitted k k
  split
  · rw [after_wait]
    trivial
  · simp only [after_bind, after_modify, after_get]
    split
    · exact (signals_halt _).mono (fun _ _ hf => hf.elim) fun _ _ ht => .ended ht
    · split
      · simp only [after_bind, after_modify, after_setCall]
        exact .calm (((hround _ _).setWriteMutex _ _).setRequest _ _)
      · rw [after_setCall]
        exact .calm ((hround _ _).setRequest _ _)
      · simp only [after_bind, after_modify, after_setCall]
        exact .calm (((hround _ _).setWriteMutex _ _).setRequest _ _)

theorem signals_finishFailedWrite (reply : SystemReply) (force : Bool) (failure : Option Failure) :
    After (finishFailedWrite reply i force failure) s (fun _ t => Signals s t)
      (fun _ t => Signals s t) := by
  simp only [finishFailedWrite, after_bind, after_discard, after_tryCatch, after_setCall,
    after_throw]
  refine (signals_tryToAddToClosureSet reply i false force).mono ?_
    fun _ _ ht => ht.setRequest i _
  intro _ t ht
  cases failure with
  | none => exact ht.setRequest i _
  | some e => exact ht.setRequest i _

theorem signals_writeHoldingInterfaceMutex (h : Invariant s) (reply : SystemReply) {d : RequestData}
    (hchecked : Checked s i d) (hnw : ¬ (s.requests i).call.Writing) (bytes : Bytes) :
    After (writeHoldingInterfaceMutex reply i bytes) s
      (fun written t => if written = true then Calm s t else Signals s t)
      (fun _ t => Signals s t) := by
  simp only [writeHoldingInterfaceMutex, after_bind]
  refine (signals_acquireWriteMutex h hchecked hnw).mono ?_ fun _ _ hf => hf.elim
  intro result t ht
  cases result with
  | none => exact .calm ht
  | some m =>
    simp only [after_bind, after_get]
    refine (signals_connectedSocket _).mono ?_ fun _ _ hu => hu.after ht
    rintro k u rfl
    split
    · rw [after_wait]
      trivial
    · simp only [after_bind, after_modify]
      split
      · simp only [after_bind, after_modify, after_discard]
        refine (signals_tryToAddToClosureSet reply i true _).mono ?_ ?_
        · intro _ v hv
          have hsv : Signals s v := hv.after ((ht.transmitted _ _ _ _).setWriteMutex _ _)
          split
          · exact hsv
          · exact hsv
        · exact fun _ _ hv => hv.after ((ht.transmitted _ _ _ _).setWriteMutex _ _)
      · exact ht.transmitted _ _ _ _

/-- The scheduling of a connection with its handler. -/
theorem signals_scheduleOrWake (reply : SystemReply) (i : Nat) :
    After (tryCatch
        (do
          synchroniseOnWriteMutex i
          requestClosure reply i)
        fun e => do
          goBad
          pipeWriteOrTerminate
          throw e : Section Unit) s (fun _ t => 0 < t.selfPipe) (fun _ t => Signals s t) := by
  rw [after_tryCatch]
  refine After.mono (Q := fun _ t => 0 < t.selfPipe) (E := fun _ _ => True) ?_ (fun _ _ ht => ht)
    fun e _ _ => signals_goBad s e
  rw [after_bind]
  refine (signals_synchronise i).mono ?_ fun _ _ _ => trivial
  rintro _ t rfl
  exact signals_requestClosure reply i

/-- The rest of `EndRequestHelper` once the last batch was written. -/
theorem signals_finishRequest (reply : SystemReply) (o : FcgiRequest) (appStatus : Int32)
    (protocolStatus : UInt8) :
    After (do
        modify fun s => s.setRequest i { s.requests i with completed := true }
        removeRequestOrWake i
        if o.closeConnection = true then
          tryCatch
            (do
              synchroniseOnWriteMutex i
              requestClosure reply i)
            fun e => do
              goBad
              pipeWriteOrTerminate
              throw e
        note (.completed o.node appStatus protocolStatus)
        return true : Section Bool) s (fun _ t => Signals s t) (fun _ t => Signals s t) := by
  have hset := calm_setRequest (s := s) (i := i) { s.requests i with completed := true }
  simp only [after_bind, after_modify]
  refine (signals_removeRequestOrWake i).mono (fun _ t ht => ?_) fun _ _ ht => ht.after hset
  simp only [after_ite, after_bind, after_note, after_pure]
  refine ⟨fun _ => ?_, fun _ => .calm ((hset.trans ht).trans ⟨rfl, rfl, rfl⟩)⟩
  exact (signals_scheduleOrWake reply i).mono (fun _ _ hu => .written hu)
    fun _ _ hu => (hu.after ht).after hset

theorem signals_endRequestHelper (h : Invariant s) (reply : SystemReply) (hold : i < s.nextRequest)
    (hidle : (s.requests i).call = .idle) (appStatus : Int32) (protocolStatus : UInt8) :
    After (endRequestHelper reply i appStatus protocolStatus) s (fun _ t => Signals s t)
      (fun _ t => Signals s t) := by
  have hnw : ¬ (s.requests i).call.Writing := by
    rw [hidle]
    exact id
  simp only [endRequestHelper, after_bind, after_get]
  rw [after_ite]
  refine ⟨fun _ => .refl s, fun hno => ?_⟩
  simp only [not_or, Bool.not_eq_true] at hno
  rw [after_bind]
  refine ((after_interfaceStateCheck (Moved.refl h) hold hnw hno.1 hno.2).and
    (signals_interfaceStateCheck i)).mono ?_ fun _ _ hf => hf.1.elim
  rintro valid t ⟨hout, ht⟩
  cases valid with
  | false => exact .calm ht
  | true =>
    obtain ⟨rfl, d, hchecked⟩ := hout.valid rfl
    simp only [if_true]
    rw [after_bind]
    refine (signals_writeHoldingInterfaceMutex h reply hchecked hnw _).mono ?_ fun _ _ hu => hu
    intro written u hu
    cases written with
    | false => exact hu
    | true =>
      exact (signals_finishRequest reply _ appStatus protocolStatus).mono
        (fun _ _ hv => hv.after hu) fun _ _ hv => hv.after hu

theorem signals_abortStatus (i : Nat) :
    After (abortStatus i) s (fun _ t => Signals s t) (fun _ t => Signals s t) := by
  simp only [abortStatus, after_bind, after_get, after_ite, after_pure, after_abandon, after_throw]
  refine ⟨fun _ => .refl s, fun _ => ⟨fun _ => .calm calm_abandon, fun _ =>
    ⟨fun _ => .calm calm_abandon, fun _ => ?_⟩⟩⟩
  refine (signals_requestData i).mono ?_ fun _ _ ht => ht
  rintro d t rfl
  refine ⟨fun _ => ?_, fun _ => ⟨fun _ => ?_, fun _ => .refl t⟩⟩
  · exact (signals_removeRequestOrWake i).mono (fun _ _ ht => .calm (calm_abandon.trans ht))
      fun _ _ ht => ht.after calm_abandon
  · rw [after_modify]
    exact .calm (calm_setRequest _)

theorem signals_destroyRequest (reply : SystemReply) (i : Nat) :
    After (destroyRequest reply i) s (fun _ t => Signals s t) (fun _ t => Signals s t) := by
  -- the closure of the connection is signalled before the request is removed
  have hremove : ∀ t, Calm s t ∨ 0 < t.selfPipe → After (removeRequest i) t
      (fun _ u => Signals s (u.setRequest i {})) (fun _ _ => True) := by
    intro t ht
    refine (calm_removeRequest i).mono (fun _ u hu => ?_) fun _ _ _ => trivial
    rcases ht with ht | ht
    · exact .calm ((ht.trans hu).trans (calm_setRequest _))
    · refine .written ?_
      rw [← hu.pipe] at ht
      exact ht
  have hhandler : ∀ t, After (do goBad; pipeWriteOrTerminate : Section Unit) t
      (fun _ u => Signals s (u.setRequest i {})) (fun _ u => Signals s u) := by
    intro t
    rw [after_bind, after_goBad]
    exact signals_pipeWriteOrTerminate.mono (fun _ _ hu => .written hu) fun _ _ hu => .ended hu
  simp only [destroyRequest]
  rw [after_bind, after_get, after_ite]
  refine ⟨fun _ => ?_, fun _ => ?_⟩
  · rw [after_ite]
    refine ⟨fun _ => ?_, fun _ => .calm (calm_setRequest _)⟩
    rw [after_bind, after_tryCatch]
    simp only [after_modify]
    refine After.mono (Q := fun _ t => Signals s (t.setRequest i {})) (E := fun _ _ => True) ?_
      (fun _ _ ht => ht) fun _ t _ => hhandler t
    rw [after_ite]
    refine ⟨fun _ => ?_, fun _ => hremove s (.inl (.refl s))⟩
    rw [after_bind]
    refine (signals_requestData i).mono ?_ fun _ _ _ => trivial
    rintro d t rfl
    rw [after_ite]
    refine ⟨fun _ => ?_, fun _ => hremove t (.inl (.refl t))⟩
    rw [after_bind]
    refine (signals_synchronise i).mono ?_ fun _ _ _ => trivial
    rintro _ u rfl
    rw [after_bind]
    exact (signals_requestClosure reply i).mono (fun _ v hv => hremove v (.inr hv))
      fun _ _ _ => trivial
  · exact .calm (calm_setRequest _)

theorem signals_moveAssign (i source : Nat) :
    After (moveAssign i source) s (fun _ t => Signals s t) (fun _ t => Signals s t) := by
  simp only [moveAssign, after_bind, after_get, after_ite, after_pure, after_set, after_throw]
  exact ⟨fun _ => .refl s, fun _ => ⟨fun _ => .calm ⟨rfl, rfl, rfl⟩, fun _ => .refl s⟩⟩

theorem signals_startWrite (i : Nat) (type : FcgiType) (bytes : Bytes) :
    After (startWrite i type bytes) s (fun _ t => Signals s t) (fun _ t => Signals s t) := by
  simp only [startWrite, after_bind, after_get, after_ite, after_pure, after_setCall]
  exact ⟨fun _ => .refl s, fun _ => .calm (calm_setRequest _)⟩

theorem signals_startCall (h : Invariant s) (reply : SystemReply) (hold : i < s.nextRequest)
    (hidle : (s.requests i).call = .idle) (call : ApiCall) :
    After (startCall reply i call) s (fun _ t => Signals s t) (fun _ t => Signals s t) := by
  cases call with
  | write bytes => exact signals_startWrite i _ bytes
  | writeError bytes => exact signals_startWrite i _ bytes
  | complete appStatus =>
    rw [startCall, after_discard]
    exact signals_endRequestHelper h reply hold hidle appStatus _
  | rejectRole appStatus =>
    rw [startCall, after_discard]
    exact signals_endRequestHelper h reply hold hidle appStatus _
  | abortStatus =>
    rw [startCall, after_discard]
    exact signals_abortStatus i
  | destroy => exact signals_destroyRequest reply i
  | moveConstruct => exact .calm ⟨rfl, rfl, rfl⟩
  | moveAssign source =>
    rw [startCall, after_bind, after_await]
    exact fun _ => signals_moveAssign i source

theorem signals_continueCall (h : Invariant s) (reply : SystemReply) (i : Nat) :
    After (continueCall reply i) s (fun _ t => Signals s t) (fun _ t => Signals s t) := by
  simp only [continueCall, after_bind, after_get]
  cases hcall : (s.requests i).call with
  | idle => simp only [after_wait]
  | looping rest type => exact signals_startBatch h hcall
  | writing rest type iovec working total =>
    exact signals_continueBatch reply rest type iovec working total
  | failing force failure =>
    rw [after_discard]
    exact signals_finishFailedWrite reply force failure

theorem signals_requestStep (h : Invariant s) (reply : SystemReply) (i : Nat)
    (call : Option ApiCall) :
    After (requestStep reply i call) s (fun _ t => Signals s t) (fun _ t => Signals s t) := by
  unfold requestStep
  rw [after_bind, after_await]
  rintro ⟨hold, hheld⟩
  cases call with
  | none => exact signals_continueCall h reply i
  | some c =>
    simp only [after_bind, after_await]
    exact fun hidle => signals_startCall h reply hold hidle c

end Steps

end AsComponents.Server
