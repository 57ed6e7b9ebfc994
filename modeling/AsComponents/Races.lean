import AsComponents.Output

/-! Two races between the interface thread and request threads, and what holds
in the runs without them. -/

namespace AsComponents.Server

open Protocol NameValue SocketFunctions AsComponents.Partition Std Critical

/-- The section that the interface thread runs next. -/
def InterfaceThread.next : InterfaceThread → Option Label
  | .accepting p => p.next
  | _ => none

/-- The exception of a call of `AcceptRequests` that has ended with one. -/
def InterfaceThread.failure : InterfaceThread → Option Failure
  | .accepting (.throw e) => some e
  | _ => none

/-- A run every step of which passes a test. -/
def runIf (test : Config → Action → Bool) (c : Config) : List Action → Option Config
  | [] => some c
  | a :: as => if test c a then (step c a).bind fun d => runIf test d as else none

theorem reachable_runIf {ok : Config → Action → Config → Prop} {test : Config → Action → Bool}
    (hok : ∀ c a d, test c a = true → step c a = some d → ok c a d) {c d : Config}
    (hc : ReachableBy ok c) {as : List Action} (h : runIf test c as = some d) :
    ReachableBy ok d := by
  induction as generalizing c with
  | nil =>
    cases h
    exact hc
  | cons a as ih =>
    rw [runIf] at h
    split at h
    · rename_i ht
      obtain ⟨e, hs, hrun⟩ := Option.bind_eq_some_iff.mp h
      exact ih (.step hc hs (hok c a e ht hs)) hrun
    · cases h

/-- What holds when the interface thread is about to enter a section. -/
theorem Sane.promised {A : Assumptions} {c : Config} (h : Sane A c) {l : Label}
    (hh : c.system.halt = none) (hl : c.interface.next = some l)
    (hsync : A.sync → ∀ k, l = .scheduleClosure k → c.system.badInterfaceStateDetected = false →
      c.system.owner k = none) : (contract A).promised l c.system := by
  have hthread := h.thread
  cases hp : c.interface with
  | idle | destroyed =>
    rw [hp] at hl
    cases hl
  | accepting p =>
    rw [hp] at hl hthread
    exact Program.safe_promised (Rely.refl _) hthread hl ⟨h.invariant, hh, hsync⟩

/-! ## The write mutex of a connection that is to be closed -/

/-- When the interface thread is about to schedule a connection for closure
without waiting for its write mutex, no request thread holds the mutex. -/
def SchedulesUnheld (c : Config) (a : Action) (_ : Config) : Prop :=
  ∀ reply k, a = .interface reply → c.interface.next = some (.scheduleClosure k) →
    c.system.badInterfaceStateDetected = false → c.system.owner k = none

/-- The cleanup finds every write mutex free, in the runs in which connections
are scheduled for closure with their write mutex free. -/
theorem cleanup_unheld {c d : Config} {reply : SystemReply} (h : ReachableBy SchedulesUnheld c)
    (hl : c.interface.next = some .cleanup) (hs : step c (.interface reply) = some d) :
    (c.system.badInterfaceStateDetected = false →
      ∀ k ∈ c.system.applicationClosureRequestSet, c.system.owner k = none) ∧
    ∀ e t, cleanup reply c.system = some (.error e, t) → e ≠ erroneouslyHeld := by
  have hsane : Sane ⟨True, False⟩ c := by
    refine sane_reachable (fun c a d hok => ⟨fun _ reply p k ha hp hk hg => ?_, False.elim⟩) h
    refine hok reply k ha ?_ hg
    rw [hp]
    exact hk
  obtain ⟨hhalt, -⟩ := step_cases hs
  have hpromised := (hsane.promised hhalt hl fun _ k hk => by cases hk).1 rfl
  have hquiet := hpromised.1 trivial
  refine ⟨fun hgood k hk => hquiet hgood k hk (by simp), fun e t he => ?_⟩
  exact ((after_cleanup hsane.invariant hpromised.2 reply).of_error he).2.2 hquiet

/-- The client of `connect` closes its end; nobody writes to it. -/
def hangUp : List Action :=
  [.accept, .interface {}, .interface {},
    .interface { select := .ready [(5, [.failed .zero])] 0 [] }] ++
    List.replicate 5 (.interface {}) ++ [.finish, .accept, .interface {}]

/-- The test for `SchedulesUnheld`. -/
def schedulesUnheld (c : Config) (a : Action) : Bool :=
  match a, c.interface.next with
  | .interface _, some (.scheduleClosure k) =>
      c.system.badInterfaceStateDetected || c.system.owner k = none
  | _, _ => true

theorem schedulesUnheld_sound (c : Config) (a : Action) (d : Config)
    (ht : schedulesUnheld c a = true) (_ : step c a = some d) : SchedulesUnheld c a d := by
  rintro reply k rfl hk hgood
  simpa [schedulesUnheld, hk, hgood] using ht

theorem cleanup_unheld_hangUp : ∃ c d, ReachableBy SchedulesUnheld c ∧
    c.interface.next = some .cleanup ∧ step c (.interface {}) = some d ∧
    c.system.badInterfaceStateDetected = false ∧ 5 ∈ c.system.applicationClosureRequestSet ∧
    c.system.owner 5 = none ∧ ∀ e t, cleanup {} c.system = some (.error e, t) → e ≠ erroneouslyHeld := by
  have hrun : ((runIf schedulesUnheld start (connect ++ hangUp)).map fun c =>
      (c.interface.next, c.system.badInterfaceStateDetected,
        decide (5 ∈ c.system.applicationClosureRequestSet), (step c (.interface {})).isSome)) =
      some (some .cleanup, false, true, true) := by decide +kernel
  obtain ⟨c, hc, he⟩ := Option.map_eq_some_iff.mp hrun
  simp only [Prod.mk.injEq, decide_eq_true_eq] at he
  obtain ⟨hl, hgood, hmem, hsome⟩ := he
  obtain ⟨d, hd⟩ := Option.isSome_iff_exists.mp hsome
  have hreachable : ReachableBy SchedulesUnheld c :=
    reachable_runIf schedulesUnheld_sound (.initial initial_start) hc
  obtain ⟨hfree, hthrow⟩ := cleanup_unheld hreachable hl hd
  exact ⟨c, d, hreachable, hl, hd, hgood, hmem, hfree hgood 5 hmem, hthrow⟩

/-- The client closes its end while a request thread is in the middle of a
write: the end of the stream schedules the connection for closure. -/
def hangUpDuringWrite : List Action :=
  [.request {} 0 (some (.write [65])), .request {} 0 none] ++ hangUp

theorem cleanup_held : ∃ c d, Reachable c ∧ c.interface.next = some .cleanup ∧
    step c (.interface {}) = some d ∧ c.system.badInterfaceStateDetected = false ∧
    5 ∈ c.system.applicationClosureRequestSet ∧ c.system.owner 5 = some 0 ∧
    d.interface.failure = some erroneouslyHeld ∧ d.system.badInterfaceStateDetected = true := by
  have hrun : ((run start (connect ++ receive ++ hangUpDuringWrite)).map fun c =>
      (c.interface.next, c.system.badInterfaceStateDetected,
        decide (5 ∈ c.system.applicationClosureRequestSet), c.system.owner 5)) =
      some (some .cleanup, false, true, some 0) := by decide +kernel
  have hstep : (((run start (connect ++ receive ++ hangUpDuringWrite)).bind fun c =>
      step c (.interface {})).map fun d =>
        (d.interface.failure, d.system.badInterfaceStateDetected)) =
      some (some erroneouslyHeld, true) := by decide +kernel
  obtain ⟨c, hc, he⟩ := Option.map_eq_some_iff.mp hrun
  rw [hc] at hstep
  obtain ⟨d, hd, hthrown⟩ := Option.map_eq_some_iff.mp hstep
  simp only [Prod.mk.injEq, decide_eq_true_eq] at he hthrown
  obtain ⟨hl, hgood, hmem, howner⟩ := he
  exact ⟨c, d, reachable_run (.initial initial_start) hc, hl, hd, hgood, hmem, howner, hthrown.1,
    hthrown.2⟩

/-! ## The cached iterator -/

/-- A request thread does not remove the request which `local_request_iter` of
the call of `ReadRecords` in progress points to. -/
def KeepsCached (c : Config) (a : Action) (d : Config) : Prop :=
  ∀ reply i call, a = .request reply i call → c.system.CachePresent → d.system.CachePresent

/-- The cached iterator is never compared or dereferenced when its request is
gone, in the runs in which no request thread removes that request. -/
theorem no_dangling_iterator {c : Config} (h : ReachableBy KeepsCached c) :
    c.system.halt ≠ some .danglingIterator :=
  (sane_reachable (A := ⟨False, True⟩) (fun _ _ _ hok => ⟨False.elim, fun _ => hok⟩) h).fresh trivial

/-- The test for `KeepsCached`. -/
def keepsCached (c : Config) (a : Action) : Bool :=
  match a with
  | .request .. =>
      (step c a).all fun d => d.system.localRequestIter.all fun it => (d.system.lookup it).isSome
  | _ => true

theorem keepsCached_sound (c : Config) (a : Action) (d : Config) (ht : keepsCached c a = true)
    (hs : step c a = some d) : KeepsCached c a d := by
  rintro reply i call rfl - it hit
  rw [keepsCached, hs, Option.all_some, hit, Option.all_some] at ht
  exact Option.isSome_iff_exists.mp ht

/-- An abort record for the request of `receive` arrives; its header has been
validated. -/
def abort : List Action :=
  [.accept, .interface {}, .interface {},
    .interface { select := .ready [(5, [.drained (populateHeader kFcgiAbortRequest 1 0 0)])] 0 [] }] ++
    List.replicate 4 (.interface {})

/-- The application writes to the request while its abort record is processed. -/
def writeDuringAbort : List Action :=
  abort ++ [.request {} 0 (some (.write [65])), .request {} 0 none]

theorem no_dangling_iterator_abort : ∃ c d, ReachableBy KeepsCached c ∧
    c.system.localRequestIter = some ⟨⟨5, 1⟩, 0⟩ ∧ c.system.owner 5 = some 0 ∧
    step c (.interface {}) = some d ∧
    (d.system.requestMap[(⟨5, 1⟩ : FcgiRequestIdentifier)]?).map RequestData.clientSetAbort = some true ∧
    d.system.halt ≠ some .danglingIterator := by
  have hrun : ((runIf keepsCached start (connect ++ receive ++ writeDuringAbort)).bind fun c =>
      (step c (.interface {})).map fun d => (c.system.localRequestIter, c.system.owner 5,
        (d.system.requestMap[(⟨5, 1⟩ : FcgiRequestIdentifier)]?).map RequestData.clientSetAbort)) =
      some (some ⟨⟨5, 1⟩, 0⟩, some 0, some true) := by decide +kernel
  obtain ⟨c, hc, hstep⟩ := Option.bind_eq_some_iff.mp hrun
  obtain ⟨d, hd, hfacts⟩ := Option.map_eq_some_iff.mp hstep
  simp only [Prod.mk.injEq] at hfacts
  obtain ⟨hcached, howner, habort⟩ := hfacts
  have hreachable : ReachableBy KeepsCached c :=
    reachable_runIf keepsCached_sound (.initial initial_start) hc
  have hlast : KeepsCached c (.interface {}) d := by
    rintro reply i call ha
    cases ha
  exact ⟨c, d, hreachable, hcached, howner, hd, habort,
    no_dangling_iterator (.step hreachable hd hlast)⟩

/-- The application completes the request before the abort record is
processed. -/
def completeDuringAbort : List Action :=
  abort ++ [.request { tape := [.wrote 32] } 0 (some (.complete 0)), .interface {}]

theorem dangling_iterator : ∃ c, Reachable c ∧ c.system.halt = some .danglingIterator := by
  have hrun : ((run start (connect ++ receive ++ completeDuringAbort)).map fun c =>
      c.system.halt) = some (some .danglingIterator) := by decide +kernel
  obtain ⟨c, hc, hhalt⟩ := Option.map_eq_some_iff.mp hrun
  exact ⟨c, reachable_run (.initial initial_start) hc, hhalt⟩

end AsComponents.Server
