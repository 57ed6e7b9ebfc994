import AsComponents.FcgiRequest

/-! Runs of the interface thread together with the threads of the application,
from the construction of an interface on. -/

namespace AsComponents.Server

open Protocol NameValue SocketFunctions AsComponents.Partition Std

/-- The thread that owns the interface. -/
inductive InterfaceThread
  | idle
  | accepting (p : Thread (List Nat))
  | destroyed

structure Config where
  system : System
  interface : InterfaceThread

inductive Action
  /-- `AcceptRequests` is called. -/
  | accept
  /-- The next section of the call of `AcceptRequests` in progress. -/
  | interface (reply : SystemReply)
  /-- `AcceptRequests` returns or throws. -/
  | finish
  | setOverload (overload : Bool)
  | destroyInterface
  /-- The next step of the thread that uses a request object. -/
  | request (reply : SystemReply) (i : Nat) (call : Option ApiCall)

/-- Hand objects over to the application. -/
def release (s : System) (objects : List Nat) : System :=
  { s with requests := fun i =>
      if i ∈ objects then { s.requests i with held := false } else s.requests i }

/-- One step of one thread; `none` when the thread has to wait. -/
def step (c : Config) (a : Action) : Option Config :=
  if c.system.halt.isSome then none
  else
    match a, c.interface with
    | .accept, .idle => some { c with interface := .accepting acceptRequests }
    | .interface reply, .accepting p =>
        (p.step reply c.system).map fun r => ⟨r.2, .accepting r.1⟩
    | .finish, .accepting (.ret objects) => some ⟨release c.system objects, .idle⟩
    | .finish, .accepting (.throw _) => some { c with interface := .idle }
    | .setOverload overload, .idle =>
        some { c with system := { c.system with applicationOverload := overload } }
    | .destroyInterface, .idle =>
        (destroyInterface c.system).map fun r => ⟨r.2, .destroyed⟩
    | .request reply i call, _ =>
        (requestStep reply i call c.system).map fun r => { c with system := r.2 }
    | _, _ => none

/-- A newly constructed interface.  Request objects of earlier interfaces may
still be in use; none of their threads is in the middle of a write, as the
destructor of an interface waits for these. -/
structure Initial (s : System) : Prop where
  maximumRequestCount_pos : 0 < s.maximumRequestCountPerConnection
  limits : s.limits.Posix
  recordStatusMap : s.recordStatusMap = ∅
  dummyDescriptorSet : s.dummyDescriptorSet = ∅
  requestBufferOnThrow : s.requestBufferOnThrow = []
  writeMutexMap : s.writeMutexMap = ∅
  interfaceIdentifier : s.interfaceIdentifier ≠ 0
  closureRequestSet : s.applicationClosureRequestSet = ∅
  requestCountMap : s.requestCountMap = ∅
  requestMap : s.requestMap = ∅
  good : s.badInterfaceStateDetected = false
  stale : ∀ i, (s.requests i).associatedInterfaceId ≠ s.interfaceIdentifier
  notWriting : ∀ i rest type iovec working total,
    (s.requests i).call ≠ .writing rest type iovec working total
  notHeld : ∀ i, (s.requests i).held = false
  looping : ∀ i rest type, (s.requests i).call = .looping rest type →
    rest ≠ [] ∧ (type = kFcgiStdout ∨ type = kFcgiStderr)
  idle : ∀ i, (s.requests i).completed = true ∨ (s.requests i).associatedInterfaceId = 0 →
    (s.requests i).call = .idle
  nextRequest : ∀ i, s.nextRequest ≤ i → s.requests i = {}
  descriptors : s.descriptors = ∅
  sockets : ∀ k, s.sockets k = {}
  halt : s.halt = none
  transmissions : ∀ k, s.transmissions k = []
  log : s.log = []

/-- The configurations that runs whose steps all satisfy `ok` reach. -/
inductive ReachableBy (ok : Config → Action → Config → Prop) : Config → Prop
  | initial {s : System} (h : Initial s) : ReachableBy ok ⟨s, .idle⟩
  | step {c d : Config} {a : Action} (h : ReachableBy ok c) (hs : step c a = some d)
      (hok : ok c a d) : ReachableBy ok d

/-- The configurations that runs reach. -/
abbrev Reachable : Config → Prop := ReachableBy fun _ _ _ => True

/-- Several steps, for the evaluation of a given run. -/
def run (c : Config) : List Action → Option Config
  | [] => some c
  | a :: as => (step c a).bind fun d => run d as

theorem reachable_run {c d : Config} (hc : Reachable c) {as : List Action}
    (h : run c as = some d) : Reachable d := by
  induction as generalizing c with
  | nil =>
    cases h
    exact hc
  | cons a as ih =>
    simp only [run, Option.bind_eq_some_iff] at h
    obtain ⟨e, hs, hrun⟩ := h
    exact ih (.step hc hs trivial) hrun

end AsComponents.Server
