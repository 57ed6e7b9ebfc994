import AsComponents.ClientReceive
import AsComponents.ClientSend

/-! The runs of a client: sequences of calls of the public functions of one
`TestFcgiClientInterface`.  Functions that only observe it are left out. -/

namespace AsComponents.Client

open Protocol NameValue SocketFunctions AsComponents.Partition Std

/-- A call of a public function that may change the object. -/
inductive Call
  | connect
  | closeConnection (connection : Nat)
  | releaseId (id : FcgiRequestIdentifier)
  | releaseIds (connection : Nat)
  | retrieveServerEvent
  | sendAbortRequest (id : FcgiRequestIdentifier)
  | sendBinaryManagementRequest (connection : Nat) (type : FcgiType) (data : Bytes)
  | sendGetValuesRequest (connection : Nat) (paramsMap : ParamsMap)
  | sendRequest (connection : Nat) (request : FcgiRequestDataReference)

/-- What a call returns. -/
inductive Value
  | descriptor (d : Option Nat)
  | boolean (b : Bool)
  | event (e : ServerEvent)
  | requestId (id : Option FcgiRequestIdentifier)

def perform (reply : SystemReply) : Call → Operation Value
  | .connect => .descriptor <$> connect reply
  | .closeConnection c => .boolean <$> closeConnection reply c
  | .releaseId id => .boolean <$> releaseId id
  | .releaseIds c => .boolean <$> releaseIds c
  | .retrieveServerEvent => .event <$> retrieveServerEvent reply
  | .sendAbortRequest id => .boolean <$> sendAbortRequest reply id
  | .sendBinaryManagementRequest c type data =>
      .boolean <$> sendBinaryManagementRequest reply c type data
  | .sendGetValuesRequest c paramsMap => .boolean <$> sendGetValuesRequest reply c paramsMap
  | .sendRequest c request => .requestId <$> sendRequest reply c request

/-- The state after a call that has returned or thrown. -/
def step (s : TestFcgiClientInterface) (reply : SystemReply) (call : Call) :
    Option TestFcgiClientInterface :=
  match perform reply call s with
  | some (.ok _, t) => some t
  | some (.error e, t) => if e = .halted then none else some t
  | none => none

/-- The states reached by calls that meet a condition. -/
inductive ReachableBy (ok : TestFcgiClientInterface → SystemReply → Call →
    TestFcgiClientInterface → Prop) : TestFcgiClientInterface → Prop
  | initial (limits : SystemLimits) : ReachableBy ok { limits := limits }
  | call {s t : TestFcgiClientInterface} {reply : SystemReply} {call : Call}
      (h : ReachableBy ok s) (hs : step s reply call = some t) (hok : ok s reply call t) :
      ReachableBy ok t

abbrev Reachable : TestFcgiClientInterface → Prop := ReachableBy fun _ _ _ _ => True

/-- A sequence of calls, each with the replies of its environment. -/
def run (s : TestFcgiClientInterface) : List (SystemReply × Call) → Option TestFcgiClientInterface
  | [] => some s
  | (reply, call) :: calls => (step s reply call).bind fun t => run t calls

theorem reachable_run {s t : TestFcgiClientInterface} (hs : Reachable s)
    {calls : List (SystemReply × Call)} (h : run s calls = some t) : Reachable t := by
  induction calls generalizing s with
  | nil =>
    cases h
    exact hs
  | cons c calls ih =>
    obtain ⟨u, hu, hrun⟩ := Option.bind_eq_some_iff.mp h
    exact ih (.call hs hu trivial) hrun

/-- The exception that a call throws, if it throws one. -/
def thrown {α : Type} : Except Failure α → Option Failure
  | .ok _ => none
  | .error e => some e

theorem eq_error_of_thrown {α : Type} {r : Except Failure α} {e : Failure}
    (h : thrown r = some e) : r = .error e := by
  cases r with
  | ok a => cases h
  | error e' => rw [Option.some.inj h]

end AsComponents.Client
