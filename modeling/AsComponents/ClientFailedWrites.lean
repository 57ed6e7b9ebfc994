import AsComponents.ClientFailures
import AsComponents.ClientRecords

/-! `FailedWrite` from the functions that call it: what it takes back, and when
the closure that it tells is read from an element which is still there. -/

namespace AsComponents.Client

open Protocol NameValue SocketFunctions AsComponents.Partition Std Critical TestFcgiClientInterface

/-- A send on connection `c` which was called in `s` has come to a call of
`FailedWrite`; the flag is `pop_management_queue`. -/
inductive CallsFailedWrite (reply : SystemReply) (c : Nat) (s : TestFcgiClientInterface) :
    Bool → TestFcgiClientInterface → Prop
  | abort {batch : Batch} {id : UInt16} {r : Nat × Errno} {u : TestFcgiClientInterface}
      (hc : s.isConnected c = true)
      (h : writeOnSelect batch c (populateHeader kFcgiAbortRequest id 0 0) s = some (.ok r, u)) :
      CallsFailedWrite reply c s false u
  | management {q : ManagementRequestData} {batch : Batch} {iovec : List Bytes} {n : Nat}
      {r : Nat × Errno} {v u : TestFcgiClientInterface} (hc : s.isConnected c = true)
      (hq : pushManagementRequest reply c q s = some (.ok ⟨⟩, v))
      (h : scatterGatherSocketWrite batch c iovec n v = some (.ok r, u)) :
      CallsFailedWrite reply c s true u
  | application {newId : UInt16} {v u : TestFcgiClientInterface} (hv : Acquired c newId s v)
      (h : Sends c v u) : CallsFailedWrite reply c s false u
  | released {newId : UInt16} {v w u : TestFcgiClientInterface} (hv : Acquired c newId s v)
      (hw : Sends c v w) (h : Released c [⟨c, newId⟩] w u) : CallsFailedWrite reply c s false u

/-- The state at the call without the management request that was pushed. -/
def withoutPushed (pop : Bool) (s u : TestFcgiClientInterface) : TestFcgiClientInterface :=
  if pop then { s with sockets := u.sockets } else u

section

variable {reply : SystemReply} {c : Nat} {s t u v : TestFcgiClientInterface} {pop : Bool}
  {errno : Errno} {nothingWritten : Bool} {what : String}

namespace CallsFailedWrite

theorem isConnected (h : CallsFailedWrite reply c s pop u) :
    (withoutPushed pop s u).isConnected c = true := by
  cases h with
  | abort hc hsend =>
    have hst := (after_writeOnSelect (E := fun _ _ => True).of_ok hsend).1
    exact hst.isConnected c ▸ hc
  | management hc => exact hc
  | application hv hst => exact hst.isConnected c ▸ hv.retaken.isConnected c ▸ hv.wasConnected
  | released hv hst h =>
    have hw := hst.isConnected c ▸ hv.retaken.isConnected c ▸ hv.wasConnected
    obtain ⟨e, he, -⟩ := isConnected_eq_true_iff.mp hw
    exact (h.isConnected he).trans hw

theorem completedOf (h : CallsFailedWrite reply c s pop u) :
    (withoutPushed pop s u).completedOf c = s.completedOf c := by
  cases h with
  | abort hc hsend =>
    have hst := (after_writeOnSelect (E := fun _ _ => True).of_ok hsend).1
    exact completedOf_congr hst.completedRequestSet
  | management => exact completedOf_congr rfl
  | application hv hst => exact (completedOf_congr hst.completedRequestSet).trans hv.completedOf
  | @released _ v _ _ hv hst h =>
    have hkept : u.completedRequestSet = v.completedRequestSet := by
      rw [h.frame, hst.completedRequestSet]
    exact (completedOf_congr hkept).trans hv.completedOf

end CallsFailedWrite

end

/-! ### An erased element -/

end AsComponents.Client
