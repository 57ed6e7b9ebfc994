import AsComponents.Races

/-! The interface thread is woken up whenever there is work for it. -/

namespace AsComponents.Server

open Protocol NameValue SocketFunctions AsComponents.Partition Std Critical

/-- The interface thread is blocked in the call of `select` in `AcceptRequests`. -/
def Config.Selecting (c : Config) : Prop :=
  c.system.halt = none ∧ c.interface.next = some .select

/-- Between two critical sections, with the interface thread in `select`, the
self-pipe holds a byte if a connection is to be closed or the state is bad. -/
theorem no_lost_wakeup {c : Config} (h : Reachable c) (hs : c.Selecting)
    (hwork : c.system.applicationClosureRequestSet ≠ ∅ ∨
      c.system.badInterfaceStateDetected = true) : 0 < c.system.selfPipe := by
  have hpromised := (sane_of_reachable h).promised hs.1 hs.2 (by simp)
  exact hpromised.2 rfl hwork

/-- The client of `connect` sends a request and wants the connection closed
afterwards; the interface waits for more when the request is destroyed. -/
def destroyedDuringSelect : List Action :=
  [.accept, .interface {}, .interface {},
    .interface { select := .ready [(5, [.drained (populateBeginRequestRecord 1 1 false ++
      populateHeader kFcgiParams 1 0 0 ++ populateHeader kFcgiStdin 1 0 0)])] 0 [] }] ++
    List.replicate 16 (.interface {}) ++
    [.finish, .accept, .interface {}, .interface {}, .request {} 0 (some .destroy)]

theorem no_lost_wakeup_destroyed : ∃ c, Reachable c ∧ c.Selecting ∧
    5 ∈ c.system.applicationClosureRequestSet ∧ 0 < c.system.selfPipe := by
  have hrun : ((run start (connect ++ destroyedDuringSelect)).map fun c =>
      (c.system.halt, c.interface.next, decide (5 ∈ c.system.applicationClosureRequestSet))) =
      some (none, some .select, true) := by decide +kernel
  obtain ⟨c, hc, he⟩ := Option.map_eq_some_iff.mp hrun
  simp only [Prod.mk.injEq, decide_eq_true_eq] at he
  obtain ⟨hhalt, hnext, hmem⟩ := he
  have hreachable := reachable_run (.initial initial_start) hc
  refine ⟨c, hreachable, ⟨hhalt, hnext⟩, hmem, no_lost_wakeup hreachable ⟨hhalt, hnext⟩ (.inl ?_)⟩
  rintro he
  rw [he] at hmem
  simp at hmem

end AsComponents.Server
