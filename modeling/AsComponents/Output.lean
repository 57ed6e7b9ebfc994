import AsComponents.Consistency

/-! What is written to the connections, in every run. -/

namespace AsComponents.Server

open Protocol NameValue SocketFunctions AsComponents.Partition Std Critical

/-- The application writes a byte for the request of `receive` and completes
it. -/
def answer : List Action :=
  [.request {} 0 (some (.write [65])), .request {} 0 none, .request { tape := [.wrote 16] } 0 none,
    .request { tape := [.wrote 32] } 0 (some (.complete 0))]

def answered : Config := ((run start (connect ++ receive ++ answer)).getD start)

theorem reachable_answered : Reachable answered := by
  have hsome : (run start (connect ++ receive ++ answer)).isSome := by decide +kernel
  obtain ⟨d, hd⟩ := Option.isSome_iff_exists.mp hsome
  rw [answered, hd]
  exact reachable_run (.initial initial_start) hd

/-! ## Batches -/

/-- The batches of a sequence which accepted something, one after the other. -/
def wholeBatches (ts : List Transmission) : Bytes :=
  ts.flatMap fun t => if t.accepted = 0 then [] else t.bytes

theorem acceptedBytes_settled {ts : List Transmission} (h : ∀ t ∈ ts, t.Settled) :
    acceptedBytes ts = wholeBatches ts := by
  refine List.flatMap_congr fun t ht => ?_
  rcases h t ht with hzero | hall
  · rw [if_pos hzero, hzero, List.take_zero]
  · split
    · rename_i hzero
      rw [hzero, List.take_zero]
    · rw [hall, List.take_length]

/-- Whole batches, at most followed by a part of a batch after which nothing is
accepted. -/
inductive Torn : List Transmission → Bytes → Prop
  | whole {ts : List Transmission} (settled : ∀ t ∈ ts, t.Settled) : Torn ts (wholeBatches ts)
  | partly {before rest : List Transmission} {t : Transmission} (settled : ∀ t ∈ before, t.Settled)
      (pos : 0 < t.accepted) (lt : t.accepted < t.bytes.length)
      (nothing : ∀ t' ∈ rest, t'.accepted = 0) :
      Torn (before ++ t :: rest) (wholeBatches before ++ t.bytes.take t.accepted)

theorem acceptedBytes_nothing {ts : List Transmission} (h : ∀ t ∈ ts, t.accepted = 0) :
    acceptedBytes ts = [] := by
  refine List.flatMap_eq_nil_iff.mpr fun t ht => ?_
  rw [h t ht, List.take_zero]

theorem Orderly.torn {ts : List Transmission} (h : Orderly ts)
    (hle : ∀ t ∈ ts, t.accepted ≤ t.bytes.length) : Torn ts (acceptedBytes ts) := by
  suffices hsplit : (∀ t ∈ ts, t.Settled) ∨ ∃ before t rest, ts = before ++ t :: rest ∧
      (∀ t ∈ before, t.Settled) ∧ ¬ t.Settled ∧ ∀ t' ∈ rest, t'.accepted = 0 by
    rcases hsplit with hall | ⟨before, t, rest, rfl, hbefore, ht, hrest⟩
    · rw [acceptedBytes_settled hall]
      exact .whole hall
    · simp only [Transmission.Settled, not_or] at ht
      have hlt : t.accepted < t.bytes.length :=
        Nat.lt_of_le_of_ne (hle t (List.mem_append_right _ List.mem_cons_self)) ht.2
      have hsum : acceptedBytes (before ++ t :: rest) =
          wholeBatches before ++ t.bytes.take t.accepted := by
        rw [← acceptedBytes_settled hbefore]
        simp only [acceptedBytes, List.flatMap_append, List.flatMap_cons]
        rw [← acceptedBytes, ← acceptedBytes, acceptedBytes_nothing hrest, List.append_nil]
      rw [hsum]
      exact .partly hbefore (Nat.pos_of_ne_zero ht.1) hlt hrest
  induction ts with
  | nil => exact .inl (by simp)
  | cons t ts ih =>
    obtain ⟨hhead, htail⟩ := List.pairwise_cons.mp h
    by_cases ht : t.Settled
    · rcases ih htail fun t' ht' => hle t' (List.mem_cons_of_mem _ ht') with
        hall | ⟨before, t', rest, rfl, hbefore, ht', hrest⟩
      · refine .inl fun t' ht' => ?_
        rcases List.mem_cons.mp ht' with rfl | ht'
        · exact ht
        · exact hall t' ht'
      · refine .inr ⟨t :: before, t', rest, rfl, fun t'' h'' => ?_, ht', hrest⟩
        rcases List.mem_cons.mp h'' with rfl | h''
        · exact ht
        · exact hbefore t'' h''
    · exact .inr ⟨[], t, ts, rfl, by simp, ht, fun t' ht' => (hhead t' ht').resolve_left ht⟩

/-- What a connection accepted: whole batches, each a sequence of complete
records, at most followed by a part of a batch after which nothing is
accepted. -/
theorem sent_batches {c : Config} (h : Reachable c) (k : Nat) :
    Torn (c.system.transmissions k) (c.system.sockets k).sent ∧
      ∀ t ∈ c.system.transmissions k, ∃ records : List Record, records ≠ [] ∧
        encodeRecords records = t.bytes := by
  have hwires := (invariant_of_reachable h).wires
  refine ⟨?_, hwires.records k⟩
  rw [hwires.sent k]
  exact (hwires.orderly k).torn (hwires.accepted_le k)

theorem sent_batches_answered :
    (answered.system.sockets 0).sent.length = 48 ∧
      Torn (answered.system.transmissions 0) (answered.system.sockets 0).sent :=
  ⟨by decide +kernel, (sent_batches reachable_answered 0).1⟩

/-! ## The records of one request -/

/-- The interface and the connections are as they were. -/
def OnlyObjects (s t : System) : Prop :=
  t = { s with requests := t.requests, nextRequest := t.nextRequest }

theorem after_completed {s : System} {i : Nat} (hi : Invariant s)
    (hc : (s.requests i).completed = true) (reply : SystemReply) (call : Option ApiCall) :
    After (requestStep reply i call) s (fun _ t => OnlyObjects s t) (fun _ t => OnlyObjects s t) := by
  have hidle := hi.objects.idle i (.inl hc)
  unfold requestStep
  rw [after_bind, after_await]
  rintro ⟨-, hheld⟩
  cases call with
  | none => simp only [continueCall, after_bind, after_get, hidle, after_wait]
  | some call =>
    simp only [after_bind, after_await]
    intro _
    cases call with
    | write bytes =>
      simp only [startCall, startWrite, after_bind, after_get]
      rw [if_pos (.inl hc), after_pure]
      rfl
    | writeError bytes =>
      simp only [startCall, startWrite, after_bind, after_get]
      rw [if_pos (.inl hc), after_pure]
      rfl
    | complete appStatus =>
      simp only [startCall, endRequestHelper, after_discard, after_bind, after_get]
      rw [if_pos (.inl hc), after_pure]
      rfl
    | rejectRole appStatus =>
      simp only [startCall, endRequestHelper, after_discard, after_bind, after_get]
      rw [if_pos (.inl hc), after_pure]
      rfl
    | abortStatus =>
      simp only [startCall, abortStatus, after_discard, after_bind, after_get]
      rw [if_pos (.inl hc), after_pure]
      rfl
    | destroy =>
      have hlive : ¬ ((s.requests i).completed = false ∧
          (s.requests i).associatedInterfaceId ≠ 0) := by simp [hc]
      simp only [startCall, destroyRequest, after_bind, after_get]
      rw [if_neg hlive, after_modify]
      rfl
    | moveConstruct => rfl
    | moveAssign source =>
      simp only [startCall, moveAssign, after_bind, after_await, after_get]
      intro _
      rw [after_ite, after_pure, if_pos (.inl hc), after_set]
      exact ⟨fun _ => rfl, fun _ => rfl⟩

/-- What was written for a request: batches of its output streams, at most
followed by one batch that has an `FCGI_END_REQUEST` record. -/
def EndedOnce (f : UInt16) (trace : List Transmission) : Prop :=
  ∃ streams ends, trace = streams ++ ends ∧ (∀ t ∈ streams, StreamBatch f t.bytes) ∧
    ends.length ≤ 1 ∧ ∀ t ∈ ends, ∃ appStatus protocolStatus,
      t.bytes = conclusion f appStatus protocolStatus ∨ t.bytes = loneEnd f appStatus protocolStatus

theorem Invariant.endedOnce {s : System} (h : Invariant s) {n k : Nat} {f : UInt16}
    (hb : .begun n k f true ∈ s.log) : EndedOnce f (s.trace k n) := by
  by_cases he : .endedByInterface n ∈ s.log
  · rcases h.traces.ended n k f (.inl he) ⟨true, hb⟩ with hnil | ⟨a, p, x, hone⟩
    · exact ⟨[], [], hnil, by simp, Nat.zero_le 1, by simp⟩
    · refine ⟨[], _, hone, by simp, Nat.le_refl 1, fun t ht => ?_⟩
      obtain rfl := List.mem_singleton.mp ht
      exact ⟨a, p, .inr rfl⟩
  · rcases h.traces.shape n k f hb he with hstreams | ⟨-, streams, a, p, x, htrace, hstreams⟩
    · exact ⟨_, [], (List.append_nil _).symm, hstreams, Nat.zero_le 1, by simp⟩
    · refine ⟨streams, _, htrace, hstreams, Nat.le_refl 1, fun t ht => ?_⟩
      obtain rfl := List.mem_singleton.mp ht
      exact ⟨a, p, .inl rfl⟩

/-- Nothing is written for a request on another connection. -/
theorem Invariant.trace_other {s : System} (h : Invariant s) {n k k' : Nat} {f : UInt16}
    (hb : s.Begun n k f) (hk : k' ≠ k) : s.trace k' n = [] := by
  refine Traces.trace_eq_nil fun hn => ?_
  obtain ⟨f', hb'⟩ := h.traces.origin k' n hn
  exact hk (h.begins.begun_inj hb' hb).1

/-- For an accepted request at most one object is constructed, at most one end
record is written, and no object is constructed when the interface ends it; a
completed object does nothing any more. -/
theorem requests_served_once {c : Config} (h : Reachable c) :
    (∀ n k f, .begun n k f true ∈ c.system.log →
      c.system.log.count (.constructed n) ≤ 1 ∧ .alreadyAssigned n ∉ c.system.log ∧
      EndedOnce f (c.system.trace k n) ∧ (∀ k', k' ≠ k → c.system.trace k' n = []) ∧
      (c.system.EndedByInterface n → .constructed n ∉ c.system.log)) ∧
    ∀ i reply call d, (c.system.requests i).completed = true →
      step c (.request reply i call) = some d → OnlyObjects c.system d.system := by
  have hi := invariant_of_reachable h
  refine ⟨fun n k f hb => ?_, fun i reply call d hc hs => ?_⟩
  · exact ⟨hi.begins.constructed_once n, hi.begins.unassigned n, hi.endedOnce hb,
      fun k' hk => hi.trace_other ⟨true, hb⟩ hk, fun he => (hi.begins.gone n he).2⟩
  · obtain ⟨-, hstep⟩ := step_cases hs
    cases hstep with
    | @request _ _ _ _ _ _ r hr =>
      have hafter := after_completed hi hc reply call
      cases r with
      | ok a => exact hafter.of_ok hr
      | error e => exact hafter.of_error hr

theorem requests_served_once_answered :
    answered.system.log.count (.constructed 0) = 1 ∧ EndedOnce 1 (answered.system.trace 0 0) ∧
      (answered.system.requests 0).completed = true ∧
      ∀ reply call d, step answered (.request reply 0 call) = some d →
        OnlyObjects answered.system d.system := by
  obtain ⟨hserved, hcompleted⟩ := requests_served_once reachable_answered
  have hdone : (answered.system.requests 0).completed = true := by decide +kernel
  exact ⟨by decide +kernel, (hserved 0 0 1 (by decide +kernel)).2.2.1, hdone,
    fun reply call d => hcompleted 0 reply call d hdone⟩

/-! ## The order of requests with one id -/

/-- The records of a request that was completed. -/
theorem Completed.records {n : Nat} {f : UInt16} {a : Int32} {p : UInt8}
    {trace : List Transmission} (h : Completed n f a p trace) :
    ∃ records : List Record, (∀ r ∈ records, (r.type = kFcgiStdout ∨ r.type = kFcgiStderr) ∧
      r.fcgiId = f ∧ r.content ≠ []) ∧
      acceptedBytes trace = encodeRecords (records ++ conclusionRecords f a p) := by
  obtain ⟨streams, hstreams, rfl⟩ := h
  have hrecords : ∃ records : List Record, (∀ r ∈ records,
      (r.type = kFcgiStdout ∨ r.type = kFcgiStderr) ∧ r.fcgiId = f ∧ r.content ≠ []) ∧
      acceptedBytes streams = encodeRecords records := by
    induction streams with
    | nil => exact ⟨[], by simp, rfl⟩
    | cons t streams ih =>
      obtain ⟨records, hall, he⟩ := ih fun t' ht' => hstreams t' (List.mem_cons_of_mem _ ht')
      obtain ⟨⟨first, -, hbytes, hfirst⟩, haccepted⟩ := hstreams t List.mem_cons_self
      refine ⟨first ++ records, fun r hr => ?_, ?_⟩
      · rcases List.mem_append.mp hr with hr | hr
        · exact ⟨(hfirst r hr).1, (hfirst r hr).2.1, (hfirst r hr).2.2.1⟩
        · exact hall r hr
      · rw [encodeRecords_append, ← he, hbytes]
        show t.bytes.take t.accepted ++ acceptedBytes streams = _
        rw [haccepted, List.take_length]
  obtain ⟨records, hall, he⟩ := hrecords
  refine ⟨records, hall, ?_⟩
  rw [acceptedBytes_append, he, List.take_length, encodeRecords_append]
  rfl

/-- Nothing is written for an earlier request of an id after something was
written for a later one; a completed request has its terminal records and its
end record last, and one that the interface ended has at most its end record.
The later of two begin records has the larger node. -/
theorem requests_in_order {c : Config} (h : Reachable c) :
    c.system.log.Pairwise BegunAfter ∧
    (∀ k n n' f, c.system.Begun n k f → c.system.Begun n' k f → n < n' →
      (c.system.transmissions k).Pairwise fun t t' =>
        ¬ (t.origin = some n' ∧ t'.origin = some n)) ∧
    (∀ n a p, .completed n a p ∈ c.system.log → ∃ k f, .begun n k f true ∈ c.system.log ∧
      ∃ records : List Record, (∀ r ∈ records, (r.type = kFcgiStdout ∨ r.type = kFcgiStderr) ∧
        r.fcgiId = f ∧ r.content ≠ []) ∧
        acceptedBytes (c.system.trace k n) = encodeRecords (records ++
          [⟨kFcgiStdout, f, [], []⟩, ⟨kFcgiStderr, f, [], []⟩,
            ⟨kFcgiEndRequest, f, endRequestBody a p, []⟩])) ∧
    ∀ n k f, c.system.EndedByInterface n → c.system.Begun n k f →
      c.system.trace k n = [] ∨ ∃ a p accepted, c.system.trace k n =
        [⟨some n, Record.encode ⟨kFcgiEndRequest, f, endRequestBody a p, []⟩, accepted⟩] := by
  have hi := invariant_of_reachable h
  refine ⟨hi.begins.sorted, fun k n n' f hb hb' hlt => ?_, fun n a p hc => ?_, fun n k f he hb => ?_⟩
  · refine (List.pairwise_filterMap.mp (hi.traces.order k)).imp ?_
    rintro t t' hle ⟨ht, ht'⟩
    have := hle n' ht n ht' f hb' hb
    omega
  · obtain ⟨-, k, f, hb, hcompleted⟩ := hi.traces.completed n a p hc
    exact ⟨k, f, hb, hcompleted.records⟩
  · exact hi.traces.ended n k f he hb

theorem requests_in_order_answered :
    Event.completed 0 0 0 ∈ answered.system.log ∧
      ∃ k f, Event.begun 0 k f true ∈ answered.system.log ∧ ∃ records : List Record,
        (∀ r ∈ records, (r.type = kFcgiStdout ∨ r.type = kFcgiStderr) ∧ r.fcgiId = f ∧
          r.content ≠ []) ∧
        acceptedBytes (answered.system.trace k 0) = encodeRecords (records ++
          [⟨kFcgiStdout, f, [], []⟩, ⟨kFcgiStderr, f, [], []⟩,
            ⟨kFcgiEndRequest, f, endRequestBody 0 0, []⟩]) := by
  have hcompleted : Event.completed 0 0 0 ∈ answered.system.log := by decide +kernel
  exact ⟨hcompleted, (requests_in_order reachable_answered).2.2.1 0 0 0 hcompleted⟩

end AsComponents.Server
