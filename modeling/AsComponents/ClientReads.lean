import AsComponents.ClientStreams

/-! The reads of `ExamineSelectReturn`, in every state in which it reads. -/

namespace AsComponents.Client

open Protocol NameValue SocketFunctions AsComponents.Partition Std Critical TestFcgiClientInterface

/-! ## Reads -/

/-- The bytes of a read; `first` is set for the first read of a call of
`ExamineSelectReturn`, before which there is no iterator. -/
structure Read where
  first : Bool
  bytes : Bytes

/-- The reads of one connection, each received by `receive`. -/
def receiveReads
    (receive : Option FcgiRequestIdentifier → Bytes → Operation (Option FcgiRequestIdentifier)) :
    Option FcgiRequestIdentifier → List Read → Operation (Option FcgiRequestIdentifier)
  | it, [] => return it
  | it, r :: reads => do
      receiveReads receive (← receive (if r.first then none else it) r.bytes) reads

/-- `receive` with a test of the iterators that `ProcessCompleteRecord` is
given. -/
def receiveTested (reply : SystemReply) (connection : Nat) (it : Option FcgiRequestIdentifier)
    (data : Bytes) : Operation (Option FcgiRequestIdentifier) :=
  noexceptBlock (bufferSections processWithRequest reply connection data.length it data)

/-- What `ExamineSelectReturn` does after the last read. -/
def endReads (reply : SystemReply) (connection : Nat) (e : Errno) : Operation Unit :=
  if e = .zero ∨ e = .econnreset ∨ e = .eagain then finishReading reply connection e
  else throw (.systemError e "read")

/-- The states in which `ExamineSelectReturn` may start to read a connection. -/
inductive Receivable : TestFcgiClientInterface → Prop
  | reachable {s : TestFcgiClientInterface} (h : Reachable s) : Receivable s
  | selected {s t : TestFcgiClientInterface} {result : SelectReturn} (h : Receivable s)
      (ht : selectConnections result s = some (.ok ⟨⟩, t)) : Receivable t
  | examined {s : TestFcgiClientInterface} (c : Nat) (h : Receivable s) :
      Receivable { s with nextConnection := s.after c }
  | round {s t : TestFcgiClientInterface} {reply : SystemReply} {round : Round} (h : Receivable s)
      (ht : retrieveRound reply round s = some (.ok ⟨⟩, t)) : Receivable t

section

variable {s t : TestFcgiClientInterface} {c : Nat} {reply : SystemReply}
  {it : Option FcgiRequestIdentifier} {data : Bytes}
  {process : Nat → Option FcgiRequestIdentifier → Operation (Option FcgiRequestIdentifier)}

theorem agrees_noexceptBlock {α β : Type} {x : Operation α} {y : Operation β}
    {R : α → β → TestFcgiClientInterface → Prop} {Q : β → TestFcgiClientInterface → Prop}
    (h : Agrees x s y t R) (hy : Ends y t Q (Trapped reply)) : Agrees (noexceptBlock x) s y t R := by
  rcases h with ⟨hx, hyt⟩ | ⟨a, b, u, hx, hyt, hR⟩ | ⟨e, u, hx, hyt⟩
  · refine .inl ⟨?_, hyt⟩
    simp only [noexceptBlock, tryCatch, tryCatchThe, MonadExceptOf.tryCatch, hx]
  · refine .of_ok (a := a) ?_ hyt hR
    simp only [noexceptBlock, tryCatch, tryCatchThe, MonadExceptOf.tryCatch, hx]
  · refine .of_error (e := e) ?_ hyt
    rcases hy with ⟨_, _, hok, -⟩ | ⟨_, _, herror, rfl, -⟩
    · cases hyt.symm.trans hok
    · cases hyt.symm.trans herror
      simp only [noexceptBlock, tryCatch, tryCatchThe, MonadExceptOf.tryCatch, hx]
      rfl

/-- One read is received as by the reference. -/
theorem agrees_receiveSections (reply : SystemReply) (data : Bytes) (h : Ready c s)
    (hp : ProcessesAlike process)
    (hit : ValidIterator s it) :
    Agrees (noexceptBlock (bufferSections process reply c data.length it data)) s
      (takeRecords reply c data) s fun it' _ t => ValidIterator t it' ∧ Ready c t :=
  agrees_noexceptBlock (agrees_bufferSections h hp hit le_rfl) (ends_takeRecords reply _ h)

theorem agrees_receive (reply : SystemReply) (data : Bytes) (h : Ready c s) (hit : ValidIterator s it) :
    Agrees (receive reply c it data) s (takeRecords reply c data) s
      fun it' _ t => ValidIterator t it' ∧ Ready c t := by
  have hsections := agrees_receiveSections reply data h
    processesAlike_processCompleteRecord hit
  rwa [bufferSections_processCompleteRecord] at hsections

/-- The reads together are received as one stream. -/
theorem agrees_receiveReads
    {receive : Option FcgiRequestIdentifier → Bytes → Operation (Option FcgiRequestIdentifier)}
    (hreceive : ∀ {s : TestFcgiClientInterface} {it : Option FcgiRequestIdentifier} {data : Bytes},
      Ready c s → ValidIterator s it → Agrees (receive it data) s (takeRecords reply c data) s
        fun it' _ t => ValidIterator t it' ∧ Ready c t)
    (h : Ready c s) (hit : ValidIterator s it) (reads : List Read) :
    Agrees (receiveReads receive it reads) s (takeRecords reply c (reads.flatMap (·.bytes))) s
      fun it' _ t => ValidIterator t it' ∧ Ready c t := by
  induction reads generalizing s it with
  | nil => exact .of_ok rfl takeRecords_nil ⟨hit, h⟩
  | cons r reads ih =>
    rw [Agrees, List.flatMap_cons, takeRecords_append h]
    refine Agrees.bind (hreceive h ?_)
      fun it' _ t ht => ih ht.2 ht.1
    split
    · exact validIterator_none s
    · exact hit

/-- The reads of one call of `ExamineSelectReturn`. -/
theorem readLoop_eq (h : Ready c s) (hit : ValidIterator s it) (full : List Bytes) (last : Bytes)
    (e : Errno) (hfull : ∀ bytes ∈ full, bytes.length = readBufferSize)
    (hlast : last.length < readBufferSize) :
    readLoop reply c it (full.map .filled ++ [.short last e]) s =
      (takeRecords reply c (full.flatten ++ last) >>= fun _ => endReads reply c e) s := by
  induction full generalizing s it with
  | nil =>
    rw [List.map_nil, List.nil_append, List.flatten_nil, List.nil_append, readLoop]
    refine (congrFun (if_neg (Nat.not_le.mpr hlast)) s).trans ?_
    have hagrees := agrees_receive reply last h hit
    show (discard (receive reply c it last) >>= fun _ => endReads reply c e) s = _
    rw [bind_eq hagrees.discard_eq, discard_unit]
  | cons bytes full ih =>
    obtain ⟨hbytes, hfull⟩ := List.forall_mem_cons.mp hfull
    rw [List.map_cons, List.cons_append, List.flatten_cons, List.append_assoc, readLoop,
      bind_eq (takeRecords_append h bytes (full.flatten ++ last)), Critical.bind_assoc]
    refine (congrFun (if_neg (not_not.mpr hbytes)) s).trans ?_
    beta_reduce
    rcases agrees_receive reply bytes h hit with
      ⟨hx, hy⟩ | ⟨it', _, t, hx, hy, hvalid, ht⟩ | ⟨f, t, hx, hy⟩
    · rcases ends_takeRecords reply bytes h with ⟨_, _, hok, -⟩ | ⟨_, _, herr, -⟩
      · cases hy.symm.trans hok
      · cases hy.symm.trans herr
    · rw [ok_bind hx, ok_bind hy]
      exact ih ht hvalid hfull
    · rw [error_bind hx, error_bind hy]

/-! ## The states in which reads start -/

theorem Invariant.ready (h : Invariant s) (hframed : Framed s) (hc : s.isConnected c = true) :
    Ready c s where
  framed := hframed
  connected := hc
  disjoint := h.disjoint
  identified i hi hnull := by
    obtain ⟨e, he, -⟩ := isConnected_eq_true_iff.mp (h.pending_connected i hi)
    have hused : e.isUsed i.fcgiId = true := h.used _ e he i.fcgiId (.inr hi)
    have hbounds := (IdManager.isUsed_bounds hused).1
    rw [hnull] at hbounds
    exact absurd hbounds (by decide)

theorem Framed.congr (h : Framed s) (hc : t.connectionMap = s.connectionMap)
    (hp : t.pendingRequestMap = s.pendingRequestMap) : Framed t :=
  h.carries (.of_entries (fun _ => by rw [hc]) fun _ hi => hp ▸ hi)

theorem retrieving_framed : Retrieving (fun s => Invariant s ∧ Framed s)
    fun s c it => s.isConnected c = true ∧ ValidIterator s it where
  start _ hc := ⟨hc, validIterator_none _⟩
  receive reply s c it data hs hit := by
    have hready := hs.1.ready hs.2 hit.1
    have hframed : After (receive reply c it data) s
        (fun it' t => Framed t ∧ t.isConnected c = true ∧ ValidIterator t it')
        (Thrown fun _ _ => False) := by
      rcases agrees_receive reply data hready hit.2 with
        ⟨hx, -⟩ | ⟨it', _, t, hx, -, hvalid, ht⟩ | ⟨f, t, hx, hy⟩
      · simp only [After, hx]
      · simp only [After, hx]
        exact ⟨ht.framed, ht.connected, hvalid⟩
      · rcases ends_takeRecords reply data hready with
          ⟨_, _, hok, -⟩ | ⟨_, _, herror, rfl, -⟩
        · cases hy.symm.trans hok
        · cases hy.symm.trans herror
          simp [After, hx, Thrown]
    exact ((yields_receive reply c it data s).and hframed).mono
      (fun it' t ht => ⟨⟨hs.1.still ht.1.still, ht.2.1⟩, ht.2.2⟩) fun f t hE hne => (hE.2 hne).elim
  retracked hs ht := ⟨tabular_invariant.retracked hs.1 ht,
    hs.2.congr (by rw [ht]) (by rw [ht])⟩
  closed hs hst := ⟨hs.1.closed hst, hs.2.carries hst.carries⟩
  events queue hs := ⟨hs.1.still (.of_eq rfl rfl rfl rfl rfl rfl rfl), hs.2.congr rfl rfl⟩

theorem framed_of_reachable (h : Reachable s) : Framed s := by
  induction h with
  | initial limits => exact fun c e he => by simp at he
  | @call s t reply call hreachable hs _ ih =>
    have hinv := invariant_of_reachable hreachable
    by_cases hcall : call.ReadsNothing
    · exact ih.carries (carries_of_step hinv hs hcall)
    · cases call with
      | retrieveServerEvent =>
        refine (of_step (P := fun t => Invariant t ∧ Framed t) ?_ hs).2
        rw [perform, after_map]
        exact retrieving_framed.retrieveServerEvent s ⟨hinv, ih⟩
      | _ => exact absurd trivial hcall

theorem Receivable.framed (h : Receivable s) : Invariant s ∧ Framed s := by
  induction h with
  | reachable h => exact ⟨invariant_of_reachable h, framed_of_reachable h⟩
  | selected _ ht ih => exact (retrieving_framed.selectConnections _ _ ih).of_ok ht
  | examined c _ ih => exact retrieving_framed.retracked ih rfl
  | round _ ht ih => exact (retrieving_framed.retrieveRound _ _ ih).of_ok ht

theorem Receivable.ready (h : Receivable s) (hc : s.isConnected c = true) : Ready c s := by
  obtain ⟨hinv, hframed⟩ := h.framed
  exact hinv.ready hframed hc

/-- The code and the reference, for any reads. -/
theorem agrees_reads (h : Receivable s) (hc : s.isConnected c = true) (reply : SystemReply)
    (reads : List Read) : Agrees (receiveReads (receive reply c) none reads) s
      (takeRecords reply c (reads.flatMap (·.bytes))) s
        fun it' _ t => ValidIterator t it' ∧ Ready c t :=
  agrees_receiveReads (fun hready hit => agrees_receive _ _ hready hit) (h.ready hc)
    (validIterator_none s) reads

theorem discard_receiveReads (h : Receivable s) (hc : s.isConnected c = true) (reply : SystemReply)
    (reads : List Read) : discard (receiveReads (receive reply c) none reads) s =
      takeRecords reply c (reads.flatMap (·.bytes)) s := by
  rw [(agrees_reads h hc reply reads).discard_eq, discard_unit]

/-- Whatever was received before and however the bytes of a server are cut into
reads, they are received as records.  `ProcessCompleteRecord` is given the
request it needs, and nothing is thrown but where an access through the
past-the-end iterator stops the process. -/
theorem received_as_records (h : Receivable s) (hc : s.isConnected c = true) (reply : SystemReply) :
    (∀ reads : List Read, discard (receiveReads (receive reply c) none reads) s =
      takeRecords reply c (reads.flatMap (·.bytes)) s) ∧
    (∀ (full : List Bytes) (last : Bytes) (e : Errno),
      (∀ bytes ∈ full, bytes.length = readBufferSize) → last.length < readBufferSize →
      readLoop reply c none (full.map .filled ++ [.short last e]) s =
        (takeRecords reply c (full.flatten ++ last) >>= fun _ => endReads reply c e) s) ∧
    (∀ reads : List Read, discard (receiveReads (receiveTested reply c) none reads) s =
      discard (receiveReads (receive reply c) none reads) s) ∧
    ∀ reads : List Read, Ends (receiveReads (receive reply c) none reads) s (fun _ _ => True)
      (Trapped reply) := by
  have hready := h.ready hc
  have hnone := validIterator_none s
  have hcode := agrees_reads h hc reply
  have htested : ∀ reads, Agrees (receiveReads (receiveTested reply c) none reads) s
      (takeRecords reply c (reads.flatMap (·.bytes))) s
        fun it' _ t => ValidIterator t it' ∧ Ready c t := fun reads =>
    agrees_receiveReads (fun hready hit =>
      agrees_receiveSections _ _ hready processesAlike_processWithRequest hit) hready hnone reads
  refine ⟨discard_receiveReads h hc reply, fun full last e => readLoop_eq hready hnone full last e,
    fun reads => ?_, fun reads => ?_⟩
  · rw [(htested reads).discard_eq, (hcode reads).discard_eq]
  · rcases hcode reads with ⟨-, hy⟩ | ⟨_, _, _, hx, -⟩ | ⟨f, t, hx, hy⟩
    · rcases ends_takeRecords reply _ hready with ⟨_, _, hok, -⟩ | ⟨_, _, herror, -⟩
      · cases hy.symm.trans hok
      · cases hy.symm.trans herror
    · exact .of_ok hx trivial
    · rcases ends_takeRecords reply _ hready with ⟨_, _, hok, -⟩ | ⟨_, _, herror, htrap⟩
      · cases hy.symm.trans hok
      · cases hy.symm.trans herror
        exact .inr ⟨f, t, hx, htrap⟩

end

/-- The answer to request 1 of connection 5. -/
def answer : Bytes :=
  [1, 6, 0, 1, 0, 2, 1, 0, 72, 105, 0] ++ [1, 6, 0, 1, 0, 0, 0, 0] ++
    [1, 3, 0, 1, 0, 8, 0, 0, 0, 0, 0, 0, 0, 0, 0, 0]

/-- A read ends within a header, and the next one within the content. -/
def answerReads : List Read :=
  [⟨true, answer.take 3⟩, ⟨false, (answer.drop 3).take 6⟩, ⟨true, answer.drop 9⟩]

theorem received_as_records_answer : ∃ s t, Reachable s ∧
    discard (receiveReads (receive {} 5) none answerReads) s = some (.ok ⟨⟩, t) ∧
    t.microEventQueue.length = 1 ∧ takeRecords {} 5 answer s = some (.ok ⟨⟩, t) := by
  have hrun : ((run {} [(connectReply, .connect), (requestReply, .sendRequest 5 bareRequest)]).map
      fun s => (s.isConnected 5,
        (discard (receiveReads (receive {} 5) none answerReads) s).map fun r =>
          (r.1.toOption.isSome, r.2.microEventQueue.length))) = some (true, some (true, 1)) := by
    decide +kernel
  obtain ⟨s, hs, hfacts⟩ := Option.map_eq_some_iff.mp hrun
  simp only [Prod.mk.injEq, Option.map_eq_some_iff] at hfacts
  obtain ⟨hconnected, ⟨r, t⟩, hr, hreturned, hevents⟩ := hfacts
  have hreachable := reachable_run (.initial {}) hs
  have hrecords := (received_as_records (.reachable hreachable) hconnected {}).1 answerReads
  have hflat : answerReads.flatMap (·.bytes) = answer := by decide
  rw [hflat] at hrecords
  cases r with
  | ok u => exact ⟨s, t, hreachable, hr, hevents, hrecords ▸ hr⟩
  | error e => cases hreturned

end AsComponents.Client
