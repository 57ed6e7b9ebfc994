import AsComponents.ClientRefinement

/-! Byte streams of a server, in any partition into read buffers. -/

namespace AsComponents.Client

open Protocol NameValue SocketFunctions AsComponents.Partition Std Critical TestFcgiClientInterface

section

variable {s t : TestFcgiClientInterface} {c : Nat} {e : ConnectionState} {reply : SystemReply}
  {it : Option FcgiRequestIdentifier} {data : Bytes}
  {process : Nat → Option FcgiRequestIdentifier → Operation (Option FcgiRequestIdentifier)}

/-! ## One buffer -/

theorem takeRecords_nil : takeRecords reply c [] s = some (.ok ⟨⟩, s) := by
  rw [takeRecords]
  rfl

theorem takeRecords_eq (h : Ready c s) (hdata : data ≠ []) :
    takeRecords reply c data s = (takeRecord reply c data >>= takeRecords reply c) s := by
  rw [takeRecords]
  refine (congrFun (if_neg hdata) s).trans (bind_congr fun rest t hrest => ?_)
  rcases (round_agrees reply h hdata).1 with ⟨a, u, hx, -, hlt⟩ | ⟨e, u, hx, -⟩
  · cases hrest.symm.trans hx
    rw [dif_pos hlt]
  · cases hrest.symm.trans hx

/-- The reference never stops but at an access through the past-the-end
iterator. -/
theorem ends_takeRecords (reply : SystemReply) (data : Bytes) (h : Ready c s) :
    Ends (takeRecords reply c data) s (fun _ t => Ready c t) (Trapped reply) := by
  induction hn : data.length using Nat.strong_induction_on generalizing data s with
  | _ n ih =>
    subst hn
    by_cases hdata : data = []
    · rw [hdata]
      exact .of_ok takeRecords_nil h
    · rw [Ends, takeRecords_eq h hdata]
      exact (round_agrees _ h hdata).1.bind fun rest t ht => ih _ ht.2 rest ht.1 rfl

/-- The loop over a buffer agrees with the reference. -/
theorem agrees_bufferSections (h : Ready c s) (hp : ProcessesAlike process)
    (hit : ValidIterator s it) {fuel : Nat} (hfuel : data.length ≤ fuel) :
    Agrees (bufferSections process reply c fuel it data) s (takeRecords reply c data) s
      fun it' _ t => ValidIterator t it' ∧ Ready c t := by
  induction fuel generalizing data s it with
  | zero =>
    obtain rfl := List.length_eq_zero_iff.mp (Nat.le_zero.mp hfuel)
    exact .of_ok rfl takeRecords_nil ⟨hit, h⟩
  | succ fuel ih =>
    cases data with
    | nil => exact .of_ok rfl takeRecords_nil ⟨hit, h⟩
    | cons b bs =>
      have hdata : b :: bs ≠ [] := List.cons_ne_nil b bs
      obtain ⟨hends, hround⟩ := round_agrees reply h hdata
      rw [Agrees, takeRecords_eq h hdata]
      refine ((hround process it hp hit).and_ends hends).bind fun r rest t hr => ?_
      obtain ⟨⟨rfl, hit'⟩, ht, hlt⟩ := hr
      exact ih ht hit' (by rw [List.length_cons] at hlt hfuel; omega)

/-! ## Partitions -/

theorem addContent_append (r : RecordState) (x y : Bytes) :
    (r.addContent x).addContent y = r.addContent (x ++ y) := by
  have hstream : (r.addContent x).isStream = r.isStream := rfl
  rw [RecordState.addContent, hstream]
  cases hs : r.isStream <;> simp [RecordState.addContent, hs, Nat.add_assoc]

theorem addPadding_append (r : RecordState) (x y : Bytes) :
    (r.addPadding x).addPadding y = r.addPadding (x ++ y) := by
  simp [RecordState.addPadding, Nat.add_assoc]

theorem append_append (d : RequestData) (type : FcgiType) (x y : Bytes) :
    (d.append type x).append type y = d.append type (x ++ y) := by
  unfold RequestData.append
  split <;> simp

theorem setPending_setPending (s : TestFcgiClientInterface) (id : FcgiRequestIdentifier)
    (d d' : RequestData) : (s.setPending id d).setPending id d' = s.setPending id d' := by
  have hmap : (s.pendingRequestMap.insert id d).insert id d' = s.pendingRequestMap.insert id d' := by
    refine ExtTreeMap.ext_getElem? fun i => ?_
    simp only [ExtTreeMap.getElem?_insert]
    split <;> rfl
  rw [setPending, setPending, setPending, hmap]

theorem withStream_withStream (s : TestFcgiClientInterface) (c : Nat) (e : ConnectionState)
    (d : RequestData) (x y : Bytes) :
    (s.withStream c e d x).withStream c { e with recordState := e.recordState.addContent x }
      (d.append e.recordState.type x) y = s.withStream c e d (x ++ y) := by
  show (((s.setPending ⟨c, e.recordState.fcgiId⟩ (d.append e.recordState.type x)).setPending
    ⟨c, e.recordState.fcgiId⟩ ((d.append e.recordState.type x).append e.recordState.type y)).setConnection
    c { e with recordState := e.recordState.addContent x }).setConnection c
      { e with recordState := (e.recordState.addContent x).addContent y } = _
  rw [setConnection_setConnection, setPending_setPending, append_append, addContent_append]
  rfl

theorem takeContent_append (h : Receiving c s e)
    (ha : Announced s c e.managementQueue e.recordState) (x y : Bytes) :
    takeContent c (x ++ y) s = (takeContent c x >>= fun _ => takeContent c y) s := by
  by_cases hs : e.recordState.isStream = true
  · have hid := ha.pending (needsRequest_of_isStream hs)
    obtain ⟨d, hd⟩ := Option.isSome_iff_exists.mp (ExtTreeMap.mem_iff_isSome_getElem?.mp hid)
    have hentry : (s.withStream c e d x).connectionMap[c]? =
        some { e with recordState := e.recordState.addContent x } :=
      ((h.setPending (d := d.append e.recordState.type x) hid).setRecord _).entry
    have hpending : (s.withStream c e d x).pendingRequestMap[(⟨c, e.recordState.fcgiId⟩ :
        FcgiRequestIdentifier)]? = some (d.append e.recordState.type x) :=
      (s.getElem?_setPending _ _ _).trans (if_pos rfl)
    rw [ok_takeContent_stream h.entry hs hd, ok_bind (ok_takeContent_stream h.entry hs hd x),
      ok_takeContent_stream hentry hs hpending, withStream_withStream]
  · have hentry := (h.setRecord (e.recordState.addContent x)).entry
    rw [ok_takeContent_buffer h.entry hs, ok_bind (ok_takeContent_buffer h.entry hs x),
      ok_takeContent_buffer hentry hs, setConnection_setConnection, addContent_append]

theorem takePadding_append (he : s.connectionMap[c]? = some e) (x y : Bytes) :
    takePadding c (x ++ y) s = (takePadding c x >>= fun _ => takePadding c y) s := by
  have hentry : (s.setConnection c { e with recordState := e.recordState.addPadding x }).connectionMap[c]? =
      some { e with recordState := e.recordState.addPadding x } :=
    (s.getElem?_setConnection c c _).trans (if_pos rfl)
  rw [ok_takePadding he, ok_bind (ok_takePadding he x), ok_takePadding hentry,
    setConnection_setConnection, addPadding_append]

/-- A part of a header that does not complete it. -/
theorem takeHeader_append (he : s.connectionMap[c]? = some e) {x : Bytes}
    (hshort : (e.recordState.addHeader x).header.length < 8) (y : Bytes) :
    takeHeader reply c (x ++ y) s = (takeHeader reply c x >>= fun _ => takeHeader reply c y) s := by
  have hentry : (s.setConnection c { e with recordState := e.recordState.addHeader x }).connectionMap[c]? =
      some { e with recordState := e.recordState.addHeader x } :=
    (s.getElem?_setConnection c c _).trans (if_pos rfl)
  have htake : takeHeader reply c x s = some (.ok ⟨⟩,
      s.setConnection c { e with recordState := e.recordState.addHeader x }) := by
    rw [takeHeader_eq he, if_neg (by omega)]
    rfl
  have happend : (e.recordState.addHeader x).addHeader y = e.recordState.addHeader (x ++ y) := by
    simp [RecordState.addHeader]
  rw [ok_bind htake, takeHeader_eq he, takeHeader_eq hentry, setConnection_setConnection, happend]

/-! ### The first byte -/

/-- The first byte completes the record, or the others go on with it. -/
theorem takeRecords_cons_of_take (rest : Bytes) {b : UInt8} {y : Bytes} (h : Ready c s)
    (hone : takeRecord reply c [b] s = some (.ok [], t))
    (hall : takeRecord reply c (b :: y) s = some (.ok rest, t) ∧ rest = y ∨
      y ≠ [] ∧ Ready c t ∧ takeRecord reply c (b :: y) s = takeRecord reply c y t ∨ y = []) :
    takeRecords reply c (b :: y) s =
      (takeRecords reply c [b] >>= fun _ => takeRecords reply c y) s := by
  have hfirst : takeRecords reply c [b] s = some (.ok ⟨⟩, t) := by
    rw [takeRecords_eq h (List.cons_ne_nil b []), ok_bind hone, takeRecords_nil]
  rw [ok_bind hfirst]
  rcases hall with ⟨hall, rfl⟩ | ⟨hy, ht, hall⟩ | rfl
  · rw [takeRecords_eq h (List.cons_ne_nil b _), ok_bind hall]
  · rw [takeRecords_eq h (List.cons_ne_nil b _), takeRecords_eq ht hy]
    exact bind_eq hall
  · rw [hfirst, takeRecords_nil]

theorem takeRecord_body (h : Receiving c s e) (hheader : e.recordState.header.length = 8) :
    takeRecord reply c data s = takeBody c e.recordState data s := by
  rw [takeRecord, ok_bind (ok_currentRecord h.entry)]
  exact congrFun (if_neg (by rw [hheader, fcgiHeaderLen]; omega)) s

/-- The first byte is one of the content. -/
theorem takeRecords_cons_content (h : Receiving c s e)
    (ha : Announced s c e.managementQueue e.recordState) (hopen : ¬ e.recordState.Complete)
    (hlt : e.recordState.contentBytesReceived < e.recordState.contentBytesExpected) (b : UInt8)
    (y : Bytes) : takeRecords reply c (b :: y) s =
      (takeRecords reply c [b] >>= fun _ => takeRecords reply c y) s := by
  set r := e.recordState with hr
  obtain ⟨n, hn⟩ : ∃ n, r.contentBytesExpected - r.contentBytesReceived = n + 1 :=
    ⟨r.contentBytesExpected - r.contentBytesReceived - 1, by omega⟩
  set m := r.paddingBytesExpected - r.paddingBytesReceived with hm
  have hready : Ready c s := h.ready (.inr ⟨h.connected, hopen, ha⟩)
  obtain ⟨u, htake, hu, hau, -⟩ := content_taken [b] h ha hlt
  have hone : takeContent c ([b].take (r.contentBytesExpected - r.contentBytesReceived)) s =
      some (.ok ⟨⟩, u) := by
    rw [hn, List.take_succ_cons, List.take_nil]
    exact htake
  have hnone : takePadding c (([b].drop (r.contentBytesExpected - r.contentBytesReceived)).take m) u =
      some (.ok ⟨⟩, u) := by
    rw [hn, List.drop_succ_cons, List.drop_nil, List.take_nil]
    exact ok_takePadding_nil hu.entry
  have hdrop : [b].drop (r.contentBytesExpected - r.contentBytesReceived + m) = [] :=
    List.drop_of_length_le (by rw [List.length_singleton]; omega)
  by_cases hall : (r.addContent [b]).Complete
  · obtain ⟨v, hv, hfinish, -⟩ := ok_process hu hau hall
    have hfinish' := ok_finishWhenComplete hu hall hfinish
    have hlast : n = 0 ∧ m = 0 := by
      have hcontent : r.contentBytesReceived + 1 = r.contentBytesExpected := hall.1
      have hpadding : r.paddingBytesReceived = r.paddingBytesExpected := hall.2
      omega
    have hrest : takeRecord reply c (b :: y) s = some (.ok y, v) := by
      rw [takeRecord_body h ha.header]
      have hbody := ok_takeBody (b :: y) (r := r) (s := s) (u := u) (v := u) (t := v)
        (by rw [hn, hlast.1]; exact htake)
        (by rw [← hm, hlast.2, List.take_zero]; exact ok_takePadding_nil hu.entry) hfinish'
      rw [hbody, ← hm, hn, hlast.1, hlast.2]
      rfl
    refine takeRecords_cons_of_take _ hready ?_ (.inl ⟨hrest, rfl⟩)
    rw [takeRecord_body h ha.header, ok_takeBody _ hone hnone hfinish', hdrop]
  · have hv : Ready c u := hu.ready (.inr ⟨h.connected, hall, hau⟩)
    refine takeRecords_cons_of_take y (t := u) hready ?_ ?_
    · rw [takeRecord_body h ha.header, ok_takeBody _ hone hnone (ok_finishWhenComplete_skip hu hall),
        hdrop]
    · by_cases hy : y = []
      · exact .inr (.inr hy)
      · refine .inr (.inl ⟨hy, hv, ?_⟩)
        have hn' : (r.addContent [b]).contentBytesExpected - (r.addContent [b]).contentBytesReceived =
            n := by
          show r.contentBytesExpected - (r.contentBytesReceived + 1) = n
          omega
        have hm' : (r.addContent [b]).paddingBytesExpected - (r.addContent [b]).paddingBytesReceived =
            m := rfl
        have hcontent : takeContent c (b :: y.take n) s = takeContent c (y.take n) u := by
          rw [← List.singleton_append, takeContent_append h ha, ok_bind htake]
        rw [takeRecord_body h ha.header, takeRecord_body hu hau.header, takeBody, takeBody, hn', hm',
          ← hm, ← hr, hn, List.take_succ_cons, List.drop_succ_cons,
          show n + 1 + m = n + m + 1 by omega, List.drop_succ_cons]
        exact bind_eq hcontent

/-- The first byte is one of the padding. -/
theorem takeRecords_cons_padding (h : Receiving c s e)
    (ha : Announced s c e.managementQueue e.recordState) (hopen : ¬ e.recordState.Complete)
    (hfull : e.recordState.contentBytesReceived = e.recordState.contentBytesExpected) (b : UInt8)
    (y : Bytes) : takeRecords reply c (b :: y) s =
      (takeRecords reply c [b] >>= fun _ => takeRecords reply c y) s := by
  set r := e.recordState with hr
  have hlt : r.paddingBytesReceived < r.paddingBytesExpected :=
    Nat.lt_of_le_of_ne ha.padding fun heq => hopen ⟨hfull, heq⟩
  obtain ⟨m, hm⟩ : ∃ m, r.paddingBytesExpected - r.paddingBytesReceived = m + 1 :=
    ⟨r.paddingBytesExpected - r.paddingBytesReceived - 1, by omega⟩
  have hzero : r.contentBytesExpected - r.contentBytesReceived = 0 := by omega
  have hready : Ready c s := h.ready (.inr ⟨h.connected, hopen, ha⟩)
  have hnone : ∀ z : Bytes, takeContent c (z.take (r.contentBytesExpected - r.contentBytesReceived)) s =
      some (.ok ⟨⟩, s) := fun z => by
    rw [hzero, List.take_zero]
    exact ok_takeContent_nil h.entry ha
  have hau₀ : Announced s c e.managementQueue (r.addPadding [b]) := ha.addPadding hfull hlt
  set u := s.setConnection c { e with recordState := r.addPadding [b] }
  have hu : Receiving c u { e with recordState := r.addPadding [b] } := h.setRecord _
  have hau : Announced u c e.managementQueue (r.addPadding [b]) := hau₀.mono id fun _ => id
  have htake : takePadding c [b] s = some (.ok ⟨⟩, u) := ok_takePadding h.entry [b]
  have hone : takePadding c (([b].drop (r.contentBytesExpected - r.contentBytesReceived)).take
      (r.paddingBytesExpected - r.paddingBytesReceived)) s = some (.ok ⟨⟩, u) := by
    rw [hzero, List.drop_zero, hm, List.take_succ_cons, List.take_nil]
    exact htake
  have hdrop : [b].drop (r.contentBytesExpected - r.contentBytesReceived +
      (r.paddingBytesExpected - r.paddingBytesReceived)) = [] :=
    List.drop_of_length_le (by rw [List.length_singleton]; omega)
  by_cases hall : (r.addPadding [b]).Complete
  · obtain ⟨v, hv, hfinish, -⟩ := ok_process hu hau hall
    have hfinish' := ok_finishWhenComplete hu hall hfinish
    have hlast : m = 0 := by
      have hpadding : r.paddingBytesReceived + 1 = r.paddingBytesExpected := hall.2
      omega
    have hrest : takeRecord reply c (b :: y) s = some (.ok y, v) := by
      rw [takeRecord_body h ha.header]
      have hbody := ok_takeBody (b :: y) (r := r) (s := s) (u := s) (v := u) (t := v)
        (hnone _) (by rw [hzero, hm, hlast]; exact htake) hfinish'
      rw [hbody, hzero, hm, hlast]
      rfl
    refine takeRecords_cons_of_take _ hready ?_ (.inl ⟨hrest, rfl⟩)
    rw [takeRecord_body h ha.header, ok_takeBody _ (hnone _) hone hfinish', hdrop]
  · have hv : Ready c u := hu.ready (.inr ⟨h.connected, hall, hau⟩)
    refine takeRecords_cons_of_take y (t := u) hready ?_ ?_
    · rw [takeRecord_body h ha.header, ok_takeBody _ (hnone _) hone
        (ok_finishWhenComplete_skip hu hall), hdrop]
    · by_cases hy : y = []
      · exact .inr (.inr hy)
      · refine .inr (.inl ⟨hy, hv, ?_⟩)
        have hn' : (r.addPadding [b]).contentBytesExpected - (r.addPadding [b]).contentBytesReceived =
            0 := hzero
        have hm' : (r.addPadding [b]).paddingBytesExpected - (r.addPadding [b]).paddingBytesReceived =
            m := by
          show r.paddingBytesExpected - (r.paddingBytesReceived + 1) = m
          omega
        have hpadding : takePadding c (b :: y.take m) s = takePadding c (y.take m) u := by
          rw [← List.singleton_append, takePadding_append h.entry, ok_bind htake]
        have hnil : ∀ (x : TestFcgiClientInterface) (f : ConnectionState), Receiving c x f →
            Announced x c f.managementQueue f.recordState → takeContent c (y.take 0) x =
              some (.ok ⟨⟩, x) := fun x f hx hax => ok_takeContent_nil hx.entry hax
        rw [takeRecord_body h ha.header, takeRecord_body hu hau.header, takeBody, takeBody, hn', hm',
          ← hr, ok_bind (hnone _), ok_bind (hnil u _ hu hau), hzero, hm, List.drop_zero, List.drop_zero,
          List.take_succ_cons, Nat.zero_add, Nat.zero_add, List.drop_succ_cons]
        exact bind_eq hpadding

/-- The first byte is one of the header, but not the last. -/
theorem takeRecords_cons_header (h : Receiving c s e) (hopening : Opening e.recordState)
    (hshort : e.recordState.header.length + 1 < 8) (b : UInt8) (y : Bytes) :
    takeRecords reply c (b :: y) s =
      (takeRecords reply c [b] >>= fun _ => takeRecords reply c y) s := by
  set r := e.recordState with hr
  obtain ⟨k, hk⟩ : ∃ k, 8 - r.header.length = k + 1 := ⟨8 - r.header.length - 1, by omega⟩
  have hready : Ready c s := h.ready (.inl hopening)
  set u := s.setConnection c { e with recordState := r.addHeader [b] }
  have hu : Receiving c u { e with recordState := r.addHeader [b] } := h.setRecord _
  have hlength : (r.addHeader [b]).header.length = r.header.length + 1 := List.length_append
  have hopening' : Opening (r.addHeader [b]) :=
    { hopening with header := by rw [hlength]; exact hshort }
  have hv : Ready c u := hu.ready (.inl hopening')
  have htake : takeHeader reply c [b] s = some (.ok ⟨⟩, u) := by
    rw [takeHeader_eq h.entry, if_neg (by rw [← hr]; omega)]
    rfl
  have htake' : takeHeader reply c ([b].take (8 - r.header.length)) s = some (.ok ⟨⟩, u) := by
    rw [hk, List.take_succ_cons, List.take_nil]
    exact htake
  have hone : takeRecord reply c [b] s = some (.ok [], u) := by
    rw [takeRecord_header h.entry hopening.header htake' hu.entry]
    exact congrFun (if_pos hopening'.header) u
  by_cases hy : y = []
  · exact takeRecords_cons_of_take y hready hone (.inr (.inr hy))
  · refine takeRecords_cons_of_take y hready hone (.inr (.inl ⟨hy, hv, ?_⟩))
    have hheader : takeHeader reply c (b :: y.take k) s = takeHeader reply c (y.take k) u := by
      rw [← List.singleton_append, takeHeader_append h.entry (by rw [← hr, hlength]; exact hshort),
        ok_bind htake]
    have hk' : 8 - (r.addHeader [b]).header.length = k := by omega
    have hlt : r.header.length < fcgiHeaderLen := hopening.header
    have hlt' : (r.addHeader [b]).header.length < fcgiHeaderLen := hopening'.header
    rw [takeRecord, takeRecord, ok_bind (ok_currentRecord h.entry), ok_bind (ok_currentRecord hu.entry)]
    dsimp only
    rw [← hr, if_pos hlt, if_pos hlt', fcgiHeaderLen, hk, hk', List.take_succ_cons,
      List.drop_succ_cons]
    exact bind_eq hheader

/-- The first byte is the last one of the header. -/
theorem takeRecords_cons_headerEnd (h : Receiving c s e) (hopening : Opening e.recordState)
    (hlast : e.recordState.header.length + 1 = 8) (b : UInt8) (y : Bytes) :
    takeRecords reply c (b :: y) s =
      (takeRecords reply c [b] >>= fun _ => takeRecords reply c y) s := by
  set r := e.recordState with hr
  have hk : 8 - r.header.length = 1 := by omega
  have hready : Ready c s := h.ready (.inl hopening)
  set u := s.setConnection c { e with recordState := r.addHeader [b] }
  have hu : Receiving c u { e with recordState := r.addHeader [b] } := h.setRecord _
  have hlength : (r.addHeader [b]).header.length = 8 := by
    rw [← hlast]
    exact List.length_append
  have htake : ∀ z, takeHeader reply c ((b :: z).take (8 - r.header.length)) s =
      discard (updateOnHeaderCompletion reply c none) u := fun z => by
    rw [hk, List.take_succ_cons, List.take_zero, takeHeader_eq h.entry]
    exact congrFun (if_pos hlength) u
  rcases ends_updateOnHeaderCompletion reply hu (unread_addHeader hopening [b]) hlength with
    ⟨a, v, hupdate, f, hdone⟩ | ⟨failure, v, hupdate, -⟩
  · have hrecord : ∀ z, takeRecord reply c (b :: z) s = takeBody c f.recordState z v := fun z => by
      rw [takeRecord_header h.entry hopening.header ((htake z).trans (ok_discard hupdate))
        hdone.receiving.entry, ← hr, hk, List.drop_succ_cons, List.drop_zero]
      exact congrFun (if_neg (by rw [hdone.announced.header]; omega)) v
    by_cases hempty : f.recordState.Complete
    · obtain ⟨w, hw, hfinish, -⟩ := ok_process hdone.receiving hdone.announced hempty
      refine takeRecords_cons_of_take y (t := w) hready ?_ (.inl ⟨?_, rfl⟩)
      · rw [hrecord]
        exact ok_takeBody_empty hdone hempty [] hfinish
      · rw [hrecord]
        exact ok_takeBody_empty hdone hempty y hfinish
    · have hv : Ready c v :=
        hdone.receiving.ready (.inr ⟨hdone.receiving.connected, hempty, hdone.announced⟩)
      refine takeRecords_cons_of_take y (t := v) hready ?_ ?_
      · rw [hrecord]
        exact ok_takeBody_nil hdone.receiving hdone.announced hempty
      · by_cases hy : y = []
        · exact .inr (.inr hy)
        · refine .inr (.inl ⟨hy, hv, ?_⟩)
          rw [hrecord, takeRecord_body hdone.receiving hdone.announced.header]
  · have hfails : ∀ z, takeRecords reply c (b :: z) s = some (.error failure, v) := fun z => by
      rw [takeRecords_eq hready (List.cons_ne_nil b z)]
      refine error_bind ?_
      rw [takeRecord, ok_bind (ok_currentRecord h.entry)]
      refine (congrFun (if_pos hopening.header) s).trans ?_
      exact error_bind ((htake z).trans (error_discard hupdate))
    rw [hfails, error_bind (hfails [])]

theorem takeRecords_cons (h : Ready c s) (b : UInt8) (y : Bytes) :
    takeRecords reply c (b :: y) s =
      (takeRecords reply c [b] >>= fun _ => takeRecords reply c y) s := by
  obtain ⟨e, he, hopening | ⟨-, hincomplete, hannounced⟩⟩ := h.receiving
  · by_cases hlast : e.recordState.header.length + 1 = 8
    · exact takeRecords_cons_headerEnd he hopening hlast b y
    · have hlt := hopening.header
      exact takeRecords_cons_header he hopening (by omega) b y
  · rcases Nat.lt_or_ge e.recordState.contentBytesReceived
      e.recordState.contentBytesExpected with hlt | hge
    · exact takeRecords_cons_content he hannounced hincomplete hlt b y
    · exact takeRecords_cons_padding he hannounced hincomplete
        (Nat.le_antisymm hannounced.content hge) b y

/-- The reference does not depend on where the bytes are cut. -/
theorem takeRecords_append (h : Ready c s) (x y : Bytes) :
    takeRecords reply c (x ++ y) s =
      (takeRecords reply c x >>= fun _ => takeRecords reply c y) s := by
  induction x generalizing s with
  | nil => rw [List.nil_append, ok_bind takeRecords_nil]
  | cons b x ih =>
    rw [List.cons_append, takeRecords_cons h, bind_eq (takeRecords_cons h b x), bind_assoc]
    refine bind_congr fun _ t ht => ?_
    rcases ends_takeRecords reply [b] h with ⟨_, t', hx, ht'⟩ | ⟨_, _, hx, -⟩
    · cases ht.symm.trans hx
      exact ih ht'
    · cases ht.symm.trans hx

end

end AsComponents.Client
