import AsComponents.ClientAgreement

/-!
# The reception of bytes refines the reception of records

The loop of `ExamineSelectReturn` over a buffer comes to the same as the
reference, wherever the buffers end.
-/

namespace AsComponents.Client

open Protocol NameValue SocketFunctions AsComponents.Partition Std Critical TestFcgiClientInterface

/-! ## The loop with its completion as a parameter -/

section

variable (process : Nat → Option FcgiRequestIdentifier → Operation (Option FcgiRequestIdentifier))
  (reply : SystemReply) (connection : Nat)

/-- `receiveHeader` with `process` in the place of `ProcessCompleteRecord`; so
for the sections that follow. -/
def headerSection (it : Option FcgiRequestIdentifier) (data : Bytes) : Operation SectionReturn := do
  let r := (← connectionState connection).recordState
  if r.header.length < fcgiHeaderLen then
    let copySize := min data.length (fcgiHeaderLen - r.header.length)
    let header := r.header ++ data.take copySize
    setRecordState connection { r with header := header }
    if header.length = fcgiHeaderLen then
      let it ← updateOnHeaderCompletion reply connection it
      let r := (← connectionState connection).recordState
      if r.contentBytesExpected = 0 ∧ r.paddingBytesExpected = 0 then
        return ⟨← process connection it, data.drop copySize, true⟩
      return ⟨it, data.drop copySize, false⟩
    return ⟨it, data.drop copySize, false⟩
  return ⟨it, data, false⟩

def contentSection (it : Option FcgiRequestIdentifier) (data : Bytes) : Operation SectionReturn := do
  let r := (← connectionState connection).recordState
  if r.contentBytesReceived < r.contentBytesExpected then
    let copySize := min data.length (r.contentBytesExpected - r.contentBytesReceived)
    let it ← storeContent connection it r (data.take copySize)
    let r := (← connectionState connection).recordState
    setRecordState connection
      { r with contentBytesReceived := r.contentBytesReceived + copySize }
    if r.contentBytesReceived + copySize = r.contentBytesExpected ∧ r.paddingBytesExpected = 0 then
      return ⟨← process connection it, data.drop copySize, true⟩
    return ⟨it, data.drop copySize, false⟩
  return ⟨it, data, false⟩

def paddingSection (it : Option FcgiRequestIdentifier) (data : Bytes) : Operation SectionReturn := do
  let r := (← connectionState connection).recordState
  if r.paddingBytesReceived < r.paddingBytesExpected then
    let copySize := min data.length (r.paddingBytesExpected - r.paddingBytesReceived)
    setRecordState connection
      { r with paddingBytesReceived := r.paddingBytesReceived + copySize }
    if r.paddingBytesReceived + copySize = r.paddingBytesExpected then
      let it ← refreshIf (r.invalidated = false ∧ (r.type = kFcgiEndRequest ∨
        r.type = kFcgiStderr ∨ r.type = kFcgiStdout)) it ⟨connection, r.fcgiId⟩
      return ⟨← process connection it, data.drop copySize, true⟩
    return ⟨it, data.drop copySize, false⟩
  return ⟨it, data, false⟩

def bodySections (it : Option FcgiRequestIdentifier) (data : Bytes) : Operation SectionReturn := do
  let r ← contentSection process connection it data
  if r.completed ∨ r.data = [] then return r
  paddingSection process connection r.it r.data

def roundSections (it : Option FcgiRequestIdentifier) (data : Bytes) : Operation SectionReturn := do
  let r ← headerSection process reply connection it data
  if r.completed ∨ r.data = [] then return r
  bodySections process connection r.it r.data

def bufferSections : Nat → Option FcgiRequestIdentifier → Bytes →
    Operation (Option FcgiRequestIdentifier)
  | _, it, [] => return it
  | 0, _, _ :: _ => Critical.wait
  | fuel + 1, it, b :: bs => do
      let r ← roundSections process reply connection it (b :: bs)
      bufferSections fuel r.it r.data

end

theorem roundSections_processCompleteRecord (reply : SystemReply) (c : Nat)
    (it : Option FcgiRequestIdentifier) (data : Bytes) :
    roundSections processCompleteRecord reply c it data = receiveRound reply c it data := rfl

theorem bufferSections_processCompleteRecord (reply : SystemReply) (c fuel : Nat)
    (it : Option FcgiRequestIdentifier) (data : Bytes) :
    bufferSections processCompleteRecord reply c fuel it data = receiveBuffer reply c fuel it data := by
  induction fuel generalizing it data with
  | zero =>
    cases data with
    | nil => rfl
    | cons b bs => rfl
  | succ fuel ih =>
    cases data with
    | nil => rfl
    | cons b bs =>
      rw [bufferSections, receiveBuffer, roundSections_processCompleteRecord]
      simp only [ih]

/-- `ProcessCompleteRecord` where it is given the request it needs. -/
def ProcessesAlike
    (process : Nat → Option FcgiRequestIdentifier → Operation (Option FcgiRequestIdentifier)) : Prop :=
  ∀ (c : Nat) (s : TestFcgiClientInterface) (e : ConnectionState) (it : Option FcgiRequestIdentifier),
    s.connectionMap[c]? = some e →
    (e.recordState.NeedsRequest → it = some ⟨c, e.recordState.fcgiId⟩ ∧
      ⟨c, e.recordState.fcgiId⟩ ∈ s.pendingRequestMap) →
    process c it s = processCompleteRecord c it s

/-- `ProcessCompleteRecord` with a test of the iterator for the records that
need a request. -/
def processWithRequest (connection : Nat) (it : Option FcgiRequestIdentifier) :
    Operation (Option FcgiRequestIdentifier) := do
  let s ← get
  let r := (← connectionState connection).recordState
  if r.NeedsRequest ∧ ¬ (it = some ⟨connection, r.fcgiId⟩ ∧
      ⟨connection, r.fcgiId⟩ ∈ s.pendingRequestMap) then
    throw (.runtimeError "The iterator does not refer to the pending request of the record.")
  else processCompleteRecord connection it

theorem processesAlike_processCompleteRecord : ProcessesAlike processCompleteRecord :=
  fun _ _ _ _ _ _ => rfl

theorem processesAlike_processWithRequest : ProcessesAlike processWithRequest := by
  intro c s e it he hneeds
  rw [processWithRequest, get_bind, ok_bind (ok_connectionState he)]
  exact congrFun (if_neg fun h => h.2 (hneeds h.1)) s

section

variable {s t : TestFcgiClientInterface} {c : Nat} {e : ConnectionState} {reply : SystemReply}
  {it : Option FcgiRequestIdentifier} {data : Bytes}
  {process : Nat → Option FcgiRequestIdentifier → Operation (Option FcgiRequestIdentifier)}

/-! ## Sections -/

/-- The outcome of sections over `data` that leave `rest`, for every completion
and every valid iterator. -/
def SectionsTo (s t : TestFcgiClientInterface) (rest : Bytes)
    (x : (Nat → Option FcgiRequestIdentifier → Operation (Option FcgiRequestIdentifier)) →
      Option FcgiRequestIdentifier → Operation SectionReturn) : Prop :=
  ∀ process it, ProcessesAlike process → ValidIterator s it →
    ∃ it' completed, x process it s = some (.ok ⟨it', rest, completed⟩, t) ∧ ValidIterator t it'

theorem ok_process (h : Receiving c s e) (ha : Announced s c e.managementQueue e.recordState)
    (hcomplete : e.recordState.Complete) :
    ∃ t, Ready c t ∧ finishRecord c s = some (.ok ⟨⟩, t) ∧
      ∀ process it, ProcessesAlike process → ValidIterator s it → Serves c it e.recordState →
        ∃ it', process c it s = some (.ok it', t) ∧ ValidIterator t it' := by
  obtain ⟨t, ht, hfinish, hprocess⟩ := processes_completeRecord h ha hcomplete
  refine ⟨t, ht, hfinish, fun process it hp hit hserves => ?_⟩
  rw [hp c s e it h.entry fun hneeds => ⟨hserves hneeds, ha.pending hneeds⟩]
  exact hprocess it hit hserves

theorem ok_finishWhenComplete (h : Receiving c s e) (hcomplete : e.recordState.Complete)
    (hfinish : finishRecord c s = some (.ok ⟨⟩, t)) :
    finishWhenComplete c s = some (.ok ⟨⟩, t) := by
  rw [finishWhenComplete, ok_bind (ok_currentRecord h.entry), if_pos hcomplete, hfinish]

theorem ok_finishWhenComplete_skip (h : Receiving c s e) (hopen : ¬ e.recordState.Complete) :
    finishWhenComplete c s = some (.ok ⟨⟩, s) := by
  rw [finishWhenComplete, ok_bind (ok_currentRecord h.entry), if_neg hopen]
  rfl

theorem take_min (data : Bytes) (n : Nat) : data.take (min data.length n) = data.take n := by
  rw [Nat.min_comm, ← List.take_eq_take_min]

theorem drop_min (data : Bytes) (n : Nat) : data.drop (min data.length n) = data.drop n := by
  rcases Nat.le_total data.length n with h | h
  · rw [Nat.min_eq_left h, List.drop_of_length_le h, List.drop_length]
  · rw [Nat.min_eq_right h]

/-- The section for the padding. -/
theorem padding_agrees (data : Bytes) (h : Receiving c s e)
    (ha : Announced s c e.managementQueue e.recordState)
    (hcontent : e.recordState.contentBytesReceived = e.recordState.contentBytesExpected)
    (hopen : ¬ e.recordState.Complete) :
    ∃ u t, Ready c t ∧
      takePadding c (data.take (e.recordState.paddingBytesExpected -
        e.recordState.paddingBytesReceived)) s = some (.ok ⟨⟩, u) ∧
      finishWhenComplete c u = some (.ok ⟨⟩, t) ∧
      SectionsTo s t (data.drop (e.recordState.paddingBytesExpected -
        e.recordState.paddingBytesReceived)) fun process it => paddingSection process c it data := by
  set r := e.recordState with hr
  set n := r.paddingBytesExpected - r.paddingBytesReceived with hn
  have hlt : r.paddingBytesReceived < r.paddingBytesExpected :=
    Nat.lt_of_le_of_ne ha.padding fun heq => hopen ⟨hcontent, heq⟩
  have hlength : (data.take n).length = min data.length n := by
    rw [List.length_take, Nat.min_comm]
  have ha' : Announced s c e.managementQueue (r.addPadding (data.take n)) :=
    ha.addPadding hcontent (by rw [hlength]; omega)
  set u := s.setConnection c { e with recordState := r.addPadding (data.take n) }
  have hu : Receiving c u { e with recordState := r.addPadding (data.take n) } := h.setRecord _
  have hau : Announced u c e.managementQueue (r.addPadding (data.take n)) := ha'.mono id fun _ => id
  have hset : setRecordState c
      { r with paddingBytesReceived := r.paddingBytesReceived + min data.length n } s =
        some (.ok ⟨⟩, u) := by
    rw [ok_setRecordState h.entry, ← hlength]
    rfl
  have hcomplete : (r.addPadding (data.take n)).Complete ↔
      r.paddingBytesReceived + min data.length n = r.paddingBytesExpected := by
    rw [← hlength]
    exact ⟨And.right, fun hall => ⟨hcontent, hall⟩⟩
  by_cases hall : r.paddingBytesReceived + min data.length n = r.paddingBytesExpected
  · obtain ⟨t, ht, hfinish, hprocess⟩ := ok_process hu hau (hcomplete.mpr hall)
    refine ⟨u, t, ht, ok_takePadding h.entry _, ok_finishWhenComplete hu (hcomplete.mpr hall) hfinish,
      fun process it hp hit => ?_⟩
    have hneeds : decide (r.invalidated = false ∧ (r.type = kFcgiEndRequest ∨
        r.type = kFcgiStderr ∨ r.type = kFcgiStdout)) = true → r.NeedsRequest := of_decide_eq_true
    have hrefresh := ok_refreshIf it (s := u) (r := r) hit fun h => ha.pending (hneeds h)
    set it₁ : Option FcgiRequestIdentifier := if decide (r.invalidated = false ∧
      (r.type = kFcgiEndRequest ∨ r.type = kFcgiStderr ∨ r.type = kFcgiStdout)) = true then
        some ⟨c, r.fcgiId⟩ else it with hit₁
    have hvalid : ValidIterator u it₁ := by
      rw [hit₁]
      split
      · exact validIterator_some (ha.pending (hneeds ‹_›))
      · exact hit
    have hserves : Serves c it₁ (r.addPadding (data.take n)) := fun hn =>
      if_pos (decide_eq_true hn)
    obtain ⟨it', hrun, hit'⟩ := hprocess process it₁ hp hvalid hserves
    refine ⟨it', true, ?_, hit'⟩
    beta_reduce
    rw [paddingSection, ok_bind (ok_connectionState h.entry)]
    dsimp only
    rw [← hr, if_pos hlt, ← hn, ok_bind hset, if_pos hall, ok_bind hrefresh, ok_bind hrun, drop_min]
    rfl
  · refine ⟨u, u, hu.ready (.inr ⟨h.connected, fun hdone => hall (hcomplete.mp hdone), hau⟩),
      ok_takePadding h.entry _, ok_finishWhenComplete_skip hu fun hdone => hall (hcomplete.mp hdone),
      fun process it hp hit => ⟨it, false, ?_, hit⟩⟩
    beta_reduce
    rw [paddingSection, ok_bind (ok_connectionState h.entry)]
    dsimp only
    rw [← hr, if_pos hlt, ← hn, ok_bind hset, if_neg hall, drop_min]
    rfl

theorem ok_takeBody (data : Bytes) {r : RecordState} {s u v t : TestFcgiClientInterface}
    (hcontent : takeContent c (data.take (r.contentBytesExpected - r.contentBytesReceived)) s =
      some (.ok ⟨⟩, u))
    (hpadding : takePadding c ((data.drop (r.contentBytesExpected - r.contentBytesReceived)).take
      (r.paddingBytesExpected - r.paddingBytesReceived)) u = some (.ok ⟨⟩, v))
    (hfinish : finishWhenComplete c v = some (.ok ⟨⟩, t)) :
    takeBody c r data s = some (.ok (data.drop (r.contentBytesExpected - r.contentBytesReceived +
      (r.paddingBytesExpected - r.paddingBytesReceived))), t) := by
  rw [takeBody, ok_bind hcontent, ok_bind hpadding, ok_bind hfinish]
  rfl

/-- The section for the content, when content remains to be received. -/
theorem ok_contentSection
    (process : Nat → Option FcgiRequestIdentifier → Operation (Option FcgiRequestIdentifier))
    {bytes : Bytes} {it' : Option FcgiRequestIdentifier}
    {u : TestFcgiClientInterface} {f : ConnectionState} (h : Receiving c s e)
    (hlt : e.recordState.contentBytesReceived < e.recordState.contentBytesExpected)
    (hbytes : bytes = data.take (e.recordState.contentBytesExpected -
      e.recordState.contentBytesReceived))
    (hstore : storeContent c it e.recordState bytes s = some (.ok it', u))
    (hstored : Stored c e bytes t u f) :
    contentSection process c it data s =
      (if e.recordState.contentBytesReceived + bytes.length = e.recordState.contentBytesExpected ∧
          e.recordState.paddingBytesExpected = 0 then do
        return ⟨← process c it', data.drop (e.recordState.contentBytesExpected -
          e.recordState.contentBytesReceived), true⟩
      else return ⟨it', data.drop (e.recordState.contentBytesExpected -
        e.recordState.contentBytesReceived), false⟩ : Operation SectionReturn) t := by
  set r := e.recordState with hr
  have hlength : min data.length (r.contentBytesExpected - r.contentBytesReceived) = bytes.length := by
    rw [hbytes, List.length_take, Nat.min_comm]
  have htake : data.take (min data.length (r.contentBytesExpected - r.contentBytesReceived)) =
      bytes := by rw [take_min, hbytes]
  have hset : setRecordState c { f.recordState with
      contentBytesReceived := f.recordState.contentBytesReceived + bytes.length } u =
      some (.ok ⟨⟩, t) := by
    rw [ok_setRecordState hstored.entry, ← hstored.counted, hstored.record]
    rfl
  rw [contentSection, ok_bind (ok_connectionState h.entry)]
  dsimp only
  rw [← hr, if_pos hlt, htake, ok_bind hstore, ok_bind (ok_connectionState hstored.entry), drop_min,
    hlength, ok_bind hset, hstored.record]

/-- The rest of a round after the header. -/
theorem body_agrees (data : Bytes) (h : Receiving c s e)
    (ha : Announced s c e.managementQueue e.recordState)
    (hopen : ¬ e.recordState.Complete) (hdata : data ≠ []) :
    ∃ t, Ready c t ∧
      takeBody c e.recordState data s = some (.ok (data.drop (e.recordState.contentBytesExpected -
        e.recordState.contentBytesReceived + (e.recordState.paddingBytesExpected -
        e.recordState.paddingBytesReceived))), t) ∧
      SectionsTo s t (data.drop (e.recordState.contentBytesExpected -
        e.recordState.contentBytesReceived + (e.recordState.paddingBytesExpected -
        e.recordState.paddingBytesReceived))) fun process it => bodySections process c it data := by
  set r := e.recordState with hr
  set n := r.contentBytesExpected - r.contentBytesReceived with hn
  set m := r.paddingBytesExpected - r.paddingBytesReceived with hm
  rcases Nat.lt_or_ge r.contentBytesReceived r.contentBytesExpected with hlt | hge
  · have hpadding : r.paddingBytesReceived = 0 := by
      by_contra hpos
      have := ha.order (Nat.pos_of_ne_zero hpos)
      omega
    have hlength : (data.take n).length = min n data.length := List.length_take
    obtain ⟨t₁, htake, hreceiving, hannounced, hcode⟩ :=
      content_taken (data.take n) h ha (by rw [hlength, ← hr]; omega)
    have hcomplete : (r.addContent (data.take n)).Complete ↔
        r.contentBytesReceived + (data.take n).length = r.contentBytesExpected ∧
          r.paddingBytesExpected = 0 := by
      show _ = _ ∧ r.paddingBytesReceived = _ ↔ _
      rw [hpadding, eq_comm (a := 0)]
      rfl
    by_cases hall : (r.addContent (data.take n)).Complete
    · -- the content was the rest of the record
      obtain ⟨t, ht, hfinish, hprocess⟩ := ok_process hreceiving hannounced hall
      have hzero : m = 0 := by
        have := (hcomplete.mp hall).2
        omega
      have hnone : takePadding c ((data.drop n).take m) t₁ = some (.ok ⟨⟩, t₁) := by
        rw [hzero, List.take_zero]
        exact ok_takePadding_nil hreceiving.entry
      refine ⟨t, ht, ok_takeBody _ htake hnone (ok_finishWhenComplete hreceiving hall hfinish),
        fun process it hp hit => ?_⟩
      obtain ⟨it₁, u, f, hstore, hstored, hvalid, hserves⟩ := hcode it hit
      obtain ⟨it', hrun, hit'⟩ := hprocess process it₁ hp hvalid hserves
      have hsection := ok_contentSection process h hlt rfl hstore hstored
      rw [if_pos (hcomplete.mp hall), ok_bind hrun] at hsection
      refine ⟨it', true, ?_, hit'⟩
      beta_reduce
      rw [bodySections, ok_bind hsection, hzero, Nat.add_zero]
      rfl
    · have hskip := ok_finishWhenComplete_skip hreceiving hall
      by_cases hrest : data.drop n = []
      · -- the data ended before the record
        have hnone : takePadding c ((data.drop n).take m) t₁ = some (.ok ⟨⟩, t₁) := by
          rw [hrest, List.take_nil]
          exact ok_takePadding_nil hreceiving.entry
        refine ⟨t₁, hreceiving.ready (.inr ⟨h.connected, hall, hannounced⟩),
          ok_takeBody _ htake hnone hskip, fun process it hp hit => ?_⟩
        obtain ⟨it₁, u, f, hstore, hstored, hvalid, -⟩ := hcode it hit
        have hsection := ok_contentSection process h hlt rfl hstore hstored
        rw [if_neg fun hboth => hall (hcomplete.mpr hboth)] at hsection
        refine ⟨it₁, false, ?_, hvalid⟩
        beta_reduce
        rw [bodySections, ok_bind hsection, ← List.drop_drop, hrest, List.drop_nil]
        exact congrFun (if_pos (.inr rfl)) t₁
      · -- the padding follows
        have hfull : r.contentBytesReceived + (data.take n).length = r.contentBytesExpected := by
          have : n < data.length := by
            by_contra hle
            exact hrest (List.drop_of_length_le (by omega))
          omega
        obtain ⟨u, t, ht, hpad, hfinish, hsections⟩ :=
          padding_agrees (data.drop n) hreceiving hannounced hfull hall
        refine ⟨t, ht, ok_takeBody _ htake hpad hfinish, fun process it hp hit => ?_⟩
        obtain ⟨it₁, v, f, hstore, hstored, hvalid, -⟩ := hcode it hit
        have hsection := ok_contentSection process h hlt rfl hstore hstored
        rw [if_neg fun hboth => hall (hcomplete.mpr hboth)] at hsection
        obtain ⟨it', completed, hrun, hit'⟩ := hsections process it₁ hp hvalid
        refine ⟨it', completed, ?_, hit'⟩
        beta_reduce
        rw [bodySections, ok_bind hsection, ← List.drop_drop]
        exact (congrFun (if_neg (not_or.mpr ⟨Bool.false_ne_true, hrest⟩)) t₁).trans hrun
  · have hfull : r.contentBytesReceived = r.contentBytesExpected := Nat.le_antisymm ha.content hge
    have hzero : n = 0 := by omega
    obtain ⟨u, t, ht, hpad, hfinish, hsections⟩ := padding_agrees data h ha hfull hopen
    have hnone : takeContent c (data.take n) s = some (.ok ⟨⟩, s) := by
      rw [hzero, List.take_zero]
      exact ok_takeContent_nil h.entry ha
    have hpad' : takePadding c ((data.drop n).take m) s = some (.ok ⟨⟩, u) := by
      rw [hzero, List.drop_zero]
      exact hpad
    refine ⟨t, ht, ok_takeBody _ hnone hpad' hfinish, fun process it hp hit => ?_⟩
    obtain ⟨it', completed, hrun, hit'⟩ := hsections process it hp hit
    refine ⟨it', completed, ?_, hit'⟩
    have hsection : contentSection process c it data s = some (.ok ⟨it, data, false⟩, s) := by
      rw [contentSection, ok_bind (ok_connectionState h.entry)]
      exact congrFun (if_neg (Nat.not_lt.mpr hge)) s
    beta_reduce
    rw [bodySections, ok_bind hsection, hzero, Nat.zero_add]
    exact (congrFun (if_neg (not_or.mpr ⟨Bool.false_ne_true, hdata⟩)) s).trans hrun

/-! ## Rounds -/

/-- The record after more bytes of its header. -/
def RecordState.addHeader (r : RecordState) (bytes : Bytes) : RecordState :=
  { r with header := r.header ++ bytes }

theorem unread_addHeader {r : RecordState} (h : Opening r) (bytes : Bytes) :
    Unread (r.addHeader bytes) :=
  ⟨h.invalidated, h.contentBytesReceived, h.paddingBytesReceived, h.localBuffer⟩

theorem takeHeader_eq (he : s.connectionMap[c]? = some e) (bytes : Bytes) :
    takeHeader reply c bytes s =
      (if (e.recordState.addHeader bytes).header.length = 8 then
        discard (updateOnHeaderCompletion reply c none) else pure ())
        (s.setConnection c { e with recordState := e.recordState.addHeader bytes }) := by
  rw [takeHeader, ok_bind (ok_currentRecord he), ok_bind (ok_setRecordState he)]
  rfl

theorem headerSection_eq
    (process : Nat → Option FcgiRequestIdentifier → Operation (Option FcgiRequestIdentifier))
    (reply : SystemReply) (it : Option FcgiRequestIdentifier) {bytes : Bytes} (he : s.connectionMap[c]? = some e)
    (hlt : e.recordState.header.length < 8)
    (hbytes : bytes = data.take (8 - e.recordState.header.length)) :
    headerSection process reply c it data s =
      (if (e.recordState.addHeader bytes).header.length = 8 then do
        let it ← updateOnHeaderCompletion reply c it
        let r := (← connectionState c).recordState
        if r.contentBytesExpected = 0 ∧ r.paddingBytesExpected = 0 then
          return ⟨← process c it, data.drop (8 - e.recordState.header.length), true⟩
        return ⟨it, data.drop (8 - e.recordState.header.length), false⟩
      else return ⟨it, data.drop (8 - e.recordState.header.length), false⟩ :
        Operation SectionReturn)
        (s.setConnection c { e with recordState := e.recordState.addHeader bytes }) := by
  have hset : setRecordState c { e.recordState with
      header := e.recordState.header ++ data.take (8 - e.recordState.header.length) } s =
      some (.ok ⟨⟩, s.setConnection c { e with recordState := e.recordState.addHeader bytes }) := by
    rw [ok_setRecordState he, hbytes]
    rfl
  rw [headerSection, ok_bind (ok_connectionState he)]
  dsimp only
  rw [fcgiHeaderLen, if_pos hlt, take_min, drop_min, ok_bind hset, RecordState.addHeader, hbytes]

theorem takeRecord_header (he : s.connectionMap[c]? = some e) (hlt : e.recordState.header.length < 8)
    {u : TestFcgiClientInterface} {f : ConnectionState}
    (htake : takeHeader reply c (data.take (8 - e.recordState.header.length)) s = some (.ok ⟨⟩, u))
    (hf : u.connectionMap[c]? = some f) :
    takeRecord reply c data s = (if f.recordState.header.length < 8 then return [] else
      takeBody c f.recordState (data.drop (8 - e.recordState.header.length))) u := by
  rw [takeRecord, ok_bind (ok_currentRecord he)]
  dsimp only
  rw [fcgiHeaderLen, if_pos hlt, ok_bind htake, ok_bind (ok_currentRecord hf)]

/-- A round that ends before the header is complete. -/
theorem round_short (reply : SystemReply) (h : Receiving c s e) (hopening : Opening e.recordState)
    (hshort : e.recordState.header.length + data.length < 8) :
    ∃ t, Ready c t ∧ takeRecord reply c data s = some (.ok [], t) ∧
      SectionsTo s t [] fun process it => roundSections process reply c it data := by
  have hlt := hopening.header
  have htake : data.take (8 - e.recordState.header.length) = data :=
    List.take_of_length_le (by omega)
  have hdrop : data.drop (8 - e.recordState.header.length) = [] := List.drop_of_length_le (by omega)
  have hlength : (e.recordState.addHeader data).header.length =
      e.recordState.header.length + data.length := List.length_append
  set u := s.setConnection c { e with recordState := e.recordState.addHeader data }
  have hu : Receiving c u { e with recordState := e.recordState.addHeader data } := h.setRecord _
  have hopening' : Opening (e.recordState.addHeader data) :=
    { hopening with header := by rw [hlength]; exact hshort }
  have hheader : takeHeader reply c (data.take (8 - e.recordState.header.length)) s =
      some (.ok ⟨⟩, u) := by
    rw [htake, takeHeader_eq h.entry, if_neg (by omega)]
    rfl
  refine ⟨u, hu.ready (.inl hopening'), ?_, fun process it hp hit => ⟨it, false, ?_, hit⟩⟩
  · rw [takeRecord_header h.entry hlt hheader hu.entry]
    exact congrFun (if_pos hopening'.header) u
  · have hsection : headerSection process reply c it data s = some (.ok ⟨it, [], false⟩, u) := by
      rw [headerSection_eq _ _ _ h.entry hlt htake.symm, if_neg (by omega), hdrop]
      rfl
    beta_reduce
    rw [roundSections, ok_bind hsection]
    exact congrFun (if_pos (.inr rfl)) u

theorem HeaderDone.complete_iff {f : ConnectionState} (h : HeaderDone c t f) :
    f.recordState.Complete ↔
      f.recordState.contentBytesExpected = 0 ∧ f.recordState.paddingBytesExpected = 0 := by
  rw [RecordState.Complete, h.content, h.padding, eq_comm, eq_comm (a := 0)]

/-- A record without content and padding. -/
theorem ok_takeBody_empty {f : ConnectionState} (h : HeaderDone c t f)
    (hempty : f.recordState.Complete) (rest : Bytes) {v : TestFcgiClientInterface}
    (hfinish : finishRecord c t = some (.ok ⟨⟩, v)) :
    takeBody c f.recordState rest t = some (.ok rest, v) := by
  obtain ⟨hcontent, hpadding⟩ := h.complete_iff.mp hempty
  have hbody := ok_takeBody rest (r := f.recordState) (s := t) (u := t) (v := t) (t := v)
    (by rw [hcontent, Nat.zero_sub, List.take_zero]
        exact ok_takeContent_nil h.receiving.entry h.announced)
    (by rw [hpadding, Nat.zero_sub, List.take_zero]; exact ok_takePadding_nil h.receiving.entry)
    (ok_finishWhenComplete h.receiving hempty hfinish)
  rw [hbody, hcontent, hpadding, Nat.zero_sub, Nat.zero_sub]
  rfl

/-- No bytes change nothing. -/
theorem ok_takeBody_nil (h : Receiving c s e) (ha : Announced s c e.managementQueue e.recordState)
    (hopen : ¬ e.recordState.Complete) : takeBody c e.recordState [] s = some (.ok [], s) := by
  have hbody := ok_takeBody [] (r := e.recordState) (s := s) (u := s) (v := s) (t := s)
    (by rw [List.take_nil]; exact ok_takeContent_nil h.entry ha)
    (by rw [List.drop_nil, List.take_nil]; exact ok_takePadding_nil h.entry)
    (ok_finishWhenComplete_skip h hopen)
  rwa [List.drop_nil] at hbody

/-- What follows a header in its round. -/
theorem round_rest {f : ConnectionState} (h : HeaderDone c t f) (rest : Bytes) :
    ∃ v rest', Ready c v ∧ rest'.length ≤ rest.length ∧
      takeBody c f.recordState rest t = some (.ok rest', v) ∧
      ∀ process it, ProcessesAlike process → ValidIterator t it → Serves c it f.recordState →
        ∃ it' completed, (do
          let r ← (if f.recordState.contentBytesExpected = 0 ∧
              f.recordState.paddingBytesExpected = 0 then do
            return ⟨← process c it, rest, true⟩
          else return ⟨it, rest, false⟩ : Operation SectionReturn)
          if r.completed ∨ r.data = [] then return r
          bodySections process c r.it r.data : Operation SectionReturn) t =
          some (.ok ⟨it', rest', completed⟩, v) ∧ ValidIterator v it' := by
  by_cases hempty : f.recordState.Complete
  · obtain ⟨v, hv, hfinish, hprocess⟩ := ok_process h.receiving h.announced hempty
    refine ⟨v, rest, hv, le_rfl, ok_takeBody_empty h hempty rest hfinish,
      fun process it hp hit hserves => ?_⟩
    obtain ⟨it', hrun, hit'⟩ := hprocess process it hp hit hserves
    refine ⟨it', true, ?_, hit'⟩
    rw [if_pos (h.complete_iff.mp hempty), ok_bind (ok_bind hrun)]
    exact congrFun (if_pos (.inl rfl)) v
  · by_cases hrest : rest = []
    · subst hrest
      refine ⟨t, [], h.receiving.ready (.inr ⟨h.receiving.connected, hempty, h.announced⟩), le_rfl,
        ok_takeBody_nil h.receiving h.announced hempty, fun process it hp hit _ => ⟨it, false, ?_, hit⟩⟩
      rw [if_neg fun hboth => hempty (h.complete_iff.mpr hboth)]
      rfl
    · obtain ⟨v, hv, hbody, hsections⟩ := body_agrees rest h.receiving h.announced hempty hrest
      refine ⟨v, _, hv, ?_, hbody, fun process it hp hit _ => ?_⟩
      · rw [List.length_drop]
        omega
      · obtain ⟨it', completed, hrun, hit'⟩ := hsections process it hp hit
        refine ⟨it', completed, ?_, hit'⟩
        rw [if_neg fun hboth => hempty (h.complete_iff.mpr hboth)]
        exact (congrFun (if_neg (not_or.mpr ⟨Bool.false_ne_true, hrest⟩)) t).trans hrun

/-- A round in which the header is completed. -/
theorem round_full (h : Receiving c s e) (hopening : Opening e.recordState)
    (hfull : ¬ e.recordState.header.length + data.length < 8) :
    Ends (takeRecord reply c data) s (fun rest t => Ready c t ∧ rest.length < data.length)
      (Trapped reply) ∧
    ∀ process it, ProcessesAlike process → ValidIterator s it →
      Agrees (roundSections process reply c it data) s (takeRecord reply c data) s
        fun r rest t => r.data = rest ∧ ValidIterator t r.it := by
  have hlt := hopening.header
  set k := 8 - e.recordState.header.length with hk
  set r := e.recordState.addHeader (data.take k) with hr
  have hlength : r.header.length = 8 := by
    show (e.recordState.header ++ data.take k).length = 8
    rw [List.length_append, List.length_take]
    omega
  set u := s.setConnection c { e with recordState := r }
  have hu : Receiving c u { e with recordState := r } := h.setRecord _
  have hunread : Unread r := unread_addHeader hopening _
  have hheader : takeHeader reply c (data.take k) s =
      discard (updateOnHeaderCompletion reply c none) u := by
    rw [takeHeader_eq h.entry]
    exact congrFun (if_pos hlength) u
  have hsection : ∀ process it, headerSection process reply c it data s = _ := fun process it =>
    (headerSection_eq process reply it h.entry hlt rfl).trans
      (congrFun (if_pos hlength) u)
  rcases ends_updateOnHeaderCompletion reply hu hunread hlength with
    ⟨a, t, hupdate, f, hdone⟩ | ⟨failure, t, hupdate, htrap⟩
  · obtain ⟨v, rest, hv, hrest, hbody, hcode⟩ := round_rest hdone (data.drop k)
    have htake : takeRecord reply c data s = some (.ok rest, v) := by
      rw [takeRecord_header h.entry hlt (hheader.trans (ok_discard hupdate)) hdone.receiving.entry]
      exact (congrFun (if_neg (by rw [hdone.announced.header]; omega)) t).trans hbody
    refine ⟨.of_ok htake ⟨hv, ?_⟩, fun process it hp hit => ?_⟩
    · rw [List.length_drop] at hrest
      omega
    · rcases agrees_updateOnHeaderCompletion reply it hu hunread hlength hit with
        ⟨-, hnone⟩ | ⟨it₁, _, t', hrun, href, hvalid, f', hdone', hserves⟩ | ⟨_, _, _, href⟩
      · cases hnone.symm.trans hupdate
      · cases href.symm.trans hupdate
        obtain rfl := Option.some.inj (hdone.receiving.entry.symm.trans hdone'.receiving.entry)
        obtain ⟨it', completed, hround, hit'⟩ := hcode process it₁ hp hvalid hserves
        have hcontinues : roundSections process reply c it data s =
            some (.ok ⟨it', rest, completed⟩, v) := by
          rw [roundSections, ← hround]
          refine bind_eq ((hsection process it).trans ?_)
          rw [ok_bind hrun, ok_bind (ok_connectionState hdone.receiving.entry)]
        exact .of_ok hcontinues htake ⟨rfl, hit'⟩
      · cases href.symm.trans hupdate
  · have htake : takeRecord reply c data s = some (.error failure, t) := by
      rw [takeRecord, ok_bind (ok_currentRecord h.entry)]
      refine (congrFun (if_pos hlt) s).trans ?_
      exact error_bind (hheader.trans (error_discard hupdate))
    refine ⟨.inr ⟨failure, t, htake, htrap⟩, fun process it hp hit => ?_⟩
    rcases agrees_updateOnHeaderCompletion reply it hu hunread hlength hit with
      ⟨-, hnone⟩ | ⟨it₁, _, t', hrun, href, -⟩ | ⟨failure', t', hrun, href⟩
    · cases hnone.symm.trans hupdate
    · cases href.symm.trans hupdate
    · cases href.symm.trans hupdate
      refine .of_error ?_ htake
      rw [roundSections]
      exact error_bind ((hsection process it).trans (error_bind hrun))

/-- A round takes the bytes of a record, or as many of them as there are. -/
theorem round_agrees (reply : SystemReply) (h : Ready c s) (hdata : data ≠ []) :
    Ends (takeRecord reply c data) s (fun rest t => Ready c t ∧ rest.length < data.length)
      (Trapped reply) ∧
    ∀ process it, ProcessesAlike process → ValidIterator s it →
      Agrees (roundSections process reply c it data) s (takeRecord reply c data) s
        fun r rest t => r.data = rest ∧ ValidIterator t r.it := by
  have hpos : 0 < data.length := List.length_pos_iff.mpr hdata
  obtain ⟨e, he, hopening | ⟨-, hincomplete, hannounced⟩⟩ := h.receiving
  · have hlt := hopening.header
    by_cases hshort : e.recordState.header.length + data.length < 8
    · obtain ⟨t, ht, htake, hsections⟩ := round_short reply he hopening hshort
      refine ⟨.of_ok htake ⟨ht, hpos⟩, fun process it hp hit => ?_⟩
      obtain ⟨it', completed, hrun, hit'⟩ := hsections process it hp hit
      exact .of_ok hrun htake ⟨rfl, hit'⟩
    · exact round_full he hopening hshort
  · have hskip : ¬ e.recordState.header.length < fcgiHeaderLen := by
      rw [hannounced.header, fcgiHeaderLen]
      omega
    obtain ⟨t, ht, hbody, hsections⟩ := body_agrees _ he hannounced hincomplete hdata
    have htake : takeRecord reply c data s = takeBody c e.recordState data s := by
      rw [takeRecord, ok_bind (ok_currentRecord he.entry)]
      exact congrFun (if_neg hskip) s
    rw [← htake] at hbody
    refine ⟨.of_ok hbody ⟨ht, ?_⟩, fun process it hp hit => ?_⟩
    · have hcontent := hannounced.content
      have hpadding := hannounced.padding
      have hopen := not_and_or.mp hincomplete
      rw [List.length_drop]
      omega
    · obtain ⟨it', completed, hrun, hit'⟩ := hsections process it hp hit
      have hheader : headerSection process reply c it data s = some (.ok ⟨it, data, false⟩, s) := by
        rw [headerSection, ok_bind (ok_connectionState he.entry)]
        exact congrFun (if_neg hskip) s
      have hround : roundSections process reply c it data s =
          bodySections process c it data s := by
        rw [roundSections, ok_bind hheader]
        exact congrFun (if_neg (not_or.mpr ⟨Bool.false_ne_true, hdata⟩)) s
      exact .of_ok (hround.trans hrun) hbody ⟨rfl, hit'⟩

end

end AsComponents.Client
