import AsComponents.ClientRecords

/-! The reception of a record in any number of reads, and what is left after an
invalid record. -/

namespace AsComponents.Client

open Protocol NameValue SocketFunctions AsComponents.Partition Std Critical TestFcgiClientInterface

namespace Arrival

variable {a : Arrival}

section

variable {t : TestFcgiClientInterface} {reply : SystemReply} {it : Option FcgiRequestIdentifier}

/-! ### Rounds -/

theorem length_bytes : a.bytes.length =
    8 + headerContentLength a.header + headerPaddingLength a.header := by
  simp only [bytes, List.length_append, a.record.headerLength, a.record.contentLength,
    a.record.paddingLength]
  omega

/-- The state after the first `k` bytes of the record. -/
def At (a : Arrival) (k : Nat) (t : TestFcgiClientInterface) : Prop :=
  if k < 8 then a.HeaderAt k t
  else if k < a.bytes.length then
    ∃ buffer, a.BodyAt (min (k - 8) (headerContentLength a.header))
        (k - 8 - headerContentLength a.header) buffer t ∧
      (a.Buffered → buffer = a.content.take (k - 8))
  else a.DoneAt t

theorem at_body {k j p : Nat} {buffer : Bytes} (h : a.BodyAt j p buffer t)
    (hbuffer : a.Buffered → buffer = a.content.take j)
    (hj : j = headerContentLength a.header ∨ p = 0) (hle : j ≤ headerContentLength a.header)
    (hk : k = 8 + j + p) (hlt : k < a.bytes.length) : a.At k t := by
  have hlength := a.record.contentLength
  rw [At, if_neg (by omega), if_pos hlt]
  refine ⟨buffer, ?_, fun hb => ?_⟩
  · rw [show min (k - 8) (headerContentLength a.header) = j by omega,
      show k - 8 - headerContentLength a.header = p by omega]
    exact h
  · rw [hbuffer hb]
    rcases hj with hj | hp
    · rw [List.take_of_length_le (by omega), List.take_of_length_le (by omega)]
    · rw [show k - 8 = j by omega]

theorem at_done {k : Nat} (h : a.DoneAt t) (hk : k = a.bytes.length) : a.At k t := by
  have hlength := length_bytes (a := a)
  rw [At, if_neg (by omega), if_neg (by omega)]
  exact h

/-- The bytes taken are the first ones, and the state is that after them when
they continue the record. -/
structure Reaches (a : Arrival) (k : Nat) (data : Bytes) (r : SectionReturn)
    (u : TestFcgiClientInterface) : Prop where
  suffix : r.data <:+ data
  reached : ∀ x, data = x ++ r.data → a.Continues k x → a.At (k + x.length) u

theorem after_any {α : Type} (x : Operation α) :
    After x t (fun _ _ => True) (Thrown fun _ _ => True) := by
  unfold After
  split
  · trivial
  · trivial
  · exact fun _ => trivial

theorem length_of_append_drop {x data : Bytes} {m : Nat} (hm : m ≤ data.length)
    (h : data = x ++ data.drop m) : x.length = m := by
  have hlength := congrArg List.length h
  rw [List.length_append, List.length_drop] at hlength
  omega

/-- The rest of the bytes is received after the first of them. -/
theorem reaches_of_drop {k m : Nat} {data : Bytes} {r : SectionReturn} (hm : m ≤ data.length)
    (hsuffix : r.data <:+ data.drop m)
    (h : a.Continues k (data.take m) → a.Reaches (k + m) (data.drop m) r t) :
    a.Reaches k data r t := by
  refine ⟨hsuffix.trans (List.drop_suffix m data), fun x hx hcontinues => ?_⟩
  obtain ⟨y, hy⟩ := hsuffix
  have hsplit : x = data.take m ++ y := by
    have hsame : x ++ r.data = data.take m ++ y ++ r.data := by
      rw [← hx, List.append_assoc, hy, List.take_append_drop]
    exact List.append_cancel_right hsame
  have htake : (data.take m).length = m := List.length_take_of_le hm
  obtain ⟨z, hz⟩ := hcontinues
  rw [hsplit, List.append_assoc] at hz
  have hdrop : a.bytes.drop (k + m) = y ++ z := by
    rw [← List.drop_drop, ← hz, List.drop_left' htake]
  have hreached := (h ⟨y ++ z, hz⟩).reached y hy.symm ⟨z, hdrop.symm⟩
  rw [hsplit, List.length_append, htake, ← Nat.add_assoc]
  exact hreached

/-- All that arrived belongs to the record. -/
theorem reaches_of_at {k m : Nat} {data : Bytes} {r : SectionReturn} (hm : m ≤ data.length)
    (hdata : r.data = data.drop m) (h : a.Continues k (data.take m) → a.At (k + m) t) :
    a.Reaches k data r t := by
  refine ⟨hdata ▸ List.drop_suffix m data, fun x hx hcontinues => ?_⟩
  rw [hdata] at hx
  have hlength := length_of_append_drop hm hx
  have htake : x = data.take m := by
    rw [← hlength]
    conv_rhs => rw [hx]
    rw [List.take_left' rfl]
  rw [hlength]
  exact h (htake ▸ hcontinues)

/-! #### The bytes that a section takes -/

theorem after_receiveHeader_data (reply : SystemReply) (it : Option FcgiRequestIdentifier)
    (data : Bytes) {c : Nat} {e : ConnectionState}
    (he : t.connectionMap[c]? = some e) :
    After (receiveHeader reply c it data) t
      (fun r _ => r.data = data.drop (min data.length (8 - e.recordState.header.length)))
      (Thrown fun _ _ => True) := by
  rw [receiveHeader, after_bind]
  refine after_connectionState fun e' he' => ?_
  obtain rfl := Option.some.inj (he.symm.trans he')
  rw [after_ite]
  constructor
  · intro _
    rw [after_bind]
    refine (after_any _).mono (fun _ _ _ => ?_) fun _ _ hE => hE
    rw [after_ite]
    refine ⟨fun _ => ?_, fun _ => rfl⟩
    rw [after_bind]
    refine (after_any _).mono (fun _ _ _ => ?_) fun _ _ hE => hE
    rw [after_bind]
    refine (after_any _).mono (fun _ _ _ => ?_) fun _ _ hE => hE
    rw [after_ite]
    refine ⟨fun _ => ?_, fun _ => rfl⟩
    rw [after_bind]
    exact (after_any _).mono (fun _ _ _ => rfl) fun _ _ hE => hE
  · intro hfull
    rw [fcgiHeaderLen] at hfull
    rw [after_pure, show 8 - e.recordState.header.length = 0 by omega, Nat.min_zero]
    rfl

theorem after_receiveHeader_suffix {c : Nat} {data : Bytes} :
    After (receiveHeader reply c it data) t (fun r _ => r.data <:+ data)
      (Thrown fun _ _ => True) := by
  cases he : t.connectionMap[c]? with
  | none =>
    rw [receiveHeader, after_bind]
    exact after_connectionState fun e he' => by cases he.symm.trans he'
  | some e =>
    refine (after_receiveHeader_data _ _ _ he).mono (fun r u hr => ?_) fun _ _ hE => hE
    exact hr ▸ List.drop_suffix _ _

theorem after_receiveContent_data (it : Option FcgiRequestIdentifier) (data : Bytes)
    {c : Nat} {e : ConnectionState}
    (he : t.connectionMap[c]? = some e) :
    After (receiveContent c it data) t
      (fun r _ => r.data = data.drop (min data.length
        (e.recordState.contentBytesExpected - e.recordState.contentBytesReceived)))
      (Thrown fun _ _ => True) := by
  rw [receiveContent, after_bind]
  refine after_connectionState fun e' he' => ?_
  obtain rfl := Option.some.inj (he.symm.trans he')
  rw [after_ite]
  constructor
  · intro _
    rw [after_bind]
    refine (after_any _).mono (fun _ _ _ => ?_) fun _ _ hE => hE
    rw [after_bind]
    refine (after_any _).mono (fun _ _ _ => ?_) fun _ _ hE => hE
    rw [after_bind]
    refine (after_any _).mono (fun _ _ _ => ?_) fun _ _ hE => hE
    rw [after_ite]
    refine ⟨fun _ => ?_, fun _ => rfl⟩
    rw [after_bind]
    exact (after_any _).mono (fun _ _ _ => rfl) fun _ _ hE => hE
  · intro hfull
    rw [after_pure, show e.recordState.contentBytesExpected - e.recordState.contentBytesReceived = 0
      by omega, Nat.min_zero]
    rfl

theorem after_receivePadding_suffix {c : Nat} {data : Bytes} :
    After (receivePadding c it data) t (fun r _ => r.data <:+ data) (Thrown fun _ _ => True) := by
  rw [receivePadding, after_bind]
  refine after_connectionState fun e _ => ?_
  rw [after_ite]
  refine ⟨fun _ => ?_, fun _ => List.suffix_refl _⟩
  rw [after_bind]
  refine (after_any _).mono (fun _ _ _ => ?_) fun _ _ hE => hE
  rw [after_ite]
  refine ⟨fun _ => ?_, fun _ => List.drop_suffix _ _⟩
  rw [after_bind]
  refine (after_any _).mono (fun _ _ _ => ?_) fun _ _ hE => hE
  rw [after_bind]
  exact (after_any _).mono (fun _ _ _ => List.drop_suffix _ _) fun _ _ hE => hE

/-! #### The state after a section -/

theorem after_receivePadding_reaches {k : Nat} {data : Bytes} (h : a.At k t)
    (hk : 8 + headerContentLength a.header ≤ k) (hlt : k < a.bytes.length) :
    After (receivePadding a.c it data) t (fun r u => a.Reaches k data r u)
      (Thrown fun _ _ => True) := by
  have hlength := length_bytes (a := a)
  have hcontent := a.record.contentLength
  rw [At, if_neg (by omega), if_pos hlt, show min (k - 8) (headerContentLength a.header) =
    headerContentLength a.header by omega] at h
  obtain ⟨buffer, h, hbuffer⟩ := h
  have hfull : a.Buffered → buffer = a.content := fun hb => by
    rw [hbuffer hb, List.take_of_length_le (by omega)]
  refine (after_receivePadding h (by omega) hfull).mono (fun r u hu => ?_) fun _ _ hE => hE
  refine reaches_of_at (Nat.min_le_left _ _) hu.1 fun _ => ?_
  have hu := hu.2
  split at hu
  · exact at_done hu.1 (by omega)
  · refine at_body hu.2 (fun hb => ?_) (.inl rfl) le_rfl (by omega) (by omega)
    rw [hfull hb, List.take_of_length_le (by omega)]

/-- The rest of a round after the header. -/
def receiveBody (c : Nat) (it : Option FcgiRequestIdentifier) (data : Bytes) :
    Operation SectionReturn := do
  let r ← receiveContent c it data
  if r.completed ∨ r.data = [] then return r
  receivePadding c r.it r.data

theorem after_receiveContent_suffix {c : Nat} {data : Bytes} :
    After (receiveContent c it data) t (fun r _ => r.data <:+ data) (Thrown fun _ _ => True) := by
  cases he : t.connectionMap[c]? with
  | none =>
    rw [receiveContent, after_bind]
    exact after_connectionState fun e he' => by cases he.symm.trans he'
  | some e =>
    refine (after_receiveContent_data _ _ he).mono (fun r u hr => ?_) fun _ _ hE => hE
    exact hr ▸ List.drop_suffix _ _

theorem after_receiveBody_suffix {c : Nat} {data rest : Bytes}
    (h : After (receiveContent c it data) t (fun r _ => r.data <:+ rest)
      (Thrown fun _ _ => True)) :
    After (receiveBody c it data) t (fun r _ => r.data <:+ rest) (Thrown fun _ _ => True) := by
  rw [receiveBody, after_bind]
  refine h.mono (fun r u hr => ?_) fun _ _ hE => hE
  rw [after_ite]
  refine ⟨fun _ => hr, fun _ => ?_⟩
  exact after_receivePadding_suffix.mono (fun _ _ h' => h'.trans hr) fun _ _ hE => hE

/-- The header was received before. -/
theorem after_receiveHeader_skip {c : Nat} {e : ConnectionState} {data : Bytes}
    {Q : SectionReturn → TestFcgiClientInterface → Prop} {E : Failure → TestFcgiClientInterface → Prop}
    (he : t.connectionMap[c]? = some e) (hfull : 8 ≤ e.recordState.header.length)
    (h : Q ⟨it, data, false⟩ t) : After (receiveHeader reply c it data) t Q (Thrown E) := by
  rw [receiveHeader, after_bind]
  refine after_connectionState fun e' he' => ?_
  obtain rfl := Option.some.inj (he.symm.trans he')
  rw [after_ite]
  exact ⟨fun hlt => absurd hlt (Nat.not_lt.mpr hfull), fun _ => h⟩

/-- The content was received before. -/
theorem after_receiveContent_skip {c : Nat} {e : ConnectionState} {data : Bytes}
    {Q : SectionReturn → TestFcgiClientInterface → Prop} {E : Failure → TestFcgiClientInterface → Prop}
    (he : t.connectionMap[c]? = some e)
    (hfull : e.recordState.contentBytesExpected ≤ e.recordState.contentBytesReceived)
    (h : Q ⟨it, data, false⟩ t) : After (receiveContent c it data) t Q (Thrown E) := by
  rw [receiveContent, after_bind]
  refine after_connectionState fun e' he' => ?_
  obtain rfl := Option.some.inj (he.symm.trans he')
  rw [after_ite]
  exact ⟨fun hlt => absurd hlt (by omega), fun _ => h⟩

theorem after_receiveBody_reaches {k : Nat} {data : Bytes} (h : a.At k t) (hk : 8 ≤ k)
    (hlt : k < a.bytes.length) :
    After (receiveBody a.c it data) t (fun r u => a.Reaches k data r u)
      (Thrown fun _ _ => True) := by
  have hlength := length_bytes (a := a)
  have hcontent := a.record.contentLength
  have hat := h
  rw [At, if_neg (by omega), if_pos hlt] at h
  obtain ⟨buffer, h, hbuffer⟩ := h
  by_cases hmore : k - 8 < headerContentLength a.header
  · rw [show min (k - 8) (headerContentLength a.header) = k - 8 by omega,
      show k - 8 - headerContentLength a.header = 0 by omega] at h
    set m := min data.length (headerContentLength a.header - (k - 8)) with hm
    have hmdata : m ≤ data.length := Nat.min_le_left _ _
    have hmlength : (data.take m).length = m := List.length_take_of_le hmdata
    by_cases hx : a.Continues k (data.take m)
    · have hstored : a.Buffered → buffer ++ data.take m = a.content.take (k - 8 + m) := by
        intro hb
        have hprefix : data.take m <+: (a.content ++ a.padding).drop (k - 8) := by
          have hdrop : a.bytes.drop k = (a.content ++ a.padding).drop (k - 8) := by
            rw [bytes, List.drop_append, a.record.headerLength,
              List.drop_of_length_le (by rw [a.record.headerLength]; exact hk), List.nil_append]
          exact hdrop ▸ hx
        have htake := take_append_of_prefix hprefix (by rw [hmlength]; omega)
        rw [hbuffer hb, htake, hmlength]
      rw [receiveBody, after_bind]
      refine (after_receiveContent h hmore (fun hb hfull _ => ?_) (Nat.zero_le _)).mono
        (fun r u hu => ?_) fun _ _ hE => hE
      · rw [hstored hb, List.take_of_length_le (by omega)]
      obtain ⟨hdata, hu⟩ := hu
      rw [← hm] at hdata hu
      split at hu
      · rename_i hdone
        rw [after_ite]
        refine ⟨fun _ => ?_, fun hnot => absurd (.inl hu.2) hnot⟩
        exact reaches_of_at hmdata hdata fun _ => at_done hu.1 (by omega)
      · rename_i hopen
        obtain ⟨hcompleted, buffer', hu, hbuffer'⟩ := hu
        have hat' : a.At (k + m) u := at_body hu (fun hb => (hbuffer' hb).trans (hstored hb))
          (.inr rfl) (by omega) (by omega) (by omega)
        rw [after_ite]
        constructor
        · intro _
          exact reaches_of_at hmdata hdata fun _ => hat'
        · intro hrest
          have hne : data.drop m ≠ [] := fun hnil => hrest (.inr (hdata.trans hnil))
          have hshort : m < data.length := by
            by_contra hle
            exact hne (List.drop_of_length_le (by omega))
          refine (after_receivePadding_reaches hat' (by omega) (by omega)).mono
            (fun r' v hv => ?_) fun _ _ hE => hE
          rw [hdata] at hv
          exact reaches_of_drop hmdata hv.suffix fun _ => hv
    · obtain ⟨e', he', hrecord⟩ := h.entry
      have hbody := after_receiveContent_data it data he'
      rw [hrecord] at hbody
      have hrest : After (receiveContent a.c it data) t (fun r _ => r.data <:+ data.drop m)
          (Thrown fun _ _ => True) :=
        hbody.mono (fun _ _ hr => by rw [hr]; exact List.suffix_refl _) fun _ _ hE => hE
      refine (after_receiveBody_suffix hrest).mono (fun r u hr => ?_) fun _ _ hE => hE
      exact reaches_of_drop hmdata hr fun hcontinues => absurd hcontinues hx
  · obtain ⟨e', he', hrecord⟩ := h.entry
    rw [receiveBody, after_bind]
    refine after_receiveContent_skip he' (by rw [hrecord]; exact (by omega : headerContentLength
      a.header ≤ min (k - 8) (headerContentLength a.header))) ?_
    rw [after_ite]
    constructor
    · intro hend
      refine reaches_of_at (m := 0) (Nat.zero_le _) rfl fun _ => hat
    · intro _
      exact after_receivePadding_reaches hat (by omega) hlt

/-- A round while the record is received. -/
theorem after_receiveRound {k : Nat} {data : Bytes} (h : a.At k t) (hlt : k < a.bytes.length) :
    After (receiveRound reply a.c it data) t (fun r u => a.Reaches k data r u)
      (Thrown fun _ _ => True) := by
  have hlength := length_bytes (a := a)
  have hat := h
  rw [receiveRound, after_bind]
  by_cases hk : k < 8
  · rw [At, if_pos hk] at h
    set m := min data.length (8 - k) with hm
    have hmdata : m ≤ data.length := Nat.min_le_left _ _
    have hheader : (a.header.take k).length = k := by
      rw [List.length_take, a.record.headerLength]
      omega
    by_cases hx : a.Continues k (data.take m)
    · refine (after_receiveHeader h hk hx).mono (fun r u hu => ?_) fun _ _ hE => hE
      obtain ⟨hdata, hu⟩ := hu
      rw [← hm] at hdata hu
      rw [after_ite]
      split at hu
      · rename_i hshort
        have hall : data.drop m = [] := List.drop_of_length_le (by omega)
        refine ⟨fun _ => ?_, fun hnot => absurd (.inr (hdata.trans hall)) hnot⟩
        refine reaches_of_at hmdata hdata fun _ => ?_
        rw [At, if_pos hshort]
        exact hu.1
      · split at hu
        · refine ⟨fun _ => ?_, fun hnot => absurd (.inl hu.2) hnot⟩
          exact reaches_of_at hmdata hdata fun _ => at_done hu.1 (by omega)
        · have hat' : a.At (k + m) u := at_body hu.1 (fun _ => rfl) (.inr rfl) (Nat.zero_le _)
            (by omega) (by omega)
          refine ⟨fun _ => reaches_of_at hmdata hdata fun _ => hat', fun _ => ?_⟩
          refine (after_receiveBody_reaches hat' (by omega) (by omega)).mono
            (fun r' v hv => ?_) fun _ _ hE => hE
          rw [hdata] at hv
          exact reaches_of_drop hmdata hv.suffix fun _ => hv
    · have hentry := after_receiveHeader_data reply it data h.entry
      refine hentry.mono (fun r u hr => ?_) fun _ _ hE => hE
      have hdata : r.data = data.drop m := by
        rw [hr, hm]
        simp only [hheader]
      rw [after_ite]
      constructor
      · intro _
        exact reaches_of_at hmdata hdata fun hcontinues => absurd hcontinues hx
      · intro _
        refine (after_receiveBody_suffix after_receiveContent_suffix).mono (fun r' v hv => ?_)
          fun _ _ hE => hE
        rw [hdata] at hv
        exact reaches_of_drop hmdata hv fun hcontinues => absurd hcontinues hx
  · have hbody := h
    rw [At, if_neg hk, if_pos hlt] at hbody
    obtain ⟨buffer, hbody, -⟩ := hbody
    obtain ⟨e, he, hrecord⟩ := hbody.entry
    refine after_receiveHeader_skip he (by rw [hrecord]; exact a.record.headerLength.ge) ?_
    rw [after_ite]
    constructor
    · intro _
      exact reaches_of_at (m := 0) (Nat.zero_le _) rfl fun _ => hat
    · intro _
      exact after_receiveBody_reaches hat (by omega) hlt

end

end Arrival

/-! ## Receptions -/

/-- The reception of bytes on a connection: the iterator and the rest of the
buffer, the state, and the events that were returned meanwhile. -/
structure Reception where
  it : Option FcgiRequestIdentifier := none
  data : Bytes
  state : TestFcgiClientInterface
  returned : List ServerEvent := []

/-- The events of a reception, returned or not. -/
def Reception.events (r : Reception) : List ServerEvent := r.returned ++ r.state.microEventQueue

/-- The bytes received on connection `c` between two moments: by rounds over a
buffer, in further reads, and in further calls of `RetrieveServerEvent`, which
return events and examine the connections again. -/
inductive Takes (c : Nat) : Reception → Bytes → Reception → Prop
  | refl (r : Reception) : Takes c r [] r
  | round {reply : SystemReply} {it : Option FcgiRequestIdentifier} {data taken bytes : Bytes}
      {s t : TestFcgiClientInterface} {returned : List ServerEvent} {r : SectionReturn} {v : Reception}
      (hround : receiveRound reply c it data s = some (.ok r, t)) (hdata : data = taken ++ r.data)
      (hmore : taken ++ bytes ≠ []) (h : Takes c ⟨r.it, r.data, t, returned⟩ bytes v) :
      Takes c ⟨it, data, s, returned⟩ (taken ++ bytes) v
  | read {it : Option FcgiRequestIdentifier} {data bytes : Bytes} {s : TestFcgiClientInterface}
      {returned : List ServerEvent} {v : Reception} (hmore : bytes ≠ [])
      (h : Takes c ⟨it, data, s, returned⟩ bytes v) : Takes c ⟨it, [], s, returned⟩ bytes v
  | call {it : Option FcgiRequestIdentifier} {bytes : Bytes} {s : TestFcgiClientInterface}
      {returned events queue : List ServerEvent} {n : Int} {next : ConnectionIterator}
      {set : ExtTreeSet Nat} {v : Reception} (hmore : bytes ≠ [])
      (hqueue : s.microEventQueue = events ++ queue)
      (h : Takes c ⟨none, [], s.resume n next set queue, returned ++ events⟩ bytes v) :
      Takes c ⟨it, [], s, returned⟩ bytes v

theorem after_receiveRound_suffix {t : TestFcgiClientInterface} {reply : SystemReply}
    {it : Option FcgiRequestIdentifier} {c : Nat} {data : Bytes} :
    After (receiveRound reply c it data) t (fun r _ => r.data <:+ data)
      (Thrown fun _ _ => True) := by
  rw [receiveRound, after_bind]
  refine Arrival.after_receiveHeader_suffix.mono (fun r u hr => ?_) fun _ _ hE => hE
  rw [after_ite]
  refine ⟨fun _ => hr, fun _ => ?_⟩
  exact (Arrival.after_receiveBody_suffix Arrival.after_receiveContent_suffix).mono
    (fun _ _ h' => h'.trans hr) fun _ _ hE => hE

/-- The loop over a buffer takes its bytes. -/
theorem takes_of_receiveBuffer {reply : SystemReply} {c fuel : Nat}
    {it it' : Option FcgiRequestIdentifier} {data : Bytes} {s t : TestFcgiClientInterface}
    (returned : List ServerEvent)
    (h : receiveBuffer reply c fuel it data s = some (.ok it', t)) :
    Takes c ⟨it, data, s, returned⟩ data ⟨it', [], t, returned⟩ := by
  induction fuel generalizing it data s with
  | zero =>
    cases data with
    | nil =>
      cases h
      exact .refl _
    | cons b bs => cases h
  | succ fuel ih =>
    cases data with
    | nil =>
      cases h
      exact .refl _
    | cons b bs =>
      rw [receiveBuffer] at h
      obtain ⟨r, u, hround, hrest⟩ := bind_eq_ok h
      obtain ⟨taken, htaken⟩ := after_receiveRound_suffix.of_ok hround
      have htakes := Takes.round hround htaken.symm (by rw [htaken]; simp) (ih hrest)
      rwa [htaken] at htakes

namespace Arrival

variable {a : Arrival} {t : TestFcgiClientInterface} {v : Reception} {it : Option FcgiRequestIdentifier}
  {data : Bytes}

/-- The same record after events were returned and connections examined. -/
def resume (a : Arrival) (n : Int) (next : ConnectionIterator) (set : ExtTreeSet Nat)
    (queue : List ServerEvent) : Arrival where
  s := a.s.resume n next set queue
  c := a.c
  e := a.e
  header := a.header
  content := a.content
  padding := a.padding
  entry := a.entry
  clear := a.clear
  record := a.record

theorem checkedState_resume (s : TestFcgiClientInterface) (c : Nat) (header : Bytes) (n : Int)
    (next : ConnectionIterator) (set : ExtTreeSet Nat) (queue : List ServerEvent) :
    checkedState (s.resume n next set queue) c header =
      (checkedState s c header).resume n next set queue := by
  unfold checkedState acceptEnd
  split
  · have hpending : (s.resume n next set queue).pendingRequestMap = s.pendingRequestMap := rfl
    rw [hpending]
    cases s.pendingRequestMap[headerIdentifier c header]? with
    | none => rfl
    | some d =>
      by_cases hd : acceptsEnd (headerContentLength header) d = true ∧ d.fcgiStderr = []
      · simp only [if_pos hd]
        rfl
      · simp only [if_neg hd]
  · rfl

theorem At.queue {k : Nat} (h : a.At k t) (hk : k < a.bytes.length) :
    t.microEventQueue = a.s.microEventQueue := by
  rw [At] at h
  split at h
  · obtain ⟨n, next, set, rfl⟩ := h
    rfl
  · obtain ⟨buffer, h, -⟩ := h
    exact h.queue

theorem retracked_resume {s : TestFcgiClientInterface} (h : Retracked s t) (n : Int)
    (next : ConnectionIterator) (set : ExtTreeSet Nat) (queue : List ServerEvent) :
    Retracked (s.resume n next set queue) (t.resume n next set queue) := by
  obtain ⟨n', next', set', rfl⟩ := h
  exact ⟨n, next, set, rfl⟩

theorem At.resume {k : Nat} (h : a.At k t) (hk : k < a.bytes.length) (n : Int)
    (next : ConnectionIterator) (set : ExtTreeSet Nat) (queue : List ServerEvent) :
    (a.resume n next set queue).At k (t.resume n next set queue) := by
  rw [At] at h ⊢
  split at h
  · rename_i hheader
    rw [if_pos hheader]
    exact retracked_resume h n next set queue
  · rename_i hbody
    rw [if_neg hbody, if_pos (show k < (a.resume n next set queue).bytes.length from hk)]
    obtain ⟨buffer, h, hbuffer⟩ := h
    refine ⟨buffer, ⟨h.entry, rfl, fun hb => ?_⟩, hbuffer⟩
    have hframe := retracked_resume (h.frame hb) n next set queue
    show Retracked ((a.resume n next set queue).withRecord
      (checkedState (a.s.resume n next set queue) a.c a.header) _) _
    rw [checkedState_resume]
    exact hframe

/-- The state after the record was received. -/
theorem done_of_takes {k : Nat} {r : Reception} {bytes : Bytes} (h : Takes a.c r bytes v)
    (hat : a.At k r.state) (hbytes : a.bytes.drop k = bytes) :
    ∃ n next set queue, v.returned ++ queue = r.returned ++ a.s.microEventQueue ∧
      (a.resume n next set queue).DoneAt v.state := by
  generalize hc : a.c = c at h
  induction h generalizing a k with
  | refl r =>
    have hk : ¬ k < a.bytes.length := by
      have := congrArg List.length hbytes
      rw [List.length_drop, List.length_nil] at this
      omega
    have hlength := length_bytes (a := a)
    rw [At, if_neg (by omega), if_neg hk] at hat
    exact ⟨a.s.remainingReady, a.s.nextConnection, a.s.selectSet, _, rfl, hat⟩
  | round hround hdata hmore h ih =>
    rename_i taken bytes s t returned r v
    subst hc
    have hk : k < a.bytes.length := by
      by_contra hle
      exact hmore (hbytes ▸ List.drop_of_length_le (by omega))
    have hreaches := (after_receiveRound hat hk).of_ok hround
    have hnext := hreaches.reached taken hdata ⟨bytes, hbytes.symm⟩
    exact ih hnext (by rw [← List.drop_drop, hbytes, List.drop_left' rfl]) rfl
  | read hmore h ih => exact ih hat hbytes hc
  | call hmore hqueue h ih =>
    rename_i it bytes s returned events queue n next set v
    have hk : k < a.bytes.length := by
      by_contra hle
      exact hmore (hbytes ▸ List.drop_of_length_le (by omega))
    obtain ⟨n', next', set', queue', hreturned, hdone⟩ :=
      ih (a := a.resume n next set queue) (hat.resume hk n next set queue) hbytes hc
    refine ⟨n', next', set', queue', ?_, hdone⟩
    rw [hreturned, ← hat.queue hk, hqueue, List.append_assoc]
    rfl

end Arrival

end AsComponents.Client
