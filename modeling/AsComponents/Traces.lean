import AsComponents.Begins

/-! The batches offered for each request: their order on a connection and the
shape of the sequence for one request. -/

namespace AsComponents.Server

open Protocol NameValue SocketFunctions AsComponents.Partition Std

/-- No entry of `request_map_` is at the node. -/
def System.Gone (s : System) (node : Nat) : Prop :=
  ∀ (id : FcgiRequestIdentifier) (d : RequestData), s.requestMap[id]? = some d → d.node ≠ node

/-- The requests of a sequence of batches. -/
def origins (ts : List Transmission) : List Nat := ts.filterMap (·.origin)

/-- Stream batches, at most followed by the batch that ends the request. -/
def System.Shape (s : System) (n : Nat) (f : UInt16) (trace : List Transmission) : Prop :=
  (∀ t ∈ trace, StreamBatch f t.bytes) ∨
    s.Gone n ∧ ∃ streams appStatus protocolStatus accepted,
      trace = streams ++ [⟨some n, conclusion f appStatus protocolStatus, accepted⟩] ∧
        ∀ t ∈ streams, StreamBatch f t.bytes

/-- Nothing, or the record by which the interface ends a request. -/
def LoneEnd (n : Nat) (f : UInt16) (trace : List Transmission) : Prop :=
  trace = [] ∨ ∃ appStatus protocolStatus accepted,
    trace = [⟨some n, loneEnd f appStatus protocolStatus, accepted⟩]

/-- Everything was accepted, up to the end of the request. -/
def Completed (n : Nat) (f : UInt16) (appStatus : Int32) (protocolStatus : UInt8)
    (trace : List Transmission) : Prop :=
  ∃ streams, (∀ t ∈ streams, StreamBatch f t.bytes ∧ t.accepted = t.bytes.length) ∧
    trace = streams ++ [⟨some n, conclusion f appStatus protocolStatus,
      (conclusion f appStatus protocolStatus).length⟩]

structure Traces (s : System) : Prop where
  origin : ∀ k n, n ∈ origins (s.transmissions k) → ∃ f, s.Begun n k f
  order : ∀ k, (origins (s.transmissions k)).Pairwise fun n n' =>
    ∀ f, s.Begun n k f → s.Begun n' k f → n ≤ n'
  silent : ∀ (id : FcgiRequestIdentifier) (d : RequestData), s.requestMap[id]? = some d →
    d.requestStatus = .requestPending → s.trace d.socket d.node = []
  shape : ∀ n k f, .begun n k f true ∈ s.log → .endedByInterface n ∉ s.log →
    s.Shape n f (s.trace k n)
  ended : ∀ n k f, s.EndedByInterface n → s.Begun n k f → LoneEnd n f (s.trace k n)
  completed : ∀ n appStatus protocolStatus, .completed n appStatus protocolStatus ∈ s.log →
    s.Gone n ∧ ∃ k f, .begun n k f true ∈ s.log ∧
      Completed n f appStatus protocolStatus (s.trace k n)

/-- An event that changes nothing about what may be written. -/
def Event.Inert : Event → Prop
  | .begun .. | .endedByInterface _ | .completed .. => False
  | _ => True

namespace Traces

variable {s t : System}

theorem trace_eq {k n : Nat} (h : t.transmissions k = s.transmissions k) :
    t.trace k n = s.trace k n := by
  rw [System.trace, System.trace, h]

theorem trace_append {k n : Nat} {x : Transmission}
    (h : t.transmissions k = s.transmissions k ++ [x]) :
    t.trace k n = s.trace k n ++ if x.origin = some n then [x] else [] := by
  rw [System.trace, System.trace, h, List.filter_append, List.filter_singleton]
  by_cases hx : x.origin = some n <;> simp [hx]

theorem trace_eq_nil {k n : Nat} (h : n ∉ origins (s.transmissions k)) : s.trace k n = [] := by
  apply List.filter_eq_nil_iff.mpr
  intro x hx hn
  exact h (List.mem_filterMap.mpr ⟨x, hx, by simpa using hn⟩)

theorem shape_gone {n : Nat} {f : UInt16} {trace : List Transmission} (h : s.Shape n f trace)
    (hg : s.Gone n → t.Gone n) : t.Shape n f trace :=
  h.imp_right (And.imp_left hg)

/-- As long as a request is in the map only stream batches are offered for it. -/
theorem streams_of_data (h : Traces s) (hb : Begins s) {id : FcgiRequestIdentifier}
    {d : RequestData} (hd : s.requestMap[id]? = some d) :
    ∀ t ∈ s.trace d.socket d.node, StreamBatch id.fcgiId t.bytes := by
  have hbegun := hb.entry id d hd
  have hended : .endedByInterface d.node ∉ s.log := by
    intro he
    exact (hb.gone d.node (.inl he)).1 id d hd rfl
  rcases h.shape _ _ _ hbegun hended with hs | ⟨hgone, -⟩
  · exact hs
  · exact absurd rfl (hgone id d hd)

/-- Nothing is offered, and no request begins or is ended. -/
theorem congr (h : Traces s) (ht : t.transmissions = s.transmissions) {l : List Event}
    (hlog : t.log = l ++ s.log) (hes : ∀ e ∈ l, e.Inert)
    (hmap : ∀ (id : FcgiRequestIdentifier) (d' : RequestData), t.requestMap[id]? = some d' →
      ∃ d, s.requestMap[id]? = some d ∧ d'.node = d.node ∧ d'.socket = d.socket ∧
        (d'.requestStatus = .requestPending → d.requestStatus = .requestPending)) : Traces t := by
  have hmem : ∀ e : Event, ¬ e.Inert → (e ∈ t.log ↔ e ∈ s.log) := by
    intro e he
    rw [hlog, List.mem_append]
    exact ⟨fun hm => hm.resolve_left fun hm => he (hes e hm), .inr⟩
  have hbegun : ∀ n k f, t.Begun n k f ↔ s.Begun n k f := by
    intro n k f
    exact exists_congr fun a => hmem _ id
  have hended : ∀ n, t.EndedByInterface n ↔ s.EndedByInterface n := by
    intro n
    exact or_congr (hmem _ id) (exists_congr fun k => exists_congr fun f => hmem _ id)
  have htrace : ∀ k n, t.trace k n = s.trace k n := fun k n => trace_eq (by rw [ht])
  have hgone : ∀ n, s.Gone n → t.Gone n := by
    intro n hg id d' hd'
    obtain ⟨d, hd, hn, -⟩ := hmap id d' hd'
    rw [hn]
    exact hg id d hd
  constructor
  · intro k n hn
    rw [ht] at hn
    obtain ⟨f, hf⟩ := h.origin k n hn
    exact ⟨f, (hbegun _ _ _).mpr hf⟩
  · intro k
    rw [ht]
    simpa only [hbegun] using h.order k
  · intro id d' hd' hp
    obtain ⟨d, hd, hn, hs, hst⟩ := hmap id d' hd'
    rw [htrace, hn, hs]
    exact h.silent id d hd (hst hp)
  · intro n k f hb he
    rw [htrace]
    rw [hmem _ (by simp [Event.Inert])] at hb he
    exact shape_gone (h.shape n k f hb he) (hgone n)
  · intro n k f he hb
    rw [htrace]
    exact h.ended n k f ((hended n).mp he) ((hbegun _ _ _).mp hb)
  · intro n a p hc
    obtain ⟨hg, k, f, hb, hcomp⟩ := h.completed n a p ((hmem _ id).mp hc)
    refine ⟨hgone n hg, k, f, (hmem _ id).mpr hb, ?_⟩
    rw [htrace]
    exact hcomp

theorem same (h : Traces s) (ht : t.transmissions = s.transmissions) (hlog : t.log = s.log)
    (hmap : t.requestMap = s.requestMap) : Traces t := by
  refine h.congr (l := []) ht hlog (by simp) ?_
  intro id d hd
  rw [hmap] at hd
  exact ⟨d, hd, rfl, rfl, fun hp => hp⟩

/-- A begin record is processed. -/
theorem begun (h : Traces s) (hb : Begins s) {k : Nat} {f : UInt16} {accepted : Bool}
    (ht : t.transmissions = s.transmissions)
    (hlog : t.log = .begun s.nextNode k f accepted :: s.log)
    (hmap : ∀ (id : FcgiRequestIdentifier) (d : RequestData), t.requestMap[id]? = some d →
      s.requestMap[id]? = some d ∨ d.node = s.nextNode) : Traces t := by
  have hmem : ∀ e : Event, e ∈ t.log ↔ e = .begun s.nextNode k f accepted ∨ e ∈ s.log := by
    intro e
    rw [hlog, List.mem_cons]
  have hfresh : ∀ k' f', ¬ s.Begun s.nextNode k' f' := by
    rintro k' f' ⟨a, ha⟩
    exact Nat.lt_irrefl _ (hb.lt _ _ _ _ ha).1
  have hbegun : ∀ n k' f', n ≠ s.nextNode → (t.Begun n k' f' ↔ s.Begun n k' f') := by
    intro n k' f' hn
    refine exists_congr fun a => ?_
    rw [hmem]
    exact ⟨fun hm => hm.resolve_left (by simp [hn]), .inr⟩
  have htrace : ∀ k' n, t.trace k' n = s.trace k' n := fun k' n => trace_eq (by rw [ht])
  have hnil : ∀ k', s.trace k' s.nextNode = [] := by
    intro k'
    apply trace_eq_nil
    intro hn
    obtain ⟨f', hf'⟩ := h.origin k' _ hn
    exact hfresh k' f' hf'
  have hne : ∀ k' n, n ∈ origins (s.transmissions k') → n ≠ s.nextNode := by
    rintro k' n hn rfl
    obtain ⟨f', hf'⟩ := h.origin k' _ hn
    exact hfresh k' f' hf'
  have hgone : ∀ n, n ≠ s.nextNode → s.Gone n → t.Gone n := by
    intro n hn hg id d hd
    rcases hmap id d hd with hd' | hd'
    · exact hg id d hd'
    · rw [hd']
      exact Ne.symm hn
  constructor
  · intro k' n hn
    rw [ht] at hn
    obtain ⟨f', hf'⟩ := h.origin k' n hn
    exact ⟨f', (hbegun _ _ _ (hne k' n hn)).mpr hf'⟩
  · intro k'
    rw [ht]
    refine (h.order k').imp_of_mem ?_
    intro n n' hn hn' ho f' hb₁ hb₂
    exact ho f' ((hbegun _ _ _ (hne k' n hn)).mp hb₁) ((hbegun _ _ _ (hne k' n' hn')).mp hb₂)
  · intro id d hd hp
    rw [htrace]
    rcases hmap id d hd with hd' | hd'
    · exact h.silent id d hd' hp
    · rw [hd']
      exact hnil _
  · intro n k' f' hb' he
    rw [htrace]
    by_cases hn : n = s.nextNode
    · left
      rw [hn, hnil]
      simp
    · refine shape_gone (h.shape n k' f' ?_ ?_) (hgone n hn)
      · exact ((hmem _).mp hb').resolve_left (by simp [hn])
      · exact fun he' => he ((hmem _).mpr (.inr he'))
  · intro n k' f' he hb'
    rw [htrace]
    by_cases hn : n = s.nextNode
    · left
      rw [hn, hnil]
    · refine h.ended n k' f' ?_ ((hbegun _ _ _ hn).mp hb')
      rcases he with he | ⟨k₁, f₁, he⟩
      · exact .inl (((hmem _).mp he).resolve_left (by simp))
      · exact .inr ⟨k₁, f₁, ((hmem _).mp he).resolve_left (by simp [hn])⟩
  · intro n a p hc
    obtain ⟨hg, k', f', hb', hcomp⟩ := h.completed n a p (((hmem _).mp hc).resolve_left (by simp))
    refine ⟨hgone n ?_ hg, k', f', (hmem _).mpr (.inr hb'), ?_⟩
    · rintro rfl
      exact hfresh k' f' ⟨true, hb'⟩
    · rw [htrace]
      exact hcomp

/-- The interface removes a request and will end it. -/
theorem removed (h : Traces s) (hb : Begins s) {id : FcgiRequestIdentifier} {d : RequestData}
    (hd : s.requestMap[id]? = some d) (hpending : d.requestStatus = .requestPending)
    (ht : t.transmissions = s.transmissions) (hlog : t.log = .endedByInterface d.node :: s.log)
    (hmap : t.requestMap = s.requestMap.erase id) : Traces t := by
  have hmem : ∀ e : Event, e ∈ t.log ↔ e = .endedByInterface d.node ∨ e ∈ s.log := by
    intro e
    rw [hlog, List.mem_cons]
  have hbegun : ∀ n k f, t.Begun n k f ↔ s.Begun n k f := by
    intro n k f
    exact exists_congr fun a => by simp [hmem]
  have htrace : ∀ k n, t.trace k n = s.trace k n := fun k n => trace_eq (by rw [ht])
  have hdata : ∀ (id' : FcgiRequestIdentifier) (d' : RequestData), t.requestMap[id']? = some d' →
      s.requestMap[id']? = some d' := by
    intro id' d' hd'
    rw [hmap] at hd'
    grind
  have hgone : ∀ n, s.Gone n → t.Gone n := fun n hg id' d' hd' => hg id' d' (hdata id' d' hd')
  constructor
  · intro k n hn
    rw [ht] at hn
    obtain ⟨f, hf⟩ := h.origin k n hn
    exact ⟨f, (hbegun _ _ _).mpr hf⟩
  · intro k
    rw [ht]
    simpa only [hbegun] using h.order k
  · intro id' d' hd' hp
    rw [htrace]
    exact h.silent id' d' (hdata id' d' hd') hp
  · intro n k f hb' he
    rw [htrace]
    refine shape_gone (h.shape n k f ?_ ?_) (hgone n)
    · exact ((hmem _).mp hb').resolve_left (by simp)
    · exact fun he' => he ((hmem _).mpr (.inr he'))
  · intro n k f he hb'
    rw [htrace]
    have hb'' := (hbegun _ _ _).mp hb'
    have hcases : n = d.node ∨ s.EndedByInterface n := by
      rcases he with he | ⟨k', f', he⟩
      · rcases (hmem _).mp he with he | he
        · cases he
          exact .inl rfl
        · exact .inr (.inl he)
      · exact .inr (.inr ⟨k', f', ((hmem _).mp he).resolve_left (by simp)⟩)
    rcases hcases with rfl | he'
    · left
      obtain ⟨rfl, -⟩ := hb.begun_inj hb'' ⟨true, hb.entry id d hd⟩
      exact h.silent id d hd hpending
    · exact h.ended n k f he' hb''
  · intro n a p hc
    obtain ⟨hg, k, f, hb', hcomp⟩ := h.completed n a p (((hmem _).mp hc).resolve_left (by simp))
    refine ⟨hgone n hg, k, f, (hmem _).mpr (.inr hb'), ?_⟩
    rw [htrace]
    exact hcomp

/-- A batch is offered that belongs to no request. -/
theorem management (h : Traces s) {k : Nat} {x : Transmission} (hx : x.origin = none)
    (ht : t.transmissions = Function.update s.transmissions k (s.transmissions k ++ [x]))
    (hlog : t.log = s.log) (hmap : t.requestMap = s.requestMap) : Traces t := by
  have htrace : ∀ k' n, t.trace k' n = s.trace k' n := by
    intro k' n
    by_cases hk : k' = k
    · subst hk
      rw [trace_append (s := s) (x := x) (by simp [ht]), if_neg (by simp [hx]), List.append_nil]
    · exact trace_eq (by simp [ht, hk])
  have horigins : ∀ k', origins (t.transmissions k') = origins (s.transmissions k') := by
    intro k'
    by_cases hk : k' = k
    · subst hk
      simp [origins, ht, hx]
    · simp [ht, hk]
  have hbegun : ∀ n k f, t.Begun n k f ↔ s.Begun n k f := by
    intro n k f
    simp only [System.Begun, hlog]
  constructor
  · intro k' n hn
    rw [horigins] at hn
    obtain ⟨f, hf⟩ := h.origin k' n hn
    exact ⟨f, (hbegun _ _ _).mpr hf⟩
  · intro k'
    rw [horigins]
    simpa only [hbegun] using h.order k'
  · intro id d hd hp
    rw [htrace]
    rw [hmap] at hd
    exact h.silent id d hd hp
  · intro n k' f hb he
    rw [htrace]
    rw [hlog] at hb he
    exact shape_gone (h.shape n k' f hb he) (by simp only [System.Gone, hmap]; exact fun hg => hg)
  · intro n k' f he hb
    rw [htrace]
    refine h.ended n k' f ?_ ((hbegun _ _ _).mp hb)
    simpa only [System.EndedByInterface, hlog] using he
  · intro n a p hc
    rw [hlog] at hc
    obtain ⟨hg, k', f, hb, hcomp⟩ := h.completed n a p hc
    refine ⟨by simpa only [System.Gone, hmap] using hg, k', f, by rw [hlog]; exact hb, ?_⟩
    rw [htrace]
    exact hcomp

/-- A batch is offered for the latest request of an id. -/
theorem offer (h : Traces s) (hb : Begins s) {k n : Nat} {f : UInt16} {x : Transmission}
    (hx : x.origin = some n)
    (ht : t.transmissions = Function.update s.transmissions k (s.transmissions k ++ [x]))
    {l : List Event} (hlog : t.log = l ++ s.log) (hes : ∀ e ∈ l, e.Inert)
    (hmap : ∀ (id : FcgiRequestIdentifier) (d : RequestData), t.requestMap[id]? = some d →
      s.requestMap[id]? = some d)
    (hbegun : s.Begun n k f) (hlatest : ∀ n', s.Begun n' k f → n' ≤ n)
    (hsilent : ∀ (id : FcgiRequestIdentifier) (d : RequestData), s.requestMap[id]? = some d →
      d.node = n → d.requestStatus ≠ .requestPending)
    (hshape : .begun n k f true ∈ s.log → .endedByInterface n ∉ s.log →
      t.Shape n f (s.trace k n ++ [x]))
    (hended : s.EndedByInterface n → LoneEnd n f (s.trace k n ++ [x]))
    (hcompleted : ∀ a p, .completed n a p ∉ s.log) : Traces t := by
  have hmem : ∀ e : Event, ¬ e.Inert → (e ∈ t.log ↔ e ∈ s.log) := by
    intro e he
    rw [hlog, List.mem_append]
    exact ⟨fun hm => hm.resolve_left fun hm => he (hes e hm), .inr⟩
  have hbegun' : ∀ n' k' f', t.Begun n' k' f' ↔ s.Begun n' k' f' := by
    intro n' k' f'
    exact exists_congr fun a => hmem _ id
  have hended' : ∀ n', t.EndedByInterface n' ↔ s.EndedByInterface n' := by
    intro n'
    exact or_congr (hmem _ id) (exists_congr fun k => exists_congr fun f => hmem _ id)
  have hgone : ∀ n', s.Gone n' → t.Gone n' := fun n' hg id d hd => hg id d (hmap id d hd)
  have htrace : ∀ k' n', n' ≠ n → t.trace k' n' = s.trace k' n' := by
    intro k' n' hn
    by_cases hk : k' = k
    · subst hk
      rw [trace_append (s := s) (x := x) (by simp [ht]), if_neg (by simp [hx, Ne.symm hn]),
        List.append_nil]
    · exact trace_eq (by simp [ht, hk])
  have htrace' : t.trace k n = s.trace k n ++ [x] := by
    rw [trace_append (s := s) (x := x) (by simp [ht]), if_pos hx]
  constructor
  · intro k' n' hn
    by_cases hk : k' = k
    · subst hk
      simp only [ht, Function.update_self, origins, List.filterMap_append, List.mem_append] at hn
      rcases hn with hn | hn
      · obtain ⟨f', hf'⟩ := h.origin k' n' hn
        exact ⟨f', (hbegun' _ _ _).mpr hf'⟩
      · obtain rfl : n' = n := by simpa [hx] using hn
        exact ⟨f, (hbegun' _ _ _).mpr hbegun⟩
    · simp only [ht, Function.update_of_ne hk] at hn
      obtain ⟨f', hf'⟩ := h.origin k' n' hn
      exact ⟨f', (hbegun' _ _ _).mpr hf'⟩
  · intro k'
    simp only [hbegun']
    by_cases hk : k' = k
    · subst hk
      have he : origins (t.transmissions k') = origins (s.transmissions k') ++ [n] := by
        simp [ht, origins, hx]
      rw [he]
      refine List.pairwise_append.mpr ⟨h.order k', List.pairwise_singleton _ _, ?_⟩
      intro n₁ _ n₂ hn₂ f' hb₁ hb₂
      obtain rfl := List.mem_singleton.mp hn₂
      obtain ⟨-, rfl⟩ := hb.begun_inj hb₂ hbegun
      exact hlatest n₁ hb₁
    · simpa [ht, hk] using h.order k'
  · intro id d hd hp
    have hd' := hmap id d hd
    have hn : d.node ≠ n := fun he => hsilent id d hd' he hp
    rw [htrace _ _ hn]
    exact h.silent id d hd' hp
  · intro n' k' f' hb' he
    rw [hmem _ (by simp [Event.Inert])] at hb' he
    by_cases hn : n' = n
    · subst hn
      obtain ⟨rfl, rfl⟩ := hb.begun_inj ⟨true, hb'⟩ hbegun
      rw [htrace']
      exact hshape hb' he
    · rw [htrace _ _ hn]
      exact shape_gone (h.shape n' k' f' hb' he) (hgone n')
  · intro n' k' f' he hb'
    have he' := (hended' n').mp he
    have hb'' := (hbegun' _ _ _).mp hb'
    by_cases hn : n' = n
    · subst hn
      obtain ⟨rfl, rfl⟩ := hb.begun_inj hb'' hbegun
      rw [htrace']
      exact hended he'
    · rw [htrace _ _ hn]
      exact h.ended n' k' f' he' hb''
  · intro n' a p hc
    have hc' := (hmem _ id).mp hc
    have hn : n' ≠ n := by
      rintro rfl
      exact hcompleted a p hc'
    obtain ⟨hg, k', f', hb', hcomp⟩ := h.completed n' a p hc'
    refine ⟨hgone n' hg, k', f', (hmem _ id).mpr hb', ?_⟩
    rw [htrace _ _ hn]
    exact hcomp

/-- More of the last batch is accepted, which belongs to a request in the map. -/
theorem round (h : Traces s) (hb : Begins s) {k n : Nat} {before : List Transmission}
    {bytes : Bytes} {accepted : Nat} (accepted' : Nat) {id : FcgiRequestIdentifier} {d : RequestData}
    (hd : s.requestMap[id]? = some d) (hn : d.node = n) (ha : d.requestStatus = .requestAssigned)
    (hobj : Objects s) (hs : s.transmissions k = before ++ [⟨some n, bytes, accepted⟩])
    (ht : t.transmissions =
      Function.update s.transmissions k (before ++ [⟨some n, bytes, accepted'⟩]))
    (hlog : t.log = s.log) (hmap : t.requestMap = s.requestMap) : Traces t := by
  have hbegun : ∀ n k f, t.Begun n k f ↔ s.Begun n k f := by
    intro n k f
    simp only [System.Begun, hlog]
  have horigins : ∀ k', origins (t.transmissions k') = origins (s.transmissions k') := by
    intro k'
    by_cases hk : k' = k
    · subst hk
      simp [origins, ht, hs]
    · simp [ht, hk]
  have htrace : ∀ k' n', n' ≠ n → t.trace k' n' = s.trace k' n' := by
    intro k' n' hne
    by_cases hk : k' = k
    · subst hk
      simp only [System.trace, ht, hs, Function.update_self, List.filter_append,
        List.filter_singleton]
      simp [Ne.symm hne]
    · exact trace_eq (by simp [ht, hk])
  have hbytes : ∀ k', ∀ x ∈ t.trace k' n, ∃ y ∈ s.trace k' n, y.bytes = x.bytes := by
    intro k' x hx
    by_cases hk : k' = k
    · subst hk
      simp only [System.trace, ht, hs, Function.update_self, List.mem_filter, List.mem_append] at hx ⊢
      obtain ⟨hx | hx, ho⟩ := hx
      · exact ⟨x, ⟨.inl hx, ho⟩, rfl⟩
      · obtain rfl := List.mem_singleton.mp hx
        exact ⟨⟨some n, bytes, accepted⟩, ⟨.inr (by simp), by simp⟩, rfl⟩
    · rw [trace_eq (s := s) (by simp [ht, hk])] at hx
      exact ⟨x, hx, rfl⟩
  constructor
  · intro k' n' hm
    rw [horigins] at hm
    obtain ⟨f, hf⟩ := h.origin k' n' hm
    exact ⟨f, (hbegun _ _ _).mpr hf⟩
  · intro k'
    rw [horigins]
    simpa only [hbegun] using h.order k'
  · intro id' d' hd' hp
    rw [hmap] at hd'
    have hne : d'.node ≠ n := by
      intro he
      obtain rfl := hobj.node_inj id' id d' d hd' hd (he.trans hn.symm)
      rw [hd, Option.some.injEq] at hd'
      subst hd'
      rw [ha] at hp
      cases hp
    rw [htrace _ _ hne]
    exact h.silent id' d' hd' hp
  · intro n' k' f hb' he
    rw [hlog] at hb' he
    by_cases hne : n' = n
    · subst hne
      subst hn
      obtain ⟨rfl, rfl, -⟩ := hb.inj hb' (hb.entry id d hd)
      left
      intro x hx
      obtain ⟨y, hy, hxy⟩ := hbytes _ x hx
      rw [← hxy]
      exact h.streams_of_data hb hd y hy
    · rw [htrace _ _ hne]
      exact shape_gone (h.shape n' k' f hb' he) (by simp only [System.Gone, hmap]; exact fun hg => hg)
  · intro n' k' f he hb'
    have he' : s.EndedByInterface n' := by simpa only [System.EndedByInterface, hlog] using he
    have hne : n' ≠ n := by
      rintro rfl
      exact (hb.gone n' he').1 id d hd hn
    rw [htrace _ _ hne]
    exact h.ended n' k' f he' ((hbegun _ _ _).mp hb')
  · intro n' a p hc
    rw [hlog] at hc
    obtain ⟨hg, k', f, hb', hcomp⟩ := h.completed n' a p hc
    have hne : n' ≠ n := by
      rintro rfl
      exact hg id d hd hn
    refine ⟨by simpa only [System.Gone, hmap] using hg, k', f, by rw [hlog]; exact hb', ?_⟩
    rw [htrace _ _ hne]
    exact hcomp

theorem retired (h : Traces s) (i : Nat) (o : FcgiRequest) (n : Nat) : Traces (s.retired i o n) := by
  refine h.congr (l := [.removed (s.requests i).node (some (s.requests i).node) true]) rfl rfl
    (by simp [Event.Inert]) ?_
  intro id d hd
  simp only [System.retired, System.setRequest, System.record, System.eraseRequest] at hd
  exact ⟨d, by grind, rfl, rfl, fun hp => hp⟩

/-- What the map says about the request of an object: it is the latest of its
id, not ended and not completed. -/
theorem owned (h : Traces s) (hb : Begins s) (hobj : Objects s) {i : Nat} {d : RequestData}
    (owns : Owns s i d) :
    s.Begun (s.requests i).node (s.requests i).socket (s.requests i).requestIdentifier.fcgiId ∧
      (∀ n, s.Begun n (s.requests i).socket (s.requests i).requestIdentifier.fcgiId →
        n ≤ (s.requests i).node) ∧
      (∀ (id : FcgiRequestIdentifier) (e : RequestData), s.requestMap[id]? = some e →
        e.node = (s.requests i).node → e.requestStatus ≠ .requestPending) ∧
      (∀ t ∈ s.trace (s.requests i).socket (s.requests i).node,
        StreamBatch (s.requests i).requestIdentifier.fcgiId t.bytes) ∧
      ¬ s.EndedByInterface (s.requests i).node ∧
      ∀ a p, .completed (s.requests i).node a p ∉ s.log := by
  obtain ⟨d', owns', hsocket⟩ := hobj.owns owns.good i owns.live
  obtain rfl : d = d' := Option.some.inj (owns.data.symm.trans owns'.data)
  rw [← owns.node, ← hsocket]
  refine ⟨⟨true, hb.entry _ d owns.data⟩, hb.latest _ d owns.data, ?_, h.streams_of_data hb owns.data,
    ?_, ?_⟩
  · intro id e he hn hp
    obtain rfl := hobj.node_inj _ _ e d he owns.data hn
    rw [owns.data, Option.some.injEq] at he
    subst he
    rw [owns.assigned] at hp
    cases hp
  · intro he
    exact (hb.gone _ he).1 _ d owns.data rfl
  · intro a p hc
    exact (h.completed _ a p hc).1 _ d owns.data rfl

theorem requestMove (h : Traces s) (hb : Begins s) (hobj : Objects s) (hw : Wires s) {i : Nat}
    (hm : RequestMove i s t) : Traces t := by
  cases hm with
  | retire => exact h.retired i _ _
  | @conclude d o n m a p socket accepted corrupt owns _ _ _ hown hoffer =>
    obtain ⟨hbegun, hlatest, hsilent, hstreams, hended, hcompleted⟩ := h.owned hb hobj owns
    rw [← hown] at hbegun hlatest hstreams
    refine h.offer hb (k := m.socket) (n := (s.requests i).node)
      (x := ⟨some (s.requests i).node, _, accepted⟩) rfl rfl
      (l := [.removed (s.requests i).node (some (s.requests i).node) true]) rfl
      (by simp [Event.Inert]) ?_ hbegun hlatest hsilent ?_ ?_ hcompleted
    · intro id e he
      simp only [System.retired, System.setRequest, System.record, System.eraseRequest,
        System.offered, System.setWriteMutex, System.setTransmissions, System.setSocket] at he
      grind
    · intro _ _
      right
      refine ⟨?_, _, a, p, accepted, rfl, hstreams⟩
      intro id e he hn
      have he' : s.requestMap[id]? = some e ∧ id ≠ (s.requests i).requestIdentifier := by
        simp only [System.retired, System.setRequest, System.record, System.eraseRequest,
          System.offered, System.setWriteMutex, System.setTransmissions, System.setSocket] at he
        grind
      exact he'.2 (hobj.node_inj _ _ e d he'.1 owns.data (hn.trans owns.node.symm))
    · intro he
      exact absurd he hended
  | @note node k f a p streams hbegun hgone hwhole htrace =>
    have hmem : ∀ e : Event, e ∈ (s.record (.completed node a p)).log ↔
        e = .completed node a p ∨ e ∈ s.log := by
      intro e
      exact List.mem_cons
    have hbegun' : ∀ n k f, (s.record (.completed node a p)).Begun n k f ↔ s.Begun n k f := by
      intro n k f
      exact exists_congr fun a => by simp [hmem]
    constructor
    · intro k' n hn
      obtain ⟨f', hf'⟩ := h.origin k' n hn
      exact ⟨f', (hbegun' _ _ _).mpr hf'⟩
    · intro k'
      simp only [hbegun']
      exact h.order k'
    · exact h.silent
    · intro n k' f' hb' he
      refine h.shape n k' f' ?_ ?_
      · exact ((hmem _).mp hb').resolve_left (by simp)
      · exact fun he' => he ((hmem _).mpr (.inr he'))
    · intro n k' f' he hb'
      refine h.ended n k' f' ?_ ((hbegun' _ _ _).mp hb')
      simpa [System.EndedByInterface, hmem] using he
    · intro n a' p' hc
      rcases (hmem _).mp hc with he | hc
      · cases he
        exact ⟨hgone, k, f, (hmem _).mpr (.inr hbegun), streams, hwhole, htrace⟩
      · obtain ⟨hg, k', f', hb', hcomp⟩ := h.completed n a' p' hc
        exact ⟨hg, k', f', (hmem _).mpr (.inr hb'), hcomp⟩
  | @acquire d m rest bytes type iovec owns hresting hheld hm hown hfree hintact _ hflat _ hbatch =>
    obtain ⟨hbegun, hlatest, hsilent, hstreams, hended, hcompleted⟩ := h.owned hb hobj owns
    rw [← hown] at hbegun hlatest hstreams
    refine h.offer hb (k := m.socket) (n := (s.requests i).node)
      (x := ⟨some (s.requests i).node, bytes, 0⟩) rfl rfl (l := []) rfl (by simp)
      (fun _ _ he => he) hbegun hlatest hsilent ?_ ?_ hcompleted
    · intro _ _
      left
      intro t ht
      rcases List.mem_append.mp ht with ht | ht
      · exact hstreams t ht
      · obtain rfl := List.mem_singleton.mp ht
        exact hbatch
    · intro he
      exact absurd he hended
  | @progress _ _ _ _ _ total remaining _ hcall ha hlen =>
    obtain ⟨before, bytes, hts, hup, -⟩ := hw.round hcall ha
    rw [hlen] at hup
    obtain ⟨d, hd, hn, hassigned⟩ := (hw.writing i _ _ _ _ _ hcall).data
    refine h.round hb (total - remaining) hd hn hassigned hobj hts ?_ rfl rfl
    rw [← hup]
    rfl
  | @leave _ _ _ _ total remaining _ _ _ _ _ hcall hm ha hlen =>
    obtain ⟨before, bytes, hts, hup, -⟩ := hw.round hcall ha
    rw [hlen] at hup
    obtain ⟨d, hd, hn, hassigned⟩ := (hw.writing i _ _ _ _ _ hcall).data
    refine h.round hb (total - remaining) hd hn hassigned hobj hts ?_ rfl rfl
    rw [← hup]
    rfl
  | _ => exact h.same rfl rfl rfl

theorem interfaceMove (h : Traces s) (hb : Begins s) (hobj : Objects s)
    (hw : Wires s) {loose : Option Nat} (hm : InterfaceMove loose s t) : Traces t := by
  cases hm with
  | request i hm => exact h.requestMove hb hobj hw hm
  | beginRequest hnew =>
    refine h.begun hb rfl rfl ?_
    intro id' d hd
    simp only [ExtTreeMap.getElem?_insert] at hd
    split at hd
    · cases hd
      exact .inr rfl
    · exact .inl hd
  | reject => exact h.begun hb rfl rfl fun _ _ hd => .inl hd
  | touch hd hsame =>
    refine h.congr (l := []) rfl rfl (by simp) ?_
    intro id' d' hd'
    have h₁ := hsame.node
    have h₂ := hsame.socket
    have h₃ := hsame.requestStatus
    simp only [System.setData] at hd'
    grind
  | @remove id d n ended hd hpending hcount =>
    cases ended with
    | true => exact h.removed hb hd hpending rfl rfl rfl
    | false =>
      refine h.congr (l := []) rfl rfl (by simp) ?_
      intro id' d' hd'
      simp only [System.eraseRequest] at hd'
      exact ⟨d', by grind, rfl, rfl, fun hp => hp⟩
  | @construct id d m hgood halive hd hpending =>
    refine h.congr (l := [.constructed d.node]) rfl rfl (by simp [Event.Inert]) ?_
    intro id' d' hd'
    simp only [ExtTreeMap.getElem?_insert] at hd'
    split at hd'
    · rename_i he
      cases hd'
      obtain rfl := LawfulEqCmp.eq_of_compare he
      exact ⟨d, hd, rfl, rfl, fun hp => by cases hp⟩
    · exact ⟨d', hd', rfl, rfl, fun hp => hp⟩
  | @send c m origin bytes socket accepted corrupt hoffer hrecord hpurpose =>
    cases origin with
    | none => exact h.management (k := m.socket) (x := ⟨none, bytes, accepted⟩) rfl rfl rfl rfl
    | some n =>
      obtain ⟨f, a, p, hending, rfl⟩ := hpurpose n rfl
      obtain ⟨m', hm', hbegun, hlatest, hnil⟩ := hending.begun
      obtain rfl : m' = m := Option.some.inj (hm'.symm.trans hoffer.mutex)
      refine h.offer hb (k := m'.socket) (n := n) (x := ⟨some n, loneEnd f a p, accepted⟩) rfl rfl
        (l := []) rfl (by simp) (fun _ _ he => he) hbegun hlatest ?_ ?_ ?_ ?_
      · intro id d hd hn
        exact absurd hn (hending.gone id d hd)
      · intro hb₁ hb₂
        exfalso
        rcases hending.ended with he | ⟨k, f', he⟩
        · exact hb₂ he
        · exact absurd (hb.inj hb₁ he).2.2 (by simp)
      · intro _
        rw [hnil]
        exact .inr ⟨a, p, accepted, rfl⟩
      · intro a' p' hc
        obtain ⟨-, k, f', hb', streams, -, htrace⟩ := h.completed n a' p' hc
        obtain ⟨rfl, -⟩ := hb.begun_inj hbegun ⟨true, hb'⟩
        rw [hnil] at htrace
        simp at htrace
  | closeDummy | closeConnection =>
    refine h.congr (l := [.closed _ _ _ _]) rfl rfl (by simp [Event.Inert]) ?_
    intro id d hd
    exact ⟨d, hd, rfl, rfl, fun hp => hp⟩
  | @makeDummy c m requests hmutex _ hflag =>
    refine h.congr (l := []) rfl rfl (by simp) ?_
    intro id d' hd'
    have hd'' : requests[id]? = some d' := hd'
    rw [hflag id] at hd''
    split at hd''
    · rw [Option.map_eq_some_iff] at hd''
      obtain ⟨d, hd, rfl⟩ := hd''
      exact ⟨d, hd, rfl, rfl, fun hp => hp⟩
    · exact ⟨d', hd'', rfl, rfl, fun hp => hp⟩
  | flag _ hd =>
    refine h.congr (l := []) rfl rfl (by simp) ?_
    intro id' d' hd'
    simp only [System.setData] at hd'
    grind
  | register =>
    refine h.congr (l := [.registered _ _]) rfl rfl (by simp [Event.Inert]) ?_
    intro id d hd
    exact ⟨d, hd, rfl, rfl, fun hp => hp⟩
  | destroy =>
    refine h.congr rfl rfl ?_ ?_
    · intro e he
      obtain ⟨c, -, rfl⟩ := List.mem_map.mp he
      trivial
    · intro id d hd
      simp at hd
  | _ => exact h.same rfl rfl rfl

end Traces

end AsComponents.Server
