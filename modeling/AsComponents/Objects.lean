import AsComponents.Counts

/-! The request objects that are alive and the assigned requests correspond to
each other. -/

namespace AsComponents.Server

open Protocol NameValue SocketFunctions AsComponents.Partition Std

structure Objects (s : System) : Prop where
  fresh : ∀ i, s.nextRequest ≤ i → s.requests i = {}
  node_lt : ∀ (id : FcgiRequestIdentifier) (d : RequestData), s.requestMap[id]? = some d →
    d.node < s.nextNode
  node_inj : ∀ (id id' : FcgiRequestIdentifier) (d d' : RequestData), s.requestMap[id]? = some d →
    s.requestMap[id']? = some d' → d.node = d'.node → id = id'
  owns : s.badInterfaceStateDetected = false → ∀ i, s.Live i →
    ∃ d, Owns s i d ∧ d.socket = (s.requests i).socket
  owned : s.badInterfaceStateDetected = false →
    ∀ (id : FcgiRequestIdentifier) (d : RequestData), s.requestMap[id]? = some d →
      d.requestStatus = .requestAssigned → ∃ i, s.Live i ∧ (s.requests i).requestIdentifier = id
  inj : s.badInterfaceStateDetected = false → ∀ i j, s.Live i → s.Live j →
    (s.requests i).requestIdentifier = (s.requests j).requestIdentifier → i = j
  held_idle : ∀ i, (s.requests i).held = true → (s.requests i).call = .idle
  idle : ∀ i, (s.requests i).completed = true ∨ (s.requests i).associatedInterfaceId = 0 →
    (s.requests i).call = .idle
  output : ∀ i, (s.requests i).call.Output
  complete : ∀ (id : FcgiRequestIdentifier) (d : RequestData), s.requestMap[id]? = some d →
    d.requestStatus = .requestAssigned → d.AllComplete
  removed : ∀ node found returned, Event.removed node found returned ∈ s.log →
    found = some node ∧ returned = true

/-- An object by which the interface would find a request. -/
def FcgiRequest.LiveFor (o : FcgiRequest) (interfaceIdentifier : Nat) : Prop :=
  o.associatedInterfaceId = interfaceIdentifier ∧ interfaceIdentifier ≠ 0 ∧ o.completed = false

theorem Owns.offered {s : System} {i : Nat} {d : RequestData} (h : Owns s i d) (c : Nat)
    (m : WriteMutex) (origin : Option Nat) (bytes : Bytes) (socket : Socket) (accepted : Nat)
    (corrupt : Bool) : Owns (s.offered c m origin bytes socket accepted corrupt) i d :=
  ⟨h.good, h.live, h.data, h.node, h.assigned⟩

namespace Objects

variable {s t : System}

theorem live_null {s : System} {i : Nat} (h : s.requests i = {}) : ¬ s.Live i := by
  rintro ⟨ha, hn, -⟩
  rw [h] at ha
  exact hn ha.symm

/-- One object changes and remains what it was to the interface. -/
theorem update (h : Objects s) {i : Nat} {o : FcgiRequest}
    (hreq : t.requests = Function.update s.requests i o) (hnext : t.nextRequest = s.nextRequest)
    (hmap : t.requestMap = s.requestMap) (hnode : t.nextNode = s.nextNode) (hlog : t.log = s.log)
    (hid : t.interfaceIdentifier = s.interfaceIdentifier)
    (hbad : t.badInterfaceStateDetected = s.badInterfaceStateDetected)
    (hfresh : s.nextRequest ≤ i → o = {})
    (hlive : s.badInterfaceStateDetected = false → (o.LiveFor s.interfaceIdentifier ↔ s.Live i))
    (hsame : s.badInterfaceStateDetected = false → s.Live i →
      o.requestIdentifier = (s.requests i).requestIdentifier ∧ o.node = (s.requests i).node ∧
        o.socket = (s.requests i).socket)
    (hheld : o.held = true → o.call = .idle)
    (hidle : o.completed = true ∨ o.associatedInterfaceId = 0 → o.call = .idle)
    (houtput : o.call.Output) : Objects t := by
  have hlive' : s.badInterfaceStateDetected = false → ∀ j, t.Live j ↔ s.Live j := by
    intro hb j
    by_cases hj : j = i
    · subst hj
      rw [← hlive hb]
      simp [System.Live, FcgiRequest.LiveFor, hreq, hid]
    · simp [System.Live, hreq, hid, hj]
  have hsame' : s.badInterfaceStateDetected = false → ∀ j, s.Live j →
      (t.requests j).requestIdentifier = (s.requests j).requestIdentifier ∧
        (t.requests j).node = (s.requests j).node ∧ (t.requests j).socket = (s.requests j).socket := by
    intro hb j hj
    by_cases hji : j = i
    · subst hji
      simpa [hreq] using hsame hb hj
    · simp [hreq, hji]
  constructor
  · intro j hj
    rw [hreq]
    by_cases hji : j = i
    · subst hji
      simpa using hfresh (hnext ▸ hj)
    · simpa [hji] using h.fresh j (hnext ▸ hj)
  · rw [hmap, hnode]
    exact h.node_lt
  · rw [hmap]
    exact h.node_inj
  · intro hb j hj
    rw [hbad] at hb
    obtain ⟨d, hd, hsocket⟩ := h.owns hb j ((hlive' hb j).mp hj)
    obtain ⟨h₁, h₂, h₃⟩ := hsame' hb j hd.live
    refine ⟨d, ⟨hbad.trans hb, hj, ?_, ?_, hd.assigned⟩, ?_⟩
    · rw [hmap, h₁]
      exact hd.data
    · rw [h₂]
      exact hd.node
    · rw [h₃]
      exact hsocket
  · intro hb id d hd ha
    rw [hbad] at hb
    rw [hmap] at hd
    obtain ⟨j, hj, hjid⟩ := h.owned hb id d hd ha
    exact ⟨j, (hlive' hb j).mpr hj, (hsame' hb j hj).1.trans hjid⟩
  · intro hb j k hj hk hjk
    rw [hbad] at hb
    have hj' := (hlive' hb j).mp hj
    have hk' := (hlive' hb k).mp hk
    rw [(hsame' hb j hj').1, (hsame' hb k hk').1] at hjk
    exact h.inj hb j k hj' hk' hjk
  · intro j hj
    rw [hreq] at hj ⊢
    by_cases hji : j = i
    · subst hji
      simp only [Function.update_self] at hj ⊢
      exact hheld hj
    · simp only [Function.update_of_ne hji] at hj ⊢
      exact h.held_idle j hj
  · intro j hj
    rw [hreq] at hj ⊢
    by_cases hji : j = i
    · subst hji
      simp only [Function.update_self] at hj ⊢
      exact hidle hj
    · simp only [Function.update_of_ne hji] at hj ⊢
      exact h.idle j hj
  · intro j
    rw [hreq]
    by_cases hji : j = i
    · subst hji
      simpa using houtput
    · simpa [hji] using h.output j
  · rw [hmap]
    exact h.complete
  · rw [hlog]
    exact h.removed

/-- The objects do not change, and the data of requests only in what is not
recorded here. -/
theorem congr (h : Objects s) (hreq : t.requests = s.requests)
    (hnext : t.nextRequest = s.nextRequest) (hnode : s.nextNode ≤ t.nextNode)
    (hid : t.interfaceIdentifier = s.interfaceIdentifier)
    (hbad : s.badInterfaceStateDetected = true → t.badInterfaceStateDetected = true)
    (hlog : ∀ n f r, Event.removed n f r ∈ t.log → Event.removed n f r ∈ s.log)
    (hmap : ∀ id : FcgiRequestIdentifier, ∀ d', t.requestMap[id]? = some d' →
      ∃ d, s.requestMap[id]? = some d ∧ d'.node = d.node ∧ d'.socket = d.socket ∧
        d'.requestStatus = d.requestStatus ∧ (d.AllComplete → d'.AllComplete))
    (hkept : ∀ id : FcgiRequestIdentifier, ∀ d, s.requestMap[id]? = some d →
      d.requestStatus = .requestAssigned → ∃ d', t.requestMap[id]? = some d') :
    Objects t := by
  have hgood : t.badInterfaceStateDetected = false → s.badInterfaceStateDetected = false := by
    intro ht
    by_contra hs
    rw [hbad (by simpa using hs)] at ht
    cases ht
  have hlive : ∀ j, t.Live j ↔ s.Live j := by
    intro j
    simp [System.Live, hreq, hid]
  constructor
  · intro j hj
    rw [hreq]
    exact h.fresh j (hnext ▸ hj)
  · intro id d' hd'
    obtain ⟨d, hd, hn, -⟩ := hmap id d' hd'
    rw [hn]
    exact Nat.lt_of_lt_of_le (h.node_lt id d hd) hnode
  · intro id₁ id₂ d₁' d₂' h₁ h₂ heq
    obtain ⟨d₁, hd₁, hn₁, -⟩ := hmap id₁ d₁' h₁
    obtain ⟨d₂, hd₂, hn₂, -⟩ := hmap id₂ d₂' h₂
    exact h.node_inj id₁ id₂ d₁ d₂ hd₁ hd₂ (by rw [← hn₁, ← hn₂, heq])
  · intro hb j hj
    obtain ⟨d, hd, hsocket⟩ := h.owns (hgood hb) j ((hlive j).mp hj)
    obtain ⟨d', hd'⟩ := hkept _ d hd.data hd.assigned
    obtain ⟨d₀, hd₀, hn, hs, hst, -⟩ := hmap _ d' hd'
    rw [hd.data, Option.some.injEq] at hd₀
    subst hd₀
    refine ⟨d', ⟨hb, hj, ?_, ?_, hst.trans hd.assigned⟩, ?_⟩
    · rw [hreq]
      exact hd'
    · rw [hreq]
      exact hn.trans hd.node
    · rw [hreq]
      exact hs.trans hsocket
  · intro hb id d' hd' ha
    obtain ⟨d, hd, -, -, hst, -⟩ := hmap id d' hd'
    obtain ⟨j, hj, hjid⟩ := h.owned (hgood hb) id d hd (hst ▸ ha)
    refine ⟨j, (hlive j).mpr hj, ?_⟩
    rw [hreq]
    exact hjid
  · intro hb j k hj hk hjk
    rw [hreq] at hjk
    exact h.inj (hgood hb) j k ((hlive j).mp hj) ((hlive k).mp hk) hjk
  · rw [hreq]
    exact h.held_idle
  · rw [hreq]
    exact h.idle
  · rw [hreq]
    exact h.output
  · intro id d' hd' ha
    obtain ⟨d, hd, -, -, hst, hc⟩ := hmap id d' hd'
    exact hc (h.complete id d hd (hst ▸ ha))
  · intro n f r hr
    exact h.removed n f r (hlog n f r hr)

/-- Nothing the objects are about changed. -/
theorem same (h : Objects s) (hreq : t.requests = s.requests)
    (hnext : t.nextRequest = s.nextRequest) (hnode : s.nextNode ≤ t.nextNode)
    (hid : t.interfaceIdentifier = s.interfaceIdentifier)
    (hbad : s.badInterfaceStateDetected = true → t.badInterfaceStateDetected = true)
    (hlog : ∀ n f r, Event.removed n f r ∈ t.log → Event.removed n f r ∈ s.log)
    (hmap : t.requestMap = s.requestMap) : Objects t := by
  refine h.congr hreq hnext hnode hid hbad hlog ?_ ?_
  · intro id d hd
    rw [hmap] at hd
    exact ⟨d, hd, rfl, rfl, rfl, fun hc => hc⟩
  · intro id d hd _
    rw [hmap]
    exact ⟨d, hd⟩

/-- An object moves to a place that holds no live object. -/
theorem moved (h : Objects s) {i j : Nat} (hne : i ≠ j) (hdead : ¬ s.Live j)
    (hreq : t.requests =
      Function.update (Function.update s.requests j (s.requests i)) i {})
    (hnext : s.nextRequest ≤ t.nextRequest) (hj : j < t.nextRequest)
    (hmap : t.requestMap = s.requestMap) (hnode : t.nextNode = s.nextNode) (hlog : t.log = s.log)
    (hid : t.interfaceIdentifier = s.interfaceIdentifier)
    (hbad : t.badInterfaceStateDetected = s.badInterfaceStateDetected) : Objects t := by
  have hi : t.requests i = {} := by simp [hreq]
  have hj' : t.requests j = s.requests i := by simp [hreq, Ne.symm hne]
  have hother : ∀ k, k ≠ i → k ≠ j → t.requests k = s.requests k := by
    intro k hki hkj
    simp [hreq, hki, hkj]
  have hnotLive : ¬ t.Live i := live_null hi
  have hcases : ∀ k, t.Live k → ∃ k', s.Live k' ∧ t.requests k = s.requests k' ∧
      (k = j ∧ k' = i ∨ k ≠ j ∧ k' = k) := by
    intro k hk
    have hki : k ≠ i := by
      rintro rfl
      exact hnotLive hk
    by_cases hkj : k = j
    · subst hkj
      refine ⟨i, ?_, hj', .inl ⟨rfl, rfl⟩⟩
      simpa [System.Live, hj', hid] using hk
    · refine ⟨k, ?_, hother k hki hkj, .inr ⟨hkj, rfl⟩⟩
      simpa [System.Live, hother k hki hkj, hid] using hk
  constructor
  · intro k hk
    by_cases hki : k = i
    · rw [hki]
      exact hi
    · rw [hother k hki (by omega)]
      exact h.fresh k (by omega)
  · rw [hmap, hnode]
    exact h.node_lt
  · rw [hmap]
    exact h.node_inj
  · intro hb k hk
    obtain ⟨k', hk', heq, -⟩ := hcases k hk
    obtain ⟨d, hd, hsocket⟩ := h.owns (hbad ▸ hb) k' hk'
    refine ⟨d, ⟨hb, hk, ?_, ?_, hd.assigned⟩, ?_⟩
    · rw [hmap, heq]
      exact hd.data
    · rw [heq]
      exact hd.node
    · rw [heq]
      exact hsocket
  · intro hb id d hd ha
    rw [hmap] at hd
    obtain ⟨k, hk, hkid⟩ := h.owned (hbad ▸ hb) id d hd ha
    by_cases hki : k = i
    · subst hki
      refine ⟨j, ?_, by rw [hj']; exact hkid⟩
      simpa [System.Live, hj', hid] using hk
    · have hkj : k ≠ j := by
        rintro rfl
        exact hdead hk
      refine ⟨k, ?_, by rw [hother k hki hkj]; exact hkid⟩
      simpa [System.Live, hother k hki hkj, hid] using hk
  · intro hb k₁ k₂ h₁ h₂ heq
    obtain ⟨k₁', hk₁, he₁, hc₁⟩ := hcases k₁ h₁
    obtain ⟨k₂', hk₂, he₂, hc₂⟩ := hcases k₂ h₂
    rw [he₁, he₂] at heq
    have := h.inj (hbad ▸ hb) k₁' k₂' hk₁ hk₂ heq
    have hni : k₁ ≠ i := fun he => hnotLive (he ▸ h₁)
    have hni' : k₂ ≠ i := fun he => hnotLive (he ▸ h₂)
    omega
  · intro k hk
    by_cases hki : k = i
    · rw [hki, hi]
    · by_cases hkj : k = j
      · rw [hkj, hj'] at hk ⊢
        exact h.held_idle i hk
      · rw [hother k hki hkj] at hk ⊢
        exact h.held_idle k hk
  · intro k hk
    by_cases hki : k = i
    · rw [hki, hi]
    · by_cases hkj : k = j
      · rw [hkj, hj'] at hk ⊢
        exact h.idle i hk
      · rw [hother k hki hkj] at hk ⊢
        exact h.idle k hk
  · intro k
    by_cases hki : k = i
    · rw [hki, hi]
      trivial
    · by_cases hkj : k = j
      · rw [hkj, hj']
        exact h.output i
      · rw [hother k hki hkj]
        exact h.output k
  · rw [hmap]
    exact h.complete
  · rw [hlog]
    exact h.removed

/-- An object removes its request. -/
theorem retired (h : Objects s) {i n : Nat} {d : RequestData} {o : FcgiRequest}
    (owns : Owns s i d) (hspent : Spent (s.requests i) o) : Objects (s.retired i o n) := by
  have hold : i < s.nextRequest := by
    by_contra hge
    exact live_null (h.fresh i (by omega)) owns.live
  have ho : o.completed = true ∨ o = {} := by
    rcases hspent with rfl | ⟨aborted, rfl⟩
    · exact .inr rfl
    · exact .inl rfl
  have hdead : ¬ (s.retired i o n).Live i := by
    rintro ⟨ha, hne, hc⟩
    have he : (s.retired i o n).requests i = o := by simp [System.retired, System.setRequest]
    rw [he] at ha hc
    rcases ho with hcomp | rfl
    · rw [hcomp] at hc
      cases hc
    · exact hne ha.symm
  have hother : ∀ j, j ≠ i → (s.retired i o n).requests j = s.requests j := by
    intro j hj
    simp [System.retired, System.setRequest, System.record, System.eraseRequest, hj]
  have hlive : ∀ j, (s.retired i o n).Live j → j ≠ i ∧ s.Live j := by
    intro j hj
    have hne : j ≠ i := by
      rintro rfl
      exact hdead hj
    refine ⟨hne, ?_⟩
    have hj' := hj
    simp only [System.Live, hother j hne] at hj'
    exact hj'
  have hmap : ∀ id : FcgiRequestIdentifier, (s.retired i o n).requestMap[id]? =
      if id = (s.requests i).requestIdentifier then none else s.requestMap[id]? := by
    intro id
    simp only [System.retired, System.setRequest, System.record, System.eraseRequest]
    grind
  have hdata : ∀ (id : FcgiRequestIdentifier) (d : RequestData),
      (s.retired i o n).requestMap[id]? = some d →
        id ≠ (s.requests i).requestIdentifier ∧ s.requestMap[id]? = some d := by
    intro id d hd
    rw [hmap] at hd
    grind
  have hgood : (s.retired i o n).badInterfaceStateDetected = s.badInterfaceStateDetected := rfl
  constructor
  · intro j hj
    have hj' : s.nextRequest ≤ j := hj
    rw [hother j (by omega)]
    exact h.fresh j hj'
  · intro id d' hd'
    exact h.node_lt id d' (hdata id d' hd').2
  · intro id₁ id₂ d₁ d₂ h₁ h₂
    exact h.node_inj id₁ id₂ d₁ d₂ (hdata id₁ d₁ h₁).2 (hdata id₂ d₂ h₂).2
  · intro hb j hj
    obtain ⟨hne, hjlive⟩ := hlive j hj
    obtain ⟨d', hd', hsocket⟩ := h.owns hb j hjlive
    have hid : (s.requests j).requestIdentifier ≠ (s.requests i).requestIdentifier := by
      intro he
      exact hne (h.inj hb j i hjlive owns.live he)
    refine ⟨d', ⟨hb, hj, ?_, ?_, hd'.assigned⟩, ?_⟩
    · rw [hother j hne, hmap, if_neg hid]
      exact hd'.data
    · rw [hother j hne]
      exact hd'.node
    · rw [hother j hne]
      exact hsocket
  · intro hb id d' hd' ha
    obtain ⟨hid, hd''⟩ := hdata id d' hd'
    obtain ⟨j, hj, hjid⟩ := h.owned hb id d' hd'' ha
    have hne : j ≠ i := by
      rintro rfl
      exact hid hjid.symm
    refine ⟨j, ?_, by rw [hother j hne]; exact hjid⟩
    simp only [System.Live, hother j hne]
    exact hj
  · intro hb j k hj hk he
    obtain ⟨hjne, hj'⟩ := hlive j hj
    obtain ⟨hkne, hk'⟩ := hlive k hk
    rw [hother j hjne, hother k hkne] at he
    exact h.inj hb j k hj' hk' he
  · intro j hj
    by_cases hji : j = i
    · subst hji
      have he : (s.retired j o n).requests j = o := by simp [System.retired, System.setRequest]
      rw [he] at hj ⊢
      rcases hspent with rfl | ⟨aborted, rfl⟩ <;> rfl
    · rw [hother j hji] at hj ⊢
      exact h.held_idle j hj
  · intro j hj
    by_cases hji : j = i
    · subst hji
      have he : (s.retired j o n).requests j = o := by simp [System.retired, System.setRequest]
      rw [he] at hj ⊢
      rcases hspent with rfl | ⟨aborted, rfl⟩ <;> rfl
    · rw [hother j hji] at hj ⊢
      exact h.idle j hj
  · intro j
    by_cases hji : j = i
    · subst hji
      have he : (s.retired j o n).requests j = o := by simp [System.retired, System.setRequest]
      rw [he]
      rcases hspent with rfl | ⟨aborted, rfl⟩ <;> trivial
    · rw [hother j hji]
      exact h.output j
  · intro id d' hd'
    exact h.complete id d' (hdata id d' hd').2
  · intro node found returned hr
    have hr' : Event.removed node found returned ∈
        Event.removed (s.requests i).node (some (s.requests i).node) true :: s.log := hr
    rcases List.mem_cons.mp hr' with he | hm
    · simp only [Event.removed.injEq] at he
      obtain ⟨rfl, rfl, rfl⟩ := he
      exact ⟨rfl, rfl⟩
    · exact h.removed node found returned hm

theorem offered (h : Objects s) (c : Nat) (m : WriteMutex) (origin : Option Nat) (bytes : Bytes)
    (socket : Socket) (accepted : Nat) (corrupt : Bool) :
    Objects (s.offered c m origin bytes socket accepted corrupt) :=
  h.same rfl rfl (Nat.le_refl _) rfl id (fun _ _ _ hr => hr) rfl

theorem requestMove (h : Objects s) {i : Nat} (hm : RequestMove i s t) : Objects t := by
  cases hm with
  | object completed aborted call hold _ _ hidle hheld houtput honly =>
    refine h.update rfl rfl rfl rfl rfl rfl rfl ?_ ?_ ?_ ?_ hidle houtput
    · intro hge
      omega
    · intro hb
      rcases honly with rfl | ⟨rfl, hbad | hdead⟩
      · exact Iff.rfl
      · rw [hb] at hbad
        cases hbad
      · refine ⟨fun hl => ?_, fun hl => absurd hl hdead⟩
        have hc := hl.2.2
        cases hc
    · intro _ _
      exact ⟨rfl, rfl, rfl⟩
    · intro hh
      by_contra hc
      have hh' : (s.requests i).held = true := hh
      rw [hheld hc] at hh'
      cases hh'
  | drop _ honly =>
    refine h.update rfl rfl rfl rfl rfl rfl rfl (fun _ => rfl) ?_ ?_ ?_ ?_ trivial
    · intro hb
      constructor
      · rintro ⟨ha, hn, -⟩
        exact absurd ha.symm hn
      · intro hl
        rcases honly with hbad | hdead
        · rw [hb] at hbad
          cases hbad
        · exact absurd hl hdead
    · intro hb hl
      rcases honly with hbad | hdead
      · rw [hb] at hbad
        cases hbad
      · exact absurd hl hdead
    · intro hh
      cases hh
    · intro _
      rfl
  | retire owns _ hspent _ => exact h.retired owns hspent
  | conclude owns _ hspent _ _ _ =>
    exact (h.offered ..).retired (owns.offered ..) hspent
  | note => exact h.same rfl rfl (Nat.le_refl _) rfl id (fun _ _ _ hr => by simpa [System.record] using hr) rfl
  | schedule | pipe | terminate => exact h.same rfl rfl (Nat.le_refl _) rfl id (fun _ _ _ hr => hr) rfl
  | bad => exact h.same rfl rfl (Nat.le_refl _) rfl (fun _ => rfl) (fun _ _ _ hr => hr) rfl
  | acquire owns hresting hunheld _ _ _ _ _ _ houtput =>
    refine h.update (i := i) rfl rfl rfl rfl rfl rfl rfl ?_ ?_ ?_ ?_ ?_ houtput
    · intro hge
      exact absurd owns.live (live_null (h.fresh i hge))
    · intro _
      exact Iff.rfl
    · intro _ _
      exact ⟨rfl, rfl, rfl⟩
    · intro hh
      exact absurd (hunheld.symm.trans hh) (by decide)
    · rintro (hc | hc)
      · exact absurd (owns.live.2.2.symm.trans hc) (by decide)
      · exact absurd (owns.live.1.symm.trans hc) owns.live.2.1
  | progress hcall =>
    refine h.update (i := i) rfl rfl rfl rfl rfl rfl rfl ?_ ?_ ?_ ?_ ?_ ?_
    · intro hge
      rw [h.fresh i hge] at hcall
      cases hcall
    · intro _
      exact Iff.rfl
    · intro _ _
      exact ⟨rfl, rfl, rfl⟩
    · intro hh
      have := h.held_idle i hh
      rw [hcall] at this
      cases this
    · intro hc
      have := h.idle i hc
      rw [hcall] at this
      cases this
    · have := h.output i
      rw [hcall] at this
      exact this
  | leave hcall _ _ _ _ houtput =>
    refine h.update (i := i) rfl rfl rfl rfl rfl rfl rfl ?_ ?_ ?_ ?_ ?_ houtput
    · intro hge
      rw [h.fresh i hge] at hcall
      cases hcall
    · intro _
      exact Iff.rfl
    · intro _ _
      exact ⟨rfl, rfl, rfl⟩
    · intro hh
      have := h.held_idle i hh
      rw [hcall] at this
      cases this
    · intro hc
      have := h.idle i hc
      rw [hcall] at this
      cases this
  | moveConstruct _ _ hold =>
    have hdead : ¬ s.Live s.nextRequest := live_null (h.fresh _ (Nat.le_refl _))
    exact h.moved (i := i) (j := s.nextRequest) (by omega) hdead rfl (by simp) (by simp) rfl rfl rfl
      rfl rfl
  | @moveAssign j hne _ _ _ _ hold honly =>
    have hdead : ¬ s.Live i := by
      rintro ⟨ha, hn, hc⟩
      rcases honly with hcomp | hnull
      · rw [hcomp] at hc
        cases hc
      · exact hn (ha.symm.trans hnull)
    exact h.moved (i := j) (j := i) (Ne.symm hne) hdead rfl (Nat.le_refl _) hold rfl rfl rfl rfl rfl

/-- A request is begun. -/
theorem begun (h : Objects s) {id : FcgiRequestIdentifier} {role : UInt16} {closeConnection : Bool}
    {socket n : Nat} (hnew : s.requestMap[id]? = none) :
    Objects { s with
      requestCountMap := s.requestCountMap.insert id.descriptor n
      requestMap := s.requestMap.insert id
        { role := role, closeConnection := closeConnection, node := s.nextNode, socket := socket }
      nextNode := s.nextNode + 1
      log := .begun s.nextNode socket id.fcgiId true :: s.log } := by
  have hnext := h.node_lt
  constructor
  · exact h.fresh
  · intro id' d hd
    have := hnext id' d
    simp only [ExtTreeMap.getElem?_insert] at hd
    show d.node < s.nextNode + 1
    split at hd
    · cases hd
      exact Nat.lt_succ_self _
    · have := hnext id' d hd
      omega
  · intro id₁ id₂ d₁ d₂ h₁ h₂ he
    have hn₁ := hnext id₁ d₁
    have hn₂ := hnext id₂ d₂
    have := h.node_inj id₁ id₂ d₁ d₂
    grind
  · intro hb i hi
    obtain ⟨d, hd, hs⟩ := h.owns hb i hi
    have hdata := hd.data
    exact ⟨d, ⟨hb, hi, by grind, hd.node, hd.assigned⟩, hs⟩
  · intro hb id' d hd ha
    obtain hd' : s.requestMap[id']? = some d := by
      simp only [ExtTreeMap.getElem?_insert] at hd
      split at hd
      · cases hd
        cases ha
      · exact hd
    exact h.owned hb id' d hd' ha
  · exact h.inj
  · exact h.held_idle
  · exact h.idle
  · exact h.output
  · intro id' d hd ha
    obtain hd' : s.requestMap[id']? = some d := by
      simp only [ExtTreeMap.getElem?_insert] at hd
      split at hd
      · cases hd
        cases ha
      · exact hd
    exact h.complete id' d hd' ha
  · intro n' f r hr
    exact h.removed n' f r (by simpa using hr)

/-- The object of a request is constructed. -/
theorem constructed (h : Objects s) {id : FcgiRequestIdentifier} {d d' : RequestData}
    {o : FcgiRequest} (halive : s.interfaceIdentifier ≠ 0)
    (hd : s.requestMap[id]? = some d) (hpending : d.requestStatus = .requestPending)
    (hreq : t.requests = Function.update s.requests s.nextRequest o)
    (hnext : t.nextRequest = s.nextRequest + 1) (hmap : t.requestMap = s.requestMap.insert id d')
    (hnode : t.nextNode = s.nextNode) (hid : t.interfaceIdentifier = s.interfaceIdentifier)
    (hbad : t.badInterfaceStateDetected = s.badInterfaceStateDetected)
    (hlog : t.log = .constructed d.node :: s.log)
    (hassoc : o.associatedInterfaceId = s.interfaceIdentifier) (hoid : o.requestIdentifier = id)
    (honode : o.node = d.node) (hosocket : o.socket = d.socket) (hocompleted : o.completed = false)
    (hocall : o.call = .idle) (hdnode : d'.node = d.node) (hdsocket : d'.socket = d.socket)
    (hdstatus : d'.requestStatus = .requestAssigned) (hdcomplete : d'.AllComplete) :
    Objects t := by
  have hnew : t.requests s.nextRequest = o := by simp [hreq]
  have hother : ∀ j, j ≠ s.nextRequest → t.requests j = s.requests j := by
    intro j hj
    simp [hreq, hj]
  have hdead : ¬ s.Live s.nextRequest := live_null (h.fresh _ (Nat.le_refl _))
  have hlive : t.Live s.nextRequest := by
    refine ⟨?_, ?_, ?_⟩
    · rw [hnew, hid]
      exact hassoc
    · rw [hid]
      exact halive
    · rw [hnew]
      exact hocompleted
  have hlive' : ∀ j, j ≠ s.nextRequest → (t.Live j ↔ s.Live j) := by
    intro j hj
    simp only [System.Live, hother j hj, hid]
  have hdata : ∀ (id' : FcgiRequestIdentifier) (e : RequestData), t.requestMap[id']? = some e →
      id' = id ∧ e = d' ∨ id' ≠ id ∧ s.requestMap[id']? = some e := by
    intro id' e he
    rw [hmap] at he
    grind
  -- no object of the present interface has the identifier yet
  have hunowned : s.badInterfaceStateDetected = false → ∀ j, s.Live j →
      (s.requests j).requestIdentifier ≠ id := by
    intro hb j hj he
    obtain ⟨e, howns, -⟩ := h.owns hb j hj
    have he' := howns.data
    rw [he, hd, Option.some.injEq] at he'
    subst he'
    have := howns.assigned
    rw [hpending] at this
    cases this
  constructor
  · intro j hj
    rw [hnext] at hj
    rw [hother j (by omega)]
    exact h.fresh j (by omega)
  · intro id' e he
    rw [hnode]
    rcases hdata id' e he with ⟨rfl, rfl⟩ | ⟨-, he'⟩
    · rw [hdnode]
      exact h.node_lt id' d hd
    · exact h.node_lt id' e he'
  · intro id₁ id₂ d₁ d₂ h₁ h₂ heq
    rcases hdata id₁ d₁ h₁ with ⟨rfl, rfl⟩ | ⟨-, h₁'⟩
    · rcases hdata id₂ d₂ h₂ with ⟨rfl, rfl⟩ | ⟨-, h₂'⟩
      · rfl
      · exact h.node_inj id₁ id₂ d d₂ hd h₂' (hdnode.symm.trans heq)
    · rcases hdata id₂ d₂ h₂ with ⟨rfl, rfl⟩ | ⟨-, h₂'⟩
      · exact h.node_inj id₁ id₂ d₁ d h₁' hd (heq.trans hdnode)
      · exact h.node_inj id₁ id₂ d₁ d₂ h₁' h₂' heq
  · intro hb j hj
    rw [hbad] at hb
    by_cases hjn : j = s.nextRequest
    · subst hjn
      refine ⟨d', ⟨hbad.trans hb, hj, ?_, ?_, hdstatus⟩, ?_⟩
      · rw [hnew, hoid, hmap]
        simp
      · rw [hnew, honode]
        exact hdnode
      · rw [hnew, hosocket]
        exact hdsocket
    · have hj' := (hlive' j hjn).mp hj
      obtain ⟨e, he, hs⟩ := h.owns hb j hj'
      have hne := hunowned hb j hj'
      refine ⟨e, ⟨hbad.trans hb, hj, ?_, ?_, he.assigned⟩, ?_⟩
      · rw [hother j hjn, hmap]
        have := he.data
        grind
      · rw [hother j hjn]
        exact he.node
      · rw [hother j hjn]
        exact hs
  · intro hb id' e he ha
    rw [hbad] at hb
    rcases hdata id' e he with ⟨rfl, rfl⟩ | ⟨-, he'⟩
    · exact ⟨s.nextRequest, hlive, by rw [hnew]; exact hoid⟩
    · obtain ⟨j, hj, hjid⟩ := h.owned hb id' e he' ha
      have hjn : j ≠ s.nextRequest := by
        rintro rfl
        exact hdead hj
      exact ⟨j, (hlive' j hjn).mpr hj, by rw [hother j hjn]; exact hjid⟩
  · intro hb j k hj hk heq
    rw [hbad] at hb
    by_cases hjn : j = s.nextRequest
    · by_cases hkn : k = s.nextRequest
      · rw [hjn, hkn]
      · rw [hjn, hnew, hoid, hother k hkn] at heq
        exact absurd heq.symm (hunowned hb k ((hlive' k hkn).mp hk))
    · by_cases hkn : k = s.nextRequest
      · rw [hkn, hnew, hoid, hother j hjn] at heq
        exact absurd heq (hunowned hb j ((hlive' j hjn).mp hj))
      · rw [hother j hjn, hother k hkn] at heq
        exact h.inj hb j k ((hlive' j hjn).mp hj) ((hlive' k hkn).mp hk) heq
  · intro j hj
    by_cases hjn : j = s.nextRequest
    · rw [hjn, hnew]
      exact hocall
    · rw [hother j hjn] at hj ⊢
      exact h.held_idle j hj
  · intro j hj
    by_cases hjn : j = s.nextRequest
    · rw [hjn, hnew]
      exact hocall
    · rw [hother j hjn] at hj ⊢
      exact h.idle j hj
  · intro j
    by_cases hjn : j = s.nextRequest
    · rw [hjn, hnew, hocall]
      trivial
    · rw [hother j hjn]
      exact h.output j
  · intro id' e he ha
    rcases hdata id' e he with ⟨rfl, rfl⟩ | ⟨-, he'⟩
    · exact hdcomplete
    · exact h.complete id' e he' ha
  · intro n f r hr
    rw [hlog] at hr
    exact h.removed n f r (by simpa using hr)

theorem release (h : Objects s) (objects : List Nat) : Objects (release s objects) := by
  have hreq : ∀ i, (Server.release s objects).requests i =
      if i ∈ objects then { s.requests i with held := false } else s.requests i := fun _ => rfl
  have hlive : ∀ i, (Server.release s objects).Live i ↔ s.Live i := by
    intro i
    simp only [System.Live, hreq]
    split <;> exact Iff.rfl
  have hsame : ∀ i, ((Server.release s objects).requests i).requestIdentifier =
      (s.requests i).requestIdentifier ∧
      ((Server.release s objects).requests i).node = (s.requests i).node ∧
      ((Server.release s objects).requests i).socket = (s.requests i).socket := by
    intro i
    rw [hreq]
    split <;> exact ⟨rfl, rfl, rfl⟩
  constructor
  · intro i hi
    rw [hreq, h.fresh i hi]
    split <;> rfl
  · exact h.node_lt
  · exact h.node_inj
  · intro hb i hi
    obtain ⟨d, hd, hs⟩ := h.owns hb i ((hlive i).mp hi)
    obtain ⟨h₁, h₂, h₃⟩ := hsame i
    refine ⟨d, ⟨hb, hi, ?_, ?_, hd.assigned⟩, ?_⟩
    · rw [h₁]
      exact hd.data
    · rw [h₂]
      exact hd.node
    · rw [h₃]
      exact hs
  · intro hb id d hd ha
    obtain ⟨i, hi, hid⟩ := h.owned hb id d hd ha
    exact ⟨i, (hlive i).mpr hi, (hsame i).1.trans hid⟩
  · intro hb i j hi hj he
    rw [(hsame i).1, (hsame j).1] at he
    exact h.inj hb i j ((hlive i).mp hi) ((hlive j).mp hj) he
  · intro i hi
    rw [hreq] at hi ⊢
    split at hi
    · cases hi
    · rename_i hni
      rw [if_neg hni]
      exact h.held_idle i hi
  · intro i hi
    have hc := h.idle i
    rw [hreq] at hi ⊢
    split at hi
    · rename_i hmem
      rw [if_pos hmem]
      exact hc hi
    · rename_i hmem
      rw [if_neg hmem]
      exact hc hi
  · intro i
    rw [hreq]
    split <;> exact h.output i
  · exact h.complete
  · exact h.removed

theorem interfaceMove (h : Objects s) (ht : Tables s) {loose : Option Nat}
    (hm : InterfaceMove loose s t) : Objects t := by
  cases hm with
  | request i hm => exact h.requestMove hm
  | beginRequest hnew => exact h.begun hnew
  | reject =>
    exact h.same rfl rfl (Nat.le_succ _) rfl id (fun _ _ _ hr => by simpa using hr) rfl
  | touch hd hsame hcomplete =>
    refine h.congr rfl rfl (Nat.le_refl _) rfl id (fun _ _ _ hr => hr) ?_ ?_
    · intro id e he
      have h₁ := hsame.node
      have h₂ := hsame.socket
      have h₃ := hsame.requestStatus
      simp only [System.setData, ExtTreeMap.getElem?_insert] at he
      grind
    · intro id e he _
      simp only [System.setData]
      grind
  | @remove id d n ended hd hpending hcount =>
    refine h.congr rfl rfl (Nat.le_refl _) rfl (fun hb => hb) ?_ ?_ ?_
    · intro n' f r hr
      cases ended <;> simpa using hr
    · intro id e he
      simp only [System.eraseRequest] at he
      exact ⟨e, by grind, rfl, rfl, rfl, fun hc => hc⟩
    · intro id e he ha
      simp only [System.eraseRequest]
      grind
  | @construct id d m hgood halive hd hpending hcomplete hmutex =>
    have hsocket : m.socket = d.socket := by
      obtain ⟨r, hr⟩ := ht.mutex_socket _ m hmutex
      obtain ⟨r', hr'⟩ := ht.request_socket id d hd
      rw [hr, Option.some.injEq, Descriptor.mk.injEq] at hr'
      exact hr'.1
    exact h.constructed halive hd hpending rfl rfl rfl rfl rfl rfl rfl rfl rfl rfl hsocket
      rfl rfl rfl rfl rfl hcomplete
  | send => exact h.offered ..
  | closeDummy | closeConnection | register =>
    exact h.same rfl rfl (Nat.le_refl _) rfl id (fun _ _ _ hr => by simpa using hr) rfl
  | @makeDummy c m requests hmutex _ hflag =>
    refine h.congr rfl rfl (Nat.le_refl _) rfl id (fun _ _ _ hr => hr) ?_ ?_
    · intro id e he
      have he' : requests[id]? = some e := he
      rw [hflag id] at he'
      split at he'
      · rw [Option.map_eq_some_iff] at he'
        obtain ⟨d, hd, rfl⟩ := he'
        exact ⟨d, hd, rfl, rfl, rfl, fun hc => hc⟩
      · exact ⟨e, he', rfl, rfl, rfl, fun hc => hc⟩
    · intro id e he _
      have := hflag id
      show ∃ d', requests[id]? = some d'
      rw [this, he]
      split <;> exact ⟨_, rfl⟩
  | flag _ hd =>
    refine h.congr rfl rfl (Nat.le_refl _) rfl id (fun _ _ _ hr => hr) ?_ ?_
    · intro id e he
      simp only [System.setData, ExtTreeMap.getElem?_insert] at he
      split at he
      · rename_i heq
        cases he
        obtain rfl := LawfulEqCmp.eq_of_compare heq
        exact ⟨_, hd, rfl, rfl, rfl, fun hc => hc⟩
      · exact ⟨e, he, rfl, rfl, rfl, fun hc => hc⟩
    · intro id e he _
      simp only [System.setData]
      grind
  | release => exact h.release _
  | @destroy order assigned requests _ _ _ hobjects =>
    have hsub : ∀ i, requests i = s.requests i ∨ requests i = {} := hobjects
    constructor
    · intro i hi
      rcases hsub i with he | he
      · exact he.trans (h.fresh i hi)
      · exact he
    · simp
    · simp
    · rintro - i ⟨-, hn, -⟩
      exact absurd rfl hn
    · simp
    · rintro - i j ⟨-, hn, -⟩
      exact absurd rfl hn
    · intro i hi
      show (requests i).call = .idle
      have hi' : (requests i).held = true := hi
      rcases hsub i with he | he
      · rw [he] at hi' ⊢
        exact h.held_idle i hi'
      · rw [he]
    · intro i hi
      show (requests i).call = .idle
      have hi' : (requests i).completed = true ∨ (requests i).associatedInterfaceId = 0 := hi
      rcases hsub i with he | he
      · rw [he] at hi' ⊢
        exact h.idle i hi'
      · rw [he]
    · intro i
      show (requests i).call.Output
      rcases hsub i with he | he
      · rw [he]
        exact h.output i
      · rw [he]
        trivial
    · simp
    · intro n f r hr
      exact h.removed n f r (by simpa using hr)
  | _ => exact h.same rfl rfl (Nat.le_refl _) rfl id (fun _ _ _ hr => hr) rfl

end Objects

end AsComponents.Server
