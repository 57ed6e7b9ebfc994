import AsComponents.Wires

/-! The requests that were begun, in the order of their nodes, and what became
of them. -/

namespace AsComponents.Server

open Protocol NameValue SocketFunctions AsComponents.Partition Std

/-- An event that says nothing about how a request began or ended. -/
def Event.Silent : Event → Prop
  | .begun .. | .constructed _ | .alreadyAssigned _ | .endedByInterface _ => False
  | _ => True

/-- Of two begin records the later one has the larger node. -/
def BegunAfter (e e' : Event) : Prop :=
  ∀ n k f a n' k' f' a', e = .begun n k f a → e' = .begun n' k' f' a' → n' < n

structure Begins (s : System) : Prop where
  lt : ∀ n k f a, Event.begun n k f a ∈ s.log → n < s.nextNode ∧ k < s.nextSocket
  sorted : s.log.Pairwise BegunAfter
  entry : ∀ (id : FcgiRequestIdentifier) (d : RequestData), s.requestMap[id]? = some d →
    .begun d.node d.socket id.fcgiId true ∈ s.log
  latest : ∀ (id : FcgiRequestIdentifier) (d : RequestData), s.requestMap[id]? = some d →
    ∀ n, s.Begun n d.socket id.fcgiId → n ≤ d.node
  constructed_begun : ∀ n, .constructed n ∈ s.log → ∃ k f, .begun n k f true ∈ s.log
  ended_begun : ∀ n, .endedByInterface n ∈ s.log → ∃ k f, .begun n k f true ∈ s.log
  constructed_once : ∀ n, s.log.count (.constructed n) ≤ 1
  pending : ∀ (id : FcgiRequestIdentifier) (d : RequestData), s.requestMap[id]? = some d →
    d.requestStatus = .requestPending → .constructed d.node ∉ s.log
  gone : ∀ n, s.EndedByInterface n →
    (∀ (id : FcgiRequestIdentifier) (d : RequestData), s.requestMap[id]? = some d → d.node ≠ n) ∧
      .constructed n ∉ s.log
  unassigned : ∀ n, .alreadyAssigned n ∉ s.log

namespace Begins

variable {s t : System}

/-- One begin record has one node. -/
theorem inj (h : Begins s) {n k k' : Nat} {f f' : UInt16} {a a' : Bool}
    (h₁ : .begun n k f a ∈ s.log) (h₂ : .begun n k' f' a' ∈ s.log) :
    k = k' ∧ f = f' ∧ a = a' := by
  by_contra hne
  have hev : Event.begun n k f a ≠ .begun n k' f' a' := by
    intro he
    cases he
    exact hne ⟨rfl, rfl, rfl⟩
  refine List.Pairwise.forall_of_forall_of_flip (l := s.log)
    (R := fun e e' => e = .begun n k f a → e' = .begun n k' f' a' → False) ?_ ?_ ?_ h₁ h₂ rfl rfl
  · rintro e - rfl he
    exact hev he
  · refine h.sorted.imp ?_
    rintro e e' hafter rfl rfl
    exact Nat.lt_irrefl _ (hafter _ _ _ _ _ _ _ _ rfl rfl)
  · refine h.sorted.imp ?_
    rintro e e' hafter rfl rfl
    exact Nat.lt_irrefl _ (hafter _ _ _ _ _ _ _ _ rfl rfl)

theorem begun_inj (h : Begins s) {n k k' : Nat} {f f' : UInt16} (h₁ : s.Begun n k f)
    (h₂ : s.Begun n k' f') : k = k' ∧ f = f' := by
  obtain ⟨a, h₁⟩ := h₁
  obtain ⟨a', h₂⟩ := h₂
  obtain ⟨hk, hf, -⟩ := h.inj h₁ h₂
  exact ⟨hk, hf⟩

/-- The log grows by events that are silent about requests, and the map loses
entries at most. -/
theorem congr (h : Begins s) {l : List Event} (hlog : t.log = l ++ s.log)
    (hes : ∀ e ∈ l, e.Silent) (hnode : t.nextNode = s.nextNode)
    (hsocket : s.nextSocket ≤ t.nextSocket)
    (hmap : ∀ (id : FcgiRequestIdentifier) (d' : RequestData), t.requestMap[id]? = some d' →
      ∃ d, s.requestMap[id]? = some d ∧ d'.node = d.node ∧ d'.socket = d.socket ∧
        (d'.requestStatus = .requestPending → d.requestStatus = .requestPending)) : Begins t := by
  have hmem : ∀ e : Event, ¬ e.Silent → (e ∈ t.log ↔ e ∈ s.log) := by
    intro e he
    rw [hlog, List.mem_append]
    exact ⟨fun hm => hm.resolve_left fun hm => he (hes e hm), .inr⟩
  have hbegun : ∀ n k f, t.Begun n k f ↔ s.Begun n k f := by
    intro n k f
    exact exists_congr fun a => hmem _ id
  have hended : ∀ n, t.EndedByInterface n ↔ s.EndedByInterface n := by
    intro n
    exact or_congr (hmem _ id) (exists_congr fun k => exists_congr fun f => hmem _ id)
  constructor
  · intro n k f a hb
    have := h.lt n k f a ((hmem _ id).mp hb)
    omega
  · rw [hlog]
    refine List.pairwise_append.mpr ⟨?_, h.sorted, ?_⟩
    · refine List.pairwise_of_forall_mem_list ?_
      rintro e he e' - n k f a n' k' f' a' rfl
      exact absurd (hes _ he) id
    · rintro e he e' - n k f a n' k' f' a' rfl
      exact absurd (hes _ he) id
  · intro id d' hd'
    obtain ⟨d, hd, hn, hs, -⟩ := hmap id d' hd'
    rw [hn, hs]
    exact (hmem _ (by simp [Event.Silent])).mpr (h.entry id d hd)
  · intro id d' hd' n hb
    obtain ⟨d, hd, hn, hs, -⟩ := hmap id d' hd'
    rw [hs] at hb
    rw [hn]
    exact h.latest id d hd n ((hbegun _ _ _).mp hb)
  · intro n hc
    obtain ⟨k, f, hb⟩ := h.constructed_begun n ((hmem _ id).mp hc)
    exact ⟨k, f, (hmem _ id).mpr hb⟩
  · intro n hc
    obtain ⟨k, f, hb⟩ := h.ended_begun n ((hmem _ id).mp hc)
    exact ⟨k, f, (hmem _ id).mpr hb⟩
  · intro n
    have hzero : l.count (.constructed n) = 0 := by
      apply List.count_eq_zero.mpr
      intro hm
      exact hes _ hm
    rw [hlog, List.count_append, hzero, Nat.zero_add]
    exact h.constructed_once n
  · intro id d' hd' hp
    obtain ⟨d, hd, hn, -, hst⟩ := hmap id d' hd'
    rw [hn, hmem _ (by simp [Event.Silent])]
    exact h.pending id d hd (hst hp)
  · intro n he
    obtain ⟨hgone, hc⟩ := h.gone n ((hended n).mp he)
    refine ⟨?_, fun hc' => hc ((hmem _ (by simp [Event.Silent])).mp hc')⟩
    intro id d' hd'
    obtain ⟨d, hd, hn, -⟩ := hmap id d' hd'
    rw [hn]
    exact hgone id d hd
  · intro n hu
    exact h.unassigned n ((hmem _ id).mp hu)

/-- Nothing was logged, and the map is the same. -/
theorem same (h : Begins s) (hlog : t.log = s.log) (hnode : t.nextNode = s.nextNode)
    (hsocket : s.nextSocket ≤ t.nextSocket) (hmap : t.requestMap = s.requestMap) : Begins t := by
  refine h.congr (l := []) hlog (by simp) hnode hsocket ?_
  intro id d hd
  rw [hmap] at hd
  exact ⟨d, hd, rfl, rfl, fun hp => hp⟩

theorem retired (h : Begins s) (i : Nat) (o : FcgiRequest) (n : Nat) : Begins (s.retired i o n) := by
  refine h.congr (l := [.removed (s.requests i).node (some (s.requests i).node) true]) rfl
    (by simp [Event.Silent]) rfl (Nat.le_refl _) ?_
  intro id d hd
  simp only [System.retired, System.setRequest, System.record, System.eraseRequest] at hd
  exact ⟨d, by grind, rfl, rfl, fun hp => hp⟩

theorem offered (h : Begins s) (c : Nat) (m : WriteMutex) (origin : Option Nat) (bytes : Bytes)
    (socket : Socket) (accepted : Nat) (corrupt : Bool) :
    Begins (s.offered c m origin bytes socket accepted corrupt) :=
  h.same rfl rfl (Nat.le_refl _) rfl

theorem requestMove (h : Begins s) {i : Nat} (hm : RequestMove i s t) : Begins t := by
  cases hm with
  | retire => exact h.retired i _ _
  | conclude => exact (h.offered ..).retired i _ _
  | note =>
    refine h.congr (l := [.completed _ _ _]) rfl (by simp [Event.Silent]) rfl (Nat.le_refl _) ?_
    intro id d hd
    exact ⟨d, hd, rfl, rfl, fun hp => hp⟩
  | _ => exact h.same rfl rfl (Nat.le_refl _) rfl

/-- A begin record is processed. -/
theorem begun (h : Begins s) (hobj : Objects s) {k : Nat} {f : UInt16} {accepted : Bool}
    (hk : k < s.nextSocket) (hlog : t.log = .begun s.nextNode k f accepted :: s.log)
    (hnode : t.nextNode = s.nextNode + 1) (hsocket : t.nextSocket = s.nextSocket)
    (hmap : ∀ (id : FcgiRequestIdentifier) (d : RequestData), t.requestMap[id]? = some d →
      s.requestMap[id]? = some d ∧ ¬ (d.socket = k ∧ id.fcgiId = f) ∨
        accepted = true ∧ d.node = s.nextNode ∧ d.socket = k ∧ id.fcgiId = f) : Begins t := by
  have hmem : ∀ e : Event, e ∈ t.log ↔ e = .begun s.nextNode k f accepted ∨ e ∈ s.log := by
    intro e
    rw [hlog, List.mem_cons]
  have hbegun : ∀ n k' f', t.Begun n k' f' → n = s.nextNode ∧ k' = k ∧ f' = f ∨ s.Begun n k' f' := by
    rintro n k' f' ⟨a, ha⟩
    rcases (hmem _).mp ha with he | he
    · cases he
      exact .inl ⟨rfl, rfl, rfl⟩
    · exact .inr ⟨a, he⟩
  have hfresh : ∀ k' f' a, .begun s.nextNode k' f' a ∉ s.log := by
    intro k' f' a hb
    exact Nat.lt_irrefl _ (h.lt _ _ _ _ hb).1
  constructor
  · intro n k' f' a hb
    rw [hnode, hsocket]
    rcases (hmem _).mp hb with he | he
    · cases he
      exact ⟨Nat.lt_succ_self _, hk⟩
    · have := h.lt n k' f' a he
      omega
  · rw [hlog]
    refine List.pairwise_cons.mpr ⟨?_, h.sorted⟩
    rintro e he n k₁ f₁ a₁ n' k₂ f₂ a₂ heq rfl
    cases heq
    exact (h.lt n' k₂ f₂ a₂ he).1
  · intro id d hd
    rcases hmap id d hd with ⟨hs, -⟩ | ⟨ha, hn, hs, hf⟩
    · exact (hmem _).mpr (.inr (h.entry id d hs))
    · rw [hn, hs, hf, ← ha]
      exact (hmem _).mpr (.inl rfl)
  · intro id d hd n hb
    rcases hmap id d hd with ⟨hs, hne⟩ | ⟨-, hn, -, -⟩
    · rcases hbegun n _ _ hb with ⟨-, hk', hf'⟩ | hb'
      · exact absurd ⟨hk', hf'⟩ hne
      · exact h.latest id d hs n hb'
    · rw [hn]
      rcases hbegun n _ _ hb with ⟨rfl, -, -⟩ | ⟨a, hb'⟩
      · exact Nat.le_refl _
      · exact Nat.le_of_lt (h.lt _ _ _ _ hb').1
  · intro n hc
    obtain ⟨k', f', hb⟩ := h.constructed_begun n (((hmem _).mp hc).resolve_left (by simp))
    exact ⟨k', f', (hmem _).mpr (.inr hb)⟩
  · intro n hc
    obtain ⟨k', f', hb⟩ := h.ended_begun n (((hmem _).mp hc).resolve_left (by simp))
    exact ⟨k', f', (hmem _).mpr (.inr hb)⟩
  · intro n
    rw [hlog, List.count_cons_of_ne (by simp)]
    exact h.constructed_once n
  · intro id d hd hp hc
    have hc' := ((hmem _).mp hc).resolve_left (by simp)
    rcases hmap id d hd with ⟨hs, -⟩ | ⟨-, hn, -, -⟩
    · exact h.pending id d hs hp hc'
    · rw [hn] at hc'
      obtain ⟨k', f', hb⟩ := h.constructed_begun _ hc'
      exact hfresh k' f' true hb
  · intro n he
    have hcases : s.EndedByInterface n ∨ n = s.nextNode ∧ accepted = false := by
      rcases he with he | ⟨k', f', hb⟩
      · exact .inl (.inl (((hmem _).mp he).resolve_left (by simp)))
      · rcases (hmem _).mp hb with hb | hb
        · cases hb
          exact .inr ⟨rfl, rfl⟩
        · exact .inl (.inr ⟨k', f', hb⟩)
    rcases hcases with he' | ⟨rfl, ha⟩
    · obtain ⟨hgone, hc⟩ := h.gone n he'
      refine ⟨?_, fun hc' => hc (((hmem _).mp hc').resolve_left (by simp))⟩
      intro id d hd
      rcases hmap id d hd with ⟨hs, -⟩ | ⟨-, hn, -, -⟩
      · exact hgone id d hs
      · rw [hn]
        rintro rfl
        rcases he' with he' | ⟨k', f', hb⟩
        · obtain ⟨k', f', hb⟩ := h.ended_begun _ he'
          exact hfresh k' f' true hb
        · exact hfresh k' f' false hb
    · constructor
      · intro id d hd
        rcases hmap id d hd with ⟨hs, -⟩ | ⟨ha', -⟩
        · have := hobj.node_lt id d hs
          omega
        · rw [ha] at ha'
          cases ha'
      · intro hc
        obtain ⟨k', f', hb⟩ := h.constructed_begun _ (((hmem _).mp hc).resolve_left (by simp))
        exact hfresh k' f' true hb
  · intro n hu
    exact h.unassigned n (((hmem _).mp hu).resolve_left (by simp))

/-- The interface removes a request and will end it. -/
theorem ended (h : Begins s) (hobj : Objects s) {id : FcgiRequestIdentifier} {d : RequestData}
    (hd : s.requestMap[id]? = some d) (hpending : d.requestStatus = .requestPending)
    (hlog : t.log = .endedByInterface d.node :: s.log) (hnode : t.nextNode = s.nextNode)
    (hsocket : t.nextSocket = s.nextSocket) (hmap : t.requestMap = s.requestMap.erase id) :
    Begins t := by
  have hdata : ∀ (id' : FcgiRequestIdentifier) (d' : RequestData), t.requestMap[id']? = some d' →
      id' ≠ id ∧ s.requestMap[id']? = some d' := by
    intro id' d' hd'
    rw [hmap] at hd'
    grind
  have hmem : ∀ e : Event, e ∈ t.log ↔ e = .endedByInterface d.node ∨ e ∈ s.log := by
    intro e
    rw [hlog, List.mem_cons]
  have hbegun : ∀ n k f, t.Begun n k f ↔ s.Begun n k f := by
    intro n k f
    exact exists_congr fun a => by simp [hmem]
  constructor
  · intro n k f a hb
    rw [hnode, hsocket]
    exact h.lt n k f a (((hmem _).mp hb).resolve_left (by simp))
  · rw [hlog]
    refine List.pairwise_cons.mpr ⟨?_, h.sorted⟩
    rintro e - n k f a n' k' f' a' heq
    cases heq
  · intro id' d' hd'
    exact (hmem _).mpr (.inr (h.entry id' d' (hdata id' d' hd').2))
  · intro id' d' hd' n hb
    exact h.latest id' d' (hdata id' d' hd').2 n ((hbegun _ _ _).mp hb)
  · intro n hc
    obtain ⟨k, f, hb⟩ := h.constructed_begun n (((hmem _).mp hc).resolve_left (by simp))
    exact ⟨k, f, (hmem _).mpr (.inr hb)⟩
  · intro n hc
    rcases (hmem _).mp hc with he | he
    · cases he
      exact ⟨d.socket, id.fcgiId, (hmem _).mpr (.inr (h.entry id d hd))⟩
    · obtain ⟨k, f, hb⟩ := h.ended_begun n he
      exact ⟨k, f, (hmem _).mpr (.inr hb)⟩
  · intro n
    rw [hlog, List.count_cons_of_ne (by simp)]
    exact h.constructed_once n
  · intro id' d' hd' hp hc
    exact h.pending id' d' (hdata id' d' hd').2 hp (((hmem _).mp hc).resolve_left (by simp))
  · intro n he
    have hcases : n = d.node ∨ s.EndedByInterface n := by
      rcases he with he | ⟨k, f, hb⟩
      · rcases (hmem _).mp he with he | he
        · cases he
          exact .inl rfl
        · exact .inr (.inl he)
      · exact .inr (.inr ⟨k, f, ((hmem _).mp hb).resolve_left (by simp)⟩)
    rcases hcases with rfl | he'
    · constructor
      · intro id' d' hd' hn
        obtain ⟨hne, hs⟩ := hdata id' d' hd'
        exact hne (hobj.node_inj id' id d' d hs hd hn)
      · intro hc
        exact h.pending id d hd hpending (((hmem _).mp hc).resolve_left (by simp))
    · obtain ⟨hgone, hc⟩ := h.gone n he'
      refine ⟨?_, fun hc' => hc (((hmem _).mp hc').resolve_left (by simp))⟩
      intro id' d' hd'
      exact hgone id' d' (hdata id' d' hd').2
  · intro n hu
    exact h.unassigned n (((hmem _).mp hu).resolve_left (by simp))

/-- The object of a request is constructed. -/
theorem constructed (h : Begins s) (hobj : Objects s) {id : FcgiRequestIdentifier}
    {d d' : RequestData} (hd : s.requestMap[id]? = some d)
    (hpending : d.requestStatus = .requestPending)
    (hlog : t.log = .constructed d.node :: s.log) (hnode : t.nextNode = s.nextNode)
    (hsocket : t.nextSocket = s.nextSocket) (hmap : t.requestMap = s.requestMap.insert id d')
    (hdnode : d'.node = d.node) (hdsocket : d'.socket = d.socket)
    (hdstatus : d'.requestStatus = .requestAssigned) : Begins t := by
  have hdata : ∀ (id' : FcgiRequestIdentifier) (e : RequestData), t.requestMap[id']? = some e →
      id' = id ∧ e = d' ∨ id' ≠ id ∧ s.requestMap[id']? = some e := by
    intro id' e he
    rw [hmap] at he
    grind
  have hmem : ∀ e : Event, e ∈ t.log ↔ e = .constructed d.node ∨ e ∈ s.log := by
    intro e
    rw [hlog, List.mem_cons]
  have hbegun : ∀ n k f, t.Begun n k f ↔ s.Begun n k f := by
    intro n k f
    exact exists_congr fun a => by simp [hmem]
  have hended : ∀ n, t.EndedByInterface n ↔ s.EndedByInterface n := by
    intro n
    simp [System.EndedByInterface, hmem]
  constructor
  · intro n k f a hb
    rw [hnode, hsocket]
    exact h.lt n k f a (((hmem _).mp hb).resolve_left (by simp))
  · rw [hlog]
    refine List.pairwise_cons.mpr ⟨?_, h.sorted⟩
    rintro e - n k f a n' k' f' a' heq
    cases heq
  · intro id' e he
    rcases hdata id' e he with ⟨rfl, rfl⟩ | ⟨-, hs⟩
    · rw [hdnode, hdsocket]
      exact (hmem _).mpr (.inr (h.entry id' d hd))
    · exact (hmem _).mpr (.inr (h.entry id' e hs))
  · intro id' e he n hb
    rcases hdata id' e he with ⟨rfl, rfl⟩ | ⟨-, hs⟩
    · rw [hdsocket] at hb
      rw [hdnode]
      exact h.latest id' d hd n ((hbegun _ _ _).mp hb)
    · exact h.latest id' e hs n ((hbegun _ _ _).mp hb)
  · intro n hc
    rcases (hmem _).mp hc with he | he
    · cases he
      exact ⟨d.socket, id.fcgiId, (hmem _).mpr (.inr (h.entry id d hd))⟩
    · obtain ⟨k, f, hb⟩ := h.constructed_begun n he
      exact ⟨k, f, (hmem _).mpr (.inr hb)⟩
  · intro n hc
    obtain ⟨k, f, hb⟩ := h.ended_begun n (((hmem _).mp hc).resolve_left (by simp))
    exact ⟨k, f, (hmem _).mpr (.inr hb)⟩
  · intro n
    rw [hlog]
    by_cases hn : n = d.node
    · subst hn
      rw [List.count_cons_self, List.count_eq_zero.mpr (h.pending id d hd hpending)]
    · rw [List.count_cons_of_ne (by simpa using Ne.symm hn)]
      exact h.constructed_once n
  · intro id' e he hp hc
    rcases hdata id' e he with ⟨rfl, rfl⟩ | ⟨hne, hs⟩
    · rw [hdstatus] at hp
      cases hp
    · rcases (hmem _).mp hc with hc | hc
      · simp only [Event.constructed.injEq] at hc
        exact hne (hobj.node_inj id' id e d hs hd hc)
      · exact h.pending id' e hs hp hc
  · intro n he
    obtain ⟨hgone, hc⟩ := h.gone n ((hended n).mp he)
    constructor
    · intro id' e he'
      rcases hdata id' e he' with ⟨rfl, rfl⟩ | ⟨-, hs⟩
      · rw [hdnode]
        exact hgone id' d hd
      · exact hgone id' e hs
    · intro hc'
      rcases (hmem _).mp hc' with he' | he'
      · simp only [Event.constructed.injEq] at he'
        exact hgone id d hd he'.symm
      · exact hc he'
  · intro n hu
    exact h.unassigned n (((hmem _).mp hu).resolve_left (by simp))

theorem interfaceMove (h : Begins s) (ht : Tables s) (hobj : Objects s) {loose : Option Nat}
    (hm : InterfaceMove loose s t) : Begins t := by
  cases hm with
  | request i hm => exact h.requestMove hm
  | @beginRequest id m n role _ hnew hmutex =>
    obtain ⟨r, hr⟩ := ht.mutex_socket _ m hmutex
    refine h.begun hobj (ht.socket_lt _ _ hr) rfl rfl rfl ?_
    intro id' d hd
    simp only [ExtTreeMap.getElem?_insert] at hd
    split at hd
    · rename_i he
      cases hd
      obtain rfl := LawfulEqCmp.eq_of_compare he
      exact .inr ⟨rfl, rfl, rfl, rfl⟩
    · rename_i he
      left
      refine ⟨hd, ?_⟩
      rintro ⟨hs, hf⟩
      obtain ⟨r', hr'⟩ := ht.request_socket id' d hd
      have hc := ht.socket_inj _ _ _ _ hr' hr hs
      apply he
      have : id = id' := by
        cases id
        cases id'
        simp only at hc hf
        rw [hc, hf]
      rw [this]
      exact ReflCmp.compare_self
  | @reject id m hnew hmutex =>
    obtain ⟨r, hr⟩ := ht.mutex_socket _ m hmutex
    refine h.begun hobj (ht.socket_lt _ _ hr) rfl rfl rfl ?_
    intro id' d hd
    left
    refine ⟨hd, ?_⟩
    rintro ⟨hs, hf⟩
    obtain ⟨r', hr'⟩ := ht.request_socket id' d hd
    have hc := ht.socket_inj _ _ _ _ hr' hr hs
    have : id' = id := by
      cases id
      cases id'
      simp only at hc hf
      rw [hc, hf]
    rw [this] at hd
    rw [hnew] at hd
    cases hd
  | touch hd hsame =>
    refine h.congr (l := []) rfl (by simp) rfl (Nat.le_refl _) ?_
    intro id' d' hd'
    have h₁ := hsame.node
    have h₂ := hsame.socket
    have h₃ := hsame.requestStatus
    simp only [System.setData] at hd'
    grind
  | @remove id d n ended hd hpending hcount =>
    cases ended with
    | true => exact h.ended hobj hd hpending rfl rfl rfl rfl
    | false =>
      refine h.congr (l := []) rfl (by simp) rfl (Nat.le_refl _) ?_
      intro id' d' hd'
      simp only [System.eraseRequest] at hd'
      exact ⟨d', by grind, rfl, rfl, fun hp => hp⟩
  | construct hgood halive hd hpending =>
    exact h.constructed hobj hd hpending rfl rfl rfl rfl rfl rfl rfl
  | send => exact h.offered ..
  | closeDummy | closeConnection =>
    refine h.congr (l := [.closed _ _ _ _]) rfl (by simp [Event.Silent]) rfl (Nat.le_refl _) ?_
    intro id d hd
    exact ⟨d, hd, rfl, rfl, fun hp => hp⟩
  | @makeDummy c m requests hmutex _ hflag =>
    refine h.congr (l := []) rfl (by simp) rfl (Nat.le_refl _) ?_
    intro id d' hd'
    have hd'' : requests[id]? = some d' := hd'
    rw [hflag id] at hd''
    split at hd''
    · rw [Option.map_eq_some_iff] at hd''
      obtain ⟨d, hd, rfl⟩ := hd''
      exact ⟨d, hd, rfl, rfl, fun hp => hp⟩
    · exact ⟨d', hd'', rfl, rfl, fun hp => hp⟩
  | flag _ hd =>
    refine h.congr (l := []) rfl (by simp) rfl (Nat.le_refl _) ?_
    intro id' d' hd'
    simp only [System.setData] at hd'
    grind
  | register =>
    refine h.congr (l := [.registered _ _]) rfl (by simp [Event.Silent]) rfl (Nat.le_succ _) ?_
    intro id d hd
    exact ⟨d, hd, rfl, rfl, fun hp => hp⟩
  | destroy =>
    refine h.congr rfl ?_ rfl (Nat.le_refl _) ?_
    · intro e he
      obtain ⟨c, -, rfl⟩ := List.mem_map.mp he
      trivial
    · intro id d hd
      simp at hd
  | _ => exact h.same rfl rfl (Nat.le_refl _) rfl

end Begins

end AsComponents.Server
