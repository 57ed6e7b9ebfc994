import AsComponents.Tables

/-! Registered descriptors are closed once. -/

namespace AsComponents.Server

open Protocol NameValue SocketFunctions AsComponents.Partition Std

/-- An event which closes the descriptor registered for a connection. -/
def Event.closes (k : Nat) : Event → Bool
  | .closed _ (some j) _ _ => j == k
  | _ => false

/-- An event that is not about descriptors. -/
def Event.Other : Event → Prop
  | .registered .. | .closed .. => False
  | _ => True

/-- The descriptors that are open are those which were registered and not yet
closed. -/
structure Closes (s : System) : Prop where
  registered_lt : ∀ c k, .registered c k ∈ s.log → k < s.nextSocket
  registered_inj : ∀ c c' k, .registered c k ∈ s.log → .registered c' k ∈ s.log → c = c'
  open_registered : ∀ (c : Nat) (d : Descriptor), s.descriptors[c]? = some d →
    .registered c d.socket ∈ s.log
  open_unclosed : ∀ (c : Nat) (d : Descriptor), s.descriptors[c]? = some d →
    s.log.countP (Event.closes d.socket) = 0
  settled : ∀ c k, .registered c k ∈ s.log → (∃ r, s.descriptors[c]? = some ⟨k, r⟩) ∨
    s.log.countP (Event.closes k) = 1
  closed_known : ∀ c k a b, .closed c k a b ∈ s.log → ∃ j, k = some j ∧ .registered c j ∈ s.log
  unassigned : ∀ c k a, .closed c k a false ∈ s.log → a = false

namespace Closes

variable {s t : System}

theorem countP_other {e : Event} (he : e.Other) (k : Nat) (log : List Event) :
    (e :: log).countP (Event.closes k) = log.countP (Event.closes k) := by
  apply List.countP_cons_of_neg
  cases e <;> first | exact absurd he id | simp [Event.closes]

/-- An event that is not about descriptors is recorded and no descriptor
changes its connection. -/
theorem other (h : Closes s) {e : Event} (he : e.Other) (hl : t.log = e :: s.log)
    (hn : t.nextSocket = s.nextSocket) (hd : t.descriptors = s.descriptors) : Closes t := by
  have hr : ∀ c k, .registered c k ∈ t.log ↔ .registered c k ∈ s.log := by
    intro c k
    rw [hl, List.mem_cons]
    exact ⟨fun hc => hc.resolve_left (by rintro rfl; exact he), .inr⟩
  have hc : ∀ c k a b, .closed c k a b ∈ t.log ↔ .closed c k a b ∈ s.log := by
    intro c k a b
    rw [hl, List.mem_cons]
    exact ⟨fun hc => hc.resolve_left (by rintro rfl; exact he), .inr⟩
  constructor
  · intro c k hk
    rw [hn]
    exact h.registered_lt c k ((hr c k).mp hk)
  · intro c c' k hk hk'
    exact h.registered_inj c c' k ((hr c k).mp hk) ((hr c' k).mp hk')
  · intro c d hcd
    rw [hd] at hcd
    exact (hr c d.socket).mpr (h.open_registered c d hcd)
  · intro c d hcd
    rw [hd] at hcd
    rw [hl, countP_other he]
    exact h.open_unclosed c d hcd
  · intro c k hk
    rw [hd, hl, countP_other he]
    exact h.settled c k ((hr c k).mp hk)
  · intro c k a b hk
    obtain ⟨j, hj, hreg⟩ := h.closed_known c k a b ((hc c k a b).mp hk)
    exact ⟨j, hj, (hr c j).mpr hreg⟩
  · intro c k a hk
    exact h.unassigned c k a ((hc c k a false).mp hk)

theorem congr (h : Closes s) (hl : t.log = s.log) (hn : t.nextSocket = s.nextSocket)
    (hd : t.descriptors = s.descriptors) : Closes t := by
  constructor <;> simp only [hl, hn, hd]
  · exact h.registered_lt
  · exact h.registered_inj
  · exact h.open_registered
  · exact h.open_unclosed
  · exact h.settled
  · exact h.closed_known
  · exact h.unassigned

/-- A descriptor is redirected: it stays registered for its connection. -/
theorem redirect (h : Closes s) {c : Nat} (hl : t.log = s.log) (hn : t.nextSocket = s.nextSocket)
    (hd : t.descriptors = s.descriptors.modify c fun d => { d with redirected := true }) :
    Closes t := by
  have hsock : ∀ (c' : Nat) (d : Descriptor), t.descriptors[c']? = some d →
      ∃ r, s.descriptors[c']? = some ⟨d.socket, r⟩ := by
    intro c' d hcd
    rw [hd, ExtTreeMap.getElem?_modify] at hcd
    split at hcd
    · rename_i hcc
      obtain rfl : c = c' := by simpa using hcc
      rw [Option.map_eq_some_iff] at hcd
      obtain ⟨d₀, hd₀, rfl⟩ := hcd
      exact ⟨d₀.redirected, hd₀⟩
    · exact ⟨d.redirected, hcd⟩
  constructor <;> (try simp only [hl, hn])
  · exact h.registered_lt
  · exact h.registered_inj
  · intro c' d hcd
    obtain ⟨r, hr⟩ := hsock c' d hcd
    exact h.open_registered c' ⟨d.socket, r⟩ hr
  · intro c' d hcd
    obtain ⟨r, hr⟩ := hsock c' d hcd
    exact h.open_unclosed c' ⟨d.socket, r⟩ hr
  · intro c' k hk
    have := h.settled c' k hk
    rw [hd]
    grind
  · exact h.closed_known
  · exact h.unassigned

/-- An open descriptor is closed. -/
theorem close (h : Closes s) {c : Nat} {d : Descriptor} {a b : Bool}
    (hcd : s.descriptors[c]? = some d) (hab : b = false → a = false)
    (hl : t.log = .closed c (some d.socket) a b :: s.log) (hn : t.nextSocket = s.nextSocket)
    (hd : t.descriptors = s.descriptors.erase c) : Closes t := by
  have hr : ∀ c k, .registered c k ∈ t.log ↔ .registered c k ∈ s.log := by
    intro c k
    simp [hl]
  have hcount : ∀ k, t.log.countP (Event.closes k) =
      s.log.countP (Event.closes k) + if d.socket = k then 1 else 0 := by
    intro k
    simp [hl, List.countP_cons, Event.closes]
  have hreg := h.open_registered c d hcd
  constructor
  · intro c' k hk
    rw [hn]
    exact h.registered_lt c' k ((hr c' k).mp hk)
  · intro c₁ c₂ k h₁ h₂
    exact h.registered_inj c₁ c₂ k ((hr c₁ k).mp h₁) ((hr c₂ k).mp h₂)
  · intro c' d' hcd'
    rw [hd] at hcd'
    exact (hr c' d'.socket).mpr (h.open_registered c' d' (by grind))
  · intro c' d' hcd'
    rw [hd] at hcd'
    have hcd₁ : s.descriptors[c']? = some d' := by grind
    have hne : c ≠ c' := by
      rintro rfl
      simp at hcd'
    have hk : d.socket ≠ d'.socket := by
      intro he
      apply hne
      refine h.registered_inj c c' d'.socket ?_ (h.open_registered c' d' hcd₁)
      rw [← he]
      exact hreg
    rw [hcount, if_neg hk]
    exact h.open_unclosed c' d' hcd₁
  · intro c' k hk
    have hk' := (hr c' k).mp hk
    rw [hcount]
    by_cases hkc : d.socket = k
    · subst hkc
      right
      rw [h.open_unclosed c d hcd, if_pos rfl]
    · rw [if_neg hkc]
      rcases h.settled c' k hk' with ⟨r, hr'⟩ | hone
      · left
        refine ⟨r, ?_⟩
        rw [hd]
        grind
      · exact .inr hone
  · intro c' k a' b' hk
    rw [hl, List.mem_cons] at hk
    rcases hk with hk | hk
    · simp only [Event.closed.injEq] at hk
      obtain ⟨rfl, rfl, -, -⟩ := hk
      exact ⟨d.socket, rfl, (hr c' d.socket).mpr hreg⟩
    · obtain ⟨j, hj, hreg'⟩ := h.closed_known c' k a' b' hk
      exact ⟨j, hj, (hr c' j).mpr hreg'⟩
  · intro c' k a' hk
    rw [hl, List.mem_cons] at hk
    rcases hk with hk | hk
    · simp only [Event.closed.injEq] at hk
      obtain ⟨-, -, rfl, rfl⟩ := hk
      exact hab rfl
    · exact h.unassigned c' k a' hk

theorem register (h : Closes s) {c : Nat} (hnew : c ∉ s.descriptors)
    (hl : t.log = .registered c s.nextSocket :: s.log) (hn : t.nextSocket = s.nextSocket + 1)
    (hd : t.descriptors = s.descriptors.insert c { socket := s.nextSocket }) :
    Closes t := by
  have hcount : ∀ k, t.log.countP (Event.closes k) = s.log.countP (Event.closes k) := by
    intro k
    rw [hl]
    exact List.countP_cons_of_neg (by simp [Event.closes])
  have hzero : s.log.countP (Event.closes s.nextSocket) = 0 := by
    apply List.countP_eq_zero.mpr
    intro e he hclose
    cases e with
    | closed c' k a b =>
      obtain ⟨j, rfl, hreg⟩ := h.closed_known c' k a b he
      have hj := h.registered_lt c' j hreg
      simp only [Event.closes, beq_iff_eq] at hclose
      omega
    | _ => simp [Event.closes] at hclose
  constructor
  · intro c' k hk
    rw [hl, List.mem_cons] at hk
    rw [hn]
    rcases hk with hk | hk
    · simp only [Event.registered.injEq] at hk
      omega
    · have := h.registered_lt c' k hk
      omega
  · intro c₁ c₂ k h₁ h₂
    rw [hl, List.mem_cons] at h₁ h₂
    rcases h₁ with h₁ | h₁
    · rcases h₂ with h₂ | h₂
      · simp only [Event.registered.injEq] at h₁ h₂
        exact h₁.1.trans h₂.1.symm
      · simp only [Event.registered.injEq] at h₁
        have := h.registered_lt c₂ k h₂
        omega
    · rcases h₂ with h₂ | h₂
      · simp only [Event.registered.injEq] at h₂
        have := h.registered_lt c₁ k h₁
        omega
      · exact h.registered_inj c₁ c₂ k h₁ h₂
  · intro c' d hcd
    rw [hd] at hcd
    rw [hl, List.mem_cons]
    have := h.open_registered c' d
    grind
  · intro c' d hcd
    rw [hd] at hcd
    rw [hcount]
    have := h.open_unclosed c' d
    grind
  · intro c' k hk
    rw [hcount]
    rw [hl, List.mem_cons] at hk
    rcases hk with hk | hk
    · simp only [Event.registered.injEq] at hk
      obtain ⟨rfl, rfl⟩ := hk
      left
      exact ⟨false, by rw [hd]; simp⟩
    · rcases h.settled c' k hk with ⟨r, hr⟩ | hone
      · left
        refine ⟨r, ?_⟩
        rw [hd]
        grind
      · exact .inr hone
  · intro c' k a b hk
    rw [hl, List.mem_cons] at hk
    obtain ⟨j, hj, hreg⟩ := h.closed_known c' k a b (hk.resolve_left (by simp))
    exact ⟨j, hj, by rw [hl]; exact List.mem_cons_of_mem _ hreg⟩
  · intro c' k a hk
    rw [hl, List.mem_cons] at hk
    exact h.unassigned c' k a (hk.resolve_left (by simp))

theorem retired (h : Closes s) (i : Nat) (o : FcgiRequest) (n : Nat) : Closes (s.retired i o n) :=
  h.other (e := .removed (s.requests i).node (some (s.requests i).node) true) trivial rfl rfl rfl

theorem offered (h : Closes s) (c : Nat) (m : WriteMutex) (origin : Option Nat) (bytes : Bytes)
    (socket : Socket) (accepted : Nat) (corrupt : Bool) :
    Closes (s.offered c m origin bytes socket accepted corrupt) :=
  h.congr rfl rfl rfl

theorem requestMove (h : Closes s) {i : Nat} (hm : RequestMove i s t) : Closes t := by
  cases hm with
  | retire => exact h.retired i _ _
  | conclude => exact (h.offered ..).retired i _ _
  | note => exact h.other (e := .completed _ _ _) trivial rfl rfl rfl
  | _ => exact h.congr rfl rfl rfl

/-- The destructor closes what is open, each descriptor once. -/
theorem destroy (h : Closes s) {order : List Nat} {assigned : Nat → Bool} (hnodup : order.Nodup)
    (hall : ∀ c, c ∈ order → c ∈ s.descriptors) {u : System}
    (hl : u.log = (order.map fun c =>
      .closed c ((s.descriptors[c]?).map (·.socket)) (assigned c) true) ++ s.log)
    (hn : u.nextSocket = s.nextSocket)
    (hd : ∀ c : Nat, u.descriptors[c]? = if c ∈ order then none else s.descriptors[c]?) :
    Closes u := by
  induction order generalizing u with
  | nil =>
    have hmap : u.descriptors = s.descriptors := by
      apply ExtTreeMap.ext_getElem?
      intro c
      simpa using hd c
    exact h.congr hl hn hmap
  | cons c cs ih =>
    obtain ⟨hc, hcs⟩ := List.nodup_cons.mp hnodup
    obtain ⟨d, hcd⟩ : ∃ d, s.descriptors[c]? = some d := by
      have := hall c (by simp)
      exact ⟨s.descriptors[c], by grind⟩
    -- the state in which the descriptors after `c` have been closed
    let v : System := { s with
      log := (cs.map fun c => .closed c ((s.descriptors[c]?).map (·.socket)) (assigned c) true) ++
        s.log
      descriptors := s.descriptors.filter fun c' _ => c' ∉ cs }
    have hv : Closes v := by
      refine ih hcs (fun c' hc' => hall c' (by simp [hc'])) rfl rfl ?_
      intro c'
      simp only [v]
      grind
    have hvc : v.descriptors[c]? = some d := by
      simp only [v]
      grind
    refine hv.close (a := assigned c) (b := true) hvc (by simp) ?_ hn ?_
    · rw [hl, List.map_cons, hcd]
      rfl
    · apply ExtTreeMap.ext_getElem?
      intro c'
      have := hd c'
      simp only [v]
      grind

theorem interfaceMove (h : Closes s) (ht : Tables s) {loose : Option Nat} (hm : InterfaceMove loose s t) : Closes t := by
  cases hm with
  | request i hm => exact h.requestMove hm
  | beginRequest => exact h.other (e := .begun _ _ _ _) trivial rfl rfl rfl
  | reject => exact h.other (e := .begun _ _ _ _) trivial rfl rfl rfl
  | remove ended =>
    cases ended with
    | true => exact h.other (e := .endedByInterface _) trivial rfl rfl rfl
    | false => exact h.congr rfl rfl rfl
  | construct => exact h.other (e := .constructed _) trivial rfl rfl rfl
  | @closeDummy c hdummy hnone =>
    have hopen : c ∈ s.descriptors := (ht.descriptors_iff c).mpr (.inr hdummy)
    have hcd : s.descriptors[c]? = some s.descriptors[c] := by grind
    refine h.close (b := false) hcd (fun _ => rfl) ?_ rfl rfl
    rw [hcd]
    rfl
  | @closeConnection c m hm _ hnone =>
    obtain ⟨r, hcd⟩ := ht.mutex_socket c m hm
    refine h.close (b := false) hcd (fun _ => rfl) ?_ rfl rfl
    rw [hcd]
    rfl
  | makeDummy => exact h.redirect rfl rfl rfl
  | redirect => exact h.redirect rfl rfl rfl
  | register _ hcl =>
    refine h.register ?_ rfl rfl rfl
    intro hc
    rw [ExtTreeMap.contains_iff_mem.mpr hc] at hcl
    cases hcl
  | destroy _ hnodup hall =>
    refine h.destroy hnodup (fun c hc => (hall c).mp hc) rfl rfl ?_
    intro c
    have := hall c
    simp only [ExtTreeMap.getElem?_empty]
    grind
  | _ => exact h.congr rfl rfl rfl

end Closes

end AsComponents.Server
