import AsComponents.Closes

/-! `request_count_map_` counts the requests of every connection. -/

namespace AsComponents.Server

open Protocol NameValue SocketFunctions AsComponents.Partition Std

/-! ## The requests of a connection -/

theorem nodup_requestsOf (s : System) (c : Nat) : (s.requestsOf c).Nodup :=
  List.Nodup.filter _ ExtTreeMap.nodup_keys

/-- Only the keys of `request_map_` matter. -/
theorem length_requestsOf_congr {s t : System} {c : Nat}
    (h : ∀ id : FcgiRequestIdentifier, id.descriptor = c → (id ∈ t.requestMap ↔ id ∈ s.requestMap)) :
    (t.requestsOf c).length = (s.requestsOf c).length := by
  apply List.Perm.length_eq
  apply (List.perm_ext_iff_of_nodup (nodup_requestsOf t c) (nodup_requestsOf s c)).mpr
  intro id
  rw [mem_requestsOf, mem_requestsOf]
  constructor
  · rintro ⟨hm, hc⟩
    exact ⟨(h id hc).mp hm, hc⟩
  · rintro ⟨hm, hc⟩
    exact ⟨(h id hc).mpr hm, hc⟩

/-- One request more. -/
theorem length_requestsOf_cons {s t : System} {id : FcgiRequestIdentifier}
    (hnew : id ∉ s.requestMap)
    (h : ∀ id', id' ∈ t.requestMap ↔ id' = id ∨ id' ∈ s.requestMap) :
    (t.requestsOf id.descriptor).length = (s.requestsOf id.descriptor).length + 1 := by
  have hnodup : (id :: s.requestsOf id.descriptor).Nodup := by
    refine List.nodup_cons.mpr ⟨?_, nodup_requestsOf s _⟩
    intro hm
    exact hnew (mem_requestsOf.mp hm).1
  rw [← List.length_cons (a := id)]
  apply List.Perm.length_eq
  apply (List.perm_ext_iff_of_nodup (nodup_requestsOf t _) hnodup).mpr
  intro id'
  rw [List.mem_cons, mem_requestsOf, mem_requestsOf, h id']
  constructor
  · rintro ⟨hid | hm, hc⟩
    · exact .inl hid
    · exact .inr ⟨hm, hc⟩
  · rintro (rfl | ⟨hm, hc⟩)
    · exact ⟨.inl rfl, rfl⟩
    · exact ⟨.inr hm, hc⟩

theorem requestsOf_eq_nil {s : System} {c : Nat}
    (h : ∀ id : FcgiRequestIdentifier, id ∈ s.requestMap → id.descriptor ≠ c) :
    s.requestsOf c = [] := by
  apply List.eq_nil_iff_forall_not_mem.mpr
  intro id hid
  obtain ⟨hm, hc⟩ := mem_requestsOf.mp hid
  exact h id hm hc

/-! ## The counts -/

structure Counts (s : System) : Prop where
  count : ∀ (c n : Nat), s.requestCountMap[c]? = some n → n = (s.requestsOf c).length
  le_max : ∀ (c n : Nat), s.requestCountMap[c]? = some n → n ≤ s.maximumRequestCountPerConnection

namespace Counts

variable {s t : System}

/-- The same counts for the same requests. -/
theorem congr (h : Counts s) (hc : t.requestCountMap = s.requestCountMap)
    (hmax : t.maximumRequestCountPerConnection = s.maximumRequestCountPerConnection)
    (hm : ∀ id, id ∈ t.requestMap ↔ id ∈ s.requestMap) : Counts t := by
  constructor
  · intro c n hn
    rw [hc] at hn
    rw [h.count c n hn]
    exact (length_requestsOf_congr fun id _ => hm id).symm
  · intro c n hn
    rw [hc] at hn
    rw [hmax]
    exact h.le_max c n hn

theorem eraseRequest (h : Counts s) {id : FcgiRequestIdentifier} {n : Nat}
    (hm : id ∈ s.requestMap) (hn : s.requestCountMap[id.descriptor]? = some (n + 1)) :
    Counts (s.eraseRequest id n) := by
  have hcount := h.count _ _ hn
  have hle := h.le_max _ _ hn
  have hnew : id ∉ (s.eraseRequest id n).requestMap := by simp [System.eraseRequest]
  have hlen := length_requestsOf_cons (t := s) hnew (by
      intro id'
      simp only [System.eraseRequest]
      grind)
  constructor
  · intro c m hc
    simp only [System.eraseRequest, ExtTreeMap.getElem?_insert] at hc
    split at hc
    · rename_i he
      obtain rfl : id.descriptor = c := by simpa using he
      cases hc
      omega
    · rename_i he
      have hne : id.descriptor ≠ c := by simpa using he
      rw [h.count c m hc]
      refine (length_requestsOf_congr fun id' hid' => ?_).symm
      have : id ≠ id' := by
        rintro rfl
        exact hne hid'
      simp only [System.eraseRequest]
      grind
  · intro c m hc
    simp only [System.eraseRequest, ExtTreeMap.getElem?_insert] at hc
    split at hc
    · cases hc
      show n ≤ s.maximumRequestCountPerConnection
      omega
    · exact h.le_max c m hc

theorem retired (h : Counts s) {i n : Nat} {o : FcgiRequest}
    (hm : (s.requests i).requestIdentifier ∈ s.requestMap)
    (hn : s.requestCountMap[(s.requests i).requestIdentifier.descriptor]? = some (n + 1)) :
    Counts (s.retired i o n) :=
  (h.eraseRequest hm hn).congr rfl rfl fun _ => Iff.rfl

theorem offered (h : Counts s) (c : Nat) (m : WriteMutex) (origin : Option Nat) (bytes : Bytes)
    (socket : Socket) (accepted : Nat) (corrupt : Bool) :
    Counts (s.offered c m origin bytes socket accepted corrupt) :=
  h.congr rfl rfl fun _ => Iff.rfl

theorem requestMove (h : Counts s) {i : Nat} (hm : RequestMove i s t) : Counts t := by
  cases hm with
  | retire owns _ _ hn =>
    have hd := owns.data
    exact h.retired (by grind) hn
  | conclude owns _ _ hn =>
    have hd := owns.data
    have hmem : (s.requests i).requestIdentifier ∈ s.requestMap := by grind
    exact (h.offered ..).retired hmem hn
  | _ => exact h.congr rfl rfl fun _ => Iff.rfl

theorem interfaceMove (h : Counts s) (ht : Tables s) {loose : Option Nat}
    (hm : InterfaceMove loose s t) : Counts t := by
  cases hm with
  | request i hm => exact h.requestMove hm
  | @beginRequest id m n _ _ hnew hmutex hn hlt =>
    have hcount := h.count _ _ hn
    constructor
    · intro c k hc
      simp only [ExtTreeMap.getElem?_insert] at hc
      split at hc
      · rename_i he
        obtain rfl : id.descriptor = c := by simpa using he
        cases hc
        rw [hcount]
        refine (length_requestsOf_cons (by grind) ?_).symm
        intro id'
        grind
      · rename_i he
        have hne : id.descriptor ≠ c := by simpa using he
        rw [h.count c k hc]
        refine (length_requestsOf_congr fun id' hid' => ?_).symm
        have : id ≠ id' := by
          rintro rfl
          exact hne hid'
        grind
    · intro c k hc
      simp only [ExtTreeMap.getElem?_insert] at hc
      split at hc
      · cases hc
        exact hlt
      · exact h.le_max c k hc
  | touch hd =>
    refine h.congr rfl rfl fun id' => ?_
    simp only [System.setData]
    grind
  | flag _ hd =>
    refine h.congr rfl rfl fun id' => ?_
    simp only [System.setData]
    grind
  | construct _ _ hd =>
    refine h.congr rfl rfl fun id' => ?_
    grind
  | @remove id _ n ended hd _ hn =>
    have hmem : id ∈ s.requestMap := by grind
    have h' := h.eraseRequest hmem hn
    exact h'.congr rfl rfl fun _ => Iff.rfl
  | closeDummy | closeConnection =>
    constructor
    · intro c' n hc
      exact h.count c' n (by grind)
    · intro c' n hc
      exact h.le_max c' n (by grind)
  | @makeDummy c m requests hmutex _ hflag =>
    refine h.congr rfl rfl fun id' => ?_
    have := hflag id'
    grind
  | @register c _ hclosed =>
    have hnil : s.requestsOf c = [] := by
      apply requestsOf_eq_nil
      rintro id hid rfl
      obtain ⟨r, hr⟩ := ht.request_socket id s.requestMap[id] (by grind)
      have : id.descriptor ∈ s.descriptors := by grind
      rw [ExtTreeMap.contains_iff_mem.mpr this] at hclosed
      cases hclosed
    constructor
    · intro c' n hc
      simp only [ExtTreeMap.getElem?_insert] at hc
      split at hc
      · rename_i he
        obtain rfl : c = c' := by simpa using he
        cases hc
        show 0 = (s.requestsOf c).length
        rw [hnil]
        rfl
      · exact h.count c' n hc
    · intro c' n hc
      simp only [ExtTreeMap.getElem?_insert] at hc
      split at hc
      · cases hc
        exact Nat.zero_le _
      · exact h.le_max c' n hc
  | destroy =>
    constructor <;> simp
  | _ => exact h.congr rfl rfl fun _ => Iff.rfl

end Counts

end AsComponents.Server
