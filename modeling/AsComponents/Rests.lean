import AsComponents.Traces

/-! Between two calls on an object that is alive, every batch offered for its
request was accepted as a whole. -/

namespace AsComponents.Server

open Protocol NameValue SocketFunctions AsComponents.Partition Std

structure Rests (s : System) : Prop where
  resting : s.badInterfaceStateDetected = false → ∀ i, s.Live i → (s.requests i).call.Resting →
    ∀ t ∈ s.trace (s.requests i).socket (s.requests i).node, t.accepted = t.bytes.length
  writing : s.badInterfaceStateDetected = false → ∀ i, (s.requests i).call.Writing →
    ∀ before last, s.transmissions (s.requests i).socket = before ++ [last] →
      ∀ t ∈ before, t.origin = some (s.requests i).node → t.accepted = t.bytes.length

namespace Rests

variable {s t : System}

/-- Every object is one that was there before, as far as this matters, or has a
request for which nothing was offered. -/
theorem congr (h : Rests s)
    (hgood : t.badInterfaceStateDetected = false → s.badInterfaceStateDetected = false)
    (hr : t.badInterfaceStateDetected = false → ∀ i, t.Live i → (t.requests i).call.Resting →
      (t.trace (t.requests i).socket (t.requests i).node = []) ∨
      ∃ j, s.Live j ∧ (s.requests j).call.Resting ∧
        t.trace (t.requests i).socket (t.requests i).node =
          s.trace (s.requests j).socket (s.requests j).node)
    (hw : t.badInterfaceStateDetected = false → ∀ i, (t.requests i).call.Writing →
      (s.requests i).call.Writing ∧ (t.requests i).node = (s.requests i).node ∧
        t.transmissions (t.requests i).socket = s.transmissions (s.requests i).socket) : Rests t := by
  constructor
  · intro hb i hl hc x hx
    rcases hr hb i hl hc with hnil | ⟨j, hj, hjc, he⟩
    · rw [hnil] at hx
      simp at hx
    · rw [he] at hx
      exact h.resting (hgood hb) j hj hjc x hx
  · intro hb i hc before last hts x hx ho
    obtain ⟨hc', hn, he⟩ := hw hb i hc
    rw [he] at hts
    rw [hn] at ho
    exact h.writing (hgood hb) i hc' before last hts x hx ho

/-- The objects and what was offered are the same. -/
theorem same (h : Rests s)
    (hgood : t.badInterfaceStateDetected = false → s.badInterfaceStateDetected = false)
    (ht : t.transmissions = s.transmissions) (hr : t.requests = s.requests)
    (hid : t.interfaceIdentifier = s.interfaceIdentifier) : Rests t := by
  refine h.congr hgood ?_ ?_
  · intro _ i hl hc
    right
    refine ⟨i, ?_, ?_, ?_⟩
    · simpa only [System.Live, hr, hid] using hl
    · rw [← hr]
      exact hc
    · rw [hr]
      exact Traces.trace_eq (by rw [ht])
  · intro _ i hc
    rw [hr] at hc ⊢
    exact ⟨hc, rfl, by rw [ht]⟩

/-- One object changes. -/
theorem setRequest (h : Rests s) {i : Nat} {o : FcgiRequest}
    (hgood : t.badInterfaceStateDetected = false → s.badInterfaceStateDetected = false)
    (ht : t.transmissions = s.transmissions) (hr : t.requests = Function.update s.requests i o)
    (hid : t.interfaceIdentifier = s.interfaceIdentifier) (hcall : ¬ o.call.Writing)
    (hrest : s.badInterfaceStateDetected = false → o.LiveFor s.interfaceIdentifier →
      o.call.Resting → s.Live i ∧ (s.requests i).call.Resting ∧
        o.socket = (s.requests i).socket ∧ o.node = (s.requests i).node) : Rests t := by
  have htrace : ∀ k n, t.trace k n = s.trace k n := fun k n => Traces.trace_eq (by rw [ht])
  refine h.congr hgood ?_ ?_
  · intro hb j hl hc
    right
    by_cases hj : j = i
    · subst hj
      have he : t.requests j = o := by simp [hr]
      have hlo : o.LiveFor s.interfaceIdentifier := by
        have := hl
        simp only [System.Live, he, hid] at this
        exact this
      rw [he] at hc ⊢
      obtain ⟨hl', hc', hs, hn⟩ := hrest (hgood hb) hlo hc
      exact ⟨j, hl', hc', by rw [htrace, hs, hn]⟩
    · have he : t.requests j = s.requests j := by simp [hr, hj]
      refine ⟨j, ?_, ?_, ?_⟩
      · simpa only [System.Live, he, hid] using hl
      · rw [← he]
        exact hc
      · rw [he, htrace]
  · intro _ j hc
    by_cases hj : j = i
    · subst hj
      have he : t.requests j = o := by simp [hr]
      rw [he] at hc
      exact absurd hc hcall
    · have he : t.requests j = s.requests j := by simp [hr, hj]
      rw [he] at hc ⊢
      exact ⟨hc, rfl, by rw [ht]⟩

/-- An object moves to another place. -/
theorem moved (h : Rests s) {i j : Nat} (hne : i ≠ j) (hi : ¬ (s.requests i).call.Writing)
    (ht : t.transmissions = s.transmissions)
    (hr : t.requests = Function.update (Function.update s.requests j (s.requests i)) i {})
    (hid : t.interfaceIdentifier = s.interfaceIdentifier)
    (hbad : t.badInterfaceStateDetected = s.badInterfaceStateDetected) : Rests t := by
  have htrace : ∀ k n, t.trace k n = s.trace k n := fun k n => Traces.trace_eq (by rw [ht])
  have hri : t.requests i = {} := by simp [hr]
  have hrj : t.requests j = s.requests i := by simp [hr, Ne.symm hne]
  have hrk : ∀ k, k ≠ i → k ≠ j → t.requests k = s.requests k := by
    intro k hki hkj
    simp [hr, hki, hkj]
  refine h.congr (fun hb => hbad ▸ hb) ?_ ?_
  · intro _ k hl hc
    right
    have hki : k ≠ i := by
      rintro rfl
      exact Objects.live_null hri hl
    by_cases hkj : k = j
    · subst hkj
      refine ⟨i, ?_, ?_, ?_⟩
      · simpa only [System.Live, hrj, hid] using hl
      · rw [← hrj]
        exact hc
      · rw [hrj, htrace]
    · have he := hrk k hki hkj
      refine ⟨k, ?_, ?_, ?_⟩
      · simpa only [System.Live, he, hid] using hl
      · rw [← he]
        exact hc
      · rw [he, htrace]
  · intro _ k hc
    by_cases hki : k = i
    · rw [hki, hri] at hc
      exact absurd hc id
    · by_cases hkj : k = j
      · rw [hkj, hrj] at hc
        exact absurd hc hi
      · rw [hrk k hki hkj] at hc ⊢
        exact ⟨hc, rfl, by rw [ht]⟩

/-- Two live objects have different requests. -/
theorem node_ne (hobj : Objects s) {i j : Nat} {d : RequestData} (owns : Owns s i d)
    (hj : s.Live j) (hne : j ≠ i) : (s.requests j).node ≠ (s.requests i).node := by
  intro he
  obtain ⟨d', owns', -⟩ := hobj.owns owns.good j hj
  apply hne
  refine hobj.inj owns.good j i hj owns.live ?_
  exact hobj.node_inj _ _ d' d owns'.data owns.data (by rw [owns'.node, owns.node, he])

/-- Whoever writes on a socket holds its mutex. -/
theorem socket_ne (ht : Tables s) (hw : Wires s) {c j : Nat} {m : WriteMutex}
    (hm : s.writeMutexMap[c]? = some m) (hmj : m.owner ≠ some j)
    (hj : (s.requests j).call.Writing) : (s.requests j).socket ≠ m.socket := by
  intro he
  obtain ⟨rest, type, iovec, working, total, hcall⟩ := Wires.writing_iff.mp hj
  obtain ⟨m', hm', howner, hsocket⟩ := (hw.writing j _ _ _ _ _ hcall).mutex
  obtain rfl := Wires.mutex_inj ht hm' hm (hsocket.trans he)
  rw [hm, Option.some.injEq] at hm'
  subst hm'
  exact hmj howner

/-- A whole batch is offered on a connection where nobody writes, for no live
object that stays so. -/
theorem offered (h : Rests s) (ht : Tables s) (hw : Wires s) {c : Nat} {m : WriteMutex}
    {x : Transmission} (hm : s.writeMutexMap[c]? = some m) (hfree : m.owner = none)
    (htr : t.transmissions =
      Function.update s.transmissions m.socket (s.transmissions m.socket ++ [x]))
    (hgood : t.badInterfaceStateDetected = false → s.badInterfaceStateDetected = false)
    (hreq : ∀ i, t.Live i ∨ (t.requests i).call.Writing → t.requests i = s.requests i)
    (hid : t.interfaceIdentifier = s.interfaceIdentifier)
    (hother : s.badInterfaceStateDetected = false → ∀ i, t.Live i →
      x.origin ≠ some (s.requests i).node) : Rests t := by
  refine h.congr hgood ?_ ?_
  · intro hb i hl hc
    right
    have he := hreq i (.inl hl)
    have hne := hother (hgood hb) i hl
    refine ⟨i, ?_, ?_, ?_⟩
    · simpa only [System.Live, he, hid] using hl
    · rw [← he]
      exact hc
    · rw [he]
      by_cases hk : (s.requests i).socket = m.socket
      · rw [Traces.trace_append (s := s) (x := x) (by simp [htr, hk]), if_neg hne, List.append_nil]
      · exact Traces.trace_eq (by simp [htr, hk])
  · intro _ i hc
    have he := hreq i (.inr hc)
    rw [he] at hc ⊢
    have hk := socket_ne ht hw hm (by simp [hfree]) hc
    exact ⟨hc, rfl, by simp [htr, hk]⟩

theorem retired (h : Rests s) {i n : Nat} {o : FcgiRequest} (hspent : Spent (s.requests i) o) :
    Rests (s.retired i o n) := by
  refine h.setRequest (i := i) (o := o) id rfl rfl rfl ?_ ?_
  · rcases hspent with rfl | ⟨aborted, rfl⟩ <;> exact id
  · rintro - ⟨ha, hn, hc⟩ -
    rcases hspent with rfl | ⟨aborted, rfl⟩
    · exact absurd ha.symm hn
    · cases hc

/-- The last batch of a request is offered and the request is removed. -/
theorem concluded (h : Rests s) (ht : Tables s) (hobj : Objects s) (hw : Wires s) {i n c : Nat}
    {d : RequestData} {o : FcgiRequest} {m : WriteMutex} {x : Transmission} {u : System}
    (owns : Owns s i d) (hspent : Spent (s.requests i) o) (hm : s.writeMutexMap[c]? = some m)
    (hfree : m.owner = none) (hx : x.origin = some (s.requests i).node)
    (hu : u.transmissions =
      Function.update s.transmissions m.socket (s.transmissions m.socket ++ [x]))
    (hreq : u.requests = s.requests) (hid : u.interfaceIdentifier = s.interfaceIdentifier)
    (hbad : u.badInterfaceStateDetected = s.badInterfaceStateDetected) :
    Rests (u.retired i o n) := by
  have hi : (u.retired i o n).requests i = o := by simp [System.retired, System.setRequest]
  have hr : ∀ j, j ≠ i → (u.retired i o n).requests j = s.requests j := by
    intro j hj
    rw [← hreq]
    simp [System.retired, System.setRequest, System.record, System.eraseRequest, hj]
  have hid' : (u.retired i o n).interfaceIdentifier = s.interfaceIdentifier := hid
  have hdead : ¬ o.LiveFor s.interfaceIdentifier ∧ ¬ o.call.Writing := by
    rcases hspent with rfl | ⟨aborted, rfl⟩
    · exact ⟨fun hl => hl.2.1 hl.1.symm, id⟩
    · exact ⟨fun hl => absurd hl.2.2 (by simp), id⟩
  have hne : ∀ j, (u.retired i o n).Live j → j ≠ i := by
    rintro j hj rfl
    apply hdead.1
    simp only [System.Live, hi, hid'] at hj
    exact hj
  refine h.offered ht hw (x := x) hm hfree hu (fun hb => hbad ▸ hb) ?_ hid' ?_
  · intro j hj
    apply hr
    rcases hj with hj | hj
    · exact hne j hj
    · rintro rfl
      rw [hi] at hj
      exact hdead.2 hj
  · intro _ j hj he
    have hji := hne j hj
    have hl : s.Live j := by
      simpa only [System.Live, hr j hji, hid'] using hj
    exact node_ne hobj owns hl hji (Option.some.inj (he.symm.trans hx))

/-- A round of the write loop of object `i`. -/
theorem round (h : Rests s) (ht : Tables s) (hobj : Objects s) (hw : Wires s) {i : Nat}
    (accepted' : Nat) {rest : Bytes} {type : FcgiType} {iovec : List Bytes}
    {working total accepted : Nat}
    {m : WriteMutex} {before : List Transmission} {bytes : Bytes} {call : Call}
    (hcall : (s.requests i).call = .writing rest type iovec working total)
    (hm : s.writeMutexMap[(s.requests i).requestIdentifier.descriptor]? = some m)
    (howner : m.owner = some i) (hsocket : m.socket = (s.requests i).socket)
    (hts : s.transmissions (s.requests i).socket =
      before ++ [⟨some (s.requests i).node, bytes, accepted⟩])
    (htr : t.transmissions = Function.update s.transmissions (s.requests i).socket
      (before ++ [⟨some (s.requests i).node, bytes, accepted'⟩]))
    (hreq : t.requests = Function.update s.requests i { s.requests i with call := call })
    (hid : t.interfaceIdentifier = s.interfaceIdentifier)
    (hbad : t.badInterfaceStateDetected = s.badInterfaceStateDetected)
    (hwhole : call.Resting → accepted' = bytes.length) : Rests t := by
  have hwr := Wires.Writing.of_eq hcall
  have hlive := (hw.writing i _ _ _ _ _ hcall).live
  have hi : t.requests i = { s.requests i with call := call } := by simp [hreq]
  have hr : ∀ j, j ≠ i → t.requests j = s.requests j := by
    intro j hj
    simp [hreq, hj]
  constructor
  · intro hb j hl hc x hx
    rw [hbad] at hb
    by_cases hji : j = i
    · subst hji
      rw [hi] at hc hx
      simp only [System.trace, htr, Function.update_self, List.mem_filter, List.mem_append] at hx
      obtain ⟨hx | hx, ho⟩ := hx
      · exact h.writing hb j hwr before _ hts x hx (by simpa using ho)
      · obtain rfl := List.mem_singleton.mp hx
        exact hwhole hc
    · have hl' : s.Live j := by
        simpa only [System.Live, hr j hji, hid] using hl
      obtain ⟨d, owns, -⟩ := hobj.owns hb i hlive
      have hne := node_ne hobj owns hl' hji
      rw [hr j hji] at hc hx
      refine h.resting hb j hl' hc x ?_
      by_cases hk : (s.requests j).socket = (s.requests i).socket
      · simp only [System.trace, htr, hts, hk, Function.update_self, List.filter_append] at hx ⊢
        simpa [Ne.symm hne] using hx
      · rw [Traces.trace_eq (s := s) (by simp [htr, hk])] at hx
        exact hx
  · intro hb j hc before' last hts' x hx ho
    rw [hbad] at hb
    by_cases hji : j = i
    · subst hji
      rw [hi] at hts' ho
      simp only [htr, Function.update_self] at hts'
      obtain ⟨rfl, -⟩ := List.append_inj' hts' rfl
      exact h.writing hb j hwr before _ hts x hx ho
    · rw [hr j hji] at hc hts' ho
      have hk : (s.requests j).socket ≠ (s.requests i).socket := by
        rw [← hsocket]
        refine socket_ne ht hw hm ?_ hc
        rw [howner]
        simpa using Ne.symm hji
      simp only [htr, Function.update_of_ne hk] at hts'
      exact h.writing hb j hc before' last hts' x hx ho

theorem requestMove (h : Rests s) (ht : Tables s) (hobj : Objects s) (hw : Wires s) {i : Nat}
    (hm : RequestMove i s t) : Rests t := by
  cases hm with
  | object completed aborted call hold hresting hresting' _ _ _ honly =>
    refine h.setRequest (i := i) id rfl rfl rfl (Wires.resting_not_writing hresting') ?_
    rintro - ⟨ha, hn, hc⟩ -
    have hc' : completed = false := hc
    have hcs : (s.requests i).completed = false := by
      rcases honly with he | ⟨he, -⟩
      · rw [← he]
        exact hc'
      · rw [he] at hc'
        cases hc'
    rcases hresting with hr | ⟨htrue, -⟩
    · exact ⟨⟨ha, hn, hcs⟩, hr, rfl, rfl⟩
    · rw [htrue] at hc'
      cases hc'
  | drop =>
    refine h.setRequest (i := i) id rfl rfl rfl id ?_
    rintro - ⟨ha, hn, -⟩ -
    exact absurd ha.symm hn
  | retire _ _ hspent _ => exact h.retired hspent
  | conclude owns _ hspent _ _ hoffer =>
    exact h.concluded ht hobj hw owns hspent hoffer.mutex hoffer.free
      (x := ⟨some (s.requests i).node, _, _⟩) rfl rfl rfl rfl rfl
  | bad =>
    constructor
    · intro hb
      cases hb
    · intro hb
      cases hb
  | @acquire d m rest bytes type iovec owns hresting hheld hm hown hfree =>
    have hr : ∀ j, j ≠ i → (((s.setWriteMutex (s.requests i).requestIdentifier.descriptor
        { m with owner := some i }).setTransmissions m.socket
          (s.transmissions m.socket ++ [⟨some (s.requests i).node, bytes, 0⟩])).setRequest i
        { s.requests i with call := .writing rest type iovec bytes.length bytes.length }).requests j
          = s.requests j := by
      intro j hj
      simp [System.setRequest, System.setTransmissions, System.setWriteMutex, hj]
    constructor
    · intro hb j hl hc x hx
      have hji : j ≠ i := by
        rintro rfl
        simp only [System.setRequest, Function.update_self] at hc
        exact hc
      have hl' : s.Live j := by
        simp only [System.Live, hr j hji] at hl
        exact hl
      have hne := node_ne hobj owns hl' hji
      rw [hr j hji] at hc hx
      refine h.resting owns.good j hl' hc x ?_
      by_cases hk : (s.requests j).socket = m.socket
      · rw [hk, Traces.trace_append (s := s) (x := ⟨some (s.requests i).node, bytes, 0⟩)
          (by simp [System.setRequest, System.setTransmissions]), if_neg (by simpa using Ne.symm hne),
          List.append_nil] at hx
        rw [hk]
        exact hx
      · rw [Traces.trace_eq (s := s)
          (by simp [System.setRequest, System.setTransmissions, System.setWriteMutex, hk])] at hx
        exact hx
    · intro hb j hc before last hts x hx ho
      by_cases hji : j = i
      · subst hji
        simp only [System.setRequest, System.setTransmissions, Function.update_self, ← hown] at hts ho
        obtain ⟨rfl, -⟩ := List.append_inj' hts rfl
        refine h.resting owns.good j owns.live hresting x ?_
        rw [← hown]
        exact List.mem_filter.mpr ⟨hx, by simpa using ho⟩
      · rw [hr j hji] at hc hts ho
        have hk := socket_ne ht hw hm (by simp [hfree]) hc
        simp only [System.setRequest, System.setTransmissions, Function.update_of_ne hk] at hts
        exact h.writing owns.good j hc before last hts x hx ho
  | @progress rest type iovec iovec' working total remaining socket hcall ha hlen =>
    obtain ⟨before, bytes, hts, hup, -⟩ := hw.round hcall ha
    rw [hlen] at hup
    obtain ⟨m, hm, howner, hsocket⟩ := (hw.writing i _ _ _ _ _ hcall).mutex
    refine h.round (i := i) ht hobj hw (total - remaining) hcall hm howner hsocket hts ?_
      rfl rfl rfl ?_
    · rw [← hup]
      rfl
    · intro hr
      exact absurd hr id
  | @leave rest type iovec working total remaining m socket corrupt unwritten after hcall hm ha hlen
      hended =>
    obtain ⟨before, bytes, hts, hup, hbytes, -⟩ := hw.round hcall ha
    rw [hlen] at hup
    obtain ⟨m', hm', howner, hsocket⟩ := (hw.writing i _ _ _ _ _ hcall).mutex
    refine h.round (i := i) ht hobj hw (total - remaining) hcall hm' howner hsocket hts ?_
      rfl rfl rfl ?_
    · rw [← hup]
      rfl
    · intro hr
      rcases hended with ⟨hzero, -⟩ | ⟨_, _, rfl⟩
      · omega
      · exact absurd hr id
  | moveConstruct hidle _ hold =>
    refine h.moved (i := i) (j := s.nextRequest) (by omega) ?_ rfl rfl rfl rfl
    rw [hidle]
    exact id
  | @moveAssign j hne _ _ hidle' =>
    refine h.moved (i := j) (j := i) (Ne.symm hne) ?_ rfl rfl rfl rfl
    rw [hidle']
    exact id
  | _ => exact h.same id rfl rfl rfl

theorem interfaceMove (h : Rests s) (ht : Tables s) (hobj : Objects s) (hw : Wires s)
    (htr : Traces s) {loose : Option Nat} (hm : InterfaceMove loose s t) : Rests t := by
  cases hm with
  | request i hm => exact h.requestMove ht hobj hw hm
  | @construct id d m hgood halive hd hpending hcomplete hmutex =>
    have hsocket : m.socket = d.socket := by
      obtain ⟨r, hr⟩ := ht.mutex_socket _ m hmutex
      obtain ⟨r', hr'⟩ := ht.request_socket id d hd
      rw [hr, Option.some.injEq, Descriptor.mk.injEq] at hr'
      exact hr'.1
    refine h.congr (fun hb => hb) ?_ ?_
    · intro _ j hl hc
      by_cases hj : j = s.nextRequest
      · left
        subst hj
        simp only [Function.update_self, hsocket]
        exact htr.silent id d hd hpending
      · right
        refine ⟨j, ?_, ?_, ?_⟩
        · simpa [System.Live, hj] using hl
        · simpa [hj] using hc
        · simp only [Function.update_of_ne hj]
          rfl
    · intro _ j hc
      by_cases hj : j = s.nextRequest
      · subst hj
        simp only [Function.update_self] at hc
        exact absurd hc (by simp [Call.Writing])
      · simp only [Function.update_of_ne hj] at hc ⊢
        exact ⟨hc, trivial, trivial⟩
  | @send c m origin bytes socket accepted corrupt hoffer hrecord hpurpose =>
    refine h.offered ht hw (x := ⟨origin, bytes, accepted⟩) hoffer.mutex hoffer.free rfl id
      (fun _ _ => rfl) rfl ?_
    intro hb i hl he
    have hl' : s.Live i := hl
    obtain ⟨f, a, p, hending, -⟩ := hpurpose _ he
    obtain ⟨d, owns, -⟩ := hobj.owns hb i hl'
    exact hending.gone _ d owns.data owns.node
  | release objects =>
    have hreq : ∀ i, (Server.release s objects).requests i =
      if i ∈ objects then { s.requests i with held := false } else s.requests i := fun _ => rfl
    have hsame : ∀ i, ((Server.release s objects).requests i).call = (s.requests i).call ∧
        ((Server.release s objects).requests i).node = (s.requests i).node ∧
        ((Server.release s objects).requests i).socket = (s.requests i).socket := by
      intro i
      rw [hreq]
      split <;> exact ⟨rfl, rfl, rfl⟩
    refine h.congr id ?_ ?_
    · intro _ i hl hc
      right
      refine ⟨i, ?_, ?_, ?_⟩
      · simp only [System.Live, hreq] at hl
        split at hl <;> exact hl
      · rw [← (hsame i).1]
        exact hc
      · rw [(hsame i).2.1, (hsame i).2.2]
        rfl
    · intro _ i hc
      rw [(hsame i).1] at hc
      rw [(hsame i).2.1, (hsame i).2.2]
      exact ⟨hc, rfl, rfl⟩
  | @destroy order assigned requests hfree _ _ hobjects =>
    refine h.congr id ?_ ?_
    · rintro - i ⟨-, hn, -⟩
      exact absurd rfl hn
    · intro _ i hc
      have hc' : (requests i).call.Writing := hc
      show (s.requests i).call.Writing ∧ (requests i).node = (s.requests i).node ∧
        s.transmissions (requests i).socket = s.transmissions (s.requests i).socket
      rcases hobjects i with he | he
      · rw [he] at hc' ⊢
        exact ⟨hc', rfl, rfl⟩
      · rw [he] at hc'
        exact absurd hc' (by simp [Call.Writing])
  | _ => exact h.same id rfl rfl rfl

end Rests

end AsComponents.Server
