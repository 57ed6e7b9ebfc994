import AsComponents.IdManager

/-! `FcgiRequestIdManager` of `fcgi_si_testing_utilities.cc`: the ids of the
requests of a test, kept as the ids in use and the ids that were released. -/

namespace AsComponents

namespace IdSet

/-! ## `std::set` -/

/-- An iterator refers to an element; `none` is `end()`.  A reverse iterator is
given by its base, the iterator after the element to which it refers. -/
abbrev Iterator := Option Int

def first (s : Finset Int) : Iterator := s.min

def find (s : Finset Int) (id : Int) : Iterator := if id ∈ s then some id else none

/-- The elements before an iterator. -/
def before (s : Finset Int) : Iterator → Finset Int
  | none => s
  | some id => s.filter (· < id)

/-- The base of `rbegin()`. -/
def rbegin : Iterator := none

/-- The base of `rend()`. -/
def rend (s : Finset Int) : Iterator := first s

/-- The element of a reverse iterator, which is also its base after `++`. -/
def referred (s : Finset Int) (base : Iterator) : Option Int := (before s base).max

/-- `erase(first, end())`. -/
def eraseFrom (s : Finset Int) (id : Int) : Finset Int := s.filter (· < id)

variable {s : Finset Int} {a id : Int}

theorem first_eq_some_iff : first s = some a ↔ a ∈ s ∧ ∀ b ∈ s, a ≤ b := by
  constructor
  · intro h
    exact ⟨Finset.mem_of_min h, fun b hb => Finset.min_le_of_eq hb h⟩
  · rintro ⟨ha, hle⟩
    obtain ⟨b, hb⟩ := Finset.min_of_mem ha
    have hba := le_antisymm (Finset.min_le_of_eq ha hb) (hle b (Finset.mem_of_min hb))
    exact hb.trans (congrArg some hba)

theorem first_eq_none_iff : first s = none ↔ s = ∅ := Finset.min_eq_top

theorem referred_rbegin_eq_some_iff : referred s rbegin = some a ↔ a ∈ s ∧ ∀ b ∈ s, b ≤ a := by
  constructor
  · intro h
    exact ⟨Finset.mem_of_max h, fun b hb => Finset.le_max_of_eq hb h⟩
  · rintro ⟨ha, hle⟩
    obtain ⟨b, hb⟩ := Finset.max_of_mem ha
    have hba := le_antisymm (hle b (Finset.mem_of_max hb)) (Finset.le_max_of_eq ha hb)
    exact hb.trans (congrArg some hba)

theorem referred_rbegin_eq_none_iff : referred s rbegin = none ↔ s = ∅ := Finset.max_eq_bot

theorem find_eq_none_iff : find s id = none ↔ id ∉ s := by
  unfold find
  split <;> simp_all

end IdSet

/-! ## The class -/

/-- `FcgiRequestIdManager`. -/
structure FcgiRequestIdManager where
  available : Finset Int := ∅
  inUse : Finset Int := ∅
  corrupt : Bool := false

namespace FcgiRequestIdManager

open IdSet

inductive Failure
  | logicError (what : String)
  | lengthError (what : String)
  | outOfRange (what : String)
  deriving DecidableEq, Repr

/-- The exception of `CorruptionCheck`. -/
def corruptInstance : Failure :=
  .logicError "The FcgiRequesIdManager instance was found to be corrupt."

def getId (m : FcgiRequestIdManager) : Except Failure Int × FcgiRequestIdManager :=
  if m.corrupt then (.error corruptInstance, m)
  else
    match first m.available with
    | none =>
        match referred m.inUse rbegin with
        | none => (.ok 1, { m with inUse := insert 1 m.inUse })
        | some maxInUse =>
            if maxInUse = 65535 then
              (.error (.lengthError "All possible request request IDs have been assigned."), m)
            else (.ok (maxInUse + 1), { m with inUse := insert (maxInUse + 1) m.inUse })
    | some newId =>
        if newId ∈ m.inUse then
          (.error (.logicError ("The state used by the FcgiRequestIdManager instance to track used " ++
            "IDs was found to be corrupt. An ID was in use when it was also considered available " ++
            "in a call to GetId.")), { m with corrupt := true })
        else
          (.ok newId,
            { m with inUse := insert newId m.inUse, available := m.available.erase newId })

def releaseId (m : FcgiRequestIdManager) (id : UInt16) : Except Failure Unit × FcgiRequestIdManager :=
  let id : Int := id.toNat
  if m.corrupt then (.error corruptInstance, m)
  else
    let idIter := find m.inUse id
    if idIter = none then
      (.error (.outOfRange "A call to ReleaseId was made for an ID that was not in use."), m)
    else
      let inUse := m.inUse.erase id
      -- Reverse iterators are equal when their bases are.
      if idIter = rbegin then
        let nextReverseIter := referred m.inUse rbegin
        if nextReverseIter ≠ rend m.inUse then
          match referred m.inUse nextReverseIter with
          | none => (.ok (), { m with inUse := inUse })
          | some nextReverseId =>
              if id - nextReverseId > 1 then
                if find m.available (nextReverseId + 1) = none then
                  (.error (.logicError ("The state used by the FcgiRequestIdManager instance to " ++
                    "track available IDs was found to be corrupt. An ID which should have been " ++
                    "present was absent in a call to ReleaseId")), { m with corrupt := true })
                else
                  (.ok (), { m with
                    inUse := inUse, available := eraseFrom m.available (nextReverseId + 1) })
              else (.ok (), { m with inUse := inUse })
        else (.ok (), { m with inUse := inUse })
      else (.ok (), { m with inUse := inUse, available := insert id m.available })

/-! ## The two managers -/

/-- The two managers keep the same set.  The ids that were released are the
others up to the greatest id that was given. -/
structure Agrees (s : FcgiRequestIdManager) (m : IdManager IdManager.uint16) : Prop where
  sound : s.corrupt = false
  same : ∀ i, i ∈ s.inUse ↔ m.isUsed i = true
  disjoint : ∀ i ∈ s.available, i ∉ s.inUse
  upTo : ∃ k : ℕ, k ≤ 65535 ∧ ∀ i, i ∈ s.available ∨ i ∈ s.inUse ↔ 1 ≤ i ∧ i ≤ k

theorem agrees_new : Agrees {} {} where
  sound := rfl
  same i := by simp
  disjoint := by simp
  upTo := ⟨0, by decide, fun i => by
    simp only [Finset.notMem_empty, or_self, false_iff]
    omega⟩

/-- `IdManager` gives the least id that is not in use. -/
theorem exists_getId {m : IdManager IdManager.uint16} {a : Int} (hpos : 1 ≤ a) (hle : a ≤ 65535)
    (hfree : m.isUsed a = false) (hleast : ∀ i, 1 ≤ i → i < a → m.isUsed i = true) :
    ∃ m', m.getId = some (a, m') ∧ ∀ i, m'.isUsed i = (m.isUsed i || i == a) := by
  cases hget : m.getId with
  | none =>
    have hall := (IdManager.getId_eq_none_iff m).mp hget a hpos hle
    rw [hfree] at hall
    cases hall
  | some r =>
    obtain ⟨id, m'⟩ := r
    obtain ⟨hid, hidfree, hidleast, hused⟩ := IdManager.getId_spec hget
    have hsame : id = a := by
      rcases lt_trichotomy id a with hlt | heq | hgt
      · have := hleast id hid hlt
        rw [hidfree] at this
        cases this
      · exact heq
      · have := hidleast a hpos hgt
        rw [hfree] at this
        cases this
    subst hsame
    exact ⟨m', rfl, hused⟩

variable {s : FcgiRequestIdManager} {m : IdManager IdManager.uint16}

theorem Agrees.isUsed_eq_false (h : Agrees s m) {i : Int} (hi : i ∉ s.inUse) : m.isUsed i = false := by
  rw [← Bool.not_eq_true, ← h.same]
  exact hi

/-- The managers after an id was given. -/
theorem Agrees.given (h : Agrees s m) {a : Int} {available : Finset Int}
    {m' : IdManager IdManager.uint16} (hused : ∀ i, m'.isUsed i = (m.isUsed i || i == a))
    (hdisjoint : ∀ i ∈ available, i ∉ s.inUse ∧ i ≠ a)
    (hupTo : ∃ k : ℕ, k ≤ 65535 ∧ ∀ i, i ∈ available ∨ i = a ∨ i ∈ s.inUse ↔ 1 ≤ i ∧ i ≤ k) :
    Agrees { s with inUse := insert a s.inUse, available := available } m' where
  sound := h.sound
  same i := by
    rw [Finset.mem_insert, hused, Bool.or_eq_true, beq_iff_eq, ← h.same, or_comm]
  disjoint i hi := by
    obtain ⟨hfree, hne⟩ := hdisjoint i hi
    rw [Finset.mem_insert]
    exact fun hmem => hmem.elim hne hfree
  upTo := by
    simpa only [Finset.mem_insert] using hupTo

theorem Agrees.getId (h : Agrees s m) :
    (∃ id s' m', s.getId = (.ok id, s') ∧ m.getId = some (id, m') ∧ Agrees s' m') ∨
    ∃ what, s.getId = (.error (.lengthError what), s) ∧ m.getId = none := by
  obtain ⟨k, hk, hupTo⟩ := h.upTo
  have hsound : ¬ s.corrupt = true := by rw [h.sound]; decide
  rw [FcgiRequestIdManager.getId, if_neg hsound]
  cases hfirst : first s.available with
  | some a =>
    obtain ⟨ha, hleast⟩ := first_eq_some_iff.mp hfirst
    have hfree := h.disjoint a ha
    obtain ⟨hpos, hle⟩ := (hupTo a).mp (.inl ha)
    have hbelow : ∀ i, 1 ≤ i → i < a → m.isUsed i = true := by
      intro i hi hlt
      rw [← h.same]
      refine ((hupTo i).mpr ⟨hi, by omega⟩).resolve_left fun hmem => ?_
      have := hleast i hmem
      omega
    obtain ⟨m', hm', hused⟩ := exists_getId hpos (by omega) (h.isUsed_eq_false hfree) hbelow
    dsimp only
    rw [if_neg hfree]
    refine .inl ⟨a, _, m', rfl, hm', h.given hused (fun i hi => ?_) ⟨k, hk, fun i => ?_⟩⟩
    · obtain ⟨hne, hi⟩ := Finset.mem_erase.mp hi
      exact ⟨h.disjoint i hi, hne⟩
    · rw [← hupTo i, Finset.mem_erase]
      constructor
      · rintro (⟨-, hi⟩ | rfl | hi)
        · exact .inl hi
        · exact .inl ha
        · exact .inr hi
      · rintro (hi | hi)
        · by_cases hself : i = a
          · exact .inr (.inl hself)
          · exact .inl ⟨hself, hi⟩
        · exact .inr (.inr hi)
  | none =>
    have hnone := first_eq_none_iff.mp hfirst
    simp only [hnone, Finset.notMem_empty, false_or] at hupTo
    have hnext : k < 65535 → ∃ m', m.getId = some ((k : Int) + 1, m') ∧
        Agrees { s with inUse := insert ((k : Int) + 1) s.inUse } m' := by
      intro hlt
      obtain ⟨m', hm', hused⟩ := exists_getId (m := m) (a := (k : Int) + 1) (by omega) (by omega)
        (h.isUsed_eq_false fun hmem => by
          have := (hupTo _).mp hmem
          omega)
        fun i hi hlt => (h.same i).mp ((hupTo i).mpr ⟨hi, by omega⟩)
      refine ⟨m', hm', h.given hused ?_ ⟨k + 1, by omega, fun i => ?_⟩⟩
      · rw [hnone]
        simp
      · rw [hnone, hupTo i]
        simp only [Finset.notMem_empty, false_or]
        omega
    cases hlast : referred s.inUse rbegin with
    | none =>
      have hempty := referred_rbegin_eq_none_iff.mp hlast
      have hzero : k = 0 := by
        by_contra hpos
        have hone := (hupTo 1).mpr ⟨le_rfl, by omega⟩
        rw [hempty] at hone
        exact Finset.notMem_empty _ hone
      obtain ⟨m', hm', hagrees⟩ := hnext (by omega)
      rw [hzero] at hm' hagrees
      exact .inl ⟨1, _, m', rfl, hm', hagrees⟩
    | some maxInUse =>
      obtain ⟨hmem, hmax⟩ := referred_rbegin_eq_some_iff.mp hlast
      have hbounds := (hupTo maxInUse).mp hmem
      have hgreatest : maxInUse = k := by
        have := hmax k ((hupTo k).mpr ⟨by omega, le_rfl⟩)
        omega
      dsimp only
      split
      · rename_i hfull
        refine .inr ⟨_, rfl, (IdManager.getId_eq_none_iff m).mpr fun i hi hle => ?_⟩
        have hle' : i ≤ 65535 := hle
        exact (h.same i).mp ((hupTo i).mpr ⟨hi, by omega⟩)
      · rename_i hroom
        obtain ⟨m', hm', hagrees⟩ := hnext (by omega)
        rw [hgreatest]
        exact .inl ⟨_, _, m', rfl, hm', hagrees⟩

theorem Agrees.releaseId (h : Agrees s m) (id : UInt16) :
    (∃ s' m', s.releaseId id = (.ok (), s') ∧ m.releaseId id.toNat = some m' ∧ Agrees s' m') ∨
    ∃ what, s.releaseId id = (.error (.outOfRange what), s) ∧ m.releaseId id.toNat = none := by
  have hsound : ¬ s.corrupt = true := by rw [h.sound]; decide
  have hsome := IdManager.releaseId_isSome m id.toNat
  rw [FcgiRequestIdManager.releaseId]
  dsimp only
  rw [if_neg hsound]
  by_cases hmem : (id.toNat : Int) ∈ s.inUse
  · obtain ⟨m', hm'⟩ := Option.isSome_iff_exists.mp (hsome.trans ((h.same _).mp hmem))
    have hused := (IdManager.releaseId_spec hm').2
    have hfind : find s.inUse id.toNat = some (id.toNat : Int) := if_pos hmem
    -- an iterator to an element is not `end()`, the base of `rbegin()`
    rw [hfind, if_neg (by simp), if_neg (by rintro ⟨⟩)]
    refine .inl ⟨_, m', rfl, hm', ⟨h.sound, fun i => ?_, fun i hi => ?_, ?_⟩⟩
    · rw [Finset.mem_erase, hused, Bool.and_eq_true, bne_iff_ne, ← h.same, and_comm]
    · rw [Finset.mem_erase]
      rcases Finset.mem_insert.mp hi with rfl | hi
      · exact fun hin => hin.1 rfl
      · exact fun hin => h.disjoint i hi hin.2
    · obtain ⟨k, hk, hupTo⟩ := h.upTo
      refine ⟨k, hk, fun i => ?_⟩
      rw [← hupTo i, Finset.mem_insert, Finset.mem_erase]
      constructor
      · rintro ((rfl | hi) | ⟨-, hi⟩)
        · exact .inr hmem
        · exact .inl hi
        · exact .inr hi
      · rintro (hi | hi)
        · exact .inl (.inr hi)
        · by_cases hself : i = id.toNat
          · exact .inl (.inl hself)
          · exact .inr ⟨hself, hi⟩
  · have hnone : m.releaseId id.toNat = none := by
      rw [h.isUsed_eq_false hmem] at hsome
      exact Option.isNone_iff_eq_none.mp (Option.isSome_eq_false_iff.mp hsome)
    rw [if_pos (find_eq_none_iff.mpr hmem)]
    exact .inr ⟨_, rfl, hnone⟩

/-! ## Sequences of calls -/

inductive Call
  | getId
  | releaseId (id : UInt16)
  deriving DecidableEq, Repr

/-- The two managers, given the same calls. -/
structure Managers where
  set : FcgiRequestIdManager := {}
  intervals : IdManager IdManager.uint16 := {}

/-- A call that throws leaves an `IdManager` as it was. -/
def Managers.call (m : Managers) : Call → Managers
  | .getId => ⟨m.set.getId.2, (m.intervals.getId.map Prod.snd).getD m.intervals⟩
  | .releaseId id =>
      ⟨(m.set.releaseId id).2, (m.intervals.releaseId id.toNat).getD m.intervals⟩

def Managers.calls (calls : List Call) : Managers := calls.foldl Managers.call {}

theorem Agrees.call {m : Managers} (h : Agrees m.set m.intervals) (call : Call) :
    Agrees (m.call call).set (m.call call).intervals := by
  cases call with
  | getId =>
    rw [Managers.call]
    rcases h.getId with ⟨id, s', m', hs, hm, hagrees⟩ | ⟨what, hs, hm⟩
    · rw [hs, hm]
      exact hagrees
    · rw [hs, hm]
      exact h
  | releaseId id =>
    rw [Managers.call]
    rcases h.releaseId id with ⟨s', m', hs, hm, hagrees⟩ | ⟨what, hs, hm⟩
    · rw [hs, hm]
      exact hagrees
    · rw [hs, hm]
      exact h

theorem agrees_calls (calls : List Call) :
    Agrees (Managers.calls calls).set (Managers.calls calls).intervals := by
  induction calls using List.reverseRecOn with
  | nil => exact agrees_new
  | append_singleton calls call ih =>
    rw [Managers.calls, List.foldl_append]
    exact ih.call call

/-- Whatever the calls before were, the next one has the same outcome for both
managers, and none of them finds the sets of ids to be corrupt. -/
theorem managers_agree (calls : List Call) :
    let m := Managers.calls calls
    m.set.corrupt = false ∧
    ((∃ id s' m', m.set.getId = (.ok id, s') ∧ m.intervals.getId = some (id, m')) ∨
      ∃ what, m.set.getId = (.error (.lengthError what), m.set) ∧ m.intervals.getId = none) ∧
    (m.intervals.getId = none ↔ ∀ i : Int, 1 ≤ i → i ≤ 65535 → i ∈ m.set.inUse) ∧
    (∀ i : Int, i ∈ m.set.inUse ↔ m.intervals.isUsed i = true) ∧
    ∀ id : UInt16, (∃ s' m', m.set.releaseId id = (.ok (), s') ∧
        m.intervals.releaseId id.toNat = some m') ∨
      ∃ what, m.set.releaseId id = (.error (.outOfRange what), m.set) ∧
        m.intervals.releaseId id.toNat = none := by
  intro m
  have h : Agrees m.set m.intervals := agrees_calls calls
  refine ⟨h.sound, ?_, ?_, h.same, fun id => ?_⟩
  · rcases h.getId with ⟨id, s', m', hs, hm, -⟩ | hthrows
    · exact .inl ⟨id, s', m', hs, hm⟩
    · exact .inr hthrows
  · simp only [h.same]
    exact IdManager.getId_eq_none_iff m.intervals
  · rcases h.releaseId id with ⟨s', m', hs, hm, -⟩ | hthrows
    · exact .inl ⟨s', m', hs, hm⟩
    · exact .inr hthrows

end FcgiRequestIdManager

end AsComponents
