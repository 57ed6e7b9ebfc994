import AsComponents.IdManager

/-! The calls of a new `IdManager`: which set its intervals represent, and that
its arithmetic stays in the integral type. -/

namespace AsComponents.IdManager

/-! ## Minimal representations -/

variable {maximum : Int} {l l' : Intervals} {p q : Int × Int}

/-- Separated intervals with the same ids are the same. -/
theorem Separated.unique (h : Separated maximum l) (h' : Separated maximum l')
    (hsame : ∀ i, Member i l ↔ Member i l') : l = l' := by
  induction l generalizing l' with
  | nil =>
    cases l' with
    | nil => rfl
    | cons q l' =>
      have hq := h'.bounds q (by simp)
      exact absurd ((hsame q.1).mpr ((member_cons _).mpr (.inl ⟨le_rfl, hq.2.1⟩))) (member_nil _)
  | cons p l ih =>
    cases l' with
    | nil =>
      have hp := h.bounds p (by simp)
      exact absurd ((hsame p.1).mp ((member_cons _).mpr (.inl ⟨le_rfl, hp.2.1⟩))) (member_nil _)
    | cons q l' =>
      obtain ⟨first, last⟩ := p
      obtain ⟨first', last'⟩ := q
      obtain ⟨hbounds, -, hlater⟩ := h.later
      obtain ⟨hbounds', -, hlater'⟩ := h'.later
      simp only [member_cons] at hsame
      have hfirst : first = first' := by
        have := hsame first
        have := hsame first'
        have := hlater first'
        have := hlater' first
        grind
      subst hfirst
      have hlast : last = last' := by
        rcases lt_trichotomy last last' with hlt | heq | hgt
        · have := hsame (last + 1)
          have := hlater (last + 1)
          grind
        · exact heq
        · have := hsame (last' + 1)
          have := hlater' (last' + 1)
          grind
      subst hlast
      have hrest : ∀ i, Member i l ↔ Member i l' := by
        intro i
        have := hsame i
        have := hlater i
        have := hlater' i
        grind
      rw [ih h.tail h'.tail hrest]

/-- Two intervals of a separated list are the same or apart. -/
theorem Separated.apart_of_mem (h : Separated maximum l) (hp : p ∈ l) (hq : q ∈ l) :
    p = q ∨ p.2 + 1 < q.1 ∨ q.2 + 1 < p.1 := by
  have hpairs : l.Pairwise fun p q => p = q ∨ p.2 + 1 < q.1 ∨ q.2 + 1 < p.1 :=
    h.apart.imp fun hlt => .inr (.inl hlt)
  have hsymm : Std.Symm fun p q : Int × Int => p = q ∨ p.2 + 1 < q.1 ∨ q.2 + 1 < p.1 := by
    constructor
    rintro p q (rfl | hlt | hlt)
    · exact .inl rfl
    · exact .inr (.inr hlt)
    · exact .inr (.inl hlt)
  exact hpairs.forall_of_forall (fun p _ => .inl rfl) hp hq

/-- An interval of ids of the set lies in one of the separated intervals. -/
theorem Separated.exists_superset (h : Separated maximum l) (hle : q.1 ≤ q.2)
    (hin : ∀ i, q.1 ≤ i → i ≤ q.2 → Member i l) : ∃ p ∈ l, p.1 ≤ q.1 ∧ q.2 ≤ p.2 := by
  obtain ⟨p, hp, hlow, hhigh⟩ := hin q.1 le_rfl hle
  refine ⟨p, hp, hlow, ?_⟩
  by_contra hlong
  obtain ⟨r, hr, hrlow, hrhigh⟩ := hin (p.2 + 1) (by omega) (by omega)
  have hpbounds := h.bounds p hp
  rcases h.apart_of_mem hp hr with rfl | hlt | hlt <;> omega

/-- Any intervals with the same ids. -/
structure Covers (l l' : Intervals) : Prop where
  nonempty : ∀ q ∈ l', q.1 ≤ q.2
  same : ∀ i, Member i l' ↔ Member i l

theorem Covers.inside (hl' : Covers l l') (h : Separated maximum l) (hq : q ∈ l') :
    ∃ p ∈ l, p.1 ≤ q.1 ∧ q.2 ≤ p.2 :=
  h.exists_superset (hl'.nonempty q hq) fun i hlow hhigh =>
    (hl'.same i).mp ⟨q, hq, hlow, hhigh⟩

/-- The first id of a separated interval is the first of another one. -/
theorem Covers.exists_first (hl' : Covers l l') (h : Separated maximum l) (hp : p ∈ l) :
    ∃ q ∈ l', q.1 = p.1 := by
  have hpbounds := h.bounds p hp
  obtain ⟨q, hq, hlow, hhigh⟩ := (hl'.same p.1).mpr ⟨p, hp, le_rfl, hpbounds.2.1⟩
  refine ⟨q, hq, ?_⟩
  obtain ⟨r, hr, hrlow, hrhigh⟩ := hl'.inside h hq
  rcases h.apart_of_mem hp hr with rfl | hlt | hlt <;> omega

theorem Separated.nodup_firsts (h : Separated maximum l) : (l.map (·.1)).Nodup := by
  rw [List.nodup_map_iff_inj_on]
  · intro p hp q hq hsame
    have hpbounds := h.bounds p hp
    have hqbounds := h.bounds q hq
    rcases h.apart_of_mem hp hq with heq | hlt | hlt
    · exact heq
    · omega
    · omega
  · refine h.apart.imp_of_mem fun {p q} hp hq hlt => ?_
    rintro rfl
    have hpbounds := h.bounds p hp
    omega

theorem Covers.subperm (hl' : Covers l l') (h : Separated maximum l) :
    (l.map (·.1)).Subperm (l'.map (·.1)) := by
  refine h.nodup_firsts.subperm fun i hi => ?_
  obtain ⟨p, hp, rfl⟩ := List.mem_map.mp hi
  obtain ⟨q, hq, hfirst⟩ := hl'.exists_first h hp
  exact List.mem_map.mpr ⟨q, hq, hfirst⟩

/-- No representation has fewer intervals. -/
theorem Covers.length_le (hl' : Covers l l') (h : Separated maximum l) : l.length ≤ l'.length := by
  have := (hl'.subperm h).length_le
  rwa [List.length_map, List.length_map] at this

/-- A representation with as few intervals has the same ones. -/
theorem Covers.perm_of_length_le (hl' : Covers l l') (h : Separated maximum l)
    (hlength : l'.length ≤ l.length) : l'.Perm l := by
  have hfirsts : (l.map (·.1)).Perm (l'.map (·.1)) :=
    (hl'.subperm h).perm_of_length_le (by rwa [List.length_map, List.length_map])
  have hnodup : (l'.map (·.1)).Nodup := hfirsts.nodup_iff.mp h.nodup_firsts
  have hmem : ∀ q ∈ l', q ∈ l := by
    intro q hq
    obtain ⟨p, hp, hlow, hhigh⟩ := hl'.inside h hq
    have hpbounds := h.bounds p hp
    have hqle := hl'.nonempty q hq
    have hstart : ∀ r ∈ l', p.1 ≤ r.1 → r.2 ≤ p.2 → r.1 = p.1 := by
      intro r hr hrlow hrhigh
      have hrle := hl'.nonempty r hr
      obtain ⟨p', hp', hfirst⟩ := List.mem_map.mp (hfirsts.mem_iff.mpr (List.mem_map.mpr ⟨r, hr, rfl⟩))
      have hp'bounds := h.bounds p' hp'
      rcases h.apart_of_mem hp hp' with rfl | hlt | hlt
      · exact hfirst.symm
      · omega
      · omega
    obtain ⟨r, hr, hrlow, hrhigh⟩ := (hl'.same p.2).mpr ⟨p, hp, hpbounds.2.1, le_rfl⟩
    obtain ⟨p', hp', hlow', hhigh'⟩ := hl'.inside h hr
    have hsame : p = p' := by
      rcases h.apart_of_mem hp hp' with heq | hlt | hlt
      · exact heq
      · omega
      · omega
    subst hsame
    have hqr : q = r := List.inj_on_of_nodup_map hnodup hq hr
      ((hstart q hq hlow hhigh).trans (hstart r hr hlow' hhigh').symm)
    subst hqr
    have hpq : q = p := Prod.ext (hstart q hq hlow hhigh) (by omega)
    rwa [hpq]
  have hsub : l'.Subperm l := (hnodup.of_map _).subperm hmem
  exact hsub.perm_of_length_le (hl'.length_le h)

/-! ## Calls -/

inductive Call
  | getId
  | releaseId (id : Int)
  | isUsed (id : Int)

inductive Outcome
  | id (id : Int)
  | released
  | used (b : Bool)
  | lengthError
  | logicError
  deriving DecidableEq, Repr

/-- The data members. -/
structure Fields where
  size : Int := 0
  idIntervals : Intervals := []
  deriving DecidableEq, Repr

variable {I : IntegralType}

/-- A sum or a difference.  The ids and the size are not negative, so a negative
result counts as one that is not in the range of the type. -/
def inRange (I : IntegralType) (i : Int) : Option Int :=
  if 0 ≤ i ∧ i ≤ I.maximum then some i else none

/-- `GetId`; `none` when a sum is not in the range of the type. -/
def getIdFields (I : IntegralType) (f : Fields) : Option (Outcome × Fields) :=
  match f.idIntervals with
  | [] => some (.id 1, { size := 1, idIntervals := [(1, 1)] })
  | least :: rest =>
      if least.1 > 1 then do
        let size ← inRange I (f.size + 1)
        if least.1 > 2 then
          some (.id 1, { size := size, idIntervals := insert (1, 1) f.idIntervals })
        else
          some (.id 1,
            { size := size, idIntervals := erase least.1 (insert (1, least.2) f.idIntervals) })
      else
        match rest with
        | next :: _ => do
            let newId ← inRange I (least.2 + 1)
            let following ← inRange I (newId + 1)
            let size ← inRange I (f.size + 1)
            if following = next.1 then
              some (.id newId,
                { size := size, idIntervals := erase next.1 (assign least.1 next.2 f.idIntervals) })
            else
              some (.id newId, { size := size, idIntervals := assign least.1 newId f.idIntervals })
        | [] =>
            if least.2 = I.maximum then some (.lengthError, f)
            else do
              let size ← inRange I (f.size + 1)
              let newId ← inRange I (least.2 + 1)
              some (.id newId, { size := size, idIntervals := assign least.1 newId f.idIntervals })

/-- `ReleaseId`, likewise. -/
def releaseIdFields (I : IntegralType) (id : Int) (f : Fields) : Option (Outcome × Fields) :=
  match findInterval id f.idIntervals with
  | none => some (.logicError, f)
  | some release => do
      let size ← inRange I (f.size - 1)
      if id = release.1 then
        if id = release.2 then
          some (.released, { size := size, idIntervals := erase release.1 f.idIntervals })
        else do
          let following ← inRange I (id + 1)
          some (.released,
            { size := size
              idIntervals := erase release.1 (insert (following, release.2) f.idIntervals) })
      else if id = release.2 then do
        let preceding ← inRange I (release.2 - 1)
        some (.released, { size := size, idIntervals := assign release.1 preceding f.idIntervals })
      else do
        let following ← inRange I (id + 1)
        let preceding ← inRange I (id - 1)
        some (.released,
          { size := size
            idIntervals := assign release.1 preceding
              (insert (following, release.2) f.idIntervals) })

def perform (I : IntegralType) (f : Fields) : Call → Option (Outcome × Fields)
  | .getId => getIdFields I f
  | .releaseId id => releaseIdFields I id f
  | .isUsed id => some (.used (findInterval id f.idIntervals).isSome, f)

/-! ## The arithmetic -/

theorem inRange_eq {i : Int} (h : 0 ≤ i ∧ i ≤ I.maximum) : inRange I i = some i := if_pos h

theorem total_le {k : Int} (h : Separated maximum l) (hk : k ≤ maximum) (hlow : ∀ p ∈ l, k < p.1) :
    0 ≤ total l ∧ total l ≤ maximum - k := by
  induction l generalizing k with
  | nil =>
    rw [total_nil]
    omega
  | cons p l ih =>
    have hp := h.bounds p (by simp)
    have hpk := hlow p (by simp)
    have hrest := ih h.tail hp.2.2 fun q hq => by
      have := h.head hq
      omega
    rw [total_cons]
    omega

theorem Separated.total_bounds (h : Separated I.maximum l) : 0 ≤ total l ∧ total l ≤ I.maximum := by
  have := total_le (k := 0) h (by have := I.one_le; omega) fun p hp => by
    have := h.bounds p hp
    omega
  omega

/-- `GetId` computes only values of the type. -/
theorem getIdFields_eq {f : Fields} (h : Separated I.maximum f.idIntervals)
    (hsize : f.size = total f.idIntervals) :
    getIdFields I f = some (match getIdIntervals I.maximum f.idIntervals with
      | none => (.lengthError, f)
      | some (id, l) => (.id id, { size := f.size + 1, idIntervals := l })) := by
  obtain ⟨size, l⟩ := f
  simp only at h hsize ⊢
  have hroom : ∀ id l', getIdIntervals I.maximum l = some (id, l') →
      inRange I (size + 1) = some (size + 1) := by
    intro id l' hget
    have hspec := getIdIntervals_spec I.one_le h hget
    have := hspec.separated.total_bounds
    have := h.total_bounds
    have := hspec.total_eq
    exact inRange_eq (by omega)
  cases l with
  | nil =>
    rw [total_nil] at hsize
    simp [getIdFields, getIdIntervals, hsize]
  | cons least rest =>
    obtain ⟨first, last⟩ := least
    obtain ⟨hbounds, hafter, -⟩ := h.later
    simp only [getIdFields, getIdIntervals] at hroom ⊢
    by_cases hgap : first > 1
    · simp only [if_pos hgap] at hroom ⊢
      split_ifs at hroom ⊢ with htwo
      · rw [hroom _ _ rfl]
        rfl
      · rw [hroom _ _ rfl]
        rfl
    simp only [if_neg hgap] at hroom ⊢
    cases rest with
    | nil =>
      simp only at hroom ⊢
      split_ifs at hroom ⊢ with hfull
      · rfl
      · rw [hroom _ _ rfl, inRange_eq (i := last + 1) (by omega)]
        rfl
    | cons next rest =>
      have hnext := hafter next (by simp)
      have hnextbounds := h.bounds next (by simp)
      have hid : inRange I (last + 1) = some (last + 1) := inRange_eq (by omega)
      have hfollowing : inRange I (last + 1 + 1) = some (last + 1 + 1) := inRange_eq (by omega)
      simp only [hid, hfollowing, Option.bind_eq_bind, Option.bind_some] at hroom ⊢
      split_ifs at hroom ⊢ with hmerge
      · rw [hroom _ _ rfl]
        rfl
      · rw [hroom _ _ rfl]
        rfl

/-- So does `ReleaseId`. -/
theorem releaseIdFields_eq {f : Fields} (h : Separated I.maximum f.idIntervals)
    (hsize : f.size = total f.idIntervals) (id : Int) :
    releaseIdFields I id f = some (match releaseIdIntervals id f.idIntervals with
      | none => (.logicError, f)
      | some l => (.released, { size := f.size - 1, idIntervals := l })) := by
  obtain ⟨size, l⟩ := f
  simp only at h hsize ⊢
  simp only [releaseIdFields, releaseIdIntervals]
  cases hfind : findInterval id l with
  | none => rfl
  | some release =>
    obtain ⟨hmem, hlow, hhigh⟩ := (findInterval_eq_some_iff h id).mp hfind
    have hbounds := h.bounds release hmem
    have hroom : inRange I (size - 1) = some (size - 1) := by
      obtain ⟨l', hl'⟩ := Option.isSome_iff_exists.mp
        ((releaseIdIntervals_isSome_iff h id).mpr ⟨release, hmem, hlow, hhigh⟩)
      have hwithout := (releaseIdIntervals_spec h hl').2
      have := hwithout.separated.total_bounds
      have := h.total_bounds
      have := hwithout.total_eq
      exact inRange_eq (by omega)
    simp only [hroom, Option.bind_eq_bind, Option.bind_some]
    split_ifs with hfirst hlast hlast
    · rfl
    · rw [inRange_eq (i := id + 1) (by omega)]
      rfl
    · rw [inRange_eq (i := release.2 - 1) (by omega)]
      rfl
    · rw [inRange_eq (i := id + 1) (by omega), inRange_eq (i := id - 1) (by omega)]
      rfl

/-! ## Runs -/

/-- The ids obtained and not released, after one more call. -/
def outstanding (S : Finset Int) : Call → Outcome → Finset Int
  | .getId, .id id => {id} ∪ S
  | .releaseId id, .released => S.erase id
  | _, _ => S

/-- The data members after a sequence of calls of a new instance, and the ids
obtained and not released. -/
inductive Reached (I : IntegralType) : Fields → Finset Int → Prop
  | new : Reached I {} ∅
  | call {f f' : Fields} {S : Finset Int} {call : Call} {outcome : Outcome} (h : Reached I f S)
      (hcall : perform I f call = some (outcome, f')) : Reached I f' (outstanding S call outcome)

structure Represents (I : IntegralType) (f : Fields) (S : Finset Int) : Prop where
  separated : Separated I.maximum f.idIntervals
  member_iff : ∀ i, Member i f.idIntervals ↔ i ∈ S
  size_eq : f.size = S.card
  total_eq : f.size = total f.idIntervals

/-- The members of an instance. -/
def fields (m : AsComponents.IdManager I) : Fields := { size := m.size, idIntervals := m.idIntervals }

/-- `GetId` and `ReleaseId` of an instance are these calls. -/
theorem perform_getId (m : AsComponents.IdManager I) :
    perform I (fields m) .getId = some (match m.getId with
      | none => (.lengthError, fields m)
      | some (id, m') => (.id id, fields m')) := by
  show getIdFields I (fields m) = _
  rw [getIdFields_eq m.separated m.size_eq]
  cases hget : m.getId with
  | none =>
    unfold IdManager.getId at hget
    split at hget
    · rename_i hl
      simp [fields, hl]
    · cases hget
  | some r =>
    obtain ⟨id, m'⟩ := r
    unfold IdManager.getId at hget
    split at hget
    · cases hget
    · rename_i hl
      obtain ⟨rfl, rfl⟩ := Prod.mk.inj (Option.some.inj hget)
      simp [fields, hl]

theorem perform_releaseId (m : AsComponents.IdManager I) (id : Int) :
    perform I (fields m) (.releaseId id) = some (match m.releaseId id with
      | none => (.logicError, fields m)
      | some m' => (.released, fields m')) := by
  show releaseIdFields I id (fields m) = _
  rw [releaseIdFields_eq m.separated m.size_eq]
  cases hrelease : m.releaseId id with
  | none =>
    unfold IdManager.releaseId at hrelease
    split at hrelease
    · rename_i hl
      simp [fields, hl]
    · cases hrelease
  | some m' =>
    unfold IdManager.releaseId at hrelease
    split at hrelease
    · cases hrelease
    · rename_i hl
      obtain rfl := Option.some.inj hrelease
      simp [fields, hl]

/-- What a call may come to. -/
def Allowed (I : IntegralType) (S : Finset Int) : Call → Outcome → Prop
  | .getId, .id id => IsLeast {i | 1 ≤ i ∧ i ∉ S} id ∧ S ≠ Finset.Icc 1 I.maximum
  | .getId, .lengthError => S = Finset.Icc 1 I.maximum
  | .releaseId id, .released => id ∈ S
  | .releaseId id, .logicError => id ∉ S
  | .isUsed id, .used b => b = decide (id ∈ S)
  | _, _ => False

def Outcome.isException : Outcome → Bool
  | .lengthError => true
  | .logicError => true
  | _ => false

theorem represents_new : Represents I {} ∅ where
  separated := separated_nil
  member_iff i := by simp
  size_eq := rfl
  total_eq := rfl

namespace Represents

variable {f : Fields} {S : Finset Int}

/-- Every id of the type is in use exactly when the intervals are one. -/
theorem full_iff (h : Represents I f S) :
    f.idIntervals = [(1, I.maximum)] ↔ S = Finset.Icc 1 I.maximum := by
  have hone := I.one_le
  constructor
  · intro hfull
    ext i
    rw [← h.member_iff, hfull, member_cons, Finset.mem_Icc]
    simp
  · intro hfull
    refine h.separated.unique (separated_singleton.mpr ⟨le_rfl, hone, le_rfl⟩) fun i => ?_
    rw [h.member_iff, hfull, member_cons, Finset.mem_Icc]
    simp

theorem getId (h : Represents I f S) : ∃ outcome f', perform I f .getId = some (outcome, f') ∧
    Allowed I S .getId outcome ∧ (outcome.isException = true → f' = f) ∧
      Represents I f' (outstanding S .getId outcome) := by
  have hcall : perform I f .getId = _ := getIdFields_eq h.separated h.total_eq
  cases hget : getIdIntervals I.maximum f.idIntervals with
  | none =>
    rw [hget] at hcall
    have hfull := h.full_iff.mp ((getIdIntervals_eq_none_iff h.separated).mp hget)
    exact ⟨_, _, hcall, hfull, fun _ => rfl, h⟩
  | some r =>
    obtain ⟨id, l⟩ := r
    rw [hget] at hcall
    have hspec := getIdIntervals_spec I.one_le h.separated hget
    have hfree : id ∉ S := fun hid => hspec.fresh ((h.member_iff id).mpr hid)
    refine ⟨_, _, hcall, ⟨⟨⟨hspec.pos, hfree⟩, ?_⟩, ?_⟩, by rintro ⟨⟩, ?_⟩
    · rintro i ⟨hi, hiS⟩
      by_contra hlt
      exact hiS ((h.member_iff i).mp (hspec.least i hi (not_le.mp hlt)))
    · intro hfull
      have hnone := (getIdIntervals_eq_none_iff h.separated).mpr (h.full_iff.mpr hfull)
      rw [hget] at hnone
      cases hnone
    · refine ⟨hspec.separated, fun i => ?_, ?_, ?_⟩
      · rw [hspec.member_iff, h.member_iff, outstanding, Finset.mem_union, Finset.mem_singleton,
          or_comm]
      · have hcard : ({id} ∪ S).card = S.card + 1 := Finset.card_insert_of_notMem hfree
        rw [outstanding, hcard, h.size_eq]
        push_cast
        rfl
      · rw [hspec.total_eq, h.total_eq]

theorem releaseId (h : Represents I f S) (id : Int) :
    ∃ outcome f', perform I f (.releaseId id) = some (outcome, f') ∧
      Allowed I S (.releaseId id) outcome ∧ (outcome.isException = true → f' = f) ∧
        Represents I f' (outstanding S (.releaseId id) outcome) := by
  have hcall : perform I f (.releaseId id) = _ := releaseIdFields_eq h.separated h.total_eq id
  have hsome := releaseIdIntervals_isSome_iff h.separated id
  cases hrelease : releaseIdIntervals id f.idIntervals with
  | none =>
    rw [hrelease] at hcall hsome
    refine ⟨_, _, hcall, fun hid => ?_, fun _ => rfl, h⟩
    exact absurd (hsome.mpr ((h.member_iff id).mpr hid)) (by simp)
  | some l =>
    rw [hrelease] at hcall
    obtain ⟨hused, hwithout⟩ := releaseIdIntervals_spec h.separated hrelease
    have hid : id ∈ S := (h.member_iff id).mp hused
    refine ⟨_, _, hcall, hid, by rintro ⟨⟩, hwithout.separated, fun i => ?_, ?_, ?_⟩
    · rw [hwithout.member_iff, h.member_iff, outstanding, Finset.mem_erase, and_comm]
    · have hcard := Finset.card_erase_add_one hid
      show f.size - 1 = ((S.erase id).card : Int)
      rw [h.size_eq, ← hcard]
      push_cast
      omega
    · show f.size - 1 = _
      rw [hwithout.total_eq, h.total_eq]

theorem isUsed (h : Represents I f S) (id : Int) :
    (findInterval id f.idIntervals).isSome = decide (id ∈ S) := by
  rw [Bool.eq_iff_iff, decide_eq_true_eq, ← h.member_iff, Option.isSome_iff_ne_none, ne_eq,
    findInterval_eq_none_iff h.separated, not_not]

theorem perform (h : Represents I f S) (call : Call) :
    ∃ outcome f', IdManager.perform I f call = some (outcome, f') ∧ Allowed I S call outcome ∧
      (outcome.isException = true → f' = f) ∧ Represents I f' (outstanding S call outcome) := by
  cases call with
  | getId => exact h.getId
  | releaseId id => exact h.releaseId id
  | isUsed id => exact ⟨_, _, rfl, h.isUsed id, fun _ => rfl, h⟩

end Represents

theorem represents_of_reached {f : Fields} {S : Finset Int} (h : Reached I f S) :
    Represents I f S := by
  induction h with
  | new => exact represents_new
  | call h hcall ih =>
    obtain ⟨outcome, f', hcall', -, -, hrepresents⟩ := ih.perform _
    obtain ⟨rfl, rfl⟩ := Prod.mk.inj (Option.some.inj (hcall.symm.trans hcall'))
    exact hrepresents

/-- The intervals are the minimal representation of the set. -/
structure MinimalIntervals (I : IntegralType) (l : Intervals) (S : Finset Int) : Prop where
  separated : Separated I.maximum l
  member_iff : ∀ i, Member i l ↔ i ∈ S
  unique : ∀ l', Separated I.maximum l' → (∀ i, Member i l' ↔ i ∈ S) → l' = l
  minimal : ∀ l' : Intervals, (∀ p ∈ l', p.1 ≤ p.2) → (∀ i, Member i l' ↔ i ∈ S) →
    l.length ≤ l'.length ∧ (l'.length = l.length → l'.Perm l)

theorem Represents.minimalIntervals {f : Fields} {S : Finset Int} (h : Represents I f S) :
    MinimalIntervals I f.idIntervals S where
  separated := h.separated
  member_iff := h.member_iff
  unique l' hl' hsame :=
    hl'.unique h.separated fun i => (hsame i).trans (h.member_iff i).symm
  minimal l' hnonempty hsame := by
    have hcovers : Covers f.idIntervals l' :=
      ⟨hnonempty, fun i => (hsame i).trans (h.member_iff i).symm⟩
    exact ⟨hcovers.length_le h.separated, fun hlength => hcovers.perm_of_length_le h.separated hlength.le⟩

/-- An `IdManager` after any calls: its intervals and its size are those of the
ids obtained and not released, and the next call does to this set what it
should, within the range of the type. -/
theorem idManager_calls {f : Fields} {S : Finset Int} (h : Reached I f S) :
    MinimalIntervals I f.idIntervals S ∧ f.size = S.card ∧
      (∀ id, (findInterval id f.idIntervals).isSome = decide (id ∈ S)) ∧
      ∀ call, ∃ outcome f', perform I f call = some (outcome, f') ∧ Allowed I S call outcome ∧
        (outcome.isException = true → f' = f) := by
  have hrepresents := represents_of_reached h
  refine ⟨hrepresents.minimalIntervals, hrepresents.size_eq, hrepresents.isUsed, fun call => ?_⟩
  obtain ⟨outcome, f', hcall, hallowed, hkept, -⟩ := hrepresents.perform call
  exact ⟨outcome, f', hcall, hallowed, hkept⟩

/-- After `GetId`, `GetId` and `ReleaseId(1)`. -/
theorem idManager_calls_example : ∃ f : Fields, f.idIntervals = [(2, 2)] ∧ f.size = 1 ∧
    MinimalIntervals uint16 f.idIntervals {2} := by
  have hfirst : perform uint16 {} .getId = some (.id 1, _) := rfl
  have hsecond : perform uint16 { size := 1, idIntervals := [(1, 1)] } .getId =
      some (.id 2, _) := rfl
  have hrelease : perform uint16 { size := 2, idIntervals := [(1, 2)] } (.releaseId 1) =
      some (.released, { size := 1, idIntervals := [(2, 2)] }) := rfl
  have hreached : Reached uint16 { size := 1, idIntervals := [(2, 2)] }
      (({2} ∪ ({1} ∪ ∅) : Finset Int).erase 1) :=
    .call (.call (.call .new hfirst) hsecond) hrelease
  have hset : (({2} ∪ ({1} ∪ ∅) : Finset Int).erase 1) = {2} := by decide
  exact ⟨_, rfl, rfl, hset ▸ (idManager_calls hreached).1⟩

end AsComponents.IdManager
