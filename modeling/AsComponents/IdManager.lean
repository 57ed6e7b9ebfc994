import Mathlib

/-! `IdManager` of `id_manager_template.h`: a set of positive ids, kept as the
intervals it consists of. -/

namespace AsComponents.IdManager

/-- What the program depends on of the integral type `I`. -/
structure IntegralType where
  maximum : Int
  one_le : 1 ≤ maximum

def uint16 : IntegralType := ⟨65535, by decide⟩

/-- `std::map<I, I>`: the least and the greatest id of every interval, in the
order of the keys. -/
abbrev Intervals := List (Int × Int)

/-! ## The map -/

/-- The element before `lower_bound(id)` and the element it refers to. -/
def lowerBound (id : Int) : Option (Int × Int) → Intervals → Option (Int × Int) × Option (Int × Int)
  | previous, [] => (previous, none)
  | previous, p :: l => if p.1 < id then lowerBound id (some p) l else (previous, some p)

def insert (p : Int × Int) : Intervals → Intervals
  | [] => [p]
  | q :: l => if p.1 < q.1 then p :: q :: l else if p.1 = q.1 then q :: l else q :: insert p l

def erase (key : Int) (l : Intervals) : Intervals := l.filter (·.1 ≠ key)

/-- Assignment to the value of an element. -/
def assign (key value : Int) (l : Intervals) : Intervals :=
  l.map fun p => if p.1 = key then (key, value) else p

/-! ## The functions -/

/-- `IsContainedInPreviousIntervalAndGreaterThanItsStart`; there is no previous
interval when the iterator is `begin()`. -/
def isContainedInPrevious (id : Int) (previous : Option (Int × Int)) : Option (Int × Int) :=
  previous.filter fun p => id ≤ p.2

/-- The choice that `FindInterval` makes once `lower_bound` is known. -/
def ofLowerBound (id : Int) : Option (Int × Int) × Option (Int × Int) → Option (Int × Int)
  | (previous, none) => isContainedInPrevious id previous
  | (previous, some lub) => if lub.1 > id then isContainedInPrevious id previous else some lub

/-- `FindInterval`; `none` is `end()`. -/
def findInterval (id : Int) (l : Intervals) : Option (Int × Int) :=
  ofLowerBound id (lowerBound id none l)

/-- `GetId` on the intervals; `none` is the `std::length_error`. -/
def getIdIntervals (maximum : Int) (l : Intervals) : Option (Int × Intervals) :=
  match l with
  | [] => some (1, [(1, 1)])
  | least :: rest =>
      if least.1 > 1 then
        if least.1 > 2 then some (1, insert (1, 1) l)
        else some (1, erase least.1 (insert (1, least.2) l))
      else
        match rest with
        | next :: _ =>
            let newId := least.2 + 1
            if newId + 1 = next.1 then some (newId, erase next.1 (assign least.1 next.2 l))
            else some (newId, assign least.1 newId l)
        | [] => if least.2 = maximum then none else some (least.2 + 1, assign least.1 (least.2 + 1) l)

/-- `ReleaseId` on the intervals; `none` is the `std::logic_error`. -/
def releaseIdIntervals (id : Int) (l : Intervals) : Option Intervals :=
  match findInterval id l with
  | none => none
  | some release =>
      if id = release.1 then
        if id = release.2 then some (erase release.1 l)
        else some (erase release.1 (insert (id + 1, release.2) l))
      else if id = release.2 then some (assign release.1 (release.2 - 1) l)
      else some (assign release.1 (id - 1) (insert (id + 1, release.2) l))

/-! ## The set that the intervals represent -/

/-- The intervals are not empty, they are apart and in order, and they consist
of ids of the type. -/
structure Separated (maximum : Int) (l : Intervals) : Prop where
  bounds : ∀ p ∈ l, 1 ≤ p.1 ∧ p.1 ≤ p.2 ∧ p.2 ≤ maximum
  apart : l.Pairwise fun p q => p.2 + 1 < q.1

/-- Membership in the set. -/
def Member (i : Int) (l : Intervals) : Prop := ∃ p ∈ l, p.1 ≤ i ∧ i ≤ p.2

variable {maximum : Int} {l : Intervals} {p q : Int × Int}

theorem Separated.tail (h : Separated maximum (p :: l)) : Separated maximum l where
  bounds q hq := h.bounds q (by simp [hq])
  apart := (List.pairwise_cons.mp h.apart).2

theorem Separated.head (h : Separated maximum (p :: l)) (hq : q ∈ l) : p.2 + 1 < q.1 :=
  (List.pairwise_cons.mp h.apart).1 q hq

/-- An interval in front of a separated list. -/
theorem Separated.cons (h : Separated maximum l) (hp : 1 ≤ p.1 ∧ p.1 ≤ p.2 ∧ p.2 ≤ maximum)
    (hl : ∀ q ∈ l, p.2 + 1 < q.1) : Separated maximum (p :: l) where
  bounds q hq := by
    rcases List.mem_cons.mp hq with rfl | hq
    · exact hp
    · exact h.bounds q hq
  apart := List.pairwise_cons.mpr ⟨hl, h.apart⟩

@[simp] theorem member_nil (i : Int) : ¬ Member i [] := by simp [Member]

@[simp] theorem member_cons (i : Int) : Member i (p :: l) ↔ p.1 ≤ i ∧ i ≤ p.2 ∨ Member i l := by
  simp [Member]

theorem Separated.lt_of_member (h : Separated maximum (p :: l)) {i : Int} (hi : Member i l) :
    p.2 + 1 < i := by
  obtain ⟨q, hq, hle, -⟩ := hi
  have := h.head hq
  omega

/-! ## `FindInterval` -/

theorem ofLowerBound_eq_some_iff (id : Int) (previous : Option (Int × Int))
    (h : Separated maximum (previous.toList ++ l)) (hlt : ∀ p ∈ previous, p.1 < id) :
    ofLowerBound id (lowerBound id previous l) = some q ↔
      (previous = some q ∨ q ∈ l) ∧ q.1 ≤ id ∧ id ≤ q.2 := by
  induction l generalizing previous with
  | nil =>
    simp only [lowerBound, ofLowerBound, isContainedInPrevious, Option.filter_eq_some_iff,
      decide_eq_true_eq, List.not_mem_nil, or_false]
    refine and_congr_right fun hq => ?_
    have := hlt q hq
    omega
  | cons p l ih =>
    have hp : Separated maximum (p :: l) := by
      cases previous with
      | none => exact h
      | some r => exact h.tail
    have hout : previous = some q → p.1 ≤ id → ¬ id ≤ q.2 := by
      rintro rfl hi
      have := h.head (q := p) (by simp)
      omega
    rw [lowerBound]
    split_ifs with hlow
    · rw [ih (some p) hp (by simpa using hlow)]
      simp only [Option.some.injEq, List.mem_cons]
      grind
    · have hlater : q ∈ l → ¬ q.1 ≤ id := by
        intro hq
        have := hp.head hq
        have := hp.bounds p (by simp)
        omega
      have hself := hp.bounds p (by simp)
      simp only [ofLowerBound]
      split_ifs with hgt
      · simp only [isContainedInPrevious, Option.filter_eq_some_iff, decide_eq_true_eq, List.mem_cons]
        grind
      · grind

theorem findInterval_eq_some_iff (h : Separated maximum l) (id : Int) :
    findInterval id l = some q ↔ q ∈ l ∧ q.1 ≤ id ∧ id ≤ q.2 := by
  have hspec := ofLowerBound_eq_some_iff id none (q := q) h (by simp)
  simpa [findInterval] using hspec

theorem findInterval_eq_none_iff (h : Separated maximum l) (id : Int) :
    findInterval id l = none ↔ ¬ Member id l := by
  constructor
  · rintro hnone ⟨p, hp, hle⟩
    rw [(findInterval_eq_some_iff h id).mpr ⟨hp, hle⟩] at hnone
    cases hnone
  · intro hfree
    cases hfind : findInterval id l with
    | none => rfl
    | some p => exact absurd ⟨p, (findInterval_eq_some_iff h id).mp hfind⟩ hfree

/-! ## The operations of the map at one element -/

variable {a b : Intervals} {key value : Int}

theorem erase_append (key value : Int) (ha : ∀ p ∈ a, p.1 ≠ key) (hb : ∀ p ∈ b, p.1 ≠ key) :
    erase key (a ++ (key, value) :: b) = a ++ b := by
  have hkeep : ∀ {c : Intervals}, (∀ p ∈ c, p.1 ≠ key) → erase key c = c := by
    intro c hc
    exact List.filter_eq_self.mpr (by simpa using hc)
  have hsplit : erase key (a ++ (key, value) :: b) = erase key a ++ erase key b := by
    simp [erase, List.filter_append]
  rw [hsplit, hkeep ha, hkeep hb]

theorem assign_append {old : Int} (ha : ∀ p ∈ a, p.1 ≠ key) (hb : ∀ p ∈ b, p.1 ≠ key) :
    assign key value (a ++ (key, old) :: b) = a ++ (key, value) :: b := by
  have hkeep : ∀ {c : Intervals}, (∀ p ∈ c, p.1 ≠ key) → assign key value c = c := by
    intro c hc
    conv_rhs => rw [← List.map_id c]
    exact List.map_congr_left fun p hp => if_neg (hc p hp)
  have hsplit : assign key value (a ++ (key, old) :: b) =
      assign key value a ++ (key, value) :: assign key value b := by
    simp [assign]
  rw [hsplit, hkeep ha, hkeep hb]

theorem insert_append (value : Int) (ha : ∀ p ∈ a, p.1 < key) (hb : ∀ p ∈ b, key < p.1) :
    insert (key, value) (a ++ b) = a ++ (key, value) :: b := by
  induction a with
  | nil =>
    cases b with
    | nil => rfl
    | cons q b => simp [insert, hb q (by simp)]
  | cons p a ih =>
    have hp := ha p (by simp)
    rw [List.cons_append, insert, if_neg (by simp; omega), if_neg (by simp; omega),
      ih fun q hq => ha q (by simp [hq])]
    rfl

theorem insert_of_lt (hb : ∀ p ∈ b, key < p.1) : insert (key, value) b = (key, value) :: b :=
  insert_append _ (a := []) (by simp) hb

/-! ## Replacing one interval by what remains of it -/

theorem member_append (i : Int) : Member i (a ++ b) ↔ Member i a ∨ Member i b := by
  simp only [Member, List.mem_append]
  grind

@[simp] theorem separated_nil : Separated maximum [] := ⟨by simp, by simp⟩

@[simp] theorem separated_singleton :
    Separated maximum [p] ↔ 1 ≤ p.1 ∧ p.1 ≤ p.2 ∧ p.2 ≤ maximum :=
  ⟨fun h => h.bounds p (by simp), fun h => separated_nil.cons h (by simp)⟩

theorem separated_append : Separated maximum (a ++ b) ↔
    Separated maximum a ∧ Separated maximum b ∧ ∀ p ∈ a, ∀ q ∈ b, p.2 + 1 < q.1 := by
  constructor
  · rintro ⟨hbounds, hapart⟩
    obtain ⟨ha, hb, hab⟩ := List.pairwise_append.mp hapart
    exact ⟨⟨fun p hp => hbounds p (by simp [hp]), ha⟩,
      ⟨fun p hp => hbounds p (by simp [hp]), hb⟩, hab⟩
  · rintro ⟨ha, hb, hab⟩
    exact ⟨fun p hp => (List.mem_append.mp hp).elim (ha.bounds p) (hb.bounds p),
      List.pairwise_append.mpr ⟨ha.apart, hb.apart, hab⟩⟩

/-- The number of ids in a list of intervals. -/
def total (l : Intervals) : Int := (l.map fun p => p.2 - p.1 + 1).sum

@[simp] theorem total_nil : total [] = 0 := rfl

@[simp] theorem total_cons : total (p :: l) = p.2 - p.1 + 1 + total l := rfl

@[simp] theorem total_append : total (a ++ b) = total a + total b := by
  simp [total]

theorem Separated.replace {parts : Intervals} (h : Separated maximum (a ++ p :: b))
    (hparts : Separated maximum parts) (hin : ∀ q ∈ parts, p.1 ≤ q.1 ∧ q.2 ≤ p.2) :
    Separated maximum (a ++ (parts ++ b)) := by
  obtain ⟨ha, hpb, hab⟩ := separated_append.mp h
  refine separated_append.mpr ⟨ha, separated_append.mpr ⟨hparts, hpb.tail, ?_⟩, ?_⟩
  · intro q hq r hr
    have := hin q hq
    have := hpb.head hr
    omega
  · intro q hq r hr
    rcases List.mem_append.mp hr with hr | hr
    · have := hin r hr
      have := hab q hq p (by simp)
      omega
    · exact hab q hq r (by simp [hr])

/-! ## `ReleaseId` -/

/-- `l'` represents the set of `l` without `id`. -/
structure Without (maximum id : Int) (l l' : Intervals) : Prop where
  separated : Separated maximum l'
  member_iff : ∀ i, Member i l' ↔ Member i l ∧ i ≠ id
  total_eq : total l' = total l - 1

theorem without_of_parts {id : Int} (parts : Intervals) (h : Separated maximum (a ++ p :: b))
    (hparts : Separated maximum parts) (hin : ∀ q ∈ parts, p.1 ≤ q.1 ∧ q.2 ≤ p.2)
    (hid : p.1 ≤ id ∧ id ≤ p.2)
    (hmember : ∀ i, Member i parts ↔ (p.1 ≤ i ∧ i ≤ p.2) ∧ i ≠ id)
    (htotal : total parts = p.2 - p.1) :
    Without maximum id (a ++ p :: b) (a ++ (parts ++ b)) where
  separated := h.replace hparts hin
  member_iff i := by
    obtain ⟨-, hpb, hab⟩ := separated_append.mp h
    have hbefore : Member i a → i ≠ id := by
      rintro ⟨q, hq, hle⟩
      have := hab q hq p (by simp)
      omega
    have hafter : Member i b → i ≠ id := fun hi => by
      have := hpb.lt_of_member hi
      omega
    rw [member_append, member_append, member_append, member_cons, hmember]
    grind
  total_eq := by
    simp only [total_append, total_cons, htotal]
    omega

theorem releaseIdIntervals_spec (h : Separated maximum l) {id : Int} {l' : Intervals}
    (hr : releaseIdIntervals id l = some l') : Member id l ∧ Without maximum id l l' := by
  unfold releaseIdIntervals at hr
  split at hr
  · cases hr
  · rename_i release hfind
    obtain ⟨hmem, hlow, hhigh⟩ := (findInterval_eq_some_iff h id).mp hfind
    refine ⟨⟨release, hmem, hlow, hhigh⟩, ?_⟩
    obtain ⟨a, b, rfl⟩ := List.append_of_mem hmem
    obtain ⟨first, last⟩ := release
    simp only at hlow hhigh hr
    obtain ⟨-, hrb, hab⟩ := separated_append.mp h
    have hbounds := h.bounds (first, last) (by simp)
    have hbefore : ∀ p ∈ a, p.1 < first := fun p hp => by
      have := hab p hp (first, last) (by simp)
      have := h.bounds p (by simp [hp])
      omega
    have hafter : ∀ p ∈ b, last < p.1 := fun p hp => by
      have := hrb.head hp
      omega
    have hbefore' : ∀ p ∈ a, p.1 ≠ first := fun p hp => Int.ne_of_lt (hbefore p hp)
    have hafter' : ∀ p ∈ b, p.1 ≠ first := fun p hp => by
      have := hafter p hp
      omega
    have hinsert : id < last → insert (id + 1, last) (a ++ (first, last) :: b) =
        a ++ (first, last) :: (id + 1, last) :: b := by
      intro hlt
      have hpre : ∀ p ∈ a ++ [(first, last)], p.1 < id + 1 := by
        simp only [List.mem_append, List.mem_singleton]
        rintro p (hp | rfl)
        · have := hbefore p hp
          omega
        · simp only
          omega
      have hcut := insert_append last hpre fun p hp => by
        have := hafter p hp
        omega
      simpa using hcut
    have hrest : ∀ p ∈ (id + 1, last) :: b, p.1 ≠ first := by
      simp only [List.mem_cons]
      rintro p (rfl | hp)
      · simp only
        omega
      · exact hafter' p hp
    split_ifs at hr with hfirst hlast hlast <;> obtain rfl := Option.some.inj hr
    · -- the interval consists of `id`
      rw [erase_append _ _ hbefore' hafter']
      refine without_of_parts [] h separated_nil (by simp) ⟨hlow, hhigh⟩ (fun i => ?_) ?_
      · simp only [member_nil, false_iff]
        omega
      · simp only [total_nil]
        omega
    · rw [hinsert (by omega), erase_append _ _ hbefore' hrest]
      refine without_of_parts [(id + 1, last)] h ?_ ?_ ⟨hlow, hhigh⟩ (fun i => ?_) ?_
      · simp only [separated_singleton]
        omega
      · simp only [List.forall_mem_singleton]
        omega
      · simp only [member_cons, member_nil, or_false]
        omega
      · simp only [total_cons, total_nil]
        omega
    · rw [assign_append hbefore' hafter']
      refine without_of_parts [(first, last - 1)] h ?_ ?_ ⟨hlow, hhigh⟩ (fun i => ?_) ?_
      · simp only [separated_singleton]
        omega
      · simp only [List.forall_mem_singleton]
        omega
      · simp only [member_cons, member_nil, or_false]
        omega
      · simp only [total_cons, total_nil]
        omega
    · rw [hinsert (by omega), assign_append hbefore' hrest]
      refine without_of_parts [(first, id - 1), (id + 1, last)] h ?_ ?_ ⟨hlow, hhigh⟩
        (fun i => ?_) ?_
      · refine Separated.cons (separated_singleton.mpr ?_) ?_ ?_ <;>
          simp only [List.forall_mem_singleton] <;> omega
      · simp only [List.forall_mem_cons]
        refine ⟨?_, ?_, by simp⟩ <;> omega
      · simp only [member_cons, member_nil, or_false]
        omega
      · simp only [total_cons, total_nil]
        omega

theorem releaseIdIntervals_isSome_iff (h : Separated maximum l) (id : Int) :
    (releaseIdIntervals id l).isSome ↔ Member id l := by
  constructor
  · intro hsome
    obtain ⟨l', hl'⟩ := Option.isSome_iff_exists.mp hsome
    exact (releaseIdIntervals_spec h hl').1
  · intro hid
    unfold releaseIdIntervals
    cases hfind : findInterval id l with
    | none => exact absurd hid ((findInterval_eq_none_iff h id).mp hfind)
    | some p =>
      simp only
      split_ifs <;> rfl

/-! ## `GetId` -/

/-- `l'` represents the set of `l` and `id`, the least positive id that is not
in the set of `l`. -/
structure WithLeast (maximum id : Int) (l l' : Intervals) : Prop where
  separated : Separated maximum l'
  pos : 1 ≤ id
  fresh : ¬ Member id l
  least : ∀ i, 1 ≤ i → i < id → Member i l
  member_iff : ∀ i, Member i l' ↔ Member i l ∨ i = id
  total_eq : total l' = total l + 1

/-- `id` joins the first interval, or becomes one; `first` and `last` are the
bounds of the interval it is in afterwards. -/
theorem withLeast_of_first {id first last : Int} {rest : Intervals}
    (hrest : Separated maximum rest) (hbounds : 1 ≤ first ∧ first ≤ last ∧ last ≤ maximum)
    (hapart : ∀ q ∈ rest, last + 1 < q.1) (hid : first ≤ id ∧ id ≤ last) (hfresh : ¬ Member id l)
    (hleast : ∀ i, 1 ≤ i → i < id → Member i l)
    (hmember : ∀ i, Member i l ↔ (first ≤ i ∧ i ≤ last) ∧ i ≠ id ∨ Member i rest)
    (htotal : total l = last - first + total rest) :
    WithLeast maximum id l ((first, last) :: rest) where
  separated := hrest.cons hbounds hapart
  pos := by omega
  fresh := hfresh
  least := hleast
  member_iff i := by
    rw [member_cons, hmember]
    grind
  total_eq := by
    rw [total_cons, htotal]
    omega

/-- The ids of the interval that `GetId` extends or precedes, and the intervals
after it. -/
theorem Separated.later {first last : Int} {rest : Intervals}
    (h : Separated maximum ((first, last) :: rest)) :
    (1 ≤ first ∧ first ≤ last ∧ last ≤ maximum) ∧ (∀ q ∈ rest, last + 1 < q.1) ∧
      ∀ i, Member i rest → last + 1 < i :=
  ⟨h.bounds (first, last) (by simp), fun _ hq => h.head hq, fun _ hi => h.lt_of_member hi⟩

/-- The id 1 is free and 2 is not the first id in use. -/
theorem withLeast_before {first last : Int} {rest : Intervals} (hmax : 1 ≤ maximum)
    (h : Separated maximum ((first, last) :: rest)) (hgap : first > 2) :
    WithLeast maximum 1 ((first, last) :: rest) (insert (1, 1) ((first, last) :: rest)) := by
  obtain ⟨hbounds, hafter, hlater⟩ := h.later
  have hall : ∀ q ∈ (first, last) :: rest, 1 + 1 < q.1 := by
    simp only [List.forall_mem_cons]
    refine ⟨by omega, fun q hq => ?_⟩
    have := hafter q hq
    omega
  rw [insert_of_lt fun q hq => by
    have := hall q hq
    omega]
  refine withLeast_of_first h (by omega) hall (by omega) ?_ (by omega) (fun i => ?_) (by simp)
  · rw [member_cons]
    have := hlater 1
    grind
  · rw [member_cons]
    grind

/-- The id 1 is free and 2 is in use. -/
theorem withLeast_downward {last : Int} {rest : Intervals}
    (h : Separated maximum ((2, last) :: rest)) :
    WithLeast maximum 1 ((2, last) :: rest)
      (erase 2 (insert (1, last) ((2, last) :: rest))) := by
  obtain ⟨hbounds, hafter, hlater⟩ := h.later
  have hall : ∀ q ∈ (2, last) :: rest, 1 < q.1 := by
    simp only [List.forall_mem_cons]
    refine ⟨by omega, fun q hq => ?_⟩
    have := hafter q hq
    omega
  have herase := erase_append 2 last (a := [(1, last)]) (b := rest) (by simp)
    (fun q hq => by
      have := hafter q hq
      omega)
  rw [List.singleton_append, List.singleton_append] at herase
  rw [insert_of_lt hall, herase]
  refine withLeast_of_first h.tail (by omega) hafter (by omega) ?_ (by omega) (fun i => ?_) ?_
  · rw [member_cons]
    have := hlater 1
    grind
  · rw [member_cons]
    grind
  · rw [total_cons]
    simp only
    omega

/-- The first interval is `[1, last]`: the new id extends it and may close the
gap to the next one. -/
theorem withLeast_upward {last : Int} {rest : Intervals} (h : Separated maximum ((1, last) :: rest))
    (hlast : rest = [] → last ≠ maximum) :
    WithLeast maximum (last + 1) ((1, last) :: rest)
      (match rest with
        | next :: _ =>
            if last + 1 + 1 = next.1 then erase next.1 (assign 1 next.2 ((1, last) :: rest))
            else assign 1 (last + 1) ((1, last) :: rest)
        | [] => assign 1 (last + 1) ((1, last) :: rest)) := by
  obtain ⟨hbounds, hafter, hlater⟩ := h.later
  have hfresh : ¬ Member (last + 1) ((1, last) :: rest) := by
    rw [member_cons]
    have := hlater (last + 1)
    grind
  have hleast : ∀ i, 1 ≤ i → i < last + 1 → Member i ((1, last) :: rest) := fun i hi hlt =>
    (member_cons i).mpr (.inl ⟨hi, by simp only; omega⟩)
  have hassign : ∀ value, assign 1 value ((1, last) :: rest) = (1, value) :: rest := fun value =>
    assign_append (a := []) (by simp) fun q hq => by
      have := hafter q hq
      omega
  cases rest with
  | nil =>
    have := hlast rfl
    simp only [hassign]
    refine withLeast_of_first separated_nil (by omega) (by simp) (by omega) hfresh hleast
      (fun i => ?_) (by simp)
    simp only [member_cons, member_nil, or_false]
    omega
  | cons next rest =>
    obtain ⟨first', last'⟩ := next
    have hnext := hafter (first', last') (by simp)
    obtain ⟨hbounds', hafter', hlater'⟩ := h.tail.later
    simp only [hassign] at hnext ⊢
    split_ifs with hmerge
    · have herase := erase_append first' last' (a := [(1, last')]) (b := rest)
        (by simp; omega) (fun q hq => by
          have := hafter' q hq
          omega)
      rw [List.singleton_append, List.singleton_append] at herase
      rw [herase]
      refine withLeast_of_first h.tail.tail (by omega) hafter' (by omega) hfresh hleast
        (fun i => ?_) ?_
      · simp only [member_cons]
        grind
      · simp only [total_cons]
        omega
    · refine withLeast_of_first h.tail (by omega) ?_ (by omega) hfresh hleast (fun i => ?_) ?_
      · simp only [List.forall_mem_cons]
        refine ⟨by omega, fun q hq => ?_⟩
        have := hafter' q hq
        omega
      · simp only [member_cons]
        have := hlater' i
        grind
      · simp only [total_cons]
        omega

theorem getIdIntervals_spec (hmax : 1 ≤ maximum) (h : Separated maximum l) {id : Int} {l' : Intervals}
    (hg : getIdIntervals maximum l = some (id, l')) : WithLeast maximum id l l' := by
  cases l with
  | nil =>
    obtain ⟨rfl, rfl⟩ := Prod.mk.inj (Option.some.inj hg)
    refine withLeast_of_first separated_nil (by omega) (by simp) (by omega) (by simp) (by omega)
      (fun i => ?_) (by simp)
    simp only [member_nil, or_false, false_iff]
    omega
  | cons least rest =>
    obtain ⟨first, last⟩ := least
    obtain ⟨hbounds, -, -⟩ := h.later
    simp only [getIdIntervals] at hg
    by_cases hgap : first > 1
    · rw [if_pos hgap] at hg
      split_ifs at hg with htwo <;> obtain ⟨rfl, rfl⟩ := Prod.mk.inj (Option.some.inj hg)
      · exact withLeast_before hmax h htwo
      · obtain rfl : first = 2 := by omega
        exact withLeast_downward h
    · rw [if_neg hgap] at hg
      obtain rfl : first = 1 := by omega
      cases rest with
      | nil =>
        simp only at hg
        split_ifs at hg with hfull
        obtain ⟨rfl, rfl⟩ := Prod.mk.inj (Option.some.inj hg)
        exact withLeast_upward h fun _ => hfull
      | cons next rest =>
        have hspec := withLeast_upward h (by simp)
        simp only at hg hspec
        split_ifs at hg hspec <;> obtain ⟨rfl, rfl⟩ := Prod.mk.inj (Option.some.inj hg)
        · exact hspec
        · exact hspec

theorem getIdIntervals_eq_none_iff (h : Separated maximum l) :
    getIdIntervals maximum l = none ↔ l = [(1, maximum)] := by
  constructor
  · intro hnone
    cases l with
    | nil => cases hnone
    | cons least rest =>
      obtain ⟨first, last⟩ := least
      have hbounds := h.bounds (first, last) (by simp)
      simp only at hbounds
      simp only [getIdIntervals] at hnone
      by_cases hgap : first > 1
      · rw [if_pos hgap] at hnone
        split_ifs at hnone
      rw [if_neg hgap] at hnone
      cases rest with
      | nil =>
        simp only at hnone
        split_ifs at hnone with hfull
        obtain rfl : first = 1 := by omega
        rw [hfull]
      | cons next rest =>
        simp only at hnone
        split_ifs at hnone
  · rintro rfl
    simp [getIdIntervals]

/-! ## The class -/

theorem separated_new {I : IntegralType} : Separated I.maximum [] := separated_nil

theorem size_new : 0 = total [] := rfl

end AsComponents.IdManager

namespace AsComponents

open IdManager

/-- An instance of `IdManager<I>`. -/
structure IdManager (I : IntegralType) where
  size : Int := 0
  idIntervals : Intervals := []
  separated : Separated I.maximum idIntervals := by exact IdManager.separated_new
  size_eq : size = total idIntervals := by exact IdManager.size_new

namespace IdManager

variable {I : IntegralType}

def isUsed (m : IdManager I) (id : Int) : Bool := (findInterval id m.idIntervals).isSome

def getId (m : IdManager I) : Option (Int × IdManager I) :=
  match h : getIdIntervals I.maximum m.idIntervals with
  | none => none
  | some (id, l) =>
      have hl := getIdIntervals_spec I.one_le m.separated h
      some (id, { size := m.size + 1, idIntervals := l, separated := hl.separated,
                  size_eq := by rw [hl.total_eq, m.size_eq] })

def releaseId (m : IdManager I) (id : Int) : Option (IdManager I) :=
  match h : releaseIdIntervals id m.idIntervals with
  | none => none
  | some l =>
      have hl := (releaseIdIntervals_spec m.separated h).2
      some { size := m.size - 1, idIntervals := l, separated := hl.separated,
             size_eq := by rw [hl.total_eq, m.size_eq] }

theorem isUsed_iff (m : IdManager I) (id : Int) : m.isUsed id = true ↔ Member id m.idIntervals := by
  rw [isUsed, Option.isSome_iff_ne_none, ne_eq, findInterval_eq_none_iff m.separated, not_not]

@[simp] theorem isUsed_new (id : Int) : ({} : IdManager I).isUsed id = false := rfl

theorem isUsed_bounds {m : IdManager I} {id : Int} (h : m.isUsed id = true) :
    1 ≤ id ∧ id ≤ I.maximum := by
  obtain ⟨p, hp, hle, hge⟩ := (isUsed_iff m id).mp h
  have hbounds := m.separated.bounds p hp
  omega

theorem getId_spec {m m' : IdManager I} {id : Int} (h : m.getId = some (id, m')) :
    1 ≤ id ∧ m.isUsed id = false ∧ (∀ i, 1 ≤ i → i < id → m.isUsed i = true) ∧
      ∀ i, m'.isUsed i = (m.isUsed i || i == id) := by
  unfold getId at h
  split at h
  · cases h
  · rename_i id' l hl
    obtain ⟨rfl, rfl⟩ := Prod.mk.inj (Option.some.inj h)
    have hspec := getIdIntervals_spec I.one_le m.separated hl
    refine ⟨hspec.pos, ?_, fun i hi hlt => (isUsed_iff m i).mpr (hspec.least i hi hlt), fun i => ?_⟩
    · rw [← Bool.not_eq_true, isUsed_iff]
      exact hspec.fresh
    · rw [Bool.eq_iff_iff, Bool.or_eq_true, isUsed_iff, isUsed_iff, beq_iff_eq]
      exact hspec.member_iff i

/-- `GetId` throws exactly when every id of the type is in use. -/
theorem getId_eq_none_iff (m : IdManager I) :
    m.getId = none ↔ ∀ i, 1 ≤ i → i ≤ I.maximum → m.isUsed i = true := by
  have hfull := getIdIntervals_eq_none_iff m.separated
  constructor
  · intro hnone i hi hle
    unfold getId at hnone
    split at hnone
    · rename_i hl
      rw [isUsed_iff, hfull.mp hl, member_cons]
      exact .inl ⟨hi, hle⟩
    · cases hnone
  · intro hall
    cases hget : m.getId with
    | none => rfl
    | some r =>
      obtain ⟨id, m'⟩ := r
      obtain ⟨hpos, hfree, -, hused⟩ := getId_spec hget
      have hnew : m'.isUsed id = true := by simp [hused]
      obtain ⟨p, hp, -, hle⟩ := (isUsed_iff m' id).mp hnew
      have hmax := m'.separated.bounds p hp
      rw [hall id hpos (by omega)] at hfree
      cases hfree

theorem releaseId_spec {m m' : IdManager I} {id : Int} (h : m.releaseId id = some m') :
    m.isUsed id = true ∧ ∀ i, m'.isUsed i = (m.isUsed i && i != id) := by
  unfold releaseId at h
  split at h
  · cases h
  · rename_i l hl
    obtain rfl := Option.some.inj h
    obtain ⟨hused, hwithout⟩ := releaseIdIntervals_spec m.separated hl
    refine ⟨(isUsed_iff m id).mpr hused, fun i => ?_⟩
    rw [Bool.eq_iff_iff, Bool.and_eq_true, isUsed_iff, isUsed_iff, bne_iff_ne]
    exact hwithout.member_iff i

theorem releaseId_isSome (m : IdManager I) (id : Int) : (m.releaseId id).isSome = m.isUsed id := by
  rw [Bool.eq_iff_iff, isUsed_iff, ← releaseIdIntervals_isSome_iff m.separated]
  unfold releaseId
  split <;> simp_all

end IdManager

end AsComponents
