import Mathlib

/-! `std::sort` and `std::lower_bound` of the standard library. -/

namespace AsComponents.Algorithms

variable {α : Type} {r : α → α → Prop} {less : α → Bool} {l : List α}

/-- What `std::sort` promises: the same elements in order.  Nothing is said
about the order of elements that are equivalent. -/
structure Sorts (r : α → α → Prop) (sort : List α → List α) : Prop where
  perm : ∀ l, (sort l).Perm l
  sorted : ∀ l, (sort l).Pairwise r

theorem sorts_insertionSort [DecidableRel r] [Std.Total r] [IsTrans α r] :
    Sorts r (List.insertionSort r) :=
  ⟨List.perm_insertionSort r, fun l => List.pairwise_insertionSort r l⟩

/-- The loop of `std::lower_bound` over the `length` elements from `first` on;
`less` compares an element with the value that is searched. -/
def lowerBoundLoop (less : α → Bool) (l : List α) : Nat → Nat → Nat → Nat
  | 0, first, _ => first
  | fuel + 1, first, length =>
      if length > 0 then
        let half := length / 2
        if l[first + half]?.any less then
          lowerBoundLoop less l fuel (first + half + 1) (length - half - 1)
        else lowerBoundLoop less l fuel first half
      else first

/-- The index that `std::lower_bound` returns. -/
def lowerBound (less : α → Bool) (l : List α) : Nat :=
  lowerBoundLoop less l l.length 0 l.length

/-- The elements before the index are less than the value, those from the index
on are not. -/
structure Divides (less : α → Bool) (l : List α) (low high : Nat) : Prop where
  before : ∀ i < low, ∀ a ∈ l[i]?, less a = true
  after : ∀ i ≥ high, ∀ a ∈ l[i]?, less a = false

/-- No element that is less than the value follows one that is not. -/
def Partitioned (less : α → Bool) (l : List α) : Prop :=
  l.Pairwise fun a b => less b = true → less a = true

theorem Partitioned.before (h : Partitioned less l) {i j : Nat} (hij : i ≤ j) {a b : α}
    (ha : l[i]? = some a) (hb : l[j]? = some b) (hless : less b = true) : less a = true := by
  rcases Nat.eq_or_lt_of_le hij with rfl | hlt
  · rw [ha] at hb
    obtain rfl := Option.some.inj hb
    exact hless
  · obtain ⟨hi, rfl⟩ := List.getElem?_eq_some_iff.mp ha
    obtain ⟨hj, rfl⟩ := List.getElem?_eq_some_iff.mp hb
    exact List.pairwise_iff_getElem.mp h i j hi hj hlt hless

theorem divides_lowerBoundLoop (h : Partitioned less l) (fuel : Nat) :
    ∀ (first length : Nat), length ≤ fuel → first + length ≤ l.length →
      Divides less l first (first + length) →
      Divides less l (lowerBoundLoop less l fuel first length)
        (lowerBoundLoop less l fuel first length) := by
  induction fuel with
  | zero =>
    intro first length hfuel _ hdivides
    obtain rfl : length = 0 := by omega
    exact hdivides
  | succ fuel ih =>
    intro first length hfuel hle hdivides
    rw [lowerBoundLoop]
    by_cases hpos : length > 0
    · rw [if_pos hpos]
      have hmiddle : first + length / 2 < l.length := by omega
      have hget : l[first + length / 2]? = some l[first + length / 2] :=
        List.getElem?_eq_getElem hmiddle
      dsimp only
      rw [hget, Option.any_some]
      by_cases hless : less l[first + length / 2] = true
      · rw [if_pos hless]
        have hsum : first + length / 2 + 1 + (length - length / 2 - 1) = first + length := by omega
        refine ih _ _ (by omega) (by omega) ⟨fun i hi a ha => ?_, fun i hi a ha => ?_⟩
        · exact h.before (by omega) ha hget hless
        · exact hdivides.after i (by omega) a ha
      · rw [if_neg hless]
        refine ih _ _ (by omega) (by omega) ⟨hdivides.before, fun i hi a ha => ?_⟩
        by_contra hnot
        rw [Bool.not_eq_false] at hnot
        exact hless (h.before hi hget ha hnot)
    · obtain rfl : length = 0 := by omega
      rw [if_neg hpos]
      exact hdivides

/-- `std::lower_bound` finds the first element that is not less than the value. -/
theorem getElem?_lowerBound (h : Partitioned less l) :
    l[lowerBound less l]? = l.find? fun a => !less a := by
  have hdivides := divides_lowerBoundLoop h l.length 0 l.length le_rfl (by omega)
    ⟨fun i hi => by omega, fun i hi a ha => by
      rw [List.getElem?_eq_none (by omega)] at ha
      cases ha⟩
  change Divides less l (lowerBound less l) (lowerBound less l) at hdivides
  cases hget : l[lowerBound less l]? with
  | none =>
    have hend := List.getElem?_eq_none_iff.mp hget
    refine (List.find?_eq_none.mpr fun a ha => ?_).symm
    obtain ⟨i, hi, rfl⟩ := List.mem_iff_getElem.mp ha
    have hless := hdivides.before i (by omega) l[i] (List.getElem?_eq_getElem hi)
    simp [hless]
  | some a =>
    obtain ⟨hlt, rfl⟩ := List.getElem?_eq_some_iff.mp hget
    refine (List.find?_eq_some_iff_getElem.mpr ⟨?_, _, hlt, rfl, fun i hi => ?_⟩).symm
    · have hnot := hdivides.after _ le_rfl _ hget
      simp [hnot]
    · have hless := hdivides.before i hi _ (List.getElem?_eq_getElem (by omega))
      simp [hless]

end AsComponents.Algorithms
