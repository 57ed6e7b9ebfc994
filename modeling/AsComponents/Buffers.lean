import Mathlib

/-! Reads of a part of a sequence, and a vector whose memory is replaced when it
grows past its capacity: a pointer into the memory that was replaced is not
valid any more. -/

namespace AsComponents.Buffers

variable {α : Type}

/-! ## Parts of a sequence -/

/-- The `n` elements from `start` on; `none` when some of them are outside. -/
def slice (l : List α) (start n : Nat) : Option (List α) :=
  if start + n ≤ l.length then some ((l.drop start).take n) else none

/-- The sequence with the elements from `start` on replaced. -/
def patch (l : List α) (start : Nat) (xs : List α) : List α :=
  l.take start ++ xs ++ l.drop (start + xs.length)

section

variable {l front back xs ys : List α} {start n : Nat}

theorem slice_eq_some_iff :
    slice l start n = some xs ↔ ∃ front back, l = front ++ (xs ++ back) ∧ front.length = start ∧
      xs.length = n := by
  constructor
  · intro h
    unfold slice at h
    split at h
    · rename_i hle
      obtain rfl := Option.some.inj h
      refine ⟨l.take start, (l.drop start).drop n, ?_, ?_, ?_⟩
      · rw [List.take_append_drop, List.take_append_drop]
      · rw [List.length_take, Nat.min_eq_left (by omega)]
      · rw [List.length_take, List.length_drop, Nat.min_eq_left (by omega)]
    · cases h
  · rintro ⟨front, back, rfl, rfl, rfl⟩
    rw [slice, if_pos (by simp only [List.length_append]; omega), List.drop_left, List.take_left]

theorem slice_append_right (h : slice l start n = some xs) : slice (l ++ ys) start n = some xs := by
  obtain ⟨front, back, rfl, hstart, hn⟩ := slice_eq_some_iff.mp h
  exact slice_eq_some_iff.mpr ⟨front, back ++ ys, by simp only [List.append_assoc], hstart, hn⟩

theorem slice_append_self (l xs : List α) : slice (l ++ xs) l.length xs.length = some xs :=
  slice_eq_some_iff.mpr ⟨l, [], by rw [List.append_nil], rfl, rfl⟩

theorem le_of_slice (h : slice l start n = some xs) : start + n ≤ l.length ∧ xs.length = n := by
  obtain ⟨front, back, rfl, rfl, hn⟩ := slice_eq_some_iff.mp h
  refine ⟨?_, hn⟩
  simp only [List.length_append]
  omega

theorem slice_eq (h : start + n ≤ l.length) : slice l start n = some ((l.drop start).take n) :=
  if_pos h

theorem length_patch (h : start + xs.length ≤ l.length) : (patch l start xs).length = l.length := by
  simp only [patch, List.length_append, List.length_take, List.length_drop]
  omega

theorem drop_take_patch_of_le {i m : Nat} (h : i + m ≤ start) (hle : start ≤ l.length) :
    ((patch l start xs).drop i).take m = (l.drop i).take m := by
  rw [patch, List.append_assoc, List.drop_append_of_le_length (by rw [List.length_take]; omega),
    List.take_append_of_le_length (by rw [List.length_drop, List.length_take]; omega), List.drop_take,
    List.take_take, Nat.min_eq_left (by omega)]

theorem drop_patch_of_le {i : Nat} (h : start + xs.length ≤ i) (hle : start ≤ l.length) :
    (patch l start xs).drop i = l.drop i := by
  have hlength : (l.take start ++ xs).length = start + xs.length := by
    rw [List.length_append, List.length_take, Nat.min_eq_left hle]
  obtain ⟨k, rfl⟩ := Nat.exists_eq_add_of_le h
  rw [patch, ← hlength, ← List.drop_drop, List.drop_left, hlength, List.drop_drop]

/-- A write changes no part that it does not touch. -/
theorem slice_patch_of_disjoint {i m : Nat} (hin : start + xs.length ≤ l.length)
    (hdisjoint : i + m ≤ start ∨ start + xs.length ≤ i) : slice (patch l start xs) i m = slice l i m := by
  unfold slice
  rw [length_patch hin]
  rcases hdisjoint with h | h
  · rw [drop_take_patch_of_le h (by omega)]
  · rw [drop_patch_of_le h (by omega)]

/-- A part of a part. -/
theorem slice_of_slice (h : slice l start n = some xs) {i m : Nat} (hin : i + m ≤ n) :
    slice l (start + i) m = some ((xs.drop i).take m) := by
  obtain ⟨front, back, rfl, rfl, rfl⟩ := slice_eq_some_iff.mp h
  rw [slice_eq (by simp only [List.length_append]; omega), ← List.drop_drop, List.drop_left,
    List.drop_append_of_le_length (by omega),
    List.take_append_of_le_length (by rw [List.length_drop]; omega)]

/-- A write inside of a part. -/
theorem slice_patch_of_inside (h : slice l start n = some xs) {i : Nat} (hin : i + ys.length ≤ n) :
    slice (patch l (start + i) ys) start n = some (patch xs i ys) := by
  obtain ⟨front, back, rfl, rfl, rfl⟩ := slice_eq_some_iff.mp h
  refine slice_eq_some_iff.mpr ⟨front, back, ?_, rfl, length_patch hin⟩
  have hback : (front ++ (xs ++ back)).drop (front.length + i + ys.length) =
      xs.drop (i + ys.length) ++ back := by
    rw [Nat.add_assoc, ← List.drop_drop, List.drop_left, List.drop_append_of_le_length hin]
  have hfront : (front ++ (xs ++ back)).take (front.length + i) = front ++ xs.take i := by
    rw [List.take_length_add_append, List.take_append_of_le_length (by omega)]
  rw [patch, hback, hfront, patch]
  simp only [List.append_assoc]

/-- A write over what was appended. -/
theorem patch_append_self (l : List α) {xs ys : List α} (h : ys.length = xs.length) :
    patch (l ++ ys) l.length xs = l ++ xs := by
  rw [patch, List.take_left, ← h, ← List.length_append, List.drop_length, List.append_nil]

end

/-! ## Vectors -/

/-- A vector; `block` tells apart the memory that it has had. -/
structure Buffer (α : Type) where
  elements : List α
  capacity : Nat
  block : Nat := 0

structure Pointer where
  block : Nat
  index : Nat
  deriving DecidableEq, Repr

namespace Buffer

variable {b : Buffer α} {p : Pointer} {n : Nat} {xs ys : List α}

/-- `insert` at the end: past the capacity the elements move to other memory. -/
def append (b : Buffer α) (xs : List α) : Buffer α :=
  if b.elements.length + xs.length ≤ b.capacity then ⟨b.elements ++ xs, b.capacity, b.block⟩
  else ⟨b.elements ++ xs, 2 * (b.elements.length + xs.length), b.block + 1⟩

/-- A pointer to the element at this index. -/
def pointer (b : Buffer α) (index : Nat) : Pointer := ⟨b.block, index⟩

def write (b : Buffer α) (p : Pointer) (xs : List α) : Buffer α :=
  { b with elements := patch b.elements p.index xs }

/-- `none` is a read through a pointer that is not valid, or past the end. -/
def read (b : Buffer α) (p : Pointer) (n : Nat) : Option (List α) :=
  if p.block = b.block then slice b.elements p.index n else none

/-- Within the capacity the memory stays where it is. -/
theorem append_of_le (h : b.elements.length + xs.length ≤ b.capacity) :
    b.append xs = ⟨b.elements ++ xs, b.capacity, b.block⟩ := if_pos h

theorem read_of_block (h : p.block = b.block) : b.read p n = slice b.elements p.index n := if_pos h

theorem of_read (h : b.read p n = some xs) : p.block = b.block ∧ slice b.elements p.index n = some xs := by
  unfold read at h
  split at h
  · rename_i hblock
    exact ⟨hblock, h⟩
  · cases h

/-- Elements that are appended within the capacity and then written. -/
theorem append_write {zs : List α} (hcapacity : b.elements.length + ys.length ≤ b.capacity)
    (hlength : zs.length = ys.length) :
    (b.append ys).write ((b.append ys).pointer b.elements.length) zs =
      ⟨b.elements ++ zs, b.capacity, b.block⟩ := by
  rw [append_of_le hcapacity, write, pointer]
  exact congrArg (Buffer.mk · b.capacity b.block) (patch_append_self _ hlength.symm)

/-- What was read before is still read when elements follow in the same memory. -/
theorem read_of_prefix (capacity : Nat) (h : b.read p n = some xs) :
    (⟨b.elements ++ ys, capacity, b.block⟩ : Buffer α).read p n = some xs := by
  obtain ⟨hblock, hslice⟩ := of_read h
  rw [read_of_block (by exact hblock)]
  exact slice_append_right hslice

end Buffer

end AsComponents.Buffers
