import AsComponents.Buffers
import AsComponents.Checked
import AsComponents.Partition

/-! `PartitionByteSequence` with its memory and its machine arithmetic: the
headers stand in a vector to which the `iovec` list points, and every sum is one
of a bounded type. -/

namespace AsComponents.Partition

open Protocol Checked Buffers

/-- What can go wrong in a call. -/
inductive Failure
  | overflow
  | logicError
  deriving DecidableEq, Repr

def orOverflow {α : Type} : Option α → Except Failure α
  | some a => .ok a
  | none => .error .overflow

/-- `iov_base`: a pointer into the header buffer or to a byte of the sequence. -/
inductive Base
  | header (p : Pointer)
  | content (index : Nat)
  deriving DecidableEq, Repr

structure Iovec where
  base : Base
  length : Nat
  deriving DecidableEq, Repr

/-- The bytes at an entry of the list; `none` when it does not point to that many. -/
def Iovec.read (buffer : Buffer UInt8) (bytes : List UInt8) (v : Iovec) : Option (List UInt8) :=
  match v.base with
  | .header p => buffer.read p v.length
  | .content index => slice bytes index v.length

/-! ## The estimates -/

namespace SystemLimits

variable (l : SystemLimits)

def checkedCeilingOfQuotient (numerator denominator : Nat) : Option Nat :=
  addIn l.sizeMax (numerator / denominator) (if numerator % denominator > 0 then 1 else 0)

def checkedMaxForSsize : Option Nat := do
  let inter₁ ← mulIn l.sizeMax 8 (l.ssizeMax / 8)
  let inter₂ ← l.checkedCeilingOfQuotient inter₁ maxAlignedContentLength
  sub inter₁ (← mulIn l.sizeMax 8 inter₂)

def checkedMaxForIovec : Option Nat := do
  let inter := (← sub (min l.iovecMax intMax) 1) / 2
  if inter > l.sizeMax / maxAlignedContentLength then return l.sizeMax
  else mulIn l.sizeMax inter maxAlignedContentLength

def checkedMinMax : Option Nat := do
  return min (← l.checkedMaxForSsize) (← l.checkedMaxForIovec)

def checkedNeededIovec (m : Nat) : Option Nat := do
  let records ← l.checkedCeilingOfQuotient m maxAlignedContentLength
  addIn l.sizeMax (← mulIn l.sizeMax 2 records) (if m % 8 > 0 then 1 else 0)

/-- The result is converted to `ssize_t`. -/
def checkedNeededSsize (m : Nat) : Option Nat := do
  let records ← l.checkedCeilingOfQuotient m maxAlignedContentLength
  let unpadded ← addIn l.sizeMax m (← mulIn l.sizeMax 8 records)
  fit l.ssizeMax (← addIn l.sizeMax unpadded ((8 - m % 8) % 8))

def checkedNeededLocalData (m : Nat) : Option Nat := do
  let records ← l.checkedCeilingOfQuotient m maxAlignedContentLength
  mulIn l.sizeMax 8 (← addIn l.sizeMax 1 records)

end SystemLimits

/-! ## The call -/

/-- The variables of a call; `begin` is `begin_iter`. -/
structure PartitionState where
  buffer : Buffer UInt8
  iovec : List Iovec := []
  numberToWrite : Nat := 0
  bytesRemaining : Nat
  begin : Nat := 0

section

variable (l : SystemLimits) (type : FcgiType) (fcgiId : UInt16)

/-- Space for a header is inserted at the end of the buffer and filled. -/
def PartitionState.insertHeader (s : PartitionState) (contentLength paddingLength : Nat) :
    Buffer UInt8 × Pointer :=
  let buffer := s.buffer.append (List.replicate fcgiHeaderLen 0)
  let localPtr := buffer.pointer s.buffer.elements.length
  (buffer.write localPtr (populateHeader type fcgiId contentLength paddingLength), localPtr)

/-- A round of the loop which produces a record. -/
def produceRecord (paddingPtr : Pointer) (s : PartitionState) : Option PartitionState := do
  let bytesRemaining ← fit l.ssizeMax s.bytesRemaining
  let contentLength ← fit (2 ^ 16 - 1) (min bytesRemaining maxAlignedContentLength)
  let paddingLength := if contentLength % 8 ≠ 0 then 8 - contentLength % 8 else 0
  let (buffer, localPtr) := s.insertHeader type fcgiId contentLength paddingLength
  let iovec := s.iovec ++ [⟨.header localPtr, fcgiHeaderLen⟩, ⟨.content s.begin, contentLength⟩]
  let iovec := if paddingLength ≠ 0 then iovec ++ [⟨.header paddingPtr, paddingLength⟩] else iovec
  let numberToWrite ← addIn l.ssizeMax s.numberToWrite (fcgiHeaderLen + contentLength + paddingLength)
  let bytesRemaining ← sub s.bytesRemaining contentLength
  return ⟨buffer, iovec, numberToWrite, bytesRemaining, s.begin + contentLength⟩

/-- The loop; a round takes at least one byte, so that `bytesRemaining` rounds
are enough. -/
def produceRecords (paddingPtr : Pointer) : Nat → PartitionState → Option PartitionState
  | 0, s => some s
  | fuel + 1, s =>
      if s.bytesRemaining = 0 then some s
      else do produceRecords paddingPtr fuel (← produceRecord l type fcgiId paddingPtr s)

/-- `bytes_remaining`, `working_ssize_t` and `working_iovec` at their start,
from `min_max`, `working_ssize_t_max` and `working_iovec_max`. -/
def workingLimits (byteLength : Nat) : Option (Nat × Nat × Nat) := do
  let minMax ← l.checkedMinMax
  let workingSsizeMax ← l.checkedNeededSsize minMax
  let workingIovecMax ← l.checkedNeededIovec minMax
  if byteLength < minMax then
    let workingSsize ← l.checkedNeededSsize byteLength
    let workingIovec ← l.checkedNeededIovec byteLength
    return (byteLength, workingSsize, workingIovec)
  else return (minMax, workingSsizeMax, workingIovecMax)

/-- `PartitionByteSequence`; the range starts at the first of the bytes. -/
def partitionBuffers (bytes : List UInt8) : Except Failure PartitionState := do
  let (bytesRemaining, workingSsize, workingIovec) ← orOverflow (workingLimits l bytes.length)
  let localLength ← orOverflow (l.checkedNeededLocalData bytesRemaining)
  let buffer : Buffer UInt8 := ⟨List.replicate fcgiHeaderLen 0, max fcgiHeaderLen localLength, 0⟩
  let s : PartitionState := { buffer, bytesRemaining }
  if bytes = [] then
    let (buffer, headerIter) := s.insertHeader type fcgiId 0 0
    return { s with
      buffer
      iovec := [⟨.header headerIter, fcgiHeaderLen⟩]
      numberToWrite := fcgiHeaderLen }
  else
    let s ← orOverflow (produceRecords l type fcgiId (buffer.pointer 0) bytesRemaining s)
    if s.numberToWrite > workingSsize ∨ s.iovec.length > workingIovec ∨
        s.buffer.elements.length > localLength then throw .logicError
    else return s

end

/-! ## The bounds -/

section

variable {l : SystemLimits} {m n k : Nat}

theorem ceilingOfQuotient_le_iff {d : Nat} (hd : 0 < d) :
    ceilingOfQuotient m d ≤ k ↔ m ≤ d * k := by
  have hdiv := Nat.div_add_mod m d
  have hmod := Nat.mod_lt m hd
  unfold ceilingOfQuotient
  constructor
  · intro h
    have hmul := Nat.mul_le_mul_left d h
    rw [Nat.mul_add] at hmul
    split at hmul <;> omega
  · intro h
    by_contra hlt
    rw [not_le] at hlt
    split at hlt
    · have hmul := Nat.mul_le_mul_left d (show k ≤ m / d by omega)
      omega
    · have hmul := Nat.mul_le_mul_left d (show k + 1 ≤ m / d by omega)
      rw [Nat.mul_add] at hmul
      omega

theorem maxAlignedContentLength_eq : maxAlignedContentLength = 65528 := rfl

/-- The number of records that carry `m` bytes. -/
abbrev recordsFor (m : Nat) : Nat := ceilingOfQuotient m maxAlignedContentLength

theorem recordsFor_le_iff : recordsFor m ≤ k ↔ m ≤ 65528 * k := ceilingOfQuotient_le_iff (by decide)

theorem le_recordsFor (m : Nat) : m ≤ 65528 * recordsFor m := recordsFor_le_iff.mp le_rfl

theorem recordsFor_mono (h : m ≤ n) : recordsFor m ≤ recordsFor n :=
  recordsFor_le_iff.mpr (h.trans (le_recordsFor n))

theorem recordsFor_lt (h : k < recordsFor m) : 65528 * k < m := by
  by_contra hle
  exact absurd (recordsFor_le_iff.mpr (not_lt.mp hle)) (not_le.mpr h)

theorem recordsFor_zero : recordsFor 0 = 0 := rfl

theorem recordsFor_of_le (hpos : 0 < m) (hle : m ≤ 65528) : recordsFor m = 1 := by
  apply Nat.le_antisymm
  · exact recordsFor_le_iff.mpr (by omega)
  · by_contra hlt
    have := le_recordsFor m
    omega

theorem recordsFor_add (m : Nat) : recordsFor (65528 + m) = 1 + recordsFor m := by
  apply Nat.le_antisymm
  · have := le_recordsFor m
    exact recordsFor_le_iff.mpr (by omega)
  · by_contra hlt
    have hle : recordsFor (65528 + m) ≤ recordsFor m := by omega
    have hm := recordsFor_le_iff.mp hle
    have hpos : recordsFor m ≠ 0 := by
      intro hzero
      rw [hzero] at hm
      omega
    have := recordsFor_lt (m := m) (k := recordsFor m - 1) (by omega)
    omega

theorem SystemLimits.ssizeMax_le_sizeMax (l : SystemLimits) : l.ssizeMax ≤ l.sizeMax := by
  unfold SystemLimits.sizeMax
  omega

/-- The limits for which the estimates are proved. -/
structure SystemLimits.Enough (l : SystemLimits) : Prop where
  iovMax : ∀ n, l.iovMax = some n → 3 ≤ n
  ssizeMax : 2 ^ 16 - 1 ≤ l.ssizeMax

namespace SystemLimits

variable (h : l.Enough)

include h

theorem Enough.iovecMax : 3 ≤ min l.iovecMax intMax := by
  have hmax : 3 ≤ l.iovecMax := by
    unfold SystemLimits.iovecMax
    split
    · rename_i n hn
      exact h.iovMax _ hn
    · decide
  exact le_min hmax (by decide)

/-- The most bytes that `ssize_t` allows are a multiple of eight; with their
headers they fit. -/
theorem Enough.initializeMaxForSsize :
    l.initializeMaxForSsize % 8 = 0 ∧
      l.initializeMaxForSsize + 8 * recordsFor (8 * (l.ssizeMax / 8)) = 8 * (l.ssizeMax / 8) := by
  have hssize := h.ssizeMax
  have hrecords : recordsFor (8 * (l.ssizeMax / 8)) ≤ l.ssizeMax / 8 :=
    recordsFor_le_iff.mpr (by omega)
  rw [SystemLimits.initializeMaxForSsize]
  change (8 * (l.ssizeMax / 8) - 8 * recordsFor (8 * (l.ssizeMax / 8))) % 8 = 0 ∧
    8 * (l.ssizeMax / 8) - 8 * recordsFor (8 * (l.ssizeMax / 8)) + _ = _
  omega

theorem Enough.neededSsize_le (hm : m ≤ l.minMax) : neededSsize m ≤ l.ssizeMax := by
  obtain ⟨haligned, hsum⟩ := h.initializeMaxForSsize
  have hle : m ≤ l.initializeMaxForSsize := hm.trans (Nat.min_le_left _ _)
  have hrecords : recordsFor m ≤ recordsFor (8 * (l.ssizeMax / 8)) := recordsFor_mono (by omega)
  change m + 8 * recordsFor m + (8 - m % 8) % 8 ≤ l.ssizeMax
  omega

theorem Enough.recordsFor_minMax (hm : m ≤ l.minMax) :
    recordsFor m ≤ (min l.iovecMax intMax - 1) / 2 := by
  have hle := hm.trans (Nat.min_le_right _ _)
  have hssize := hm.trans (Nat.min_le_left _ _)
  obtain ⟨-, hsum⟩ := h.initializeMaxForSsize
  rw [initializeMaxForIovec] at hle
  split at hle
  · rename_i hmany
    rw [maxAlignedContentLength_eq, sizeMax] at hmany
    exact recordsFor_le_iff.mpr (by omega)
  · rw [maxAlignedContentLength_eq] at hle
    exact recordsFor_le_iff.mpr (by omega)

/-- Only the bytes of a last record that is not full need an entry for padding. -/
theorem Enough.neededIovec_le (hm : m ≤ l.minMax) : neededIovec m ≤ min l.iovecMax intMax := by
  have hiovec := h.iovecMax
  have hrecords := h.recordsFor_minMax hm
  change 2 * recordsFor m + (if m % 8 > 0 then 1 else 0) ≤ _
  split <;> omega

theorem Enough.checkedCeilingOfQuotient (hm : m ≤ l.sizeMax) :
    l.checkedCeilingOfQuotient m maxAlignedContentLength = some (recordsFor m) := by
  have hssize := h.ssizeMax
  have hrecords : recordsFor m ≤ l.sizeMax :=
    recordsFor_le_iff.mpr (by unfold sizeMax at hm ⊢; omega)
  exact addIn_eq hrecords

theorem Enough.checkedMaxForSsize : l.checkedMaxForSsize = some l.initializeMaxForSsize := by
  obtain ⟨-, hsum⟩ := h.initializeMaxForSsize
  have hle : 8 * (l.ssizeMax / 8) ≤ l.sizeMax := by
    unfold sizeMax
    omega
  rw [SystemLimits.checkedMaxForSsize, mulIn_eq hle]
  simp only [Option.bind_eq_bind, Option.bind_some]
  rw [h.checkedCeilingOfQuotient hle, Option.bind_some, mulIn_eq (by omega), Option.bind_some,
    sub_eq (by omega)]
  rfl

theorem Enough.checkedMaxForIovec : l.checkedMaxForIovec = some l.initializeMaxForIovec := by
  have hiovec := h.iovecMax
  rw [SystemLimits.checkedMaxForIovec, sub_eq (by omega), SystemLimits.initializeMaxForIovec]
  simp only [Option.bind_eq_bind, Option.bind_some]
  split
  · rfl
  · rename_i hfew
    apply mulIn_eq
    exact (Nat.mul_le_mul_right _ (not_lt.mp hfew)).trans (Nat.div_mul_le_self _ _)

theorem Enough.checkedMinMax : l.checkedMinMax = some l.minMax := by
  rw [SystemLimits.checkedMinMax, h.checkedMaxForSsize, h.checkedMaxForIovec]
  rfl

theorem Enough.le_of_minMax (hm : m ≤ l.minMax) :
    m + 8 * recordsFor m + (8 - m % 8) % 8 ≤ l.ssizeMax := h.neededSsize_le hm

theorem Enough.checkedNeededSsize (hm : m ≤ l.minMax) :
    l.checkedNeededSsize m = some (neededSsize m) := by
  have hle := h.le_of_minMax hm
  have hsize := l.ssizeMax_le_sizeMax
  rw [SystemLimits.checkedNeededSsize, h.checkedCeilingOfQuotient (by omega)]
  simp only [Option.bind_eq_bind, Option.bind_some]
  rw [mulIn_eq (by omega), Option.bind_some, addIn_eq (by omega), Option.bind_some,
    addIn_eq (by omega), Option.bind_some, fit_eq hle]
  rfl

theorem Enough.checkedNeededIovec (hm : m ≤ l.minMax) :
    l.checkedNeededIovec m = some (neededIovec m) := by
  have hle := h.le_of_minMax hm
  have hsize := l.ssizeMax_le_sizeMax
  have hssize := h.ssizeMax
  rw [SystemLimits.checkedNeededIovec, h.checkedCeilingOfQuotient (by omega)]
  simp only [Option.bind_eq_bind, Option.bind_some]
  rw [mulIn_eq (by omega), Option.bind_some]
  have hsum : 2 * recordsFor m + (if m % 8 > 0 then 1 else 0) ≤ l.sizeMax := by
    split <;> omega
  exact addIn_eq hsum

theorem Enough.checkedNeededLocalData (hm : m ≤ l.minMax) :
    l.checkedNeededLocalData m = some (neededLocalData m) := by
  have hle := h.le_of_minMax hm
  have hssize := h.ssizeMax
  have hsize : l.sizeMax = 2 * l.ssizeMax + 1 := rfl
  rw [SystemLimits.checkedNeededLocalData, h.checkedCeilingOfQuotient (by omega)]
  simp only [Option.bind_eq_bind, Option.bind_some]
  rw [addIn_eq (by omega), Option.bind_some, mulIn_eq (by omega)]
  rfl

end SystemLimits

/-! ## The loop -/

variable {type : FcgiType} {fcgiId : UInt16} {bytes : List UInt8}

/-- The entries of a list describe these sequences of bytes. -/
def Reads (buffer : Buffer UInt8) (bytes : List UInt8) (iovec : List Iovec)
    (parts : List (List UInt8)) : Prop :=
  List.Forall₂ (fun v part => v.read buffer bytes = some part) iovec parts

/-- What holds between rounds: the buffer has the zeros for padding and a
header for each of the `records`, in the memory it had at the start, and there is
room in it for the headers that follow. -/
structure Producing (bytes : List UInt8) (s : PartitionState) (records : Nat)
    (parts : List (List UInt8)) : Prop where
  block : s.buffer.block = 0
  length : s.buffer.elements.length = 8 * (1 + records)
  zeros : ∃ headers, s.buffer.elements = List.replicate 8 0 ++ headers
  capacity : s.buffer.elements.length + 8 * recordsFor s.bytesRemaining ≤ s.buffer.capacity
  inside : s.begin + s.bytesRemaining ≤ bytes.length
  reads : Reads s.buffer bytes s.iovec parts

/-- The bytes that the next record takes. -/
abbrev nextContent (m : Nat) : Nat := min m maxAlignedContentLength

/-- A record and the records after it; only the last one can need padding. -/
theorem needed_step (hpos : 0 < m) :
    recordsFor m = 1 + recordsFor (m - nextContent m) ∧
      neededSsize m = fcgiHeaderLen + nextContent m + paddingFor (nextContent m) +
        neededSsize (m - nextContent m) ∧
      neededIovec m = (if paddingFor (nextContent m) = 0 then 2 else 3) +
        neededIovec (m - nextContent m) := by
  change _ ∧ m + 8 * recordsFor m + (8 - m % 8) % 8 = 8 + nextContent m + paddingFor (nextContent m) +
      (m - nextContent m + 8 * recordsFor (m - nextContent m) + (8 - (m - nextContent m) % 8) % 8) ∧
    2 * recordsFor m + (if m % 8 > 0 then 1 else 0) = (if paddingFor (nextContent m) = 0 then 2 else 3) +
      (2 * recordsFor (m - nextContent m) + if (m - nextContent m) % 8 > 0 then 1 else 0)
  rcases Nat.le_total m 65528 with hle | hle
  · have hnext : nextContent m = m := Nat.min_eq_left hle
    rw [hnext, Nat.sub_self, recordsFor_zero, recordsFor_of_le hpos hle]
    refine ⟨rfl, ?_, ?_⟩
    · unfold paddingFor
      split <;> omega
    · by_cases haligned : m % 8 = 0
      · simp [paddingFor, haligned]
      · have hpadding : 8 - m % 8 ≠ 0 := by omega
        have hmore : m % 8 > 0 := by omega
        rw [paddingFor, if_neg haligned, if_neg hpadding, if_pos hmore]
        rfl
  · obtain ⟨k, rfl⟩ := Nat.exists_eq_add_of_le hle
    have hnext : nextContent (65528 + k) = 65528 := Nat.min_eq_right hle
    have hmod : (65528 + k) % 8 = k % 8 := by omega
    rw [hnext, Nat.add_sub_cancel_left, recordsFor_add, hmod, show paddingFor 65528 = 0 from rfl]
    refine ⟨rfl, ?_, ?_⟩
    · omega
    · rw [if_pos rfl]
      omega

theorem insertHeader_eq {s : PartitionState}
    (h : s.buffer.elements.length + fcgiHeaderLen ≤ s.buffer.capacity) (contentLength paddingLength : Nat) :
    s.insertHeader type fcgiId contentLength paddingLength =
      (⟨s.buffer.elements ++ populateHeader type fcgiId contentLength paddingLength, s.buffer.capacity,
        s.buffer.block⟩, ⟨s.buffer.block, s.buffer.elements.length⟩) := by
  have hcapacity : s.buffer.elements.length + (List.replicate fcgiHeaderLen (0 : UInt8)).length ≤
      s.buffer.capacity := by rwa [List.length_replicate]
  have hfill : (populateHeader type fcgiId contentLength paddingLength).length =
      (List.replicate fcgiHeaderLen (0 : UInt8)).length := rfl
  have hpointer : (s.buffer.append (List.replicate fcgiHeaderLen 0)).pointer s.buffer.elements.length =
      ⟨s.buffer.block, s.buffer.elements.length⟩ := by
    rw [Buffer.append_of_le hcapacity]
    rfl
  rw [PartitionState.insertHeader, Buffer.append_write hcapacity hfill, hpointer]

theorem Reads.concat {buffer : Buffer UInt8} {iovec iovec' : List Iovec}
    {parts parts' : List (List UInt8)} (h : Reads buffer bytes iovec parts)
    (h' : Reads buffer bytes iovec' parts') : Reads buffer bytes (iovec ++ iovec') (parts ++ parts') :=
  List.rel_append h h'

/-- Entries keep what they describe when a header is appended in place. -/
theorem Reads.append {buffer : Buffer UInt8} {iovec : List Iovec} {parts : List (List UInt8)}
    (h : Reads buffer bytes iovec parts) (header : List UInt8) :
    Reads ⟨buffer.elements ++ header, buffer.capacity, buffer.block⟩ bytes iovec parts := by
  refine h.imp fun v part hv => ?_
  unfold Iovec.read at hv ⊢
  split
  · rename_i p hp
    rw [hp] at hv
    exact Buffer.read_of_prefix _ hv
  · rename_i index hindex
    rw [hindex] at hv
    exact hv

/-- The entries of a record after its header was appended. -/
theorem reads_recordIovec {s : PartitionState} {records n : Nat} {parts : List (List UInt8)}
    (h : Producing bytes s records parts) (hinside : s.begin + s.bytesRemaining ≤ bytes.length)
    (hn : n ≤ s.bytesRemaining) :
    Reads ⟨s.buffer.elements ++ populateHeader type fcgiId n (paddingFor n), s.buffer.capacity,
        s.buffer.block⟩ bytes
      (if paddingFor n ≠ 0 then
        s.iovec ++ [⟨.header ⟨s.buffer.block, s.buffer.elements.length⟩, fcgiHeaderLen⟩,
          ⟨.content s.begin, n⟩] ++ [⟨.header ⟨0, 0⟩, paddingFor n⟩]
      else s.iovec ++ [⟨.header ⟨s.buffer.block, s.buffer.elements.length⟩, fcgiHeaderLen⟩,
        ⟨.content s.begin, n⟩])
      (parts ++ recordIovec type fcgiId ((bytes.drop s.begin).take n)) := by
  have hlength : ((bytes.drop s.begin).take n).length = n := by
    rw [List.length_take, List.length_drop]
    omega
  have hold := h.reads.append (populateHeader type fcgiId n (paddingFor n))
  generalize hbuffer : (⟨s.buffer.elements ++ populateHeader type fcgiId n (paddingFor n),
    s.buffer.capacity, s.buffer.block⟩ : Buffer UInt8) = buffer at hold ⊢
  have helements : buffer.elements = s.buffer.elements ++ populateHeader type fcgiId n (paddingFor n) := by
    rw [← hbuffer]
  have hblock : buffer.block = s.buffer.block := by rw [← hbuffer]
  have hheader : Iovec.read buffer bytes
      ⟨.header ⟨s.buffer.block, s.buffer.elements.length⟩, fcgiHeaderLen⟩ =
      some (populateHeader type fcgiId n (paddingFor n)) := by
    refine (Buffer.read_of_block hblock.symm).trans ?_
    rw [helements]
    exact slice_append_self _ _
  have hcontent : Iovec.read buffer bytes ⟨.content s.begin, n⟩ = some ((bytes.drop s.begin).take n) :=
    slice_eq (hinside.trans' (Nat.add_le_add_left hn _))
  have hentries := hold.concat (.cons hheader (.cons hcontent .nil))
  unfold recordIovec
  dsimp only
  rw [hlength]
  by_cases hnone : paddingFor n = 0
  · rw [if_neg (not_not.mpr hnone), if_pos hnone]
    exact hentries
  · rw [if_pos hnone, if_neg hnone]
    obtain ⟨headers, hzeros⟩ := h.zeros
    have hpad := paddingFor_lt n
    have hpadding : Iovec.read buffer bytes ⟨.header ⟨0, 0⟩, paddingFor n⟩ =
        some (List.replicate (paddingFor n) 0) := by
      refine (Buffer.read_of_block (hblock.trans h.block).symm).trans ?_
      rw [helements, hzeros, List.append_assoc]
      refine slice_append_right ?_
      show slice (List.replicate 8 0) 0 (paddingFor n) = _
      rw [slice_eq (by simp only [List.length_replicate]; omega), List.drop_zero, List.take_replicate,
        Nat.min_eq_left (by omega)]
    have hpadded := hentries.concat (.cons hpadding .nil)
    rwa [List.append_assoc parts] at hpadded

/-- A round: the record of the next bytes is described. -/
theorem produceRecord_spec {s : PartitionState} {records : Nat} {parts : List (List UInt8)}
    (h : Producing bytes s records parts) (hpos : 0 < s.bytesRemaining)
    (hfits : s.numberToWrite + neededSsize s.bytesRemaining ≤ l.ssizeMax) :
    ∃ t, produceRecord l type fcgiId ⟨0, 0⟩ s = some t ∧
      t.bytesRemaining = s.bytesRemaining - nextContent s.bytesRemaining ∧
      t.begin = s.begin + nextContent s.bytesRemaining ∧
      t.numberToWrite = s.numberToWrite + (fcgiHeaderLen + nextContent s.bytesRemaining +
        paddingFor (nextContent s.bytesRemaining)) ∧
      Producing bytes t (records + 1) (parts ++ recordIovec type fcgiId
        ((bytes.drop s.begin).take (nextContent s.bytesRemaining))) := by
  obtain ⟨hrecords, hneeded, -⟩ := needed_step hpos
  have hcapacity := h.capacity
  have hlength := h.length
  have hinside := h.inside
  have hnext : nextContent s.bytesRemaining ≤ s.bytesRemaining := Nat.min_le_left _ _
  have hsmall : nextContent s.bytesRemaining ≤ 2 ^ 16 - 1 :=
    (Nat.min_le_right _ _).trans (by decide)
  have hle : s.bytesRemaining ≤ neededSsize s.bytesRemaining := by
    unfold neededSsize
    omega
  have hpadding : (if nextContent s.bytesRemaining % 8 ≠ 0 then
      8 - nextContent s.bytesRemaining % 8 else 0) = paddingFor (nextContent s.bytesRemaining) := by
    rw [paddingFor, ite_not]
  rw [produceRecord, fit_eq (by omega)]
  simp only [Option.bind_eq_bind, Option.bind_some]
  rw [fit_eq hsmall, Option.bind_some, hpadding, insertHeader_eq (by rw [fcgiHeaderLen]; omega), addIn_eq (by omega), Option.bind_some, sub_eq hnext, Option.bind_some]
  refine ⟨_, rfl, rfl, rfl, rfl, ⟨h.block, ?_, ?_, ?_, ?_, ?_⟩⟩
  · simp only [List.length_append, length_populateHeader]
    omega
  · obtain ⟨headers, hzeros⟩ := h.zeros
    exact ⟨headers ++ populateHeader type fcgiId (nextContent s.bytesRemaining) _, by
      rw [hzeros, List.append_assoc]⟩
  · simp only [List.length_append, length_populateHeader]
    omega
  · show s.begin + nextContent s.bytesRemaining + (s.bytesRemaining - nextContent s.bytesRemaining) ≤ _
    omega
  · exact reads_recordIovec h hinside hnext

/-- The loop describes what the partition of the remaining bytes does, within
the estimates. -/
theorem produceRecords_spec (fuel : Nat) : ∀ (s : PartitionState) (records : Nat)
    (parts : List (List UInt8)), Producing bytes s records parts → s.bytesRemaining ≤ fuel →
    s.numberToWrite + neededSsize s.bytesRemaining ≤ l.ssizeMax →
    ∃ t iovec rest, produceRecords l type fcgiId ⟨0, 0⟩ fuel s = some t ∧
      partitionLoop type fcgiId fuel s.bytesRemaining (bytes.drop s.begin) =
        (iovec, neededSsize s.bytesRemaining, recordsFor s.bytesRemaining, rest) ∧
      iovec.length = neededIovec s.bytesRemaining ∧ bytes.drop t.begin = rest ∧
      t.bytesRemaining = 0 ∧ t.numberToWrite = s.numberToWrite + neededSsize s.bytesRemaining ∧
      Producing bytes t (records + recordsFor s.bytesRemaining) (parts ++ iovec) := by
  induction fuel with
  | zero =>
    intro s records parts h hfuel _
    have hzero : s.bytesRemaining = 0 := by omega
    rw [hzero]
    refine ⟨s, [], bytes.drop s.begin, rfl, rfl, rfl, rfl, hzero, rfl, ?_⟩
    rw [List.append_nil]
    exact h
  | succ fuel ih =>
    intro s records parts h hfuel hfits
    rw [produceRecords]
    by_cases hzero : s.bytesRemaining = 0
    · rw [if_pos hzero, hzero]
      refine ⟨s, [], bytes.drop s.begin, rfl, rfl, rfl, rfl, hzero, rfl, ?_⟩
      rw [List.append_nil]
      exact h
    · have hpos : 0 < s.bytesRemaining := Nat.pos_of_ne_zero hzero
      obtain ⟨hrecords, hneeded, hiovec⟩ := needed_step hpos
      obtain ⟨t, ht, hremaining, hbegin, hnumber, hproducing⟩ :=
        @produceRecord_spec l type fcgiId bytes s records parts h hpos hfits
      have hnext : 0 < nextContent s.bytesRemaining := Nat.lt_min.mpr ⟨hpos, by decide⟩
      obtain ⟨u, iovec, rest, hu, hloop, hlength, hrest, hdone, hwritten, hall⟩ := ih t _ _ hproducing
        (by omega) (by rw [hremaining, hnumber]; omega)
      rw [hremaining, hbegin, ← List.drop_drop] at hloop
      rw [hremaining] at hlength hwritten hall
      rw [if_neg hzero, ht]
      refine ⟨u, recordIovec type fcgiId ((bytes.drop s.begin).take (nextContent s.bytesRemaining)) ++ iovec,
        rest, hu, ?_, ?_, hrest, hdone, ?_, ?_⟩
      · obtain ⟨m, hm⟩ := Nat.exists_eq_add_one_of_ne_zero hzero
        rw [hneeded, hrecords]
        rw [hm] at hloop ⊢
        rw [partitionLoop]
        dsimp only
        rw [hloop, Nat.add_comm 1]
      · have hcontent := h.inside
        have hle : nextContent s.bytesRemaining ≤ s.bytesRemaining := Nat.min_le_left _ _
        have htake : ((bytes.drop s.begin).take (nextContent s.bytesRemaining)).length =
            nextContent s.bytesRemaining := by
          rw [List.length_take, List.length_drop]
          omega
        rw [hiovec, List.length_append, hlength, recordIovec, htake]
        split <;> rfl
      · rw [hwritten, hnumber, hneeded]
        omega
      · rw [← List.append_assoc, hrecords, ← Nat.add_assoc]
        exact hall

/-- What a call describes is within the estimates for the `m` bytes it
processes, and the headers are in the memory that was reserved for them. -/
structure Estimated (l : SystemLimits) (m : Nat) (s : PartitionState) : Prop where
  numberToWrite : s.numberToWrite ≤ neededSsize m
  ssizeMax : neededSsize m ≤ l.ssizeMax
  iovec : s.iovec.length ≤ neededIovec m
  iovecMax : neededIovec m ≤ l.iovecMax
  block : s.buffer.block = 0
  localData : s.buffer.elements.length ≤ neededLocalData m

theorem Reads.sum_length {buffer : Buffer UInt8} {iovec : List Iovec} {parts : List (List UInt8)}
    (h : Reads buffer bytes iovec parts) : (iovec.map Iovec.length).sum = parts.flatten.length := by
  induction h with
  | nil => rfl
  | @cons v part iovec parts hv h ih =>
    have hlength : part.length = v.length := by
      unfold Iovec.read at hv
      split at hv
      · exact (le_of_slice (Buffer.of_read hv).2).2
      · exact (le_of_slice hv).2
    rw [List.map_cons, List.sum_cons, ih, List.flatten_cons, List.length_append, hlength]

theorem Reads.length_eq {buffer : Buffer UInt8} {iovec : List Iovec} {parts : List (List UInt8)}
    (h : Reads buffer bytes iovec parts) : iovec.length = parts.length := List.Forall₂.length_eq h

/-- The variables before the first round. -/
theorem producing_start (hm : m ≤ bytes.length) :
    Producing bytes { buffer := ⟨List.replicate fcgiHeaderLen 0,
        max fcgiHeaderLen (neededLocalData m), 0⟩, bytesRemaining := m } 0 [] where
  block := rfl
  length := List.length_replicate
  zeros := ⟨[], rfl⟩
  capacity := by
    rw [List.length_replicate]
    change 8 + 8 * recordsFor m ≤ max 8 (8 * (1 + recordsFor m))
    omega
  inside := by
    rw [Nat.zero_add]
    exact hm
  reads := .nil

/-- The working limits are the estimates for the bytes that are processed. -/
theorem workingLimits_eq (h : l.Enough) (n : Nat) :
    workingLimits l n = some (min n l.minMax, neededSsize (min n l.minMax), neededIovec (min n l.minMax)) := by
  rw [workingLimits, h.checkedMinMax]
  simp only [Option.bind_eq_bind, Option.bind_some]
  rw [h.checkedNeededSsize le_rfl, Option.bind_some, h.checkedNeededIovec le_rfl, Option.bind_some]
  split
  · rename_i hlt
    rw [h.checkedNeededSsize hlt.le, h.checkedNeededIovec hlt.le, Nat.min_eq_left hlt.le]
    rfl
  · rename_i hle
    rw [Nat.min_eq_right (not_lt.mp hle)]
    rfl

/-- A call on a range that is not empty. -/
theorem partitionBuffers_cons (h : l.Enough) (type : FcgiType) (fcgiId : UInt16) (hne : bytes ≠ []) :
    ∃ s p, partitionBuffers l type fcgiId bytes = .ok s ∧
      partitionByteSequence l type fcgiId bytes = some p ∧ Reads s.buffer bytes s.iovec p.iovec ∧
      bytes.drop s.begin = p.rest ∧ s.numberToWrite = p.numberToWrite ∧
      Estimated l (min bytes.length l.minMax) s := by
  have hm : min bytes.length l.minMax ≤ l.minMax := Nat.min_le_right _ _
  obtain ⟨s, iovec, rest, hs, hloop, hlength, hrest, -, hnumber, hproducing⟩ :=
    @produceRecords_spec l type fcgiId bytes (min bytes.length l.minMax) _ 0 []
      (producing_start (Nat.min_le_left bytes.length l.minMax)) le_rfl
      (by rw [Nat.zero_add]; exact h.neededSsize_le hm)
  dsimp only at hloop hlength hnumber hproducing
  rw [Nat.zero_add] at hnumber
  rw [List.nil_append, Nat.zero_add] at hproducing
  have hiovec : s.iovec.length = neededIovec (min bytes.length l.minMax) := by
    rw [hproducing.reads.length_eq, hlength]
  have hlocal : s.buffer.elements.length = neededLocalData (min bytes.length l.minMax) := hproducing.length
  refine ⟨s, ⟨iovec, neededSsize (min bytes.length l.minMax), rest⟩, ?_, ?_, hproducing.reads, hrest,
    hnumber, ⟨hnumber.le, h.neededSsize_le hm, hiovec.le,
      (h.neededIovec_le hm).trans (Nat.min_le_left _ _), hproducing.block, hlocal.le⟩⟩
  · have htest : ¬ (s.numberToWrite > neededSsize (min bytes.length l.minMax) ∨
        s.iovec.length > neededIovec (min bytes.length l.minMax) ∨
        s.buffer.elements.length > neededLocalData (min bytes.length l.minMax)) := by omega
    rw [partitionBuffers, workingLimits_eq h]
    show (do
      let localLength ← orOverflow (l.checkedNeededLocalData (min bytes.length l.minMax))
      _ : Except Failure PartitionState) = _
    rw [h.checkedNeededLocalData hm]
    show (if bytes = [] then _ else _ : Except Failure PartitionState) = _
    rw [if_neg hne]
    show (do
      let s ← orOverflow (produceRecords l type fcgiId ⟨0, 0⟩ (min bytes.length l.minMax) _)
      _ : Except Failure PartitionState) = _
    rw [hs]
    exact if_neg htest
  · have htest : ¬ (neededSsize (min bytes.length l.minMax) > neededSsize (min bytes.length l.minMax) ∨
        iovec.length > neededIovec (min bytes.length l.minMax) ∨
        fcgiHeaderLen * (1 + recordsFor (min bytes.length l.minMax)) >
          neededLocalData (min bytes.length l.minMax)) := by
      have : fcgiHeaderLen * (1 + recordsFor (min bytes.length l.minMax)) =
        neededLocalData (min bytes.length l.minMax) := rfl
      omega
    rw [partitionByteSequence, if_neg hne]
    rw [List.drop_zero] at hloop
    dsimp only
    rw [hloop]
    exact if_neg htest

/-- A call on an empty range describes one header, for which the buffer grows. -/
theorem partitionBuffers_nil (h : l.Enough) (type : FcgiType) (fcgiId : UInt16) :
    ∃ s, partitionBuffers l type fcgiId [] = .ok s ∧
      partitionByteSequence l type fcgiId [] = some ⟨[populateHeader type fcgiId 0 0], fcgiHeaderLen, []⟩ ∧
      Reads s.buffer [] s.iovec [populateHeader type fcgiId 0 0] ∧ s.numberToWrite = fcgiHeaderLen := by
  rw [partitionBuffers, workingLimits_eq h]
  show ∃ s, (do
    let localLength ← orOverflow (l.checkedNeededLocalData (min 0 l.minMax))
    _ : Except Failure PartitionState) = .ok s ∧ _
  rw [Nat.zero_min, h.checkedNeededLocalData (Nat.zero_le _)]
  exact ⟨_, rfl, rfl, .cons rfl .nil, rfl⟩

/-- **`PartitionByteSequence`**: no sum overflows, the estimates are never
exceeded and every pointer of the list is still valid at the end, so that its
entries describe the records of the partition.  The estimates are for a range
that is not empty. -/
theorem partitionBuffers_estimated (h : l.Enough) (type : FcgiType) (fcgiId : UInt16)
    (bytes : List UInt8) :
    ∃ s p, partitionBuffers l type fcgiId bytes = .ok s ∧
      partitionByteSequence l type fcgiId bytes = some p ∧ Reads s.buffer bytes s.iovec p.iovec ∧
      bytes.drop s.begin = p.rest ∧ s.numberToWrite = p.numberToWrite ∧
      (s.iovec.map Iovec.length).sum = s.numberToWrite ∧
      (bytes ≠ [] → Estimated l (min bytes.length l.minMax) s) ∧
      (bytes = [] → s.numberToWrite = fcgiHeaderLen ∧ s.iovec.length = 1) := by
  by_cases hne : bytes = []
  · subst hne
    obtain ⟨s, hs, hp, hreads, hnumber⟩ := partitionBuffers_nil h type fcgiId
    exact ⟨s, _, hs, hp, hreads, List.drop_nil, hnumber, hreads.sum_length.trans hnumber.symm,
      fun hne => absurd rfl hne, fun _ => ⟨hnumber, hreads.length_eq⟩⟩
  · obtain ⟨s, p, hs, hp, hreads, hrest, hnumber, hestimated⟩ := partitionBuffers_cons h type fcgiId hne
    obtain ⟨-, -, -, -, -, hdescribed⟩ := partitionByteSequence_spec hne hp
    exact ⟨s, p, hs, hp, hreads, hrest, hnumber, by rw [hreads.sum_length, hnumber, hdescribed],
      fun _ => hestimated, fun hnil => absurd hnil hne⟩

/-- Two bytes with the least limits. -/
theorem partitionBuffers_estimated_least : ∃ s p,
    partitionBuffers ⟨some 3, 2 ^ 16 - 1⟩ kFcgiStdin 1 [7, 8] = .ok s ∧
      partitionByteSequence ⟨some 3, 2 ^ 16 - 1⟩ kFcgiStdin 1 [7, 8] = some p ∧
      Reads s.buffer [7, 8] s.iovec p.iovec := by
  obtain ⟨s, p, hs, hp, hreads, -⟩ := @partitionBuffers_estimated ⟨some 3, 2 ^ 16 - 1⟩
    ⟨by rintro n h; cases h; decide, by decide⟩ kFcgiStdin 1 [7, 8]
  exact ⟨s, p, hs, hp, hreads⟩

/-- The header of an empty range is not in the estimates. -/
theorem partitionBuffers_empty : ∃ s, partitionBuffers {} kFcgiStdin 1 [] = .ok s ∧
    neededSsize (min 0 ({} : SystemLimits).minMax) < s.numberToWrite ∧
    neededIovec (min 0 ({} : SystemLimits).minMax) < s.iovec.length := by
  exact ⟨_, rfl, by decide, by decide⟩

end

end AsComponents.Partition
