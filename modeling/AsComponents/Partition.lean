import AsComponents.Protocol

/-! `PartitionByteSequence` of `fcgi_utilities_templates.h`: the records which
carry a byte sequence, as the `iovec` list of one gathering write. -/

namespace AsComponents.Partition

open Protocol

/-- The limits of the system a call depends on: `sysconf(_SC_IOV_MAX)`, when it
is known, and the maximum of `ssize_t`. -/
structure SystemLimits where
  iovMax : Option Nat := some 1024
  ssizeMax : Nat := 2 ^ 63 - 1
  deriving DecidableEq, Repr

def maxAlignedContentLength : Nat := kMaxRecordContentByteLength - 7

def intMax : Nat := 2 ^ 31 - 1

def ceilingOfQuotient (numerator denominator : Nat) : Nat :=
  numerator / denominator + if numerator % denominator > 0 then 1 else 0

namespace SystemLimits

def sizeMax (l : SystemLimits) : Nat := 2 * l.ssizeMax + 1

/-- `iovec_MAX` with its default. -/
def iovecMax (l : SystemLimits) : Nat :=
  match l.iovMax with
  | some (n + 1) => n + 1
  | _ => 1024

def initializeMaxForSsize (l : SystemLimits) : Nat :=
  let inter₁ := 8 * (l.ssizeMax / 8)
  inter₁ - 8 * ceilingOfQuotient inter₁ maxAlignedContentLength

def initializeMaxForIovec (l : SystemLimits) : Nat :=
  let inter := (min l.iovecMax intMax - 1) / 2
  if inter > l.sizeMax / maxAlignedContentLength then l.sizeMax
  else inter * maxAlignedContentLength

/-- `min_max`: the most bytes one call processes. -/
def minMax (l : SystemLimits) : Nat := min l.initializeMaxForSsize l.initializeMaxForIovec

/-- The minimum values that POSIX requires of the limits. -/
structure Posix (l : SystemLimits) : Prop where
  iovMax : ∀ n, l.iovMax = some n → 16 ≤ n
  ssizeMax : 2 ^ 15 - 1 ≤ l.ssizeMax

end SystemLimits

def neededIovec (m : Nat) : Nat :=
  2 * ceilingOfQuotient m maxAlignedContentLength + if m % 8 > 0 then 1 else 0

def neededSsize (m : Nat) : Nat :=
  m + 8 * ceilingOfQuotient m maxAlignedContentLength + (8 - m % 8) % 8

def neededLocalData (m : Nat) : Nat := 8 * (1 + ceilingOfQuotient m maxAlignedContentLength)

/-- The `iovec` structures of one record: padding gets one only when there is some. -/
def recordIovec (type : FcgiType) (fcgiId : UInt16) (content : List UInt8) : List (List UInt8) :=
  let padding := paddingFor content.length
  populateHeader type fcgiId content.length padding :: content ::
    if padding = 0 then [] else [List.replicate padding 0]

/-- The loop over records.  A round takes at least one byte while bytes
remain, so that `bytesRemaining` rounds are enough. -/
def partitionLoop (type : FcgiType) (fcgiId : UInt16) :
    Nat → Nat → List UInt8 → List (List UInt8) × Nat × Nat × List UInt8
  | 0, _, bytes => ([], 0, 0, bytes)
  | _ + 1, 0, bytes => ([], 0, 0, bytes)
  | fuel + 1, bytesRemaining@(_ + 1), bytes =>
      let contentLength := min bytesRemaining maxAlignedContentLength
      let (iovec, numberToWrite, records, rest) :=
        partitionLoop type fcgiId fuel (bytesRemaining - contentLength) (bytes.drop contentLength)
      (recordIovec type fcgiId (bytes.take contentLength) ++ iovec,
        fcgiHeaderLen + contentLength + paddingFor contentLength + numberToWrite,
        records + 1, rest)

/-- What a call returns: the `iovec` list, the bytes it describes and the part
of the sequence that is left. -/
structure PartitionReturn where
  iovec : List (List UInt8)
  numberToWrite : Nat
  rest : List UInt8
  deriving DecidableEq, Repr

/-- `none` is the `std::logic_error` about the estimated lengths. -/
def partitionByteSequence (l : SystemLimits) (type : FcgiType) (fcgiId : UInt16)
    (bytes : List UInt8) : Option PartitionReturn :=
  if bytes = [] then
    some ⟨[populateHeader type fcgiId 0 0], fcgiHeaderLen, []⟩
  else
    let bytesRemaining := min bytes.length l.minMax
    let (iovec, numberToWrite, records, rest) :=
      partitionLoop type fcgiId bytesRemaining bytesRemaining bytes
    if numberToWrite > neededSsize bytesRemaining ∨ iovec.length > neededIovec bytesRemaining ∨
        fcgiHeaderLen * (1 + records) > neededLocalData bytesRemaining then
      none
    else some ⟨iovec, numberToWrite, rest⟩

/-! ## The records of a partition -/

/-- The record that carries `content` with its alignment padding. -/
def alignedRecord (type : FcgiType) (fcgiId : UInt16) (content : List UInt8) : Record :=
  ⟨type, fcgiId, content, List.replicate (paddingFor content.length) 0⟩

theorem flatten_recordIovec (type : FcgiType) (fcgiId : UInt16) (content : List UInt8) :
    (recordIovec type fcgiId content).flatten = (alignedRecord type fcgiId content).encode := by
  unfold recordIovec
  by_cases h : paddingFor content.length = 0
  · simp [h, alignedRecord, Record.encode, Record.header]
  · simp [h, alignedRecord, Record.encode, Record.header]

theorem flatten_map_recordIovec (type : FcgiType) (fcgiId : UInt16) (cs : List (List UInt8)) :
    ((cs.map (recordIovec type fcgiId)).flatten).flatten =
      encodeRecords (cs.map (alignedRecord type fcgiId)) := by
  induction cs with
  | nil => rfl
  | cons c cs ih =>
    rw [List.map_cons, List.flatten_cons, List.flatten_append, ih, flatten_recordIovec]
    rfl

theorem length_encode_alignedRecord (type : FcgiType) (fcgiId : UInt16) (content : List UInt8) :
    (alignedRecord type fcgiId content).encode.length =
      fcgiHeaderLen + content.length + paddingFor content.length := by
  simp [alignedRecord, Record.encode, Record.header, fcgiHeaderLen, Nat.add_assoc]

theorem partitionLoop_spec (type : FcgiType) (fcgiId : UInt16) (fuel : Nat) :
    ∀ (remaining : Nat) (bytes : List UInt8), remaining ≤ fuel → remaining ≤ bytes.length →
      ∃ contents : List (List UInt8),
        (∀ c ∈ contents, c ≠ [] ∧ c.length ≤ maxAlignedContentLength) ∧
        contents.flatten = bytes.take remaining ∧
        partitionLoop type fcgiId fuel remaining bytes =
          ((contents.map (recordIovec type fcgiId)).flatten,
            (encodeRecords (contents.map (alignedRecord type fcgiId))).length,
            contents.length, bytes.drop remaining) := by
  induction fuel with
  | zero =>
    intro remaining bytes hf _
    obtain rfl : remaining = 0 := by omega
    exact ⟨[], by simp, by simp, by simp [partitionLoop]⟩
  | succ fuel ih =>
    intro remaining bytes hf hb
    cases remaining with
    | zero => exact ⟨[], by simp, by simp, by simp [partitionLoop]⟩
    | succ m =>
      have hmax : 0 < maxAlignedContentLength := by decide
      have hn : 0 < min (m + 1) maxAlignedContentLength := by omega
      have hle : min (m + 1) maxAlignedContentLength ≤ m + 1 := Nat.min_le_left ..
      obtain ⟨cs, hcs, hflat, hloop⟩ := ih (m + 1 - min (m + 1) maxAlignedContentLength)
        (bytes.drop (min (m + 1) maxAlignedContentLength)) (by omega)
        (by rw [List.length_drop]; omega)
      have hlen : (bytes.take (min (m + 1) maxAlignedContentLength)).length =
          min (m + 1) maxAlignedContentLength := by
        rw [List.length_take]; omega
      refine ⟨bytes.take (min (m + 1) maxAlignedContentLength) :: cs, ?_, ?_, ?_⟩
      · intro c hc
        rcases List.mem_cons.mp hc with rfl | hc
        · refine ⟨fun h => ?_, by omega⟩
          rw [h] at hlen
          simp only [List.length_nil] at hlen
          omega
        · exact hcs c hc
      · rw [List.flatten_cons, hflat, ← List.take_add]
        congr 1
        omega
      · rw [partitionLoop, hloop]
        simp only [List.map_cons, List.flatten_cons, List.length_cons, encodeRecords_cons,
          List.length_append, length_encode_alignedRecord, hlen, List.drop_drop, Prod.mk.injEq,
          true_and]
        congr 1
        omega

/-- What a call that returns describes: whole records of the given type and id
with the bytes processed, none of them empty when there are bytes. -/
theorem partitionByteSequence_spec {l : SystemLimits} {type : FcgiType} {fcgiId : UInt16}
    {bytes : List UInt8} {p : PartitionReturn} (hb : bytes ≠ [])
    (h : partitionByteSequence l type fcgiId bytes = some p) :
    ∃ contents : List (List UInt8),
      (∀ c ∈ contents, c ≠ [] ∧ c.length ≤ maxAlignedContentLength) ∧
      contents.flatten = bytes.take l.minMax ∧ p.rest = bytes.drop l.minMax ∧
      p.iovec.flatten = encodeRecords (contents.map (alignedRecord type fcgiId)) ∧
      p.numberToWrite = p.iovec.flatten.length := by
  unfold partitionByteSequence at h
  rw [if_neg hb] at h
  obtain ⟨cs, hcs, hflat, hloop⟩ := partitionLoop_spec type fcgiId (min bytes.length l.minMax)
    (min bytes.length l.minMax) bytes (Nat.le_refl _) (Nat.min_le_left ..)
  simp only [hloop] at h
  split at h
  · cases h
  · simp only [Option.some.injEq] at h
    subst h
    have hflatten := flatten_map_recordIovec type fcgiId cs
    refine ⟨cs, hcs, ?_, ?_, hflatten, by rw [hflatten]⟩
    · rw [hflat]
      rcases Nat.le_total bytes.length l.minMax with hle | hle
      · rw [Nat.min_eq_left hle, List.take_length, List.take_of_length_le hle]
      · rw [Nat.min_eq_right hle]
    · rcases Nat.le_total bytes.length l.minMax with hle | hle
      · rw [Nat.min_eq_left hle, List.drop_length, List.drop_of_length_le hle]
      · rw [Nat.min_eq_right hle]

/-- A call makes progress. -/
theorem minMax_pos {l : SystemLimits} (h : l.Posix) : 0 < l.minMax := by
  have hssize := h.ssizeMax
  have hiovec : 16 ≤ l.iovecMax := by
    unfold SystemLimits.iovecMax
    split
    · rename_i n hn
      exact h.iovMax _ hn
    · decide
  have hceil : ∀ n d, ceilingOfQuotient n d ≤ n / d + 1 := by
    intro n d
    unfold ceilingOfQuotient
    split <;> omega
  unfold SystemLimits.minMax
  apply Nat.lt_min.mpr
  constructor
  · have := hceil (8 * (l.ssizeMax / 8)) maxAlignedContentLength
    simp only [SystemLimits.initializeMaxForSsize]
    simp only [maxAlignedContentLength, kMaxRecordContentByteLength] at this ⊢
    omega
  · have hpos : 0 < (min l.iovecMax intMax - 1) / 2 := by
      simp only [intMax]
      omega
    unfold SystemLimits.initializeMaxForIovec
    simp only
    split
    · simp only [SystemLimits.sizeMax]
      omega
    · exact Nat.mul_pos hpos (by decide)

end AsComponents.Partition
