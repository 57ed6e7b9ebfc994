import AsComponents.PartitionBuffers

/-! The records that calls of `PartitionByteSequence` describe, each call
starting where the last one stopped. -/

namespace AsComponents.Partition

open Protocol

/-- A record as its header announces it, of a length that is a multiple of eight. -/
structure Announced (type : FcgiType) (fcgiId : UInt16) (r : Record) : Prop where
  type : r.type = type
  fcgiId : r.fcgiId = fcgiId
  content : headerContentLength r.header = r.content.length
  padding : headerPaddingLength r.header = r.padding.length
  short : r.padding.length < 8
  aligned : 8 ∣ r.encode.length

theorem announced_alignedRecord (type : FcgiType) (fcgiId : UInt16) {content : List UInt8}
    (h : content.length ≤ maxAlignedContentLength) :
    Announced type fcgiId (alignedRecord type fcgiId content) where
  type := rfl
  fcgiId := rfl
  content := headerContentLength_populateHeader _ _ _ (h.trans (by decide))
  padding := by
    refine headerPaddingLength_populateHeader _ _ _ ?_
    have hlt := paddingFor_lt content.length
    rw [alignedRecord, List.length_replicate]
    omega
  short := by
    rw [alignedRecord, List.length_replicate]
    exact paddingFor_lt _
  aligned := by
    rw [length_encode_alignedRecord, fcgiHeaderLen, paddingFor]
    split <;> omega

/-- Calls until the range is empty, as in `WriteHelper`. -/
inductive Calls (l : SystemLimits) (type : FcgiType) (fcgiId : UInt16) :
    List UInt8 → List PartitionReturn → Prop
  | done : Calls l type fcgiId [] []
  | call {bytes : List UInt8} {p : PartitionReturn} {calls : List PartitionReturn} (hne : bytes ≠ [])
      (hcall : partitionByteSequence l type fcgiId bytes = some p)
      (h : Calls l type fcgiId p.rest calls) : Calls l type fcgiId bytes (p :: calls)

/-- What a call on a range that is not empty describes. -/
structure Describes (type : FcgiType) (fcgiId : UInt16) (p : PartitionReturn) (records : List Record) :
    Prop where
  bytes : p.iovec.flatten = encodeRecords records
  numberToWrite : p.numberToWrite = (p.iovec.map List.length).sum
  announced : ∀ r ∈ records, Announced type fcgiId r
  nonempty : ∀ r ∈ records, r.content ≠ []

variable {l : SystemLimits}

/-- A call makes progress. -/
theorem SystemLimits.Enough.minMax_pos (h : l.Enough) : 0 < l.minMax := by
  have hssize := h.ssizeMax
  have hiovec := h.iovecMax
  obtain ⟨-, hsum⟩ := h.initializeMaxForSsize
  have hrecords : recordsFor (8 * (l.ssizeMax / 8)) ≤ l.ssizeMax / 8 - 1 :=
    recordsFor_le_iff.mpr (by omega)
  refine Nat.lt_min.mpr ⟨by omega, ?_⟩
  rw [SystemLimits.initializeMaxForIovec]
  split
  · unfold SystemLimits.sizeMax
    omega
  · exact Nat.mul_pos (by omega) (by decide)

theorem exists_calls (h : l.Enough) (type : FcgiType) (fcgiId : UInt16) (n : Nat) :
    ∀ bytes : List UInt8, bytes.length ≤ n →
      ∃ (calls : List PartitionReturn) (records : List (List Record)), Calls l type fcgiId bytes calls ∧
        List.Forall₂ (Describes type fcgiId) calls records ∧
        (records.flatten.map Record.content).flatten = bytes := by
  induction n with
  | zero =>
    intro bytes hlength
    obtain rfl := List.eq_nil_of_length_eq_zero (Nat.le_zero.mp hlength)
    exact ⟨[], [], .done, .nil, rfl⟩
  | succ n ih =>
    intro bytes hlength
    by_cases hne : bytes = []
    · subst hne
      exact ⟨[], [], .done, .nil, rfl⟩
    · obtain ⟨-, p, -, hp, -⟩ := partitionBuffers_cons h type fcgiId hne
      obtain ⟨contents, hcontents, hflat, hrest, hiovec, hnumber⟩ := partitionByteSequence_spec hne hp
      have hpos := h.minMax_pos
      have hshorter : p.rest.length ≤ n := by
        have hbytes := List.length_pos_iff.mpr hne
        rw [hrest, List.length_drop]
        omega
      obtain ⟨calls, records, hcalls, hdescribes, hall⟩ := ih p.rest hshorter
      refine ⟨p :: calls, contents.map (alignedRecord type fcgiId) :: records, .call hne hp hcalls,
        .cons ⟨hiovec, ?_, ?_, ?_⟩ hdescribes, ?_⟩
      · rw [hnumber, List.length_flatten]
      · simp only [List.mem_map]
        rintro r ⟨content, hcontent, rfl⟩
        exact announced_alignedRecord type fcgiId (hcontents content hcontent).2
      · simp only [List.mem_map]
        rintro r ⟨content, hcontent, rfl⟩
        exact (hcontents content hcontent).1
      · have hmap : (contents.map (alignedRecord type fcgiId)).map Record.content = contents := by
          rw [List.map_map]
          exact List.map_id'' (fun _ => rfl) contents
        rw [List.flatten_cons, List.map_append, List.flatten_append, hall, hmap, hflat, hrest,
          List.take_append_drop]

/-- **Calls of `PartitionByteSequence`**, each with the range that the last one
left, end; the records they describe carry the bytes of the range, none of them
empty, and an empty range is described by one empty header. -/
theorem partition_calls (h : l.Enough) (type : FcgiType) (fcgiId : UInt16) (bytes : List UInt8) :
    (∃ (calls : List PartitionReturn) (records : List (List Record)), Calls l type fcgiId bytes calls ∧
      List.Forall₂ (Describes type fcgiId) calls records ∧
      (records.flatten.map Record.content).flatten = bytes) ∧
    partitionByteSequence l type fcgiId [] =
      some ⟨[populateHeader type fcgiId 0 0], fcgiHeaderLen, []⟩ :=
  ⟨exists_calls h type fcgiId bytes.length bytes le_rfl, rfl⟩

/-- Nine bytes with the least limits. -/
theorem partition_calls_nine : ∃ (calls : List PartitionReturn) (records : List (List Record)),
    Calls ⟨some 3, 2 ^ 16 - 1⟩ kFcgiStdin 1 [1, 2, 3, 4, 5, 6, 7, 8, 9] calls ∧
      List.Forall₂ (Describes kFcgiStdin 1) calls records ∧
      (records.flatten.map Record.content).flatten = [1, 2, 3, 4, 5, 6, 7, 8, 9] :=
  (@partition_calls ⟨some 3, 2 ^ 16 - 1⟩ ⟨by rintro n h; cases h; decide, by decide⟩ kFcgiStdin 1
    [1, 2, 3, 4, 5, 6, 7, 8, 9]).1

end AsComponents.Partition
