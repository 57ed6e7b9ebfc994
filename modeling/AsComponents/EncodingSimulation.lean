import AsComponents.EncodingBuffers

/-! The `iovec` list that is built over memory describes the bytes which the
list of values holds: headers may be written over until the last record is
finished, everything else stays as it was described. -/

namespace AsComponents.Encoding

open Protocol NameValue AsComponents.Partition Buffers

/-! ## Pointers that are filled in -/

/-- The list with the pointers which are known at the end. -/
def BufferState.filled (c : BufferState) : List Iovec := fillBases c.indexPairs c.iovecList

theorem length_fillBases (qs : List (Nat × Nat)) (vs : List Iovec) :
    (fillBases qs vs).length = vs.length := by
  induction qs generalizing vs with
  | nil => rfl
  | cons q qs ih =>
    show (fillBases qs (vs.modify q.1 _)).length = _
    rw [ih, List.length_modify]

/-- Entries that are added have their pointers, or get them later. -/
theorem fillBases_append {qs : List (Nat × Nat)} {vs : List Iovec} (ws : List Iovec)
    (h : ∀ q ∈ qs, q.1 < vs.length) : fillBases qs (vs ++ ws) = fillBases qs vs ++ ws := by
  induction qs generalizing vs with
  | nil => rfl
  | cons q qs ih =>
    have hq := h q List.mem_cons_self
    show fillBases qs ((vs ++ ws).modify q.1 _) = fillBases qs (vs.modify q.1 _) ++ ws
    have hmodify : ∀ f : Iovec → Iovec, (vs ++ ws).modify q.1 f = vs.modify q.1 f ++ ws := by
      intro f
      refine List.ext_getElem? fun k => ?_
      by_cases hk : k < vs.length
      · rw [List.getElem?_append_left (by rwa [List.length_modify]), List.getElem?_modify,
          List.getElem?_modify, List.getElem?_append_left hk]
      · rw [List.getElem?_append_right (by rw [List.length_modify]; omega),
          List.getElem?_modify_ne _ _ (by omega), List.getElem?_append_right (by omega),
          List.length_modify]
    rw [hmodify, ih fun q' hq' => by
      rw [List.length_modify]
      exact h q' (List.mem_cons_of_mem _ hq')]

/-- An entry whose pointer is stored for later. -/
theorem fillBases_local {qs : List (Nat × Nat)} {vs : List Iovec} (offset length : Nat)
    (h : ∀ q ∈ qs, q.1 < vs.length) :
    fillBases (qs ++ [(vs.length, offset)]) (vs ++ [⟨.null, length⟩]) =
      fillBases qs vs ++ [⟨.buffer offset, length⟩] := by
  have hlast : fillBases (qs ++ [(vs.length, offset)]) (vs ++ [⟨.null, length⟩]) =
      (fillBases qs (vs ++ [⟨.null, length⟩])).modify vs.length
        fun v => ⟨.buffer offset, v.length⟩ := List.foldl_append
  rw [hlast, fillBases_append _ h]
  refine List.ext_getElem? fun k => ?_
  have hlength := length_fillBases qs vs
  by_cases hk : k = vs.length
  · subst hk
    rw [List.getElem?_modify_eq, ← hlength, List.getElem?_concat_length, List.getElem?_concat_length]
    rfl
  · rw [List.getElem?_modify_ne _ _ (Ne.symm hk)]
    by_cases hlt : k < vs.length
    · rw [List.getElem?_append_left (by omega), List.getElem?_append_left (by omega)]
    · rw [List.getElem?_eq_none (by simp only [List.length_append, List.length_singleton]; omega),
        List.getElem?_eq_none (by simp only [List.length_append, List.length_singleton]; omega)]

/-! ## What the entries describe -/

/-- The entries describe these bytes. -/
def Reads (pairs : List ByteSeqPair) (localBuffers : Bytes) (vs : List Iovec) (iovec : List Bytes) :
    Prop :=
  vs.map (Iovec.read localBuffers pairs) = iovec.map some

namespace Reads

variable {pairs : List ByteSeqPair} {localBuffers : Bytes} {vs : List Iovec} {iovec : List Bytes}

theorem length_eq (h : Reads pairs localBuffers vs iovec) : vs.length = iovec.length := by
  simpa using congrArg List.length h

theorem getElem? (h : Reads pairs localBuffers vs iovec) {k : Nat} {v : Iovec}
    (hv : vs[k]? = some v) : v.read localBuffers pairs = iovec[k]? := by
  have hk := congrArg (·[k]?) h
  simp only [List.getElem?_map, hv, Option.map_some] at hk
  cases hb : iovec[k]? with
  | none =>
    rw [hb] at hk
    cases hk
  | some b =>
    rw [hb] at hk
    exact Option.some.inj hk

theorem exists_read (h : Reads pairs localBuffers vs iovec) {k : Nat} {v : Iovec}
    (hv : vs[k]? = some v) : ∃ b, iovec[k]? = some b ∧ v.read localBuffers pairs = some b := by
  have hlt : k < iovec.length := h.length_eq ▸ (List.getElem?_eq_some_iff.mp hv).1
  exact ⟨iovec[k], List.getElem?_eq_getElem hlt, (h.getElem? hv).trans (List.getElem?_eq_getElem hlt)⟩

theorem snoc (h : Reads pairs localBuffers vs iovec) {v : Iovec} {b : Bytes}
    (hv : v.read localBuffers pairs = some b) : Reads pairs localBuffers (vs ++ [v]) (iovec ++ [b]) := by
  show (vs ++ [v]).map _ = (iovec ++ [b]).map some
  rw [List.map_append, List.map_append, h, List.map_singleton, List.map_singleton, hv]

/-- Entries describe what they did as long as their own bytes are kept. -/
theorem congr {localBuffers' : Bytes} (h : Reads pairs localBuffers vs iovec)
    (hkept : ∀ v ∈ vs, ∀ b, v.read localBuffers pairs = some b → v.read localBuffers' pairs = some b) :
    Reads pairs localBuffers' vs iovec := by
  refine (List.map_congr_left fun v hv => ?_).trans h
  obtain ⟨k, hk⟩ := List.getElem?_of_mem hv
  obtain ⟨b, -, hb⟩ := h.exists_read hk
  rw [hkept v hv b hb, hb]

theorem append (h : Reads pairs localBuffers vs iovec) (xs : Bytes) :
    Reads pairs (localBuffers ++ xs) vs iovec := by
  refine h.congr fun v _ b hb => ?_
  cases hbase : v.base with
  | null => simp [Iovec.read, hbase] at hb
  | data pair index start => simpa [Iovec.read, hbase] using hb
  | buffer offset =>
    simp only [Iovec.read, hbase] at hb ⊢
    exact slice_append_right hb

end Reads

/-- Apart from entry `k`, no entry describes bytes of the header at `offset`. -/
def Apart (vs : List Iovec) (k offset : Nat) : Prop :=
  ∀ j v o, vs[j]? = some v → j ≠ k → v.base = .buffer o →
    o + v.length ≤ offset ∨ offset + fcgiHeaderLen ≤ o

theorem Apart.append {vs : List Iovec} {k offset : Nat} (h : Apart vs k offset) {v : Iovec}
    (hv : ∀ o, v.base = .buffer o → o + v.length ≤ offset ∨ offset + fcgiHeaderLen ≤ o) :
    Apart (vs ++ [v]) k offset := by
  intro j w o hw hj hbase
  by_cases hlt : j < vs.length
  · rw [List.getElem?_append_left hlt] at hw
    exact h j w o hw hj hbase
  · rw [List.getElem?_append_right (by omega), List.getElem?_singleton] at hw
    split at hw
    · obtain rfl := Option.some.inj hw
      exact hv o hbase
    · cases hw

/-- A write into a header changes the entry of the header only. -/
theorem Reads.patch {pairs : List ByteSeqPair} {localBuffers : Bytes} {vs : List Iovec}
    {iovec : List Bytes} (h : Reads pairs localBuffers vs iovec) {k offset i : Nat} {old x : Bytes}
    (hentry : vs[k]? = some ⟨.buffer offset, fcgiHeaderLen⟩) (hold : iovec[k]? = some old)
    (hapart : Apart vs k offset) (hin : i + x.length ≤ fcgiHeaderLen) :
    Reads pairs (patch localBuffers (offset + i) x) vs (iovec.set k (patch old i x)) := by
  have hslice : slice localBuffers offset fcgiHeaderLen = some old := by
    have hread := h.getElem? hentry
    rw [hold] at hread
    exact hread
  have hle := (le_of_slice hslice).1
  refine List.ext_getElem? fun j => ?_
  rw [List.getElem?_map, List.getElem?_map]
  by_cases hj : j = k
  · subst hj
    rw [hentry, List.getElem?_set_self (List.getElem?_eq_some_iff.mp hold).1]
    exact congrArg some (slice_patch_of_inside hslice hin)
  · rw [List.getElem?_set_ne (Ne.symm hj)]
    cases hv : vs[j]? with
    | none =>
      have hnone : iovec[j]? = none := by
        rw [List.getElem?_eq_none_iff, ← h.length_eq]
        exact List.getElem?_eq_none_iff.mp hv
      rw [hnone]
      rfl
    | some v =>
      obtain ⟨b, hb, hread⟩ := h.exists_read hv
      rw [hb, Option.map_some, Option.map_some, Option.some_inj, ← hread]
      cases hbase : v.base with
      | null => simp only [Iovec.read, hbase]
      | data pair index start => simp only [Iovec.read, hbase]
      | buffer o =>
        simp only [Iovec.read, hbase]
        refine slice_patch_of_disjoint (by omega) ?_
        rcases hapart j v o hv hj hbase with h | h
        · exact .inl (by omega)
        · exact .inr (by omega)

/-! ## The loops -/

/-- The variables of the loops over values. -/
def BufferState.toEncode (c : BufferState) (iovec : List Bytes) (headerIndex : Nat) : EncodeState where
  remainingIovecCount := c.remainingIovecCount
  remainingByteCount := c.remainingByteCount
  iovec := iovec
  numberToWrite := c.numberToWrite
  previousContentLength := c.previousContentLength
  headerIndex := headerIndex
  nvPairBytesPlaced := c.nvPairBytesPlaced
  recordCount := c.recordCount
  incompleteNvWrite := c.incompleteNvWrite

/-- The header of the last record, which may be written over. -/
structure HeaderAt (type : FcgiType) (fcgiId : UInt16) (c : BufferState) (iovec : List Bytes)
    (k : Nat) : Prop where
  entry : c.filled[k]? = some ⟨.buffer c.previousHeaderOffset, fcgiHeaderLen⟩
  value : ∃ n, iovec[k]? = some (populateHeader type fcgiId n 0) ∧
    (c.previousContentLength ≠ 0 → n = c.previousContentLength)
  apart : Apart c.filled k c.previousHeaderOffset

/-- The memory describes the values. -/
structure Sim (type : FcgiType) (fcgiId : UInt16) (pairs : List ByteSeqPair) (c : BufferState)
    (iovec : List Bytes) (k : Nat) : Prop where
  indices : ∀ q ∈ c.indexPairs, q.1 < c.iovecList.length
  reads : Reads pairs c.localBuffers c.filled iovec
  opened : c.previousContentLength ≠ 0 → c.recordCount ≠ 0
  header : c.recordCount ≠ 0 → HeaderAt type fcgiId c iovec k

/-- The lengths of a pair stand in memory, outside of the last header. -/
structure LengthsAt (c : BufferState) (p : SizedPair) (offset : Nat) : Prop where
  slice : slice c.localBuffers offset p.lengths.length = some p.lengths
  apart : c.recordCount ≠ 0 → offset + p.lengths.length ≤ c.previousHeaderOffset ∨
    c.previousHeaderOffset + fcgiHeaderLen ≤ offset

section

variable {type : FcgiType} {fcgiId : UInt16} {pairs : List ByteSeqPair} {c c' : BufferState}
  {iovec : List Bytes} {k : Nat} {p : SizedPair} {offset : Nat}

namespace Sim

/-- The counts play no part. -/
theorem congr (h : Sim type fcgiId pairs c iovec k) (hvs : c'.iovecList = c.iovecList)
    (hqs : c'.indexPairs = c.indexPairs) (hlocal : c'.localBuffers = c.localBuffers)
    (hoffset : c'.previousHeaderOffset = c.previousHeaderOffset)
    (hcount : c'.recordCount = c.recordCount)
    (hlength : c'.previousContentLength = 0 ∨ c'.previousContentLength = c.previousContentLength) :
    Sim type fcgiId pairs c' iovec k := by
  have hfilled : c'.filled = c.filled := by rw [BufferState.filled, hvs, hqs, BufferState.filled]
  have hopen : c'.previousContentLength ≠ 0 → c'.previousContentLength = c.previousContentLength :=
    fun hne => hlength.resolve_left hne
  refine ⟨?_, ?_, fun hne => ?_, fun hne => ?_⟩
  · rw [hvs, hqs]
    exact h.indices
  · rw [hlocal, hfilled]
    exact h.reads
  · rw [hcount]
    exact h.opened fun hzero => hne ((hopen hne).trans hzero)
  · rw [hcount] at hne
    obtain ⟨hentry, ⟨n, hn, hvalue⟩, hapart⟩ := h.header hne
    refine ⟨hfilled ▸ hoffset ▸ hentry, ⟨n, hn, fun hne' => ?_⟩, hfilled ▸ hoffset ▸ hapart⟩
    rw [hopen hne']
    exact hvalue fun hzero => hne' ((hopen hne').trans hzero)

/-- An entry is added whose bytes are there. -/
theorem push (h : Sim type fcgiId pairs c iovec k) {v : Iovec} {b : Bytes}
    {vs : List Iovec} {qs : List (Nat × Nat)} (hindices : ∀ q ∈ qs, q.1 < vs.length)
    (hfilled : fillBases qs vs = c.filled ++ [v]) (hread : v.read c.localBuffers pairs = some b)
    (hapart : c.recordCount ≠ 0 → ∀ o, v.base = .buffer o →
      o + v.length ≤ c.previousHeaderOffset ∨ c.previousHeaderOffset + fcgiHeaderLen ≤ o) :
    Sim type fcgiId pairs { c with iovecList := vs, indexPairs := qs } (iovec ++ [b]) k := by
  have hfilled' : BufferState.filled { c with iovecList := vs, indexPairs := qs } =
    c.filled ++ [v] := hfilled
  refine ⟨hindices, ?_, h.opened, fun hne => ?_⟩
  · rw [hfilled']
    exact h.reads.snoc hread
  · obtain ⟨hentry, ⟨n, hn, hvalue⟩, haway⟩ := h.header hne
    have hk := (List.getElem?_eq_some_iff.mp hentry).1
    refine ⟨?_, ⟨n, ?_, hvalue⟩, ?_⟩
    · rw [hfilled', List.getElem?_append_left hk]
      exact hentry
    · rw [List.getElem?_append_left (h.reads.length_eq ▸ hk)]
      exact hn
    · rw [hfilled']
      exact haway.append (hapart hne)

/-- The content length is written into the header of the last record. -/
theorem patchLength (h : Sim type fcgiId pairs c iovec k) (hne : c.recordCount ≠ 0) (m : Nat) :
    Sim type fcgiId pairs
      { c with
        previousContentLength := m
        localBuffers := patch c.localBuffers (c.previousHeaderOffset + kHeaderContentLengthB1Index)
          [UInt8.ofNat (m / 256), UInt8.ofNat m] }
      (iovec.set k (populateHeader type fcgiId m 0)) k := by
  obtain ⟨hentry, ⟨n, hn, -⟩, hapart⟩ := h.header hne
  have hk := (List.getElem?_eq_some_iff.mp hn).1
  refine ⟨h.indices, ?_, fun _ => hne, fun _ => ⟨hentry, ⟨m, ?_, fun _ => rfl⟩, hapart⟩⟩
  · exact h.reads.patch (i := kHeaderContentLengthB1Index)
      (x := [UInt8.ofNat (m / 256), UInt8.ofNat m]) hentry hn hapart (show 4 + 2 ≤ 8 by decide)
  · rw [List.getElem?_set_self hk]

end Sim

/-- The entry of a round describes the bytes that the round places. -/
theorem exists_pushEntry (h : Sim type fcgiId pairs c iovec k) (hp : LengthsAt c p offset)
    {pair index n : Nat} (hpair : pairs[pair]? = some (p.name, p.value))
    (hn : n ≤ (p.bytes index).length - (c.nvPairBytesPlaced - p.sum index))
    (hzero : index = 0 → c.nvPairBytesPlaced ≤ p.lengths.length) :
    ∃ vs qs, c.pushEntry p pair offset index
        ((p.bytes index).length - (c.nvPairBytesPlaced - p.sum index)) n =
          { c with
            iovecList := vs
            indexPairs := qs
            remainingIovecCount :=
              if index = 0 ∨ n ≠ 0 then c.remainingIovecCount - 1 else c.remainingIovecCount } ∧
      Sim type fcgiId pairs { c with iovecList := vs, indexPairs := qs }
        (if index = 0 ∨ n ≠ 0 then
          iovec ++ [((p.bytes index).drop (c.nvPairBytesPlaced - p.sum index)).take n] else iovec) k := by
  by_cases hindex : index = 0
  · subst hindex
    have hle := hzero rfl
    have hfits : c.nvPairBytesPlaced + n ≤ p.lengths.length := by
      have : (p.bytes 0).length = p.lengths.length := rfl
      have : p.sum 0 = 0 := rfl
      omega
    refine ⟨c.iovecList ++ [⟨.null, n⟩],
      c.indexPairs ++ [(c.iovecList.length, offset + c.nvPairBytesPlaced)], ?_, ?_⟩
    · rw [BufferState.pushEntry, if_pos rfl, if_pos (.inl rfl)]
      rfl
    · rw [if_pos (.inl rfl)]
      refine h.push ?_ (fillBases_local _ n h.indices) ?_ fun hne o ho => ?_
      · intro q hq
        rw [List.length_append, List.length_singleton]
        rcases List.mem_append.mp hq with hq | hq
        · exact Nat.lt_succ_of_lt (h.indices q hq)
        · rw [List.mem_singleton.mp hq]
          exact Nat.lt_succ_self _
      · exact slice_of_slice hp.slice hfits
      · obtain rfl := Base.buffer.inj ho
        rcases hp.apart hne with hapart | hapart
        · exact .inl (show offset + c.nvPairBytesPlaced + n ≤ _ by omega)
        · exact .inr (by omega)
  · by_cases hnone : n = 0
    · refine ⟨c.iovecList, c.indexPairs, ?_, ?_⟩
      · rw [BufferState.pushEntry, if_neg hindex, if_neg (not_not.mpr hnone),
          if_neg (not_or.mpr ⟨hindex, not_not.mpr hnone⟩)]
      · rw [if_neg (not_or.mpr ⟨hindex, not_not.mpr hnone⟩)]
        exact h
    · refine ⟨c.iovecList ++ [⟨.data pair index ((p.bytes index).length -
        ((p.bytes index).length - (c.nvPairBytesPlaced - p.sum index))), n⟩], c.indexPairs, ?_, ?_⟩
      · rw [BufferState.pushEntry, if_neg hindex, if_pos hnone, if_pos (.inr hnone)]
      · rw [if_pos (.inr hnone)]
        refine h.push (fun q hq => ?_) (fillBases_append _ h.indices) ?_ fun _ o ho => ?_
        · rw [List.length_append]
          exact Nat.lt_add_right _ (h.indices q hq)
        · have hbytes : (if index = 1 then p.name else p.value) = p.bytes index := by
            obtain _ | _ | index := index
            · exact absurd rfl hindex
            · rfl
            · rfl
          rw [Iovec.read]
          simp only [hpair, Option.bind_eq_bind, Option.bind_some]
          rw [hbytes, Nat.sub_sub_self (by omega), slice_eq (by omega)]
        · cases ho

/-- A write into the header leaves the lengths of the pair alone. -/
theorem LengthsAt.patch (hp : LengthsAt c p offset) (hne : c.recordCount ≠ 0)
    (hheader : c.previousHeaderOffset + fcgiHeaderLen ≤ c.localBuffers.length) {i : Nat} {x : Bytes}
    (hin : i + x.length ≤ fcgiHeaderLen) (hcount : c'.recordCount = c.recordCount)
    (hoffset : c'.previousHeaderOffset = c.previousHeaderOffset)
    (hlocal : c'.localBuffers = patch c.localBuffers (c.previousHeaderOffset + i) x) :
    LengthsAt c' p offset := by
  refine ⟨?_, ?_⟩
  · rw [hlocal, slice_patch_of_disjoint (by omega), hp.slice]
    rcases hp.apart hne with h | h
    · exact .inl (by omega)
    · exact .inr (by omega)
  · rw [hcount, hoffset]
    exact hp.apart

theorem Sim.header_le (h : Sim type fcgiId pairs c iovec k) (hne : c.recordCount ≠ 0) :
    c.previousHeaderOffset + fcgiHeaderLen ≤ c.localBuffers.length := by
  obtain ⟨b, -, hb⟩ := h.reads.exists_read (h.header hne).entry
  exact (le_of_slice hb).1

/-- A round of the loop over the byte sequences. -/
theorem sim_pushBytes (h : Sim type fcgiId pairs c iovec k) (hp : LengthsAt c p offset)
    (hne : c.recordCount ≠ 0) {pair index : Nat} (hpair : pairs[pair]? = some (p.name, p.value))
    (hzero : index = 0 → c.nvPairBytesPlaced ≤ p.lengths.length) :
    ∃ iovec', placeBytes type fcgiId p index (c.toEncode iovec k) =
        (pushBytes p pair offset index c).toEncode iovec' k ∧
      Sim type fcgiId pairs (pushBytes p pair offset index c) iovec' k ∧
      LengthsAt (pushBytes p pair offset index c) p offset ∧
      (pushBytes p pair offset index c).recordCount ≠ 0 := by
  set n := placeCount p index (c.toEncode iovec k) with hn
  have hle : n ≤ (p.bytes index).length - (c.nvPairBytesPlaced - p.sum index) := Nat.min_le_left _ _
  obtain ⟨vs, qs, hentry, hsim⟩ := exists_pushEntry h hp hpair hle hzero
  have hpatched := hsim.patchLength hne (c.previousContentLength + n)
  let finish (s : BufferState) : BufferState :=
    { s with
      nvPairBytesPlaced := s.nvPairBytesPlaced + n
      numberToWrite := s.numberToWrite + n
      remainingByteCount := s.remainingByteCount - n
      previousContentLength := s.previousContentLength + n
      localBuffers := patch s.localBuffers (s.previousHeaderOffset + kHeaderContentLengthB1Index)
        [UInt8.ofNat ((s.previousContentLength + n) / 256), UInt8.ofNat (s.previousContentLength + n)] }
  have hpush : pushBytes p pair offset index c = finish (c.pushEntry p pair offset index
    ((p.bytes index).length - (c.nvPairBytesPlaced - p.sum index)) n) := rfl
  rw [hentry] at hpush
  rw [hpush]
  refine ⟨_, ?_, hpatched.congr rfl rfl rfl rfl rfl (.inr rfl), ?_, hne⟩
  · rfl
  · exact hp.patch hne (h.header_le hne) (show 4 + 2 ≤ 8 by decide) rfl rfl rfl

theorem sim_pushLoop {pair : Nat} (hpair : pairs[pair]? = some (p.name, p.value)) (m : Nat) :
    ∀ (index : Nat) (c : BufferState) (iovec : List Bytes), Sim type fcgiId pairs c iovec k →
      LengthsAt c p offset → c.recordCount ≠ 0 →
      (index = 0 → c.nvPairBytesPlaced ≤ p.lengths.length) →
      ∃ c' iovec' limit, pushLoop p pair offset (List.range' index m) c = (c', limit) ∧
        placeLoop type fcgiId p (List.range' index m) (c.toEncode iovec k) =
          (c'.toEncode iovec' k, limit) ∧
        Sim type fcgiId pairs c' iovec' k ∧ LengthsAt c' p offset := by
  induction m with
  | zero =>
    intro index c iovec h hp _ _
    exact ⟨c, iovec, false, rfl, rfl, h, hp⟩
  | succ m ih =>
    intro index c iovec h hp hne hzero
    obtain ⟨iovec', hplace, h', hp', hne'⟩ := sim_pushBytes h hp hne hpair hzero
    rw [List.range'_succ, pushLoop, placeLoop, hplace]
    generalize pushBytes p pair offset index c = d at *
    by_cases hlimit : d.remainingIovecCount = 0 ∨ d.remainingByteCount = 0
    · refine ⟨_, iovec', true, if_pos hlimit, if_pos hlimit, h'.congr rfl rfl rfl rfl rfl (.inr rfl), ?_⟩
      exact ⟨hp'.slice, hp'.apart⟩
    · by_cases hfull : d.previousContentLength = maxAlignedContentLength
      · refine ⟨{ d with previousContentLength := 0 }, iovec', false, ?_, ?_,
          h'.congr rfl rfl rfl rfl rfl (.inl rfl), ⟨hp'.slice, hp'.apart⟩⟩
        · exact (if_neg hlimit).trans (if_pos hfull)
        · exact (if_neg hlimit).trans (if_pos hfull)
      · obtain ⟨c', iovec'', limit, hpush, hplace', h'', hp''⟩ := ih (index + 1) d iovec' h' hp' hne'
          fun hindex => absurd hindex (Nat.succ_ne_zero _)
        refine ⟨c', iovec'', limit, ?_, ?_, h'', hp''⟩
        · exact ((if_neg hlimit).trans (if_neg hfull)).trans hpush
        · exact ((if_neg hlimit).trans (if_neg hfull)).trans hplace'

/-- A new header stands behind everything that is described. -/
theorem sim_newHeader (h : Sim type fcgiId pairs c iovec k) (hzero : c'.previousContentLength = 0)
    (hvs : c'.iovecList = c.iovecList ++ [⟨.null, fcgiHeaderLen⟩])
    (hqs : c'.indexPairs = c.indexPairs ++ [(c.iovecList.length, c.localBuffers.length)])
    (hlocal : c'.localBuffers = c.localBuffers ++ populateHeader type fcgiId 0 0)
    (hoffset : c'.previousHeaderOffset = c.localBuffers.length) :
    Sim type fcgiId pairs c' (iovec ++ [populateHeader type fcgiId 0 0]) iovec.length := by
  have hfilled : c'.filled = c.filled ++ [⟨.buffer c.localBuffers.length, fcgiHeaderLen⟩] := by
    rw [BufferState.filled, hvs, hqs]
    exact fillBases_local _ _ h.indices
  have hlength := h.reads.length_eq
  refine ⟨?_, ?_, fun hne => absurd hzero hne, fun _ => ⟨?_, ⟨0, ?_, fun hne => absurd hzero hne⟩, ?_⟩⟩
  · rw [hvs, hqs]
    intro q hq
    rw [List.length_append, List.length_singleton]
    rcases List.mem_append.mp hq with hq | hq
    · exact Nat.lt_succ_of_lt (h.indices q hq)
    · rw [List.mem_singleton.mp hq]
      exact Nat.lt_succ_self _
  · rw [hfilled, hlocal]
    exact (h.reads.append _).snoc (slice_append_self c.localBuffers (populateHeader type fcgiId 0 0))
  · rw [hfilled, hoffset, ← hlength, List.getElem?_concat_length]
  · exact List.getElem?_concat_length ..
  · rw [hfilled, hoffset]
    intro j v o hv hj hbase
    have hlt : j < c.filled.length := by
      have := (List.getElem?_eq_some_iff.mp hv).1
      rw [List.length_append, List.length_singleton] at this
      omega
    rw [List.getElem?_append_left hlt] at hv
    obtain ⟨b, -, hb⟩ := h.reads.exists_read hv
    simp only [Iovec.read, hbase] at hb
    exact .inl (le_of_slice hb).1

/-- The start of a record, when there is room for one. -/
theorem sim_pushHeader (h : Sim type fcgiId pairs c iovec k) (hp : LengthsAt c p offset) :
    (pushHeader type fcgiId c = none ∧ startRecord type fcgiId (c.toEncode iovec k) = none) ∨
      ∃ c' iovec' k', pushHeader type fcgiId c = some c' ∧
        startRecord type fcgiId (c.toEncode iovec k) = some (c'.toEncode iovec' k') ∧
        Sim type fcgiId pairs c' iovec' k' ∧ LengthsAt c' p offset ∧ c'.recordCount ≠ 0 ∧
        c'.nvPairBytesPlaced = c.nvPairBytesPlaced := by
  unfold pushHeader startRecord
  by_cases hzero : c.previousContentLength = 0
  · rw [if_pos hzero, if_pos (show (c.toEncode iovec k).previousContentLength = 0 from hzero)]
    by_cases hroom : c.remainingIovecCount ≥ 2 ∧ c.remainingByteCount ≥ fcgiHeaderLen + 1
    · rw [if_pos hroom, if_pos (show (c.toEncode iovec k).remainingIovecCount ≥ 2 ∧
        (c.toEncode iovec k).remainingByteCount ≥ fcgiHeaderLen + 1 from hroom)]
      have hlocal : patch (c.localBuffers ++ List.replicate fcgiHeaderLen 0) c.localBuffers.length
          (populateHeader type fcgiId 0 0) = c.localBuffers ++ populateHeader type fcgiId 0 0 :=
        patch_append_self c.localBuffers rfl
      have hend := (le_of_slice hp.slice).1
      refine .inr ⟨_, iovec ++ [populateHeader type fcgiId 0 0], iovec.length, rfl, rfl,
        sim_newHeader h hzero rfl rfl hlocal rfl, ⟨?_, fun _ => .inl hend⟩, Nat.succ_ne_zero _, rfl⟩
      exact (congrArg (slice · offset p.lengths.length) hlocal).trans (slice_append_right hp.slice)
    · rw [if_neg hroom, if_neg (show ¬ ((c.toEncode iovec k).remainingIovecCount ≥ 2 ∧
        (c.toEncode iovec k).remainingByteCount ≥ fcgiHeaderLen + 1) from hroom)]
      exact .inl ⟨rfl, rfl⟩
  · rw [if_neg hzero, if_neg (show ¬ (c.toEncode iovec k).previousContentLength = 0 from hzero)]
    exact .inr ⟨c, iovec, k, rfl, rfl, h, hp, h.opened hzero, rfl⟩

theorem SizedPair.determineIndex_lt (p : SizedPair) (placed : Nat) : p.determineIndex placed < 3 := by
  unfold SizedPair.determineIndex
  split
  · decide
  · split <;> decide

theorem sim_pushRecords {pair : Nat} (hpair : pairs[pair]? = some (p.name, p.value)) (fuel : Nat) :
    ∀ (c : BufferState) (iovec : List Bytes) (k : Nat), Sim type fcgiId pairs c iovec k →
      LengthsAt c p offset →
      ∃ c' iovec' k', pushRecords type fcgiId p pair offset fuel c = c' ∧
        recordLoop type fcgiId p fuel (c.toEncode iovec k) = c'.toEncode iovec' k' ∧
        Sim type fcgiId pairs c' iovec' k' := by
  induction fuel with
  | zero =>
    intro c iovec k h _
    exact ⟨c, iovec, k, rfl, rfl, h⟩
  | succ fuel ih =>
    intro c iovec k h hp
    rw [pushRecords, recordLoop]
    by_cases hdone : p.totalLength - c.nvPairBytesPlaced = 0
    · exact ⟨c, iovec, k, if_pos hdone, if_pos hdone, h⟩
    · rw [if_neg hdone, if_neg (show ¬ p.totalLength - (c.toEncode iovec k).nvPairBytesPlaced = 0
        from hdone)]
      rcases sim_pushHeader h hp with ⟨hnone, hnone'⟩ |
        ⟨d, iovec', k', hheader, hstart, h', hp', hne, hplaced⟩
      · rw [hnone, hnone']
        exact ⟨_, iovec, k, rfl, rfl, h.congr rfl rfl rfl rfl rfl (.inr rfl)⟩
      · rw [hheader, hstart]
        have hindex := p.determineIndex_lt d.nvPairBytesPlaced
        obtain ⟨e, iovec'', limit, hpush, hplace, h'', hp''⟩ := sim_pushLoop hpair
          (3 - p.determineIndex d.nvPairBytesPlaced) (p.determineIndex d.nvPairBytesPlaced) d iovec'
          h' hp' hne fun hzero => by
            unfold SizedPair.determineIndex at hzero
            split at hzero
            · rename_i hlt
              exact Nat.le_of_lt hlt
            · split at hzero <;> cases hzero
        rw [← drop_range _ hindex] at hpush hplace
        dsimp only
        rw [hpush, show (d.toEncode iovec' k').nvPairBytesPlaced = d.nvPairBytesPlaced from rfl, hplace]
        dsimp only
        cases limit with
        | true => exact ⟨e, iovec'', k', rfl, rfl, h''⟩
        | false => exact ih e iovec'' k' h'' hp''

/-- The lengths of the next pair are appended. -/
theorem Sim.append (h : Sim type fcgiId pairs c iovec k) (x : Bytes) (placed : Nat) :
    Sim type fcgiId pairs
      { c with nvPairBytesPlaced := placed, localBuffers := c.localBuffers ++ x } iovec k := by
  refine ⟨h.indices, h.reads.append x, h.opened, fun hne => ?_⟩
  obtain ⟨hentry, hvalue, hapart⟩ := h.header hne
  exact ⟨hentry, hvalue, hapart⟩

theorem lengthsAt_append (h : Sim type fcgiId pairs c iovec k) (p : SizedPair) (placed : Nat) :
    LengthsAt { c with nvPairBytesPlaced := placed, localBuffers := c.localBuffers ++ p.lengths } p
      c.localBuffers.length :=
  ⟨slice_append_self c.localBuffers p.lengths, fun hne => .inr (h.header_le hne)⟩

theorem length_encodeLength_le (n : Nat) : (encodeLength n).length ≤ 4 := by
  unfold encodeLength
  split
  · exact (show 1 ≤ 4 by decide)
  · exact Nat.le_refl 4

/-- The checks of a pair, which are made so that nothing overflows. -/
theorem rejects_iff {sizeMax : Nat} (hsize : 8 ≤ sizeMax) (name value : Bytes) :
    ((pushLengths name value).2 = true ∨
        name.length > sizeMax - (⟨(pushLengths name value).1, name, value⟩ : SizedPair).sum 1 ∨
        value.length > sizeMax - (⟨(pushLengths name value).1, name, value⟩ : SizedPair).sum 2) ↔
      name.length > kNameValuePairFourByteLength ∨ value.length > kNameValuePairFourByteLength ∨
        (⟨encodeLength name.length ++ encodeLength value.length, name, value⟩ : SizedPair).totalLength >
          sizeMax := by
  unfold pushLengths
  by_cases hname : name.length > kNameValuePairFourByteLength
  · simp [hname]
  · by_cases hvalue : value.length > kNameValuePairFourByteLength
    · simp [hname, hvalue]
    · simp only [hname, hvalue, if_false, Bool.false_eq_true, false_or]
      have hlengths : (encodeLength name.length ++ encodeLength value.length).length ≤ 8 := by
        have h₁ := length_encodeLength_le name.length
        have h₂ := length_encodeLength_le value.length
        rw [List.length_append]
        omega
      simp only [SizedPair.totalLength, SizedPair.sum]
      omega

theorem pushLengths_fits {name value : Bytes} (hname : ¬ name.length > kNameValuePairFourByteLength)
    (hvalue : ¬ value.length > kNameValuePairFourByteLength) :
    pushLengths name value = (encodeLength name.length ++ encodeLength value.length, false) := by
  rw [pushLengths, if_neg hname, if_neg hvalue]

/-- What was appended for a rejected pair is erased. -/
theorem pushPairs_rejected (type : FcgiType) (fcgiId : UInt16) {sizeMax : Nat} (hsize : 8 ≤ sizeMax)
    {bad : ByteSeqPair} (hbad : Rejected sizeMax bad) (back : List ByteSeqPair) (pair offset : Nat)
    (hroom : ¬ (c.remainingIovecCount = 0 ∨ c.remainingByteCount = 0)) :
    pushPairs type fcgiId sizeMax (bad :: back) pair offset c =
      ({ c with nvPairBytesPlaced := offset }, true, bad :: back) := by
  obtain ⟨name, value⟩ := bad
  have hreject := (rejects_iff hsize name value).mpr hbad
  rw [pushPairs, if_neg hroom]
  generalize pushLengths name value = r at hreject ⊢
  obtain ⟨lengths, tooBig⟩ := r
  have hback : (c.localBuffers ++ lengths).take
      ((c.localBuffers ++ lengths).length - lengths.length) = c.localBuffers := by
    rw [List.length_append, Nat.add_sub_cancel_right, List.take_left]
  dsimp only at hreject ⊢
  rw [if_pos hreject, hback]

/-- The other pairs are placed behind their lengths. -/
theorem pushPairs_accepted (type : FcgiType) (fcgiId : UInt16) {sizeMax : Nat} (hsize : 8 ≤ sizeMax)
    {good : ByteSeqPair} (hgood : ¬ Rejected sizeMax good) (back : List ByteSeqPair) (pair offset : Nat)
    (hroom : ¬ (c.remainingIovecCount = 0 ∨ c.remainingByteCount = 0)) :
    pushPairs type fcgiId sizeMax (good :: back) pair offset c =
      let d := pushRecords type fcgiId (sized good) pair c.localBuffers.length
        ((sized good).totalLength - offset)
        { c with nvPairBytesPlaced := offset, localBuffers := c.localBuffers ++ (sized good).lengths }
      if d.incompleteNvWrite then (d, false, good :: back)
      else pushPairs type fcgiId sizeMax back (pair + 1) 0 d := by
  obtain ⟨name, value⟩ := good
  have hfits := not_or.mp hgood
  have hlengths := pushLengths_fits hfits.1 (not_or.mp hfits.2).1
  have haccept := mt (rejects_iff hsize name value).mp hgood
  rw [hlengths] at haccept
  rw [pushPairs, if_neg hroom, hlengths]
  dsimp only at haccept ⊢
  rw [if_neg haccept]
  rfl

theorem pairLoop_accepted (type : FcgiType) (fcgiId : UInt16) {sizeMax : Nat} {good : ByteSeqPair}
    (hgood : ¬ Rejected sizeMax good) (back : List ByteSeqPair) (offset : Nat) {s : EncodeState}
    (hroom : ¬ (s.remainingIovecCount = 0 ∨ s.remainingByteCount = 0)) :
    pairLoop type fcgiId sizeMax (good :: back) offset s =
      let t := recordLoop type fcgiId (sized good) ((sized good).totalLength - offset)
        { s with nvPairBytesPlaced := offset }
      if t.incompleteNvWrite then (t, false, good :: back)
      else pairLoop type fcgiId sizeMax back 0 t := by
  rw [pairLoop, if_neg hroom]
  exact if_neg hgood

theorem sim_pushPairs {sizeMax : Nat} (hsize : 8 ≤ sizeMax) (rest : List ByteSeqPair) :
    ∀ (pair offset : Nat) (c : BufferState) (iovec : List Bytes) (k : Nat), pairs.drop pair = rest →
      Sim type fcgiId pairs c iovec k →
      ∃ c' iovec' k' rejected rest',
        pushPairs type fcgiId sizeMax rest pair offset c = (c', rejected, rest') ∧
        pairLoop type fcgiId sizeMax rest offset (c.toEncode iovec k) =
          (c'.toEncode iovec' k', rejected, rest') ∧
        Sim type fcgiId pairs c' iovec' k' := by
  induction rest with
  | nil =>
    intro pair offset c iovec k _ h
    exact ⟨c, iovec, k, false, [], rfl, rfl, h⟩
  | cons q rest ih =>
    obtain ⟨name, value⟩ := q
    intro pair offset c iovec k hdrop h
    by_cases hlimit : c.remainingIovecCount = 0 ∨ c.remainingByteCount = 0
    · refine ⟨c, iovec, k, false, _, ?_, if_pos hlimit, h⟩
      rw [pushPairs, if_pos hlimit]
    · have hlimit' : ¬ ((c.toEncode iovec k).remainingIovecCount = 0 ∨
        (c.toEncode iovec k).remainingByteCount = 0) := hlimit
      by_cases hreject : Rejected sizeMax (name, value)
      · rw [pushPairs_rejected type fcgiId hsize hreject rest pair offset hlimit]
        refine ⟨_, iovec, k, true, _, rfl, (if_neg hlimit').trans (if_pos hreject), ?_⟩
        exact h.congr rfl rfl rfl rfl rfl (.inr rfl)
      · rw [pushPairs_accepted type fcgiId hsize hreject rest pair offset hlimit,
          pairLoop_accepted type fcgiId hreject rest offset hlimit']
        have hnext : pairs[pair]? = some (name, value) := by
          rw [← List.head?_drop, hdrop]
          rfl
        set p : SizedPair := sized (name, value) with hp
        obtain ⟨d, iovec', k', hpush, hrecords, h'⟩ := sim_pushRecords hnext (p.totalLength - offset) _
          iovec k (h.append p.lengths offset) (lengthsAt_append h p offset)
        rw [hpush]
        have hrecords' : recordLoop type fcgiId p (p.totalLength - offset)
            { c.toEncode iovec k with nvPairBytesPlaced := offset } = d.toEncode iovec' k' := hrecords
        rw [hrecords']
        by_cases hcut : d.incompleteNvWrite = true
        · exact ⟨d, iovec', k', false, _, if_pos hcut, if_pos hcut, h'⟩
        · obtain ⟨e, iovec'', k'', rejected, rest', hpairs, hloop, h''⟩ := ih (pair + 1) 0 d iovec' k' (by
            rw [← List.drop_drop, hdrop, List.drop_one, List.tail_cons]) h'
          exact ⟨e, iovec'', k'', rejected, rest', (if_neg hcut).trans hpairs,
            (if_neg hcut).trans hloop, h''⟩

/-- The padding is appended and written into the last header. -/
theorem reads_pushPadding (h : Sim type fcgiId pairs c iovec k) :
    ∃ iovec', addPadding type fcgiId (c.toEncode iovec k) = (pushPadding c).toEncode iovec' k ∧
      Reads pairs (pushPadding c).localBuffers (pushPadding c).filled iovec' := by
  unfold addPadding pushPadding
  by_cases haligned : c.previousContentLength % fcgiHeaderLen = 0
  · rw [if_pos haligned, if_pos (show (c.toEncode iovec k).previousContentLength % fcgiHeaderLen = 0
      from haligned)]
    exact ⟨iovec, rfl, h.reads⟩
  · rw [if_neg haligned, if_neg (show ¬ (c.toEncode iovec k).previousContentLength % fcgiHeaderLen = 0
      from haligned)]
    have hne : c.previousContentLength ≠ 0 := fun hzero => haligned (by rw [hzero]; rfl)
    have hrecord := h.opened hne
    obtain ⟨hentry, ⟨n, hn, hvalue⟩, hapart⟩ := h.header hrecord
    obtain rfl := hvalue hne
    set complement := fcgiHeaderLen - c.previousContentLength % fcgiHeaderLen with hcomplement
    have hk := (List.getElem?_eq_some_iff.mp hentry).1
    have hk' : k < iovec.length := h.reads.length_eq ▸ hk
    have hpadded := (h.reads.append (List.replicate complement 0)).snoc
      (v := ⟨.buffer c.localBuffers.length, complement⟩) (b := List.replicate complement 0) (by
        have hself := slice_append_self c.localBuffers (List.replicate complement 0)
        rwa [List.length_replicate] at hself)
    have hpatched := hpadded.patch (i := kHeaderPaddingLengthIndex) (x := [UInt8.ofNat complement])
      ((List.getElem?_append_left hk).trans hentry) ((List.getElem?_append_left hk').trans hn)
      (hapart.append fun o ho => .inr (Base.buffer.inj ho ▸ h.header_le hrecord))
      (show 6 + 1 ≤ 8 by decide)
    refine ⟨_, rfl, ?_⟩
    have hfilled : fillBases (c.indexPairs ++ [(c.iovecList.length, c.localBuffers.length)])
        (c.iovecList ++ [⟨.null, complement⟩]) =
          c.filled ++ [⟨.buffer c.localBuffers.length, complement⟩] := fillBases_local _ _ h.indices
    rw [List.set_append_left _ _ hk'] at hpatched
    show Reads pairs _ (fillBases _ _) _
    exact hfilled ▸ hpatched

end

/-! ## Calls -/

/-- A call with memory returns what the call with values does, and the list that
it returns describes the bytes of the other. -/
structure Describes (pairs : List ByteSeqPair) (b : BufferReturn) (r : EncodeReturn) : Prop where
  ok : b.ok = r.ok
  numberToWrite : b.numberToWrite = r.numberToWrite
  recordCount : b.recordCount = r.recordCount
  offset : b.offset = r.offset
  rest : b.rest = r.rest
  reads : Reads pairs b.localBuffers b.iovecList r.iovec

theorem encodeBuffers_describes (type : FcgiType) (fcgiId : UInt16) {l : SystemLimits}
    (hl : 8 ≤ l.sizeMax) (pairs : List ByteSeqPair) (offset : Nat) :
    Describes pairs (encodeBuffers type fcgiId l pairs offset)
      (encodeNameValuePairs type fcgiId l pairs offset) := by
  unfold encodeBuffers encodeNameValuePairs
  by_cases hnil : pairs = []
  · rw [if_pos hnil, if_pos hnil]
    exact ⟨rfl, rfl, rfl, rfl, rfl, rfl⟩
  · rw [if_neg hnil, if_neg hnil]
    let start : BufferState :=
      { remainingIovecCount := min (l.iovMax.getD 1024) intMax - 1
        remainingByteCount := l.ssizeMax - 7 }
    have hstart : Sim type fcgiId pairs start [] 0 := by
      refine ⟨by rintro _ ⟨⟩, rfl, fun hne => absurd rfl hne, fun hne => absurd rfl hne⟩
    obtain ⟨c, iovec, k, rejected, rest, hpairs, hloop, h⟩ :=
      sim_pushPairs hl pairs 0 offset start [] 0 List.drop_zero hstart
    have hloop' : pairLoop type fcgiId l.sizeMax pairs offset
        { remainingIovecCount := min (l.iovMax.getD 1024) intMax - 1
          remainingByteCount := l.ssizeMax - 7 } = (c.toEncode iovec k, rejected, rest) := hloop
    obtain ⟨iovec', hpadding, hreads⟩ := reads_pushPadding h
    rw [hpairs, hloop']
    dsimp only
    rw [hpadding]
    exact ⟨rfl, rfl, rfl, rfl, rfl, hreads⟩

end AsComponents.Encoding
