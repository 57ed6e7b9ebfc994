import AsComponents.EncodingLimits
import AsComponents.EncodingSimulation
import AsComponents.PartitionCalls

/-! Calls of `EncodeNameValuePairs` whose range may hold a pair that is rejected:
a rejected pair changes nothing that the call returns for the pairs before it. -/

namespace AsComponents.Encoding

open Protocol NameValue AsComponents.Partition Buffers

/-! ## A pair that is rejected -/

section

variable (type : FcgiType) (fcgiId : UInt16) {sizeMax : Nat}

/-- The loop over the pairs does for the pairs before a rejected one what it does
when they are all. -/
theorem pushPairs_append (hsize : 8 ≤ sizeMax) {bad : ByteSeqPair} (hbad : Rejected sizeMax bad)
    (back : List ByteSeqPair) (front : List ByteSeqPair) :
    ∀ (pair offset : Nat) (c : BufferState), (∀ p ∈ front, ¬ Rejected sizeMax p) →
      c.incompleteNvWrite = false →
      ∃ s rest rejected placed, pushPairs type fcgiId sizeMax front pair offset c = (s, false, rest) ∧
        pushPairs type fcgiId sizeMax (front ++ bad :: back) pair offset c =
          ({ s with nvPairBytesPlaced := placed }, rejected, rest ++ bad :: back) ∧
        (rest = [] → s.incompleteNvWrite = false) ∧
        (rest ≠ [] → rejected = false ∧ placed = s.nvPairBytesPlaced) := by
  induction front with
  | nil =>
    intro pair offset c _ hincomplete
    by_cases hlimit : c.remainingIovecCount = 0 ∨ c.remainingByteCount = 0
    · refine ⟨c, [], false, c.nvPairBytesPlaced, rfl, ?_, fun _ => hincomplete,
        fun hne => absurd rfl hne⟩
      rw [List.nil_append, pushPairs, if_pos hlimit]
    · refine ⟨c, [], true, offset, rfl, ?_, fun _ => hincomplete, fun hne => absurd rfl hne⟩
      exact pushPairs_rejected type fcgiId hsize hbad back pair offset hlimit
  | cons good front ih =>
    intro pair offset c hfront hincomplete
    by_cases hlimit : c.remainingIovecCount = 0 ∨ c.remainingByteCount = 0
    · refine ⟨c, good :: front, false, c.nvPairBytesPlaced, ?_, ?_, by simp, fun _ => ⟨rfl, rfl⟩⟩
      · rw [pushPairs, if_pos hlimit]
      · rw [List.cons_append, pushPairs, if_pos hlimit]
    · have hgood := hfront good List.mem_cons_self
      rw [List.cons_append, pushPairs_accepted type fcgiId hsize hgood front pair offset hlimit,
        pushPairs_accepted type fcgiId hsize hgood (front ++ bad :: back) pair offset hlimit]
      extract_lets d
      by_cases hcut : d.incompleteNvWrite = true
      · refine ⟨d, good :: front, false, d.nvPairBytesPlaced, if_pos hcut, if_pos hcut, by simp,
          fun _ => ⟨rfl, rfl⟩⟩
      · obtain ⟨s, rest, rejected, placed, hshort, hlong, hdone, hstopped⟩ := ih (pair + 1) 0 d
          (fun p hp => hfront p (List.mem_cons_of_mem _ hp)) (Bool.eq_false_of_not_eq_true hcut)
        exact ⟨s, rest, rejected, placed, (if_neg hcut).trans hshort, (if_neg hcut).trans hlong,
          hdone, hstopped⟩

theorem pushPadding_placed (s : BufferState) (placed : Nat) :
    pushPadding { s with nvPairBytesPlaced := placed } =
      { pushPadding s with nvPairBytesPlaced := placed } := by
  unfold pushPadding
  dsimp only
  split <;> rfl

theorem incomplete_pushPadding (s : BufferState) :
    (pushPadding s).incompleteNvWrite = s.incompleteNvWrite ∧
      (pushPadding s).nvPairBytesPlaced = s.nvPairBytesPlaced := by
  unfold pushPadding
  dsimp only
  split <;> exact ⟨rfl, rfl⟩

/-- A call with a pair that is rejected returns what it returns without that pair
and those behind it, apart from the result and the iterator. -/
theorem encodeBuffers_append {l : SystemLimits} (hl : l.Posix) {bad : ByteSeqPair}
    (hbad : Rejected l.sizeMax bad) (back : List ByteSeqPair) {front : List ByteSeqPair}
    (hfront : ∀ p ∈ front, ¬ Rejected l.sizeMax p) (offset : Nat) :
    ∃ ok, encodeBuffers type fcgiId l (front ++ bad :: back) offset =
        { encodeBuffers type fcgiId l front offset with
          ok
          rest := (encodeBuffers type fcgiId l front offset).rest ++ bad :: back } ∧
      ((encodeBuffers type fcgiId l front offset).rest ≠ [] → ok = true) ∧
      (front = [] → ok = false) := by
  have hssize := hl.ssizeMax
  have hsize : 8 ≤ l.sizeMax := by
    rw [SystemLimits.sizeMax]
    omega
  have hiovec := iovMax_of_posix hl
  have hne : front ++ bad :: back ≠ [] := fun hnil => by
    cases (List.append_eq_nil_iff.mp hnil).2
  set start : BufferState :=
    { remainingIovecCount := min (l.iovMax.getD 1024) intMax - 1
      remainingByteCount := l.ssizeMax - 7 } with hstart
  by_cases hnil : front = []
  · subst hnil
    have hroom : ¬ (start.remainingIovecCount = 0 ∨ start.remainingByteCount = 0) := by
      rintro (hzero | hzero)
      · have : min (l.iovMax.getD 1024) intMax - 1 = 0 := hzero
        omega
      · have : l.ssizeMax - 7 = 0 := hzero
        omega
    have hreject := pushPairs_rejected type fcgiId hsize hbad back 0 offset hroom
    refine ⟨false, ?_, fun hrest => absurd rfl hrest, fun _ => rfl⟩
    rw [encodeBuffers, if_neg hne, List.nil_append, ← hstart, hreject]
    rfl
  · obtain ⟨s, rest, rejected, placed, hshort, hlong, hdone, hstopped⟩ :=
      pushPairs_append type fcgiId hsize hbad back front 0 offset start hfront rfl
    obtain ⟨hincomplete, hplaced⟩ := incomplete_pushPadding s
    have hoffset : (if s.incompleteNvWrite then placed else 0) =
        if s.incompleteNvWrite then s.nvPairBytesPlaced else 0 := by
      by_cases hrest : rest = []
      · rw [hdone hrest]
        rfl
      · rw [(hstopped hrest).2]
    refine ⟨!rejected, ?_, fun hrest => ?_, fun h => absurd h hnil⟩
    · rw [encodeBuffers, if_neg hne, ← hstart, hlong, encodeBuffers, if_neg hnil, ← hstart, hshort]
      dsimp only
      rw [pushPadding_placed, hincomplete, hplaced, hoffset]
    · rw [encodeBuffers, if_neg hnil, ← hstart, hshort] at hrest
      rw [(hstopped hrest).1]
      rfl

end

/-! ## Records -/

/-- The first pair of a list that is rejected. -/
theorem exists_rejected (sizeMax : Nat) (pairs : List ByteSeqPair) :
    (∀ p ∈ pairs, ¬ Rejected sizeMax p) ∨ ∃ front bad back, pairs = front ++ bad :: back ∧
      Rejected sizeMax bad ∧ ∀ p ∈ front, ¬ Rejected sizeMax p := by
  induction pairs with
  | nil => exact .inl (by simp)
  | cons pair pairs ih =>
    by_cases hpair : Rejected sizeMax pair
    · exact .inr ⟨[], pair, pairs, rfl, hpair, by simp⟩
    · rcases ih with hall | ⟨front, bad, back, rfl, hbad, hfront⟩
      · exact .inl (List.forall_mem_cons.mpr ⟨hpair, hall⟩)
      · exact .inr ⟨pair :: front, bad, back, rfl, hbad, List.forall_mem_cons.mpr ⟨hpair, hfront⟩⟩

theorem Iovec.length_of_read {localBuffers : Bytes} {pairs : List ByteSeqPair} {v : Iovec} {b : Bytes}
    (h : v.read localBuffers pairs = some b) : b.length = v.length := by
  unfold Iovec.read at h
  cases hbase : v.base with
  | null =>
    rw [hbase] at h
    cases h
  | data pair index start =>
    rw [hbase] at h
    obtain ⟨p, -, hslice⟩ := Option.bind_eq_some_iff.mp h
    exact (le_of_slice hslice).2
  | buffer offset =>
    rw [hbase] at h
    exact (le_of_slice h).2

namespace Reads

variable {pairs : List ByteSeqPair} {localBuffers : Bytes} {vs : List Iovec} {iovec : List Bytes}

theorem lengths (h : Reads pairs localBuffers vs iovec) :
    vs.map Iovec.length = iovec.map List.length := by
  refine List.ext_getElem? fun k => ?_
  rw [List.getElem?_map, List.getElem?_map]
  cases hv : vs[k]? with
  | none =>
    rw [List.getElem?_eq_none_iff, h.length_eq, ← List.getElem?_eq_none_iff] at hv
    rw [hv]
    rfl
  | some v =>
    obtain ⟨b, hb, hread⟩ := h.exists_read hv
    rw [hb, Option.map_some, Option.map_some, Iovec.length_of_read hread]

/-- Pairs behind those that are described play no part. -/
theorem appendPairs (h : Reads pairs localBuffers vs iovec) (more : List ByteSeqPair) :
    Reads (pairs ++ more) localBuffers vs iovec := by
  refine (List.map_congr_left fun v hv => ?_).trans h
  obtain ⟨k, hk⟩ := List.getElem?_of_mem hv
  obtain ⟨b, -, hb⟩ := h.exists_read hk
  rw [hb]
  unfold Iovec.read at hb ⊢
  cases hbase : v.base with
  | null =>
    rw [hbase] at hb
    exact hb
  | data pair index start =>
    rw [hbase] at hb
    obtain ⟨p, hp, hslice⟩ := Option.bind_eq_some_iff.mp hb
    have hp' : (pairs ++ more)[pair]? = some p := by
      rw [List.getElem?_append_left (List.getElem?_eq_some_iff.mp hp).1]
      exact hp
    exact Option.bind_eq_some_iff.mpr ⟨p, hp', hslice⟩
  | buffer offset =>
    rw [hbase] at hb
    exact hb

end Reads

theorem within_front {offset : Nat} {front more : List ByteSeqPair} (h : Within offset (front ++ more)) :
    Within offset front := by
  cases front with
  | nil => rintro _ ⟨⟩
  | cons pair front => exact h

section

variable {type : FcgiType} {fcgiId : UInt16} {l : SystemLimits} {pairs : List ByteSeqPair}
  {r : BufferReturn} {contents : List Bytes}

/-- The entries describe whole records with these contents. -/
structure Gathers (type : FcgiType) (fcgiId : UInt16) (pairs : List ByteSeqPair) (r : BufferReturn)
    (contents : List Bytes) : Prop where
  reads : ∃ iovec, Reads pairs r.localBuffers r.iovecList iovec ∧
    iovec.flatten = encodeRecords (contents.map (alignedRecord type fcgiId))
  bounds : ∀ c ∈ contents, c ≠ [] ∧ c.length ≤ maxAlignedContentLength

/-- Only the entries and the memory play a part. -/
theorem Gathers.congr (h : Gathers type fcgiId pairs r contents) {r' : BufferReturn}
    (hlocal : r'.localBuffers = r.localBuffers) (hiovec : r'.iovecList = r.iovecList) :
    Gathers type fcgiId pairs r' contents := by
  refine ⟨?_, h.bounds⟩
  rw [hlocal, hiovec]
  exact h.reads

theorem Gathers.appendPairs (h : Gathers type fcgiId pairs r contents) (more : List ByteSeqPair) :
    Gathers type fcgiId (pairs ++ more) r contents := by
  obtain ⟨⟨iovec, hreads, hflatten⟩, hbounds⟩ := h
  exact ⟨⟨iovec, hreads.appendPairs more, hflatten⟩, hbounds⟩

/-- Records have lengths that are multiples of eight. -/
theorem dvd_length_encodeRecords {records : List Record}
    (h : ∀ record ∈ records, Announced type fcgiId record) : 8 ∣ (encodeRecords records).length := by
  induction records with
  | nil => exact Nat.dvd_zero 8
  | cons record records ih =>
    obtain ⟨hrecord, hrecords⟩ := List.forall_mem_cons.mp h
    rw [encodeRecords_cons, List.length_append]
    exact (Nat.dvd_add_right hrecord.aligned).mpr (ih hrecords)

/-- What a call returns keeps to the limits of the system. -/
structure Sendable (type : FcgiType) (fcgiId : UInt16) (l : SystemLimits) (pairs : List ByteSeqPair)
    (r : BufferReturn) (contents : List Bytes) : Prop where
  gathers : Gathers type fcgiId pairs r contents
  recordCount : r.recordCount = contents.length
  numberToWrite : r.numberToWrite = (r.iovecList.map Iovec.length).sum
  bytes : r.numberToWrite ≤ l.ssizeMax
  iovec : r.iovecList.length ≤ l.iovMax.getD 1024

theorem sizeMax_of_posix (hl : l.Posix) : 8 ≤ l.sizeMax := by
  have hssize := hl.ssizeMax
  rw [SystemLimits.sizeMax]
  omega

theorem gathers_of_carries (hl : l.Posix) {offset : Nat}
    (h : Carries type fcgiId (encodeNameValuePairs type fcgiId l pairs offset) contents) :
    Gathers type fcgiId pairs (encodeBuffers type fcgiId l pairs offset) contents :=
  ⟨⟨_, (encodeBuffers_describes type fcgiId (sizeMax_of_posix hl) pairs offset).reads, h.records⟩,
    h.bounds⟩

theorem encodeBuffers_numberToWrite (type : FcgiType) (fcgiId : UInt16) (hl : l.Posix)
    (pairs : List ByteSeqPair) (offset : Nat) :
    (encodeBuffers type fcgiId l pairs offset).numberToWrite =
      ((encodeBuffers type fcgiId l pairs offset).iovecList.map Iovec.length).sum := by
  have hdescribes := encodeBuffers_describes type fcgiId (sizeMax_of_posix hl) pairs offset
  rw [hdescribes.numberToWrite, hdescribes.reads.lengths, numberToWrite_eq, List.length_flatten]

theorem sendable_of_encodable (type : FcgiType) (fcgiId : UInt16) (hl : l.Posix) {offset : Nat}
    (hpairs : ∀ p ∈ pairs, Encodable l.sizeMax p) (hwithin : Within offset pairs) :
    ∃ contents, Sendable type fcgiId l pairs (encodeBuffers type fcgiId l pairs offset) contents := by
  have hdescribes := encodeBuffers_describes type fcgiId (sizeMax_of_posix hl) pairs offset
  have hnumber := encodeBuffers_numberToWrite type fcgiId hl pairs offset
  by_cases hne : pairs = []
  · subst hne
    exact ⟨[], ⟨⟨[], rfl, rfl⟩, by simp⟩, rfl, rfl, Nat.zero_le _, Nat.zero_le _⟩
  · obtain ⟨contents, hbounded⟩ := encodeNameValuePairs_bounded type fcgiId hl hne hpairs hwithin
    refine ⟨contents, gathers_of_carries hl hbounded.carries, ?_, hnumber, ?_, ?_⟩
    · rw [hdescribes.recordCount, hbounded.recordCount]
    · rw [hdescribes.numberToWrite]
      exact hbounded.bytes
    · rw [hdescribes.reads.length_eq]
      exact hbounded.iovec.trans (Nat.min_le_left _ _)

/-- Every call, also one that rejects a pair, returns entries that can be sent. -/
theorem sendable_encodeBuffers (type : FcgiType) (fcgiId : UInt16) (hl : l.Posix) {offset : Nat}
    (hwithin : Within offset pairs) :
    ∃ contents, Sendable type fcgiId l pairs (encodeBuffers type fcgiId l pairs offset) contents := by
  rcases exists_rejected l.sizeMax pairs with hall | ⟨front, bad, back, rfl, hbad, hfront⟩
  · exact sendable_of_encodable type fcgiId hl
      (fun p hp => not_not.mp (mt rejected_iff.mpr (hall p hp))) hwithin
  · obtain ⟨ok, hcall, -⟩ := encodeBuffers_append type fcgiId hl hbad back hfront offset
    obtain ⟨contents, hsendable⟩ := sendable_of_encodable type fcgiId hl
      (fun p hp => not_not.mp (mt rejected_iff.mpr (hfront p hp))) (within_front hwithin)
    rw [hcall]
    exact ⟨contents, (hsendable.gathers.appendPairs _).congr rfl rfl, hsendable.recordCount,
      hsendable.numberToWrite, hsendable.bytes, hsendable.iovec⟩

/-- The entries that a call returns describe whole records, none of them empty,
and keep to the limits of the system. -/
theorem encodeBuffers_records (type : FcgiType) (fcgiId : UInt16) {l : SystemLimits} (hl : l.Posix)
    (pairs : List ByteSeqPair) {offset : Nat} (hwithin : Within offset pairs) :
    let r := encodeBuffers type fcgiId l pairs offset
    ∃ iovec records, Reads pairs r.localBuffers r.iovecList iovec ∧
      iovec.flatten = encodeRecords records ∧
      (∀ record ∈ records, Announced type fcgiId record ∧ 1 ≤ record.content.length ∧
        record.content.length ≤ 65528) ∧
      8 ∣ r.numberToWrite ∧ r.recordCount = records.length ∧
      r.numberToWrite = (r.iovecList.map Iovec.length).sum ∧ r.numberToWrite ≤ l.ssizeMax ∧
      r.iovecList.length ≤ l.iovMax.getD 1024 := by
  intro r
  obtain ⟨contents, ⟨⟨iovec, hreads, hflatten⟩, hbounds⟩, hcount, hnumber, hbytes, hiovec⟩ :=
    sendable_encodeBuffers type fcgiId hl hwithin
  have hrecords : ∀ record ∈ contents.map (alignedRecord type fcgiId),
      Announced type fcgiId record ∧ 1 ≤ record.content.length ∧ record.content.length ≤ 65528 := by
    intro record hrecord
    obtain ⟨content, hcontent, rfl⟩ := List.mem_map.mp hrecord
    obtain ⟨hne, hle⟩ := hbounds content hcontent
    exact ⟨announced_alignedRecord type fcgiId hle, List.length_pos_iff.mpr hne, hle⟩
  refine ⟨iovec, contents.map (alignedRecord type fcgiId), hreads, hflatten, hrecords, ?_, ?_, hnumber,
    hbytes, hiovec⟩
  · rw [hnumber, hreads.lengths, ← List.length_flatten, hflatten]
    exact dvd_length_encodeRecords fun record hrecord => (hrecords record hrecord).1
  · rw [hcount, List.length_map]

end

/-- An offset into a pair with a name of one byte. -/
theorem encodeBuffers_records_two :
    let r := encodeBuffers kFcgiParams 1 { iovMax := some 16 } [([65], [66, 67]), ([], [])] 2
    ∃ iovec records, Reads [([65], [66, 67]), ([], [])] r.localBuffers r.iovecList iovec ∧
      iovec.flatten = encodeRecords records ∧ r.recordCount = records.length := by
  obtain ⟨iovec, records, hreads, hflatten, -, -, hcount, -⟩ := encodeBuffers_records kFcgiParams 1
    (l := { iovMax := some 16 }) ⟨by rintro n h; cases h; decide, by decide⟩
    [([65], [66, 67]), ([], [])]
    (show Within 2 [([65], [66, 67]), ([], [])] by rintro p h; cases h; decide)
  exact ⟨iovec, records, hreads, hflatten, hcount⟩

/-! ## Calls until a pair is rejected -/

/-- The arguments of a call. -/
structure Call where
  pairs : List ByteSeqPair
  offset : Nat

def Call.result (type : FcgiType) (fcgiId : UInt16) (l : SystemLimits) (c : Call) : BufferReturn :=
  encodeBuffers type fcgiId l c.pairs c.offset

/-- Calls that return true, each with the iterator and the offset that the one before
returned, and at last one that returns false. -/
inductive Driven (type : FcgiType) (fcgiId : UInt16) (l : SystemLimits) :
    Call → List Call → Call → Prop
  | fails {c : Call} (h : (c.result type fcgiId l).ok = false) : Driven type fcgiId l c [] c
  | call {c last : Call} {calls : List Call} (h : (c.result type fcgiId l).ok = true)
      (later : Driven type fcgiId l
        ⟨(c.result type fcgiId l).rest, (c.result type fcgiId l).offset⟩ calls last) :
      Driven type fcgiId l c (c :: calls) last

/-- A call that returns the entries and the memory which it returns when its range
ends before `more`. -/
structure Ignores (type : FcgiType) (fcgiId : UInt16) (l : SystemLimits) (more : List ByteSeqPair)
    (c : Call) (contents : List Bytes) : Prop where
  split : ∃ before, c.pairs = before ++ more ∧
    (c.result type fcgiId l).iovecList = (encodeBuffers type fcgiId l before c.offset).iovecList ∧
    (c.result type fcgiId l).localBuffers = (encodeBuffers type fcgiId l before c.offset).localBuffers ∧
    Gathers type fcgiId before (c.result type fcgiId l) contents

/-- From every offset, calls reach the pair that is rejected. -/
theorem exists_driven (type : FcgiType) (fcgiId : UInt16) {l : SystemLimits} (hl : l.Posix)
    {bad : ByteSeqPair} (hbad : Rejected l.sizeMax bad) (back front : List ByteSeqPair) (offset : Nat)
    (hfront : ∀ p ∈ front, Encodable l.sizeMax p) (hwithin : Within offset front)
    (hoffset : front = [] → offset = 0) :
    ∃ calls last contents final, Driven type fcgiId l ⟨front ++ bad :: back, offset⟩ calls last ∧
      (last.result type fcgiId l).rest = bad :: back ∧ (last.result type fcgiId l).offset = 0 ∧
      List.Forall₂ (Ignores type fcgiId l (bad :: back)) calls contents ∧
      Ignores type fcgiId l (bad :: back) last final ∧
      contents.flatten.flatten ++ final.flatten = (encodePairs front).drop offset := by
  induction hn : ((encodePairs front).drop offset).length using Nat.strong_induction_on
    generalizing front offset with
  | _ n ih =>
    have haccepted : ∀ p ∈ front, ¬ Rejected l.sizeMax p := fun p hp =>
      mt rejected_iff.mp (not_not.mpr (hfront p hp))
    obtain ⟨ok, hcall, hrest, hempty⟩ :=
      encodeBuffers_append type fcgiId hl hbad back haccepted offset
    set call : Call := ⟨front ++ bad :: back, offset⟩ with hdef
    have hresult : call.result type fcgiId l = _ := hcall
    by_cases hne : front = []
    · subst hne
      obtain rfl := hoffset rfl
      obtain rfl := hempty rfl
      refine ⟨[], call, [], [], .fails (by rw [hresult]), by rw [hresult]; rfl, by rw [hresult]; rfl,
        .nil, ⟨[], rfl, by rw [hresult], by rw [hresult], ?_⟩, rfl⟩
      rw [hresult]
      exact ⟨⟨[], rfl, rfl⟩, by simp⟩
    · obtain ⟨-, contents, hcarries, hx, hconsumed, -⟩ :=
        encodeNameValuePairs_spec type fcgiId hl hne hfront hwithin
      have hdescribes := encodeBuffers_describes type fcgiId (sizeMax_of_posix hl) front offset
      have hignores : Ignores type fcgiId l (bad :: back) call contents := by
        refine ⟨front, rfl, by rw [hresult], by rw [hresult], ?_⟩
        rw [hresult]
        exact (gathers_of_carries hl hcarries).congr rfl rfl
      rw [← hdescribes.rest, ← hdescribes.offset] at hconsumed
      have hpos : contents.flatten.length ≠ 0 := fun hzero => hx (List.length_eq_zero_iff.mp hzero)
      cases ok with
      | true =>
        have hlength := congrArg List.length hconsumed.split
        rw [List.length_append] at hlength
        obtain ⟨calls, last, later, final, hdriven, hlast, hzero, hcalls, hfinal, hflatten⟩ := ih _
          (by omega) _ _ (fun p hp => hfront p (hconsumed.suffix.subset hp)) hconsumed.within
          hconsumed.finished rfl
        refine ⟨call :: calls, last, contents :: later, final, .call (by rw [hresult]) ?_, hlast, hzero,
          .cons hignores hcalls, hfinal, ?_⟩
        · rw [hresult]
          exact hdriven
        · rw [List.flatten_cons, List.flatten_append, List.append_assoc, hflatten, ← hconsumed.split]
      | false =>
        have hdone : (encodeBuffers type fcgiId l front offset).rest = [] := by
          by_contra hmore
          cases hrest hmore
        have hsplit := hconsumed.split
        rw [hdone] at hsplit
        refine ⟨[], call, [], contents, .fails (by rw [hresult]), ?_, ?_, .nil, hignores, ?_⟩
        · rw [hresult]
          dsimp only
          rw [hdone, List.nil_append]
        · rw [hresult]
          exact hconsumed.finished hdone
        · rw [hsplit]
          simp [encodePairs]

/-- A pair whose name or value is too long is reached and rejected, and all records
that are produced carry the encoded pairs before it: nothing that is returned
depends on the pair. -/
theorem calls_until_rejected {l : SystemLimits} (hl : l.Posix) {front : List ByteSeqPair}
    (hfront : ∀ p ∈ front, PairFits p) (hsize : ∀ p ∈ front, (encodePair p).length ≤ l.sizeMax)
    {bad : ByteSeqPair} (hbad : ¬ PairFits bad) (back : List ByteSeqPair) (type : FcgiType)
    (fcgiId : UInt16) :
    ∃ calls last contents final, Driven type fcgiId l ⟨front ++ bad :: back, 0⟩ calls last ∧
      (last.result type fcgiId l).rest = bad :: back ∧ (last.result type fcgiId l).offset = 0 ∧
      List.Forall₂ (Ignores type fcgiId l (bad :: back)) calls contents ∧
      Ignores type fcgiId l (bad :: back) last final ∧
      contents.flatten.flatten ++ final.flatten = encodePairs front := by
  have hrejected : Rejected l.sizeMax bad := rejected_iff.mpr fun h => hbad h.1
  exact exists_driven type fcgiId hl hrejected back front 0 (fun p hp => ⟨hfront p hp, hsize p hp⟩)
    (within_zero front) fun _ => rfl

/-- The second pair has a name of `2 ^ 31` bytes. -/
theorem calls_until_rejected_two : ∃ name : Bytes, name.length = 2 ^ 31 ∧
    ∃ calls last contents final,
      Driven kFcgiParams 1 {} ⟨[([65], [66, 67]), (name, [])], 0⟩ calls last ∧
      (last.result kFcgiParams 1 {}).rest = [(name, [])] ∧
      (last.result kFcgiParams 1 {}).offset = 0 ∧
      List.Forall₂ (Ignores kFcgiParams 1 {} [(name, [])]) calls contents ∧
      Ignores kFcgiParams 1 {} [(name, [])] last final ∧
      contents.flatten.flatten ++ final.flatten = [1, 2, 65, 66, 67] := by
  obtain ⟨name, hname⟩ : ∃ name : Bytes, name.length = 2 ^ 31 := ⟨_, List.length_replicate (a := 0)⟩
  have hbad : ¬ PairFits (name, []) := fun h => by
    have hle : name.length ≤ 2 ^ 31 - 1 := h.1
    omega
  exact ⟨name, hname, @calls_until_rejected {} ⟨by rintro n h; cases h; decide, by decide⟩
    [([65], [66, 67])] (by simp [PairFits, kNameValuePairFourByteLength]) (by decide) _ hbad []
    kFcgiParams 1⟩

end AsComponents.Encoding
