import AsComponents.EncodingRecords

/-! What a call of `EncodeNameValuePairs` uses up: entries, bytes and headers
are counted while they are placed. -/

namespace AsComponents.Encoding

open Protocol NameValue AsComponents.Partition

/-- What was added is what is not left, and what is not a header is content. -/
structure Tally (s t : EncodeState) : Prop where
  iovec : t.iovec.length + t.remainingIovecCount = s.iovec.length + s.remainingIovecCount
  bytes : t.numberToWrite + t.remainingByteCount = s.numberToWrite + s.remainingByteCount
  records : t.numberToWrite + 8 * s.recordCount + s.nvPairBytesPlaced =
    s.numberToWrite + 8 * t.recordCount + t.nvPairBytesPlaced

section

variable {type : FcgiType} {fcgiId : UInt16} {s t u : EncodeState} {p : SizedPair}

theorem Tally.refl (s : EncodeState) : Tally s s := ⟨rfl, rfl, rfl⟩

theorem Tally.trans (h : Tally s t) (h' : Tally t u) : Tally s u where
  iovec := h'.iovec.trans h.iovec
  bytes := h'.bytes.trans h.bytes
  records := by
    have h₁ := h.records
    have h₂ := h'.records
    omega

theorem tally_placeBytes (type : FcgiType) (fcgiId : UInt16) (p : SizedPair) (index : Nat)
    (h : Room s) : Tally s (placeBytes type fcgiId p index s) := by
  have hle : placeCount p index s ≤ s.remainingByteCount :=
    (Nat.min_le_right _ _).trans ((Nat.min_le_right _ _).trans (Nat.min_le_left _ _))
  obtain ⟨hiovec, -⟩ := h
  refine ⟨?_, ?_, ?_⟩
  · show ((if index = 0 ∨ placeCount p index s ≠ 0 then s.iovec ++ [placedBytes p index s]
      else s.iovec).set s.headerIndex _).length +
        (if index = 0 ∨ placeCount p index s ≠ 0 then s.remainingIovecCount - 1
          else s.remainingIovecCount) = _
    rw [List.length_set]
    split
    · rw [List.length_append, List.length_singleton]
      omega
    · rfl
  · show s.numberToWrite + placeCount p index s + (s.remainingByteCount - placeCount p index s) = _
    omega
  · show s.numberToWrite + placeCount p index s + 8 * s.recordCount + s.nvPairBytesPlaced =
      s.numberToWrite + 8 * s.recordCount + (s.nvPairBytesPlaced + placeCount p index s)
    omega

theorem tally_placeLoop (type : FcgiType) (fcgiId : UInt16) (p : SizedPair) (indices : List Nat) :
    ∀ s, Room s → Tally s (placeLoop type fcgiId p indices s).1 ∧
      ((placeLoop type fcgiId p indices s).2 = false → Room (placeLoop type fcgiId p indices s).1) := by
  induction indices with
  | nil => exact fun s h => ⟨.refl s, fun _ => h⟩
  | cons index indices ih =>
    intro s h
    have hplace := tally_placeBytes type fcgiId p index h
    rw [placeLoop]
    generalize placeBytes type fcgiId p index s = t at hplace
    split
    · exact ⟨⟨hplace.iovec, hplace.bytes, hplace.records⟩, by simp⟩
    · rename_i hroom
      split
      · exact ⟨⟨hplace.iovec, hplace.bytes, hplace.records⟩, fun _ => not_or.mp hroom⟩
      · obtain ⟨htally, hrest⟩ := ih t (not_or.mp hroom)
        exact ⟨hplace.trans htally, hrest⟩

theorem tally_startRecord (h : Room s) (ht : startRecord type fcgiId s = some t) :
    Tally s t ∧ Room t := by
  unfold startRecord at ht
  split at ht
  · split at ht
    · rename_i henough
      rw [fcgiHeaderLen] at henough
      obtain rfl := Option.some.inj ht
      refine ⟨⟨?_, ?_, ?_⟩, ?_, ?_⟩
      · show (s.iovec ++ [_]).length + (s.remainingIovecCount - 1) = _
        rw [List.length_append, List.length_singleton]
        omega
      · show s.numberToWrite + 8 + (s.remainingByteCount - 8) = _
        omega
      · show s.numberToWrite + 8 + 8 * s.recordCount + s.nvPairBytesPlaced =
          s.numberToWrite + 8 * (s.recordCount + 1) + s.nvPairBytesPlaced
        omega
      · show s.remainingIovecCount - 1 ≠ 0
        omega
      · show s.remainingByteCount - 8 ≠ 0
        omega
    · cases ht
  · obtain rfl := Option.some.inj ht
    exact ⟨.refl s, h⟩

theorem tally_recordLoop (type : FcgiType) (fcgiId : UInt16) (p : SizedPair) (fuel : Nat) :
    ∀ s, Room s → Tally s (recordLoop type fcgiId p fuel s) := by
  induction fuel with
  | zero => exact fun s _ => .refl s
  | succ fuel ih =>
    intro s h
    rw [recordLoop]
    split
    · exact .refl s
    · split
      · exact ⟨rfl, rfl, rfl⟩
      · rename_i t ht
        obtain ⟨hst, hroom⟩ := tally_startRecord h ht
        have hloop := tally_placeLoop type fcgiId p
          ((List.range 3).drop (p.determineIndex t.nvPairBytesPlaced)) t hroom
        generalize placeLoop type fcgiId p
          ((List.range 3).drop (p.determineIndex t.nvPairBytesPlaced)) t = r at hloop
        obtain ⟨u, limit⟩ := r
        obtain ⟨htu, hrest⟩ := hloop
        dsimp only
        cases limit with
        | true => exact hst.trans htu
        | false => exact (hst.trans htu).trans (ih u (hrest rfl))

/-- The same over several pairs, of which so many bytes remained before and
remain now. -/
structure Totals (s t : EncodeState) (before after : Nat) : Prop where
  iovec : t.iovec.length + t.remainingIovecCount = s.iovec.length + s.remainingIovecCount
  bytes : t.numberToWrite + t.remainingByteCount = s.numberToWrite + s.remainingByteCount
  records : t.numberToWrite + 8 * s.recordCount + after =
    s.numberToWrite + 8 * t.recordCount + before

theorem Totals.refl (s : EncodeState) (n : Nat) : Totals s s n n := ⟨rfl, rfl, rfl⟩

theorem Totals.trans {n m k : Nat} (h : Totals s t n m) (h' : Totals t u m k) : Totals s u n k where
  iovec := h'.iovec.trans h.iovec
  bytes := h'.bytes.trans h.bytes
  records := by
    have h₁ := h.records
    have h₂ := h'.records
    omega

/-- What a pair adds. -/
theorem Tally.totals (h : Tally s t) {n m : Nat}
    (hn : t.nvPairBytesPlaced + m = s.nvPairBytesPlaced + n) : Totals s t n m where
  iovec := h.iovec
  bytes := h.bytes
  records := by
    have := h.records
    omega

theorem length_drop_encodePairs (q : ByteSeqPair) (pairs : List ByteSeqPair) (offset : Nat) :
    ((encodePairs (q :: pairs)).drop offset).length =
      (encodePair q).length + (encodePairs pairs).length - offset := by
  rw [List.length_drop]
  exact congrArg (· - offset) List.length_append

theorem totals_pairLoop {sizeMax : Nat} (pairs : List ByteSeqPair) :
    ∀ (s : EncodeState) (content : Bytes) (offset : Nat), Holds type fcgiId s content →
      (Room s → s.previousContentLength < maxAlignedContentLength) → s.incompleteNvWrite = false →
      (∀ p ∈ pairs, Encodable sizeMax p) → Within offset pairs → (Room s ∨ offset = 0) →
      (pairs = [] → offset = 0) →
      ∃ t rest, pairLoop type fcgiId sizeMax pairs offset s = (t, false, rest) ∧
        Totals s t ((encodePairs pairs).drop offset).length
          ((encodePairs rest).drop t.offset).length := by
  induction pairs with
  | nil =>
    intro s content offset _ _ hincomplete _ _ _ hoffset
    obtain rfl := hoffset rfl
    refine ⟨s, [], rfl, ?_⟩
    rw [EncodeState.offset, hincomplete]
    exact .refl s _
  | cons pair pairs ih =>
    obtain ⟨name, value⟩ := pair
    intro s content offset h hshort hincomplete hpairs hwithin hroom _
    have hlt : offset < (encodePair (name, value)).length := hwithin (name, value) rfl
    rw [pairLoop]
    split
    · rename_i hnone
      have hfull : ¬ Room s := fun hroom => hnone.elim hroom.1 hroom.2
      obtain rfl : offset = 0 := hroom.resolve_left hfull
      refine ⟨s, _, rfl, ?_⟩
      rw [EncodeState.offset, hincomplete]
      exact .refl s _
    · rename_i hsome
      rw [not_or] at hsome
      extract_lets start p placed
      have htotal : (encodePair (name, value)).length = p.totalLength :=
        (totalLength_sized (name, value)).symm
      have haccepted : ¬ Rejected sizeMax (name, value) :=
        mt rejected_iff.mp (not_not.mpr (hpairs (name, value) List.mem_cons_self))
      obtain ⟨x, hx, -⟩ := recordLoop_spec (p := p) (p.totalLength - offset) start content
        (h.setPlaced offset) hsome (hshort hsome) (show offset ≤ p.totalLength by omega)
        (show p.totalLength ≤ offset + (p.totalLength - offset) by omega) hincomplete
      have htally : Tally start placed := tally_recordLoop type fcgiId p _ start hsome
      have hle : placed.nvPairBytesPlaced ≤ p.totalLength :=
        hx.advance.le (show offset ≤ p.totalLength by omega)
      have hoffset : start.nvPairBytesPlaced = offset := rfl
      have hplaced : placed.nvPairBytesPlaced = offset + x.length := hx.advance.placed
      rw [if_neg (show ¬ (name.length > _ ∨ value.length > _ ∨ p.totalLength > sizeMax) from haccepted)]
      split
      · rename_i hcut
        refine ⟨placed, _, rfl, ?_⟩
        have htotals : Totals start placed _ _ := htally.totals (n :=
          (encodePair (name, value)).length + (encodePairs pairs).length - offset)
          (m := (encodePair (name, value)).length + (encodePairs pairs).length -
            placed.nvPairBytesPlaced) (by omega)
        rw [length_drop_encodePairs, length_drop_encodePairs, EncodeState.offset, if_pos hcut]
        exact ⟨htotals.iovec, htotals.bytes, htotals.records⟩
      · rename_i hwhole
        rw [Bool.not_eq_true] at hwhole
        have hall : ¬ placed.nvPairBytesPlaced < p.totalLength := by
          have := hx.incomplete
          rw [hwhole] at this
          exact of_decide_eq_false this.symm
        obtain ⟨t, rest, hloop, htotals⟩ := ih placed (content ++ x) 0 hx.holds
          (fun hroom' => hx.short hroom' hwhole) hwhole
          (fun q hq => hpairs q (List.mem_cons_of_mem _ hq)) (within_zero pairs) (.inr rfl) fun _ => rfl
        refine ⟨t, rest, hloop, ?_⟩
        rw [List.drop_zero] at htotals
        have hpair : Totals start placed _ _ := htally.totals (n :=
          (encodePair (name, value)).length + (encodePairs pairs).length - offset)
          (m := (encodePairs pairs).length) (by omega)
        rw [length_drop_encodePairs]
        have htrans := hpair.trans htotals
        exact ⟨htrans.iovec, htrans.bytes, htrans.records⟩

/-- A call stays within the limits of the system, and its headers are counted. -/
structure Bounded (type : FcgiType) (fcgiId : UInt16) (l : SystemLimits) (r : EncodeReturn)
    (contents : List Bytes) : Prop where
  carries : Carries type fcgiId r contents
  recordCount : r.recordCount = contents.length
  bytes : r.numberToWrite ≤ l.ssizeMax
  iovec : r.iovec.length ≤ min (l.iovMax.getD 1024) intMax

theorem addPadding_bounds (type : FcgiType) (fcgiId : UInt16) (s : EncodeState) :
    (addPadding type fcgiId s).recordCount = s.recordCount ∧
      (addPadding type fcgiId s).numberToWrite ≤ s.numberToWrite + 7 ∧
      (addPadding type fcgiId s).iovec.length ≤ s.iovec.length + 1 := by
  unfold addPadding
  dsimp only
  split
  · exact ⟨rfl, Nat.le_add_right _ _, Nat.le_add_right _ _⟩
  · rename_i hpad
    refine ⟨rfl, ?_, ?_⟩
    · show s.numberToWrite + (fcgiHeaderLen - s.previousContentLength % fcgiHeaderLen) ≤ _
      rw [fcgiHeaderLen] at hpad ⊢
      omega
    · show ((s.iovec.set _ _) ++ [_]).length ≤ _
      rw [List.length_append, List.length_set, List.length_singleton]

theorem encodeNameValuePairs_bounded (type : FcgiType) (fcgiId : UInt16) {l : SystemLimits}
    (hl : l.Posix) {pairs : List ByteSeqPair} {offset : Nat} (hne : pairs ≠ [])
    (hpairs : ∀ p ∈ pairs, Encodable l.sizeMax p) (hwithin : Within offset pairs) :
    ∃ contents, Bounded type fcgiId l (encodeNameValuePairs type fcgiId l pairs offset) contents := by
  have hiovec := iovMax_of_posix hl
  have hssize := hl.ssizeMax
  have hstart := holds_startState type fcgiId l
  have hroom := room_startState hl
  have hshort : Room (startState l) →
      (startState l).previousContentLength < maxAlignedContentLength :=
    fun _ => (by decide : 0 < maxAlignedContentLength)
  obtain ⟨t, rest, x, hloop, hholds, hconsumed, -⟩ := pairLoop_spec pairs (startState l) []
    offset hstart hshort rfl hpairs hwithin (.inl hroom) fun hnil => absurd hnil hne
  obtain ⟨t', rest', hloop', htotals⟩ := totals_pairLoop pairs (startState l) [] offset hstart hshort
    rfl hpairs hwithin (.inl hroom) fun hnil => absurd hnil hne
  obtain ⟨rfl, -, rfl⟩ : t = t' ∧ false = false ∧ rest = rest' := by
    simpa only [Prod.mk.injEq] using hloop.symm.trans hloop'
  have hcounted : Counted t := by
    have hcounted := counted_pairLoop type fcgiId l.sizeMax pairs offset (s := startState l)
      ⟨rfl, fun hne => absurd rfl hne⟩
    rw [hloop] at hcounted
    exact hcounted
  rw [List.nil_append] at hholds
  obtain ⟨contents, rfl, hbounds, hflatten, hlength⟩ := flatten_addPadding hholds
  obtain ⟨hrecords, hnumber, hentries⟩ := addPadding_bounds type fcgiId t
  have hsplit := congrArg List.length hconsumed.split
  rw [List.length_append] at hsplit
  have htallied := htotals.records
  have hbytes : t.numberToWrite + t.remainingByteCount = 0 + (l.ssizeMax - 7) := htotals.bytes
  have hentries' : t.iovec.length + t.remainingIovecCount =
    0 + (min (l.iovMax.getD 1024) intMax - 1) := htotals.iovec
  have hzero : (startState l).numberToWrite = 0 ∧ (startState l).recordCount = 0 := ⟨rfl, rfl⟩
  have hcount := hcounted.numberToWrite
  rw [encodeNameValuePairs_eq hne hloop]
  exact ⟨contents, ⟨hflatten, hbounds⟩, show (addPadding type fcgiId t).recordCount = _ by omega,
    show (addPadding type fcgiId t).numberToWrite ≤ _ by omega,
    show (addPadding type fcgiId t).iovec.length ≤ _ by omega⟩

end

end AsComponents.Encoding
