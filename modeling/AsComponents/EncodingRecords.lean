import AsComponents.Encoding

/-! The records that calls of `EncodeNameValuePairs` produce: together they
carry the encoded pairs. -/

namespace AsComponents.Encoding

open Protocol NameValue AsComponents.Partition

/-! ## The bytes of a pair -/

namespace SizedPair

variable (p : SizedPair)

def encoding : Bytes := p.lengths ++ (p.name ++ p.value)

theorem length_encoding : p.encoding.length = p.totalLength := by
  simp only [encoding, totalLength, sum, List.length_append]
  omega

/-- The bytes of the pair from one of its byte sequences on. -/
theorem drop_encoding {index placed : Nat} (hindex : index < 3) (hlow : p.sum index ≤ placed)
    {n : Nat} (hn : placed - p.sum index + n ≤ (p.bytes index).length) :
    p.encoding.drop placed =
      ((p.bytes index).drop (placed - p.sum index)).take n ++ p.encoding.drop (placed + n) := by
  have hsplit : ∃ before after, p.encoding = before ++ (p.bytes index ++ after) ∧
      before.length = p.sum index := by
    interval_cases index
    · exact ⟨[], p.name ++ p.value, rfl, rfl⟩
    · exact ⟨p.lengths, p.value, rfl, rfl⟩
    · refine ⟨p.lengths ++ p.name, [], ?_, ?_⟩
      · simp [encoding, bytes]
      · simp [sum, Nat.add_comm]
  obtain ⟨before, after, hencoding, hbefore⟩ := hsplit
  obtain ⟨k, rfl⟩ := Nat.exists_eq_add_of_le hlow
  rw [Nat.add_sub_cancel_left] at hn ⊢
  have hskip : ∀ m, p.encoding.drop (p.sum index + m) = (p.bytes index ++ after).drop m := by
    intro m
    rw [hencoding, ← hbefore, ← List.drop_drop, List.drop_left]
  rw [Nat.add_assoc, hskip, hskip, List.drop_append_of_le_length (by omega),
    List.drop_append_of_le_length hn, ← List.drop_drop, ← List.append_assoc, List.take_append_drop]

theorem sums : p.sum 0 = 0 ∧ p.sum 1 = (p.bytes 0).length ∧
    p.sum 2 = p.sum 1 + (p.bytes 1).length ∧ p.totalLength = p.sum 2 + (p.bytes 2).length :=
  ⟨rfl, rfl, Nat.add_comm _ _, Nat.add_comm _ _⟩

/-- So many bytes of the pair were placed when the byte sequence of this index
is next. -/
def Reaches (index placed : Nat) : Prop :=
  if index < 3 then p.sum index ≤ placed ∧ placed ≤ p.sum index + (p.bytes index).length
  else placed = p.totalLength

theorem reaches_succ {index : Nat} (hindex : index < 3) :
    p.Reaches (index + 1) (p.sum index + (p.bytes index).length) := by
  obtain ⟨h₀, h₁, h₂, h₃⟩ := p.sums
  interval_cases index
  · show p.Reaches 1 _
    rw [Reaches, if_pos (by omega)]
    omega
  · show p.Reaches 2 _
    rw [Reaches, if_pos (by omega)]
    omega
  · rw [Reaches, if_neg (by omega)]
    exact h₃.symm

theorem Reaches.le {p : SizedPair} {index placed : Nat} (h : p.Reaches index placed) :
    placed ≤ p.totalLength := by
  obtain ⟨h₀, h₁, h₂, h₃⟩ := p.sums
  by_cases hindex : index < 3
  · rw [Reaches, if_pos hindex] at h
    interval_cases index
    · omega
    · omega
    · omega
  · rw [Reaches, if_neg hindex] at h
    exact h.le

/-- The index that is chosen has bytes that were not placed. -/
theorem reaches_determineIndex {placed : Nat} (h : placed < p.totalLength) :
    p.determineIndex placed < 3 ∧ p.Reaches (p.determineIndex placed) placed ∧
      placed < p.sum (p.determineIndex placed) + (p.bytes (p.determineIndex placed)).length := by
  obtain ⟨h₀, h₁, h₂, h₃⟩ := p.sums
  unfold determineIndex Reaches
  split
  · rw [if_pos (by omega)]
    omega
  · split
    · rw [if_pos (by omega)]
      omega
    · rw [if_pos (by omega)]
      omega

end SizedPair

/-! ## What the buffers describe -/

section

variable {type : FcgiType} {fcgiId : UInt16} {s t u : EncodeState} {p : SizedPair}

/-- The buffers hold whole records. -/
structure Closed (type : FcgiType) (fcgiId : UInt16) (s : EncodeState) (contents : List Bytes) :
    Prop where
  bytes : s.iovec.flatten = encodeRecords (contents.map (alignedRecord type fcgiId))
  empty : s.previousContentLength = 0

/-- The buffers hold whole records and one without padding, which may grow. -/
structure Open (type : FcgiType) (fcgiId : UInt16) (s : EncodeState) (contents : List Bytes)
    (current : Bytes) : Prop where
  bytes : ∃ front parts, s.iovec = front ++ populateHeader type fcgiId current.length 0 :: parts ∧
    s.headerIndex = front.length ∧ parts.flatten = current ∧
    front.flatten = encodeRecords (contents.map (alignedRecord type fcgiId))
  length : s.previousContentLength = current.length
  fits : current.length ≤ maxAlignedContentLength

/-- The number of bytes that a round over the byte sequences places. -/
def placeCount (p : SizedPair) (index : Nat) (s : EncodeState) : Nat :=
  min ((p.bytes index).length - (s.nvPairBytesPlaced - p.sum index))
    (min (p.totalLength - s.nvPairBytesPlaced)
      (min s.remainingByteCount (maxAlignedContentLength - s.previousContentLength)))

/-- The bytes it places. -/
def placedBytes (p : SizedPair) (index : Nat) (s : EncodeState) : Bytes :=
  ((p.bytes index).drop (s.nvPairBytesPlaced - p.sum index)).take (placeCount p index s)

theorem length_placedBytes (index : Nat) :
    (placedBytes p index s).length = placeCount p index s := by
  rw [placedBytes, List.length_take, List.length_drop]
  exact Nat.min_eq_left (Nat.min_le_left _ _)

theorem open_placeBytes {contents : List Bytes} {current : Bytes} (index : Nat)
    (h : Open type fcgiId s contents current) :
    Open type fcgiId (placeBytes type fcgiId p index s) contents
      (current ++ placedBytes p index s) := by
  obtain ⟨⟨front, parts, hiovec, hindex, hparts, hfront⟩, hlength, hfits⟩ := h
  have hcount := length_placedBytes (p := p) (s := s) index
  have hle : placeCount p index s ≤ maxAlignedContentLength - s.previousContentLength :=
    (Nat.min_le_right _ _).trans ((Nat.min_le_right _ _).trans (Nat.min_le_right _ _))
  refine ⟨⟨front, if index = 0 ∨ placeCount p index s ≠ 0 then parts ++ [placedBytes p index s]
    else parts, ?_, hindex, ?_, hfront⟩, ?_, ?_⟩
  · show (if index = 0 ∨ placeCount p index s ≠ 0 then s.iovec ++ [placedBytes p index s]
      else s.iovec).set s.headerIndex
        (populateHeader type fcgiId (s.previousContentLength + placeCount p index s) 0) = _
    rw [hiovec, hindex, hlength, List.length_append, hcount]
    split <;> simp
  · split
    · simp [hparts]
    · rename_i hnone
      have hzero : placeCount p index s = 0 := by
        by_contra hne
        exact hnone (.inr hne)
      rw [List.eq_nil_of_length_eq_zero (hcount.trans hzero), List.append_nil, hparts]
  · show s.previousContentLength + placeCount p index s = _
    rw [List.length_append, hcount, hlength]
  · rw [List.length_append, hcount]
    omega

/-! ## Loops -/

/-- Bytes of the pair were placed. -/
structure Advance (p : SizedPair) (s t : EncodeState) (x : Bytes) : Prop where
  placed : t.nvPairBytesPlaced = s.nvPairBytesPlaced + x.length
  split : p.encoding.drop s.nvPairBytesPlaced = x ++ p.encoding.drop t.nvPairBytesPlaced

theorem Advance.refl (s : EncodeState) : Advance p s s [] := ⟨rfl, rfl⟩

theorem Advance.trans {x y : Bytes} (h : Advance p s t x) (h' : Advance p t u y) :
    Advance p s u (x ++ y) where
  placed := by
    rw [h'.placed, h.placed, List.length_append, Nat.add_assoc]
  split := by
    rw [h.split, h'.split, List.append_assoc]

theorem Advance.le {x : Bytes} (h : Advance p s t x) (hle : s.nvPairBytesPlaced ≤ p.totalLength) :
    t.nvPairBytesPlaced ≤ p.totalLength := by
  have hlength := congrArg List.length h.split
  have hplaced := h.placed
  rw [List.length_append, List.length_drop, List.length_drop, p.length_encoding] at hlength
  omega

theorem advance_placeBytes (type : FcgiType) (fcgiId : UInt16) {index : Nat}
    (hindex : index < 3) (hreaches : p.Reaches index s.nvPairBytesPlaced) :
    Advance p s (placeBytes type fcgiId p index s) (placedBytes p index s) where
  placed := by
    rw [length_placedBytes]
    rfl
  split := by
    rw [SizedPair.Reaches, if_pos hindex] at hreaches
    have hle : placeCount p index s ≤
        (p.bytes index).length - (s.nvPairBytesPlaced - p.sum index) := Nat.min_le_left _ _
    exact p.drop_encoding hindex hreaches.1 (by omega)

/-- There is room for more bytes. -/
def Room (s : EncodeState) : Prop := s.remainingIovecCount ≠ 0 ∧ s.remainingByteCount ≠ 0

/-- The buffers hold records with these bytes, all records but the last one
full. -/
structure Holds (type : FcgiType) (fcgiId : UInt16) (s : EncodeState) (content : Bytes) : Prop where
  records : ∃ contents current, content = contents.flatten ++ current ∧
    (∀ c ∈ contents, c.length = maxAlignedContentLength) ∧
    (current = [] ∧ Closed type fcgiId s contents ∨
      current ≠ [] ∧ Open type fcgiId s contents current)

theorem holds_of_open {contents : List Bytes} {current : Bytes} (hopen : Open type fcgiId s contents current)
    (hfull : ∀ c ∈ contents, c.length = maxAlignedContentLength) (hne : current ≠ []) :
    Holds type fcgiId s (contents.flatten ++ current) :=
  ⟨contents, current, rfl, hfull, .inr ⟨hne, hopen⟩⟩

/-- A full record needs no padding. -/
theorem holds_of_full {contents : List Bytes} {current : Bytes} (hopen : Open type fcgiId s contents current)
    (hfull : ∀ c ∈ contents, c.length = maxAlignedContentLength)
    (hlength : current.length = maxAlignedContentLength) :
    Holds type fcgiId { s with previousContentLength := 0 } (contents.flatten ++ current) := by
  refine ⟨contents ++ [current], [], by simp, ?_, .inl ⟨rfl, ?_, rfl⟩⟩
  · simp only [List.mem_append, List.mem_singleton]
    rintro c (hc | rfl)
    · exact hfull c hc
    · exact hlength
  · obtain ⟨⟨front, parts, hiovec, -, hparts, hfront⟩, -, -⟩ := hopen
    have hpadding : paddingFor current.length = 0 := by rw [hlength]; rfl
    simp only [hiovec, List.flatten_append, List.flatten_cons, hfront, hparts, List.map_append,
      List.map_cons, List.map_nil, encodeRecords_append, encodeRecords_cons, encodeRecords_nil,
      List.append_nil, alignedRecord, Record.encode, Record.header, hpadding, List.replicate_zero,
      List.length_nil]

theorem placeCount_pos {index : Nat} (hroom : Room s)
    (hshort : s.previousContentLength < maxAlignedContentLength)
    (hreaches : p.Reaches index s.nvPairBytesPlaced) (hindex : index < 3)
    (hlt : s.nvPairBytesPlaced < p.sum index + (p.bytes index).length) : 0 < placeCount p index s := by
  have hle := (p.reaches_succ hindex).le
  rw [SizedPair.Reaches, if_pos hindex] at hreaches
  have hbytes := hroom.2
  unfold placeCount
  omega

/-- What the loop over the byte sequences leaves. -/
structure PlaceReturn (type : FcgiType) (fcgiId : UInt16) (p : SizedPair) (s : EncodeState)
    (content : Bytes) (r : EncodeState × Bool) : Prop where
  holds : Holds type fcgiId r.1 content
  limit : r.2 = true → ¬ Room r.1 ∧ r.1.incompleteNvWrite =
    (s.incompleteNvWrite || decide (r.1.nvPairBytesPlaced < p.totalLength))
  room : r.2 = false → Room r.1 ∧ r.1.incompleteNvWrite = s.incompleteNvWrite ∧
    r.1.previousContentLength < maxAlignedContentLength ∧
    (r.1.previousContentLength = 0 ∨ r.1.nvPairBytesPlaced = p.totalLength)

theorem placeLoop_spec {contents : List Bytes} (k : Nat) :
    ∀ (index : Nat) (s : EncodeState) (current : Bytes), index + k = 3 →
      Open type fcgiId s contents current →
      (∀ c ∈ contents, c.length = maxAlignedContentLength) → Room s →
      s.previousContentLength < maxAlignedContentLength → p.Reaches index s.nvPairBytesPlaced →
      (current ≠ [] ∨ index < 3 ∧
        s.nvPairBytesPlaced < p.sum index + (p.bytes index).length) →
      ∃ x, Advance p s (placeLoop type fcgiId p (List.range' index k) s).1 x ∧
        (index < 3 → s.nvPairBytesPlaced < p.sum index + (p.bytes index).length → x ≠ []) ∧
        PlaceReturn type fcgiId p s (contents.flatten ++ (current ++ x))
          (placeLoop type fcgiId p (List.range' index k) s) := by
  induction k with
  | zero =>
    intro index s current hindex hopen hfull hroom hshort hreaches hne
    obtain rfl : index = 3 := by omega
    have hcurrent : current ≠ [] := by
      rcases hne with hne | ⟨hlt, -⟩
      · exact hne
      · omega
    refine ⟨[], .refl s, fun hlt => absurd hlt (by omega), ?_, by rintro ⟨⟩, fun _ => ?_⟩
    · rw [List.append_nil]
      exact holds_of_open hopen hfull hcurrent
    · exact ⟨hroom, rfl, hshort, .inr hreaches⟩
  | succ k ih =>
    intro index s current hindex hopen hfull hroom hshort hreaches hne
    have hlt : index < 3 := by omega
    have hopen' := open_placeBytes (p := p) index hopen
    have hadvance := advance_placeBytes type fcgiId hlt hreaches
    have hcount := length_placedBytes (p := p) (s := s) index
    have hbytes : (placeBytes type fcgiId p index s).remainingByteCount =
      s.remainingByteCount - placeCount p index s := rfl
    have hprevious : (placeBytes type fcgiId p index s).previousContentLength =
      s.previousContentLength + placeCount p index s := rfl
    have hincomplete : (placeBytes type fcgiId p index s).incompleteNvWrite = s.incompleteNvWrite := rfl
    have hplaces : s.nvPairBytesPlaced < p.sum index + (p.bytes index).length →
        placedBytes p index s ≠ [] := by
      intro hmore hnil
      have hpos := placeCount_pos hroom hshort hreaches hlt hmore
      rw [hnil, List.length_nil] at hcount
      omega
    have hcurrent : current ++ placedBytes p index s ≠ [] := by
      rcases hne with hne | ⟨-, hmore⟩
      · simp [hne]
      · simp [hplaces hmore]
    rw [List.range'_succ, placeLoop]
    generalize hs' : placeBytes type fcgiId p index s = s' at *
    split
    · rename_i hlimit
      refine ⟨placedBytes p index s, ⟨hadvance.placed, hadvance.split⟩, fun _ => hplaces, ?_, fun _ => ⟨?_, ?_⟩,
        by simp⟩
      · exact holds_of_open ⟨hopen'.bytes, hopen'.length, hopen'.fits⟩ hfull hcurrent
      · rintro ⟨hiovec, hbyte⟩
        rcases hlimit with h | h
        · exact hiovec h
        · exact hbyte h
      · rw [hincomplete]
    · rename_i hmore
      rw [not_or] at hmore
      split
      · rename_i hfilled
        refine ⟨placedBytes p index s, ⟨hadvance.placed, hadvance.split⟩, fun _ => hplaces, ?_,
          by simp, fun _ => ⟨hmore, hincomplete,
            (by decide : 0 < maxAlignedContentLength), .inl rfl⟩⟩
        exact holds_of_full hopen' hfull (hopen'.length.symm.trans hfilled)
      · rename_i hunfilled
        have hall : s'.nvPairBytesPlaced = p.sum index + (p.bytes index).length := by
          have hplaced := hadvance.placed
          have hfits := hopen'.fits
          have hle := (p.reaches_succ hlt).le
          rw [SizedPair.Reaches, if_pos hlt] at hreaches
          rw [← hopen'.length] at hfits
          rw [hcount] at hplaced
          unfold placeCount at hplaced hbytes hprevious
          omega
        have hreaches' : p.Reaches (index + 1) s'.nvPairBytesPlaced := by
          rw [hall]
          exact p.reaches_succ hlt
        have hshort' : s'.previousContentLength < maxAlignedContentLength := by
          have := hopen'.fits
          have := hopen'.length
          omega
        obtain ⟨x, hx, hxne, hreturn⟩ := ih (index + 1) s' (current ++ placedBytes p index s) (by omega)
          hopen' hfull hmore hshort' hreaches' (.inl hcurrent)
        have hassoc : current ++ (placedBytes p index s ++ x) = current ++ placedBytes p index s ++ x :=
          (List.append_assoc ..).symm
        refine ⟨placedBytes p index s ++ x, hadvance.trans hx,
          fun _ hmore => by simp [hplaces hmore], ?_⟩
        rw [hassoc]
        refine ⟨hreturn.holds, fun h => ?_, fun h => ?_⟩
        · rw [← hincomplete]
          exact hreturn.limit h
        · rw [← hincomplete]
          exact hreturn.room h

/-- The start of a record, when there is room for one. -/
theorem startRecord_spec {content : Bytes} (h : Holds type fcgiId s content) (hroom : Room s)
    (hshort : s.previousContentLength < maxAlignedContentLength) :
    (startRecord type fcgiId s = none ∧ ¬ (2 ≤ s.remainingIovecCount ∧ 9 ≤ s.remainingByteCount)) ∨
      ∃ t contents current, startRecord type fcgiId s = some t ∧ content = contents.flatten ++ current ∧
        (∀ c ∈ contents, c.length = maxAlignedContentLength) ∧ Open type fcgiId t contents current ∧
        Room t ∧ t.previousContentLength < maxAlignedContentLength ∧
        t.nvPairBytesPlaced = s.nvPairBytesPlaced ∧ t.incompleteNvWrite = s.incompleteNvWrite := by
  obtain ⟨contents, current, hcontent, hfull, hcurrent⟩ := h
  unfold startRecord
  rcases hcurrent with ⟨rfl, hclosed⟩ | ⟨hne, hopen⟩
  · rw [if_pos hclosed.empty]
    split
    · rename_i henough
      rw [fcgiHeaderLen] at henough
      refine .inr ⟨_, contents, [], rfl, hcontent, hfull, ⟨⟨s.iovec, [], rfl, rfl, rfl, hclosed.bytes⟩,
        hclosed.empty, Nat.zero_le _⟩, ⟨?_, ?_⟩, hshort, rfl, rfl⟩
      · show s.remainingIovecCount - 1 ≠ 0
        omega
      · show s.remainingByteCount - 8 ≠ 0
        omega
    · rename_i hnone
      exact .inl ⟨rfl, hnone⟩
  · have hopened : s.previousContentLength ≠ 0 := by
      rw [hopen.length]
      exact fun hzero => hne (List.length_eq_zero_iff.mp hzero)
    rw [if_neg hopened]
    exact .inr ⟨s, contents, current, rfl, hcontent, hfull, hopen, hroom, hshort, rfl, rfl⟩

theorem drop_range (index : Nat) (h : index < 3) :
    (List.range 3).drop index = List.range' index (3 - index) := by
  interval_cases index
  · rfl
  · rfl
  · rfl

/-- What the loop that produces the records of a pair leaves. -/
structure RecordReturn (type : FcgiType) (fcgiId : UInt16) (p : SizedPair) (s t : EncodeState)
    (content x : Bytes) : Prop where
  advance : Advance p s t x
  holds : Holds type fcgiId t (content ++ x)
  incomplete : t.incompleteNvWrite = decide (t.nvPairBytesPlaced < p.totalLength)
  short : Room t → t.incompleteNvWrite = false → t.previousContentLength < maxAlignedContentLength

theorem recordLoop_spec (fuel : Nat) : ∀ (s : EncodeState) (content : Bytes),
    Holds type fcgiId s content → Room s → s.previousContentLength < maxAlignedContentLength →
    s.nvPairBytesPlaced ≤ p.totalLength → p.totalLength ≤ s.nvPairBytesPlaced + fuel →
    s.incompleteNvWrite = false →
    ∃ x, RecordReturn type fcgiId p s (recordLoop type fcgiId p fuel s) content x ∧
      (2 ≤ s.remainingIovecCount → 9 ≤ s.remainingByteCount →
        s.nvPairBytesPlaced < p.totalLength → x ≠ []) := by
  induction fuel with
  | zero =>
    intro s content h hroom hshort hle hfuel hincomplete
    refine ⟨[], ⟨.refl s, ?_, ?_, fun _ _ => hshort⟩, fun _ _ hlt => ?_⟩
    · rw [List.append_nil]
      exact h
    · rw [recordLoop, hincomplete, decide_eq_false (by omega)]
    · omega
  | succ fuel ih =>
    intro s content h hroom hshort hle hfuel hincomplete
    rw [recordLoop]
    split
    · rename_i hdone
      refine ⟨[], ⟨.refl s, ?_, ?_, fun _ _ => hshort⟩, fun _ _ hlt => ?_⟩
      · rw [List.append_nil]
        exact h
      · rw [hincomplete, decide_eq_false (by omega)]
      · omega
    · rename_i hmore
      rcases startRecord_spec h hroom hshort with ⟨hstart, hnone⟩ |
        ⟨t, contents, current, hstart, rfl, hfull, hopen, hroom', hshort', hplaced, hsame⟩
      · rw [hstart]
        obtain ⟨contents, current, hcontent, hfull, hcurrent⟩ := h
        refine ⟨[], ⟨⟨rfl, rfl⟩, ?_, ?_, fun _ hfalse => by cases hfalse⟩, fun hiovec hbyte => ?_⟩
        · rw [List.append_nil]
          refine ⟨contents, current, hcontent, hfull, ?_⟩
          rcases hcurrent with ⟨hnil, hclosed⟩ | ⟨hne, hopen⟩
          · exact .inl ⟨hnil, hclosed.bytes, hclosed.empty⟩
          · exact .inr ⟨hne, hopen.bytes, hopen.length, hopen.fits⟩
        · have hlt : s.nvPairBytesPlaced < p.totalLength := by omega
          exact (decide_eq_true hlt).symm
        · exact absurd ⟨hiovec, hbyte⟩ hnone
      · rw [hstart]
        have hlt : t.nvPairBytesPlaced < p.totalLength := by omega
        obtain ⟨hindex, hreaches, hbelow⟩ := p.reaches_determineIndex hlt
        obtain ⟨x, hx, hxne, hreturn⟩ := placeLoop_spec (3 - p.determineIndex t.nvPairBytesPlaced)
          (p.determineIndex t.nvPairBytesPlaced) t current (by omega) hopen hfull hroom' hshort'
          hreaches (.inr ⟨hindex, hbelow⟩)
        rw [← drop_range _ hindex] at hx hreturn
        dsimp only
        generalize hr : placeLoop type fcgiId p
          ((List.range 3).drop (p.determineIndex t.nvPairBytesPlaced)) t = r at *
        obtain ⟨u, limit⟩ := r
        dsimp only at hx hreturn ⊢
        have hxlength : x.length ≠ 0 := fun hzero =>
          hxne hindex hbelow (List.length_eq_zero_iff.mp hzero)
        have hadvance : Advance p s u x := ⟨hplaced ▸ hx.placed, hplaced ▸ hx.split⟩
        have hholds : Holds type fcgiId u (contents.flatten ++ current ++ x) := by
          rw [List.append_assoc]
          exact hreturn.holds
        cases limit with
        | true =>
          obtain ⟨hfull', hincomplete'⟩ := hreturn.limit rfl
          refine ⟨x, ⟨hadvance, hholds, ?_, fun hroom'' => absurd hroom'' hfull'⟩, fun _ _ _ =>
            hxne hindex hbelow⟩
          rw [if_pos rfl, hincomplete', hsame, hincomplete, Bool.false_or]
        | false =>
          obtain ⟨hroom'', hincomplete', hshort'', -⟩ := hreturn.room rfl
          have hle' : u.nvPairBytesPlaced ≤ p.totalLength := hadvance.le hle
          obtain ⟨y, hy, -⟩ := ih u (contents.flatten ++ current ++ x) hholds hroom'' hshort'' hle'
            (by have := hadvance.placed; omega) (by rw [hincomplete', hsame, hincomplete])
          rw [if_neg (by simp)]
          refine ⟨x ++ y, ⟨hadvance.trans hy.advance, ?_, hy.incomplete, hy.short⟩, fun _ _ _ hnil => ?_⟩
          · rw [← List.append_assoc]
            exact hy.holds
          · exact hxne hindex hbelow (List.append_eq_nil_iff.mp hnil).1

/-! ## Calls -/

/-- The number of bytes of the first remaining pair that were placed. -/
def EncodeState.offset (s : EncodeState) : Nat :=
  if s.incompleteNvWrite then s.nvPairBytesPlaced else 0

/-- A pair can be encoded: its parts are short enough and the lengths of a pair
in memory do not overflow. -/
def Encodable (sizeMax : Nat) (p : ByteSeqPair) : Prop :=
  PairFits p ∧ (encodePair p).length ≤ sizeMax

/-- An offset into the first pair. -/
def Within (offset : Nat) (pairs : List ByteSeqPair) : Prop :=
  ∀ p ∈ pairs.head?, offset < (encodePair p).length

/-- From `pairs` and `offset`, what was placed is `x`, and `rest` and `offset'`
remain. -/
structure Consumed (pairs : List ByteSeqPair) (offset : Nat) (x : Bytes) (rest : List ByteSeqPair)
    (offset' : Nat) : Prop where
  split : (encodePairs pairs).drop offset = x ++ (encodePairs rest).drop offset'
  suffix : rest <:+ pairs
  within : Within offset' rest
  finished : rest = [] → offset' = 0

/-- The iterator is advanced or the offset increases. -/
def Progress (pairs : List ByteSeqPair) (offset : Nat) (rest : List ByteSeqPair) (offset' : Nat) :
    Prop :=
  rest.length < pairs.length ∨ rest = pairs ∧ offset < offset'

theorem drop_encodePairs_cons {pair : ByteSeqPair} {pairs : List ByteSeqPair} {offset : Nat}
    (h : offset ≤ (encodePair pair).length) :
    (encodePairs (pair :: pairs)).drop offset = (encodePair pair).drop offset ++ encodePairs pairs :=
  List.drop_append_of_le_length h

theorem within_zero (pairs : List ByteSeqPair) : Within 0 pairs := by
  intro q _
  have := two_le_length_encodePair q
  omega

/-- The offset into the next pair is set. -/
theorem Holds.setPlaced {content : Bytes} (h : Holds type fcgiId s content) (placed : Nat) :
    Holds type fcgiId { s with nvPairBytesPlaced := placed } content := by
  obtain ⟨contents, current, hcontent, hall, hcurrent⟩ := h
  refine ⟨contents, current, hcontent, hall, ?_⟩
  rcases hcurrent with ⟨hnil, hclosed⟩ | ⟨hne, hopen⟩
  · exact .inl ⟨hnil, hclosed.bytes, hclosed.empty⟩
  · exact .inr ⟨hne, hopen.bytes, hopen.length, hopen.fits⟩

/-- A pair with its lengths. -/
def sized (pair : ByteSeqPair) : SizedPair :=
  ⟨encodeLength pair.1.length ++ encodeLength pair.2.length, pair.1, pair.2⟩

theorem encoding_sized (pair : ByteSeqPair) : (sized pair).encoding = encodePair pair := by
  simp only [SizedPair.encoding, sized, encodePair, List.append_assoc]

theorem totalLength_sized (pair : ByteSeqPair) :
    (sized pair).totalLength = (encodePair pair).length := by
  rw [← encoding_sized, (sized pair).length_encoding]

/-- The checks of the loop over the pairs. -/
def Rejected (sizeMax : Nat) (pair : ByteSeqPair) : Prop :=
  pair.1.length > kNameValuePairFourByteLength ∨ pair.2.length > kNameValuePairFourByteLength ∨
    (sized pair).totalLength > sizeMax

theorem rejected_iff {sizeMax : Nat} {pair : ByteSeqPair} :
    Rejected sizeMax pair ↔ ¬ Encodable sizeMax pair := by
  rw [Rejected, Encodable, PairFits, totalLength_sized]
  omega

theorem pairLoop_spec {sizeMax : Nat} (pairs : List ByteSeqPair) :
    ∀ (s : EncodeState) (content : Bytes) (offset : Nat), Holds type fcgiId s content →
      (Room s → s.previousContentLength < maxAlignedContentLength) → s.incompleteNvWrite = false →
      (∀ p ∈ pairs, Encodable sizeMax p) → Within offset pairs → (Room s ∨ offset = 0) →
      (pairs = [] → offset = 0) →
      ∃ t rest x, pairLoop type fcgiId sizeMax pairs offset s = (t, false, rest) ∧
        Holds type fcgiId t (content ++ x) ∧ Consumed pairs offset x rest t.offset ∧
        (2 ≤ s.remainingIovecCount → 9 ≤ s.remainingByteCount → pairs ≠ [] →
          x ≠ [] ∧ Progress pairs offset rest t.offset) := by
  induction pairs with
  | nil =>
    intro s content offset h _ hincomplete _ _ _ hoffset
    have hzero : s.offset = 0 := by
      rw [EncodeState.offset, hincomplete]
      rfl
    obtain rfl := hoffset rfl
    refine ⟨s, [], [], rfl, ?_, ⟨?_, List.suffix_refl _, by rintro _ ⟨⟩, fun _ => hzero⟩,
      fun _ _ hne => absurd rfl hne⟩
    · rw [List.append_nil]
      exact h
    · rw [hzero]
      rfl
  | cons pair pairs ih =>
    obtain ⟨name, value⟩ := pair
    intro s content offset h hshort hincomplete hpairs hwithin hroom _
    have hlt : offset < (encodePair (name, value)).length := hwithin (name, value) rfl
    rw [pairLoop]
    split
    · rename_i hnone
      have hfull : ¬ Room s := by
        rintro ⟨hiovec, hbyte⟩
        rcases hnone with h | h
        · exact hiovec h
        · exact hbyte h
      have hzero : s.offset = 0 := by
        rw [EncodeState.offset, hincomplete]
        rfl
      obtain rfl : offset = 0 := by
        rcases hroom with hroom | hzero
        · exact absurd hroom hfull
        · exact hzero
      refine ⟨s, _, [], rfl, ?_, ⟨?_, List.suffix_refl _, ?_, by simp⟩, fun hiovec hbyte _ => ?_⟩
      · rw [List.append_nil]
        exact h
      · rw [hzero]
        rfl
      · rw [hzero]
        exact hwithin
      · exact absurd ⟨by omega, by omega⟩ hfull
    · rename_i hsome
      rw [not_or] at hsome
      extract_lets start p placed
      have hencoding : p.encoding = encodePair (name, value) := encoding_sized (name, value)
      have htotal : (encodePair (name, value)).length = p.totalLength :=
        (totalLength_sized (name, value)).symm
      have haccepted : ¬ Rejected sizeMax (name, value) :=
        mt rejected_iff.mp (not_not.mpr (hpairs (name, value) List.mem_cons_self))
      obtain ⟨x, hx, hprogress⟩ := recordLoop_spec (p := p) (p.totalLength - offset) start
        content (h.setPlaced offset) hsome (hshort hsome) (show offset ≤ p.totalLength by omega)
        (show p.totalLength ≤ offset + (p.totalLength - offset) by omega) hincomplete
      have hsplit : (encodePair (name, value)).drop offset =
          x ++ (encodePair (name, value)).drop placed.nvPairBytesPlaced := by
        rw [← hencoding]
        exact hx.advance.split
      have hplaced : placed.nvPairBytesPlaced = offset + x.length := hx.advance.placed
      have hne : 2 ≤ s.remainingIovecCount → 9 ≤ s.remainingByteCount → x ≠ [] := fun hiovec hbyte =>
        hprogress hiovec hbyte (show offset < p.totalLength by omega)
      rw [if_neg (show ¬ (name.length > _ ∨ value.length > _ ∨ p.totalLength > sizeMax) from haccepted)]
      split
      · rename_i hcut
        have hoffset : placed.offset = placed.nvPairBytesPlaced := if_pos hcut
        have hcutlt : placed.nvPairBytesPlaced < p.totalLength := by
          have := hx.incomplete
          rw [hcut] at this
          exact of_decide_eq_true this.symm
        refine ⟨placed, _, x, rfl, hx.holds, ⟨?_, List.suffix_refl _, ?_, by simp⟩,
          fun hiovec hbyte _ => ⟨hne hiovec hbyte, .inr ⟨rfl, ?_⟩⟩⟩
        · rw [hoffset, drop_encodePairs_cons hlt.le, drop_encodePairs_cons (by omega), hsplit,
            List.append_assoc]
        · rintro q hq
          obtain rfl := Option.some.inj hq
          rw [hoffset]
          omega
        · have hpos : x.length ≠ 0 := fun hzero => hne hiovec hbyte (List.length_eq_zero_iff.mp hzero)
          omega
      · rename_i hwhole
        rw [Bool.not_eq_true] at hwhole
        have hall : ¬ placed.nvPairBytesPlaced < p.totalLength := by
          have := hx.incomplete
          rw [hwhole] at this
          exact of_decide_eq_false this.symm
        obtain ⟨t, rest, y, hloop, hholds, hconsumed, -⟩ := ih placed (content ++ x) 0 hx.holds
          (fun hroom' => hx.short hroom' hwhole) hwhole
          (fun q hq => hpairs q (by simp [hq])) (within_zero pairs) (.inr rfl) fun _ => rfl
        refine ⟨t, rest, x ++ y, hloop, ?_, ⟨?_, hconsumed.suffix.trans (List.suffix_cons _ _),
          hconsumed.within, hconsumed.finished⟩, fun hiovec hbyte _ => ⟨?_, .inl ?_⟩⟩
        · rw [← List.append_assoc]
          exact hholds
        · rw [drop_encodePairs_cons hlt.le, hsplit, List.drop_of_length_le (by omega), List.append_nil,
            List.append_assoc, ← hconsumed.split]
          rfl
        · exact fun hnil => hne hiovec hbyte (List.append_eq_nil_iff.mp hnil).1
        · have := hconsumed.suffix.length_le
          rw [List.length_cons]
          omega

/-- Full records have no padding. -/
theorem length_encodeRecords_full {contents : List Bytes}
    (h : ∀ c ∈ contents, c.length = maxAlignedContentLength) :
    (encodeRecords (contents.map (alignedRecord type fcgiId))).length =
      8 * contents.length + contents.flatten.length := by
  induction contents with
  | nil => rfl
  | cons c contents ih =>
    have hc := h c List.mem_cons_self
    have hpadding : paddingFor c.length = 0 := by rw [hc]; rfl
    rw [List.map_cons, encodeRecords_cons, List.length_append, length_encode_alignedRecord, hpadding,
      ih fun c' hc' => h c' (List.mem_cons_of_mem _ hc'), List.flatten_cons, List.length_append,
      List.length_cons, fcgiHeaderLen]
    omega

/-- The padding completes the last record. -/
theorem flatten_addPadding {content : Bytes} (h : Holds type fcgiId s content) :
    ∃ contents : List Bytes, content = contents.flatten ∧
      (∀ c ∈ contents, c ≠ [] ∧ c.length ≤ maxAlignedContentLength) ∧
      (addPadding type fcgiId s).iovec.flatten =
        encodeRecords (contents.map (alignedRecord type fcgiId)) ∧
      s.iovec.flatten.length = 8 * contents.length + content.length := by
  obtain ⟨contents, current, rfl, hfull, hcurrent⟩ := h
  have hcontents : ∀ c ∈ contents, c ≠ [] ∧ c.length ≤ maxAlignedContentLength := by
    intro c hc
    refine ⟨fun hnil => ?_, (hfull c hc).le⟩
    have := hfull c hc
    rw [hnil] at this
    exact absurd this (by decide)
  rcases hcurrent with ⟨rfl, hclosed⟩ | ⟨hne, hopen⟩
  · refine ⟨contents, by simp, hcontents, ?_, ?_⟩
    · rw [addPadding, hclosed.empty]
      exact hclosed.bytes
    · rw [hclosed.bytes, length_encodeRecords_full hfull, List.append_nil]
  · obtain ⟨⟨front, parts, hiovec, hindex, hparts, hfront⟩, hlength, hfits⟩ := hopen
    refine ⟨contents ++ [current], by simp, ?_, ?_, ?_⟩
    · simp only [List.mem_append, List.mem_singleton]
      rintro c (hc | rfl)
      · exact hcontents c hc
      · exact ⟨hne, hfits⟩
    · have hrecord : encodeRecords ((contents ++ [current]).map (alignedRecord type fcgiId)) =
          front.flatten ++ (populateHeader type fcgiId current.length (paddingFor current.length) ++
            (current ++ List.replicate (paddingFor current.length) 0)) := by
        simp [alignedRecord, Record.encode, Record.header, hfront]
      rw [hrecord, addPadding, hlength]
      by_cases haligned : current.length % fcgiHeaderLen = 0
      · rw [show paddingFor current.length = 0 from if_pos haligned, if_pos haligned, hiovec]
        simp [hparts]
      · rw [show paddingFor current.length = fcgiHeaderLen - current.length % fcgiHeaderLen from
          if_neg haligned, if_neg haligned]
        simp [EncodeState.setHeader, hiovec, hindex, hparts]
    · rw [hiovec, List.flatten_append, List.length_append, hfront, length_encodeRecords_full hfull,
        List.flatten_cons, List.length_append, hparts, length_populateHeader, List.length_append,
        List.length_append, List.length_singleton]
      omega

/-- The records of a call carry these contents. -/
structure Carries (type : FcgiType) (fcgiId : UInt16) (r : EncodeReturn) (contents : List Bytes) :
    Prop where
  records : r.iovec.flatten = encodeRecords (contents.map (alignedRecord type fcgiId))
  bounds : ∀ c ∈ contents, c ≠ [] ∧ c.length ≤ maxAlignedContentLength

theorem iovMax_of_posix {l : SystemLimits} (hl : l.Posix) : 16 ≤ min (l.iovMax.getD 1024) intMax := by
  have hknown := hl.iovMax
  cases hmax : l.iovMax with
  | none => decide
  | some n =>
    have hn := hknown n hmax
    rw [Option.getD_some, intMax]
    omega

/-- The variables at the start of a call. -/
def startState (l : SystemLimits) : EncodeState where
  remainingIovecCount := min (l.iovMax.getD 1024) intMax - 1
  remainingByteCount := l.ssizeMax - 7

theorem room_startState {l : SystemLimits} (hl : l.Posix) : Room (startState l) := by
  have hiovec := iovMax_of_posix hl
  have hssize := hl.ssizeMax
  constructor
  · show min (l.iovMax.getD 1024) intMax - 1 ≠ 0
    omega
  · show l.ssizeMax - 7 ≠ 0
    omega

theorem holds_startState (type : FcgiType) (fcgiId : UInt16) (l : SystemLimits) :
    Holds type fcgiId (startState l) [] := ⟨[], [], rfl, by simp, .inl ⟨rfl, rfl, rfl⟩⟩

/-- A call in which no pair is rejected. -/
theorem encodeNameValuePairs_eq {l : SystemLimits} {pairs rest : List ByteSeqPair} {offset : Nat}
    (hne : pairs ≠ [])
    (hloop : pairLoop type fcgiId l.sizeMax pairs offset (startState l) = (t, false, rest)) :
    encodeNameValuePairs type fcgiId l pairs offset =
      ⟨true, (addPadding type fcgiId t).numberToWrite, (addPadding type fcgiId t).iovec,
        (addPadding type fcgiId t).recordCount, (addPadding type fcgiId t).offset, rest⟩ := by
  unfold startState at hloop
  rw [encodeNameValuePairs, if_neg hne, hloop]
  rfl

/-- One call consumes bytes of the encoded pairs. -/
theorem encodeNameValuePairs_spec (type : FcgiType) (fcgiId : UInt16) {l : SystemLimits}
    (hl : l.Posix) {pairs : List ByteSeqPair}
    {offset : Nat} (hne : pairs ≠ []) (hpairs : ∀ p ∈ pairs, Encodable l.sizeMax p)
    (hwithin : Within offset pairs) :
    (encodeNameValuePairs type fcgiId l pairs offset).ok = true ∧
      ∃ contents, Carries type fcgiId (encodeNameValuePairs type fcgiId l pairs offset) contents ∧
        contents.flatten ≠ [] ∧
        Consumed pairs offset contents.flatten (encodeNameValuePairs type fcgiId l pairs offset).rest
          (encodeNameValuePairs type fcgiId l pairs offset).offset ∧
        Progress pairs offset (encodeNameValuePairs type fcgiId l pairs offset).rest
          (encodeNameValuePairs type fcgiId l pairs offset).offset := by
  have hiovec := iovMax_of_posix hl
  have hssize := hl.ssizeMax
  obtain ⟨t, rest, x, hloop, hholds, hconsumed, hprogress⟩ := pairLoop_spec pairs (startState l) []
    offset (holds_startState type fcgiId l) (fun _ => (by decide : 0 < maxAlignedContentLength)) rfl
    hpairs hwithin (.inl (room_startState hl)) (fun hnil => absurd hnil hne)
  obtain ⟨hx, hstep⟩ := hprogress
    (show 2 ≤ min (l.iovMax.getD 1024) intMax - 1 by omega) (show 9 ≤ l.ssizeMax - 7 by omega) hne
  rw [List.nil_append] at hholds
  obtain ⟨contents, rfl, hbounds, hflatten, -⟩ := flatten_addPadding hholds
  have hoffset : (addPadding type fcgiId t).offset = t.offset := by
    unfold addPadding
    dsimp only
    split <;> rfl
  rw [encodeNameValuePairs_eq hne hloop, hoffset]
  exact ⟨rfl, contents, ⟨hflatten, hbounds⟩, hx, hconsumed, hstep⟩

/-- Repeated calls with the iterator and the offset that the last one returned,
until the iterator is at the end. -/
inductive Calls (type : FcgiType) (fcgiId : UInt16) (l : SystemLimits) :
    List ByteSeqPair → Nat → List EncodeReturn → Prop
  | done : Calls type fcgiId l [] 0 []
  | call {pairs : List ByteSeqPair} {offset : Nat} {r : EncodeReturn} {calls : List EncodeReturn}
      (hne : pairs ≠ []) (hcall : encodeNameValuePairs type fcgiId l pairs offset = r)
      (hok : r.ok = true) (hprogress : Progress pairs offset r.rest r.offset)
      (h : Calls type fcgiId l r.rest r.offset calls) :
      Calls type fcgiId l pairs offset (r :: calls)

theorem exists_calls (type : FcgiType) (fcgiId : UInt16) {l : SystemLimits} (hl : l.Posix) (n : Nat) :
    ∀ (pairs : List ByteSeqPair) (offset : Nat), (∀ p ∈ pairs, Encodable l.sizeMax p) →
      Within offset pairs → (pairs = [] → offset = 0) →
      ((encodePairs pairs).drop offset).length ≤ n →
      ∃ (calls : List EncodeReturn) (contents : List (List Bytes)),
        Calls type fcgiId l pairs offset calls ∧ List.Forall₂ (Carries type fcgiId) calls contents ∧
          contents.flatten.flatten = (encodePairs pairs).drop offset := by
  induction n with
  | zero =>
    intro pairs offset _ hwithin hoffset hlength
    cases pairs with
    | nil =>
      obtain rfl := hoffset rfl
      exact ⟨[], [], .done, .nil, rfl⟩
    | cons pair pairs =>
      have hlt := hwithin pair rfl
      rw [drop_encodePairs_cons hlt.le, List.length_append, List.length_drop] at hlength
      omega
  | succ n ih =>
    intro pairs offset hpairs hwithin hoffset hlength
    by_cases hne : pairs = []
    · subst hne
      obtain rfl := hoffset rfl
      exact ⟨[], [], .done, .nil, rfl⟩
    · obtain ⟨hok, contents, hcarries, hx, hconsumed, hprogress⟩ :=
        encodeNameValuePairs_spec type fcgiId hl hne hpairs hwithin
      have hpos : contents.flatten.length ≠ 0 := fun hzero => hx (List.length_eq_zero_iff.mp hzero)
      rw [hconsumed.split, List.length_append] at hlength
      obtain ⟨calls, later, hcalls, hlater, hflatten⟩ := ih _ _
        (fun p hp => hpairs p (hconsumed.suffix.subset hp)) hconsumed.within hconsumed.finished
        (by omega)
      refine ⟨_, contents :: later, .call hne rfl hok hprogress hcalls, .cons hcarries hlater, ?_⟩
      rw [List.flatten_cons, List.flatten_append, hflatten, ← hconsumed.split]

/-- Repeated calls end, each of them makes progress, and their records carry the
encoded pairs, from which the pairs are extracted again. -/
theorem encode_all {l : SystemLimits} (hl : l.Posix) {pairs : List ByteSeqPair}
    (hpairs : ∀ p ∈ pairs, PairFits p) (hsize : ∀ p ∈ pairs, (encodePair p).length ≤ l.sizeMax)
    (type : FcgiType) (fcgiId : UInt16) :
    ∃ (calls : List EncodeReturn) (contents : List (List Bytes)),
      Calls type fcgiId l pairs 0 calls ∧ List.Forall₂ (Carries type fcgiId) calls contents ∧
        contents.flatten.flatten = encodePairs pairs ∧
        extractBinaryNameValuePairs contents.flatten.flatten = pairs := by
  obtain ⟨calls, contents, hcalls, hcarries, hflatten⟩ := exists_calls type fcgiId hl _ pairs 0
    (fun p hp => ⟨hpairs p hp, hsize p hp⟩) (within_zero pairs) (fun _ => rfl) le_rfl
  rw [List.drop_zero] at hflatten
  exact ⟨calls, contents, hcalls, hcarries, hflatten, by rw [hflatten, extract_encodePairs hpairs]⟩

/-- Two pairs with the least iovec limit. -/
theorem encode_all_two : ∃ (calls : List EncodeReturn) (contents : List (List Bytes)),
    Calls kFcgiParams 1 { iovMax := some 16 } [([65], [66, 67]), ([], [])] 0 calls ∧
      List.Forall₂ (Carries kFcgiParams 1) calls contents ∧
      contents.flatten.flatten = [1, 2, 65, 66, 67, 0, 0] := by
  obtain ⟨calls, contents, hcalls, hcarries, hflatten, -⟩ := @encode_all { iovMax := some 16 }
    ⟨by rintro n h; cases h; decide, by decide⟩ [([65], [66, 67]), ([], [])]
    (by simp [PairFits, kNameValuePairFourByteLength]) (by decide) kFcgiParams 1
  exact ⟨calls, contents, hcalls, hcarries, hflatten⟩

end

end AsComponents.Encoding
